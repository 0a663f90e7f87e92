import ReadQuery.Text.Blank

/-!
# Integers of fixed width

Reading and writing integers of 64 bits in decimal, the check of their range, the product that stays
at the end of the range instead of leaving it, and counting on in 64 and in 32 bits.
-/

namespace ReadQuery.Number

def minInt64 : Int := -9223372036854775808

/-- The greatest signed integer of 64 bits. -/
def maxInt64 : Int := 9223372036854775807

/-- The integer as a word, if it fits. -/
def int64? (i : Int) : Option Int64 :=
  if minInt64 ≤ i ∧ i ≤ maxInt64 then some (Int64.ofInt i) else none

/-- The number of 64 bits that is closest to an integer. -/
def clampInt64 (i : Int) : Int64 :=
  if i < minInt64 then Int64.ofInt minInt64
  else if maxInt64 < i then Int64.ofInt maxInt64
  else Int64.ofInt i

/-- The product, held at the ends of the range. -/
def mulHeld (a b : Int64) : Int64 :=
  clampInt64 (a.toInt * b.toInt)

/-- The value of a list of decimal digits. -/
def digitsValue (cs : List Char) : Nat :=
  cs.foldl (fun n c => 10 * n + (c.toNat - '0'.toNat)) 0

/-- A non-empty list of decimal digits as a number. -/
def natural? (cs : List Char) : Option Nat :=
  if !cs.isEmpty && cs.all Char.isDigit then some (digitsValue cs) else none

/-- A number with an optional sign in front. -/
def integer? : List Char → Option Int
  | '-' :: cs => (natural? cs).map fun n => -(n : Int)
  | '+' :: cs => (natural? cs).map fun n => (n : Int)
  | cs => (natural? cs).map fun n => (n : Int)

/-- Reads a whole text as an integer of 64 bits. -/
def readInt64? (s : String) : Option Int64 :=
  (integer? s.toList).bind int64?

/-- Writes an integer of 64 bits in decimal. -/
def showInt64 (i : Int64) : String :=
  toString i.toInt

/-- The unsigned number of 64 bits that digits spell, if it fits. -/
def readUInt64? (cs : List Char) : Option UInt64 :=
  (natural? cs).bind fun n => if n < UInt64.size then some (UInt64.ofNat n) else none

/-- The next unsigned number of 64 bits, if there is one. -/
def nextUInt64? (n : UInt64) : Option UInt64 :=
  if n.toNat + 1 < UInt64.size then some (n + 1) else none

/-- The next signed number of 32 bits, if there is one. -/
def nextInt32? (n : Int32) : Option Int32 :=
  if n < Int32.maxValue then some (n + 1) else none

/-- A number of 64 bits is read back from the integer it stands for. -/
theorem int64?_toInt (w : Int64) : int64? w.toInt = some w := by
  have hl := w.le_toInt
  have hu := w.toInt_lt
  have h : minInt64 ≤ w.toInt ∧ w.toInt ≤ maxInt64 := by
    constructor <;> simp only [minInt64, maxInt64] <;> omega
  simp [int64?, h]

end ReadQuery.Number
