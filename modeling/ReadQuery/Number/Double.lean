/-!
# Binary floating-point numbers of 64 bits

A number is its bits: a sign, eleven bits of exponent and 52 of fraction. A finite one stands for `±
m · 2 ^ q`. The number nearest to a decimal or a fraction is found with whole numbers only; of two
equally near the one with the even significand is taken, and what lies beyond the greatest finite
number is infinite.
-/

namespace ReadQuery.Number

/-- A floating-point number, given by its bits. -/
structure Double where
  bits : UInt64
  deriving DecidableEq, Repr, Inhabited

namespace Double

def isNegative (d : Double) : Bool :=
  Nat.pow 2 63 ≤ d.bits.toNat

/-- The bits without the sign. -/
def magnitude (d : Double) : Nat :=
  d.bits.toNat % Nat.pow 2 63

/-- The magnitude bits of infinity; those of every NaN are greater. -/
def infiniteBits : Nat := 0x7FF * Nat.pow 2 52

def isNaN (d : Double) : Bool := infiniteBits < d.magnitude

def isFinite (d : Double) : Bool := d.magnitude < infiniteBits

/-- `m` and `q` of the magnitude `m · 2 ^ q` of a finite number. -/
def scaled (d : Double) : Nat × Int :=
  let e : Nat := d.magnitude / Nat.pow 2 52
  let f : Nat := d.magnitude % Nat.pow 2 52
  if e = 0 then (f, -1074) else (Nat.pow 2 52 + f, Int.ofNat e - 1075)

/-- The number with the given sign and magnitude bits. -/
def ofMagnitude (negative : Bool) (m : Nat) : Double :=
  ⟨UInt64.ofNat (m + if negative then Nat.pow 2 63 else 0)⟩

/-- The bits that stand for every NaN where one is reported. -/
def canonicalNaN : Double := ⟨0x7FF8000000000000⟩

/-- The quotient rounded to a whole number, a half to the even one. -/
def roundEven (num den : Nat) : Nat :=
  let t := num / den
  let r := num % den
  if 2 * r < den then t else if den < 2 * r then t + 1 else t + t % 2

/-- `num / den · 2 ^ -q`, rounded to a whole number. -/
def significand (num den : Nat) (q : Int) : Nat :=
  if 0 ≤ q then roundEven num (den * Nat.pow 2 q.toNat)
  else roundEven (num * Nat.pow 2 (-q).toNat) den

/-- Whether `2 ^ e` is at most `num / den`. -/
def powerBelow (num den : Nat) (e : Int) : Bool :=
  if 0 ≤ e then den * Nat.pow 2 e.toNat ≤ num else den ≤ num * Nat.pow 2 (-e).toNat

/-- The magnitude bits of the number nearest to `num / den`. -/
def nearestBits (num den : Nat) : Nat :=
  if num = 0 then 0
  else
    let e : Int := (num.log2 : Int) - den.log2
    let top := if powerBelow num den e then e else e - 1
    let q := max (top - 52) (-1074)
    min ((q + 1074).toNat * Nat.pow 2 52 + significand num den q) infiniteBits

/-- The number nearest to `± n · 10 ^ e`. Exponents far beyond the range are not worked out. -/
def ofDecimal (negative : Bool) (n : Nat) (e : Int) : Double :=
  let places := (Nat.toDigits 10 n).length
  if n = 0 then ofMagnitude negative 0
  else if 400 < (places : Int) + e then ofMagnitude negative infiniteBits
  else if (places : Int) + e < -400 then ofMagnitude negative 0
  else if 0 ≤ e then ofMagnitude negative (nearestBits (n * Nat.pow 10 e.toNat) 1)
  else ofMagnitude negative (nearestBits n (Nat.pow 10 (-e).toNat))

def ofInt (i : Int) : Double :=
  ofDecimal (i < 0) i.natAbs 0

end Double

end ReadQuery.Number
