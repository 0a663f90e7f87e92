import ReadQuery.Number.Shortest

/-!
# Texts of floating-point numbers

All texts write the shortest decimal that reads back. They differ in where positional notation ends,
in whether a whole number keeps `.0`, and in how exponents and non-finite numbers are spelt.
-/

namespace ReadQuery.Number

/-- The decisions of one text form. The exponent of a number is that of its leading digit. -/
structure Layout where
  /-- The leading exponents written positionally: from the first up to below the second. -/
  positional : Option (Int × Int)
  /-- Whether a whole number written positionally ends in `.0`. -/
  keepsPoint : Bool
  /-- Whether a positive exponent has a plus sign. -/
  plusSign : Bool
  /-- Which of two equally near shortest decimals is written. -/
  tie : Tie

namespace Layout

/-- Never an exponent, and no `.0`. -/
def plain : Layout := ⟨none, false, false, .up⟩

/-- A fraction or an exponent shows in every number: `1.0`, `1e16`, `1e-5`. -/
def marked : Layout := ⟨some (-4, 16), true, false, .up⟩

/-- The form of numbers in JSON text: `1.0`, `1e+16`, `0.00001`, `1e-6`. -/
def json : Layout := ⟨some (-5, 16), true, true, .even⟩

end Layout

/-- Digits with the decimal point after the first `whole` of them, zeros filling the gaps. -/
def positionalText (digits : List Char) (whole : Int) (keepsPoint : Bool) : List Char :=
  if whole ≤ 0 then
    ['0', '.'] ++ List.replicate (-whole).toNat '0' ++ digits
  else if (digits.length : Int) ≤ whole then
    digits ++ List.replicate (whole.toNat - digits.length) '0'
      ++ if keepsPoint then ['.', '0'] else []
  else
    digits.take whole.toNat ++ '.' :: digits.drop whole.toNat

/-- One digit, the point and the others, and the exponent of the leading digit. -/
def scientificText (digits : List Char) (exponent : Int) (plusSign : Bool) : List Char :=
  let body := match digits with
    | [] => ['0']
    | [d] => [d]
    | d :: ds => d :: '.' :: ds
  let sign := if exponent < 0 then ['-'] else if plusSign then ['+'] else []
  body ++ 'e' :: sign ++ Nat.toDigits 10 exponent.natAbs

/-- The shortest digits of a magnitude, in positional or scientific notation. -/
def Layout.magnitudeText (l : Layout) (d : Double) : List Char :=
  let dec := d.shortest l.tie
  let digits := Nat.toDigits 10 dec.digits
  let leading : Int := dec.exponent + digits.length - 1
  let isPositional := match l.positional with
    | none => true
    | some (low, high) => dec.digits == 0 || (low ≤ leading && leading < high)
  if isPositional then positionalText digits (leading + 1) l.keepsPoint
  else scientificText digits leading l.plusSign

/-- The text of a number; `NaN`, `inf` and `-inf` stand for the non-finite ones. -/
def Layout.text (l : Layout) (d : Double) : String :=
  if d.isNaN then "NaN"
  else
    let sign := if d.isNegative then ['-'] else []
    let body := if d.isFinite then l.magnitudeText d else "inf".toList
    String.ofList (sign ++ body)

end ReadQuery.Number
