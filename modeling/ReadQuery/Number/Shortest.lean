import ReadQuery.Number.Double

/-!
# Shortest decimals

The decimal of fewest digits that reads back as a given floating-point number, and of those the
nearest one. Grids of one, two, three, … significant digits are tried in turn; a grid has a decimal
that reads back exactly when one of the number's two neighbours on it does.
-/

namespace ReadQuery.Number

/-- Which of two equally near decimals is taken. -/
inductive Tie where
  | up
  | even
  deriving DecidableEq, Repr

/-- The decimal `digits · 10 ^ exponent`. -/
structure Decimal where
  digits : Nat
  exponent : Int
  deriving DecidableEq, Repr

/-- The numbers that read back, as fractions over one denominator: `value` lies between `least` and
`greatest`, which belong to them if `closed`. -/
structure Interval where
  value : Nat
  least : Nat
  greatest : Nat
  denominator : Nat
  closed : Bool

/-- The decimals that read back as `m · 2 ^ q`. Below a power of two the neighbour is half as
far. -/
def Interval.ofScaled (m : Nat) (q : Int) : Interval :=
  let below := if m = Nat.pow 2 52 ∧ q ≠ -1074 then 1 else 2
  let num := if 2 ≤ q then Nat.pow 2 (q - 2).toNat else 1
  let den := if 2 ≤ q then 1 else Nat.pow 2 (2 - q).toNat
  { value := 4 * m * num
    least := (4 * m - below) * num
    greatest := (4 * m + 2) * num
    denominator := den
    closed := m % 2 = 0 }

/-- The interval in units of `10 ^ e`. -/
def Interval.inUnits (i : Interval) (e : Int) : Interval :=
  if 0 ≤ e then { i with denominator := i.denominator * Nat.pow 10 e.toNat }
  else
    let p := Nat.pow 10 (-e).toNat
    { i with value := i.value * p, least := i.least * p, greatest := i.greatest * p }

/-- Whether a whole number of units reads back. -/
def Interval.reads (i : Interval) (n : Nat) : Bool :=
  let x := n * i.denominator
  if i.closed then i.least ≤ x && x ≤ i.greatest else i.least < x && x < i.greatest

/-- The neighbour of the value that reads back, the nearer one if both do. -/
def Interval.neighbour? (i : Interval) (tie : Tie) : Option Nat :=
  let n := i.value / i.denominator
  let rest := 2 * (i.value % i.denominator)
  match i.reads n, i.reads (n + 1) with
  | false, false => none
  | true, false => some n
  | false, true => some (n + 1)
  | true, true =>
    if rest < i.denominator then some n
    else if i.denominator < rest then some (n + 1)
    else match tie with
      | .up => some (n + 1)
      | .even => some (n + n % 2)

/-- The exponent of the leading digit of `num / den`, sought from a first guess upwards. -/
def leadingExponent (num den : Nat) : Nat → Int → Int
  | 0, e => e
  | fuel + 1, e =>
    let next := e + 1
    let reached :=
      if 0 ≤ next then den * Nat.pow 10 next.toNat ≤ num else den ≤ num * Nat.pow 10 (-next).toNat
    if reached then leadingExponent num den fuel next else e

/-- Tries the grids whose unit is `10 ^ e`, then `10 ^ (e - 1)`, and so on. -/
def shortestFrom (i : Interval) (tie : Tie) : Nat → Int → Decimal
  | 0, e => ⟨i.value / i.denominator, e⟩
  | fuel + 1, e =>
    match (i.inUnits e).neighbour? tie with
    | some n => ⟨n, e⟩
    | none => shortestFrom i tie fuel (e - 1)

/-- Drops zeros at the end of the digits. -/
def Decimal.strip : Nat → Decimal → Decimal
  | 0, d => d
  | fuel + 1, d =>
    if d.digits ≠ 0 ∧ d.digits % 10 = 0 then Decimal.strip fuel ⟨d.digits / 10, d.exponent + 1⟩
    else d

/-- The shortest decimal of a finite number's magnitude, without trailing zeros. -/
def Double.shortest (d : Double) (tie : Tie) : Decimal :=
  let (m, q) := d.scaled
  if m = 0 then ⟨0, 0⟩
  else
    let i := Interval.ofScaled m q
    let guess : Int := (q + m.log2 - 1) * 30103 / 100000 - 2
    let top := leadingExponent i.value i.denominator 8 guess
    (shortestFrom i tie 20 top).strip 20

end ReadQuery.Number
