import ReadQuery.Json.Basic
import ReadQuery.Number.Integer
import ReadQuery.Text.Blank

/-!
# JSON as it is written

Reading JSON text takes two steps. The first finds the structure and keeps numbers and strings as
they are written; it refuses what is not JSON, and nothing else. The second reads a written value:
escapes are resolved, numbers are converted, repeated keys are collected, and what cannot be held (a
number beyond every float, half of a surrogate pair, nesting beyond a given depth) is refused. A
reader that skips a part of the text takes only the first step on it.
-/

namespace ReadQuery.Json

open Text (skipGap)

/-- A JSON value as written. A float may also come as such, without a text. -/
inductive Written where
  | null
  | bool (b : Bool)
  | number (text : List Char)
  | float (d : Number.Double)
  | string (body : List Char)
  | array (items : List Written)
  | object (members : List (List Char × Written))
  deriving Inhabited

def isHex (c : Char) : Bool :=
  c.isDigit || ('a' ≤ c && c ≤ 'f') || ('A' ≤ c && c ≤ 'F')

/-- The body of a string up to its closing quote, escapes included, and the rest. -/
def scanString : List Char → Option (List Char × List Char)
  | [] => none
  | '"' :: cs => some ([], cs)
  | '\\' :: 'u' :: a :: b :: c :: d :: cs =>
    if isHex a && isHex b && isHex c && isHex d then
      (scanString cs).map fun p => ('\\' :: 'u' :: a :: b :: c :: d :: p.1, p.2)
    else none
  | '\\' :: e :: cs =>
    if "\"\\/bfnrt".toList.contains e then
      (scanString cs).map fun p => ('\\' :: e :: p.1, p.2)
    else none
  | c :: cs =>
    if c == '\\' || c.toNat < 0x20 then none
    else (scanString cs).map fun p => (c :: p.1, p.2)

def takeDigits (cs : List Char) : List Char × List Char :=
  (cs.takeWhile Char.isDigit, cs.dropWhile Char.isDigit)

/-- The fraction of a number, if one follows. -/
def scanFraction : List Char → List Char × List Char
  | '.' :: cs =>
    let (ds, rest) := takeDigits cs
    if ds.isEmpty then ([], '.' :: cs) else ('.' :: ds, rest)
  | cs => ([], cs)

/-- The exponent of a number, if one follows. -/
def scanExponent : List Char → List Char × List Char
  | [] => ([], [])
  | e :: cs =>
    if e == 'e' || e == 'E' then
      let (sign, after) := match cs with
        | '+' :: r => (['+'], r)
        | '-' :: r => (['-'], r)
        | r => ([], r)
      let (ds, rest) := takeDigits after
      if ds.isEmpty then ([], e :: cs) else (e :: sign ++ ds, rest)
    else ([], e :: cs)

/-- A number without its sign: no digit follows a leading zero. -/
def scanUnsigned (cs : List Char) : Option (List Char × List Char) :=
  let whole := match cs with
    | '0' :: r => (['0'], r)
    | r => takeDigits r
  if whole.1.isEmpty then none
  else
    let (frac, r) := scanFraction whole.2
    let (exp, r) := scanExponent r
    some (whole.1 ++ frac ++ exp, r)

/-- Scans a number with its sign. -/
def scanNumber : List Char → Option (List Char × List Char)
  | '-' :: cs => (scanUnsigned cs).map fun p => ('-' :: p.1, p.2)
  | cs => scanUnsigned cs

mutual

/-- Scans the value in front of a text; the fuel is spent on its parts. -/
def scanValue : Nat → List Char → Option (Written × List Char)
  | 0, _ => none
  | fuel + 1, cs =>
    match skipGap cs with
    | '{' :: r =>
      match skipGap r with
      | '}' :: r => some (.object [], r)
      | r => (scanMembers fuel r).map fun p => (.object p.1, p.2)
    | '[' :: r =>
      match skipGap r with
      | ']' :: r => some (.array [], r)
      | r => (scanItems fuel r).map fun p => (.array p.1, p.2)
    | '"' :: r => (scanString r).map fun p => (.string p.1, p.2)
    | 'n' :: 'u' :: 'l' :: 'l' :: r => some (.null, r)
    | 't' :: 'r' :: 'u' :: 'e' :: r => some (.bool true, r)
    | 'f' :: 'a' :: 'l' :: 's' :: 'e' :: r => some (.bool false, r)
    | r => (scanNumber r).map fun p => (.number p.1, p.2)

def scanItems : Nat → List Char → Option (List Written × List Char)
  | 0, _ => none
  | fuel + 1, cs =>
    match scanValue fuel cs with
    | none => none
    | some (v, r) =>
      match skipGap r with
      | ',' :: r => (scanItems fuel r).map fun p => (v :: p.1, p.2)
      | ']' :: r => some ([v], r)
      | _ => none

/-- The members of an object up to its end. -/
def scanMembers : Nat → List Char → Option (List (List Char × Written) × List Char)
  | 0, _ => none
  | fuel + 1, cs =>
    match skipGap cs with
    | '"' :: r =>
      match scanString r with
      | none => none
      | some (key, r) =>
        match skipGap r with
        | ':' :: r =>
          match scanValue fuel r with
          | none => none
          | some (v, r) =>
            match skipGap r with
            | ',' :: r => (scanMembers fuel r).map fun p => ((key, v) :: p.1, p.2)
            | '}' :: r => some ([(key, v)], r)
            | _ => none
        | _ => none
    | _ => none

end

/-- A whole text as one written value. Every step of the search takes a character, so twice the
length of the text is fuel enough. -/
def Written.ofList? (cs : List Char) : Option Written :=
  match scanValue (2 * cs.length + 2) cs with
  | some (v, r) => if (skipGap r).isEmpty then some v else none
  | none => none

/-- The value of a hexadecimal digit. -/
def hexValue (c : Char) : Nat :=
  if c.isDigit then c.toNat - '0'.toNat
  else if 'a' ≤ c && c ≤ 'f' then c.toNat - 'a'.toNat + 10
  else c.toNat - 'A'.toNat + 10

/-- The value of four hexadecimal digits. -/
def hexValue4 (a b c d : Char) : Nat :=
  ((hexValue a * 16 + hexValue b) * 16 + hexValue c) * 16 + hexValue d

/-- The character of a one-letter escape. -/
def unescapeLetter (c : Char) : Char :=
  if c == 'b' then '\x08'
  else if c == 'f' then '\x0C'
  else if c == 'n' then '\n'
  else if c == 'r' then '\r'
  else if c == 't' then '\t'
  else c

/-- The characters that the body of a string stands for. The two halves of a surrogate pair must
follow each other. -/
def unescape : List Char → Option (List Char)
  | [] => some []
  | '\\' :: 'u' :: a :: b :: c :: d :: cs =>
    let hi := hexValue4 a b c d
    if 0xDC00 ≤ hi && hi ≤ 0xDFFF then none
    else if 0xD800 ≤ hi && hi ≤ 0xDBFF then
      match cs with
      | '\\' :: 'u' :: e :: f :: g :: h :: cs =>
        let lo := hexValue4 e f g h
        if 0xDC00 ≤ lo && lo ≤ 0xDFFF then
          let n := 0x10000 + (hi - 0xD800) * 0x400 + (lo - 0xDC00)
          (unescape cs).map (Char.ofNat n :: ·)
        else none
      | _ => none
    else (unescape cs).map (Char.ofNat hi :: ·)
  | '\\' :: e :: cs => (unescape cs).map (unescapeLetter e :: ·)
  | c :: cs => (unescape cs).map (c :: ·)

/-- The digits of the fraction and the exponent of a written magnitude. -/
def numberParts (cs : List Char) : List Char × List Char × Int :=
  let (whole, r) := takeDigits cs
  let (frac, r) := scanFraction r
  let exponent := match (scanExponent r).1 with
    | _ :: ds => (Number.integer? ds).getD 0
    | [] => 0
  (whole, frac.drop 1, exponent)

/-- A written number that is no integer of the range as a float. -/
def floatOf (negative : Bool) (cs : List Char) : Number.Double :=
  let (whole, frac, exponent) := numberParts cs
  Number.Double.ofDecimal negative (Number.digitsValue (whole ++ frac)) (exponent - frac.length)

/-- A written number. Minus zero is a float; a magnitude beyond every float is refused. -/
def readNumber? (cs : List Char) : Option Json :=
  let (negative, digits) := match cs with
    | '-' :: r => (true, r)
    | r => (false, r)
  let n := Number.digitsValue digits
  let isInteger := digits.all Char.isDigit
  if isInteger && !negative && n < UInt64.size then some (.int n)
  else if isInteger && negative && n ≠ 0 && n ≤ Nat.pow 2 63 then some (.int (-(n : Int)))
  else
    let d := floatOf negative digits
    if d.isFinite then some (.float d) else none

namespace Written

mutual

/-- Reads a written value. `depth` more arrays and objects may be entered. -/
def read? (depth : Nat) : Written → Option Json
  | .null => some .null
  | .bool b => some (.bool b)
  | .number cs => readNumber? cs
  | .float d => some (.float d)
  | .string body => (unescape body).map fun cs => .string (String.ofList cs)
  | .array items => if depth = 0 then none else (readAll? (depth - 1) items).map .array
  | .object members =>
    if depth = 0 then none
    else (readMembers? (depth - 1) members).map fun ms => .object (collect ms)

/-- Reads some values at a depth that is left. -/
def readAll? (depth : Nat) : List Written → Option (List Json)
  | [] => some []
  | w :: ws => (read? depth w).bind fun j => (readAll? depth ws).map (j :: ·)

def readMembers? (depth : Nat) : List (List Char × Written) → Option (List (String × Json))
  | [] => some []
  | (key, w) :: ms =>
    (unescape key).bind fun k =>
      (read? depth w).bind fun j =>
        (readMembers? depth ms).map ((String.ofList k, j) :: ·)

end

end Written

namespace Written

mutual

/-- How many arrays and objects are nested in a written value. -/
def nesting : Written → Nat
  | .array items => nestingAll items + 1
  | .object members => nestingMembers members + 1
  | .null | .bool _ | .number _ | .float _ | .string _ => 0

/-- How many arrays and objects are nested in one of the items of an array. -/
def nestingAll : List Written → Nat
  | [] => 0
  | w :: ws => max (nesting w) (nestingAll ws)

/-- How many arrays and objects are nested in one of the members of an object. -/
def nestingMembers : List (List Char × Written) → Nat
  | [] => 0
  | (_, w) :: ms => max (nesting w) (nestingMembers ms)

end

end Written

/-- How many arrays and objects may be nested in a text that is read as a whole. -/
def maxDepth : Nat := 127

/-- Reads a whole text as one JSON value. -/
def ofText? (s : String) : Option Json :=
  (Written.ofList? s.toList).bind (Written.read? maxDepth)

end ReadQuery.Json
