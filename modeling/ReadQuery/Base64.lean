/-!
# Base64

Three bytes are written as four characters of an alphabet of 64. A rest of one or two bytes is
written as two or three characters, which may be padded to four. Reading is strict: the padding is
there or not as the form demands, and the bits of the last character that carry nothing are zero.
-/

namespace ReadQuery.Base64

/-- A form of Base64: the last two characters of the alphabet, and whether the end is padded. -/
structure Form where
  char62 : Char
  char63 : Char
  padded : Bool
  deriving DecidableEq, Repr

/-- The standard alphabet, with padding. -/
def standard : Form := ⟨'+', '/', true⟩

/-- The standard alphabet without padding. -/
def standardBare : Form := ⟨'+', '/', false⟩

/-- The alphabet for URLs, with padding. -/
def urlSafe : Form := ⟨'-', '_', true⟩

/-- The alphabet for URLs without padding. -/
def urlSafeBare : Form := ⟨'-', '_', false⟩

/-- The character of a number below 64. -/
def Form.char (f : Form) (n : Nat) : Char :=
  if n < 26 then Char.ofNat ('A'.toNat + n)
  else if n < 52 then Char.ofNat ('a'.toNat + (n - 26))
  else if n < 62 then Char.ofNat ('0'.toNat + (n - 52))
  else if n = 62 then f.char62
  else f.char63

/-- The number of a character of the alphabet. -/
def Form.value? (f : Form) (c : Char) : Option Nat :=
  if c.isUpper then some (c.toNat - 'A'.toNat)
  else if c.isLower then some (c.toNat - 'a'.toNat + 26)
  else if c.isDigit then some (c.toNat - '0'.toNat + 52)
  else if c = f.char62 then some 62
  else if c = f.char63 then some 63
  else none

/-- The padding that completes a group of four, if the form has any. -/
def Form.padding (f : Form) (n : Nat) : List Char :=
  if f.padded then List.replicate n '=' else []

/-- Encodes bytes in groups of three. -/
def encode (f : Form) : List UInt8 → List Char
  | [] => []
  | [a] =>
    let n := a.toNat * 16
    f.char (n / 64) :: f.char (n % 64) :: f.padding 2
  | [a, b] =>
    let n := (a.toNat * 256 + b.toNat) * 4
    f.char (n / 4096) :: f.char (n / 64 % 64) :: f.char (n % 64) :: f.padding 1
  | a :: b :: c :: rest =>
    let n := (a.toNat * 256 + b.toNat) * 256 + c.toNat
    f.char (n / 262144) :: f.char (n / 4096 % 64) :: f.char (n / 64 % 64) :: f.char (n % 64)
      :: encode f rest

/-- The byte of a rest of two characters. -/
def decode2? (f : Form) (a b : Char) : Option (List UInt8) :=
  (f.value? a).bind fun x => (f.value? b).bind fun y =>
    let n := x * 64 + y
    if n % 16 = 0 then some [UInt8.ofNat (n / 16)] else none

/-- The bytes of a rest of three characters. -/
def decode3? (f : Form) (a b c : Char) : Option (List UInt8) :=
  (f.value? a).bind fun x => (f.value? b).bind fun y => (f.value? c).bind fun z =>
    let n := (x * 64 + y) * 64 + z
    if n % 4 = 0 then some [UInt8.ofNat (n / 1024), UInt8.ofNat (n / 4 % 256)] else none

/-- Three bytes of four characters. -/
def decode4? (f : Form) (a b c d : Char) : Option (List UInt8) :=
  (f.value? a).bind fun x => (f.value? b).bind fun y => (f.value? c).bind fun z =>
    (f.value? d).bind fun w =>
      let n := ((x * 64 + y) * 64 + z) * 64 + w
      some [UInt8.ofNat (n / 65536), UInt8.ofNat (n / 256 % 256), UInt8.ofNat (n % 256)]

/-- Decodes groups of four characters; the last group may be shorter without padding. -/
def decode? (f : Form) : List Char → Option (List UInt8)
  | [] => some []
  | [_] => none
  | [a, b] => if f.padded then none else decode2? f a b
  | [a, b, c] => if f.padded then none else decode3? f a b c
  | a :: b :: c :: d :: rest =>
    if f.padded && rest.isEmpty && d == '=' then
      if c == '=' then decode2? f a b else decode3? f a b c
    else (decode4? f a b c d).bind fun bytes => (decode? f rest).map (bytes ++ ·)

end ReadQuery.Base64
