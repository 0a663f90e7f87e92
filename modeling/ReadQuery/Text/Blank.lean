/-!
# Blank characters

The characters with the Unicode property `White_Space`, the removal of blanks at the ends of a text,
and the four blanks that separate the parts of a text in a grammar.
-/

namespace ReadQuery.Text

/-- The Unicode property `White_Space`. -/
def isBlank (c : Char) : Bool :=
  let n := c.toNat
  (9 ≤ n && n ≤ 13) || n == 32 || n == 0x85 || n == 0xA0 || n == 0x1680
    || (0x2000 ≤ n && n ≤ 0x200A) || n == 0x2028 || n == 0x2029 || n == 0x202F || n == 0x205F
    || n == 0x3000

/-- Drops blanks from both ends. -/
def trimList (cs : List Char) : List Char :=
  ((cs.dropWhile isBlank).reverse.dropWhile isBlank).reverse

/-- The text without the blanks at its ends. -/
def trim (s : String) : String :=
  String.ofList (trimList s.toList)

/-- A text of blanks only, the empty text included. -/
def allBlank (s : String) : Bool :=
  s.toList.all isBlank

/-- The blanks that separate the parts of a text in a grammar. -/
def isGap (c : Char) : Bool :=
  c == ' ' || c == '\t' || c == '\n' || c == '\r'

/-- Drops the separating blanks in front. -/
def skipGap (cs : List Char) : List Char :=
  cs.dropWhile isGap

@[simp] theorem toList_trim (s : String) : (trim s).toList = trimList s.toList := by
  simp [trim]

end ReadQuery.Text
