import ReadQuery.Filter
import ReadQuery.SortEntry

/-!
# Field names in snake case

`createdAt` becomes `created_at`. Each segment between dots is cut into words, at every character
that is neither letter nor digit and where the case of the letters changes; the words are written in
small letters with underscores between them. Names outside the allow-list are left as they are, so
that they are still refused later.
-/

namespace ReadQuery.FieldName

/-- The case of the last letter of the word so far. -/
inductive LetterCase where
  | none
  | small
  | capital
  deriving DecidableEq, Repr

/-- The case after one more character; only letters change it. -/
def LetterCase.next (mode : LetterCase) (c : Char) : LetterCase :=
  if c.isLower then .small else if c.isUpper then .capital else mode

/-- The words of a piece without separators. `current` is the word so far, the last character first.
A word ends before a capital letter that follows a small one, and before the last of several capital
letters that a small one follows. -/
def cutWords : LetterCase → List Char → List Char → List (List Char)
  | _, [], [] => []
  | _, current, [] => [current.reverse]
  | _, current, [c] => [(c :: current).reverse]
  | mode, current, c :: next :: rest =>
    if mode.next c = .small ∧ next.isUpper then
      (c :: current).reverse :: cutWords .none [] (next :: rest)
    else if mode = .capital ∧ c.isUpper ∧ next.isLower then
      current.reverse :: cutWords .none [c] (next :: rest)
    else cutWords (mode.next c) (c :: current) (next :: rest)

/-- The pieces between characters that are neither letters nor digits. -/
def pieces : List Char → List (List Char)
  | [] => [[]]
  | c :: cs => if c.isAlphanum then Text.consFirst c (pieces cs) else [] :: pieces cs

/-- The words of a segment, in small letters. -/
def words (segment : List Char) : List (List Char) :=
  ((pieces segment).flatMap (cutWords .none [])).map (·.map Char.toLower)

/-- The words of a segment in small letters, with underscores between them. -/
def snakeSegment (segment : List Char) : List Char :=
  ['_'].intercalate (words segment)

/-- A field name in snake case, segment by segment. -/
def snake (name : String) : String :=
  if Identifier.isSafe name then
    String.ofList (['.'].intercalate ((Text.splitList '.' name.toList).map snakeSegment))
  else name

/-- The entries of an ordering with their field names in snake case. -/
def snakeEntries (entries : List SortEntry) : List SortEntry :=
  entries.map fun e => { e with field := snake e.field }

end ReadQuery.FieldName
