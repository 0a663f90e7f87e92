/-!
# Splitting text

Cutting a text at a separator keeps the empty pieces: `n` separators give `n + 1` pieces.
-/

namespace ReadQuery.Text

/-- Puts a character in front of the first piece. -/
def consFirst (c : Char) : List (List Char) → List (List Char)
  | [] => [[c]]
  | piece :: pieces => (c :: piece) :: pieces

/-- The pieces between the occurrences of one character. -/
def splitList (sep : Char) : List Char → List (List Char)
  | [] => [[]]
  | c :: cs => if c = sep then [] :: splitList sep cs else consFirst c (splitList sep cs)

/-- The pieces of a text between the occurrences of `sep`. -/
def split (sep : Char) (s : String) : List String :=
  (splitList sep s.toList).map String.ofList

/-- The pieces between doubled occurrences of `sep`, found from the left and without overlap. -/
def splitDoubledList (sep : Char) : List Char → List (List Char)
  | [] => [[]]
  | [c] => [[c]]
  | c :: d :: cs =>
    if c = sep ∧ d = sep then [] :: splitDoubledList sep cs
    else consFirst c (splitDoubledList sep (d :: cs))

/-- The pieces of a text between doubled occurrences of `sep`. -/
def splitDoubled (sep : Char) (s : String) : List String :=
  (splitDoubledList sep s.toList).map String.ofList

/-- The text before and after the first occurrence of `sep`, if there is one. -/
def cutList (sep : Char) : List Char → Option (List Char × List Char)
  | [] => none
  | c :: cs => if c = sep then some ([], cs) else (cutList sep cs).map fun p => (c :: p.1, p.2)

/-- Cuts a text at the first occurrence of `sep`. -/
def cut? (sep : Char) (s : String) : Option (String × String) :=
  (cutList sep s.toList).map fun p => (String.ofList p.1, String.ofList p.2)

/-- Cuts a text at the last occurrence of `sep`. -/
def cutLast? (sep : Char) (s : String) : Option (String × String) :=
  (cutList sep s.toList.reverse).map fun p =>
    (String.ofList p.2.reverse, String.ofList p.1.reverse)

/-- Drops a word from the front, if the characters start with it once `fold` is applied. -/
def stripBy (fold : Char → Char) : List Char → List Char → Option (List Char)
  | [], cs => some cs
  | _ :: _, [] => none
  | w :: ws, c :: cs => if fold c = w then stripBy fold ws cs else none

/-- Whether `word` occurs anywhere. -/
def hasInfix (word : List Char) : List Char → Bool
  | [] => word.isEmpty
  | c :: cs => (stripBy id word (c :: cs)).isSome || hasInfix word cs

/-- A piece has been begun. -/
theorem consFirst_ne_nil (c : Char) (ps : List (List Char)) : consFirst c ps ≠ [] := by
  cases ps <;> simp [consFirst]

/-- There is at least one piece, be it empty. -/
theorem splitList_ne_nil (sep : Char) (cs : List Char) : splitList sep cs ≠ [] := by
  cases cs with
  | nil => simp [splitList]
  | cons c cs => simp only [splitList]; split <;> simp [consFirst_ne_nil]

end ReadQuery.Text
