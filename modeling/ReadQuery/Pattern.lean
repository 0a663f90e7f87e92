import ReadQuery.Condition

/-!
# Regular expressions of literal texts

The operators that look for a text at a place are regular expressions in backends without patterns
of their own: the text with its special characters escaped, anchored at the place.
-/

namespace ReadQuery.Pattern

/-- The characters that a regular expression gives a meaning to. -/
def special : List Char := "\\.+*?()|[]\x7b\x7d^$#&-~".toList

/-- The regular expression that matches exactly a text. -/
def escape (s : String) : String :=
  String.ofList (s.toList.flatMap fun c => if c ∈ special then ['\\', c] else [c])

/-- The regular expression of a text at a place. -/
def anchored (place : Placement) (s : String) : String :=
  match place with
  | .anywhere => escape s
  | .atStart => "^" ++ escape s
  | .atEnd => escape s ++ "$"
  | .whole => "^" ++ escape s ++ "$"

end ReadQuery.Pattern
