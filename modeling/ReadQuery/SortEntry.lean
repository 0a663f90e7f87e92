import ReadQuery.FieldRef

/-!
# Orderings

An ordering is a list of entries, of which the first decides before the second, and so on.
-/

namespace ReadQuery

/-- A direction of sorting. -/
inductive Direction where
  | ascending
  | descending
  deriving DecidableEq, Repr

namespace Direction

def name : Direction → String
  | ascending => "ASC"
  | descending => "DESC"

/-- The direction that a keyword names, blanks around it and the case of its letters aside. -/
def ofKeyword? (s : String) : Option Direction :=
  let word := Text.lower (Text.trim s)
  if word == "asc" || word == "ascending" then some ascending
  else if word == "desc" || word == "descending" then some descending
  else none

end Direction

/-- An entry of an ordering. -/
structure SortEntry where
  field : String
  direction : Direction
  deriving DecidableEq, Repr

namespace SortEntry

/-- The field and the keyword of its direction. -/
def text (e : SortEntry) : String :=
  e.field ++ " " ++ e.direction.name

/-- The reference to the entry's field, or why there is none. -/
def fieldRef (e : SortEntry) : Except SkipReason FieldRef :=
  (FieldRef.resolve e.field none).result

/-- The default applies only where nothing is asked for. -/
def orDefault (entries default : List SortEntry) : List SortEntry :=
  if entries.isEmpty then default else entries

end SortEntry

end ReadQuery
