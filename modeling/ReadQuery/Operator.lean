import ReadQuery.Text.Ascii
import ReadQuery.Text.Blank

/-!
# Operators

The vocabulary of comparisons that every way of writing a filter is brought to, with the spellings
under which each operator is known.
-/

namespace ReadQuery

/-- The order comparisons with one operand. -/
inductive Comparison where
  | equals
  | notEquals
  | greater
  | greaterOrEquals
  | less
  | lessOrEquals
  deriving DecidableEq, Repr

/-- Where a text has to stand in the text it is matched with. -/
inductive Placement where
  | anywhere
  | atStart
  | atEnd
  | whole
  deriving DecidableEq, Repr

/-- What a condition does with its field. -/
inductive Operator where
  /-- No known operator. -/
  | unspecified
  /-- A comparison with one value. -/
  | compare (c : Comparison)
  /-- Equal to one value of a list, or to none. -/
  | among (negated : Bool)
  /-- Between two values, both included. -/
  | between
  /-- Null, or not null. -/
  | nullness (negated : Bool)
  /-- Contains a literal text at a place, with or without regard to case. -/
  | text (place : Placement) (folded : Bool)
  /-- Matches a regular expression, with or without regard to case. -/
  | regex (folded : Bool)
  /-- Matches a full-text search. -/
  | search
  deriving DecidableEq, Repr

/-- How many values an operator takes. -/
inductive Arity where
  | nullary
  | single
  | list
  | range
  deriving DecidableEq, Repr

namespace Operator

def name : Operator → String
  | unspecified => "UNSPECIFIED"
  | compare .equals => "EQ"
  | compare .notEquals => "NEQ"
  | compare .greater => "GT"
  | compare .greaterOrEquals => "GTE"
  | compare .less => "LT"
  | compare .lessOrEquals => "LTE"
  | among false => "IN"
  | among true => "NIN"
  | between => "BETWEEN"
  | nullness false => "IS_NULL"
  | nullness true => "IS_NOT_NULL"
  | text .anywhere false => "CONTAINS"
  | text .anywhere true => "ICONTAINS"
  | text .atStart false => "STARTS_WITH"
  | text .atStart true => "ISTARTS_WITH"
  | text .atEnd false => "ENDS_WITH"
  | text .atEnd true => "IENDS_WITH"
  | text .whole false => "EXACT"
  | text .whole true => "IEXACT"
  | regex false => "REGEXP"
  | regex true => "IREGEXP"
  | search => "SEARCH"

/-- The spellings of each operator, in small letters. -/
def spellings : List (List String × Operator) := [
  (["eq", "equal", "equals", "=", "=="], compare .equals),
  (["ne", "neq", "not_equal", "not_equals", "!=", "<>"], compare .notEquals),
  (["in"], among false),
  (["nin", "not_in", "notin"], among true),
  (["gt", "greater", "greater_than", ">"], compare .greater),
  (["gte", "ge", "greater_or_equal", "greater_than_or_equal", ">="], compare .greaterOrEquals),
  (["lt", "less", "less_than", "<"], compare .less),
  (["lte", "le", "less_or_equal", "less_than_or_equal", "<="], compare .lessOrEquals),
  (["between", "range"], between),
  (["isnull", "is_null", "null"], nullness false),
  (["isnotnull", "is_not_null", "not_null", "notnull"], nullness true),
  (["contains", "like"], text .anywhere false),
  (["icontains", "ilike"], text .anywhere true),
  (["startswith", "starts_with", "prefix"], text .atStart false),
  (["istartswith", "istarts_with"], text .atStart true),
  (["endswith", "ends_with", "suffix"], text .atEnd false),
  (["iendswith", "iends_with"], text .atEnd true),
  (["exact"], text .whole false),
  (["iexact"], text .whole true),
  (["regex", "regexp", "match"], regex false),
  (["iregex", "iregexp", "imatch"], regex true),
  (["search", "fts", "full_text"], search)
]

/-- The operator that a spelling names, blanks around it and the case of its letters aside; any
other text is no known operator. -/
def ofSpelling (s : String) : Operator :=
  let word := Text.lower (Text.trim s)
  match spellings.find? (·.1.contains word) with
  | some entry => entry.2
  | none => unspecified

def isSpecified (op : Operator) : Bool :=
  op != unspecified

/-- The operands that an operator takes. -/
def arity : Operator → Arity
  | unspecified | nullness _ => .nullary
  | among _ => .list
  | between => .range
  | compare _ | text _ _ | regex _ | search => .single

/-- Whether the operator disregards case. -/
def isFolded : Operator → Bool
  | text _ folded | regex folded => folded
  | _ => false

/-- Every operator goes by its canonical name. -/
theorem ofSpelling_name (op : Operator) : ofSpelling op.name = op := by
  match op with
  | unspecified | between | search => decide
  | compare c => cases c <;> decide
  | among n => cases n <;> decide
  | nullness n => cases n <;> decide
  | text p f => cases p <;> cases f <;> decide
  | regex f => cases f <;> decide

end Operator

end ReadQuery
