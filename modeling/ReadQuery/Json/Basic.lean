import ReadQuery.Number.Double

/-!
# JSON values

A JSON value as a program uses it: numbers are integers or floating-point numbers, texts are
unescaped, and the members of an object stand in the order of their first occurrence, a repeated key
carrying its last value.
-/

namespace ReadQuery

/-- A JSON value. Integers run from `-2 ^ 63` to below `2 ^ 64`; all other numbers are floats. -/
inductive Json where
  | null
  | bool (b : Bool)
  | int (i : Int)
  | float (d : Number.Double)
  | string (s : String)
  | array (items : List Json)
  | object (members : List (String × Json))
  deriving Inhabited

namespace Json

/-- Sets a member: an existing key keeps its position, a new one comes last. -/
def put (members : List (String × Json)) (key : String) (value : Json) : List (String × Json) :=
  match members with
  | [] => [(key, value)]
  | (k, v) :: rest => if k = key then (k, value) :: rest else (k, v) :: put rest key value

/-- The members written one after another. -/
def collect (members : List (String × Json)) : List (String × Json) :=
  members.foldl (fun ms m => put ms m.1 m.2) []

def get? (j : Json) (key : String) : Option Json :=
  match j with
  | .object members => members.lookup key
  | _ => none

def string? : Json → Option String
  | .string s => some s
  | _ => none

end Json

end ReadQuery
