import ReadQuery.Value

/-!
# BSON documents

The values and documents that queries of MongoDB are made of. The keys of a document stand in the
order in which they were first inserted.
-/

namespace ReadQuery.Mongo

/-- A BSON value. -/
inductive Bson where
  | null
  | bool (b : Bool)
  | int32 (i : Int32)
  | int64 (i : Int64)
  | double (d : Number.Double)
  | string (s : String)
  | array (items : List Bson)
  | document (entries : List (String × Bson))
  deriving Inhabited

/-- The entries of a document, in order. -/
abbrev Document := List (String × Bson)

namespace Document

/-- Sets a key: an existing one keeps its position, a new one comes last. -/
def insert (d : Document) (key : String) (value : Bson) : Document :=
  match d with
  | [] => [(key, value)]
  | (k, v) :: rest => if k = key then (k, value) :: rest else (k, v) :: insert rest key value

/-- Sets several keys, in order. -/
def insertAll (d : Document) (entries : List (String × Bson)) : Document :=
  entries.foldl (fun d e => insert d e.1 e.2) d

end Document

namespace Bson

mutual

/-- A value as it is stored. -/
def ofValue : Value → Bson
  | .null => .null
  | .bool b => .bool b
  | .int i => .int64 i
  | .float d => .double d
  | .string s => .string s
  | .list items => .array (ofValues items)

def ofValues : List Value → List Bson
  | [] => []
  | v :: vs => ofValue v :: ofValues vs

end

/-- A document of one entry. -/
def entry (key : String) (value : Bson) : Bson :=
  .document [(key, value)]

end Bson

end ReadQuery.Mongo
