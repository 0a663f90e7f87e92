import ReadQuery.Number.Double

/-!
# TOML documents

A document is a list of lines: members of the root, and tables with a header and members of their
own. A header may be given once; the tables of an array of tables repeat theirs, and what stands
below such a header belongs to the last of its tables.
-/

namespace ReadQuery.Toml

/-- A TOML value. -/
inductive Value where
  | string (s : String)
  | integer (i : Int64)
  | float (d : Number.Double)
  | boolean (b : Bool)
  | datetime
  | array (items : List Value)
  /-- A table between braces. -/
  | inline (members : List (String × Value))
  /-- A table that dotted keys make. -/
  | dotted (members : List (String × Value))
  deriving Inhabited

/-- Members in the order in which they are given. -/
abbrev Members := List (String × Value)

mutual

/-- Puts a value at the end of a path of keys. Keys in front of the last one make dotted tables, and
must not name anything else. -/
def addAt : List String → Value → Members → Option Members
  | [], _, _ => none
  | [key], v, ms => some (ms ++ [(key, v)])
  | key :: next :: path, v, ms => addBelow key (next :: path) v ms
termination_by path _ ms => (path.length, sizeOf ms, 1)

/-- Puts a value into the dotted table of a key, which may be new. -/
def addBelow (key : String) (path : List String) (v : Value) : Members → Option Members
  | [] => (addAt path v []).map fun inner => [(key, .dotted inner)]
  | (k, w) :: ms =>
    if k = key then
      match w with
      | .dotted inner => (addAt path v inner).map fun inner => (k, .dotted inner) :: ms
      | _ => none
    else (addBelow key path v ms).map fun ms => (k, w) :: ms
termination_by ms => (path.length + 1, sizeOf ms, 0)

end

/-- The header of a table. -/
structure Header where
  path : List String
  isArray : Bool
  deriving DecidableEq, Repr

/-- A table with its header. -/
structure Table where
  header : Header
  members : Members

/-- A document: the members of the root, and the tables below it. -/
structure Document where
  members : Members
  tables : List Table

/-- What a path has been used for. -/
inductive Use where
  /-- The path stands in front of another one only. -/
  | implied
  | table
  | array
  deriving DecidableEq, Repr

/-- The paths used so far. -/
abbrev Uses := List (List String × Use)

/-- The paths in front of a path, which it implies unless they are used already. -/
def implied (uses : Uses) (path : List String) : Uses :=
  ((List.range path.length).drop 1).foldl
    (fun uses n =>
      let above := path.take n
      if (uses.lookup above).isSome then uses else uses ++ [(above, .implied)])
    uses

/-- Whether `path` lies below `above`. -/
def isBelow (above path : List String) : Bool :=
  above.isPrefixOf path && above.length < path.length

/-- The uses of paths behind a header, unless it is not allowed there. -/
def useHeader (uses : Uses) (h : Header) : Option Uses :=
  match h.isArray, uses.lookup h.path with
  | false, some .table | false, some .array | true, some .table | true, some .implied => none
  | false, some .implied =>
    some (uses.map fun u => if u.1 = h.path then (u.1, .table) else u)
  | false, none => some (implied uses h.path ++ [(h.path, .table)])
  | true, some .array => some (uses.filter fun u => !isBelow h.path u.1)
  | true, none => some (implied uses h.path ++ [(h.path, .array)])

/-- Whether the headers of a document go together. -/
def Document.headersAgree (doc : Document) : Bool :=
  ((doc.tables.map (·.header)).foldlM useHeader []).isSome

end ReadQuery.Toml
