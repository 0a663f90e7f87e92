import ReadQuery.Mongo.Bson

/-!
# Queries as text of the shell

Queries written the way they would be typed into the shell, one entry a line. This form is only
reported, never run: the strings in it are not escaped.
-/

namespace ReadQuery.Mongo.Shell

def indent (depth : Nat) : String :=
  String.ofList (List.replicate (4 * depth) ' ')

mutual

/-- A value; `depth` is the level of the line it stands on. -/
def value (depth : Nat) : Bson → String
  | .null => "null"
  | .bool b => if b then "true" else "false"
  | .int32 i => toString i.toInt
  | .int64 i => toString i.toInt
  | .double d => Number.Layout.plain.text d
  | .string s => "\"" ++ s ++ "\""
  | .array items => "[\n" ++ itemLines (depth + 1) items ++ indent depth ++ "]"
  | .document entries => "\x7b\n" ++ entryLines (depth + 1) entries ++ indent depth ++ "\x7d"

/-- The items of an array, one on each line. -/
def itemLines (depth : Nat) : List Bson → String
  | [] => ""
  | v :: vs => indent depth ++ value depth v ++ ",\n" ++ itemLines depth vs

/-- The lines of the entries of a document. -/
def entryLines (depth : Nat) : List (String × Bson) → String
  | [] => ""
  | (k, v) :: es => indent depth ++ k ++ ": " ++ value depth v ++ ",\n" ++ entryLines depth es

end

/-- A find with a filter and, unless they are empty, options. -/
def find (collection : String) (filter options : Document) : String :=
  "db." ++ collection ++ ".find(" ++ value 0 (.document filter)
    ++ (if options.isEmpty then "" else ", " ++ value 0 (.document options)) ++ ")"

def aggregate (collection : String) (stages : List Document) : String :=
  "db." ++ collection ++ ".aggregate(" ++ value 0 (.array (stages.map .document)) ++ ")"

end ReadQuery.Mongo.Shell
