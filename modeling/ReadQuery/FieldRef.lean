import ReadQuery.Identifier
import ReadQuery.Trace

/-!
# Field references

A field of a condition or an ordering, resolved into a column and a path into the value stored
there. Dots separate the column from the path and the segments of the path from each other; empty
segments are dropped.
-/

namespace ReadQuery

/-- A column and a path into its value. -/
structure FieldRef where
  column : String
  path : List String
  deriving DecidableEq, Repr

namespace FieldRef

/-- The segments of a dotted name, the empty ones aside. -/
def segments (s : String) : List String :=
  (Text.split '.' s).filter (!·.isEmpty)

/-- Whether the reference goes into the value of its column. -/
def isNested (f : FieldRef) : Bool :=
  !f.path.isEmpty

/-- The column and the path as a dotted name. -/
def dotted (f : FieldRef) : String :=
  ".".intercalate (f.column :: f.path)

/-- An explicit path without the blanks around it and the root mark in front. -/
def normalizePath (path : String) : String :=
  let cs := Text.trimList path.toList
  let cs := match cs with
    | '$' :: '.' :: r => r
    | r => r
  let cs := match cs with
    | '.' :: r => r
    | r => r
  String.ofList cs

/-- Resolves a field, which may be dotted, and an explicit path, which is appended. A path that is
no identifier is reported, and the whole field is taken as a plain column. -/
def resolve (field : String) (path : Option String) : Traced SkipReason FieldRef :=
  let field := Text.trim field
  if field.isEmpty then .fail .emptyField
  else if !Identifier.isSafe field then .fail (.invalidField field)
  else
    match segments field with
    | [] => .fail (.invalidField field)
    | column :: inner =>
      let path := normalizePath (path.getD "")
      if path.isEmpty then pure ⟨column, inner⟩
      else if Identifier.isSafe path then pure ⟨column, inner ++ segments path⟩
      else do
        Traced.report (.plainColumn field path)
        pure ⟨field, []⟩

end FieldRef

end ReadQuery
