import ReadQuery.Filter
import ReadQuery.Input.ParseError
import ReadQuery.Json.Record

/-!
# Structured filters

Filters as JSON records: a node has the fields `type`, `conditions` and `groups`, a condition
`field`, `op`, `value`, `values`, `json_path` and `date_part`.
-/

namespace ReadQuery

open Json (Written)

/-- The record of a condition; what is absent is left out. -/
def Condition.toJson (c : Condition) : Json :=
  .object (
    [("field", .string c.field), ("op", .string c.op.name)]
      ++ (c.value.map fun v => ("value", v.toJson)).toList
      ++ (if c.values.isEmpty then [] else [("values", .array (Value.toJsonAll c.values))])
      ++ (c.jsonPath.map fun path => ("json_path", Json.string path)).toList
      ++ (c.datePart.map fun part => ("date_part", Json.string part.name)).toList)

namespace Filter

mutual

/-- A filter as it is written, with all its fields. -/
def toJson : Filter → Json
  | ⟨junction, conditions, groups⟩ =>
    let f : Filter := ⟨junction, conditions, groups⟩
    .object [("type", .string f.junctionName),
      ("conditions", .array (conditions.map Condition.toJson)),
      ("groups", .array (toJsonAll groups))]

def toJsonAll : List Filter → List Json
  | [] => []
  | f :: fs => toJson f :: toJsonAll fs

end

end Filter

/-- A value nested in a record: anything but an object. -/
def Value.ofWritten? (depth : Nat) (w : Written) : Option Value :=
  (w.read? depth).bind fun j => (Value.ofJson j).toOption

/-- A list of values at a depth that is left. -/
def Value.listOfWritten? (depth : Nat) (w : Written) : Option (List Value) :=
  if depth = 0 then none else w.items?.bind (·.mapM (Value.ofWritten? (depth - 1)))

/-- A condition; `depth` more arrays and objects may be entered. -/
def Condition.ofWritten? (depth : Nat) (w : Written) : Option Condition :=
  if depth = 0 then none
  else
    (w.record? [["field"], ["op"], ["value"], ["values"], ["json_path", "jsonPath"],
        ["date_part", "datePart"]]).bind fun slots =>
      match slots with
      | [field, op, value, values, path, part] => do
        let field ← Written.required? Written.string? field
        let op ← Written.defaulted? .unspecified
          (fun w => w.string?.map Operator.ofSpelling) op
        let value ← Written.optional? (Value.ofWritten? (depth - 1)) value
        let values ← Written.defaulted? [] (Value.listOfWritten? (depth - 1)) values
        let path ← Written.optional? Written.string? path
        let part ← Written.optional? (fun w => w.string?.bind DatePart.ofSpelling?) part
        pure ⟨field, op, value, values, path, part⟩
      | _ => none

namespace Filter

/-- A node, given how its conditions and groups are read. -/
def ofRecord? (conditions : Written → Option (List Condition))
    (groups : Written → Option (List Filter)) (w : Written) : Option Filter :=
  (w.record? [["type"], ["conditions"], ["groups"]]).bind fun slots =>
    match slots with
    | [junction, cs, gs] => do
      let junction ← Written.defaulted? Option.none
        (fun w => w.string?.map Junction.ofText?) junction
      let cs ← Written.defaulted? [] conditions cs
      let gs ← Written.defaulted? [] groups gs
      pure ⟨junction, cs, gs⟩
    | _ => Option.none

/-- A node; `depth` more arrays and objects may be entered. -/
def ofWritten? : Nat → Written → Option Filter
  | 0, _ => Option.none
  | 1, w => ofRecord? (fun _ => Option.none) (fun _ => Option.none) w
  | depth + 2, w =>
    ofRecord? (fun cs => cs.items?.bind (·.mapM (Condition.ofWritten? depth)))
      (fun gs => gs.items?.bind (·.mapM (ofWritten? depth))) w

end Filter

namespace Input.Structured

/-- A filter from a written record, in which `depth` arrays and objects may be nested. -/
def ofWritten (depth : Nat) (w : Written) : Except ParseError Filter :=
  match Filter.ofWritten? depth w with
  | some f => .ok f
  | none => .error .malformedFilter

/-- Reads a filter from JSON text; a blank text is the filter that stands for nothing. -/
def ofText (s : String) : Except ParseError Filter :=
  if Text.allBlank s then .ok Filter.none
  else
    match Written.ofList? s.toList with
    | some w => ofWritten Json.maxDepth w
    | none => .error .malformedFilter

/-- Reads a filter from a JSON value, however deep it is nested. -/
def ofJson (j : Json) : Except ParseError Filter :=
  let w := Written.ofJson j
  ofWritten w.nesting w

end Input.Structured

end ReadQuery
