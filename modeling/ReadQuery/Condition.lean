import ReadQuery.FieldRef
import ReadQuery.Json.Written

/-!
# Conditions

A condition compares one field by an operator with a value or a list of values. The operands can be
given in several forms; this module brings them to the one value, the list or the range that the
operator takes.
-/

namespace ReadQuery

/-- A comparison of one field. -/
structure Condition where
  field : String
  op : Operator
  value : Option Value
  values : List Value
  jsonPath : Option String
  datePart : Option DatePart
  deriving DecidableEq

/-- The operands of a range. -/
inductive Range where
  | bounds (lower upper : Value)
  /-- Only one value is given, which the field has to equal. -/
  | single (value : Value)
  deriving DecidableEq

namespace Condition

/-- A condition without values. -/
def nullary (field : String) (op : Operator) : Condition :=
  ⟨field, op, none, [], none, none⟩

/-- A condition with one value. -/
def single (field : String) (op : Operator) (value : Value) : Condition :=
  { nullary field op with value := some value }

/-- A condition with a list of values. -/
def listed (field : String) (op : Operator) (values : List Value) : Condition :=
  { nullary field op with values := values }

/-- The condition on a path into the field. -/
def atPath (c : Condition) (path : String) : Condition :=
  { c with jsonPath := some path }

/-- The condition on a part of the date in the field. -/
def onPart (c : Condition) (part : DatePart) : Condition :=
  { c with datePart := some part }

/-- The reference to the condition's field. -/
def resolveField (c : Condition) : Traced SkipReason FieldRef :=
  FieldRef.resolve c.field c.jsonPath

/-- The reference to the condition's field, or why there is none. -/
def fieldRef (c : Condition) : Except SkipReason FieldRef :=
  c.resolveField.result

/-- Whether the field is compared as a number taken out of a date. -/
def hasNumericPart (c : Condition) : Bool :=
  match c.datePart with
  | some part => part.isNumeric
  | none => false

/-- The value of an operator that takes one: the value given, or else the first of the list. A
number taken out of a date is compared with a number where the text spells one. -/
def scalar? (c : Condition) : Option Value :=
  let value := match c.value with
    | some v => some v
    | none => c.values.head?
  if c.hasNumericPart then value.map Value.coerceInteger else value

/-- The text of the value, unless there is none or it is null. -/
def patternText? (c : Condition) : Option String :=
  match c.scalar? with
  | none | some .null => none
  | some v => some v.text

/-- The values of the items of a JSON array; items that are no values are left out. -/
def arrayValues (items : List Json) : List Value :=
  items.filterMap fun j => (Value.ofJson j).toOption

/-- The items of a JSON array in text form. -/
def jsonArray? (cs : List Char) : Option (List Json) :=
  match cs with
  | '[' :: _ =>
    match Json.ofText? (String.ofList cs) with
    | some (.array items) => some items
    | _ => none
  | _ => none

/-- The values that a text lists: those of a JSON array, or else the pieces between commas without
the blanks around them, empty ones left out. -/
def listText (s : String) : List Value :=
  let cs := Text.trimList s.toList
  match jsonArray? cs with
  | some items => arrayValues items
  | none =>
    (((Text.splitList ',' cs).map Text.trimList).filter (!·.isEmpty)).map
      fun piece => .string (String.ofList piece)

/-- The values of an operator that takes a list: those that the value given spells or holds, or else
the list. -/
def resolveList (c : Condition) : List Value :=
  let values := match c.value with
    | some (.string s) => if Text.allBlank s then c.values else listText s
    | some (.list items) => items
    | some .null | none => c.values
    | some v => [v]
  if c.hasNumericPart then values.map Value.coerceInteger else values

/-- A range has two bounds, or one value that it is equal to. -/
def resolveRange (c : Condition) : Except SkipReason Range :=
  match c.resolveList with
  | [lower, upper] => .ok (.bounds lower upper)
  | [value] => .ok (.single value)
  | values => .error (.betweenArity values.length)

end Condition

end ReadQuery
