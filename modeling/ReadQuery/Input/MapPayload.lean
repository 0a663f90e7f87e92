import ReadQuery.Filter
import ReadQuery.Input.ParseError

/-!
# Map payloads

A compact JSON form of filters. Every member of an object is a condition; its key is a field, a
field and an operator, a field and a part of a date, or all three, joined by two underscores. The
objects of one payload hold together with each other, each object of the other payload holds if one
of its conditions does.
-/

namespace ReadQuery.Input.MapPayload

/-- What a key says: the field, the part of a date and the operator. -/
structure Key where
  field : String
  datePart : Option DatePart
  op : Operator
  deriving DecidableEq, Repr

/-- Reads a key. A last piece that names both an operator and a part of a date is an operator; a key
that names no known operator keeps the unspecified one. -/
def Key.ofText (key : String) : Key :=
  match Text.splitDoubled '_' key with
  | [field] => ⟨field, none, .compare .equals⟩
  | [field, last] =>
    let op := Operator.ofSpelling last
    if op.isSpecified then ⟨field, none, op⟩
    else
      match DatePart.ofSpelling? last with
      | some part => ⟨field, some part, .compare .equals⟩
      | none => ⟨field, none, op⟩
  | [field, part, op] =>
    match DatePart.ofSpelling? part with
    | some part => ⟨field, some part, Operator.ofSpelling op⟩
    | none => ⟨field, none, .unspecified⟩
  | field :: _ => ⟨field, none, .unspecified⟩
  | [] => ⟨key, none, .compare .equals⟩

/-- The operator of a key under its value: a null check of `false` asks for the opposite. -/
def effectiveOperator (op : Operator) (value : Value) : Operator :=
  match op, value.bool? with
  | .nullness negated, some false => .nullness (!negated)
  | op, _ => op

/-- The condition of a key that has been read and its value. What follows the first dot of the field
is a path. -/
def Key.condition (k : Key) (value : Value) : Condition :=
  let op := effectiveOperator k.op value
  let (field, path) := match Text.cut? '.' k.field with
    | some (column, path) => (column, some path)
    | none => (k.field, none)
  let operands : Option Value × List Value := match op.arity, value with
    | .nullary, _ => (none, [])
    | _, .list items => (none, items)
    | _, v => (some v, [])
  ⟨field, op, operands.1, operands.2, path, k.datePart⟩

/-- The condition of a member of a payload. -/
def condition (key : String) (json : Json) : Traced ParseError Condition := do
  let k := Key.ofText key
  if !k.op.isSpecified then
    Traced.report (.unknownOperatorKey key)
  let value ← Traced.ofExcept ((Value.ofJson json).mapError (.notAValue key))
  pure (k.condition value)

/-- The conditions of the members of an object, in order. -/
def conditions : List (String × Json) → Traced ParseError (List Condition)
  | [] => pure []
  | (key, json) :: members => do
    let c ← condition key json
    let cs ← conditions members
    pure (c :: cs)

/-- The objects of the items of an array. -/
def objectsOf : List Json → Except ParseError (List (List (String × Json)))
  | [] => .ok []
  | .object members :: items => (objectsOf items).map (members :: ·)
  | j :: _ => .error (.notAnObject j)

/-- The objects of a payload: `null` has none, an object is one, an array lists them. -/
def objects : Json → Except ParseError (List (List (String × Json)))
  | .null => .ok []
  | .object members => .ok [members]
  | .array items => objectsOf items
  | j => .error (.notObjects j)

/-- The groups of the objects that have members: each holds if one of its conditions does. -/
def groups : List (List (String × Json)) → Traced ParseError (List Filter)
  | [] => pure []
  | members :: rest => do
    let cs ← conditions members
    let fs ← groups rest
    pure (if cs.isEmpty then fs else Filter.any cs :: fs)

/-- The objects of a payload that may be absent. -/
def objects? : Option Json → Except ParseError (List (List (String × Json)))
  | none => .ok []
  | some payload => objects payload

/-- The filter of the two payloads: the first has to hold as a whole, of the second every object. -/
def filter (and or : Option Json) : Traced ParseError Filter := do
  let required ← Traced.ofExcept (objects? and)
  let cs ← conditions required.flatten
  let choices ← Traced.ofExcept (objects? or)
  let fs ← groups choices
  pure ⟨some .and, cs, fs⟩

/-- A payload in text form; a blank one is absent. -/
def payload? : Option String → Except ParseError (Option Json)
  | none => .ok none
  | some s =>
    if Text.allBlank s then .ok none
    else
      match Json.ofText? s with
      | some j => .ok (some j)
      | none => .error .malformedFilter

/-- The filter of the two payloads in text form. -/
def parse (and or : Option String) : Traced ParseError Filter := do
  let and ← Traced.ofExcept (payload? and)
  let or ← Traced.ofExcept (payload? or)
  filter and or

end ReadQuery.Input.MapPayload
