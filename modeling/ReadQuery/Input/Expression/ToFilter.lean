import ReadQuery.Filter
import ReadQuery.Input.Expression.Grammar

/-!
# Expressions as filters

Calls of a connective become nodes, all other calls conditions. A connective within the same
connective is no node of its own.
-/

namespace ReadQuery.Input.Expression

/-- The connective that a call's name stands for. -/
def junction? (name : String) : Option Junction :=
  let word := Text.lower name
  if word == "and" || word == "&&" then some .and
  else if word == "or" || word == "||" then some .or
  else none

/-- The left side of a comparison: a field, a selection, or a part of a date of either. -/
def fieldReference (op : Operator) : Expr → Except Unsupported Condition
  | .field name => .ok (Condition.nullary name op)
  | .select path =>
    .ok ((Condition.nullary (path.headD "") op).atPath (".".intercalate (path.drop 1)))
  | .call name [arg] =>
    match DatePart.ofSpelling? name with
    | none => .error (.notADatePart name)
    | some part =>
      match fieldReference op arg with
      | .error e => .error e
      | .ok c => if c.datePart.isSome then .error .nestedDateParts else .ok (c.onPart part)
  | e => .error (.notAField op e.text)

/-- The constants on the right side of a comparison. -/
def constants (op : Operator) : List Expr → Except Unsupported (List Value)
  | [] => .ok []
  | .literal v :: es => (constants op es).map (v :: ·)
  | e :: _ => .error (.notAConstant op e.text)

/-- Gives a condition its operands. An operator of one value takes the first. -/
def withOperands (c : Condition) (values : List Value) : Except Unsupported Condition :=
  match c.op.arity, values with
  | .nullary, _ => .ok c
  | .single, v :: _ => .ok { c with value := some v }
  | .single, [] => .error (.missingValue c.op c.field)
  | .list, _ | .range, _ => .ok { c with values := values }

/-- A call as a condition: its operator on its first argument with the others as values. -/
def callCondition (name : String) (args : List Expr) : Except Unsupported Condition :=
  let op := Operator.ofSpelling name
  if !op.isSpecified then .error (.unknownOperator name)
  else
    match args with
    | [] => .error (.missingField name)
    | left :: right => do
      let c ← fieldReference op left
      let values ← constants op right
      withOperands c values

/-- The condition of a term that is no connective. -/
def condition : Expr → Except Unsupported Condition
  | .call name args => callCondition name args
  | e => .error (.notACondition e.text)

/-- The members of a node: its conditions and its groups. -/
structure Members where
  conditions : List Condition
  groups : List Filter

/-- Members behind others. -/
def Members.append (a b : Members) : Members :=
  ⟨a.conditions ++ b.conditions, a.groups ++ b.groups⟩

mutual

/-- What a term adds to a node: the members of a call of the node's own connective, a group for a
call of the other, or else a condition. -/
def members (junction : Junction) : Expr → Except Unsupported Members
  | .call name args =>
    match junction? name with
    | some j =>
      if j = junction then membersOfAll junction args
      else (membersOfAll j args).map fun m => ⟨[], [⟨some j, m.conditions, m.groups⟩]⟩
    | none => (callCondition name args).map fun c => ⟨[c], []⟩
  | .field name => .error (.notACondition (Term.text (.field name)))
  | .select path => .error (.notACondition (Term.text (.select path)))
  | .literal v => .error (.notACondition (Term.text (.literal v)))

/-- The members that the arguments of a connective add to its node. -/
def membersOfAll (junction : Junction) : List Expr → Except Unsupported Members
  | [] => .ok ⟨[], []⟩
  | e :: es =>
    match members junction e with
    | .error err => .error err
    | .ok m => (membersOfAll junction es).map m.append

end

/-- A term as a filter: a connective as its node, and anything else as a condition alone. -/
def toFilter : Expr → Except Unsupported Filter
  | .call name args =>
    match junction? name with
    | some j => (membersOfAll j args).map fun m => ⟨some j, m.conditions, m.groups⟩
    | none => (callCondition name args).map fun c => Filter.all [c]
  | e => (condition e).map fun c => Filter.all [c]

/-- Parses an expression as a term. -/
def parseTerm (s : String) : Except ParseError Expr :=
  match Grammar.expression? s with
  | some t => t.resolve
  | none => .error .malformedExpression

/-- The filter that a text spells; a blank text is the filter that stands for nothing. -/
def parse (s : String) : Except ParseError Filter :=
  if Text.allBlank s then .ok Filter.none
  else do
    let e ← parseTerm s
    (toFilter e).mapError .unsupported

end ReadQuery.Input.Expression
