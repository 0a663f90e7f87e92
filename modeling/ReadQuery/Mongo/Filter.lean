import ReadQuery.Filter
import ReadQuery.Mongo.Bson
import ReadQuery.Pattern

/-!
# Filters in MongoDB

The query document of a condition, on a key or through an expression on a part of a date, and the
document of a filter.
-/

namespace ReadQuery.Mongo

def comparisonName : Comparison → String
  | .equals => "$eq"
  | .notEquals => "$ne"
  | .greater => "$gt"
  | .greaterOrEquals => "$gte"
  | .less => "$lt"
  | .lessOrEquals => "$lte"

def nullCheckName (negated : Bool) : String :=
  if negated then "$ne" else "$eq"

/-- A document that no other one matches. -/
def never : Document := [("$expr", .bool false)]

/-- The regular expression of a pattern operator. -/
def regexOf (place : Option Placement) (s : String) : String :=
  match place with
  | some place => Pattern.anchored place s
  | none => s

/-- A regular expression on a key. -/
def keyPattern (pattern : String) (folded : Bool) : Document :=
  [("$regex", .string pattern)] ++ if folded then [("$options", .string "i")] else []

/-- The document of a condition on a key. -/
def keyCondition (c : Condition) (key : String) : Compiled Document :=
  let onKey := fun (operators : Document) =>
    Compiled.rendered [(key, .document operators)]
  let onPattern := fun (place : Option Placement) (folded : Bool) =>
    match c.patternText? with
    | none => Compiled.skipped .missingValue
    | some s => onKey (keyPattern (regexOf place s) folded)
  match c.op with
  | .unspecified => .skipped .unknownOperator
  | .compare cmp =>
    match c.scalar? with
    | none => .skipped .missingValue
    | some v => onKey [(comparisonName cmp, .ofValue v)]
  | .among negated =>
    match c.resolveList with
    | [] => if negated then .vacuous else .rendered never
    | values => onKey [(if negated then "$nin" else "$in", .array (Bson.ofValues values))]
  | .between =>
    match c.resolveRange with
    | .ok (.bounds lower upper) => onKey [("$gte", .ofValue lower), ("$lte", .ofValue upper)]
    | .ok (.single v) => onKey [("$eq", .ofValue v)]
    | .error reason => .skipped reason
  | .nullness negated => onKey [(nullCheckName negated, .null)]
  | .text place folded => onPattern (some place) folded
  | .regex folded => onPattern none folded
  | .search =>
    match c.patternText? with
    | none => .skipped .missingValue
    | some s => .rendered [("$text", .entry "$search" (.string s))]

/-- The expression of a part of the date at a path. -/
def datePartExpr (path : String) (part : DatePart) : Bson :=
  let operand := Bson.string ("$" ++ path)
  let formatted := fun (format : String) =>
    Bson.entry "$dateToString" (.document [("format", .string format), ("date", operand)])
  match part with
  | .year => .entry "$year" operand
  | .isoYear => .entry "$isoWeekYear" operand
  | .quarter =>
    .entry "$ceil" (.entry "$divide" (.array [.entry "$month" operand, .int32 3]))
  | .month => .entry "$month" operand
  | .week => .entry "$isoWeek" operand
  | .weekDay => .entry "$dayOfWeek" operand
  | .isoWeekDay => .entry "$isoDayOfWeek" operand
  | .day => .entry "$dayOfMonth" operand
  | .hour => .entry "$hour" operand
  | .minute => .entry "$minute" operand
  | .second => .entry "$second" operand
  | .date => formatted "%Y-%m-%d"
  | .time => formatted "%H:%M:%S"

/-- An operator applied to an expression and a value. -/
def applied (operator : String) (expr value : Bson) : Bson :=
  .entry operator (.array [expr, value])

/-- A pattern on the text of an expression. -/
def exprPattern (expr : Bson) (pattern : String) (folded : Bool) : Bson :=
  .entry "$regexMatch" (.document [("input", .entry "$toString" expr), ("regex", .string pattern),
    ("options", .string (if folded then "i" else ""))])

/-- The document of a condition on an expression. -/
def exprCondition (c : Condition) (expr : Bson) : Compiled Document :=
  let onExpr := fun (test : Bson) => Compiled.rendered [("$expr", test)]
  let onPattern := fun (place : Option Placement) (folded : Bool) =>
    match c.patternText? with
    | none => Compiled.skipped .missingValue
    | some s => onExpr (exprPattern expr (regexOf place s) folded)
  match c.op with
  | .unspecified => .skipped .unknownOperator
  | .compare cmp =>
    match c.scalar? with
    | none => .skipped .missingValue
    | some v => onExpr (applied (comparisonName cmp) expr (.ofValue v))
  | .among negated =>
    match c.resolveList with
    | [] => if negated then .vacuous else .rendered never
    | values =>
      let test := applied "$in" expr (.array (Bson.ofValues values))
      onExpr (if negated then .entry "$not" (.array [test]) else test)
  | .between =>
    match c.resolveRange with
    | .ok (.bounds lower upper) =>
      onExpr (.entry "$and" (.array [applied "$gte" expr (.ofValue lower),
        applied "$lte" expr (.ofValue upper)]))
    | .ok (.single v) => onExpr (applied "$eq" expr (.ofValue v))
    | .error reason => .skipped reason
  | .nullness negated => onExpr (applied (nullCheckName negated) expr .null)
  | .text place folded => onPattern (some place) folded
  | .regex folded => onPattern none folded
  | .search => .skipped (.unsupportedOperator .search .mongo)

/-- The document of a condition, on a key or on a part of a date in it. -/
def condition (c : Condition) : Compiled Document :=
  match c.fieldRef with
  | .error reason => .skipped reason
  | .ok f =>
    match c.datePart with
    | none => keyCondition c f.dotted
    | some part => exprCondition c (datePartExpr f.dotted part)

def junctionName : Junction → String
  | .and => "$and"
  | .or => "$or"

/-- Documents joined by an operator; a single one stands for itself. -/
def combine? (operator : String) : List Document → Option Document
  | [] => none
  | [d] => some d
  | ds => some [(operator, .array (ds.map .document))]

mutual

/-- The document of the clauses that remain of a filter. -/
def ofClause : Clause Document → Document
  | .leaf d => d
  | .group junction parts =>
    (combine? (junctionName junction) (ofClauses parts)).getD []

/-- The documents of some clauses. -/
def ofClauses : List (Clause Document) → List Document
  | [] => []
  | c :: cs => ofClause c :: ofClauses cs

end

/-- Compiles a filter, if anything remains of it. -/
def filter? (policy : SkipPolicy) (f : Filter) : Traced Skipped (Option Document) := do
  let clause ← f.compile policy condition
  pure (clause.map ofClause)

end ReadQuery.Mongo
