import ReadQuery.Filter
import ReadQuery.Influx.Literal
import ReadQuery.Pattern

/-!
# Filters in InfluxQL

The predicate of a condition and the predicates of a filter. Memberships are chains of comparisons,
and every pattern is a regular expression.
-/

namespace ReadQuery.Influx

def comparisonSign : Comparison → String
  | .equals => "="
  | .notEquals => "!="
  | .greater => ">"
  | .greaterOrEquals => ">="
  | .less => "<"
  | .lessOrEquals => "<="

/-- A predicate that no point satisfies. -/
def never : String := "(time < 0 AND time > 0)"

/-- A comparison of a field with a value. -/
def compare (field sign : String) (v : Value) : String :=
  field ++ " " ++ sign ++ " " ++ literal v

def parens (s : String) : String :=
  "(" ++ s ++ ")"

/-- Predicates joined by a connective; more than one are parenthesized. -/
def chain (connective : String) : List String → String
  | [p] => p
  | ps => parens (connective.intercalate ps)

/-- A match with a regular expression, which may disregard case. -/
def regexMatch (field pattern : String) (folded : Bool) : Compiled String :=
  let pattern := if folded then "(?i)" ++ pattern else pattern
  match regexLiteral? pattern with
  | some l => .rendered (field ++ " =~ " ++ l)
  | none => .skipped (.invalidPattern pattern)

/-- The predicate of an operator on a quoted field. -/
def operation (field : String) (c : Condition) : Compiled String :=
  let onPattern := fun (pattern : String → String) (folded : Bool) =>
    match c.patternText? with
    | none => Compiled.skipped .missingValue
    | some s => regexMatch field (pattern s) folded
  match c.op with
  | .unspecified => .skipped .unknownOperator
  | .compare cmp =>
    match c.scalar? with
    | none => .skipped .missingValue
    | some v => .rendered (compare field (comparisonSign cmp) v)
  | .among negated =>
    match c.resolveList with
    | [] => if negated then .vacuous else .rendered never
    | values =>
      if negated then .rendered (chain " AND " (values.map (compare field "!=")))
      else .rendered (chain " OR " (values.map (compare field "=")))
  | .between =>
    match c.resolveRange with
    | .ok (.bounds lower upper) =>
      .rendered (parens (compare field ">=" lower ++ " AND " ++ compare field "<=" upper))
    | .ok (.single v) => .rendered (compare field "=" v)
    | .error reason => .skipped reason
  | .nullness negated => .rendered (compare field (if negated then "!=" else "=") .null)
  | .text place folded => onPattern (Pattern.anchored place) folded
  | .regex folded => onPattern id folded
  | .search => onPattern (Pattern.anchored .anywhere) false

/-- The predicate of a condition; there are no parts of dates in InfluxQL. -/
def condition (c : Condition) : Compiled String :=
  match c.fieldRef with
  | .error reason => .skipped reason
  | .ok f =>
    match c.datePart with
    | some part => .skipped (.unsupportedDatePart part .influx)
    | none => operation (quoteName f.dotted) c

def connective : Junction → String
  | .and => " AND "
  | .or => " OR "

mutual

/-- The predicate of a clause. -/
def ofClause : Clause String → String
  | .leaf p => p
  | .group junction parts => chain (connective junction) (ofClauses parts)

/-- The predicates of some clauses. -/
def ofClauses : List (Clause String) → List String
  | [] => []
  | c :: cs => ofClause c :: ofClauses cs

end

/-- The predicates that hold together exactly if what remains of a filter does: the parts of a
conjunction at the root are predicates of their own. -/
def entries : Option (Clause String) → List String
  | none => []
  | some (.group .and parts) => ofClauses parts
  | some c => [ofClause c]

/-- The predicates of a filter, which are joined by `AND`. -/
def filter (policy : SkipPolicy) (f : Filter) : Traced Skipped (List String) := do
  let clause ← f.compile policy condition
  pure (entries clause)

end ReadQuery.Influx
