import ReadQuery.Sql.Dialect
import ReadQuery.Sql.Predicate

/-!
# Filters in SQL

The predicate of a condition in each dialect, and the tree of predicates of a filter.
-/

namespace ReadQuery.Sql

/-- Puts a backslash in front of the characters that a pattern gives a meaning to. -/
def escapeLike (s : String) : String :=
  String.ofList (s.toList.flatMap fun c =>
    if c = '\\' ∨ c = '%' ∨ c = '_' then ['\\', c] else [c])

/-- The pattern that a text is looked for with, which is escaped in it. -/
def likePattern (place : Placement) (s : String) : String :=
  match place with
  | .anywhere => "%" ++ escapeLike s ++ "%"
  | .atStart => escapeLike s ++ "%"
  | .atEnd => "%" ++ escapeLike s
  | .whole => escapeLike s

def comparisonSign : Comparison → String
  | .equals => "="
  | .notEquals => "<>"
  | .greater => ">"
  | .greaterOrEquals => ">="
  | .less => "<"
  | .lessOrEquals => "<="

def nullCheck (expr : String) (negated : Bool) : String :=
  expr ++ if negated then " IS NOT NULL" else " IS NULL"

/-- A membership in as many values as there are placeholders. -/
def membership (expr : String) (negated : Bool) (count : Nat) : String :=
  expr ++ (if negated then " NOT IN (" else " IN (")
    ++ ", ".intercalate (List.replicate count "?") ++ ")"

/-- A condition that is rendered as one predicate. -/
def single (sql : String) (params : List Value) : Compiled Tree :=
  .rendered (.leaf ⟨sql, params⟩)

/-- The form of an operator's operands, given the expression compared. -/
def operation (d : Dialect) (expr : String) (c : Condition) : Compiled Tree :=
  match c.op with
  | .unspecified => .skipped .unknownOperator
  | .compare cmp =>
    match cmp, c.scalar? with
    | _, none => .skipped .missingValue
    | .equals, some .null => single (nullCheck expr false) []
    | .notEquals, some .null => single (nullCheck expr true) []
    | cmp, some v => single (expr ++ " " ++ comparisonSign cmp ++ " ?") [v]
  | .among negated =>
    match c.resolveList with
    | [] => if negated then .vacuous else .rendered .never
    | values => single (membership expr negated values.length) values
  | .between =>
    match c.resolveRange with
    | .ok (.bounds lower upper) => single (expr ++ " BETWEEN ? AND ?") [lower, upper]
    | .ok (.single v) => single (expr ++ " = ?") [v]
    | .error reason => .skipped reason
  | .nullness negated => single (nullCheck expr negated) []
  | .text place folded =>
    match c.patternText? with
    | none => .skipped .missingValue
    | some s =>
      single (if folded then d.foldedLike expr else d.like expr) [.string (likePattern place s)]
  | .regex folded =>
    match c.patternText? with
    | none => .skipped .missingValue
    | some s =>
      let (sql, pattern) := d.regex expr s folded
      single sql [.string pattern]
  | .search =>
    match c.patternText? with
    | none => .skipped .missingValue
    | some s =>
      match d.search? expr with
      | some sql => single sql [.string s]
      | none => single (d.like expr) [.string (likePattern .anywhere s)]

/-- The expression that a condition compares: its field, or a part of the date in it. -/
def comparedExpr (d : Dialect) (c : Condition) : Except SkipReason String :=
  c.fieldRef.bind fun f =>
    match c.datePart with
    | none => .ok (d.field f)
    | some part => d.datePart (d.field f) part

/-- The tree of a condition. -/
def condition (d : Dialect) (c : Condition) : Compiled Tree :=
  match comparedExpr d c with
  | .error reason => .skipped reason
  | .ok expr => operation d expr c

/-- The tree of a filter. -/
def filter (d : Dialect) (policy : SkipPolicy) (f : Filter) : Traced Skipped Tree := do
  let clause ← f.compile policy (condition d)
  pure (Tree.ofClause? clause)

end ReadQuery.Sql
