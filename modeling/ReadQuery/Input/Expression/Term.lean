import ReadQuery.Input.ParseError

/-!
# Terms of the expression language

Comparisons, connectives and functions alike are calls; their operands are fields, dotted selections
and literals.
-/

namespace ReadQuery.Input

/-- A term with literals of type `α`. -/
inductive Term (α : Type) where
  | call (name : String) (args : List (Term α))
  | field (name : String)
  | select (path : List String)
  | literal (a : α)

/-- A term whose literals are values. -/
abbrev Expr := Term Value

/-- A literal as it is recognized: an integer is not converted yet. -/
inductive Literal where
  | value (v : Value)
  | integer (digits : List Char)

namespace Literal

/-- The value of a literal; an integer has to fit 64 bits. -/
def resolve : Literal → Except ParseError Value
  | value v => .ok v
  | integer digits =>
    match Number.integer? digits with
    | some i =>
      match Number.int64? i with
      | some w => .ok (.int w)
      | none =>
        .error (if i < 0 then .integerTooSmall (String.ofList digits)
          else .integerTooLarge (String.ofList digits))
    | none => .error .malformedExpression

end Literal

namespace Term

mutual

/-- Converts the literals, up to the first that has no value. -/
def resolve : Term Literal → Except ParseError Expr
  | call name args => (resolveAll args).map (call name)
  | field name => .ok (field name)
  | select path => .ok (select path)
  | literal a => a.resolve.map literal

/-- Resolves the literals of some terms, up to the first that has no value. -/
def resolveAll : List (Term Literal) → Except ParseError (List Expr)
  | [] => .ok []
  | t :: ts =>
    match resolve t with
    | .error e => .error e
    | .ok u => (resolveAll ts).map (u :: ·)

end

mutual

/-- A term as text: names and calls as they are, string literals quoted. -/
def text : Expr → String
  | call name args => name ++ "(" ++ ", ".intercalate (textAll args) ++ ")"
  | field name => name
  | select path => ".".intercalate path
  | literal v => v.shown

def textAll : List Expr → List String
  | [] => []
  | t :: ts => text t :: textAll ts

end

end Term

end ReadQuery.Input
