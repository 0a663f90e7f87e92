import ReadQuery.Filter

/-!
# Predicates

Fragments of SQL with the values they bind, trees of them, and their rendering into fragments again.
-/

namespace ReadQuery.Sql

/-- A fragment and the values bound to its placeholders, in order. -/
structure Predicate where
  sql : String
  params : List Value
  deriving DecidableEq

/-- A tree of predicates. -/
inductive Tree where
  | all (parts : List Tree)
  | any (parts : List Tree)
  | leaf (p : Predicate)
  /-- No condition at all. -/
  | nothing
  /-- A condition that never holds. -/
  | never

namespace Predicate

/-- Fragments joined by a connective, between parentheses if asked for and more than one. -/
def joined (connective : String) (nested : Bool) (ps : List Predicate) : Predicate :=
  let sql := connective.intercalate (ps.map (·.sql))
  ⟨if nested && 1 < ps.length then "(" ++ sql ++ ")" else sql, ps.flatMap (·.params)⟩

end Predicate

namespace Tree

/-- Whether there is no condition at all. -/
def isEmpty : Tree → Bool
  | nothing => true
  | _ => false

mutual

/-- The tree as one fragment; groups of more than one part are parenthesized within other groups,
and at the root if `nested`. -/
def render (nested : Bool) : Tree → Predicate
  | leaf p => p
  | nothing => ⟨"1 = 1", []⟩
  | never => ⟨"1 = 0", []⟩
  | all parts => Predicate.joined " AND " nested (renderAll parts)
  | any parts => Predicate.joined " OR " nested (renderAll parts)

/-- Renders some trees as operands. -/
def renderAll : List Tree → List Predicate
  | [] => []
  | t :: ts => render true t :: renderAll ts

end

/-- The fragments that hold together exactly if the tree does: the parts of a conjunction at the
root are fragments of their own. -/
def entries : Tree → List Predicate
  | nothing => []
  | all parts => renderAll parts
  | any parts => if 1 < parts.length then [render true (any parts)] else renderAll parts
  | t => [render false t]

mutual

/-- The tree of the clauses that remain of a filter. -/
def ofClause : Clause Tree → Tree
  | .leaf t => t
  | .group .and parts => all (ofClauses parts)
  | .group .or parts => any (ofClauses parts)

/-- The trees of some clauses. -/
def ofClauses : List (Clause Tree) → List Tree
  | [] => []
  | c :: cs => ofClause c :: ofClauses cs

end

/-- The tree of what remains of a filter, if anything does. -/
def ofClause? : Option (Clause Tree) → Tree
  | none => nothing
  | some c => ofClause c

end Tree

end ReadQuery.Sql
