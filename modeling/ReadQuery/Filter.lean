import ReadQuery.Condition

/-!
# Filters

The filter tree that every way of writing a filter is brought to, and the walk that compiles its
conditions. What the conditions become is left open: each backend gives the form of a condition and
reads the clauses that remain.
-/

namespace ReadQuery

/-- How the members of a node are joined. -/
inductive Junction where
  | and
  | or
  deriving DecidableEq, Repr

def Junction.name : Junction → String
  | and => "AND"
  | or => "OR"

/-- The junction that a text names, blanks around it and the case of its letters aside. -/
def Junction.ofText? (s : String) : Option Junction :=
  let word := Text.upper (Text.trim s)
  if word == "AND" || word == "&&" then some and
  else if word == "OR" || word == "||" then some or
  else none

/-- A node of a filter. Without a junction it stands for nothing and is never compiled. -/
structure Filter where
  junction : Option Junction
  conditions : List Condition
  groups : List Filter

namespace Filter

/-- The filter without a junction, which says nothing. -/
def none : Filter := ⟨Option.none, [], []⟩

/-- The conjunction of some conditions. -/
def all (conditions : List Condition) : Filter := ⟨some .and, conditions, []⟩

/-- The disjunction of some conditions. -/
def any (conditions : List Condition) : Filter := ⟨some .or, conditions, []⟩

def junctionName (f : Filter) : String :=
  match f.junction with
  | some j => j.name
  | Option.none => "UNSPECIFIED"

mutual

/-- Whether the filter is a node without junction or contains no conditions. -/
def isEmpty : Filter → Bool
  | ⟨junction, conditions, groups⟩ =>
    junction.isNone || (conditions.isEmpty && allEmpty groups)

/-- Whether all of some filters are empty. -/
def allEmpty : List Filter → Bool
  | [] => true
  | f :: fs => isEmpty f && allEmpty fs

end

mutual

/-- The conditions of all nodes, those of a node before those of its groups. -/
def allConditions : Filter → List Condition
  | ⟨_, conditions, groups⟩ => conditions ++ conditionsOfAll groups

/-- The conditions of some filters, nodes before their groups. -/
def conditionsOfAll : List Filter → List Condition
  | [] => []
  | f :: fs => allConditions f ++ conditionsOfAll fs

end

mutual

/-- Renames the fields of all conditions. -/
def mapFields (rename : String → String) : Filter → Filter
  | ⟨junction, conditions, groups⟩ =>
    ⟨junction, conditions.map fun c => { c with field := rename c.field },
      mapFieldsAll rename groups⟩

/-- Renames the fields of some filters. -/
def mapFieldsAll (rename : String → String) : List Filter → List Filter
  | [] => []
  | f :: fs => mapFields rename f :: mapFieldsAll rename fs

end

end Filter

/-- What remains of a filter: compiled conditions, and joined parts of which there is at least
one. -/
inductive Clause (α : Type) where
  | leaf (a : α)
  | group (junction : Junction) (parts : List (Clause α))

namespace Clause

/-- The group of some parts, if there are any. -/
def join? {α : Type} (junction : Junction) : List (Clause α) → Option (Clause α)
  | [] => none
  | part :: parts => some (.group junction (part :: parts))

end Clause

namespace Filter

variable {α : Type}

/-- Compiles one condition under a policy. -/
def compileCondition (policy : SkipPolicy) (render : Condition → Compiled α) (c : Condition) :
    Traced Skipped (Option (Clause α)) := do
  let compiled ← Traced.mk c.resolveField.events (.ok (render c))
  let accepted ← policy.accept c.field compiled
  pure (accepted.map .leaf)

/-- Compiles the conditions of a node, in order. -/
def compileConditions (policy : SkipPolicy) (render : Condition → Compiled α) :
    List Condition → Traced Skipped (List (Clause α))
  | [] => pure []
  | c :: cs => do
    let part ← compileCondition policy render c
    let parts ← compileConditions policy render cs
    pure (part.toList ++ parts)

mutual

/-- Compiles a filter: its conditions and then its groups, in order. Nothing remains of a node that
has no junction or of which no part remains. -/
def compile (policy : SkipPolicy) (render : Condition → Compiled α) :
    Filter → Traced Skipped (Option (Clause α))
  | ⟨Option.none, _, _⟩ => pure Option.none
  | ⟨some junction, conditions, groups⟩ => do
    let leaves ← compileConditions policy render conditions
    let nodes ← compileAll policy render groups
    pure (Clause.join? junction (leaves ++ nodes))

/-- Compiles the groups of a node, in order. -/
def compileAll (policy : SkipPolicy) (render : Condition → Compiled α) :
    List Filter → Traced Skipped (List (Clause α))
  | [] => pure []
  | f :: fs => do
    let part ← compile policy render f
    let parts ← compileAll policy render fs
    pure (part.toList ++ parts)

end

end Filter

end ReadQuery
