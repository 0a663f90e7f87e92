import Mathlib.Data.List.TakeDrop
import ReadQuery.Proofs.Input.Flattening

/-!
# Operands of calls

Which operands of a call are those of the condition that it becomes. The left one is the field, and
the others are constants, of which the operator takes as many as its arity says (`Arity.taken`).
Those beyond are left out without an error (`condition_append`): a call with more of them than its
operator takes is the condition on a part of them.

The main statement, `operands_toFilter`, says this of all calls of a tree that is a filter, and that
the conditions have all operands exactly if no call has more than its operator takes.
-/

namespace ReadQuery

/-- How many operands an operator takes at most, if there is a limit. -/
def Arity.most? : Arity → Option Nat
  | nullary => some 0
  | single => some 1
  | list | range => none

/-- The operands that an operator takes of those that it is given. -/
def Arity.taken {α : Type} (a : Arity) (vs : List α) : List α :=
  match a.most? with
  | some n => vs.take n
  | none => vs

/-- The operands of a condition are these: the one value of an operator that takes one, the list of
one that takes several, and otherwise none. -/
def Condition.HasExactly (c : Condition) (vs : List Value) : Prop :=
  match c.op.arity with
  | .nullary => vs = [] ∧ c.value = none ∧ c.values = []
  | .single => ∃ v, vs = [v] ∧ c.value = some v ∧ c.values = []
  | .list | .range => c.value = none ∧ c.values = vs

/-- All operands are taken unless there are more than the arity allows. -/
lemma Arity.taken_eq_self_iff {α : Type} (a : Arity) (vs : List α) :
    a.taken vs = vs ↔ a.most?.any (· < vs.length) = false := by
  cases a with
  | nullary => simp [taken, most?]
  | single => simp [taken, most?]
  | list => simp [taken, most?]
  | range => simp [taken, most?]

/-- No operand is taken that is not there. -/
lemma Arity.taken_subset {α : Type} (a : Arity) (vs : List α) : a.taken vs ⊆ vs := by
  unfold taken
  split
  · exact List.take_subset _ vs
  · exact List.Subset.refl vs

/-- A condition has its values in one way only. -/
lemma Condition.HasExactly.unique {c : Condition} {vs ws : List Value} (hv : c.HasExactly vs)
    (hw : c.HasExactly ws) : vs = ws := by
  unfold HasExactly at hv hw
  cases harity : c.op.arity with
  | nullary =>
    rw [harity] at hv hw
    exact hv.1.trans hw.1.symm
  | single =>
    rw [harity] at hv hw
    obtain ⟨v, rfl, hvalue, -⟩ := hv
    obtain ⟨w, rfl, hvalue', -⟩ := hw
    rw [hvalue] at hvalue'
    rw [Option.some.inj hvalue']
  | list | range =>
    rw [harity] at hv hw
    exact hv.2.symm.trans hw.2

namespace Input.Expression

variable {name : String} {left e l : Expr} {right : List Expr} {c : Condition} {op : Operator}
  {vs : List Value}

/-- The field that a condition starts from has no operands. -/
lemma of_fieldReference (h : fieldReference op left = .ok c) :
    c.op = op ∧ c.value = none ∧ c.values = [] := by
  fun_induction fieldReference op left generalizing c with
  | case1 name =>
    cases h
    exact ⟨rfl, rfl, rfl⟩
  | case2 path =>
    cases h
    exact ⟨rfl, rfl, rfl⟩
  | case6 name arg part hpart inner hinner hnested ih =>
    cases h
    have hinner := ih hinner
    exact hinner
  | case3 | case4 | case5 | case7 => cases h

/-- The constants on the right side are the literals there, all of them and in order. -/
lemma constants_eq_ok_iff : constants op right = .ok vs ↔ right = vs.map .literal := by
  induction right generalizing vs with
  | nil =>
    rw [constants, Except.ok.injEq, eq_comm, List.nil_eq, List.map_eq_nil_iff]
  | cons e es ih =>
    cases e with
    | literal v =>
      rw [constants, map_eq_ok, eq_comm, List.map_eq_cons_iff]
      constructor
      · intro ⟨vs', hvs', hcons⟩
        exact ⟨v, vs', hcons.symm, rfl, (ih.1 hvs').symm⟩
      · intro ⟨v', vs', hcons, hv, hvs'⟩
        cases hv
        exact ⟨vs', ih.2 hvs'.symm, hcons.symm⟩
    | call | field | select =>
      constructor
      · intro h
        cases h
      · intro h
        obtain ⟨v, vs', -, hv, -⟩ := List.map_eq_cons_iff.1 h.symm
        cases hv

/-- A condition without operands is given those that its operator takes. -/
lemma hasExactly_of_withOperands {c' : Condition} (h : withOperands c vs = .ok c')
    (hvalue : c.value = none) (hvalues : c.values = []) :
    c'.op = c.op ∧ c'.HasExactly (c.op.arity.taken vs) := by
  unfold withOperands at h
  cases harity : c.op.arity with
  | nullary =>
    simp only [harity] at h
    cases h
    exact ⟨rfl, by simp [Condition.HasExactly, harity, Arity.taken, Arity.most?, hvalue, hvalues]⟩
  | single =>
    cases vs with
    | nil =>
      simp only [harity] at h
      cases h
    | cons v vs =>
      simp only [harity] at h
      cases h
      exact ⟨rfl, by simp [Condition.HasExactly, harity, Arity.taken, Arity.most?, hvalues]⟩
  | list | range =>
    simp only [harity] at h
    cases h
    exact ⟨rfl, by simp [Condition.HasExactly, harity, Arity.taken, Arity.most?, hvalue]⟩

/-- Where there is a limit to the operands, further ones make no difference. -/
lemma withOperands_append {c' : Condition} (h : withOperands c vs = .ok c')
    (hmost : c.op.arity.most?.isSome = true) (ws : List Value) :
    withOperands c (vs ++ ws) = .ok c' := by
  unfold withOperands at h ⊢
  cases harity : c.op.arity with
  | nullary =>
    simp only [harity] at h ⊢
    exact h
  | single =>
    simp only [harity] at h ⊢
    cases vs with
    | nil => cases h
    | cons v vs => exact h
  | list | range =>
    rw [harity] at hmost
    cases hmost

/-- Whether a call has more operands on its right side than its operator takes. -/
def hasSurplus : Expr → Bool
  | .call name (_ :: right) => (Operator.ofSpelling name).arity.most?.any (· < right.length)
  | _ => false

/-- A call is read as the field of its first argument with the values of the others. -/
lemma callCondition_cons (name : String) (left : Expr) (right : List Expr) :
    callCondition name (left :: right)
      = if (Operator.ofSpelling name).isSpecified then
          fieldReference (Operator.ofSpelling name) left >>= fun c =>
            constants (Operator.ofSpelling name) right >>= withOperands c
        else .error (.unknownOperator name) := by
  simp only [callCondition]
  generalize Operator.ofSpelling name = op
  cases op.isSpecified with
  | false => rfl
  | true => rfl

/-- A call that is a condition has constants on its right side, and the condition has those of them
that the operator takes. -/
lemma exists_of_condition (h : condition l = .ok c) :
    ∃ name left vs, l = .call name (left :: vs.map .literal) ∧ c.op = Operator.ofSpelling name ∧
      c.HasExactly (c.op.arity.taken vs) := by
  cases l with
  | field | select | literal => cases h
  | call name args =>
    cases args with
    | nil =>
      rw [condition, callCondition] at h
      split at h <;> cases h
    | cons left right =>
      rw [condition, callCondition_cons] at h
      split at h
      · obtain ⟨c₀, hfield, h⟩ := bind_eq_ok.1 h
        obtain ⟨vs, hconstants, h⟩ := bind_eq_ok.1 h
        obtain ⟨hop, hvalue, hvalues⟩ := of_fieldReference hfield
        obtain ⟨hsame, hoperands⟩ := hasExactly_of_withOperands h hvalue hvalues
        rw [constants_eq_ok_iff.1 hconstants]
        rw [← hsame] at hoperands
        exact ⟨name, left, vs, rfl, hsame.trans hop, hoperands⟩
      · cases h

/-- Constants behind those that an operator takes make no difference to the condition. -/
lemma condition_append (h : condition (.call name (left :: vs.map .literal)) = .ok c)
    (hmost : c.op.arity.most?.isSome = true) (ws : List Value) :
    condition (.call name (left :: (vs ++ ws).map .literal)) = .ok c := by
  rw [condition, callCondition_cons] at h ⊢
  split at h
  · next hspecified =>
    rw [if_pos hspecified]
    obtain ⟨c₀, hfield, h⟩ := bind_eq_ok.1 h
    rw [constants_eq_ok_iff.2 rfl, ok_bind] at h
    obtain ⟨hfield_op, hvalue, hvalues⟩ := of_fieldReference hfield
    rw [(hasExactly_of_withOperands h hvalue hvalues).1] at hmost
    rw [hfield, constants_eq_ok_iff.2 rfl, ok_bind, ok_bind]
    exact withOperands_append h hmost ws
  · cases h

/-- The conditions of a filter are those of the leaves. -/
lemma exists_conditions {f : Filter} (h : toFilter e = .ok f) :
    ∃ cs, (leaves e).mapM condition = .ok cs ∧ f.allConditions.Perm cs := by
  obtain ⟨j, hj⟩ := exists_toFilter_eq e
  rw [hj] at h
  obtain ⟨m, hm, rfl⟩ := map_eq_ok.1 h
  have hgathers := gathers_members e j
  rw [hm] at hgathers
  cases hcs : (leaves e).mapM condition with
  | error err =>
    rw [hcs] at hgathers
    cases hgathers
  | ok cs =>
    rw [hcs] at hgathers
    exact ⟨cs, rfl, hgathers⟩

/-- A call has surplus operands if its condition does not have all of them. -/
lemma hasSurplus_eq_false_iff {l : Expr} (hl : l = .call name (left :: vs.map .literal))
    (hop : c.op = Operator.ofSpelling name) (hc : c.HasExactly (c.op.arity.taken vs)) :
    hasSurplus l = false ↔ c.HasExactly vs := by
  have htaken : hasSurplus l = false ↔ c.op.arity.taken vs = vs := by
    rw [Arity.taken_eq_self_iff, hl, hop, hasSurplus, List.length_map]
  rw [htaken]
  constructor
  · intro h
    rwa [h] at hc
  · intro h
    exact hc.unique h

/-- A condition has all the operands on the right side of its call. -/
def IsComplete (l : Expr) (c : Condition) : Prop :=
  ∃ name left vs, l = .call name (left :: vs.map .literal) ∧ c.op = Operator.ofSpelling name ∧
    c.HasExactly vs

/-- A condition is complete if its call has no surplus. -/
lemma isComplete_iff (h : condition l = .ok c) : IsComplete l c ↔ hasSurplus l = false := by
  obtain ⟨name, left, vs, hl, hop, hc⟩ := exists_of_condition h
  rw [hasSurplus_eq_false_iff hl hop hc]
  constructor
  · intro ⟨name', left', vs', hl', _, hc'⟩
    rw [hl, Term.call.injEq, List.cons.injEq] at hl'
    have hvs : vs = vs' := List.map_injective_iff.2 (fun _ _ => Term.literal.inj) hl'.2.2
    rwa [hvs]
  · intro hc
    exact ⟨name, left, vs, hl, hop, hc⟩

/-- Conditions are complete if none of the calls has a surplus. -/
lemma forall₂_isComplete_iff {ls : List Expr} {cs : List Condition}
    (h : List.Forall₂ (fun l c => condition l = .ok c) ls cs) :
    List.Forall₂ IsComplete ls cs ↔ ∀ l ∈ ls, hasSurplus l = false := by
  induction h with
  | nil => simp
  | cons hl _ ih => rw [List.forall₂_cons, List.forall_mem_cons, isComplete_iff hl, ih]

/-- The conditions of a filter are those of the calls of its tree. Every call has a field and
constants, and its condition has those that the operator takes, in order. If there is a limit to
those, further ones are no error but make no difference, so that the conditions have all operands
exactly if no call has a surplus. -/
theorem operands_toFilter {f : Filter} (h : toFilter e = .ok f) :
    ∃ cs, (leaves e).mapM condition = .ok cs ∧ f.allConditions.Perm cs ∧
      List.Forall₂ (fun l c => ∃ name left vs, l = .call name (left :: vs.map .literal) ∧
        c.op = Operator.ofSpelling name ∧ c.HasExactly (c.op.arity.taken vs) ∧
        (c.op.arity.most?.isSome = true → ∀ ws : List Value,
          condition (.call name (left :: (vs ++ ws).map .literal)) = .ok c)) (leaves e) cs ∧
      (List.Forall₂ IsComplete (leaves e) cs ↔ ∀ l ∈ leaves e, hasSurplus l = false) := by
  obtain ⟨cs, hcs, hperm⟩ := exists_conditions h
  have hleaves := mapM_eq_ok_iff.1 hcs
  refine ⟨cs, hcs, hperm, hleaves.imp ?_, forall₂_isComplete_iff hleaves⟩
  intro l c hl
  obtain ⟨name, left, vs, rfl, hop, hc⟩ := exists_of_condition hl
  exact ⟨name, left, vs, rfl, hop, hc, condition_append hl⟩

/-- A range, a null check, and a list of three. -/
def rangeTree : Expr :=
  .call "and" [.call "between" [.field "a", .literal (.int 1), .literal (.int 9)],
    .call "or" [.call "isnull" [.field "b"],
      .call "in" [.select ["c", "d"], .literal (.int 2), .literal (.int 3), .literal (.int 4)]]]

/-- The filter that the tree becomes. -/
def rangeFilter : Filter :=
  ⟨some .and, [.listed "a" .between [.int 1, .int 9]],
    [.any [.nullary "b" (.nullness false),
      (Condition.listed "c" (.among false) [.int 2, .int 3, .int 4]).atPath "d"]]⟩

/-- The conditions of the range, the null check and the list have all their operands. -/
theorem operands_toFilter_rangeTree :
    toFilter rangeTree = .ok rangeFilter ∧
      ∃ cs, (leaves rangeTree).mapM condition = .ok cs ∧ rangeFilter.allConditions.Perm cs ∧
        List.Forall₂ IsComplete (leaves rangeTree) cs := by
  have hfilter : toFilter rangeTree = .ok rangeFilter := by rfl
  have hsurplus : ∀ l ∈ leaves rangeTree, hasSurplus l = false := by decide
  obtain ⟨cs, hcs, hperm, -, hcomplete⟩ := operands_toFilter hfilter
  exact ⟨hfilter, cs, hcs, hperm, hcomplete.2 hsurplus⟩

/-- Of two values behind a comparison of one the second is left out. -/
theorem not_forall_operands_toFilter :
    ¬ ∀ e f, toFilter e = .ok f → ∃ cs, (leaves e).mapM condition = .ok cs ∧
      f.allConditions.Perm cs ∧ List.Forall₂ IsComplete (leaves e) cs := by
  intro h
  have hf : toFilter (.call "eq" [.field "a", .literal (.int 1), .literal (.int 2)])
      = .ok (.all [.single "a" (.compare .equals) (.int 1)]) := by rfl
  obtain ⟨cs, hcs, -, hcomplete⟩ := h _ _ hf
  have hsurplus := (forall₂_isComplete_iff (mapM_eq_ok_iff.1 hcs)).1 hcomplete _ List.mem_cons_self
  exact absurd hsurplus (by decide)

end Input.Expression

end ReadQuery
