import Mathlib.Data.List.Forall2
import ReadQuery.Proofs.Input.Condition

/-!
# Expressions from filters

Every filter in normal form is read from its text (`parse_print`): where several forms would do,
whichever the writer has chosen.

The text of a node is recognized as its term if those of its members are (`isNode_of_members`), by
induction on the filter (`node_print`). The members of a node are joined by its connective, and what
stands behind a member tells whether another one follows; a disjunction within a conjunction needs
its parentheses, since behind the last of its members the conjunction goes on.

The fuel of the grammar is spent by parentheses. Each pair of them takes two characters, so a text
is never longer than there is fuel.
-/

namespace ReadQuery.Input

namespace Grammar

open Recognizer
open Infix (Style valueText fieldText conditionText conditionTerm filterTerm termsOfAll nodeTerm
  unresolved enclosed connective print printAll)
open Text (skipGap)

variable {cs rest : List Char} {t : Term Literal} {n : Nat} {j : Junction} {style : Style}
  {c : Condition}

/-- A text of a node and its term. -/
def IsNode (n : Nat) (j : Junction) (cs : List Char) (t : Term Literal) : Prop :=
  Starts cs ∧ Takes (After j) (node n j) cs t

/-- The members of a node are recognized as the node. -/
lemma isNode_of_members {texts : List (List Char)} {ts : List (Term Literal)} (hne : texts ≠ [])
    (h : List.Forall₂ (IsMember n j) texts ts) :
    IsNode n j ((joint j).intercalate texts) (nodeTerm (some j) ts) := by
  cases h with
  | nil => exact absurd rfl hne
  | cons htext htexts =>
    rw [Text.intercalate_cons]
    exact ⟨htext.1.append _, node_of_members htext.2 htexts⟩

/-- A node by itself is an expression. -/
lemma disjunction_of_node (h : IsNode n j cs t) : Takes Closes (disjunction (n + 1)) cs t := by
  cases j with
  | and => exact node_of_member (j := .or) h.2
  | or => exact h.2

/-- A part is a member of a conjunction, and in a disjunction it is a conjunction of one member. -/
lemma member_of_part (hstarts : Starts cs)
    (h : Takes (Within .and) (part (disjunction n) (operand n)) cs t) : IsMember n j cs t := by
  cases j with
  | and => exact ⟨hstarts, h⟩
  | or => exact ⟨hstarts, node_of_member (j := .and) h⟩

/-- A condition is a member of a node. -/
lemma member_conditionText (hc : c.IsInfix) (hn : 2 ≤ n) :
    IsMember n j (conditionText style c).toList (conditionTerm style unresolved c) := by
  obtain ⟨n, rfl⟩ := Nat.exists_eq_add_of_le' hn
  have hunbracketed := (named_conditionText style hc).unbracketed
  refine member_of_part hunbracketed.starts fun rest hrest => ?_
  rw [part_of_unbracketed hunbracketed]
  exact condition_conditionText hc n rest hrest

/-- A node between parentheses is a member of any node. -/
lemma member_of_parentheses {j' : Junction} (h : IsNode n j' cs t) :
    IsMember (n + 1) j ('(' :: (cs ++ [')'])) t := by
  refine member_of_part ⟨_, _, rfl, by decide⟩ fun rest _ => ?_
  obtain ⟨ds, hds, hgap⟩ := disjunction_of_node h _ (closes_bracket rest)
  have hbracket : skipGap (')' :: rest) = ')' :: rest := rfl
  refine ⟨rest, orElse_of_eq_some ?_, rfl⟩
  rw [List.cons_append, List.append_assoc, List.singleton_append,
    bind_of_eq_some (char_cons_self '(' _), gap_bind, (h.1.append _).skipGap, bind_of_eq_some hds,
    gap_bind, hgap, hbracket, bind_of_eq_some (char_cons_self ')' rest)]
  rfl

/-- A member of a list is no longer than the list. -/
lemma length_le_intercalate {mid : List Char} {texts : List (List Char)} (h : cs ∈ texts) :
    cs.length ≤ (mid.intercalate texts).length := by
  induction texts with
  | nil => cases h
  | cons text texts ih =>
    cases texts with
    | nil =>
      obtain rfl := List.mem_singleton.1 h
      rw [List.intercalate_singleton]
    | cons text' texts =>
      rw [List.intercalate_cons_cons, List.length_append, List.length_append]
      obtain rfl | h := List.mem_cons.1 h
      · omega
      · have hlength := ih h
        omega

/-- The connective is what stands between members. -/
lemma toList_connective (j : Junction) : (connective (some j)).toList = joint j := by
  cases j <;> rfl

/-- A node is printed as its members with the connective between them. -/
lemma toList_print (place : List Nat) (j : Junction) (conditions : List Condition)
    (groups : List Filter) : (print style place ⟨some j, conditions, groups⟩).toList
      = (joint j).intercalate (((conditions.map (conditionText style)).map String.toList)
        ++ (printAll style (some j) place 0 groups).map String.toList) := by
  rw [print, String.toList_intercalate, toList_connective, List.map_append]

/-- The texts of conditions are members of a node. -/
lemma members_conditions {conditions : List Condition} (h : ∀ c ∈ conditions, c.IsInfix)
    (hn : ∀ c ∈ conditions, (conditionText style c).toList.length + 1 ≤ n) :
    List.Forall₂ (IsMember n j) ((conditions.map (conditionText style)).map String.toList)
      (conditions.map (conditionTerm style unresolved)) := by
  induction conditions with
  | nil => exact .nil
  | cons c conditions ih =>
    rw [List.forall_mem_cons] at h hn
    refine .cons (member_conditionText h.1 ?_) (ih h.2 hn.2)
    obtain ⟨ch, cs, hcs, -⟩ := named_conditionText style h.1
    have hlength := hn.1
    rw [hcs, List.length_cons] at hlength
    omega

/-- Every group is printed. -/
lemma length_printAll (junction : Option Junction) (place : List Nat) (i : Nat)
    (fs : List Filter) : (printAll style junction place i fs).length = fs.length := by
  induction fs generalizing i with
  | nil => rfl
  | cons f fs ih => rw [printAll, List.length_cons, List.length_cons, ih]

mutual

/-- A node in normal form is recognized from its text. -/
theorem node_print : ∀ (f : Filter) (place : List Nat) {n : Nat} {j : Junction}, f.IsGroup j →
    (print style place f).toList.length + 1 ≤ n →
    IsNode n j (print style place f).toList (filterTerm style unresolved f)
  | ⟨_, conditions, groups⟩, place, n, j, h, hn => by
    rw [Filter.IsGroup] at h
    obtain ⟨rfl, htwo, hconditions, hgroups⟩ := h
    rw [toList_print] at hn ⊢
    have hlength : ∀ cs ∈ (conditions.map (conditionText style)).map String.toList
        ++ (printAll style (some j) place 0 groups).map String.toList, cs.length + 1 ≤ n :=
      fun cs hcs => le_trans (Nat.succ_le_succ (length_le_intercalate hcs)) hn
    rw [List.forall_mem_append, List.forall_mem_map, List.forall_mem_map, List.forall_mem_map]
      at hlength
    have hmembers := List.rel_append (members_conditions (j := j) hconditions hlength.1)
      (members_printAll groups place 0 hgroups hlength.2)
    refine isNode_of_members ?_ hmembers
    intro hnil
    have hnone := congrArg List.length hnil
    simp only [List.length_append, List.length_map, List.length_nil, length_printAll] at hnone
    omega

/-- The texts of groups are members of a node of the other connective. -/
theorem members_printAll : ∀ (fs : List Filter) (place : List Nat) (i : Nat) {n : Nat}
    {j : Junction}, Filter.AllGroups j.other fs →
    (∀ s ∈ printAll style (some j) place i fs, s.toList.length + 1 ≤ n) →
    List.Forall₂ (IsMember n j) ((printAll style (some j) place i fs).map String.toList)
      (termsOfAll style unresolved fs)
  | [], _, _, _, _, _, _ => .nil
  | f :: fs, place, i, n, j, h, hn => by
    rw [Filter.AllGroups] at h
    rw [printAll, List.forall_mem_cons] at hn
    refine .cons ?_ (members_printAll fs place (i + 1) h.2 hn.2)
    have hlength := hn.1
    rw [enclosed] at hlength ⊢
    split
    · next hbare =>
      -- a conjunction is a member of a disjunction as it is
      obtain ⟨hor, hbare⟩ := hbare
      obtain rfl : j = .or := Option.some.inj hor
      rw [if_pos ⟨hor, hbare⟩] at hlength
      exact node_print f (i :: place) h.1 hlength
    · next hbare =>
      -- parentheses take a level of fuel, and two characters
      rw [if_neg hbare] at hlength
      rw [String.toList_append, String.toList_append] at hlength ⊢
      obtain ⟨m, rfl⟩ : ∃ m, n = m + 1 := Nat.exists_eq_add_of_le' (by omega)
      refine member_of_parentheses (node_print f (i :: place) h.1 ?_)
      have hbrackets : "(".toList.length = 1 ∧ ")".toList.length = 1 := ⟨rfl, rfl⟩
      rw [List.length_append, List.length_append, hbrackets.1, hbrackets.2] at hlength
      omega

end

variable (style) in
/-- A filter in normal form is recognized from its text. -/
lemma disjunction_print {f : Filter} (h : f.IsInfix)
    (hn : (print style [] f).toList.length + 1 ≤ n) :
    Starts (print style [] f).toList ∧
      Takes Closes (disjunction (n + 1)) (print style [] f).toList
        (filterTerm style unresolved f) := by
  obtain ⟨j, hgroup⟩ | ⟨c, hc, rfl⟩ := h
  · have hnode := node_print f [] hgroup hn
    exact ⟨hnode.1, disjunction_of_node hnode⟩
  · have htext : print style [] (Filter.all [c]) = conditionText style c := by
      simp [Filter.all, print, printAll]
    rw [htext] at hn ⊢
    have hmembers := members_conditions (j := .and) (List.forall_mem_singleton.2 hc)
      (List.forall_mem_singleton.2 hn)
    have hnode := isNode_of_members (by simp) hmembers
    rw [List.map_singleton, List.map_singleton, List.intercalate_singleton] at hnode
    exact ⟨hnode.1, disjunction_of_node hnode⟩

/-- A text that is recognized as a whole is an expression. -/
lemma expression?_of_takes {s : String} (hstarts : Starts s.toList)
    (htakes : Takes Closes (disjunction (s.toList.length + 2)) s.toList t) :
    expression? s = some t := by
  have hnil : Closes [] := nofun
  obtain ⟨ds, hds, hgap⟩ := htakes [] hnil
  rw [List.append_nil] at hds
  have hempty : skipGap ds = [] := hgap
  rw [expression?, whole?, hstarts.skipGap, hds]
  simp only [hempty, List.isEmpty_nil, if_true]

/-- The text of a filter in normal form is an expression. -/
theorem expression?_print {f : Filter} (h : f.IsInfix) :
    expression? (print style [] f) = some (filterTerm style unresolved f) := by
  obtain ⟨hstarts, htakes⟩ := disjunction_print style h (Nat.le_refl _)
  exact expression?_of_takes hstarts htakes

end Grammar

namespace Expression

/-- A text that begins with something else than a blank is not blank. -/
lemma not_allBlank {s : String} (h : Recognizer.Starts s.toList) : Text.allBlank s = false := by
  obtain ⟨c, cs, hcs, hc⟩ := h
  rw [Text.allBlank, hcs, List.all_cons, hc]
  rfl

/-- Every filter in normal form is read from its text, in every style. -/
theorem parse_print (style : Infix.Style) {f : Filter} (h : f.IsInfix) :
    parse (Infix.print style [] f) = .ok f := by
  have hstarts := (Grammar.disjunction_print style h (Nat.le_refl _)).1
  unfold parse parseTerm
  rw [not_allBlank hstarts, if_neg (by decide), Grammar.expression?_print h]
  simp only [Infix.resolve_filterTerm, ok_bind, Infix.toFilter_filterTerm h, mapError_ok]

/-- A range and a part of a date in a conjunction that stands in a disjunction without parentheses,
and a quote in a text. -/
theorem parse_print_bare_conjunction :
    parse "status = 'it\\'s' OR year(created) >= 2020 AND size BETWEEN 1 AND -2"
      = .ok ⟨some .or, [Condition.single "status" (.compare .equals) (.string "it's")],
        [Filter.all [
          (Condition.single "created" (.compare .greaterOrEquals) (.int 2020)).onPart .year,
          Condition.listed "size" .between [.int 1, .int (-2)]]]⟩ := by
  have hstatus : (Condition.single "status" (.compare .equals) (.string "it's")).IsInfix :=
    ⟨⟨_, _, rfl, by decide, by decide⟩, by decide, nofun, ⟨_, rfl, trivial⟩, rfl⟩
  have hcreated : ((Condition.single "created" (.compare .greaterOrEquals)
      (.int 2020)).onPart .year).IsInfix :=
    ⟨⟨_, _, rfl, by decide, by decide⟩, by decide, nofun, ⟨_, rfl, trivial⟩, rfl⟩
  have hsize : (Condition.listed "size" .between [.int 1, .int (-2)]).IsInfix :=
    ⟨⟨_, _, rfl, by decide, by decide⟩, by decide, nofun, rfl, _, _, rfl, trivial, trivial⟩
  have hconditions := List.forall_mem_cons.2 ⟨hcreated, List.forall_mem_singleton.2 hsize⟩
  have hgroup : Filter.IsGroup .and (Filter.all [_, _]) := ⟨rfl, by simp, hconditions, trivial⟩
  have hf : Filter.IsInfix ⟨some .or, [_], [_]⟩ :=
    .inl ⟨.or, rfl, by simp, List.forall_mem_singleton.2 hstatus, hgroup, trivial⟩
  exact (congrArg parse (by decide)).trans (parse_print .canonical hf)

end Expression

end ReadQuery.Input
