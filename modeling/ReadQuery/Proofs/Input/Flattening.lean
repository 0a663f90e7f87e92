import Mathlib.Data.List.Perm.Basic
import ReadQuery.Input.Expression.ToFilter
import ReadQuery.Proofs.Filter.Conjunction
import ReadQuery.Proofs.Truth

/-!
# Flattening of expressions

What becomes of a tree of connectives when it is made a filter. The terms under the connectives that
are no connectives themselves are the leaves of the tree (`leaves`), and each of them becomes one
condition. The tree has a truth value under an assignment to these conditions (`holds`), in which a
connective within the same connective is of no account (`Junction.value_append`).

What a term adds to a node is followed through the tree by an induction on its connectives
(`connective_induction`): the conditions are those of the leaves (`gathers_members`), the groups
alternate with the nodes above them (`alternate_members`), and the truth value stays that of the
term (`value_members`). The main statement, `flattens_toFilter`, says this of the whole filter.
-/

namespace ReadQuery

/-- The truth value of joined members with the given values. -/
def Junction.value : Junction → List Bool → Bool
  | and, bs => bs.all id
  | or, bs => bs.any id

/-- A single member is joined with nothing. -/
lemma Junction.value_singleton (j : Junction) (b : Bool) : j.value [b] = b := by
  cases j <;> simp [value]

/-- Members of a node may be joined among themselves first. -/
lemma Junction.value_append (j : Junction) (as bs : List Bool) :
    j.value (as ++ bs) = j.value [j.value as, j.value bs] := by
  cases j <;> simp [value]

/-- The first member is joined with the value of the others. -/
lemma Junction.value_cons (j : Junction) (b : Bool) (bs : List Bool) :
    j.value (b :: bs) = j.value [b, j.value bs] := by
  cases j <;> simp [value]

/-- The order of the members does not matter. -/
lemma Junction.value_of_perm (j : Junction) {as bs : List Bool} (h : as.Perm bs) :
    j.value as = j.value bs := by
  cases j with
  | and => exact h.all_eq
  | or => exact h.any_eq

namespace Clause

variable {α β : Type}

/-- A group holds as its joined parts do. -/
lemma holds_group (v : α → Bool) (j : Junction) (parts : List (Clause α)) :
    (group j parts).holds v = j.value (parts.map (holds v)) := by
  cases j with
  | and =>
    rw [holds]
    induction parts with
    | nil => rfl
    | cons k ks ih => rw [allHold, ih]; rfl
  | or =>
    rw [holds]
    induction parts with
    | nil => rfl
    | cons k ks ih => rw [anyHolds, ih]; rfl

/-- A clause holds with other leaves as it does with what they are changed into. -/
lemma holds_map (g : α → β) (v : β → Bool) (k : Clause α) :
    (k.map g).holds v = k.holds (v ∘ g) := by
  induction k using parts_induction with
  | leaf a => rfl
  | group j parts ih =>
    rw [map, mapAll_eq, holds_group, holds_group, List.map_map]
    exact congrArg j.value (List.map_congr_left ih)

end Clause

namespace Filter

/-- The truth value under an assignment that does not tell occurrences of a condition apart. -/
lemma value_fst (v : Condition → Bool) (f : Filter) :
    f.value (fun o => v o.1) = (f.tree.map (Clause.holds v)).getD true := by
  rw [value, numbered, Option.map_map]
  cases f.tree with
  | none => rfl
  | some k =>
    have hk := Clause.holds_map Prod.fst v (k.zipIdx 0)
    rw [Clause.map_fst_zipIdx] at hk
    exact hk.symm

/-- The conditions of two lists of filters behind each other. -/
lemma conditionsOfAll_append (fs gs : List Filter) :
    conditionsOfAll (fs ++ gs) = conditionsOfAll fs ++ conditionsOfAll gs := by
  induction fs with
  | nil => rfl
  | cons f fs ih => rw [List.cons_append, conditionsOfAll, conditionsOfAll, ih, List.append_assoc]

/-- The trees of two lists of filters behind each other. -/
lemma treesOfAll_append (fs gs : List Filter) :
    treesOfAll (fs ++ gs) = treesOfAll fs ++ treesOfAll gs := by
  induction fs with
  | nil => rfl
  | cons f fs ih => rw [List.cons_append, treesOfAll, treesOfAll, ih, List.append_assoc]

mutual

/-- Every node has a connective, and not the one of the node above. -/
def Alternates (above : Option Junction) : Filter → Prop
  | ⟨junction, _, groups⟩ =>
    junction ≠ Option.none ∧ junction ≠ above ∧ AllAlternate junction groups

/-- Filters that alternate under a connective. -/
def AllAlternate (above : Option Junction) : List Filter → Prop
  | [] => True
  | f :: fs => Alternates above f ∧ AllAlternate above fs

end

/-- Filters that alternate do so behind each other. -/
lemma allAlternate_append {above : Option Junction} {fs gs : List Filter}
    (hf : AllAlternate above fs) (hg : AllAlternate above gs) : AllAlternate above (fs ++ gs) := by
  induction fs with
  | nil => exact hg
  | cons f fs ih => exact ⟨hf.1, ih hf.2⟩

end Filter

namespace Input.Expression

/-- The connective that a term is a call of. -/
def connective? : Expr → Option Junction
  | .call name _ => junction? name
  | _ => none

mutual

/-- The terms under the connectives of a term that are no connectives themselves. -/
def leaves : Expr → List Expr
  | .call name args =>
    match junction? name with
    | some _ => leavesOfAll args
    | none => [.call name args]
  | e => [e]

/-- The leaves of some terms, from left to right. -/
def leavesOfAll : List Expr → List Expr
  | [] => []
  | e :: es => leaves e ++ leavesOfAll es

end

/-- The truth value of the condition that a leaf becomes. -/
def leafValue (v : Condition → Bool) (e : Expr) : Bool :=
  (condition e).toOption.any v

mutual

/-- The truth value of a term under an assignment to the conditions of its leaves. -/
def holds (v : Condition → Bool) : Expr → Bool
  | .call name args =>
    match junction? name with
    | some j => j.value (valuesOfAll v args)
    | none => leafValue v (.call name args)
  | e => leafValue v e

/-- The truth values of some terms. -/
def valuesOfAll (v : Condition → Bool) : List Expr → List Bool
  | [] => []
  | e :: es => holds v e :: valuesOfAll v es

end

mutual

/-- Every connective has an argument. -/
def HasArguments : Expr → Prop
  | .call name args => (junction? name).isSome = true → args ≠ [] ∧ AllHaveArguments args
  | _ => True

/-- Terms in which every connective has an argument. -/
def AllHaveArguments : List Expr → Prop
  | [] => True
  | e :: es => HasArguments e ∧ AllHaveArguments es

end

variable {name : String} {args es : List Expr} {e : Expr} {j k : Junction} {m ms : Members}

mutual

/-- What holds of all leaves, and of a connective if it holds of its arguments, holds of all
terms. -/
@[elab_as_elim]
theorem connective_induction {motive : Expr → Prop}
    (leaf : ∀ e, connective? e = none → motive e)
    (node : ∀ name args k, junction? name = some k → (∀ a ∈ args, motive a) →
      motive (.call name args)) : ∀ e : Expr, motive e
  | .call name args =>
    match h : junction? name with
    | some k => node name args k h (connective_induction_all leaf node args)
    | none => leaf _ h
  | .field _ => leaf _ rfl
  | .select _ => leaf _ rfl
  | .literal _ => leaf _ rfl

/-- Induction on the arguments of connectives, for the terms of a list. -/
theorem connective_induction_all {motive : Expr → Prop}
    (leaf : ∀ e, connective? e = none → motive e)
    (node : ∀ name args k, junction? name = some k → (∀ a ∈ args, motive a) →
      motive (.call name args)) : ∀ es : List Expr, ∀ e ∈ es, motive e
  | [], _, h => absurd h List.not_mem_nil
  | e :: es, _, h =>
    (List.mem_cons.1 h).elim (fun h => h ▸ connective_induction leaf node e)
      (connective_induction_all leaf node es _)

end

/-- A term that is no connective is its own leaf. -/
lemma leaves_of_leaf (h : connective? e = none) : leaves e = [e] := by
  cases e with
  | call name args =>
    have hname : junction? name = none := h
    rw [leaves, hname]
  | field name => rfl
  | select path => rfl
  | literal v => rfl

/-- The leaves of a connective are those of its arguments. -/
lemma leaves_call (h : junction? name = some k) : leaves (.call name args) = leavesOfAll args := by
  rw [leaves, h]

/-- A leaf holds as its condition does. -/
lemma holds_of_leaf (v : Condition → Bool) (h : connective? e = none) :
    holds v e = leafValue v e := by
  cases e with
  | call name args =>
    have hname : junction? name = none := h
    rw [holds, hname]
  | field name => rfl
  | select path => rfl
  | literal v => rfl

/-- A connective holds as its joined arguments do. -/
lemma holds_call (v : Condition → Bool) (h : junction? name = some k) :
    holds v (.call name args) = k.value (valuesOfAll v args) := by
  rw [holds, h]

namespace Members

/-- The node with the given members. -/
def node (m : Members) (j : Junction) : Filter :=
  ⟨some j, m.conditions, m.groups⟩

/-- What a node adds to the node above: its members if the connective is the same, or else
itself. -/
def within (m : Members) (above j : Junction) : Members :=
  if j = above then m else ⟨[], [m.node j]⟩

/-- Members are merged into a node of their own connective. -/
lemma within_self (m : Members) (j : Junction) : m.within j j = m :=
  if_pos rfl

/-- The trees of the members. -/
def parts (m : Members) : List (Clause Condition) :=
  m.conditions.map .leaf ++ Filter.treesOfAll m.groups

/-- The conditions of the members and of the groups among them. -/
def allConditions (m : Members) : List Condition :=
  m.conditions ++ Filter.conditionsOfAll m.groups

/-- The conditions of merged members, in some order. -/
lemma allConditions_append (m ms : Members) :
    (m.append ms).allConditions.Perm (m.allConditions ++ ms.allConditions) := by
  unfold allConditions append
  rw [Filter.conditionsOfAll_append, List.append_assoc, List.append_assoc]
  apply List.Perm.append_left
  exact List.perm_append_comm_assoc _ _ _

/-- A node keeps the conditions that are put into it. -/
lemma allConditions_within (m : Members) (j k : Junction) :
    (m.within j k).allConditions = m.allConditions := by
  unfold within
  split
  · rfl
  · simp [allConditions, node, Filter.conditionsOfAll, Filter.allConditions]

/-- The trees of merged members, in some order. -/
lemma parts_append (m ms : Members) : (m.append ms).parts.Perm (m.parts ++ ms.parts) := by
  unfold parts append
  rw [List.map_append, Filter.treesOfAll_append, List.append_assoc, List.append_assoc]
  apply List.Perm.append_left
  exact List.perm_append_comm_assoc _ _ _

/-- A node with members has a tree. -/
lemma tree_node (h : m.parts ≠ []) (j : Junction) : (m.node j).tree = some (.group j m.parts) :=
  Clause.join?_eq_some_iff.2 ⟨h, rfl⟩

end Members

/-- A leaf has its condition as the only member. -/
lemma members_of_leaf (j : Junction) (h : connective? e = none) :
    members j e = (condition e).map fun c => ⟨[c], []⟩ := by
  cases e with
  | call name args =>
    have hname : junction? name = none := h
    rw [members, hname]
    rfl
  | field name => rfl
  | select path => rfl
  | literal v => rfl

/-- A connective brings its members into the node above. -/
lemma members_call (j : Junction) (h : junction? name = some k) :
    members j (.call name args) = (membersOfAll k args).map (Members.within · j k) := by
  rw [members, h]
  simp only [Members.within]
  split
  · next hkj =>
    rw [hkj]
    cases membersOfAll j args <;> rfl
  · rfl

/-- The filter of a term is the node of what the term adds to it. -/
lemma exists_toFilter_eq (e : Expr) : ∃ j, toFilter e = (members j e).map (Members.node · j) := by
  cases h : connective? e with
  | none =>
    refine ⟨.and, ?_⟩
    rw [members_of_leaf .and h]
    cases e with
    | call name args =>
      have hname : junction? name = none := h
      rw [toFilter, hname]
      show (callCondition name args).map _ = _
      rw [condition]
      cases callCondition name args <;> rfl
    | field name => rfl
    | select path => rfl
    | literal v => rfl
  | some j =>
    refine ⟨j, ?_⟩
    cases e with
    | call name args =>
      have hname : junction? name = some j := h
      rw [toFilter, hname, members_call j hname]
      show (membersOfAll j args).map _ = _
      cases membersOfAll j args with
      | error err => rfl
      | ok m =>
        show Except.ok (m.node j) = Except.ok ((m.within j j).node j)
        rw [Members.within_self]
    | field name => cases h
    | select path => cases h
    | literal v => cases h

/-- The members of the first argument come in front of those of the others. -/
lemma membersOfAll_cons (j : Junction) (e : Expr) (es : List Expr) :
    membersOfAll j (e :: es) = members j e >>= fun m => (membersOfAll j es).map m.append := by
  rw [membersOfAll]
  cases members j e <;> rfl

/-- What holds of the members that leaves and nodes add holds of what a term adds. -/
theorem members_induction {P : Junction → Expr → Members → Prop}
    {Q : Junction → List Expr → Members → Prop}
    (leaf : ∀ j e c, connective? e = none → condition e = .ok c → P j e ⟨[c], []⟩)
    (node : ∀ j k name args m, junction? name = some k → Q k args m →
      P j (.call name args) (m.within j k))
    (nil : ∀ j, Q j [] ⟨[], []⟩)
    (cons : ∀ j e es m ms, P j e m → Q j es ms → Q j (e :: es) (m.append ms)) (e : Expr) :
    ∀ j m, members j e = .ok m → P j e m := by
  induction e using connective_induction with
  | leaf e h =>
    intro j m hm
    rw [members_of_leaf j h] at hm
    obtain ⟨c, hc, rfl⟩ := map_eq_ok.1 hm
    exact leaf j e c h hc
  | node name args k h ih =>
    intro j m hm
    rw [members_call j h] at hm
    obtain ⟨m, hargs, rfl⟩ := map_eq_ok.1 hm
    apply node j k name args m h
    clear h hm
    induction args generalizing m with
    | nil =>
      cases hargs
      exact nil k
    | cons a args ihargs =>
      rw [membersOfAll_cons] at hargs
      obtain ⟨m₁, hm₁, hmap⟩ := bind_eq_ok.1 hargs
      obtain ⟨ms, hms, rfl⟩ := map_eq_ok.1 hmap
      rw [List.forall_mem_cons] at ih
      apply cons k a args m₁ ms
      · exact ih.1 k m₁ hm₁
      · exact ihargs ih.2 ms hms

/-- Members and conditions are found or missing for the same reason, and the members have these
conditions in some order. -/
def Gathers : Except Unsupported Members → Except Unsupported (List Condition) → Prop
  | .ok m, .ok cs => m.allConditions.Perm cs
  | .error err, .error err' => err = err'
  | .ok _, .error _ | .error _, .ok _ => False

/-- What is gathered is put into a node without loss. -/
lemma Gathers.within {x : Except Unsupported Members} {y : Except Unsupported (List Condition)}
    (h : Gathers x y) (j k : Junction) : Gathers (x.map (Members.within · j k)) y := by
  cases x with
  | error err => exact h
  | ok m =>
    cases y with
    | error err => exact h
    | ok cs =>
      show ((m.within j k).allConditions).Perm cs
      rw [Members.allConditions_within]
      exact h

/-- What is gathered from two sides is merged without loss, and the first failure counts on both. -/
lemma Gathers.append {x xs : Except Unsupported Members}
    {y ys : Except Unsupported (List Condition)} (h : Gathers x y) (hs : Gathers xs ys) :
    Gathers (x >>= fun m => xs.map m.append)
      (y >>= fun cs => ys >>= fun ds => pure (cs ++ ds)) := by
  match x, y, h with
  | .error err, .error err', h => exact h
  | .ok m, .ok cs, h =>
    match xs, ys, hs with
    | .error err, .error err', hs => exact hs
    | .ok ms, .ok ds, hs => exact (Members.allConditions_append m ms).trans (List.Perm.append h hs)

/-- The arguments of a connective are gathered together if they are gathered one by one. -/
lemma gathers_membersOfAll (j : Junction)
    (h : ∀ e ∈ es, Gathers (members j e) ((leaves e).mapM condition)) :
    Gathers (membersOfAll j es) ((leavesOfAll es).mapM condition) := by
  induction es with
  | nil => exact .refl []
  | cons e es ih =>
    rw [List.forall_mem_cons] at h
    rw [membersOfAll_cons, leavesOfAll, List.mapM_append]
    exact h.1.append (ih h.2)

/-- What a term adds to a node has the conditions of the leaves, or the first leaf that is no
condition tells why there is none. -/
theorem gathers_members (e : Expr) : ∀ j, Gathers (members j e) ((leaves e).mapM condition) := by
  induction e using connective_induction with
  | leaf e h =>
    intro j
    rw [members_of_leaf j h, leaves_of_leaf h, List.mapM_cons, List.mapM_nil]
    cases condition e with
    | error err => exact rfl
    | ok c => exact .refl [c]
  | node name args k h ih =>
    intro j
    rw [members_call j h, leaves_call h]
    apply Gathers.within
    exact gathers_membersOfAll k fun a ha => ih a ha k

/-- The groups that a term adds to a node alternate with it. -/
theorem alternate_members (e : Expr) :
    ∀ j m, members j e = .ok m → Filter.AllAlternate (some j) m.groups := by
  refine members_induction (P := fun j _ m => Filter.AllAlternate (some j) m.groups)
    (Q := fun j _ m => Filter.AllAlternate (some j) m.groups) ?_ ?_ ?_ ?_ e
  · intro j e c _ _
    trivial
  · intro j k name args m _ hm
    unfold Members.within
    split
    · next hkj => exact hkj ▸ hm
    · next hkj => exact ⟨⟨nofun, fun h => hkj (Option.some.inj h), hm⟩, trivial⟩
  · intro j
    trivial
  · intro j e es m ms hm hms
    exact Filter.allAlternate_append hm hms

/-- What a term adds to a node has the truth value of the term. -/
theorem value_members (v : Condition → Bool) (e : Expr) :
    ∀ j m, members j e = .ok m → HasArguments e →
      m.parts ≠ [] ∧ j.value (m.parts.map (Clause.holds v)) = holds v e := by
  refine members_induction
    (P := fun j e m => HasArguments e →
      m.parts ≠ [] ∧ j.value (m.parts.map (Clause.holds v)) = holds v e)
    (Q := fun j es m => AllHaveArguments es → (es ≠ [] → m.parts ≠ []) ∧
      j.value (m.parts.map (Clause.holds v)) = j.value (valuesOfAll v es)) ?_ ?_ ?_ ?_ e
  · intro j e c he hc _
    refine ⟨List.cons_ne_nil _ _, ?_⟩
    rw [holds_of_leaf v he, leafValue, hc]
    exact j.value_singleton (v c)
  · intro j k name args m hname hm harguments
    rw [HasArguments] at harguments
    obtain ⟨hne, hall⟩ := harguments (by rw [hname]; rfl)
    obtain ⟨hparts, hvalue⟩ := hm hall
    rw [holds_call v hname, ← hvalue]
    unfold Members.within
    split
    · next hkj => exact ⟨hparts hne, by rw [hkj]⟩
    · have hnode : (⟨[], [m.node k]⟩ : Members).parts = [.group k m.parts] := by
        simp [Members.parts, Filter.treesOfAll, Members.tree_node (hparts hne)]
      rw [hnode]
      refine ⟨List.cons_ne_nil _ _, ?_⟩
      rw [List.map_singleton, j.value_singleton, Clause.holds_group]
  · intro j _
    exact ⟨fun h => absurd rfl h, rfl⟩
  · intro j e es m ms hm hms harguments
    obtain ⟨hne, hvalue⟩ := hm harguments.1
    have hvalues := (hms harguments.2).2
    have hperm := Members.parts_append m ms
    constructor
    · intro _ hnil
      rw [hnil] at hperm
      exact hne (List.append_eq_nil_iff.1 hperm.symm.eq_nil).1
    · rw [j.value_of_perm (hperm.map _), List.map_append, j.value_append, hvalue, hvalues,
        valuesOfAll]
      exact (j.value_cons _ _).symm

/-- A tree of connectives fails to be a filter exactly if one of its leaves fails to be a condition,
for the reason of the first one that does. Otherwise the filter has the conditions of the leaves,
each of them once; its groups have connectives other than those above them; and if every connective
of the tree has an argument, the filter has the truth value of the tree under all assignments to the
conditions. -/
theorem flattens_toFilter (e : Expr) :
    ((∃ err, toFilter e = .error err) ↔ ∃ l ∈ leaves e, ∃ err, condition l = .error err) ∧
      (∀ err, toFilter e = .error err ↔ (leaves e).mapM condition = .error err) ∧
      ∀ f, toFilter e = .ok f →
        (∃ cs, (leaves e).mapM condition = .ok cs ∧ f.allConditions.Perm cs) ∧
        f.Alternates none ∧
        (HasArguments e → ∀ v : Condition → Bool, f.value (fun o => v o.1) = holds v e) := by
  obtain ⟨j, hj⟩ := exists_toFilter_eq e
  have hgathers := gathers_members e j
  have halternate := alternate_members e j
  have hvalue := fun v => value_members v e j
  have hfailure : ∀ err, toFilter e = .error err ↔ (leaves e).mapM condition = .error err := by
    intro err
    rw [hj]
    match members j e, (leaves e).mapM condition, hgathers with
    | .error err₁, .error err₂, h =>
      obtain rfl : err₁ = err₂ := h
      exact ⟨fun h => by cases h; rfl, fun h => by cases h; rfl⟩
    | .ok m, .ok cs, _ => exact ⟨nofun, nofun⟩
  refine ⟨?_, hfailure, ?_⟩
  · rw [exists_congr hfailure]
    exact exists_mapM_eq_error_iff
  · intro f hf
    rw [hj] at hf
    obtain ⟨m, hm, rfl⟩ := map_eq_ok.1 hf
    rw [hm] at hgathers
    refine ⟨?_, ?_, ?_⟩
    · match (leaves e).mapM condition, hgathers with
      | .ok cs, h => exact ⟨cs, rfl, h⟩
    · exact ⟨nofun, nofun, halternate m hm⟩
    · intro harguments v
      obtain ⟨hparts, hparts_value⟩ := hvalue v m hm harguments
      rw [Filter.value_fst, Members.tree_node hparts, ← hparts_value]
      exact Clause.holds_group v j m.parts

/-- A disjunction of a condition, a conjunction of one condition, and a disjunction in which a
conjunction has another disjunction. -/
def nestedTree : Expr :=
  .call "OR" [.call "eq" [.field "a", .literal (.int 1)],
    .call "&&" [.call "isnull" [.field "b"]],
    .call "or" [
      .call "and" [.call "||" [.call ">" [.field "c", .literal (.int 2)],
        .call "eq" [.field "a", .literal (.int 1)]],
        .call "in" [.select ["d", "e"], .literal (.int 3), .literal (.int 4)]],
      .call "isnotnull" [.field "f"]]]

/-- The filter that the nested tree becomes. -/
def nestedFilter : Filter :=
  ⟨some .or, [.single "a" (.compare .equals) (.int 1), .nullary "f" (.nullness true)],
    [.all [.nullary "b" (.nullness false)],
      ⟨some .and, [(Condition.listed "d" (.among false) [.int 3, .int 4]).atPath "e"],
        [.any [.single "c" (.compare .greater) (.int 2),
          .single "a" (.compare .equals) (.int 1)]]⟩]⟩

/-- The nested tree becomes a filter with its six conditions, in which conditions come before
groups, and with its truth value. -/
theorem flattens_toFilter_nestedTree :
    toFilter nestedTree = .ok nestedFilter ∧ HasArguments nestedTree ∧
      (∃ cs, (leaves nestedTree).mapM condition = .ok cs ∧
        nestedFilter.allConditions.Perm cs) ∧ nestedFilter.Alternates none ∧
      ∀ v : Condition → Bool, nestedFilter.value (fun o => v o.1) = holds v nestedTree := by
  have hfilter : toFilter nestedTree = .ok nestedFilter := by rfl
  have harguments : HasArguments nestedTree := by
    simp [nestedTree, HasArguments, AllHaveArguments]
  obtain ⟨-, -, hok⟩ := flattens_toFilter nestedTree
  obtain ⟨hconditions, halternates, hvalue⟩ := hok nestedFilter hfilter
  exact ⟨hfilter, harguments, hconditions, halternates, hvalue harguments⟩

end Input.Expression

end ReadQuery
