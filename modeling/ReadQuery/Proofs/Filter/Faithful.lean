import Mathlib.Data.List.Pairwise
import ReadQuery.Proofs.Filter.Clause

/-!
# Leaving out what is vacuously true

When a clause keeps its truth value if the leaves that are constantly true are left out, together
with the groups that this leaves empty. In a conjunction it does, but in a disjunction what is left
out made it true. Which clauses keep their value under all assignments is decided by recursion
(`faithful`) from two assignments only: the one to which all leaves hold that can, and the one to
which no leaf holds that need not.

The main statement is `faithful_iff`, for clauses whose leaves are all different. Leaving out only
ever makes a clause false (`holds_of_emitted`), for what is left of a clause fails if no leaf holds
(`holds_worst_of_left`); and assignments to different parts of a clause are put together (`splice`).
-/

namespace ReadQuery.Clause

variable {α : Type} (constant : α → Option Bool)

/-- The assignment that respects the constants. -/
def assigned (v : α → Bool) (a : α) : Bool :=
  (constant a).getD (v a)

/-- What is left of a clause without the leaves that are constantly true. -/
def left : Clause α → Option (Clause α) :=
  prune (Option.guard fun a => constant a != some true)

/-- What is left of some clauses without the leaves that are constantly true. -/
def leftOfAll : List (Clause α) → List (Clause α) :=
  pruneAll (Option.guard fun a => constant a != some true)

/-- The truth value of what is left of a clause; where nothing is, it is true. -/
def emitted (v : α → Bool) (k : Clause α) : Bool :=
  ((left constant k).map (holds v)).getD true

mutual

/-- Whether leaving out what is constantly true keeps the truth value. A conjunction keeps it if it
never holds or all its parts keep theirs; a disjunction that always holds keeps it if nothing is
left, any other one if all its parts keep theirs. -/
def faithful : Clause α → Bool
  | leaf _ => true
  | group .and parts =>
    !allHold (assigned constant fun _ => true) parts || allFaithful parts
  | group .or parts =>
    if anyHolds (assigned constant fun _ => false) parts then (leftOfAll constant parts).isEmpty
    else allFaithful parts

/-- Whether leaving out what is constantly true keeps the truth values of some clauses. -/
def allFaithful : List (Clause α) → Bool
  | [] => true
  | k :: ks => faithful k && allFaithful ks

end

/-- Some clauses keep their truth values if each of them does. -/
lemma allFaithful_iff {ks : List (Clause α)} :
    allFaithful constant ks = true ↔ ∀ k ∈ ks, k.faithful constant = true := by
  induction ks with
  | nil => simp [allFaithful]
  | cons k ks ih => simp [allFaithful, ih]

variable {constant} {v w : α → Bool}

/-- The leaves of a part are among those of the group. -/
lemma leaves_subset {k : Clause α} {parts : List (Clause α)} (hk : k ∈ parts) :
    ∀ a ∈ k.leaves, a ∈ leavesOfAll parts := by
  intro a ha
  rw [leavesOfAll_eq]
  exact List.mem_flatMap.2 ⟨k, hk, ha⟩

/-- A truth value depends on the leaves only. -/
lemma holds_congr {k : Clause α} (h : ∀ a ∈ k.leaves, v a = w a) : k.holds v = k.holds w := by
  induction k using parts_induction with
  | leaf a => exact h a (by simp [leaves])
  | group j parts ih =>
    have hparts : ∀ k ∈ parts, k.holds v = k.holds w :=
      fun k hk => ih k hk fun a ha => h a (leaves_subset hk a ha)
    cases j with
    | and =>
      rw [holds, holds, Bool.eq_iff_iff, allHold_iff, allHold_iff]
      exact forall₂_congr fun k hk => by rw [hparts k hk]
    | or =>
      rw [holds, holds, Bool.eq_iff_iff, anyHolds_iff, anyHolds_iff]
      exact exists_congr fun k => and_congr_right fun hk => by rw [hparts k hk]

/-- Clauses are monotone: what holds goes on to hold if more leaves do. -/
lemma holds_mono (h : ∀ a, v a = true → w a = true) {k : Clause α} (hk : k.holds v = true) :
    k.holds w = true := by
  induction k using parts_induction with
  | leaf a => exact h a hk
  | group j parts ih =>
    cases j with
    | and =>
      rw [holds, allHold_iff] at hk ⊢
      exact fun k hmem => ih k hmem (hk k hmem)
    | or =>
      rw [holds, anyHolds_iff] at hk ⊢
      obtain ⟨k, hmem, hk⟩ := hk
      exact ⟨k, hmem, ih k hmem hk⟩

/-- Respecting the constants keeps the order of assignments. -/
lemma assigned_mono (h : ∀ a, v a = true → w a = true) :
    ∀ a, assigned constant v a = true → assigned constant w a = true := by
  intro a ha
  unfold assigned at ha ⊢
  cases hc : constant a with
  | none =>
    rw [hc] at ha
    exact h a ha
  | some b =>
    rw [hc] at ha
    exact ha

/-- What holds under some assignment holds if all other leaves are true. -/
lemma holds_best {k : Clause α} (h : k.holds (assigned constant v) = true) :
    k.holds (assigned constant fun _ => true) = true :=
  holds_mono (assigned_mono fun _ _ => rfl) h

/-- What holds if all other leaves are false holds under every assignment. -/
lemma holds_of_worst {k : Clause α} (h : k.holds (assigned constant fun _ => false) = true) :
    k.holds (assigned constant v) = true :=
  holds_mono (assigned_mono fun _ hfalse => absurd hfalse Bool.false_ne_true) h

/-- Respecting the constants keeps assignments that agree on the leaves. -/
lemma assigned_congr {k : Clause α} (h : ∀ a ∈ k.leaves, v a = w a) :
    ∀ a ∈ k.leaves, assigned constant v a = assigned constant w a := by
  intro a ha
  rw [assigned, assigned, h a ha]

/-- The first assignment to some leaves and the second one to the others. -/
def splice [DecidableEq α] (as : List α) (v w : α → Bool) (a : α) : Bool :=
  if a ∈ as then v a else w a

/-- On the first leaves, the first assignment counts. -/
lemma splice_of_mem [DecidableEq α] {as : List α} : ∀ a ∈ as, splice as v w a = v a :=
  fun _ ha => if_pos ha

/-- On other leaves, the second assignment counts. -/
lemma splice_of_disjoint [DecidableEq α] {as bs : List α} (h : List.Disjoint as bs) :
    ∀ b ∈ bs, splice as v w b = w b :=
  fun _ hb => if_neg fun ha => h ha hb

/-- Different parts of a group have different leaves. -/
lemma eq_or_disjoint {parts : List (Clause α)} (h : (leavesOfAll parts).Nodup) {k k' : Clause α}
    (hk : k ∈ parts) (hk' : k' ∈ parts) : k = k' ∨ List.Disjoint k.leaves k'.leaves := by
  rw [leavesOfAll_eq, List.nodup_flatMap] at h
  by_cases heq : k = k'
  · exact .inl heq
  · have hsymm : Std.Symm (Function.onFun List.Disjoint leaves : Clause α → Clause α → Prop) :=
      ⟨fun _ _ h _ hb ha => h ha hb⟩
    exact .inr (h.2.forall hk hk' heq)

/-- What is emitted is true if nothing is left or what is left holds. -/
lemma emitted_eq_true_iff {k : Clause α} :
    emitted constant v k = true ↔ ∀ k', left constant k = some k' → k'.holds v = true := by
  rw [emitted]
  cases left constant k <;> simp

/-- What is emitted depends on the leaves only. -/
lemma emitted_congr {k : Clause α} (h : ∀ a ∈ k.leaves, v a = w a) :
    emitted constant v k = emitted constant w k := by
  rw [emitted, emitted]
  cases hl : left constant k with
  | none => rfl
  | some k' =>
    have hleaves := leaves_prune (Option.guard fun a => constant a != some true) k
    rw [show prune _ k = some k' from hl] at hleaves
    have hk : k'.holds v = k'.holds w := by
      refine holds_congr fun a ha => h a ?_
      have ha' : a ∈ k.leaves.filterMap (Option.guard fun a => constant a != some true) := by
        rw [← hleaves]
        exact ha
      rw [List.filterMap_eq_filter] at ha'
      exact (List.mem_filter.1 ha').1
    simp [hk]

/-- What is emitted of a conjunction is what is emitted of its parts. -/
lemma emitted_and {parts : List (Clause α)} :
    emitted constant v (group .and parts) = true ↔
      ∀ k ∈ parts, emitted constant v k = true := by
  have h : emitted constant v (group .and parts) = allHold v (leftOfAll constant parts) := by
    rw [emitted, left, prune, leftOfAll]
    cases pruneAll (Option.guard fun a => constant a != some true) parts <;> rfl
  rw [h, allHold_iff]
  constructor
  · intro hall k hk
    rw [emitted_eq_true_iff]
    intro k' hk'
    exact hall k' (mem_pruneAll.2 ⟨k, hk, hk'⟩)
  · intro hall k' hk'
    obtain ⟨k, hk, hl⟩ := mem_pruneAll.1 hk'
    exact emitted_eq_true_iff.1 (hall k hk) k' hl

/-- What is emitted of a disjunction is what is left of one of its parts, if there is any. -/
lemma emitted_or {parts : List (Clause α)} (h : leftOfAll constant parts ≠ []) :
    emitted constant v (group .or parts) = true ↔
      ∃ k ∈ parts, ∃ k', left constant k = some k' ∧ k'.holds v = true := by
  have he : emitted constant v (group .or parts) = anyHolds v (leftOfAll constant parts) := by
    rw [emitted, left, prune]
    unfold leftOfAll at h ⊢
    cases hp : pruneAll (Option.guard fun a => constant a != some true) parts with
    | nil => exact absurd hp h
    | cons k ks => rfl
  rw [he, anyHolds_iff]
  constructor
  · rintro ⟨k', hk', hv⟩
    obtain ⟨k, hk, hl⟩ := mem_pruneAll.1 hk'
    exact ⟨k, hk, k', hl, hv⟩
  · rintro ⟨k, hk, k', hl, hv⟩
    exact ⟨k', mem_pruneAll.2 ⟨k, hk, hl⟩, hv⟩

/-- A disjunction of which nothing is left emits nothing, which is true. -/
lemma emitted_or_nil {parts : List (Clause α)} (h : leftOfAll constant parts = []) :
    emitted constant v (group .or parts) = true := by
  rw [emitted, left, prune, show pruneAll _ parts = [] from h]
  rfl

/-- Leaving out what is constantly true makes no clause true. -/
lemma holds_of_emitted {k : Clause α} (hf : k.Full)
    (h : emitted constant (assigned constant v) k = true) :
    k.holds (assigned constant v) = true := by
  induction k using parts_induction with
  | leaf a =>
    -- of a leaf that is constantly true nothing is left, and so nothing has to be shown of it
    rw [emitted, left, prune] at h
    cases hc : constant a with
    | none => simpa [Option.guard, hc, holds] using h
    | some b =>
      cases b with
      | true => simp [holds, assigned, hc]
      | false => simpa [Option.guard, hc, holds] using h
  | group j parts ih =>
    have hparts : ∀ k ∈ parts, emitted constant (assigned constant v) k = true →
        k.holds (assigned constant v) = true :=
      fun k hk => ih k hk (allFull_iff.1 hf.2 k hk)
    cases j with
    | and =>
      rw [holds, allHold_iff]
      exact fun k hk => hparts k hk (emitted_and.1 h k hk)
    | or =>
      rw [holds, anyHolds_iff]
      by_cases hl : leftOfAll constant parts = []
      · -- nothing is left of the first part, which is therefore constantly true
        obtain ⟨k, hk⟩ := List.exists_mem_of_ne_nil parts hf.1
        refine ⟨k, hk, hparts k hk (emitted_eq_true_iff.2 fun k' hk' => ?_)⟩
        have hmem : k' ∈ leftOfAll constant parts := mem_pruneAll.2 ⟨k, hk, hk'⟩
        rw [hl] at hmem
        cases hmem
      · obtain ⟨k, hk, k', hk', hv⟩ := (emitted_or hl).1 h
        refine ⟨k, hk, hparts k hk ?_⟩
        rw [emitted, hk']
        exact hv

/-- A full clause does not hold without a true leaf. -/
lemma holds_eq_false {k : Clause α} (hf : k.Full) (h : ∀ a ∈ k.leaves, v a = false) :
    k.holds v = false := by
  induction k using parts_induction with
  | leaf a => exact h a (by simp [leaves])
  | group j parts ih =>
    have hparts : ∀ k ∈ parts, k.holds v = false :=
      fun k hk => ih k hk (allFull_iff.1 hf.2 k hk) fun a ha => h a (leaves_subset hk a ha)
    cases j with
    | and =>
      obtain ⟨k, hk⟩ := List.exists_mem_of_ne_nil parts hf.1
      rw [holds, Bool.eq_false_iff]
      intro hall
      have htrue := allHold_iff.1 hall k hk
      rw [hparts k hk] at htrue
      cases htrue
    | or =>
      rw [holds, Bool.eq_false_iff]
      intro hany
      obtain ⟨k, hk, htrue⟩ := anyHolds_iff.1 hany
      rw [hparts k hk] at htrue
      cases htrue

/-- What is left of a clause fails under the assignment to which no leaf holds that need not. -/
lemma holds_worst_of_left {k k' : Clause α} (h : left constant k = some k') :
    k'.holds (assigned constant fun _ => false) = false := by
  refine holds_eq_false (full_of_prune h) fun a ha => ?_
  have hleaves := leaves_prune (Option.guard fun a => constant a != some true) k
  rw [show prune _ k = some k' from h] at hleaves
  have ha' : a ∈ k.leaves.filterMap (Option.guard fun a => constant a != some true) := by
    rw [← hleaves]
    exact ha
  rw [List.filterMap_eq_filter, List.mem_filter] at ha'
  cases hc : constant a with
  | none => simp [assigned, hc]
  | some b =>
    cases b with
    | false => simp [assigned, hc]
    | true => simp [hc] at ha'

/-- Something is left of a disjunction that fails where no leaf holds that need not. -/
lemma leftOfAll_ne_nil {parts : List (Clause α)} (hf : (group .or parts).Full)
    (h : anyHolds (assigned constant fun _ => false) parts ≠ true) :
    leftOfAll constant parts ≠ [] := by
  intro hnil
  have hholds := holds_of_emitted (v := fun _ => false) hf (emitted_or_nil hnil)
  rw [holds] at hholds
  exact h hholds

/-- Something is left of each part of a disjunction that does not always hold. -/
lemma exists_left {parts : List (Clause α)} (hf : (group .or parts).Full)
    (h : anyHolds (assigned constant fun _ => false) parts ≠ true) {k : Clause α}
    (hk : k ∈ parts) : ∃ k', left constant k = some k' := by
  refine Option.ne_none_iff_exists'.1 fun hl => h (anyHolds_iff.2 ⟨k, hk, ?_⟩)
  refine holds_of_emitted (allFull_iff.1 hf.2 k hk) ?_
  rw [emitted, hl]
  rfl

/-- What is left of a conjunction has its value if the conjunction never holds, or if what is left
of the parts has theirs. -/
lemma faithful_and [DecidableEq α] {parts : List (Clause α)} (hf : (group .and parts).Full)
    (hn : (leavesOfAll parts).Nodup) :
    (∀ v, emitted constant (assigned constant v) (group .and parts)
        = (group .and parts).holds (assigned constant v)) ↔
      allHold (assigned constant fun _ => true) parts = false ∨
        ∀ k ∈ parts, ∀ v, emitted constant (assigned constant v) k
          = k.holds (assigned constant v) := by
  constructor
  · intro heq
    refine or_iff_not_imp_left.2 fun hnever k hk v => ?_
    rw [Bool.not_eq_false, allHold_iff] at hnever
    refine Bool.eq_iff_iff.2 ⟨holds_of_emitted (allFull_iff.1 hf.2 k hk), fun hv => ?_⟩
    -- the other parts are made true, so that the conjunction has the value of this one
    have hself : ∀ a ∈ k.leaves, assigned constant (splice k.leaves v fun _ => true) a
        = assigned constant v a := assigned_congr splice_of_mem
    have hall : (group .and parts).holds
        (assigned constant (splice k.leaves v fun _ => true)) = true := by
      rw [holds, allHold_iff]
      intro k' hk'
      rcases eq_or_disjoint hn hk hk' with rfl | hd
      · rw [holds_congr hself, hv]
      · rw [holds_congr (assigned_congr (splice_of_disjoint hd)), hnever k' hk']
    rw [← emitted_congr hself]
    exact emitted_and.1 ((heq _).trans hall) k hk
  · rintro (hnever | hparts) v
    · have hfalse : (group .and parts).holds (assigned constant v) ≠ true := by
        intro hv
        have htrue := holds_best hv
        rw [holds, hnever] at htrue
        cases htrue
      rw [Bool.eq_false_iff.2 hfalse, Bool.eq_false_iff]
      exact fun he => hfalse (holds_of_emitted hf he)
    · rw [Bool.eq_iff_iff, emitted_and, holds, allHold_iff]
      exact forall₂_congr fun k hk => by rw [hparts k hk v]

/-- What is left of a disjunction that always holds has its value if it is nothing. -/
lemma faithful_or_always {parts : List (Clause α)}
    (h : anyHolds (assigned constant fun _ => false) parts = true) :
    (∀ v, emitted constant (assigned constant v) (group .or parts)
        = (group .or parts).holds (assigned constant v)) ↔ leftOfAll constant parts = [] := by
  constructor
  · intro heq
    by_contra hl
    have he := heq fun _ => false
    rw [holds, h] at he
    obtain ⟨k, hk, k', hk', hv⟩ := (emitted_or hl).1 he
    rw [holds_worst_of_left hk'] at hv
    cases hv
  · intro hl v
    rw [emitted_or_nil hl]
    refine (holds_of_worst ?_).symm
    rw [holds, h]

/-- What is left of a disjunction that does not always hold has its value if what is left of the
parts has theirs. -/
lemma faithful_or [DecidableEq α] {parts : List (Clause α)} (hf : (group .or parts).Full)
    (hn : (leavesOfAll parts).Nodup)
    (h : anyHolds (assigned constant fun _ => false) parts ≠ true) :
    (∀ v, emitted constant (assigned constant v) (group .or parts)
        = (group .or parts).holds (assigned constant v)) ↔
      ∀ k ∈ parts, ∀ v, emitted constant (assigned constant v) k
        = k.holds (assigned constant v) := by
  have hor : ∀ v, emitted constant (assigned constant v) (group .or parts) = true ↔
      ∃ k ∈ parts, emitted constant (assigned constant v) k = true := by
    intro v
    rw [emitted_or (leftOfAll_ne_nil hf h)]
    refine exists_congr fun k => and_congr_right fun hk => ?_
    obtain ⟨k', hk'⟩ := exists_left hf h hk
    simp [emitted, hk']
  constructor
  · intro heq k hk v
    refine Bool.eq_iff_iff.2 ⟨holds_of_emitted (allFull_iff.1 hf.2 k hk), fun hv => ?_⟩
    -- the other parts are made false, so that the disjunction has the value of this one
    have hself : ∀ a ∈ k.leaves, assigned constant (splice k.leaves v fun _ => false) a
        = assigned constant v a := assigned_congr splice_of_mem
    have hany : (group .or parts).holds
        (assigned constant (splice k.leaves v fun _ => false)) = true := by
      rw [holds, anyHolds_iff]
      exact ⟨k, hk, by rw [holds_congr hself, hv]⟩
    obtain ⟨k', hk', he⟩ := (hor _).1 ((heq _).trans hany)
    rcases eq_or_disjoint hn hk hk' with rfl | hd
    · rwa [emitted_congr hself] at he
    · rw [emitted_congr (assigned_congr (splice_of_disjoint hd))] at he
      have hworst := holds_of_emitted (allFull_iff.1 hf.2 k' hk') he
      exact absurd (anyHolds_iff.2 ⟨k', hk', hworst⟩) h
  · intro hparts v
    rw [Bool.eq_iff_iff, hor, holds, anyHolds_iff]
    exact exists_congr fun k => and_congr_right fun hk => by rw [hparts k hk v]

/-- The clauses that keep their value, under all assignments, if what is constantly true is left
out. -/
theorem faithful_iff [DecidableEq α] {k : Clause α} (hf : k.Full) (hn : k.leaves.Nodup) :
    k.faithful constant = true ↔
      ∀ v, emitted constant (assigned constant v) k = k.holds (assigned constant v) := by
  induction k using parts_induction with
  | leaf a =>
    refine iff_of_true rfl fun v => ?_
    rw [emitted, left, prune, holds, assigned]
    cases hc : constant a with
    | none => simp [Option.guard, hc, holds, assigned]
    | some b => cases b <;> simp [Option.guard, hc, holds, assigned]
  | group j parts ih =>
    have hparts : allFaithful constant parts = true ↔ ∀ k ∈ parts, ∀ v,
        emitted constant (assigned constant v) k = k.holds (assigned constant v) := by
      rw [leaves, leavesOfAll_eq, List.nodup_flatMap] at hn
      rw [allFaithful_iff]
      exact forall₂_congr fun k hk => ih k hk (allFull_iff.1 hf.2 k hk) (hn.1 k hk)
    cases j with
    | and => rw [faithful, Bool.or_eq_true, Bool.not_eq_true', hparts, faithful_and hf hn]
    | or =>
      rw [faithful]
      split
      · next h => rw [List.isEmpty_iff, faithful_or_always h]
      · next h => rw [hparts, faithful_or hf hn h]

/-- Nothing is left out if nothing is left out of any part. -/
lemma leftOfAll_eq {parts : List (Clause α)} (h : ∀ k ∈ parts, left constant k = some k) :
    leftOfAll constant parts = parts := by
  induction parts with
  | nil => rfl
  | cons k parts ih =>
    have hk := h k (by simp)
    have hs := ih fun k' hk' => h k' (by simp [hk'])
    unfold left at hk
    unfold leftOfAll at hs ⊢
    rw [pruneAll, hk, hs]
    rfl

/-- All of a clause is left if no leaf is constantly true. -/
lemma left_eq_some {k : Clause α} (hf : k.Full) (h : ∀ a ∈ k.leaves, constant a ≠ some true) :
    left constant k = some k := by
  induction k using parts_induction with
  | leaf a =>
    have ha := h a (by simp [leaves])
    simp [left, prune, Option.guard, ha]
  | group j parts ih =>
    have hparts := leftOfAll_eq fun k hk =>
      ih k hk (allFull_iff.1 hf.2 k hk) fun a ha => h a (leaves_subset hk a ha)
    unfold leftOfAll at hparts
    rw [left, prune, hparts]
    exact join?_eq_some_iff.2 ⟨hf.1, rfl⟩

/-- A clause without leaves that are constantly true keeps its value. -/
theorem faithful_of_forall_ne [DecidableEq α] {k : Clause α} (hf : k.Full) (hn : k.leaves.Nodup)
    (h : ∀ a ∈ k.leaves, constant a ≠ some true) : k.faithful constant = true := by
  refine (faithful_iff hf hn).2 fun v => ?_
  rw [emitted, left_eq_some hf h]
  rfl

end ReadQuery.Clause
