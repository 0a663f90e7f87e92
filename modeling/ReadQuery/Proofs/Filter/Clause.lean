import Mathlib.Data.List.Nodup
import ReadQuery.Filter

/-!
# Clauses

The clauses that remain of a filter, as trees over their leaves: changing the leaves (`map`), the
leaves in order (`leaves`), leaving out some of them and the groups that this leaves empty
(`prune`), numbering them (`zipIdx`), and the truth value under an assignment to them (`holds`).
Groups without parts have no meaning of their own; `Full` clauses have none, and pruning makes none
(`full_of_prune`).
-/

namespace ReadQuery

variable {α β γ : Type}

namespace Clause

mutual

/-- Changes the leaves. -/
def map (g : α → β) : Clause α → Clause β
  | leaf a => leaf (g a)
  | group junction parts => group junction (mapAll g parts)

/-- Changes the leaves of some clauses. -/
def mapAll (g : α → β) : List (Clause α) → List (Clause β)
  | [] => []
  | c :: cs => map g c :: mapAll g cs

end

mutual

/-- The leaves, from left to right. -/
def leaves : Clause α → List α
  | leaf a => [a]
  | group _ parts => leavesOfAll parts

/-- The leaves of some clauses, from left to right. -/
def leavesOfAll : List (Clause α) → List α
  | [] => []
  | c :: cs => leaves c ++ leavesOfAll cs

end

mutual

/-- Every group has a part. -/
def Full : Clause α → Prop
  | leaf _ => True
  | group _ parts => parts ≠ [] ∧ AllFull parts

/-- Every group of some clauses has a part. -/
def AllFull : List (Clause α) → Prop
  | [] => True
  | c :: cs => Full c ∧ AllFull cs

end

mutual

/-- Changes the leaves and leaves out those that are changed into nothing, with the groups of which
nothing is left. -/
def prune (g : α → Option β) : Clause α → Option (Clause β)
  | leaf a => (g a).map leaf
  | group junction parts => join? junction (pruneAll g parts)

/-- Prunes some clauses and leaves out those of which nothing is left. -/
def pruneAll (g : α → Option β) : List (Clause α) → List (Clause β)
  | [] => []
  | c :: cs => (prune g c).toList ++ pruneAll g cs

end

mutual

/-- Numbers the leaves from left to right. -/
def zipIdx (n : Nat) : Clause α → Clause (α × Nat)
  | leaf a => leaf (a, n)
  | group junction parts => group junction (zipIdxAll n parts)

/-- Numbers the leaves of some clauses from left to right. -/
def zipIdxAll (n : Nat) : List (Clause α) → List (Clause (α × Nat))
  | [] => []
  | c :: cs => zipIdx n c :: zipIdxAll (n + c.leaves.length) cs

end

mutual

/-- The truth value under an assignment to the leaves. -/
def holds (v : α → Bool) : Clause α → Bool
  | leaf a => v a
  | group .and parts => allHold v parts
  | group .or parts => anyHolds v parts

/-- Whether all clauses hold. -/
def allHold (v : α → Bool) : List (Clause α) → Bool
  | [] => true
  | c :: cs => holds v c && allHold v cs

/-- Whether one of the clauses holds. -/
def anyHolds (v : α → Bool) : List (Clause α) → Bool
  | [] => false
  | c :: cs => holds v c || anyHolds v cs

end

mutual

/-- What holds of a group if it holds of its parts holds of all clauses. -/
@[elab_as_elim]
theorem parts_induction {motive : Clause α → Prop} (leaf : ∀ a, motive (leaf a))
    (group : ∀ j parts, (∀ k ∈ parts, motive k) → motive (group j parts)) :
    ∀ k : Clause α, motive k
  | .leaf a => leaf a
  | .group j parts => group j parts (parts_induction_all leaf group parts)

/-- Induction on the parts of groups, for the members of a list. -/
theorem parts_induction_all {motive : Clause α → Prop} (leaf : ∀ a, motive (leaf a))
    (group : ∀ j parts, (∀ k ∈ parts, motive k) → motive (group j parts)) :
    ∀ ks : List (Clause α), ∀ k ∈ ks, motive k
  | [], _, h => absurd h List.not_mem_nil
  | k :: ks, _, h =>
    (List.mem_cons.1 h).elim (fun h => h ▸ parts_induction leaf group k)
      (parts_induction_all leaf group ks _)

end

/-- Leaves are changed on both sides of a concatenation. -/
lemma mapAll_append (g : α → β) (cs ds : List (Clause α)) :
    mapAll g (cs ++ ds) = mapAll g cs ++ mapAll g ds := by
  induction cs with
  | nil => rfl
  | cons c cs ih => simp [mapAll, ih]

/-- Leaves are changed in a clause that may be absent. -/
lemma mapAll_toList (g : α → β) (k : Option (Clause α)) :
    mapAll g k.toList = (k.map (map g)).toList := by
  cases k <;> rfl

/-- Changing leaves keeps the number of clauses. -/
lemma length_mapAll (g : α → β) (cs : List (Clause α)) : (mapAll g cs).length = cs.length := by
  induction cs with
  | nil => rfl
  | cons c cs ih => simp [mapAll, ih]

/-- The leaves of some clauses are those of each. -/
lemma leavesOfAll_eq (cs : List (Clause α)) : leavesOfAll cs = cs.flatMap leaves := by
  induction cs with
  | nil => rfl
  | cons c cs ih => simp [leavesOfAll, ih]

/-- The leaves of two lists of clauses behind each other. -/
lemma leavesOfAll_append (cs ds : List (Clause α)) :
    leavesOfAll (cs ++ ds) = leavesOfAll cs ++ leavesOfAll ds := by
  simp [leavesOfAll_eq]

/-- Some clauses are full if each of them is. -/
lemma allFull_iff {cs : List (Clause α)} : AllFull cs ↔ ∀ c ∈ cs, c.Full := by
  induction cs with
  | nil => simp [AllFull]
  | cons c cs ih => simp [AllFull, ih]

/-- Both sides of a concatenation are pruned. -/
lemma pruneAll_append (g : α → Option β) (cs ds : List (Clause α)) :
    pruneAll g (cs ++ ds) = pruneAll g cs ++ pruneAll g ds := by
  induction cs with
  | nil => rfl
  | cons c cs ih => simp [pruneAll, ih]

/-- What is left of some clauses is what is left of each. -/
lemma mem_pruneAll {g : α → Option β} {cs : List (Clause α)} {k : Clause β} :
    k ∈ pruneAll g cs ↔ ∃ c ∈ cs, prune g c = some k := by
  induction cs with
  | nil => simp [pruneAll]
  | cons c cs ih => simp [pruneAll, ih]

/-- All clauses hold if each of them does. -/
lemma allHold_iff {v : α → Bool} {cs : List (Clause α)} :
    allHold v cs = true ↔ ∀ c ∈ cs, c.holds v = true := by
  induction cs with
  | nil => simp [allHold]
  | cons c cs ih => simp [allHold, ih]

/-- One of the clauses holds if there is one that does. -/
lemma anyHolds_iff {v : α → Bool} {cs : List (Clause α)} :
    anyHolds v cs = true ↔ ∃ c ∈ cs, c.holds v = true := by
  induction cs with
  | nil => simp [anyHolds]
  | cons c cs ih => simp [anyHolds, ih]

/-- Joining clauses keeps their leaves. -/
lemma leaves_join? (j : Junction) (cs : List (Clause α)) :
    ((join? j cs).map leaves).getD [] = leavesOfAll cs := by
  cases cs <;> rfl

/-- Leaves may be changed before the clauses are joined. -/
lemma join?_map (g : α → β) (j : Junction) (cs : List (Clause α)) :
    (join? j cs).map (map g) = join? j (mapAll g cs) := by
  cases cs <;> simp [join?, map, mapAll]

/-- Clauses are joined to nothing only if there are none. -/
lemma join?_eq_none_iff {j : Junction} {cs : List (Clause α)} :
    join? j cs = none ↔ cs = [] := by
  cases cs <;> simp [join?]

/-- Clauses are joined to a group of all of them. -/
lemma join?_eq_some_iff {j : Junction} {cs : List (Clause α)} {k : Clause α} :
    join? j cs = some k ↔ cs ≠ [] ∧ k = group j cs := by
  cases cs <;> simp [join?, eq_comm]

mutual

/-- Changing leaves before pruning is pruning by what they are changed into. -/
lemma prune_map (g : α → β) (h : β → Option γ) : ∀ k : Clause α,
    prune h (k.map g) = prune (h ∘ g) k
  | leaf a => rfl
  | group j parts => by rw [map, prune, prune, pruneAll_mapAll g h parts]

/-- Changing the leaves of some clauses before pruning is pruning by what they are changed into. -/
lemma pruneAll_mapAll (g : α → β) (h : β → Option γ) : ∀ ks : List (Clause α),
    pruneAll h (mapAll g ks) = pruneAll (h ∘ g) ks
  | [] => rfl
  | k :: ks => by rw [mapAll, pruneAll, pruneAll, prune_map g h k, pruneAll_mapAll g h ks]

end

mutual

/-- Changing leaves after pruning is pruning by what they are changed into. -/
lemma map_prune (g : α → Option β) (h : β → γ) : ∀ k : Clause α,
    prune (fun a => (g a).map h) k = (prune g k).map (map h)
  | leaf a => by cases hg : g a <;> simp [prune, hg, map]
  | group j parts => by rw [prune, prune, mapAll_pruneAll g h parts, join?_map]

/-- Changing the leaves of what is left is pruning by what they are changed into. -/
lemma mapAll_pruneAll (g : α → Option β) (h : β → γ) : ∀ ks : List (Clause α),
    pruneAll (fun a => (g a).map h) ks = mapAll h (pruneAll g ks)
  | [] => rfl
  | k :: ks => by
    rw [pruneAll, pruneAll, map_prune g h k, mapAll_pruneAll g h ks, mapAll_append]
    cases prune g k <;> rfl

end

mutual

/-- What is left depends on the leaves only. -/
lemma prune_congr {g g' : α → Option β} : ∀ {k : Clause α},
    (∀ a ∈ k.leaves, g a = g' a) → prune g k = prune g' k
  | leaf a, h => by rw [prune, prune, h a (by simp [leaves])]
  | group j parts, h => by
    have hp : pruneAll g parts = pruneAll g' parts := pruneAll_congr h
    rw [prune, prune, hp]

/-- Pruning some clauses looks at their leaves only. -/
lemma pruneAll_congr {g g' : α → Option β} : ∀ {ks : List (Clause α)},
    (∀ a ∈ leavesOfAll ks, g a = g' a) → pruneAll g ks = pruneAll g' ks
  | [], _ => rfl
  | k :: ks, h => by
    have hk : prune g k = prune g' k := prune_congr fun a ha => h a (by simp [leavesOfAll, ha])
    have hs : pruneAll g ks = pruneAll g' ks :=
      pruneAll_congr fun a ha => h a (by simp [leavesOfAll, ha])
    rw [pruneAll, pruneAll, hk, hs]

end

mutual

/-- The leaves that are left are kept in order. -/
lemma leaves_prune (g : α → Option β) : ∀ k : Clause α,
    ((prune g k).map leaves).getD [] = k.leaves.filterMap g
  | leaf a => by cases hg : g a <;> simp [prune, hg, leaves]
  | group j parts => by rw [prune, leaves_join?, leavesOfAll_pruneAll g parts, leaves]

/-- The leaves of what is left are the leaves that are changed into something. -/
lemma leavesOfAll_pruneAll (g : α → Option β) : ∀ ks : List (Clause α),
    leavesOfAll (pruneAll g ks) = (leavesOfAll ks).filterMap g
  | [] => rfl
  | k :: ks => by
    rw [pruneAll, leavesOfAll_append, leavesOfAll_pruneAll g ks, leavesOfAll, List.filterMap_append,
      ← leaves_prune g k]
    cases prune g k <;> simp [leavesOfAll]

end

mutual

/-- Pruning leaves no group without parts. -/
lemma full_of_prune {g : α → Option β} : ∀ {k : Clause α} {k' : Clause β},
    prune g k = some k' → k'.Full
  | leaf a, k', h => by
    obtain ⟨b, -, rfl⟩ := Option.map_eq_some_iff.1 h
    trivial
  | group j parts, k', h => by
    obtain ⟨hne, rfl⟩ := join?_eq_some_iff.1 h
    exact ⟨hne, allFull_pruneAll parts⟩

/-- What is left of some clauses is full, whatever they were. -/
lemma allFull_pruneAll {g : α → Option β} : ∀ ks : List (Clause α), AllFull (pruneAll g ks)
  | [] => trivial
  | k :: ks => by
    have hs := allFull_pruneAll (g := g) ks
    rw [pruneAll]
    cases h : prune g k with
    | none => exact hs
    | some k' => exact ⟨full_of_prune h, hs⟩

end

mutual

/-- The leaves are still there beside their numbers. -/
lemma map_fst_zipIdx : ∀ (n : Nat) (k : Clause α), (k.zipIdx n).map Prod.fst = k
  | _, leaf a => rfl
  | n, group j parts => by rw [zipIdx, map, mapAll_fst_zipIdxAll n parts]

/-- The leaves of some clauses are still there beside their numbers. -/
lemma mapAll_fst_zipIdxAll : ∀ (n : Nat) (ks : List (Clause α)),
    mapAll Prod.fst (zipIdxAll n ks) = ks
  | _, [] => rfl
  | n, k :: ks => by rw [zipIdxAll, mapAll, map_fst_zipIdx n k, mapAll_fst_zipIdxAll _ ks]

end

mutual

/-- The leaves are numbered in the order in which they stand. -/
lemma leaves_zipIdx : ∀ (n : Nat) (k : Clause α), (k.zipIdx n).leaves = k.leaves.zipIdx n
  | _, leaf a => rfl
  | n, group j parts => by rw [zipIdx, leaves, leavesOfAll_zipIdxAll n parts, leaves]

/-- The leaves of some clauses are numbered in the order in which they stand. -/
lemma leavesOfAll_zipIdxAll : ∀ (n : Nat) (ks : List (Clause α)),
    leavesOfAll (zipIdxAll n ks) = (leavesOfAll ks).zipIdx n
  | _, [] => rfl
  | n, k :: ks => by
    rw [zipIdxAll, leavesOfAll, leavesOfAll, List.zipIdx_append, leaves_zipIdx n k,
      leavesOfAll_zipIdxAll _ ks]

end

mutual

/-- Numbering empties no group. -/
lemma full_zipIdx : ∀ {n : Nat} {k : Clause α}, k.Full → (k.zipIdx n).Full
  | _, leaf a, _ => trivial
  | n, group j parts, h => by
    refine ⟨?_, allFull_zipIdxAll h.2⟩
    cases parts with
    | nil => exact absurd rfl h.1
    | cons k ks => simp [zipIdxAll]

/-- Numbering empties no group of some clauses. -/
lemma allFull_zipIdxAll : ∀ {n : Nat} {ks : List (Clause α)}, AllFull ks →
    AllFull (zipIdxAll n ks)
  | _, [], _ => trivial
  | _, _ :: _, h => ⟨full_zipIdx h.1, allFull_zipIdxAll h.2⟩

end

/-- Numbered leaves are told apart by their numbers. -/
lemma nodup_leaves_zipIdx (n : Nat) (k : Clause α) : (k.zipIdx n).leaves.Nodup := by
  have h : ((k.zipIdx n).leaves.map Prod.snd).Nodup := by
    rw [leaves_zipIdx, List.zipIdx_map_snd]
    exact List.nodup_range'
  exact h.of_map _

end Clause

end ReadQuery
