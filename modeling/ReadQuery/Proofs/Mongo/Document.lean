import Mathlib.Data.List.Nodup
import ReadQuery.Mongo.Bson

/-!
# Keys of documents

What setting keys does to a document: the keys stand in the order in which they were first set
(`keys_insert_of_mem`, `insert_of_not_mem`), none of them twice (`nodup_insertAll`), and each has
the value that was set last (`lookup_insertAll`).
-/

namespace ReadQuery

/-- A key is looked up in the first entry and then in the others. -/
lemma lookup_cons_ite {κ β : Type} [DecidableEq κ] (k a : κ) (b : β) (l : List (κ × β)) :
    ((k, b) :: l).lookup a = if a = k then some b else l.lookup a := by
  by_cases h : a = k
  · rw [h, List.lookup_cons_self, if_pos rfl]
  · rw [List.lookup_cons, beq_eq_false_iff_ne.2 h, if_neg h]

namespace Mongo.Document

variable {d : Document} {key : String}

/-- Setting a key that is there keeps the keys. -/
lemma keys_insert_of_mem (value : Bson) (h : key ∈ d.map (·.1)) :
    (insert d key value).map (·.1) = d.map (·.1) := by
  induction d with
  | nil => cases h
  | cons e d ih =>
    obtain ⟨k, v⟩ := e
    by_cases hk : k = key
    · simp [insert, hk]
    · have hmem := (List.mem_cons.1 h).resolve_left (Ne.symm hk)
      simp [insert, hk, ih hmem]

/-- A new key comes last. -/
lemma insert_of_not_mem (value : Bson) (h : key ∉ d.map (·.1)) :
    insert d key value = d ++ [(key, value)] := by
  induction d with
  | nil => rfl
  | cons e d ih =>
    obtain ⟨k, v⟩ := e
    rw [List.map_cons, List.mem_cons, not_or] at h
    simp [insert, Ne.symm h.1, ih h.2]

/-- The last value that was set for a key is the one it has. -/
lemma lookup_insert (d : Document) (key : String) (value : Bson) (k : String) :
    (insert d key value).lookup k = if k = key then some value else d.lookup k := by
  induction d with
  | nil => exact lookup_cons_ite key k value []
  | cons e d ih =>
    obtain ⟨k', v⟩ := e
    rw [insert]
    split
    · next h =>
      subst h
      rw [lookup_cons_ite, lookup_cons_ite]
      split <;> rfl
    · next h =>
      rw [lookup_cons_ite, lookup_cons_ite, ih]
      by_cases hk : k = k'
      · rw [if_pos hk, if_pos hk, if_neg (hk ▸ h)]
      · rw [if_neg hk, if_neg hk]

/-- The last of the entries that are inserted under a key is found. -/
lemma lookup_insertAll (d : Document) (entries : List (String × Bson)) (k : String) :
    (insertAll d entries).lookup k = (entries.reverse.lookup k).or (d.lookup k) := by
  induction entries generalizing d with
  | nil => rfl
  | cons e entries ih =>
    have hinsert : insertAll d (e :: entries) = insertAll (insert d e.1 e.2) entries := rfl
    rw [hinsert, ih, lookup_insert, List.reverse_cons, List.lookup_append, Option.or_assoc,
      lookup_cons_ite]
    by_cases hk : k = e.1
    · rw [if_pos hk, if_pos hk, Option.some_or]
    · rw [if_neg hk, if_neg hk, List.lookup_nil, Option.none_or]

/-- What is in a document after an insertion was there before or has been inserted. -/
lemma of_mem_insert {value : Bson} {e : String × Bson} (h : e ∈ insert d key value) :
    e ∈ d ∨ e = (key, value) := by
  induction d with
  | nil => exact .inr (List.mem_singleton.1 h)
  | cons e' d ih =>
    obtain ⟨k', v'⟩ := e'
    rw [insert] at h
    split at h
    · next hk =>
      subst hk
      rcases List.mem_cons.1 h with rfl | h
      · exact .inr rfl
      · exact .inl (List.mem_cons_of_mem _ h)
    · rcases List.mem_cons.1 h with rfl | h
      · exact .inl List.mem_cons_self
      · exact (ih h).imp_left (List.mem_cons_of_mem _)

/-- Every entry of a document that keys are set in was there or is one of those that were set. -/
lemma of_mem_insertAll {entries : List (String × Bson)} {e : String × Bson}
    (h : e ∈ insertAll d entries) : e ∈ d ∨ e ∈ entries := by
  induction entries generalizing d with
  | nil => exact .inl h
  | cons e' entries ih =>
    rcases ih (d := insert d e'.1 e'.2) h with h | h
    · rcases of_mem_insert h with h | rfl
      · exact .inl h
      · exact .inr List.mem_cons_self
    · exact .inr (List.mem_cons_of_mem _ h)

/-- Nothing is in a document that has not been inserted. -/
lemma mem_of_mem_insertAll_nil {entries : List (String × Bson)} {e : String × Bson}
    (h : e ∈ insertAll [] entries) : e ∈ entries :=
  (of_mem_insertAll h).resolve_left List.not_mem_nil

/-- New keys that are set once each are put behind the document as they are. -/
lemma insertAll_eq_append {entries : List (String × Bson)} (hentries : (entries.map (·.1)).Nodup)
    (hnew : ∀ e ∈ entries, e.1 ∉ d.map (·.1)) : insertAll d entries = d ++ entries := by
  induction entries generalizing d with
  | nil => exact (List.append_nil d).symm
  | cons e entries ih =>
    rw [List.map_cons, List.nodup_cons] at hentries
    rw [List.forall_mem_cons] at hnew
    have hinsert : insertAll d (e :: entries) = insertAll (insert d e.1 e.2) entries := rfl
    have hbehind : ∀ e' ∈ entries, e'.1 ∉ (d ++ [e]).map (·.1) := by
      intro e' he'
      rw [List.map_append, List.mem_append, not_or]
      refine ⟨hnew.2 e' he', ?_⟩
      intro hkey
      have hsame : e'.1 = e.1 := List.mem_singleton.1 hkey
      exact hentries.1 (List.mem_map.2 ⟨e', he', hsame⟩)
    rw [hinsert, insert_of_not_mem e.2 hnew.1, ih hentries.2 hbehind, List.append_assoc]
    rfl

/-- No key is there twice after one is set. -/
lemma nodup_insert (value : Bson) (h : (d.map (·.1)).Nodup) :
    ((insert d key value).map (·.1)).Nodup := by
  by_cases hkey : key ∈ d.map (·.1)
  · rwa [keys_insert_of_mem value hkey]
  · rw [insert_of_not_mem value hkey, List.map_append]
    apply h.append (List.nodup_singleton key)
    exact List.disjoint_singleton.2 hkey

/-- No insertion doubles a key. -/
lemma nodup_insertAll (entries : List (String × Bson)) (h : (d.map (·.1)).Nodup) :
    ((insertAll d entries).map (·.1)).Nodup := by
  induction entries generalizing d with
  | nil => exact h
  | cons e entries ih => exact ih (nodup_insert e.2 h)

end Mongo.Document

end ReadQuery
