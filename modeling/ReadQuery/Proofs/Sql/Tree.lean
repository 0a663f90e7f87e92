import ReadQuery.Proofs.Filter.Walk
import ReadQuery.Proofs.Sql.Woven

/-!
# Trees of predicates

What the rendering of a tree and its entries are made of: the predicates at its leaves, in order.
The texts are woven from their fragments (`woven_render`, `covers_entries`) and are clean if these
are (`clean_entries`), and the parameters are their values one after the other (`params_render`,
`params_entries`). For the tree of a filter the predicates are those of the live conditions
(`fragments_ofClause?`).
-/

namespace ReadQuery.Sql

open Placeholder

namespace Tree

mutual

/-- The predicates at the leaves, in order. -/
def fragments : Tree → List Predicate
  | leaf p => [p]
  | nothing => []
  | never => [never.render false]
  | all parts | any parts => fragmentsOfAll parts

/-- The predicates at the leaves of some trees, in order. -/
def fragmentsOfAll : List Tree → List Predicate
  | [] => []
  | t :: ts => fragments t ++ fragmentsOfAll ts

end

mutual

/-- The values of a rendered tree are those of its leaves, in order. -/
lemma params_render : ∀ (t : Tree) (nested : Bool),
    (t.render nested).params = t.fragments.flatMap (·.params)
  | leaf p, _ => by simp [render, fragments]
  | nothing, _ => rfl
  | never, _ => rfl
  | all parts, _ => params_renderAll parts
  | any parts, _ => params_renderAll parts

/-- The values of rendered trees are those of their leaves, in order. -/
lemma params_renderAll : ∀ ts : List Tree,
    (renderAll ts).flatMap (·.params) = (fragmentsOfAll ts).flatMap (·.params)
  | [] => rfl
  | t :: ts => by
    simp only [renderAll, fragmentsOfAll, List.flatMap_cons, List.flatMap_append]
    rw [params_render t true, params_renderAll ts]

end

/-- The values of the entries are those of the leaves, in order. -/
lemma params_entries (t : Tree) :
    t.entries.flatMap (·.params) = t.fragments.flatMap (·.params) := by
  cases t with
  | nothing => rfl
  | never => rfl
  | leaf p => rfl
  | all parts => exact params_renderAll parts
  | any parts =>
    by_cases h : 1 < parts.length
    · have hr := params_render (any parts) true
      simpa only [entries, h, if_true, List.flatMap_singleton] using hr
    · have hr := params_renderAll parts
      simpa only [entries, h, if_false, fragments] using hr

/-- Parts joined by a connective are woven from the predicates of the parts. -/
lemma woven_joined {connective : String} (hc : Inert connective)
    (hne : ∃ c, connective.toList.head? = some c ∧ c.isDigit = false) {rs ps : List Predicate}
    (h : Covers (rs.map (·.sql)) ps) (nested : Bool) (n : Nat) :
    Woven asMarks n ps (Predicate.joined connective nested rs).sql.toList := by
  have hin := h.intercalate hc hne n
  unfold Predicate.joined
  split
  · have hopen : Inert "(" := rfl
    have hclose : Woven asMarks (n + boundCount ps) [] [')'] := .gap rfl
    have hdigit : NoDigitHead [')'] := by simp [NoDigitHead]
    have hout := (hin.prepend hopen).append hclose hdigit
    rw [List.append_nil] at hout
    simpa using hout
  · exact hin

mutual

/-- A rendered tree is woven from its leaves, if these bind their values. -/
lemma woven_render : ∀ (t : Tree), (∀ p ∈ t.fragments, p.Binds) → ∀ nested n,
    Woven asMarks n t.fragments (t.render nested).sql.toList
  | leaf p, h, _, _ => .single (h p (by simp [fragments]))
  | nothing, _, _, _ => .gap (show Inert "1 = 1" from rfl)
  | never, h, _, _ => .single (h _ (by simp [fragments]))
  | all parts, h, nested, n => by
    have hand : Inert " AND " := rfl
    exact woven_joined hand ⟨' ', rfl, rfl⟩ (covers_renderAll parts h) nested n
  | any parts, h, nested, n => by
    have hor : Inert " OR " := rfl
    exact woven_joined hor ⟨' ', rfl, rfl⟩ (covers_renderAll parts h) nested n

/-- Rendered trees cover their leaves, if these bind their values. -/
lemma covers_renderAll : ∀ (ts : List Tree), (∀ p ∈ fragmentsOfAll ts, p.Binds) →
    Covers ((renderAll ts).map (·.sql)) (fragmentsOfAll ts)
  | [], _ => .nil
  | t :: ts, h => by
    have ht := woven_render t fun p hp => h p (by simp [fragmentsOfAll, hp])
    have hs := covers_renderAll ts fun p hp => h p (by simp [fragmentsOfAll, hp])
    exact .cons (ht true) hs

end

/-- The entries of a tree cover its leaves, if these bind their values. -/
lemma covers_entries {t : Tree} (h : ∀ p ∈ t.fragments, p.Binds) :
    Covers (t.entries.map (·.sql)) t.fragments := by
  cases t with
  | nothing => exact .nil
  | never => exact .single (woven_render never h false)
  | leaf p => exact .single (woven_render (leaf p) h false)
  | all parts => exact covers_renderAll parts h
  | any parts =>
    by_cases hl : 1 < parts.length
    · have hr : Covers [((any parts).render true).sql] (any parts).fragments :=
        .single (woven_render (any parts) h true)
      simpa only [entries, hl, if_true, List.map_cons, List.map_nil] using hr
    · have hr := covers_renderAll parts h
      simpa only [entries, hl, if_false, fragments] using hr

/-- A rendered tree binds its values, if its leaves do. -/
lemma binds_render {t : Tree} (h : ∀ p ∈ t.fragments, p.Binds) (nested : Bool) :
    (t.render nested).Binds := by
  obtain ⟨q, hq, hs⟩ := (woven_render t h nested 0).scan
  have hcount : boundCount t.fragments = (t.render nested).params.length := by
    rw [params_render, boundCount]
  exact ⟨q, hq, hcount ▸ hs⟩

/-- Rendered trees bind their values, if their leaves do. -/
lemma binds_renderAll {ts : List Tree} (h : ∀ p ∈ fragmentsOfAll ts, p.Binds) :
    ∀ r ∈ renderAll ts, r.Binds := by
  induction ts with
  | nil => simp [renderAll]
  | cons t ts ih =>
    have ht := binds_render (t := t) (fun p hp => h p (by simp [fragmentsOfAll, hp])) true
    have hs := ih fun p hp => h p (by simp [fragmentsOfAll, hp])
    rw [renderAll, List.forall_mem_cons]
    exact ⟨ht, hs⟩

/-- Every entry binds the values of its predicates. -/
lemma binds_entries {t : Tree} (h : ∀ p ∈ t.fragments, p.Binds) : ∀ r ∈ t.entries, r.Binds := by
  cases t with
  | nothing => simp [entries]
  | never => simpa [entries] using binds_render h false
  | leaf p => simpa [entries] using binds_render h false
  | all parts => exact binds_renderAll h
  | any parts =>
    rw [entries]
    split
    · simpa using binds_render h true
    · exact binds_renderAll h

/-- Clean predicates are joined to a clean one. -/
lemma clean_joined {d : Dialect} {connective : String} (hc : d.Clean connective.toList)
    {rs : List Predicate} (h : ∀ r ∈ rs, d.Clean r.sql.toList) (nested : Bool) :
    d.Clean (Predicate.joined connective nested rs).sql.toList := by
  have hin : d.Clean (connective.intercalate (rs.map (·.sql))).toList := by
    apply clean_intercalate hc
    intro s hs
    obtain ⟨r, hr, rfl⟩ := List.mem_map.1 hs
    exact h r hr
  unfold Predicate.joined
  split
  · have hopen : d.Clean "(".toList := .const rfl
    have hclose : d.Clean ")".toList := .const rfl
    simpa using (hopen.append hin).append hclose
  · exact hin

mutual

/-- A rendered tree is clean, if its leaves are. -/
lemma clean_render {d : Dialect} : ∀ (t : Tree), (∀ p ∈ t.fragments, d.Clean p.sql.toList) →
    ∀ nested, d.Clean (t.render nested).sql.toList
  | leaf p, h, _ => h p (by simp [fragments])
  | nothing, _, _ => (Neat.const rfl : Neat d "1 = 1").clean
  | never, _, _ => (Neat.const rfl : Neat d "1 = 0").clean
  | all parts, h, nested => clean_joined (.const rfl) (clean_renderAll parts h) nested
  | any parts, h, nested => clean_joined (.const rfl) (clean_renderAll parts h) nested

/-- Rendered trees are clean, if their leaves are. -/
lemma clean_renderAll {d : Dialect} : ∀ (ts : List Tree),
    (∀ p ∈ fragmentsOfAll ts, d.Clean p.sql.toList) → ∀ r ∈ renderAll ts, d.Clean r.sql.toList
  | [], _ => by simp [renderAll]
  | t :: ts, h => by
    have ht := clean_render t fun p hp => h p (by simp [fragmentsOfAll, hp])
    have hs := clean_renderAll ts fun p hp => h p (by simp [fragmentsOfAll, hp])
    rw [renderAll, List.forall_mem_cons]
    exact ⟨ht true, hs⟩

end

/-- The entries of a tree are clean, if its leaves are. -/
lemma clean_entries {d : Dialect} {t : Tree} (h : ∀ p ∈ t.fragments, d.Clean p.sql.toList) :
    ∀ r ∈ t.entries, d.Clean r.sql.toList := by
  cases t with
  | nothing => simp [entries]
  | never => simpa [entries] using clean_render never h false
  | leaf p => simpa [entries] using clean_render (leaf p) h false
  | all parts => exact clean_renderAll parts h
  | any parts =>
    rw [entries]
    split
    · simpa using clean_render (any parts) h true
    · exact clean_renderAll parts h

mutual

/-- The tree of a clause has the leaves of the trees in it. -/
lemma fragments_ofClause : ∀ k : Clause Tree, (ofClause k).fragments = k.leaves.flatMap fragments
  | .leaf t => by simp [ofClause, Clause.leaves]
  | .group .and parts => fragmentsOfAll_ofClauses parts
  | .group .or parts => fragmentsOfAll_ofClauses parts

/-- The trees of some clauses have the leaves of the trees in them. -/
lemma fragmentsOfAll_ofClauses : ∀ ks : List (Clause Tree),
    fragmentsOfAll (ofClauses ks) = (Clause.leavesOfAll ks).flatMap fragments
  | [] => rfl
  | k :: ks => by
    simp only [ofClauses, fragmentsOfAll, Clause.leavesOfAll, List.flatMap_append]
    rw [fragments_ofClause k, fragmentsOfAll_ofClauses ks]

end

end Tree

/-- The predicate of a condition, if it has one. -/
def predicate? (d : Dialect) (c : Condition) : Option Predicate :=
  (condition d c).form?.map (Tree.render false)

/-- The predicate of a condition is sound. -/
lemma sound_of_predicate? {d : Dialect} {c : Condition} {p : Predicate}
    (h : predicate? d c = some p) : p.Sound d := by
  obtain ⟨t, ht, rfl⟩ := Option.map_eq_some_iff.1 h
  cases condition_rendered (Compiled.form?_eq_some.1 ht) with
  | never => exact ⟨⟨.bare, rfl, rfl⟩, (Neat.const rfl : Neat d "1 = 0").clean⟩
  | leaf hs => exact hs

/-- The tree of a condition has the condition's predicate at its only leaf. -/
lemma fragments_of_condition {d : Dialect} {c : Condition} {t : Tree}
    (h : (condition d c).form? = some t) : t.fragments = [t.render false] := by
  cases condition_rendered (Compiled.form?_eq_some.1 h) with
  | never => rfl
  | leaf _ => rfl

/-- The leaves of the trees of conditions are the predicates of the conditions. -/
lemma flatMap_fragments (d : Dialect) (cs : List Condition) :
    (cs.filterMap fun c => (condition d c).form?).flatMap Tree.fragments
      = cs.filterMap (predicate? d) := by
  induction cs with
  | nil => rfl
  | cons c cs ih =>
    cases h : (condition d c).form? with
    | none => simp [predicate?, h, ih]
    | some t => simp [predicate?, h, ih, fragments_of_condition h]

/-- The predicates of the tree of a filter are those of its live conditions, in order. -/
theorem fragments_ofClause? (d : Dialect) (f : Filter) :
    (Tree.ofClause? (f.remains (condition d))).fragments
      = f.liveConditions.filterMap (predicate? d) := by
  rw [← flatMap_fragments, ← Filter.leaves_remains f]
  cases f.remains (condition d) with
  | none => rfl
  | some k => exact Tree.fragments_ofClause k

/-- The predicates of the tree of a filter are sound. -/
theorem sound_of_mem_fragments {d : Dialect} {f : Filter} {p : Predicate}
    (h : p ∈ (Tree.ofClause? (f.remains (condition d))).fragments) : p.Sound d := by
  rw [fragments_ofClause?] at h
  obtain ⟨c, -, hc⟩ := List.mem_filterMap.1 h
  exact sound_of_predicate? hc

end ReadQuery.Sql
