import ReadQuery.Proofs.Filter.Reading
import ReadQuery.Proofs.Sql.Tree

/-!
# Reading filters in SQL

What the tree of a filter means: its entries joined by `AND` are the text of a clause with the texts
of the predicates as atoms (`entriesText_ofClause`), and so is read as the clause that is kept of
the filter (`means_ofClause?`).
-/

namespace ReadQuery.Sql

open Clause (topTokens)

variable {α : Type}

/-- The tree of a condition, or one that stands for a condition that has none. -/
def conditionTree (d : Dialect) (c : Condition) : Tree :=
  ((condition d c).form?).getD .never

/-- The text of a condition. -/
def conditionText (d : Dialect) (c : Condition) : String :=
  ((conditionTree d c).render false).sql

/-- The predicates of a filter as one text. -/
def entriesText (t : Tree) : String :=
  " AND ".intercalate (t.entries.map (·.sql))

/-- What the tree of a filter means: nothing at all, or the text of its entries with the texts of
the conditions as atoms. -/
def Means (d : Dialect) (t : Tree) (atoms : List Occurrence) : Option Meaning → Prop
  | none => t.isEmpty = true ∧ t.entries = []
  | some m => t.isEmpty = false ∧
      Text.Means (fun o => conditionText d o.1) atoms m (entriesText t)

namespace Tree

/-- The tree of a condition: no parentheses are ever put around it. -/
structure IsAtom (t : Tree) : Prop where
  render : t.render true = t.render false
  entries : t.entries = [t.render false]
  isEmpty : t.isEmpty = false

/-- The predicate that never holds needs no parentheses. -/
lemma isAtom_never : never.IsAtom := ⟨rfl, rfl, rfl⟩

/-- A predicate needs no parentheses. -/
lemma isAtom_leaf (p : Predicate) : (leaf p).IsAtom := ⟨rfl, rfl, rfl⟩

/-- Trees are rendered one by one. -/
lemma length_renderAll (ts : List Tree) : (renderAll ts).length = ts.length := by
  induction ts with
  | nil => rfl
  | cons t ts ih => simp [renderAll, ih]

/-- Clauses become trees one by one. -/
lemma length_ofClauses (ks : List (Clause Tree)) : (ofClauses ks).length = ks.length := by
  induction ks with
  | nil => rfl
  | cons k ks ih => simp [ofClauses, ih]

/-- Trees are rendered to predicates, if there are any. -/
lemma renderAll_ne_nil {ts : List Tree} (h : ts ≠ []) : renderAll ts ≠ [] := by
  rw [← List.length_pos_iff, length_renderAll]
  exact List.length_pos_iff.2 h

variable {g : α → Tree}

/-- Clauses become trees, if there are any. -/
lemma ofClauses_ne_nil {ks : List (Clause α)} (h : ks ≠ []) :
    ofClauses (Clause.mapAll g ks) ≠ [] := by
  rw [← List.length_pos_iff, length_ofClauses, Clause.length_mapAll]
  exact List.length_pos_iff.2 h

/-- Parts of a group are parenthesized if there are more than one. -/
lemma sql_joined {connective : String} {ps : List Predicate} (h : ps ≠ []) :
    (Predicate.joined connective true ps).sql
      = if ps.length = 1 then connective.intercalate (ps.map (·.sql))
        else "(" ++ connective.intercalate (ps.map (·.sql)) ++ ")" := by
  have hpos := List.length_pos_iff.2 h
  by_cases hl : ps.length = 1
  · simp [Predicate.joined, hl]
  · have hlt : 1 < ps.length := by omega
    simp [Predicate.joined, hl, hlt]

/-- A group is rendered as its parts joined by its connective. -/
lemma render_ofClause (form : α → String) (j : Junction) (ks : List (Clause Tree)) :
    (ofClause (.group j ks)).render true
      = Predicate.joined ((Token.join j : Token α).text form) true
          (renderAll (ofClauses ks)) := by
  cases j <;> rfl

mutual

/-- A tree that is rendered as an operand is the spelling of its clause. -/
lemma sql_render (hg : ∀ a, (g a).IsAtom) : ∀ {k : Clause α}, k.Full →
    ((ofClause (k.map g)).render true).sql
      = Token.spell (fun a => ((g a).render false).sql) k.tokens
  | .leaf a, _ => by
    rw [Clause.map, ofClause, (hg a).render]
    simp [Clause.tokens, Token.spell, Token.text]
  | .group j parts, h => by
    have hlength : (renderAll (ofClauses (Clause.mapAll g parts))).length = parts.length := by
      rw [length_renderAll, length_ofClauses, Clause.length_mapAll]
    have hne : renderAll (ofClauses (Clause.mapAll g parts)) ≠ [] :=
      renderAll_ne_nil (ofClauses_ne_nil h.1)
    rw [Clause.map, render_ofClause (fun a => ((g a).render false).sql), sql_joined hne, hlength,
      sql_renderAll hg h.2, Clause.spell_group]

/-- Trees that are rendered are the spellings of their clauses. -/
lemma sql_renderAll (hg : ∀ a, (g a).IsAtom) : ∀ {ks : List (Clause α)}, Clause.AllFull ks →
    (renderAll (ofClauses (Clause.mapAll g ks))).map (·.sql)
      = ks.map fun k => Token.spell (fun a => ((g a).render false).sql) k.tokens
  | [], _ => rfl
  | k :: ks, h => by
    rw [Clause.mapAll, ofClauses, renderAll, List.map_cons, List.map_cons, sql_render hg h.1,
      sql_renderAll hg h.2]

end

/-- A disjunction at the root is one entry, or the entry of its only part. -/
lemma entriesText_any {parts : List Tree} (h : parts ≠ []) :
    entriesText (any parts) = ((any parts).render true).sql := by
  by_cases hl : 1 < parts.length
  · simp [entriesText, entries, hl]
  · have hone : parts.length = 1 := by
      have hpos := List.length_pos_iff.2 h
      omega
    obtain ⟨t, rfl⟩ := List.length_eq_one_iff.1 hone
    simp [entriesText, entries, render, renderAll, Predicate.joined]

/-- The entries of a tree are the spelling of its clause as a whole text. -/
lemma entriesText_ofClause (hg : ∀ a, (g a).IsAtom) {k : Clause α} (h : k.Full) :
    entriesText (ofClause (k.map g))
      = Token.spell (fun a => ((g a).render false).sql) k.topTokens := by
  cases k with
  | leaf a =>
    rw [Clause.map, ofClause, entriesText, (hg a).entries]
    simp [topTokens, Clause.tokens, Token.spell, Token.text]
  | group j parts =>
    cases j with
    | and =>
      -- the parts are entries of their own, and joining them makes up for the missing connective
      rw [topTokens, Clause.spell_tokensOfAll, ← sql_renderAll hg h.2]
      rfl
    | or =>
      rw [topTokens, ← sql_render hg h]
      exact entriesText_any (ofClauses_ne_nil h.1)

/-- The tree of a clause is not empty. -/
lemma isEmpty_ofClause (hg : ∀ a, (g a).IsAtom) (k : Clause α) :
    (ofClause (k.map g)).isEmpty = false := by
  cases k with
  | leaf a => exact (hg a).isEmpty
  | group j parts => cases j <;> rfl

end Tree

/-- The tree of a condition needs no parentheses. -/
lemma isAtom_conditionTree (d : Dialect) (c : Condition) : (conditionTree d c).IsAtom := by
  unfold conditionTree
  cases h : (condition d c).form? with
  | none => exact Tree.isAtom_never
  | some t =>
    cases condition_rendered (Compiled.form?_eq_some.1 h) with
    | never => exact Tree.isAtom_never
    | leaf _ => exact Tree.isAtom_leaf _

/-- The tree of a filter means what is kept of the filter. -/
theorem means_ofClause? (d : Dialect) (f : Filter) :
    Means d (Tree.ofClause? (f.remains (condition d)))
      (f.occurrences.filter fun o => (condition d o.1).isRendered)
      ((f.kept fun c => (condition d c).isRendered).map fun k v => k.holds v) := by
  have hform : ∀ c t, (condition d c).form? = some t → conditionTree d c = t := by
    intro c t h
    rw [conditionTree, h]
    rfl
  rw [Filter.remains_eq_kept hform, ← Filter.leaves_kept fun c => (condition d c).isRendered]
  cases hk : f.kept fun c => (condition d c).isRendered with
  | none => exact ⟨rfl, rfl⟩
  | some k =>
    have hfull := Filter.full_of_kept hk
    have hatom : ∀ o : Occurrence, (conditionTree d o.1).IsAtom :=
      fun o => isAtom_conditionTree d o.1
    refine ⟨Tree.isEmpty_ofClause hatom k, ?_⟩
    have hm := Clause.means_topTokens hfull fun o : Occurrence => conditionText d o.1
    have ht := Tree.entriesText_ofClause hatom hfull
    simp only [Option.map_some, Tree.ofClause?, ht]
    exact hm

end ReadQuery.Sql
