import ReadQuery.Influx.Filter
import ReadQuery.Proofs.Filter.Reading

/-!
# Reading filters in InfluxQL

What the predicates of a filter mean: joined by `AND` they are the text of a clause with the
predicates of the conditions as atoms (`entriesText_of_full`), and so are read as the clause that is
kept of the filter (`means_entries`).
-/

namespace ReadQuery.Influx

variable {α : Type}

/-- The text of a condition. -/
def conditionText (c : Condition) : String :=
  ((condition c).form?).getD ""

/-- The predicates of a filter as one text. -/
def entriesText (texts : List String) : String :=
  " AND ".intercalate texts

/-- What the predicates of a filter mean: nothing at all, or their text with the texts of the
conditions as atoms. -/
def Means (texts : List String) (atoms : List Occurrence) : Option Meaning → Prop
  | none => texts = []
  | some m => texts ≠ [] ∧ Text.Means (fun o => conditionText o.1) atoms m (entriesText texts)

variable {form : α → String}

/-- A chain of more than one predicate stands in parentheses. -/
lemma chain_eq {connective : String} {ps : List String} (h : ps ≠ []) :
    chain connective ps
      = if ps.length = 1 then connective.intercalate ps
        else "(" ++ connective.intercalate ps ++ ")" := by
  cases ps with
  | nil => exact absurd rfl h
  | cons p ps =>
    cases ps with
    | nil => simp [chain]
    | cons q ps => simp [chain, parens]

/-- The connective of a junction is written as its token. -/
lemma connective_eq (form : α → String) (j : Junction) :
    connective j = (Token.join j : Token α).text form := by
  cases j <;> rfl

mutual

/-- The predicate of a clause is the spelling of the clause. -/
lemma ofClause_map : ∀ {k : Clause α}, k.Full →
    ofClause (k.map form) = Token.spell form k.tokens
  | .leaf a, _ => by simp [Clause.map, ofClause, Clause.tokens, Token.spell, Token.text]
  | .group j parts, h => by
    have hparts : ofClauses (Clause.mapAll form parts)
        = parts.map fun k => Token.spell form k.tokens := ofClauses_mapAll h.2
    have hlength : (parts.map fun k => Token.spell form k.tokens).length = parts.length :=
      List.length_map _
    have hne : (parts.map fun k => Token.spell form k.tokens) ≠ [] := by
      rw [← List.length_pos_iff, hlength]
      exact List.length_pos_iff.2 h.1
    rw [Clause.map, ofClause, hparts, chain_eq hne, hlength, Clause.spell_group,
      connective_eq form]

/-- The predicates of some clauses are the spellings of the clauses. -/
lemma ofClauses_mapAll : ∀ {ks : List (Clause α)}, Clause.AllFull ks →
    ofClauses (Clause.mapAll form ks) = ks.map fun k => Token.spell form k.tokens
  | [], _ => rfl
  | k :: ks, h => by
    rw [Clause.mapAll, ofClauses, ofClause_map h.1, ofClauses_mapAll h.2, List.map_cons]

end

/-- The predicates of a clause joined are its text. -/
lemma entriesText_of_full {k : Clause α} (h : k.Full) :
    entriesText (entries (some (k.map form))) = Token.spell form k.topTokens := by
  cases k with
  | leaf a =>
    simp [entriesText, entries, Clause.map, ofClause, Clause.topTokens, Clause.tokens, Token.spell,
      Token.text]
  | group j parts =>
    cases j with
    | and =>
      rw [Clause.topTokens, Clause.spell_tokensOfAll, ← ofClauses_mapAll h.2]
      rfl
    | or =>
      rw [Clause.topTokens, ← ofClause_map h]
      simp [entriesText, entries, Clause.map]

/-- A clause has at least one entry. -/
lemma entries_ne_nil {k : Clause α} (h : k.Full) : entries (some (k.map form)) ≠ [] := by
  cases k with
  | leaf a => simp [entries, Clause.map]
  | group j parts =>
    cases j with
    | and =>
      rw [Clause.map, entries, ofClauses_mapAll h.2]
      simpa using h.1
    | or => simp [entries, Clause.map]

/-- The predicates of a filter mean what is kept of the filter. -/
theorem means_entries (f : Filter) :
    Means (entries (f.remains condition))
      (f.occurrences.filter fun o => (condition o.1).isRendered)
      ((f.kept fun c => (condition c).isRendered).map fun k v => k.holds v) := by
  have hform : ∀ c s, (condition c).form? = some s → conditionText c = s := by
    intro c s h
    rw [conditionText, h]
    rfl
  rw [Filter.remains_eq_kept hform, ← Filter.leaves_kept fun c => (condition c).isRendered]
  cases hk : f.kept fun c => (condition c).isRendered with
  | none => rfl
  | some k =>
    have hfull := Filter.full_of_kept hk
    refine ⟨entries_ne_nil hfull, ?_⟩
    have hm := Clause.means_topTokens hfull fun o : Occurrence => conditionText o.1
    rw [← entriesText_of_full hfull] at hm
    exact hm

end ReadQuery.Influx
