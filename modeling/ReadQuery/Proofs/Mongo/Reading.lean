import ReadQuery.Mongo.Filter
import ReadQuery.Proofs.Filter.Reading

/-!
# Reading filters in MongoDB

What the document of a filter means: it is the document of a clause with the documents of the
conditions at its leaves, in which `$and` and `$or` hold arrays of documents (`document`). A group
with a single part is written as this part, which changes neither the conditions nor the truth value
(`collapse`), and so the document is read as the clause that is kept of the filter
(`means_ofClause`).
-/

namespace ReadQuery.Mongo

variable {α : Type}

/-- The document of a condition. -/
def conditionDocument (c : Condition) : Document :=
  ((condition c).form?).getD []

mutual

/-- The document of a clause, given the documents of its leaves. -/
def document (form : α → Document) : Clause α → Document
  | .leaf a => form a
  | .group j parts => [(junctionName j, .array ((documents form parts).map .document))]

/-- The documents of some clauses. -/
def documents (form : α → Document) : List (Clause α) → List Document
  | [] => []
  | k :: ks => document form k :: documents form ks

end

/-- What the document of a filter means: nothing at all, or the clause that it is the document of,
with the documents of the conditions as leaves. -/
def Means (d : Option Document) (atoms : List Occurrence) : Option Meaning → Prop
  | none => d = none
  | some m => ∃ k : Clause Occurrence, k.leaves = atoms ∧
      d = some (document (fun o => conditionDocument o.1) k) ∧ ∀ v, k.holds v = m v

mutual

/-- The clause without groups that have a single part. -/
def collapse : Clause α → Clause α
  | .leaf a => .leaf a
  | .group _ [k] => collapse k
  | .group j parts => .group j (collapseAll parts)

/-- Some clauses without groups that have a single part. -/
def collapseAll : List (Clause α) → List (Clause α)
  | [] => []
  | k :: ks => collapse k :: collapseAll ks

end

variable {form : α → Document}

/-- A group of another number of parts than one stays a group. -/
lemma collapse_group (j : Junction) {parts : List (Clause α)} (h : ∀ k, parts ≠ [k]) :
    collapse (.group j parts) = .group j (collapseAll parts) := by
  cases parts with
  | nil => rfl
  | cons k ks =>
    cases ks with
    | nil => exact absurd rfl (h k)
    | cons l ks => rfl

mutual

/-- Collapsing keeps the leaves. -/
lemma leaves_collapse : ∀ k : Clause α, (collapse k).leaves = k.leaves
  | .leaf a => rfl
  | .group j [] => rfl
  | .group j [k] => by
    rw [collapse, leaves_collapse k]
    simp [Clause.leaves, Clause.leavesOfAll]
  | .group j (k :: l :: ks) => by
    rw [collapse_group j (by simp), Clause.leaves, Clause.leaves]
    exact leavesOfAll_collapseAll (k :: l :: ks)

/-- Collapsing some clauses keeps their leaves. -/
lemma leavesOfAll_collapseAll : ∀ ks : List (Clause α),
    Clause.leavesOfAll (collapseAll ks) = Clause.leavesOfAll ks
  | [] => rfl
  | k :: ks => by
    rw [collapseAll, Clause.leavesOfAll, Clause.leavesOfAll, leaves_collapse k,
      leavesOfAll_collapseAll ks]

end

variable {v : α → Bool}

mutual

/-- Collapsing keeps the truth value. -/
lemma holds_collapse : ∀ k : Clause α, (collapse k).holds v = k.holds v
  | .leaf a => rfl
  | .group j [] => rfl
  | .group .and [k] => by
    rw [collapse, holds_collapse k]
    simp [Clause.holds, Clause.allHold]
  | .group .or [k] => by
    rw [collapse, holds_collapse k]
    simp [Clause.holds, Clause.anyHolds]
  | .group .and (k :: l :: ks) => by
    rw [collapse_group _ (by simp), Clause.holds, Clause.holds]
    exact (hold_collapseAll (k :: l :: ks)).1
  | .group .or (k :: l :: ks) => by
    rw [collapse_group _ (by simp), Clause.holds, Clause.holds]
    exact (hold_collapseAll (k :: l :: ks)).2

/-- Collapsing some clauses keeps whether all or one of them hold. -/
lemma hold_collapseAll : ∀ ks : List (Clause α),
    Clause.allHold v (collapseAll ks) = Clause.allHold v ks ∧
      Clause.anyHolds v (collapseAll ks) = Clause.anyHolds v ks
  | [] => ⟨rfl, rfl⟩
  | k :: ks => by
    obtain ⟨hall, hany⟩ := hold_collapseAll ks
    refine ⟨?_, ?_⟩
    · rw [collapseAll, Clause.allHold, Clause.allHold, holds_collapse k, hall]
    · rw [collapseAll, Clause.anyHolds, Clause.anyHolds, holds_collapse k, hany]

end

mutual

/-- A clause is written as the document of the clause without groups that have a single part. -/
lemma ofClause_map : ∀ {k : Clause α}, k.Full →
    ofClause (k.map form) = document form (collapse k)
  | .leaf a, _ => rfl
  | .group j [], h => absurd rfl h.1
  | .group j [k], h => by
    rw [collapse, ← ofClause_map h.2.1]
    rfl
  | .group j (k :: l :: ks), h => by
    have hparts : ofClauses (Clause.mapAll form (k :: l :: ks))
        = documents form (collapseAll (k :: l :: ks)) := ofClauses_mapAll h.2
    rw [collapse_group j (by simp), document, Clause.map, ofClause, hparts]
    rfl

/-- The documents of some clauses are those of the collapsed clauses. -/
lemma ofClauses_mapAll : ∀ {ks : List (Clause α)}, Clause.AllFull ks →
    ofClauses (Clause.mapAll form ks) = documents form (collapseAll ks)
  | [], _ => rfl
  | k :: ks, h => by
    rw [Clause.mapAll, ofClauses, ofClause_map h.1, ofClauses_mapAll h.2, collapseAll, documents]

end

/-- The document of a filter means what is kept of the filter. -/
theorem means_ofClause (f : Filter) :
    Means ((f.remains condition).map ofClause)
      (f.occurrences.filter fun o => (condition o.1).isRendered)
      ((f.kept fun c => (condition c).isRendered).map fun k v => k.holds v) := by
  have hform : ∀ c d, (condition c).form? = some d → conditionDocument c = d := by
    intro c d h
    rw [conditionDocument, h]
    rfl
  rw [Filter.remains_eq_kept hform, ← Filter.leaves_kept fun c => (condition c).isRendered]
  cases hk : f.kept fun c => (condition c).isRendered with
  | none => rfl
  | some k =>
    refine ⟨collapse k, leaves_collapse k, ?_, fun v => holds_collapse k⟩
    simp only [Option.map_some, ofClause_map (Filter.full_of_kept hk)]

end ReadQuery.Mongo
