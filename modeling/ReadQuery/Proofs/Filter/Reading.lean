import ReadQuery.Proofs.Filter.Walk

/-!
# Reading what a filter is compiled to

Truth values for the output of the walk. The conditions of a filter are told apart by their place
(`Occurrence`), and what is kept of a filter is the clause of those that have a form (`kept`).

A text of conditions, connectives and parentheses is read from left to right as a reader of queries
does it: parentheses are honoured and `AND` binds tighter than `OR` (`Token.value?`). The texts in
which clauses are written are read as their truth values (`Clause.value?_topTokens`): parts of a
group are parenthesized unless they are single, and a conjunction at the root needs no parentheses.
-/

namespace ReadQuery

variable {α β : Type}

/-- A live condition of a filter and its number among them. -/
abbrev Occurrence := Condition × Nat

/-- What an output means: its truth value under an assignment to the conditions in it. -/
abbrev Meaning := (Occurrence → Bool) → Bool

namespace Filter

/-- The live conditions with their numbers. -/
def occurrences (f : Filter) : List Occurrence :=
  f.liveConditions.zipIdx

/-- The tree of a filter with its conditions numbered. -/
def numbered (f : Filter) : Option (Clause Occurrence) :=
  f.tree.map (Clause.zipIdx 0)

/-- What is left of the tree if conditions without the property are left out. -/
def kept (p : Condition → Bool) (f : Filter) : Option (Clause Occurrence) :=
  f.numbered.bind (Clause.prune (Option.guard fun o => p o.1))

/-- What remains of a filter is what is kept, in the form of a backend. -/
lemma remains_eq_kept {render : Condition → Compiled α} {form : Condition → α}
    (hform : ∀ c a, (render c).form? = some a → form c = a) (f : Filter) :
    f.remains render
      = (f.kept fun c => (render c).isRendered).map (Clause.map fun o => form o.1) := by
  rw [remains_eq, kept, numbered]
  cases f.tree with
  | none => rfl
  | some k =>
    have hk := Clause.map_fst_zipIdx 0 k
    have hleaf : ((fun c => (render c).form?) ∘ Prod.fst : Occurrence → Option α)
        = fun o => (Option.guard (fun o : Occurrence => (render o.1).isRendered) o).map
            fun o => form o.1 := by
      funext o
      cases h : (render o.1).form? with
      | none => simp [Option.guard, Compiled.isRendered, h]
      | some a => simp [Option.guard, Compiled.isRendered, h, hform _ _ h]
    rw [Option.bind_some, Option.map_some, Option.bind_some, ← Clause.map_prune, ← hleaf,
      ← Clause.prune_map, hk]

/-- The leaves of what is kept are the occurrences with the property. -/
lemma leaves_kept (p : Condition → Bool) (f : Filter) :
    ((f.kept p).map Clause.leaves).getD [] = f.occurrences.filter fun o => p o.1 := by
  have hl := leaves_tree f
  rw [kept, numbered, occurrences, ← hl]
  cases f.tree with
  | none => rfl
  | some k =>
    have h := Clause.leaves_prune (Option.guard fun o : Occurrence => p o.1) (k.zipIdx 0)
    rw [Clause.leaves_zipIdx] at h
    rw [← List.filterMap_eq_filter]
    exact h

/-- Nothing that is kept has an empty group. -/
lemma full_of_kept {p : Condition → Bool} {f : Filter} {k : Clause Occurrence}
    (h : f.kept p = some k) : k.Full := by
  obtain ⟨k', -, hk⟩ := Option.bind_eq_some_iff.1 h
  exact Clause.full_of_prune hk

/-- The leaves of the numbered tree are live conditions. -/
lemma mem_liveConditions {f : Filter} {k : Clause Occurrence} (h : f.numbered = some k) :
    ∀ o ∈ k.leaves, o.1 ∈ f.liveConditions := by
  intro o ho
  obtain ⟨t, ht, rfl⟩ := Option.map_eq_some_iff.1 h
  have hl := f.leaves_tree
  rw [ht] at hl
  rw [Clause.leaves_zipIdx] at ho
  rw [← hl]
  exact List.fst_mem_of_mem_zipIdx ho

/-- What is kept of a filter depends on its live conditions only. -/
lemma kept_congr {p q : Condition → Bool} {f : Filter} (h : ∀ c ∈ f.liveConditions, p c = q c) :
    f.kept p = f.kept q := by
  rw [kept, kept]
  cases hk : f.numbered with
  | none => rfl
  | some k =>
    refine Clause.prune_congr fun o ho => ?_
    simp only [Option.guard, h _ (mem_liveConditions hk o ho)]

/-- An empty filter has no live conditions. -/
lemma liveConditions_of_isEmpty {f : Filter} (h : f.isEmpty = true) : f.liveConditions = [] := by
  rw [← leaves_tree, tree_eq_none_iff.2 h]
  rfl

/-- Nothing of an empty filter is kept. -/
lemma kept_of_isEmpty {p : Condition → Bool} {f : Filter} (h : f.isEmpty = true) :
    f.kept p = Option.none := by
  rw [kept, numbered, tree_eq_none_iff.2 h]
  rfl

end Filter

/-- A part of a text of conditions. -/
inductive Token (α : Type) where
  | atom (a : α)
  | join (j : Junction)
  | opening
  | closing
  deriving DecidableEq, Repr

namespace Token

/-- The conditions in a text, in order. -/
def atoms : List (Token α) → List α
  | [] => []
  | atom a :: ts => a :: atoms ts
  | join _ :: ts | opening :: ts | closing :: ts => atoms ts

/-- How a token is written, given the texts of the conditions. -/
def text (form : α → String) : Token α → String
  | atom a => form a
  | join .and => " AND "
  | join .or => " OR "
  | opening => "("
  | closing => ")"

/-- How tokens are written one after the other. -/
def spell (form : α → String) : List (Token α) → String
  | [] => ""
  | t :: ts => t.text form ++ spell form ts

/-- What has been read between two parentheses: the value of the disjunction so far, and of the
conjunction that is being read. -/
abbrev Frame := Bool × Bool

/-- The value of a text that is read from left to right. `operand` tells whether an operand comes
next, and `outer` are the frames of the parentheses that are open. A text that is no expression has
no value. -/
def valueFrom (v : α → Bool) (operand : Bool) (frame : Frame) (outer : List Frame) :
    List (Token α) → Option Bool
  | [] => if operand = false ∧ outer = [] then some (frame.1 || frame.2) else none
  | atom a :: ts =>
    if operand then valueFrom v false (frame.1, frame.2 && v a) outer ts else none
  | opening :: ts =>
    if operand then valueFrom v true (false, true) (frame :: outer) ts else none
  | join .and :: ts =>
    if operand then none else valueFrom v true frame outer ts
  | join .or :: ts =>
    if operand then none else valueFrom v true (frame.1 || frame.2, true) outer ts
  | closing :: ts =>
    match operand, outer with
    | false, above :: outer =>
      valueFrom v false (above.1, above.2 && (frame.1 || frame.2)) outer ts
    | _, _ => none

/-- The truth value of a whole text. -/
def value? (v : α → Bool) (ts : List (Token α)) : Option Bool :=
  valueFrom v true (false, true) [] ts

/-- The conditions in two texts behind each other. -/
lemma atoms_append (ts us : List (Token α)) : atoms (ts ++ us) = atoms ts ++ atoms us := by
  induction ts with
  | nil => rfl
  | cons t ts ih => cases t <;> simp [atoms, ih]

/-- Two texts behind each other are spelled one after the other. -/
lemma spell_append (form : α → String) (ts us : List (Token α)) :
    spell form (ts ++ us) = spell form ts ++ spell form us := by
  induction ts with
  | nil => simp [spell]
  | cons t ts ih => simp [spell, ih, String.append_assoc]

end Token

namespace Clause

open Token

mutual

/-- The tokens of a clause as an operand: a group of more than one part is parenthesized. -/
def tokens : Clause α → List (Token α)
  | leaf a => [.atom a]
  | group j parts =>
    if parts.length = 1 then tokensOfAll j parts
    else .opening :: (tokensOfAll j parts ++ [.closing])

/-- The tokens of operands joined. -/
def tokensOfAll (j : Junction) : List (Clause α) → List (Token α)
  | [] => []
  | c :: cs => tokens c ++ tokensBehind j cs

/-- The tokens of operands behind another one. -/
def tokensBehind (j : Junction) : List (Clause α) → List (Token α)
  | [] => []
  | c :: cs => .join j :: (tokens c ++ tokensBehind j cs)

end

/-- The tokens of a whole text: the parts of a conjunction stand for themselves. -/
def topTokens : Clause α → List (Token α)
  | leaf a => tokens (leaf a)
  | group .and parts => tokensOfAll .and parts
  | group .or parts => tokens (group .or parts)

mutual

/-- The conditions in the tokens of a clause are its leaves. -/
lemma atoms_tokens : ∀ k : Clause α, atoms k.tokens = k.leaves
  | leaf a => rfl
  | group j parts => by
    have h := atoms_tokensOfAll j parts
    rw [tokens, leaves]
    split
    · exact h
    · rw [atoms, atoms_append, h]
      exact List.append_nil _

/-- The conditions in the tokens of operands are their leaves. -/
lemma atoms_tokensOfAll (j : Junction) : ∀ ks : List (Clause α),
    atoms (tokensOfAll j ks) = leavesOfAll ks
  | [] => rfl
  | k :: ks => by
    rw [tokensOfAll, atoms_append, atoms_tokens k, atoms_tokensBehind j ks, leavesOfAll]

/-- The conditions in the tokens of operands behind another one are their leaves. -/
lemma atoms_tokensBehind (j : Junction) : ∀ ks : List (Clause α),
    atoms (tokensBehind j ks) = leavesOfAll ks
  | [] => rfl
  | k :: ks => by
    rw [tokensBehind, atoms, atoms_append, atoms_tokens k, atoms_tokensBehind j ks, leavesOfAll]

end

/-- The conditions in the tokens of a whole text are the leaves. -/
lemma atoms_topTokens (k : Clause α) : atoms k.topTokens = k.leaves := by
  cases k with
  | leaf a => exact atoms_tokens (leaf a)
  | group j parts =>
    cases j with
    | and => exact atoms_tokensOfAll .and parts
    | or => exact atoms_tokens (group .or parts)

/-- Operands behind a text are spelled with the connective between them. -/
lemma spell_tokensBehind (form : α → String) (j : Junction) (s : String) (ks : List (Clause α)) :
    s ++ spell form (tokensBehind j ks)
      = ((Token.join j : Token α).text form).intercalate
          (s :: ks.map fun k => spell form k.tokens) := by
  induction ks generalizing s with
  | nil => simp [tokensBehind, spell]
  | cons k ks ih =>
    rw [tokensBehind, spell, spell_append, ih, List.map_cons, String.intercalate_cons_cons,
      String.append_assoc]

/-- Operands are spelled with the connective between them. -/
lemma spell_tokensOfAll (form : α → String) (j : Junction) (ks : List (Clause α)) :
    spell form (tokensOfAll j ks)
      = ((Token.join j : Token α).text form).intercalate
          (ks.map fun k => spell form k.tokens) := by
  cases ks with
  | nil => simp [tokensOfAll, spell]
  | cons k ks => rw [tokensOfAll, spell_append, spell_tokensBehind, List.map_cons]

/-- A group is written between parentheses unless it has a single part. -/
lemma spell_group (form : α → String) (j : Junction) (ks : List (Clause α)) :
    spell form (group j ks).tokens
      = let s := ((Token.join j : Token α).text form).intercalate
          (ks.map fun k => spell form k.tokens)
        if ks.length = 1 then s else "(" ++ s ++ ")" := by
  rw [tokens, ← spell_tokensOfAll]
  split
  · rfl
  · simp [spell, spell_append, text, String.append_assoc]

variable {v : α → Bool}

mutual

/-- An operand is read as its truth value, whatever stands behind it. -/
lemma valueFrom_tokens : ∀ {k : Clause α}, k.Full → ∀ frame outer ts,
    valueFrom v true frame outer (k.tokens ++ ts)
      = valueFrom v false (frame.1, frame.2 && k.holds v) outer ts
  | leaf a, _, _, _, _ => by simp [tokens, valueFrom, holds]
  | group .and parts, h, frame, outer, ts => by
    rw [tokens, holds]
    split
    · -- without parentheses the parts go on with the conjunction that is being read
      exact valueFrom_conjunction h.1 h.2 _ _ _
    · simp only [List.cons_append, List.append_assoc, List.nil_append, valueFrom, if_true]
      rw [valueFrom_conjunction h.1 h.2]
      simp [valueFrom]
  | group .or parts, h, frame, outer, ts => by
    rw [tokens, holds]
    split
    · next hl =>
      -- without parentheses there is a single part, and no `OR` to be read wrongly
      obtain ⟨k, rfl⟩ := List.length_eq_one_iff.1 hl
      have hk := valueFrom_tokens h.2.1 frame outer ts
      simpa [tokensOfAll, tokensBehind, anyHolds] using hk
    · simp only [List.cons_append, List.append_assoc, List.nil_append, valueFrom, if_true]
      obtain ⟨frame', hframe, hread⟩ := valueFrom_disjunction h.1 h.2 false
        (frame :: outer) (.closing :: ts)
      rw [hread]
      simp [valueFrom, hframe]

/-- Operands of a conjunction are read into the conjunction that is open. -/
lemma valueFrom_conjunction : ∀ {ks : List (Clause α)}, ks ≠ [] → AllFull ks →
    ∀ frame outer ts, valueFrom v true frame outer (tokensOfAll .and ks ++ ts)
      = valueFrom v false (frame.1, frame.2 && allHold v ks) outer ts
  | [], h, _, _, _, _ => absurd rfl h
  | k :: ks, _, h, frame, outer, ts => by
    rw [tokensOfAll, List.append_assoc, valueFrom_tokens h.1, valueFrom_conjuncts h.2, allHold]
    simp [Bool.and_assoc]

/-- Further operands of a conjunction are read into the conjunction that is open. -/
lemma valueFrom_conjuncts : ∀ {ks : List (Clause α)}, AllFull ks → ∀ frame outer ts,
    valueFrom v false frame outer (tokensBehind .and ks ++ ts)
      = valueFrom v false (frame.1, frame.2 && allHold v ks) outer ts
  | [], _, _, _, _ => by simp [tokensBehind, allHold]
  | k :: ks, h, frame, outer, ts => by
    rw [tokensBehind, List.cons_append, List.append_assoc, valueFrom]
    simp only [Bool.false_eq_true, if_false]
    rw [valueFrom_tokens h.1, valueFrom_conjuncts h.2, allHold]
    simp [Bool.and_assoc]

/-- Operands joined by `OR` are read as a disjunction if no conjunction has begun before them. -/
lemma valueFrom_disjunction : ∀ {ks : List (Clause α)}, ks ≠ [] → AllFull ks → ∀ o outer ts,
    ∃ frame : Frame, (frame.1 || frame.2) = (o || anyHolds v ks) ∧
      valueFrom v true (o, true) outer (tokensOfAll .or ks ++ ts)
        = valueFrom v false frame outer ts
  | [], h, _, _, _, _ => absurd rfl h
  | k :: ks, _, h, o, outer, ts => by
    obtain ⟨frame, hframe, hread⟩ := valueFrom_disjuncts h.2 (o, k.holds v) outer ts
    refine ⟨frame, ?_, ?_⟩
    · rw [hframe, anyHolds, Bool.or_assoc]
    · rw [tokensOfAll, List.append_assoc, valueFrom_tokens h.1, Bool.true_and, hread]

/-- Further operands of a disjunction are read into the disjunction that is open. -/
lemma valueFrom_disjuncts : ∀ {ks : List (Clause α)}, AllFull ks → ∀ frame outer ts,
    ∃ frame' : Frame, (frame'.1 || frame'.2) = (frame.1 || frame.2 || anyHolds v ks) ∧
      valueFrom v false frame outer (tokensBehind .or ks ++ ts)
        = valueFrom v false frame' outer ts
  | [], _, frame, _, _ => ⟨frame, by simp [anyHolds], rfl⟩
  | k :: ks, h, frame, outer, ts => by
    obtain ⟨frame', hframe, hread⟩ :=
      valueFrom_disjuncts h.2 (frame.1 || frame.2, k.holds v) outer ts
    refine ⟨frame', ?_, ?_⟩
    · rw [hframe, anyHolds, Bool.or_assoc]
    · rw [tokensBehind, List.cons_append, List.append_assoc, valueFrom]
      simp only [Bool.false_eq_true, if_false]
      rw [valueFrom_tokens h.1, Bool.true_and, hread]

end

/-- The text of a clause is read as its truth value. -/
theorem value?_topTokens {k : Clause α} (h : k.Full) : value? v k.topTokens = some (k.holds v) := by
  have hoperand : value? v k.tokens = some (k.holds v) := by
    have hr := valueFrom_tokens (v := v) h (false, true) [] []
    simpa [value?, valueFrom] using hr
  cases k with
  | leaf a => exact hoperand
  | group j parts =>
    cases j with
    | and =>
      have hr := valueFrom_conjunction (v := v) h.1 h.2 (false, true) [] []
      simpa [value?, valueFrom, holds, topTokens] using hr
    | or => exact hoperand

end Clause

/-- A text means `m` if it can be taken apart into the texts of the conditions, each of them one
atom, and connectives and parentheses that are read as `m`. -/
def Text.Means (form : α → String) (atoms : List α) (m : (α → Bool) → Bool) (s : String) : Prop :=
  ∃ ts : List (Token α), Token.atoms ts = atoms ∧ Token.spell form ts = s ∧
    ∀ v, Token.value? v ts = some (m v)

/-- The spelling of a clause means the truth value of the clause. -/
lemma Clause.means_topTokens {k : Clause α} (h : k.Full) (form : α → String) :
    Text.Means form k.leaves (fun v => k.holds v) (Token.spell form k.topTokens) :=
  ⟨k.topTokens, k.atoms_topTokens, rfl, fun _ => value?_topTokens h⟩

end ReadQuery
