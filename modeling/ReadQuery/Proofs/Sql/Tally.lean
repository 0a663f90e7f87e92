import ReadQuery.Proofs.Sql.Statement

/-!
# Counting the placeholders of arbitrary texts

Hand-written predicates are arbitrary texts, which no scan need get through. What it takes for the
placeholders of texts put together to be those of the texts is less (`Dialect.Tallies`): each text
ends outside of literals. Only where placeholders are numbered a text must not have anything that
could be taken for one of their labels.

Texts that are counted in this way can be joined (`Collects.tallies`), and the placeholders of a
counted text match as many parameters once they have the form of the dialect
(`Tallies.matches_placeholders`). In PostgreSQL a text has to be one that a scan gets through for
that (`exists_scan_of_matches`).
-/

namespace ReadQuery.Sql

open Placeholder

/-- A text with a number of placeholders that ends outside of literals. In PostgreSQL, where
placeholders become labels, the text can be scanned: there is no dollar sign outside of literals and
no digit right behind a placeholder. -/
structure Dialect.Tallies (d : Dialect) (s : String) (n : Nat) : Prop where
  closed : quotedAfter false s.toList = false
  count : Placeholder.count s = n
  scanned : d = .postgres → (scan .bare s.toList).isSome = true

/-- The placeholders of a statement with a number of parameters: labels in order and no question
mark, or question marks. Other than `Dialect.HasPlaceholders` this says nothing of dollar signs
where they are no labels, which hand-written predicates may have. -/
def Dialect.Matches (d : Dialect) (sql : String) (n : Nat) : Prop :=
  match d with
  | .postgres => labels sql = (List.range n).map (fun i => "$" ++ toString (i + 1)) ∧ count sql = 0
  | .mysql | .sqlite | .clickHouse => count sql = n

variable {d : Dialect} {s t : String} {m n : Nat}

/-- A fragment tallies with its placeholders where it closes its literals. -/
lemma tallies_of_scan {q : Place} (hq : q.isQuoted = false)
    (h : scan .bare s.toList = some (q, n)) : d.Tallies s n := by
  obtain ⟨hcount, hclosed⟩ := counts_of_scan h
  exact ⟨hclosed.trans hq, hcount, fun _ => by simp [h]⟩

/-- A fragment without placeholders tallies with no values. -/
lemma tallies_of_inert (h : Inert s) : d.Tallies s 0 :=
  tallies_of_scan rfl h

/-- A fragment in front adds no placeholder to the count. -/
lemma count_prepend (hs : Inert s) (t : String) :
    Placeholder.count (s ++ t) = Placeholder.count t := by
  have hcount : countFrom false s.toList = 0 := (counts_of_scan hs).1
  have hclosed : quotedAfter false s.toList = false := (counts_of_scan hs).2
  unfold Placeholder.count
  rw [String.toList_append, countFrom_append, hcount, hclosed, Nat.zero_add]

namespace Dialect.Tallies

/-- In PostgreSQL, what tallies closes its literals. -/
lemma exists_scan (h : Dialect.postgres.Tallies s n) :
    ∃ q : Place, q.isQuoted = false ∧ scan .bare s.toList = some (q, n) := by
  obtain ⟨⟨q, k⟩, hs⟩ := Option.isSome_iff_exists.1 (h.scanned rfl)
  obtain ⟨hcount, hclosed⟩ := counts_of_scan hs
  obtain rfl : k = n := hcount.symm.trans h.count
  exact ⟨q, hclosed.symm.trans h.closed, hs⟩

/-- No digit follows, which a placeholder at the end would have to be told from. -/
lemma append (hs : d.Tallies s m) (ht : d.Tallies t n) (hd : NoDigitHead t.toList) :
    d.Tallies (s ++ t) (m + n) where
  closed := by rw [String.toList_append, quotedAfter_append, hs.closed, ht.closed]
  count := by
    have hm := hs.count
    have hn := ht.count
    unfold Placeholder.count at hm hn ⊢
    rw [String.toList_append, countFrom_append, hs.closed, hm, hn]
  scanned := by
    rintro rfl
    obtain ⟨q, hq, hqs⟩ := hs.exists_scan
    obtain ⟨r, hr, hrs⟩ := ht.exists_scan
    rw [String.toList_append]
    cases q with
    | quoted => cases hq
    | bare => simp [scan_append hqs hrs]
    | marked =>
      obtain ⟨r', -, hrs'⟩ := scan_marked hd hr hrs
      simp [scan_append hqs hrs']

/-- A fragment may stand in front of what tallies. -/
lemma prepend (hs : Inert s) (ht : d.Tallies t n) : d.Tallies (s ++ t) n where
  closed := by
    rw [String.toList_append, quotedAfter_append, (tallies_of_inert (d := d) hs).closed, ht.closed]
  count := (count_prepend hs t).trans ht.count
  scanned := by
    rintro rfl
    obtain ⟨r, -, hrs⟩ := ht.exists_scan
    rw [String.toList_append]
    simp [scan_append hs hrs]

/-- Once they have the form of the dialect, the placeholders of a text match as many parameters. -/
theorem matches_placeholders (h : d.Tallies s n) : d.Matches (d.placeholders s) n := by
  cases d with
  | postgres =>
    obtain ⟨q, -, hs⟩ := h.exists_scan
    exact ⟨labels_placeholders hs, count_placeholders s⟩
  | mysql => exact h.count
  | sqlite => exact h.count
  | clickHouse => exact h.count

end Dialect.Tallies

/-- The texts of some predicates whose placeholders are counted, and the values they bind. -/
def Dialect.Collects (d : Dialect) (texts : List String) (params : List Value) : Prop :=
  ∃ ps : List Predicate, texts = ps.map (·.sql) ∧ params = ps.flatMap (·.params) ∧
    ∀ p ∈ ps, d.Tallies p.sql p.params.length

namespace Dialect.Collects

variable {texts texts' : List String} {params params' : List Value}

/-- Texts that collect their parameters do so behind each other. -/
lemma append (h : d.Collects texts params) (h' : d.Collects texts' params') :
    d.Collects (texts ++ texts') (params ++ params') := by
  obtain ⟨ps, rfl, rfl, hps⟩ := h
  obtain ⟨qs, rfl, rfl, hqs⟩ := h'
  refine ⟨ps ++ qs, by simp, by simp, ?_⟩
  rw [List.forall_mem_append]
  exact ⟨hps, hqs⟩

/-- Predicates that tally collect their parameters. -/
lemma of_predicates {ps : List Predicate} (h : ∀ p ∈ ps, d.Tallies p.sql p.params.length) :
    d.Collects (ps.map (·.sql)) (ps.flatMap (·.params)) :=
  ⟨ps, rfl, rfl, h⟩

/-- Texts without placeholders collect no parameters. -/
lemma of_inert (h : ∀ t ∈ texts, Inert t) : d.Collects texts [] := by
  refine ⟨texts.map fun t => ⟨t, []⟩, ?_, ?_, ?_⟩
  · simp [Function.comp_def]
  · simp
  · rw [List.forall_mem_map]
    exact fun t ht => tallies_of_inert (h t ht)

/-- Joined texts have the placeholders of the texts. -/
lemma tallies {sep : String} (hsep : Inert sep)
    (hne : ∃ c, sep.toList.head? = some c ∧ c.isDigit = false) (h : d.Collects texts params) :
    d.Tallies (sep.intercalate texts) params.length := by
  obtain ⟨c, hc, hdigit⟩ := hne
  have hd : ∀ s : String, NoDigitHead (sep ++ s).toList := by
    intro s x hx
    rw [String.toList_append, List.head?_append, hc] at hx
    obtain rfl := Option.some.inj hx
    exact hdigit
  obtain ⟨ps, rfl, rfl, hps⟩ := h
  induction ps with
  | nil => exact tallies_of_inert rfl
  | cons p ps ih =>
    rw [List.forall_mem_cons] at hps
    cases ps with
    | nil => simpa using hps.1
    | cons q ps =>
      have hrest := (ih hps.2).prepend hsep
      rw [List.map_cons, List.map_cons, String.intercalate_cons_cons, ← List.map_cons,
        String.append_assoc, List.flatMap_cons, List.length_append]
      exact hps.1.append hrest (hd _)

/-- A clause collects the parameters of its texts. -/
lemma clauseTexts {keyword sep : String} (hk : Inert keyword) (hsep : Inert sep)
    (hne : ∃ c, sep.toList.head? = some c ∧ c.isDigit = false) (h : d.Collects texts params) :
    d.Collects (Select.clauseTexts keyword sep texts) params := by
  have htallies := (h.tallies hsep hne).prepend hk
  unfold Select.clauseTexts
  split
  · next hempty => rwa [List.isEmpty_iff.1 hempty] at h
  · exact ⟨[⟨keyword ++ sep.intercalate texts, params⟩], by simp, by simp, by simpa using htallies⟩

end Dialect.Collects

/-- The placeholders of a scanned text that match some parameters are as many as those. -/
lemma count_of_matches (hs : d = .postgres → (scan .bare s.toList).isSome = true)
    (h : d.Matches (d.placeholders s) n) : Placeholder.count s = n := by
  cases d with
  | postgres =>
    obtain ⟨⟨q, m⟩, hscan⟩ := Option.isSome_iff_exists.1 (hs rfl)
    have hcount : Placeholder.count s = m := (counts_of_scan hscan).1
    have hlabels := (labels_placeholders hscan).symm.trans h.1
    have hlength := congrArg List.length hlabels
    simp only [List.length_map, List.length_range] at hlength
    exact hcount.trans hlength
  | mysql => exact h
  | sqlite => exact h
  | clickHouse => exact h

/-- A text whose labels are the numbers of its placeholders in order can be scanned. -/
lemma exists_scan_of_matches (hn : Placeholder.count s = n)
    (h : Dialect.postgres.Matches (Dialect.postgres.placeholders s) n) :
    ∃ q : Place, scan .bare s.toList = some (q, n) := by
  subst hn
  refine exists_scan_of_labelsFrom (p := .bare) (k := 0) (by simp) ?_
  simpa [labels, Dialect.placeholders, number, Placeholder.count] using h.1

/-- A text is counted if its placeholders match its parameters behind a text without placeholders,
and also with one more parameter if a text with a placeholder is put behind it. -/
theorem tallies_of_matches (pre rest : String) (hpre : Inert pre)
    (hrest : scan .quoted rest.toList = some (.quoted, 0)) (hn : Placeholder.count s = n)
    (hlast : d.Matches (d.placeholders (pre ++ s)) n)
    (hbehind : d.Matches (d.placeholders (pre ++ (s ++ rest))) (n + 1)) : d.Tallies s n := by
  have hscanned : d = .postgres → (scan .bare s.toList).isSome = true := by
    rintro rfl
    obtain ⟨q, hq⟩ := exists_scan_of_matches ((count_prepend hpre s).trans hn) hlast
    rw [String.toList_append] at hq
    obtain ⟨k, hk, -⟩ := scan_of_append hpre hq
    simp [hk]
  refine ⟨?_, hn, hscanned⟩
  -- inside of a literal the placeholder of the text behind would not be one
  by_contra hopen
  rw [Bool.not_eq_false] at hopen
  have hall : d = .postgres → (scan .bare (pre ++ (s ++ rest)).toList).isSome = true := by
    intro hd
    obtain ⟨⟨q, m⟩, hs⟩ := Option.isSome_iff_exists.1 (hscanned hd)
    obtain rfl := Place.eq_quoted ((counts_of_scan hs).2.symm.trans hopen)
    have hboth := scan_append hpre (scan_append hs hrest)
    simp [hboth]
  have hmore := count_of_matches hall hbehind
  have hnone : countFrom true rest.toList = 0 := (counts_of_scan hrest).1
  rw [count_prepend hpre] at hmore
  unfold Placeholder.count at hmore hn
  rw [String.toList_append, countFrom_append, hopen, hnone] at hmore
  omega

end ReadQuery.Sql
