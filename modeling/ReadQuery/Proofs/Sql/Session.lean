import ReadQuery.Proofs.Sql.Tally

/-!
# Sequences of builder calls

All calls that there are on a builder of statements (`Call`), among them hand-written predicates,
and the builder that a sequence of them leaves, whether they fail or not (`Select.run`).

A hand-written predicate is accepted if it has as many placeholders as values. That is enough for
the placeholders of the whole statement to match its parameters exactly if each of the accepted
predicates ends outside of literals and, in PostgreSQL, has nothing that could be taken for a label:
this is the main statement, `matches_iff_tallies`. From left to right it is shown by a predicate
that is added behind the hand-written one, from right to left by an invariant that every call keeps
(`Balanced`).
-/

namespace ReadQuery.Sql

open Placeholder

/-- A call on a builder of statements. -/
inductive Call : Dialect → Type
  | columns {d : Dialect} (names : List String) : Call d
  | filter {d : Dialect} (f : Filter) (policy : SkipPolicy) : Call d
  | filterRaw {d : Dialect} (condition : String) (params : List Value) : Call d
  | groupBy {d : Dialect} (column : String) : Call d
  | orderBy {d : Dialect} (policy : SkipPolicy) (entries : List SortEntry) : Call d
  | paginate {d : Dialect} (w : Page.Window) : Call d
  | limit {d : Dialect} (n : Int64) : Call d
  | offset {d : Dialect} (n : Int64) : Call d
  | sample (ratio : Number.Double) : Call .clickHouse
  | final : Call .clickHouse
  | limitBy (n : Int64) (columns : List String) : Call .clickHouse
  | prefilter (f : Filter) (policy : SkipPolicy) : Call .clickHouse
  | prefilterRaw (condition : String) (params : List Value) : Call .clickHouse

/-- The hand-written predicate that a call adds, if it is accepted. -/
def Call.raw? {d : Dialect} : Call d → Option Predicate
  | .filterRaw condition params | .prefilterRaw condition params =>
    (Select.rawPredicate condition params).toOption
  | _ => none

/-- An accepted predicate is taken as it is, with as many values as placeholders. -/
lemma Select.rawPredicate_eq_ok {condition : String} {params : List Value} {p : Predicate}
    (hraw : rawPredicate condition params = .ok p) :
    p = ⟨condition, params⟩ ∧ count condition = params.length := by
  obtain ⟨c, hc, h⟩ := bind_eq_ok.1 hraw
  obtain ⟨-, rfl⟩ := RawCondition.ensure_eq_ok_iff.1 hc
  by_cases hn : count c = params.length
  · exact ⟨(Except.ok.inj ((if_neg (not_not.2 hn)).symm.trans h)).symm, hn⟩
  · cases (if_pos hn).symm.trans h

/-- The hand-written predicate of a call has been accepted. -/
lemma Call.rawPredicate_of_raw? {d : Dialect} {k : Call d} {p : Predicate} (h : k.raw? = some p) :
    Select.rawPredicate p.sql p.params = .ok p := by
  have haccepted : ∀ {condition params}, (Select.rawPredicate condition params).toOption = some p →
      Select.rawPredicate p.sql p.params = .ok p := by
    intro condition params hp
    have hraw := eq_ok_of_toOption hp
    obtain ⟨rfl, -⟩ := Select.rawPredicate_eq_ok hraw
    exact hraw
  cases k with
  | filterRaw condition params => exact haccepted h
  | prefilterRaw condition params => exact haccepted h
  | _ => cases h

namespace Select

/-- The builder that a call leaves. -/
def apply {d : Dialect} (s : Select d) : Call d → Select d
  | .columns names => s.addColumns names
  | .filter f policy => (s.filter f policy).state
  | .filterRaw condition params => (s.filterRaw condition params).state
  | .groupBy column => s.addGroup column
  | .orderBy policy entries => (s.orderBy policy entries).state
  | .paginate w => (s.paginate w).state
  | .limit n => s.withLimit n
  | .offset n => s.withOffset n
  | .sample ratio => s.withSample ratio
  | .final => s.final
  | .limitBy n columns => s.withLimitBy n columns
  | .prefilter f policy => (s.prefilter f policy).state
  | .prefilterRaw condition params => (s.prefilterRaw condition params).state

/-- The builder that a sequence of calls leaves. -/
def run {d : Dialect} (s : Select d) (calls : List (Call d)) : Select d :=
  calls.foldl apply s

variable {d : Dialect} {s : Select d}

/-- The placeholders of the predicates under construction are counted, and the ordering is neat. -/
structure Balanced (s : Select d) : Prop where
  conditions : d.Collects s.conditions s.params
  prewhere : d.Collects s.prewhere s.prewhereParams
  ordering : ∀ e ∈ s.ordering, Neat d e

/-- A new builder has nothing to count. -/
lemma balanced_fromTable (table : String) : (fromTable table : Select d).Balanced where
  conditions := .of_inert (by simp [fromTable])
  prewhere := .of_inert (by simp [fromTable])
  ordering := by simp [fromTable]

/-- Predicates that tally may be added. -/
lemma Balanced.pushAll {ps : List Predicate} (h : s.Balanced)
    (hp : ∀ p ∈ ps, d.Tallies p.sql p.params.length) : (s.pushAll ps).Balanced := by
  rw [pushAll_eq]
  exact { h with conditions := h.conditions.append (.of_predicates hp) }

/-- A predicate that tallies may be added. -/
lemma Balanced.push {p : Predicate} (h : s.Balanced) (hp : d.Tallies p.sql p.params.length) :
    (s.push p).Balanced := by
  have hone : ∀ q ∈ [p], d.Tallies q.sql q.params.length := by simpa using hp
  exact h.pushAll hone

/-- Adding predicates one by one to the `PREWHERE` clause adds their texts and their values. -/
lemma foldl_pushPrewhere (s : Select .clickHouse) (ps : List Predicate) :
    ps.foldl pushPrewhere s = { s with
      prewhere := s.prewhere ++ ps.map (·.sql)
      prewhereParams := s.prewhereParams ++ ps.flatMap (·.params) } := by
  induction ps generalizing s with
  | nil => simp
  | cons p ps ih =>
    rw [List.foldl_cons, ih]
    simp [pushPrewhere, List.append_assoc]

/-- Predicates that tally may be added to the `PREWHERE` clause. -/
lemma Balanced.pushAllPrewhere {s : Select .clickHouse} {ps : List Predicate} (h : s.Balanced)
    (hp : ∀ p ∈ ps, Dialect.clickHouse.Tallies p.sql p.params.length) :
    (ps.foldl pushPrewhere s).Balanced := by
  rw [foldl_pushPrewhere]
  exact { h with prewhere := h.prewhere.append (.of_predicates hp) }

/-- The entries of a filter bind their values. -/
lemma tallies_of_mem_entries {policy : SkipPolicy} {f : Filter} {t : Tree}
    (ht : (Sql.filter d policy f).result = .ok t) :
    ∀ p ∈ t.entries, d.Tallies p.sql p.params.length := by
  have hsettle : (Sql.filter d policy f).result = policy.settle
      (Filter.firstSkipped? (condition d) f.liveConditions)
      (Tree.ofClause? (f.remains (condition d))) := by
    simp only [Sql.filter, Traced.result_bind, Traced.result_pure, Filter.compile_result,
      SkipPolicy.settle_map]
  obtain rfl := SkipPolicy.of_settle_eq_ok (hsettle.symm.trans ht)
  have hbinds := Tree.binds_entries fun _ hp => (sound_of_mem_fragments (d := d) (f := f) hp).binds
  intro p hp
  obtain ⟨q, hq, hs⟩ := hbinds p hp
  exact tallies_of_scan hq hs

/-- The predicates of a filter tally. -/
lemma Balanced.filter {f : Filter} {policy : SkipPolicy} (h : s.Balanced) :
    (s.filter f policy).state.Balanced :=
  Step.keeps_of_atomic_bind h fun _ ht => h.pushAll (tallies_of_mem_entries ht)

/-- The predicates of a filter in front tally. -/
lemma Balanced.prefilter {s : Select .clickHouse} {f : Filter} {policy : SkipPolicy}
    (h : s.Balanced) : (s.prefilter f policy).state.Balanced :=
  Step.keeps_of_atomic_bind h fun _ ht => h.pushAllPrewhere (tallies_of_mem_entries ht)

/-- An ordering adds no placeholders. -/
lemma Balanced.orderBy {policy : SkipPolicy} {es : List SortEntry} (h : s.Balanced) :
    (s.orderBy policy es).state.Balanced := by
  induction es generalizing s with
  | nil => exact h
  | cons e es ih =>
    have hentry := SkipPolicy.accept_result policy e.field (orderEntry d e)
    simp only [Select.orderBy]
    split
    · exact h
    · rw [Step.state_after]
      exact ih h
    · next entry hr =>
      rw [hr] at hentry
      have hform := SkipPolicy.of_settle_eq_ok hentry.symm
      have hneat : Neat d entry :=
        admits_orderEntry (admits_neat d) (Compiled.form?_eq_some.1 hform)
      have hnext : ({ s with ordering := s.ordering ++ [entry] } : Select d).Balanced := by
        refine ⟨h.conditions, h.prewhere, ?_⟩
        rw [List.forall_mem_append]
        exact ⟨h.ordering, by simpa using hneat⟩
      rw [Step.state_after]
      exact ih hnext

/-- The predicate of a cursor tallies. -/
lemma Balanced.paginate {w : Page.Window} (h : s.Balanced) : (s.paginate w).state.Balanced := by
  have hresult := paginate_result s w
  refine Step.keeps_of_atomic h fun s' hs' => ?_
  rw [Select.paginate, Step.result_atomic, hs'] at hresult
  obtain ⟨⟨⟩, hcheck, hs'⟩ := bind_eq_ok.1 hresult.symm
  obtain rfl := Except.ok.inj hs'
  have hcursor : ∀ p ∈ w.after.toList.map cursorPredicate, d.Tallies p.sql p.params.length := by
    cases hw : w.after with
    | none => simp
    | some cursor =>
      have hplain := Identifier.plain_of_isSafe (Identifier.isSafe_of_isProper
        (Page.Window.isProper_of_check hw hcheck))
      obtain ⟨q, hq, hs⟩ := (sound_cursorPredicate (d := d) hplain).binds
      simpa using tallies_of_scan hq hs
  have hpushed := h.pushAll hcursor
  exact ⟨hpushed.conditions, hpushed.prewhere, hpushed.ordering⟩

/-- A hand-written predicate may be added if it tallies. -/
lemma Balanced.filterRaw {condition : String} {params : List Value} (h : s.Balanced)
    (hp : ∀ p, rawPredicate condition params = .ok p → d.Tallies p.sql p.params.length) :
    (s.filterRaw condition params).state.Balanced :=
  Step.keeps_of_atomic_bind h fun p hraw => h.push (hp p hraw)

/-- A hand-written predicate in front may be added if it tallies. -/
lemma Balanced.prefilterRaw {s : Select .clickHouse} {condition : String} {params : List Value}
    (h : s.Balanced) (hp : ∀ p, rawPredicate condition params = .ok p →
      Dialect.clickHouse.Tallies p.sql p.params.length) :
    (s.prefilterRaw condition params).state.Balanced := by
  refine Step.keeps_of_atomic_bind h fun p hraw => ?_
  have hone : ∀ q ∈ [p], Dialect.clickHouse.Tallies q.sql q.params.length := by
    simpa using hp p hraw
  exact h.pushAllPrewhere hone

/-- Every call keeps the placeholders counted if those of the hand-written predicate that it may add
are. -/
lemma Balanced.apply {k : Call d} (h : s.Balanced)
    (hk : ∀ p, k.raw? = some p → d.Tallies p.sql p.params.length) : (s.apply k).Balanced := by
  have hraw : ∀ {condition params p}, rawPredicate condition params = .ok p →
      (rawPredicate condition params).toOption = some p := fun hp => by
    rw [hp]
    rfl
  cases k with
  | filter f policy => exact h.filter
  | filterRaw condition params => exact h.filterRaw fun p hp => hk p (hraw hp)
  | orderBy policy entries => exact h.orderBy
  | paginate w => exact h.paginate
  | prefilter f policy => exact h.prefilter
  | prefilterRaw condition params => exact h.prefilterRaw fun p hp => hk p (hraw hp)
  -- the other clauses have neither predicates nor an ordering
  | columns _ | groupBy _ | limit _ | offset _ | sample _ | final | limitBy _ _ =>
    exact ⟨h.conditions, h.prewhere, h.ordering⟩

/-- The predicates of a run are counted, if the hand-written ones tally. -/
lemma Balanced.run {calls : List (Call d)} (h : s.Balanced)
    (hk : ∀ k ∈ calls, ∀ p, k.raw? = some p → d.Tallies p.sql p.params.length) :
    (s.run calls).Balanced := by
  induction calls generalizing s with
  | nil => exact h
  | cons k calls ih =>
    rw [List.forall_mem_cons] at hk
    exact ih (h.apply hk.1) hk.2

/-- The placeholders of a statement match its parameters if those of its predicates are counted. -/
lemma Balanced.matches {out : Predicate} (h : s.Balanced) (hs : s.statement = .ok out) :
    d.Matches out.sql out.params.length := by
  obtain ⟨cs, hcs, rfl⟩ := map_eq_ok.1 hs
  obtain ⟨head, tail, rfl, hhead, htail⟩ := exists_clauses h.ordering hcs
  have hand : Inert " AND " := rfl
  have hspace : Inert " " := rfl
  have hprewhere : d.Collects (clauseTexts "PREWHERE " " AND " s.prewhere) s.prewhereParams :=
    h.prewhere.clauseTexts rfl hand ⟨' ', rfl, rfl⟩
  have hwhere : d.Collects (clauseTexts "WHERE " " AND " s.conditions) s.params :=
    h.conditions.clauseTexts rfl hand ⟨' ', rfl, rfl⟩
  have hbefore : d.Collects head [] := .of_inert fun t ht => (hhead t ht).inert
  have hbehind : d.Collects tail [] := .of_inert fun t ht => (htail t ht).inert
  -- the parameters of the `PREWHERE` clause come first, as it does
  have hall := ((hbefore.append hprewhere).append hwhere).append hbehind
  rw [List.nil_append, List.append_nil] at hall
  exact (hall.tallies hspace ⟨' ', rfl, rfl⟩).matches_placeholders

/-- What is built is the statement. -/
lemma build_result (s : Select d) : s.build.result = s.statement := by
  rw [Select.build, Traced.result_bind, Traced.result_ofExcept]
  cases s.statement with
  | error v => rfl
  | ok p => rfl

/-- The clauses of a statement that has predicates only. -/
lemma clauses_pushAll (d : Dialect) {ps : List Predicate} (hps : ps ≠ []) :
    ((fromTable "t" : Select d).pushAll ps).clauses
      = .ok ["SELECT", "*", "FROM t", "WHERE " ++ " AND ".intercalate (ps.map (·.sql))] := by
  have htable : Identifier.ensure "t" = .ok "t" := rfl
  rw [pushAll_eq, clauses_eq]
  simp [headTexts, tailTexts, projectionText, sampleTexts, limitByTexts, fromTable, htable,
    clauseOf, clauseTexts, Dialect.limitAndOffset?, hps]

/-- The statement of predicates on a plain table. -/
lemma statement_pushAll (d : Dialect) {ps : List Predicate} (hps : ps ≠ []) :
    ((fromTable "t" : Select d).pushAll ps).statement
      = .ok ⟨d.placeholders ("SELECT * FROM t WHERE " ++ " AND ".intercalate (ps.map (·.sql))),
        ps.flatMap (·.params)⟩ := by
  have hjoin : ∀ x : String, " ".intercalate ["SELECT", "*", "FROM t", "WHERE " ++ x]
      = "SELECT * FROM t WHERE " ++ x := by
    intro x
    simp only [String.intercalate_cons_cons, String.intercalate_singleton, ← String.append_assoc]
    rfl
  rw [Select.statement, clauses_pushAll d hps, pushAll_eq, ← hjoin]
  rfl

/-- A run that begins with an accepted predicate goes on with it. -/
lemma run_filterRaw {condition : String} {params : List Value} {p : Predicate}
    (h : rawPredicate condition params = .ok p) (calls : List (Call d)) :
    (fromTable "t" : Select d).run (.filterRaw condition params :: calls)
      = ((fromTable "t").pushAll [p]).run calls := by
  have hcall : ((fromTable "t" : Select d).filterRaw condition params).state
      = (fromTable "t").pushAll [p] := by
    rw [Select.filterRaw, h]
    rfl
  exact congrArg (Select.run · calls) hcall

/-- A predicate behind a hand-written one: that of a cursor. -/
lemma run_paginate (p : Predicate) :
    ((fromTable "t" : Select d).pushAll [p]).run [.paginate ⟨none, none, some ⟨"a", 1⟩⟩]
      = (fromTable "t").pushAll [p, cursorPredicate ⟨"a", 1⟩] :=
  rfl

/-- A hand-written predicate is counted if the placeholders match the parameters in all statements
that have no other one. -/
lemma tallies_of_run {condition : String} {params : List Value} {p : Predicate}
    (hraw : rawPredicate condition params = .ok p)
    (h : ∀ (calls : List (Call d)) out, (∀ k ∈ calls, k.raw? = none) →
      ((fromTable "t").run (.filterRaw condition params :: calls)).statement = .ok out →
      d.Matches out.sql out.params.length) : d.Tallies condition params.length := by
  obtain ⟨rfl, hcount⟩ := rawPredicate_eq_ok hraw
  have hlast := h [] _ (by simp) (by
    rw [run_filterRaw hraw]
    exact statement_pushAll d (List.cons_ne_nil _ _))
  have hbehind := h [.paginate ⟨none, none, some ⟨"a", 1⟩⟩] _ (by simp [Call.raw?]) (by
    rw [run_filterRaw hraw, run_paginate]
    exact statement_pushAll d (List.cons_ne_nil _ _))
  have hcursor : " AND " ++ (cursorPredicate ⟨"a", 1⟩).sql = " AND a > ?" := rfl
  have hone : (cursorPredicate ⟨"a", 1⟩).params.length = 1 := rfl
  refine tallies_of_matches "SELECT * FROM t WHERE " " AND a > ?" rfl rfl hcount ?_ ?_
  · simpa using hlast
  · rw [← hcursor]
    simpa [String.append_assoc, hone] using hbehind

end Select

/-- The placeholders match the parameters in all statements with hand-written predicates of a choice
of texts exactly if each of these that is accepted is counted: it ends outside of literals, and in
PostgreSQL it has nothing that could be taken for a label. -/
theorem matches_iff_tallies (d : Dialect) (chosen : String → Prop) :
    (∀ (table : String) (calls : List (Call d)) (out : Predicate),
        (∀ k ∈ calls, ∀ p, k.raw? = some p → chosen p.sql) →
        ((Select.fromTable table).run calls).build.result = .ok out →
        d.Matches out.sql out.params.length) ↔
      ∀ condition params p, chosen condition → Select.rawPredicate condition params = .ok p →
        d.Tallies condition params.length := by
  constructor
  · intro h condition params p hchosen hraw
    refine Select.tallies_of_run hraw fun calls out hnone hout => ?_
    refine h "t" (.filterRaw condition params :: calls) out ?_ ?_
    · rw [List.forall_mem_cons]
      constructor
      · intro q hq
        obtain ⟨rfl, -⟩ := Select.rawPredicate_eq_ok (eq_ok_of_toOption hq)
        exact hchosen
      · intro k hk q hq
        rw [hnone k hk] at hq
        cases hq
    · rw [Select.build_result]
      exact hout
  · intro h table calls out hcalls hout
    rw [Select.build_result] at hout
    refine ((Select.balanced_fromTable table).run fun k hk p hp => ?_).matches hout
    exact h _ _ _ (hcalls k hk p hp) (Call.rawPredicate_of_raw? hp)

/-- Two accepted predicates of which the first one leaves a literal open. -/
def openCalls : List (Call .sqlite) :=
  [.filterRaw "a = 'x" [], .filterRaw "b = ?" [.int 1]]

/-- The placeholders do not match the parameters in all statements: that of the second predicate is
inside the literal of the first one. -/
theorem not_forall_matches :
    ¬ ∀ (d : Dialect) (table : String) (calls : List (Call d)) (out : Predicate),
      ((Select.fromTable table).run calls).build.result = .ok out →
        d.Matches out.sql out.params.length := by
  intro h
  have hout : ((Select.fromTable "t").run openCalls).build.result
      = .ok ⟨"SELECT * FROM t WHERE a = 'x AND b = ?", [.int 1]⟩ :=
    eq_ok_of_toOption (by decide +kernel)
  have hmatches : Placeholder.count "SELECT * FROM t WHERE a = 'x AND b = ?" = 1 :=
    h .sqlite "t" openCalls _ hout
  exact absurd hmatches (by decide +kernel)

end ReadQuery.Sql
