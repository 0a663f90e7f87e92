import ReadQuery.Proofs.Sql.Session

/-!
# The frame of the predicates

The predicates of a statement, joined and with placeholders in the form of the dialect, stand in a
frame of the text in front of them and the text behind them (`Select.Frames`). Nothing behind them
can be taken for a placeholder, be it read inside or outside of a literal that a hand-written
predicate leaves open, and nothing in front of them is one but in the `PREWHERE` clause. Where
placeholders are numbered there is no such clause, so that their numbers are those that the
predicates have alone.

What a call adds to a builder is said once (`Select.exists_grows`). From it follow what every
sequence of calls keeps (`Select.Framed`) and, where hand-written predicates of the `PREWHERE`
clause end outside of literals, that the placeholders in front of the predicates are those of this
clause: this is not so for all of them, and exactly then for all sequences of calls
(`frames_and_count_iff`).
-/

namespace ReadQuery.Sql

open Placeholder

variable {d : Dialect}

/-- No character of a text is one that placeholders are written with. -/
def Dialect.Unmarked (d : Dialect) (s : String) : Prop :=
  ∀ c ∈ s.toList, c ≠ '?' ∧ (d = .postgres → c ≠ '$')

/-- Two unmarked texts in a row are one. -/
lemma Dialect.Unmarked.append {s t : String} (hs : d.Unmarked s) (ht : d.Unmarked t) :
    d.Unmarked (s ++ t) := by
  intro c hc
  rw [String.toList_append, List.mem_append] at hc
  exact hc.elim (hs c) (ht c)

/-- Constant fragments can be checked by computation. -/
lemma Dialect.Unmarked.const {s : String}
    (h : s.toList.all (fun c => c != '?' && c != '$') = true) : d.Unmarked s := by
  intro c hc
  have hboth := List.all_eq_true.1 h c hc
  rw [Bool.and_eq_true, bne_iff_ne, bne_iff_ne] at hboth
  exact ⟨hboth.1, fun _ => hboth.2⟩

/-- A text of plain characters is unmarked. -/
lemma unmarked_of_plainChars {s : String} (h : ∀ c ∈ s.toList, isPlainChar c = true) :
    d.Unmarked s := fun c hc =>
  have hplain := isPlainChar_iff.1 (h c hc)
  ⟨hplain.2.1, fun _ => hplain.2.2⟩

/-- A literal of an unmarked text is unmarked. -/
lemma Dialect.Unmarked.literal {s : String} (h : d.Unmarked s) :
    d.Unmarked (Dialect.literal s) := by
  have hquote : d.Unmarked "'" := .const rfl
  exact (hquote.append h).append hquote

/-- Paths have dollar signs but no question marks. -/
lemma PathText.ne_questionMark {cs : List Char} (h : PathText cs) : ∀ c ∈ cs, c ≠ '?' := by
  induction h with
  | nil => exact List.forall_mem_nil _
  | char hc _ ih =>
    rw [List.forall_mem_cons]
    refine ⟨?_, ih⟩
    rintro rfl
    revert hc
    decide
  | index _ hd _ ih =>
    rw [List.forall_mem_cons, List.forall_mem_append, List.forall_mem_cons]
    exact ⟨by decide, fun c hc => (plain_of_isDigit (hd c hc)).2, by decide, ih⟩

/-- Unmarked texts are a class that the names and numbers of statements are in. -/
lemma admits_unmarked (d : Dialect) : d.Admits d.Unmarked where
  append := .append
  plainChars := unmarked_of_plainChars
  negative n := by
    have hminus : d.Unmarked "-" := .const rfl
    have hnumber : ∀ c ∈ (toString (n : Nat)).toList, isPlainChar c = true := fun c hc =>
      isPlainChar_of_isDigit (isDigit_of_mem_toString hc)
    exact hminus.append (unmarked_of_plainChars hnumber)
  arrow := .const rfl
  textArrow := .const rfl
  literal h := (unmarked_of_plainChars fun c hc => isPlainChar_of_isChar (h c hc)).literal
  jsonPath hd h := Dialect.Unmarked.literal fun c hc =>
    ⟨(pathText_jsonPath h).ne_questionMark c hc, fun hpostgres => absurd hpostgres hd⟩

/-- An unmarked text has no placeholder, wherever it is read from. -/
lemma Dialect.Unmarked.countFrom_eq_zero {s : String} (h : d.Unmarked s) (quoted : Bool) :
    countFrom quoted s.toList = 0 := by
  have hlist : ∀ cs : List Char, (∀ c ∈ cs, c ≠ '?') → ∀ quoted, countFrom quoted cs = 0 := by
    intro cs hcs
    induction cs with
    | nil => exact fun _ => rfl
    | cons c cs ih =>
      rw [List.forall_mem_cons] at hcs
      intro quoted
      by_cases hquote : c = '\''
      · rw [countFrom, if_pos hquote, ih hcs.2]
      · rw [countFrom, if_neg hquote, if_neg fun hmark => hcs.1 hmark.1, ih hcs.2]
  exact hlist _ (fun c hc => (h c hc).1) quoted

/-- Only the text between an inert and an unmarked one has placeholders to give a form to. -/
lemma placeholders_between {before behind : String} (text : String)
    (hbefore : d = .postgres → Inert before) (hbehind : d.Unmarked behind) :
    d.placeholders (before ++ text ++ behind) = before ++ d.placeholders text ++ behind := by
  cases d with
  | postgres =>
    have hcount : countFrom false before.toList = 0 := (counts_of_scan (hbefore rfl)).1
    have hclosed : quotedAfter false before.toList = false := (counts_of_scan (hbefore rfl)).2
    -- the text starts outside of a literal with no number given, wherever it ends
    simp only [Dialect.placeholders, number, ← String.toList_inj, String.toList_append,
      String.toList_ofList, numberFrom_append, quotedAfter_append, countFrom_append, hcount,
      hclosed, numberFrom_of_countFrom_eq_zero _ _ hcount,
      numberFrom_of_countFrom_eq_zero _ _ (hbehind.countFrom_eq_zero _), Nat.zero_add]
  | mysql => rfl
  | sqlite => rfl
  | clickHouse => rfl

/-- The clauses behind others, each with a blank in front of it. -/
def trail : List String → String
  | [] => ""
  | t :: ts => " " ++ t ++ trail ts

/-- The clauses of two lists behind each other. -/
lemma trail_append (ss ts : List String) : trail (ss ++ ts) = trail ss ++ trail ts := by
  induction ss with
  | nil => exact String.empty_append.symm
  | cons s ss ih =>
    rw [List.cons_append, trail, trail, ih]
    simp only [String.append_assoc]

/-- Clauses are joined as the first one and the trail of the others. -/
lemma intercalate_cons_eq_trail (s : String) (ts : List String) :
    " ".intercalate (s :: ts) = s ++ trail ts := by
  induction ts generalizing s with
  | nil => rw [String.intercalate_singleton, trail, String.append_empty]
  | cons t ts ih =>
    rw [String.intercalate_cons_cons, ih, trail]
    simp only [String.append_assoc]

/-- More clauses make the trail longer. -/
lemma intercalate_append {ss : List String} (hne : ss ≠ []) (ts : List String) :
    " ".intercalate (ss ++ ts) = " ".intercalate ss ++ trail ts := by
  obtain ⟨s, ss, rfl⟩ := List.exists_cons_of_ne_nil hne
  rw [List.cons_append, intercalate_cons_eq_trail, intercalate_cons_eq_trail, trail_append,
    String.append_assoc]

/-- Clauses without marks have a trail without marks. -/
lemma Dialect.Unmarked.trail {ts : List String} (h : ∀ t ∈ ts, d.Unmarked t) :
    d.Unmarked (trail ts) := by
  induction ts with
  | nil => exact .const rfl
  | cons t ts ih =>
    rw [List.forall_mem_cons] at h
    have hblank : d.Unmarked " " := .const rfl
    exact (hblank.append h.1).append (ih h.2)

/-- The hand-written predicate that a call adds to the `PREWHERE` clause, if it is accepted. -/
def Call.prewhereRaw? : Call d → Option Predicate
  | .prefilterRaw condition params => (Select.rawPredicate condition params).toOption
  | _ => none

/-- What a call adds to the `PREWHERE` clause by hand is the hand-written predicate of the call. -/
lemma Call.raw?_of_prewhereRaw? {k : Call d} {p : Predicate} (h : k.prewhereRaw? = some p) :
    k.raw? = some p := by
  cases k with
  | prefilterRaw condition params => exact h
  | _ => cases h

/-- A hand-written predicate is added as it is given. -/
lemma Call.eq_of_prewhereRaw? {condition : String} {params : List Value} {p : Predicate}
    (h : (Call.prefilterRaw condition params).prewhereRaw? = some p) : p = ⟨condition, params⟩ :=
  (Select.rawPredicate_eq_ok (eq_ok_of_toOption h)).1

namespace Select

variable {s s' : Select d} {k : Call d} {ps qs : List Predicate} {es : List String}

/-- What a call adds to a builder: predicates to the `WHERE` clause, predicates to the `PREWHERE`
clause and entries to the ordering. -/
structure Grows (s s' : Select d) (k : Call d) (ps qs : List Predicate) (es : List String) :
    Prop where
  conditions : s'.conditions = s.conditions ++ ps.map (·.sql)
  params : s'.params = s.params ++ ps.flatMap (·.params)
  prewhere : s'.prewhere = s.prewhere ++ qs.map (·.sql)
  prewhereParams : s'.prewhereParams = s.prewhereParams ++ qs.flatMap (·.params)
  ordering : s'.ordering = s.ordering ++ es
  clickHouse : d ≠ .clickHouse → qs = []
  tallies : ∀ q ∈ qs, k.prewhereRaw? = some q ∨ d.Tallies q.sql q.params.length
  unmarked : ∀ e ∈ es, d.Unmarked e

/-- A call that leaves all clauses alone adds nothing. -/
lemma Grows.nothing (hconditions : s'.conditions = s.conditions) (hparams : s'.params = s.params)
    (hprewhere : s'.prewhere = s.prewhere) (hprewhereParams : s'.prewhereParams = s.prewhereParams)
    (hordering : s'.ordering = s.ordering) : Grows s s' k [] [] [] where
  conditions := by rw [hconditions, List.map_nil, List.append_nil]
  params := by rw [hparams, List.flatMap_nil, List.append_nil]
  prewhere := by rw [hprewhere, List.map_nil, List.append_nil]
  prewhereParams := by rw [hprewhereParams, List.flatMap_nil, List.append_nil]
  ordering := by rw [hordering, List.append_nil]
  clickHouse _ := rfl
  tallies := List.forall_mem_nil _
  unmarked := List.forall_mem_nil _

/-- Predicates are added to the `WHERE` clause only. -/
lemma grows_pushAll (s : Select d) (k : Call d) (ps : List Predicate) :
    Grows s (s.pushAll ps) k ps [] [] := by
  have hnothing : Grows s s k [] [] [] := .nothing rfl rfl rfl rfl rfl
  rw [pushAll_eq]
  exact { hnothing with conditions := rfl, params := rfl }

/-- Predicates are added to the `PREWHERE` clause only. -/
lemma grows_pushPrewhere (s : Select .clickHouse) (k : Call .clickHouse) {qs : List Predicate}
    (hqs : ∀ q ∈ qs, k.prewhereRaw? = some q ∨
      Dialect.clickHouse.Tallies q.sql q.params.length) :
    Grows s (qs.foldl pushPrewhere s) k [] qs [] := by
  have hnothing : Grows s s k [] [] [] := .nothing rfl rfl rfl rfl rfl
  rw [foldl_pushPrewhere]
  exact { hnothing with
    prewhere := rfl
    prewhereParams := rfl
    clickHouse := fun h => absurd rfl h
    tallies := hqs }

/-- A call may fail behind some of the entries, which are kept. -/
lemma exists_grows_orderBy (s : Select d) (k : Call d) (policy : SkipPolicy)
    (entries : List SortEntry) : ∃ es, Grows s (s.orderBy policy entries).state k [] [] es := by
  induction entries generalizing s with
  | nil => exact ⟨[], .nothing rfl rfl rfl rfl rfl⟩
  | cons e entries ih =>
    have hentry := SkipPolicy.accept_result policy e.field (orderEntry d e)
    simp only [Select.orderBy]
    split
    · exact ⟨[], .nothing rfl rfl rfl rfl rfl⟩
    · rw [Step.state_after]
      exact ih s
    · next entry hr =>
      rw [hr] at hentry
      have hform := SkipPolicy.of_settle_eq_ok hentry.symm
      have hunmarked : d.Unmarked entry :=
        admits_orderEntry (admits_unmarked d) (Compiled.form?_eq_some.1 hform)
      obtain ⟨es, hes⟩ := ih { s with ordering := s.ordering ++ [entry] }
      rw [Step.state_after]
      refine ⟨entry :: es, { hes with ordering := ?_, unmarked := ?_ }⟩
      · rw [hes.ordering, List.append_assoc, List.singleton_append]
      · exact List.forall_mem_cons.2 ⟨hunmarked, hes.unmarked⟩

/-- A window adds at most the predicate of its cursor. -/
lemma exists_grows_paginate (s : Select d) (k : Call d) (w : Page.Window) :
    ∃ ps, Grows s (s.paginate w).state k ps [] [] := by
  have hresult := paginate_result s w
  refine Step.keeps_of_atomic (P := fun s' => ∃ ps, Grows s s' k ps [] [])
    ⟨[], .nothing rfl rfl rfl rfl rfl⟩ fun s' hs' => ?_
  rw [Select.paginate, Step.result_atomic, hs'] at hresult
  obtain ⟨⟨⟩, -, hs'⟩ := bind_eq_ok.1 hresult.symm
  obtain rfl := Except.ok.inj hs'
  have hpushed := grows_pushAll s k (w.after.toList.map cursorPredicate)
  exact ⟨_, { hpushed with }⟩

/-- What a call adds. -/
theorem exists_grows (s : Select d) (k : Call d) :
    ∃ ps qs es, Grows s (s.apply k) k ps qs es := by
  have hkept : ∃ ps qs es, Grows s s k ps qs es := ⟨[], [], [], .nothing rfl rfl rfl rfl rfl⟩
  cases k with
  | filter f policy =>
    exact Step.keeps_of_atomic_bind (P := fun s' => ∃ ps qs es, Grows s s' _ ps qs es) hkept
      fun t _ => ⟨_, _, _, grows_pushAll s _ t.entries⟩
  | filterRaw condition params =>
    exact Step.keeps_of_atomic_bind (P := fun s' => ∃ ps qs es, Grows s s' _ ps qs es) hkept
      fun p _ => ⟨_, _, _, grows_pushAll s _ [p]⟩
  | orderBy policy entries =>
    obtain ⟨es, hes⟩ := exists_grows_orderBy s (.orderBy policy entries) policy entries
    exact ⟨_, _, es, hes⟩
  | paginate w =>
    obtain ⟨ps, hps⟩ := exists_grows_paginate s (.paginate w) w
    exact ⟨ps, _, _, hps⟩
  | prefilter f policy =>
    exact Step.keeps_of_atomic_bind (P := fun s' => ∃ ps qs es, Grows s s' _ ps qs es) hkept
      fun t ht => ⟨_, _, _, grows_pushPrewhere s _ fun q hq =>
        .inr (tallies_of_mem_entries ht q hq)⟩
  | prefilterRaw condition params =>
    refine Step.keeps_of_atomic_bind (P := fun s' => ∃ ps qs es, Grows s s' _ ps qs es) hkept
      fun p hp => ?_
    have hraw : (Call.prefilterRaw condition params).prewhereRaw? = some p :=
      congrArg Except.toOption hp
    have hone : Grows s ([p].foldl pushPrewhere s) _ [] [p] [] :=
      grows_pushPrewhere s _ (List.forall_mem_singleton.2 (.inl hraw))
    exact ⟨_, _, _, hone⟩
  -- the other clauses have neither predicates nor an ordering
  | columns _ | groupBy _ | limit _ | offset _ | sample _ | final | limitBy _ _ =>
    exact ⟨[], [], [], .nothing rfl rfl rfl rfl rfl⟩

/-- What is known of every builder: there are parameters only with predicates, a `PREWHERE` clause
only in ClickHouse, and the ordering is unmarked. -/
structure Framed (s : Select d) : Prop where
  params : s.conditions = [] → s.params = []
  prewhere : d ≠ .clickHouse → s.prewhere = [] ∧ s.prewhereParams = []
  ordering : ∀ e ∈ s.ordering, d.Unmarked e

/-- A new builder has no clauses. -/
lemma framed_fromTable (table : String) : (fromTable table : Select d).Framed where
  params _ := rfl
  prewhere _ := ⟨rfl, rfl⟩
  ordering := List.forall_mem_nil _

/-- One call keeps what is known of every builder. -/
lemma Framed.apply (h : s.Framed) (k : Call d) : (s.apply k).Framed := by
  obtain ⟨ps, qs, es, hgrows⟩ := exists_grows s k
  refine ⟨fun hnil => ?_, fun hd => ?_, ?_⟩
  · rw [hgrows.conditions, List.append_eq_nil_iff, List.map_eq_nil_iff] at hnil
    rw [hgrows.params, h.params hnil.1, hnil.2]
    rfl
  · rw [hgrows.prewhere, hgrows.prewhereParams, (h.prewhere hd).1, (h.prewhere hd).2,
      hgrows.clickHouse hd]
    exact ⟨rfl, rfl⟩
  · rw [hgrows.ordering, List.forall_mem_append]
    exact ⟨h.ordering, hgrows.unmarked⟩

/-- Any calls keep what is known of every builder. -/
lemma Framed.run {calls : List (Call d)} (h : s.Framed) : (s.run calls).Framed := by
  induction calls generalizing s with
  | nil => exact h
  | cons k calls ih => exact ih (h.apply k)

/-- The placeholders of the `PREWHERE` clause stay counted if those of the hand-written predicate
are that a call may add to it. -/
lemma collects_apply (h : d.Collects s.prewhere s.prewhereParams)
    (hk : ∀ p, k.prewhereRaw? = some p → d.Tallies p.sql p.params.length) :
    d.Collects (s.apply k).prewhere (s.apply k).prewhereParams := by
  obtain ⟨ps, qs, es, hgrows⟩ := exists_grows s k
  rw [hgrows.prewhere, hgrows.prewhereParams]
  exact h.append (.of_predicates fun q hq => (hgrows.tallies q hq).elim (hk q) id)

/-- The `PREWHERE` clause collects parameters in order, if its hand-written predicates tally. -/
lemma collects_run {calls : List (Call d)} (h : d.Collects s.prewhere s.prewhereParams)
    (hk : ∀ k ∈ calls, ∀ p, k.prewhereRaw? = some p → d.Tallies p.sql p.params.length) :
    d.Collects (s.run calls).prewhere (s.run calls).prewhereParams := by
  induction calls generalizing s with
  | nil => exact h
  | cons k calls ih =>
    rw [List.forall_mem_cons] at hk
    exact ih (collects_apply h hk.1) hk.2

/-- The text in front of the predicates of the `WHERE` clause. -/
def beforeText (s : Select d) : Except Violation String :=
  s.headTexts.map fun head =>
    " ".intercalate head ++ trail (clauseTexts "PREWHERE " " AND " s.prewhere)

/-- The text behind the predicates of the `WHERE` clause. -/
def behindText (s : Select d) : Except Violation String :=
  s.tailTexts.map trail

/-- A statement is the predicates in a frame: the text in front of them, in which only ClickHouse
has placeholders, and the unmarked text behind them. The parameters of the predicates are those left
behind the parameters of the `PREWHERE` clause. -/
structure Frames (s : Select d) (before behind : String) (out : Predicate) : Prop where
  before_eq : s.beforeText = .ok before
  behind_eq : s.behindText = .ok behind
  inert : d ≠ .clickHouse → Inert before ∧ s.prewhereParams = []
  unmarked : d.Unmarked behind
  params : out.params = s.prewhereParams ++ s.whereClause.params
  sql_of_ne_nil : s.conditions ≠ [] → out.sql = before ++ " WHERE " ++ s.whereClause.sql ++ behind
  sql_of_nil : s.conditions = [] → out.sql = before ++ behind ∧ s.whereClause = ⟨"", []⟩

/-- The clauses in front of the predicates, among which there always are some. -/
lemma of_headTexts {head : List String} (h : s.headTexts = .ok head) :
    head ≠ [] ∧ Inert (" ".intercalate head) := by
  constructor
  · obtain ⟨columns, -, h⟩ := bind_eq_ok.1 h
    obtain ⟨table, -, h⟩ := bind_eq_ok.1 h
    obtain ⟨sample, -, h⟩ := bind_eq_ok.1 h
    obtain rfl := Except.ok.inj h
    nofun
  · have hspace : Neat d " " := .const rfl
    exact (neat_intercalate hspace (neat_headTexts h)).inert

/-- The predicates stand behind the text in front of them, as they are. -/
lemma trail_clauseTexts (keyword : String) {items : List String} (hne : items ≠ []) :
    trail (clauseTexts keyword " AND " items) = " " ++ keyword ++ conjunction items := by
  rw [clauseTexts, List.isEmpty_eq_false_iff.2 hne, if_neg Bool.false_ne_true, trail, trail,
    String.append_empty, conjunction, String.append_assoc]

/-- Without a `PREWHERE` clause there is no placeholder in front of the predicates. -/
lemma inert_beforeText {before : String} (h : s.beforeText = .ok before)
    (hprewhere : s.prewhere = []) : Inert before := by
  obtain ⟨head, hhead, rfl⟩ := map_eq_ok.1 h
  rw [hprewhere]
  exact (of_headTexts hhead).2.append rfl

/-- There is no mark behind the predicates. -/
lemma unmarked_behindText {behind : String} (h : s.behindText = .ok behind)
    (hordering : ∀ e ∈ s.ordering, d.Unmarked e) : d.Unmarked behind := by
  obtain ⟨tail, htail, rfl⟩ := map_eq_ok.1 h
  exact .trail (admits_tailTexts (admits_unmarked d) hordering htail)

/-- The `WHERE` clause stands between the two texts. -/
lemma of_statement {out : Predicate} (h : s.statement = .ok out) :
    ∃ before behind, s.beforeText = .ok before ∧ s.behindText = .ok behind ∧
      out = ⟨d.placeholders (before ++ trail (clauseTexts "WHERE " " AND " s.conditions) ++ behind),
        s.prewhereParams ++ s.params⟩ := by
  obtain ⟨cs, hcs, rfl⟩ := map_eq_ok.1 h
  rw [clauses_eq] at hcs
  obtain ⟨head, hhead, hcs⟩ := bind_eq_ok.1 hcs
  obtain ⟨tail, htail, hcs⟩ := bind_eq_ok.1 hcs
  obtain rfl := Except.ok.inj hcs
  refine ⟨_, _, congrArg (Except.map _) hhead, congrArg (Except.map _) htail, ?_⟩
  rw [List.append_assoc, List.append_assoc, intercalate_append (of_headTexts hhead).1,
    trail_append, trail_append]
  simp only [String.append_assoc]

/-- The statement of every builder is its predicates in a frame. -/
lemma Framed.frames {out : Predicate} (h : s.Framed) (hout : s.statement = .ok out) :
    ∃ before behind, s.Frames before behind out := by
  obtain ⟨before, behind, hbefore, hbehind, rfl⟩ := of_statement hout
  have hinert : d ≠ .clickHouse → Inert before := fun hd =>
    inert_beforeText hbefore (h.prewhere hd).1
  have hpostgres : d = .postgres → d ≠ .clickHouse := by
    rintro rfl
    nofun
  have hunmarked := unmarked_behindText hbehind h.ordering
  refine ⟨before, behind, hbefore, hbehind, fun hd => ⟨hinert hd, (h.prewhere hd).2⟩, hunmarked,
    rfl, fun hnil => ?_, fun hnil => ?_⟩
  · have hkeyword : Inert " WHERE " := rfl
    have hnumbered := placeholders_between (conjunction s.conditions)
      (fun hd => (hinert (hpostgres hd)).append hkeyword) hunmarked
    have hclause : trail (clauseTexts "WHERE " " AND " s.conditions)
        = " WHERE " ++ conjunction s.conditions := trail_clauseTexts "WHERE " hnil
    rw [hclause, ← String.append_assoc]
    exact hnumbered
  · have hempty : d.placeholders "" = "" := by cases d <;> rfl
    have hnumbered := placeholders_between "" (fun hd => hinert (hpostgres hd)) hunmarked
    rw [hempty, String.append_empty] at hnumbered
    have hnone : trail (clauseTexts "WHERE " " AND " []) = "" := rfl
    rw [whereClause, hnil, h.params hnil, hnone, String.append_empty]
    exact ⟨hnumbered, congrArg (Predicate.mk · []) hempty⟩

/-- The placeholders in front of the predicates are those of the `PREWHERE` clause. -/
lemma count_beforeText {before : String} (h : s.beforeText = .ok before) :
    Placeholder.count before = Placeholder.count (conjunction s.prewhere) := by
  obtain ⟨head, hhead, rfl⟩ := map_eq_ok.1 h
  rw [count_prepend (of_headTexts hhead).2]
  by_cases hnil : s.prewhere = []
  · rw [hnil]
    rfl
  · have hkeyword : Inert (" " ++ "PREWHERE ") := rfl
    rw [trail_clauseTexts "PREWHERE " hnil, count_prepend hkeyword]

/-- A predicate of the `PREWHERE` clause behind a hand-written one: that of a filter. -/
lemma run_prefilterRaw {condition : String} {params : List Value} {p : Predicate}
    (h : rawPredicate condition params = .ok p) :
    (fromTable "t").run [.prefilterRaw condition params,
        .prefilter (Filter.all [.single "a" (.compare .equals) (.int 1)]) .lenient]
      = [p, ⟨"a = ?", [.int 1]⟩].foldl pushPrewhere (fromTable "t") := by
  have hcall : ((fromTable "t" : Select .clickHouse).prefilterRaw condition params).state
      = (fromTable "t").pushPrewhere p := by
    rw [Select.prefilterRaw, h]
    rfl
  rw [List.foldl_cons, ← hcall]
  rfl

/-- A statement on a plain table has a text in front of its predicates. -/
lemma exists_beforeText (ps : List Predicate) :
    ∃ before, (ps.foldl pushPrewhere (fromTable "t")).beforeText = .ok before := by
  have htable : Identifier.ensure "t" = .ok "t" := rfl
  have hhead : (ps.foldl pushPrewhere (fromTable "t")).headTexts
      = .ok ["SELECT", "*", "FROM t"] := by
    rw [foldl_pushPrewhere]
    simp [headTexts, projectionText, sampleTexts, fromTable, htable]
  exact ⟨_, congrArg (Except.map _) hhead⟩

/-- A hand-written predicate that leaves a literal open hides the placeholder behind it. -/
lemma quotedAfter_of_count {condition : String} {params : List Value} {p : Predicate}
    (hraw : rawPredicate condition params = .ok p)
    (h : ∀ (f : Filter) (policy : SkipPolicy) (before : String),
      ((fromTable "t").run
        [.prefilterRaw condition params, .prefilter f policy]).beforeText = .ok before →
      Placeholder.count before = ((fromTable "t").run
        [.prefilterRaw condition params, .prefilter f policy]).prewhereParams.length) :
    quotedAfter false condition.toList = false := by
  have hrun := run_prefilterRaw hraw
  obtain ⟨rfl, hcount⟩ := rawPredicate_eq_ok hraw
  obtain ⟨before, hbefore⟩ := exists_beforeText [⟨condition, params⟩, ⟨"a = ?", [.int 1]⟩]
  rw [← hrun] at hbefore
  have hequal := h _ _ before hbefore
  rw [count_beforeText hbefore, hrun, foldl_pushPrewhere] at hequal
  have hjoined : conjunction [condition, "a = ?"] = condition ++ " AND a = ?" := by
    rw [conjunction, String.intercalate_cons_cons, String.intercalate_singleton,
      String.append_assoc]
    rfl
  have htotal : Placeholder.count (condition ++ " AND a = ?") = params.length + 1 := by
    rw [← hjoined]
    simpa [fromTable] using hequal
  by_contra hopen
  rw [Bool.not_eq_false] at hopen
  have hhidden : countFrom true " AND a = ?".toList = 0 := by decide
  unfold Placeholder.count at hcount htotal
  rw [String.toList_append, countFrom_append, hopen, hhidden] at htotal
  omega

end Select

/-- Every statement is its predicates in their frame. The placeholders in front of them are as many
as the parameters of the `PREWHERE` clause, in all statements with hand-written predicates of a
choice of texts in this clause, exactly if each of these that is accepted ends outside of literals.
-/
theorem frames_and_count_iff (chosen : String → Prop) :
    (∀ {d : Dialect} (table : String) (calls : List (Call d)) (out : Predicate),
      ((Select.fromTable table).run calls).build.result = .ok out →
      ∃ before behind, ((Select.fromTable table).run calls).Frames before behind out) ∧
    ((∀ (table : String) (calls : List (Call .clickHouse)) (before : String),
      (∀ k ∈ calls, ∀ p, k.prewhereRaw? = some p → chosen p.sql) →
      ((Select.fromTable table).run calls).beforeText = .ok before →
      Placeholder.count before = ((Select.fromTable table).run calls).prewhereParams.length) ↔
    ∀ condition params p, chosen condition → Select.rawPredicate condition params = .ok p →
      quotedAfter false condition.toList = false) := by
  refine ⟨fun table calls out hout => ?_, fun h condition params p hchosen hraw => ?_,
    fun h table calls before hcalls hbefore => ?_⟩
  · rw [Select.build_result] at hout
    exact (Select.framed_fromTable table).run.frames hout
  · refine Select.quotedAfter_of_count hraw fun f policy before hbefore => h _ _ _ ?_ hbefore
    rw [List.forall_mem_cons, List.forall_mem_singleton]
    refine ⟨fun q hq => ?_, fun q hq => by cases hq⟩
    obtain rfl := Call.eq_of_prewhereRaw? hq
    exact hchosen
  · have htallies : ∀ k ∈ calls, ∀ p, k.prewhereRaw? = some p →
        Dialect.clickHouse.Tallies p.sql p.params.length := by
      intro k hk p hp
      have hraw := Call.rawPredicate_of_raw? (Call.raw?_of_prewhereRaw? hp)
      exact ⟨h _ _ _ (hcalls k hk p hp) hraw, (Select.rawPredicate_eq_ok hraw).2, nofun⟩
    have hnone : Dialect.clickHouse.Collects (Select.fromTable table : Select .clickHouse).prewhere
        (Select.fromTable table : Select .clickHouse).prewhereParams :=
      .of_inert (List.forall_mem_nil _)
    have hcollects := Select.collects_run hnone htallies
    rw [Select.count_beforeText hbefore]
    have hand : Inert " AND " := rfl
    exact (hcollects.tallies hand ⟨' ', rfl, rfl⟩).count

/-- Two predicates of which the first one leaves a literal open, and an ordering by a nested
field. -/
def openFilterCalls : List (Call .postgres) :=
  [.filterRaw "a = 'x" [], .filterRaw "b = ?" [.int 1], .orderBy .strict [⟨"meta.k", .ascending⟩]]

/-- A predicate of the `PREWHERE` clause with a question mark in a literal. -/
def quotedPrewhereCalls : List (Call .clickHouse) :=
  [.prefilterRaw "a = '?'" []]

/-- A literal that a predicate leaves open does not reach the frame, and a question mark in a
literal that is closed again does not count. -/
theorem frames_and_count_iff_literals :
    (∃ before behind, ((Select.fromTable "t").run openFilterCalls).Frames before behind
        ⟨"SELECT * FROM t WHERE a = 'x AND b = ? ORDER BY meta->>'k' ASC", [.int 1]⟩) ∧
      quotedAfter false "a = '?'".toList = false ∧
      ((Select.fromTable "t").run quotedPrewhereCalls).beforeText
        = .ok "SELECT * FROM t PREWHERE a = '?'" ∧
      Placeholder.count "SELECT * FROM t PREWHERE a = '?'"
        = ((Select.fromTable "t").run quotedPrewhereCalls).prewhereParams.length := by
  have hout : ((Select.fromTable "t").run openFilterCalls).build.result
      = .ok ⟨"SELECT * FROM t WHERE a = 'x AND b = ? ORDER BY meta->>'k' ASC", [.int 1]⟩ :=
    eq_ok_of_toOption (by decide +kernel)
  have hclosed : quotedAfter false "a = '?'".toList = false := by decide +kernel
  have hbefore : ((Select.fromTable "t").run quotedPrewhereCalls).beforeText
      = .ok "SELECT * FROM t PREWHERE a = '?'" := eq_ok_of_toOption (by decide +kernel)
  have hchosen : ∀ k ∈ quotedPrewhereCalls, ∀ p, k.prewhereRaw? = some p → p.sql = "a = '?'" := by
    refine List.forall_mem_singleton.2 fun p hp => ?_
    obtain rfl := Call.eq_of_prewhereRaw? hp
    rfl
  obtain ⟨hframes, hcount⟩ := frames_and_count_iff (· = "a = '?'")
  refine ⟨hframes "t" _ _ hout, hclosed, hbefore, hcount.2 ?_ "t" _ _ hchosen hbefore⟩
  rintro condition params p rfl -
  exact hclosed

/-- Two predicates of the `PREWHERE` clause of which the first one leaves a literal open, and one of
the `WHERE` clause. -/
def openPrewhereCalls : List (Call .clickHouse) :=
  [.prefilterRaw "a = 'x" [], .prefilterRaw "b = '?'" [], .filterRaw "c = ?" [.int 1]]

/-- Not in all statements are the values bound in front of the predicates those of the `PREWHERE`
clause: where one of its predicates leaves a literal open, the question mark in the literal of
another one is a placeholder. -/
theorem not_forall_take_isPrefix :
    ¬ ∀ (table : String) (calls : List (Call .clickHouse)) (out : Predicate) (before : String),
      ((Select.fromTable table).run calls).build.result = .ok out →
      ((Select.fromTable table).run calls).beforeText = .ok before →
      out.params.take (Placeholder.count before)
        <+: ((Select.fromTable table).run calls).prewhereParams := by
  intro h
  have hout : ((Select.fromTable "t").run openPrewhereCalls).build.result
      = .ok ⟨"SELECT * FROM t PREWHERE a = 'x AND b = '?' WHERE c = ?", [.int 1]⟩ :=
    eq_ok_of_toOption (by decide +kernel)
  have hbefore : ((Select.fromTable "t").run openPrewhereCalls).beforeText
      = .ok "SELECT * FROM t PREWHERE a = 'x AND b = '?'" :=
    eq_ok_of_toOption (by decide +kernel)
  have hnone : ((Select.fromTable "t").run openPrewhereCalls).prewhereParams = [] := by
    decide +kernel
  have hbound := h _ _ _ _ hout hbefore
  rw [hnone] at hbound
  exact absurd hbound (by decide +kernel)

end ReadQuery.Sql
