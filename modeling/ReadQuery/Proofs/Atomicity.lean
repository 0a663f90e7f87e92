import ReadQuery.Compiler.Compile
import ReadQuery.Proofs.Influx.Conjunction
import ReadQuery.Proofs.Mongo.Calls
import ReadQuery.Proofs.Sql.Session

/-!
# Calls that fail

Whether a call on a builder that fails leaves the builder as it was (`Step.IsAtomic`). Most calls
compute all that they add before they change anything. The orderings of SQL and InfluxQL are taken
entry by entry (`SortEntry.takeEntries`), so under the strict policy the entries in front of the one
that fails are left behind.

The main statement is `failed_calls_keep_iff`: a call that fails leaves its builder as it was except
for an ordering that fails behind its first entry, and without such orderings a sequence of calls
leaves the builder that its successful calls alone leave.
-/

namespace ReadQuery

variable {σ κ α ε ε' : Type}

/-- A call on a builder changes nothing if it fails. -/
def Step.IsAtomic (s : σ) (x : Step σ ε) : Prop :=
  x.failure ≠ none → x.state = s

namespace Step

/-- What is done does not fail. -/
lemma isAtomic_done (s s' : σ) : (done s' : Step σ ε).IsAtomic s :=
  fun h => absurd rfl h

/-- A call that computes its result first and sets it then changes nothing if it fails. -/
lemma isAtomic_atomic (s : σ) (x : Traced ε σ) : (atomic s x).IsAtomic s := by
  intro h
  obtain ⟨e, he⟩ := Option.ne_none_iff_exists'.1 h
  exact atomic_state_of_failure he

/-- What a failure is called does not matter. -/
lemma isAtomic_mapFailure {s : σ} {x : Step σ ε} (f : ε → ε') :
    (x.mapFailure f).IsAtomic s ↔ x.IsAtomic s := by
  rw [IsAtomic, IsAtomic, mapFailure]
  cases x.failure <;> simp

variable (perform : σ → κ → Step σ ε)

/-- The builder that a sequence of calls leaves. -/
def runAll (s : σ) (calls : List κ) : σ :=
  calls.foldl (fun s k => (perform s k).state) s

/-- The calls of a sequence that do not fail. -/
def succeeding : σ → List κ → List κ
  | _, [] => []
  | s, k :: ks =>
    let ks := succeeding (perform s k).state ks
    if (perform s k).failure.isSome then ks else k :: ks

variable {perform}

/-- Where calls change nothing if they fail, those that fail can be left out. -/
lemma runAll_succeeding {calls : List κ} {s : σ}
    (h : ∀ before k, before ++ [k] <+: calls →
      (perform (runAll perform s before) k).IsAtomic (runAll perform s before)) :
    runAll perform s (succeeding perform s calls) = runAll perform s calls := by
  induction calls generalizing s with
  | nil => rfl
  | cons k ks ih =>
    have hcons : ∀ ks, runAll perform s (k :: ks) = runAll perform (perform s k).state ks :=
      fun _ => rfl
    have hfirst : (perform s k).IsAtomic s := h [] k (List.prefix_append [k] ks)
    have hrest : runAll perform (perform s k).state (succeeding perform (perform s k).state ks)
        = runAll perform (perform s k).state ks :=
      ih fun before k' hpre => h (k :: before) k' ((List.prefix_cons_inj k).2 hpre)
    rw [succeeding, hcons, ← hrest]
    split
    · next hfailure => rw [hfirst (Option.isSome_iff_ne_none.1 hfailure)]
    · rw [hcons]

end Step

namespace SortEntry

/-- Takes the entries of an ordering one after another, up to the first that fails. -/
def takeEntries (policy : SkipPolicy) (form : SortEntry → Compiled α) (add : σ → α → σ) :
    σ → List SortEntry → Step σ Skipped
  | s, [] => Step.done s
  | s, e :: es =>
    let x := policy.accept e.field (form e)
    match x.result with
    | .error err => ⟨s, x.events, some err⟩
    | .ok none => (takeEntries policy form add s es).after x.events
    | .ok (some a) => (takeEntries policy form add (add s a) es).after x.events

/-- The forms of the entries in front of the first one that is skipped. -/
def formsBefore (form : SortEntry → Compiled α) (es : List SortEntry) : List α :=
  (es.takeWhile fun e => (skipped? form e).isNone).filterMap fun e => (form e).form?

/-- Whether an ordering has an entry that is skipped, but not as its first one. -/
def StopsLate (form : SortEntry → Compiled α) : List SortEntry → Prop
  | [] => False
  | e :: es => skipped? form e = none ∧ firstSkipped? form es ≠ none

variable {form : SortEntry → Compiled α} {add : σ → α → σ}

/-- Under the lenient policy no ordering fails. -/
lemma failure_takeEntries_lenient (s : σ) (es : List SortEntry) :
    (takeEntries .lenient form add s es).failure = none := by
  induction es generalizing s with
  | nil => rfl
  | cons e es ih =>
    rw [takeEntries]
    cases form e with
    | rendered a => exact ih (add s a)
    | vacuous => exact ih s
    | skipped reason => exact ih s

/-- Under the strict policy an ordering fails with the first entry that is skipped, and leaves
behind the entries in front of it. -/
lemma takeEntries_strict (form : SortEntry → Compiled α) (add : σ → α → σ) (s : σ)
    (es : List SortEntry) :
    (takeEntries .strict form add s es).failure = firstSkipped? form es ∧
      (takeEntries .strict form add s es).state = (formsBefore form es).foldl add s := by
  induction es generalizing s with
  | nil => exact ⟨rfl, rfl⟩
  | cons e es ih =>
    rw [takeEntries, firstSkipped?_cons, skipped?, formsBefore, List.takeWhile_cons, skipped?]
    cases hform : form e with
    | rendered a =>
      obtain ⟨hfailure, hstate⟩ := ih (add s a)
      refine ⟨hfailure, hstate.trans ?_⟩
      simp [formsBefore, Compiled.reason?, hform]
    | vacuous =>
      obtain ⟨hfailure, hstate⟩ := ih s
      refine ⟨hfailure, hstate.trans ?_⟩
      simp [formsBefore, Compiled.reason?, hform]
    | skipped reason => exact ⟨rfl, rfl⟩

/-- An ordering that fails with its first entry leaves nothing behind. -/
lemma formsBefore_eq_nil {es : List SortEntry} (hlate : ¬ StopsLate form es)
    (h : firstSkipped? form es ≠ none) : formsBefore form es = [] := by
  cases es with
  | nil => rfl
  | cons e es =>
    rw [formsBefore, List.takeWhile_cons]
    cases hskip : skipped? form e with
    | some s => rfl
    | none =>
      rw [firstSkipped?_cons, hskip] at h
      exact absurd ⟨hskip, h⟩ hlate

/-- An ordering that fails later leaves its first entry behind, unless that one is vacuous. -/
lemma formsBefore_ne_nil {es : List SortEntry} (hform : ∀ e, form e ≠ .vacuous)
    (h : StopsLate form es) : formsBefore form es ≠ [] := by
  cases es with
  | nil => exact h.elim
  | cons e es =>
    rw [formsBefore, List.takeWhile_cons, h.1]
    have hskip := h.1
    cases he : form e with
    | rendered a => simp [he]
    | vacuous => exact absurd he (hform e)
    | skipped reason =>
      rw [skipped?, he] at hskip
      cases hskip

/-- What stops late is skipped somewhere. -/
lemma firstSkipped?_of_stopsLate {es : List SortEntry} (h : StopsLate form es) :
    firstSkipped? form es ≠ none := by
  cases es with
  | nil => exact h.elim
  | cons e es =>
    rw [firstSkipped?_cons, h.1]
    exact h.2

end SortEntry

/-- What is an error or a result is never vacuous. -/
lemma Compiled.ofExcept_ne_vacuous (x : Except SkipReason α) : Compiled.ofExcept x ≠ .vacuous := by
  cases x <;> nofun

namespace Sql

variable {d : Dialect}

/-- An ordering that leaves entries behind when it fails. -/
def Call.StopsLate : Call d → Prop
  | .orderBy policy entries =>
    policy = .strict ∧ SortEntry.StopsLate (Select.orderEntry d) entries
  | _ => False

namespace Select

/-- What a call comes to. -/
def perform (s : Select d) : Call d → Step (Select d) CompileError
  | .columns names => .done (s.addColumns names)
  | .filter f policy => (s.filter f policy).mapFailure .skipped
  | .filterRaw condition params => (s.filterRaw condition params).mapFailure .violation
  | .groupBy column => .done (s.addGroup column)
  | .orderBy policy entries => (s.orderBy policy entries).mapFailure .skipped
  | .paginate w => (s.paginate w).mapFailure .violation
  | .limit n => .done (s.withLimit n)
  | .offset n => .done (s.withOffset n)
  | .sample ratio => .done (s.withSample ratio)
  | .final => .done s.final
  | .limitBy n columns => .done (s.withLimitBy n columns)
  | .prefilter f policy => (s.prefilter f policy).mapFailure .skipped
  | .prefilterRaw condition params => (s.prefilterRaw condition params).mapFailure .violation

/-- A call leaves the builder that it comes to. -/
lemma state_perform (s : Select d) (k : Call d) : (s.perform k).state = s.apply k := by
  cases k <;> rfl

/-- A run is its calls one after another. -/
lemma runAll_perform (s : Select d) (calls : List (Call d)) :
    Step.runAll perform s calls = s.run calls := by
  rw [Step.runAll, Select.run]
  congr
  funext s k
  exact state_perform s k

/-- An ordering adds its entries one after another. -/
lemma orderBy_eq (s : Select d) (policy : SkipPolicy) (es : List SortEntry) :
    s.orderBy policy es = SortEntry.takeEntries policy (orderEntry d)
      (fun s entry => { s with ordering := s.ordering ++ [entry] }) s es := by
  induction es generalizing s with
  | nil => rfl
  | cons e es ih =>
    rw [Select.orderBy, SortEntry.takeEntries]
    cases (policy.accept e.field (orderEntry d e)).result with
    | error reason => rfl
    | ok entry =>
      cases entry with
      | none => simp only [ih]
      | some entry => simp only [ih]

/-- Entries that are added one after another stand one after another. -/
lemma foldl_addOrdering (s : Select d) (entries : List String) :
    entries.foldl (fun s entry => { s with ordering := s.ordering ++ [entry] }) s
      = { s with ordering := s.ordering ++ entries } := by
  induction entries generalizing s with
  | nil => rw [List.foldl_nil, List.append_nil]
  | cons entry entries ih => rw [List.foldl_cons, ih, List.append_assoc, List.singleton_append]

/-- A call that fails changes nothing, but an ordering that fails behind its first entry does. -/
theorem isAtomic_perform_iff (s : Select d) (k : Call d) :
    (s.perform k).IsAtomic s ↔ ¬ k.StopsLate := by
  cases k with
  | orderBy policy entries =>
    rw [perform, Step.isAtomic_mapFailure, Step.IsAtomic, orderBy_eq, Call.StopsLate]
    cases policy with
    | lenient => simp [SortEntry.failure_takeEntries_lenient]
    | strict =>
      obtain ⟨hfailure, hstate⟩ := SortEntry.takeEntries_strict (orderEntry d)
        (fun s entry => { s with ordering := s.ordering ++ [entry] }) s entries
      rw [hfailure, hstate, foldl_addOrdering]
      refine ⟨fun h hlate => ?_, fun hlate h => ?_⟩
      · have hordering := congrArg Select.ordering
          (h (SortEntry.firstSkipped?_of_stopsLate hlate.2))
        have hne := SortEntry.formsBefore_ne_nil
          (fun e => Compiled.ofExcept_ne_vacuous _) hlate.2
        exact hne (List.append_right_eq_self.1 hordering)
      · rw [SortEntry.formsBefore_eq_nil (fun hl => hlate ⟨rfl, hl⟩) h, List.append_nil]
  | filter | filterRaw | paginate | prefilter | prefilterRaw =>
    simp only [perform, Step.isAtomic_mapFailure, Call.StopsLate, not_false_eq_true, iff_true]
    exact Step.isAtomic_atomic _ _
  | _ =>
    simp only [perform, Call.StopsLate, not_false_eq_true, iff_true]
    exact Step.isAtomic_done _ _

end Select

end Sql

namespace Mongo

/-- A call on a builder of queries. -/
inductive Call where
  | filter (f : Filter) (policy : SkipPolicy)
  | anyOf (f : Filter) (policy : SkipPolicy)
  | noneOf (f : Filter) (policy : SkipPolicy)
  | project (fields : List String)
  | orderBy (policy : SkipPolicy) (entries : List SortEntry)
  | skip (n : Int64)
  | limit (n : Int64)
  | paginate (w : Page.Window)
  | groupBy (keys : List String) (accumulators : Document)
  | stage (d : Document)

namespace Query

/-- What a call comes to. -/
def perform (q : Query) : Call → Step Query CompileError
  | .filter f policy => (q.filter f policy).mapFailure .skipped
  | .anyOf f policy => (q.anyOf f policy).mapFailure .skipped
  | .noneOf f policy => (q.noneOf f policy).mapFailure .skipped
  | .project fields => (q.project fields).mapFailure .violation
  | .orderBy policy entries => (q.orderBy policy entries).mapFailure .skipped
  | .skip n => .done (q.withSkip n)
  | .limit n => .done (q.withLimit n)
  | .paginate w => (q.paginate w).mapFailure .violation
  | .groupBy keys accumulators => (q.groupBy keys accumulators).mapFailure .violation
  | .stage d => .done (q.stage d)

/-- The builder that a sequence of calls leaves. -/
def run (q : Query) (calls : List Call) : Query :=
  Step.runAll perform q calls

/-- A call that fails changes nothing. -/
theorem isAtomic_perform (q : Query) (k : Call) : (q.perform k).IsAtomic q := by
  cases k with
  | skip | limit | stage => exact Step.isAtomic_done _ _
  | _ => exact (Step.isAtomic_mapFailure _).2 (Step.isAtomic_atomic _ _)

end Query

end Mongo

namespace Influx

/-- An ordering that leaves a direction behind when it fails. -/
def Call.StopsLate : Call → Prop
  | .orderBy policy entries => policy = .strict ∧ SortEntry.StopsLate Query.timeDirection entries
  | _ => False

/-- The direction that an ordering leaves behind when it fails. -/
def Call.leftOrder : Call → Option Direction
  | .orderBy _ entries => (SortEntry.formsBefore Query.timeDirection entries).getLast?
  | _ => none

namespace Query

/-- What a call comes to. -/
def perform (q : Query) : Call → Step Query CompileError
  | .select items => .done (q.select items)
  | .filter f policy => (q.filter f policy).mapFailure .skipped
  | .filterRaw condition => (q.filterRaw condition).mapFailure .violation
  | .groupByTag tag => .done (q.groupByTag tag)
  | .groupByTime interval => .done (q.groupByTime interval)
  | .fill fill => .done (q.withFill fill)
  | .orderBy policy entries => (q.orderBy policy entries).mapFailure .skipped
  | .limit n => .done (q.withLimit n)
  | .offset n => .done (q.withOffset n)
  | .seriesLimit n => .done (q.withSeriesLimit n)
  | .seriesOffset n => .done (q.withSeriesOffset n)
  | .paginate w => (q.paginate w).mapFailure .violation

/-- A call leaves the builder that it comes to. -/
lemma state_perform (q : Query) (k : Call) : (q.perform k).state = q.apply k := by
  cases k <;> rfl

/-- A run is its calls one after another. -/
lemma runAll_perform (q : Query) (calls : List Call) :
    Step.runAll perform q calls = q.run calls := by
  rw [Step.runAll, Query.run]
  congr
  funext q k
  exact state_perform q k

/-- An ordering sets its directions one after another. -/
lemma orderBy_eq (q : Query) (policy : SkipPolicy) (es : List SortEntry) :
    q.orderBy policy es = SortEntry.takeEntries policy timeDirection
      (fun q direction => { q with timeOrder := some direction }) q es := by
  induction es generalizing q with
  | nil => rfl
  | cons e es ih =>
    rw [Query.orderBy, SortEntry.takeEntries]
    cases (policy.accept e.field (timeDirection e)).result with
    | error reason => rfl
    | ok direction =>
      cases direction with
      | none => simp only [ih]
      | some direction => simp only [ih]

/-- Of directions that are set one after another the last one stays. -/
lemma foldl_setOrder (q : Query) (directions : List Direction) :
    directions.foldl (fun q direction => { q with timeOrder := some direction }) q
      = { q with timeOrder := directions.getLast?.or q.timeOrder } := by
  induction directions generalizing q with
  | nil => rfl
  | cons direction directions ih =>
    rw [List.foldl_cons, ih, List.getLast?_cons]
    cases directions.getLast? <;> rfl

/-- No entry of an ordering is vacuous. -/
lemma timeDirection_ne_vacuous (e : SortEntry) : timeDirection e ≠ .vacuous := by
  rw [timeDirection]
  split <;> nofun

/-- A call that fails changes nothing, but an ordering that fails behind its first entry does,
unless it leaves the direction that the points had before. -/
theorem isAtomic_perform_iff (q : Query) (k : Call) :
    (q.perform k).IsAtomic q ↔ (k.StopsLate → k.leftOrder = q.timeOrder) := by
  cases k with
  | orderBy policy entries =>
    rw [perform, Step.isAtomic_mapFailure, Step.IsAtomic, orderBy_eq, Call.StopsLate,
      Call.leftOrder]
    cases policy with
    | lenient => simp [SortEntry.failure_takeEntries_lenient]
    | strict =>
      obtain ⟨hfailure, hstate⟩ := SortEntry.takeEntries_strict timeDirection
        (fun q direction => { q with timeOrder := some direction }) q entries
      rw [hfailure, hstate, foldl_setOrder]
      refine ⟨fun h hlate => ?_, fun hkept h => ?_⟩
      · have horder := congrArg Query.timeOrder (h (SortEntry.firstSkipped?_of_stopsLate hlate.2))
        have hne := SortEntry.formsBefore_ne_nil timeDirection_ne_vacuous hlate.2
        rw [← horder, List.getLast?_eq_some_getLast hne, Option.some_or]
      · by_cases hlate : SortEntry.StopsLate timeDirection entries
        · rw [hkept ⟨rfl, hlate⟩, Option.or_self]
        · rw [SortEntry.formsBefore_eq_nil hlate h, List.getLast?_nil, Option.none_or]
  | filter | filterRaw | paginate =>
    simp only [perform, Step.isAtomic_mapFailure, Call.StopsLate, false_implies, iff_true]
    exact Step.isAtomic_atomic _ _
  | _ =>
    simp only [perform, Call.StopsLate, false_implies, iff_true]
    exact Step.isAtomic_done _ _

end Query

end Influx

/-- The builders of queries. -/
inductive Builder where
  | select (d : Sql.Dialect)
  | mongo
  | influx

namespace Builder

/-- The states of a builder. -/
abbrev State : Builder → Type
  | select d => Sql.Select d
  | mongo => Mongo.Query
  | influx => Influx.Query

/-- The calls on a builder. -/
abbrev Call : Builder → Type
  | select d => Sql.Call d
  | mongo => Mongo.Call
  | influx => Influx.Call

/-- What a call comes to. -/
def perform : (b : Builder) → b.State → b.Call → Step b.State CompileError
  | select _ => Sql.Select.perform
  | mongo => Mongo.Query.perform
  | influx => Influx.Query.perform

/-- The builder that a sequence of calls leaves. -/
def run : (b : Builder) → b.State → List b.Call → b.State
  | select _ => Sql.Select.run
  | mongo => Mongo.Query.run
  | influx => Influx.Query.run

/-- A call that fails and leaves something behind: an ordering that fails behind its first entry, in
InfluxQL unless the direction that it leaves is the one that the points had before. -/
def LeavesBehind : (b : Builder) → b.State → b.Call → Prop
  | select _, _, k => k.StopsLate
  | mongo, _, _ => False
  | influx, q, k => k.StopsLate ∧ k.leftOrder ≠ q.timeOrder

/-- A run is its calls one after another, on every builder. -/
lemma run_eq (b : Builder) (s : b.State) (calls : List b.Call) :
    b.run s calls = Step.runAll b.perform s calls := by
  cases b with
  | select d => exact (Sql.Select.runAll_perform s calls).symm
  | mongo => rfl
  | influx => exact (Influx.Query.runAll_perform s calls).symm

/-- A call changes nothing when it fails unless it leaves something behind. -/
lemma isAtomic_iff (b : Builder) (s : b.State) (k : b.Call) :
    (b.perform s k).IsAtomic s ↔ ¬ b.LeavesBehind s k := by
  cases b with
  | select d => exact Sql.Select.isAtomic_perform_iff s k
  | mongo => exact iff_of_true (Mongo.Query.isAtomic_perform s k) not_false
  | influx =>
    rw [LeavesBehind, not_and_not_right]
    exact Influx.Query.isAtomic_perform_iff s k

end Builder

/-- A call that fails leaves its builder as it was exactly if it leaves nothing behind. In a
sequence of calls that leave nothing behind, those that fail can be left out. -/
theorem failed_calls_keep_iff (b : Builder) (s : b.State) :
    (∀ k, (b.perform s k).IsAtomic s ↔ ¬ b.LeavesBehind s k) ∧
    ∀ calls,
      (∀ before k, before ++ [k] <+: calls → ¬ b.LeavesBehind (b.run s before) k) →
        b.run s (Step.succeeding b.perform s calls) = b.run s calls := by
  refine ⟨b.isAtomic_iff s, fun calls h => ?_⟩
  rw [b.run_eq, b.run_eq]
  refine Step.runAll_succeeding fun before k hpre => ?_
  rw [b.isAtomic_iff, ← b.run_eq]
  exact h before k hpre

/-- An ordering that fails with its first entry, between two that succeed. -/
def retriedOrdering : List (Sql.Call .postgres) :=
  [.orderBy .strict [⟨"name", .ascending⟩],
    .orderBy .strict [⟨"", .ascending⟩, ⟨"age", .ascending⟩],
    .orderBy .strict [⟨"age", .descending⟩]]

/-- The ordering that fails can be left out. -/
theorem failed_calls_keep_iff_retriedOrdering :
    (∀ k ∈ retriedOrdering, ¬ k.StopsLate) ∧
      ((Sql.Select.fromTable "users").run retriedOrdering).ordering = ["name ASC", "age DESC"] ∧
      (Sql.Select.fromTable "users").run
          (Step.succeeding Sql.Select.perform (Sql.Select.fromTable "users") retriedOrdering)
        = (Sql.Select.fromTable "users").run retriedOrdering := by
  have h : ∀ k ∈ retriedOrdering, ¬ k.StopsLate := by
    intro k hk hlate
    rcases List.mem_cons.1 hk with rfl | hk
    · exact hlate.2.2 rfl
    rcases List.mem_cons.1 hk with rfl | hk
    · have hskip :
          (SortEntry.skipped? (Sql.Select.orderEntry .postgres) ⟨"", .ascending⟩).isSome := by
        decide +kernel
      rw [hlate.2.1] at hskip
      cases hskip
    · obtain rfl := List.mem_singleton.1 hk
      exact hlate.2.2 rfl
  refine ⟨h, by decide +kernel, (failed_calls_keep_iff (.select .postgres) _).2 _ ?_⟩
  intro before k hpre
  exact h k (hpre.subset (List.mem_append_right before (List.mem_singleton_self k)))

/-- Not all calls that fail leave the builder as it was: an ordering by `a` and by an empty name
leaves a statement that is ordered by `a`. -/
theorem not_forall_failed_calls_keep :
    ¬ ∀ (d : Sql.Dialect) (table : String) (calls : List (Sql.Call d)) (k : Sql.Call d),
      (((Sql.Select.fromTable table).run calls).perform k).IsAtomic
        ((Sql.Select.fromTable table).run calls) := by
  intro h
  have hkept := h .sqlite "t" [] (.orderBy .strict [⟨"a", .ascending⟩, ⟨"", .ascending⟩])
    (by decide +kernel)
  have hordering := congrArg Sql.Select.ordering hkept
  revert hordering
  decide +kernel

end ReadQuery
