import ReadQuery.Proofs.Compiler.Violation

/-!
# Strict and lenient compilers

How the compilations under the two policies are related, for settings that differ in the policy
only. What a target makes of a prepared request is settled by the policy once, before anything else
can go wrong (`compile_settled`): the strict compiler ends with the first condition or entry of the
ordering that the target skips, and otherwise both compilers go on in the same way
(`policies_agree`).
-/

namespace ReadQuery.Compiler

namespace Target

/-- What a request is compiled to. -/
def Output : Target → Type
  | sql _ => Sql.Predicate
  | find => Mongo.Find
  | pipeline => List Mongo.Document
  | influx => String

/-- Why a target skips a condition, if it does. -/
def conditionReason? : Target → Condition → Option SkipReason
  | sql d, c => (Sql.condition d c).reason?
  | find, c | pipeline, c => (Mongo.condition c).reason?
  | influx, c => (Influx.condition c).reason?

/-- Why a target skips an entry of an ordering, if it does. -/
def entryReason? : Target → SortEntry → Option SkipReason
  | sql d, e => (Sql.Select.orderEntry d e).reason?
  | find, e | pipeline, e => (Mongo.orderKey e).reason?
  | influx, e => (Influx.Query.timeDirection e).reason?

/-- The first thing that a target skips is a live condition, with none before it, or an entry of the
ordering, with no condition and no entry before it. -/
inductive SkipsFirst (t : Target) (p : Prepared) : Skipped → Prop
  | condition {before after : List Condition} {c : Condition} {reason : SkipReason}
      (live : p.filter.liveConditions = before ++ c :: after)
      (none_before : ∀ b ∈ before, t.conditionReason? b = none)
      (skipped : t.conditionReason? c = some reason) : SkipsFirst t p ⟨c.field, reason⟩
  | entry {before after : List SortEntry} {e : SortEntry} {reason : SkipReason}
      (no_condition : ∀ c ∈ p.filter.liveConditions, t.conditionReason? c = none)
      (ordering : p.ordering = before ++ e :: after)
      (none_before : ∀ b ∈ before, t.entryReason? b = none)
      (skipped : t.entryReason? e = some reason) : SkipsFirst t p ⟨e.field, reason⟩

variable {t : Target} {p : Prepared}

/-- The first thing skipped is looked for in the conditions and then in the ordering. -/
lemma firstSkipped?_eq (t : Target) (p : Prepared) :
    t.firstSkipped? p
      = (p.filter.liveConditions.findSome? (fun c => (t.conditionReason? c).map (⟨c.field, ·⟩))
        <|> p.ordering.findSome? fun e => (t.entryReason? e).map (⟨e.field, ·⟩)) := by
  cases t <;> rfl

/-- What is found to be skipped first is what the definition of it says. -/
theorem firstSkipped?_eq_some_iff {s : Skipped} :
    t.firstSkipped? p = some s ↔ t.SkipsFirst p s := by
  rw [firstSkipped?_eq, Option.orElse_eq_orElse, Option.orElse_eq_or, Option.or_eq_some_iff,
    List.findSome?_eq_some_iff, List.findSome?_eq_none_iff, List.findSome?_eq_some_iff]
  constructor
  · rintro (⟨before, c, after, hlive, hc, hbefore⟩ | ⟨hnone, before, e, after, hord, he, hbefore⟩)
    · obtain ⟨reason, hreason, rfl⟩ := Option.map_eq_some_iff.1 hc
      exact .condition hlive (by simpa using hbefore) hreason
    · obtain ⟨reason, hreason, rfl⟩ := Option.map_eq_some_iff.1 he
      exact .entry (by simpa using hnone) hord (by simpa using hbefore) hreason
  · rintro (⟨hlive, hbefore, hc⟩ | ⟨hnone, hord, hbefore, he⟩)
    · exact .inl ⟨_, _, _, hlive, by simp [hc], by simpa using hbefore⟩
    · exact .inr ⟨by simpa using hnone, _, _, _, hord, by simp [he], by simpa using hbefore⟩

end Target

/-- Compiles a request on a name to a target. -/
def compile (c : Compiler) (t : Target) (name : String) (r : Request) :
    Traced CompileError t.Output :=
  match t with
  | .sql d => c.toSql d name r
  | .find => c.toFind name r
  | .pipeline => c.toPipeline name r
  | .influx => c.toInflux name r

/-- The compiler under another policy. -/
def withPolicy (c : Compiler) (policy : SkipPolicy) : Compiler :=
  { c with config := { c.config with skipPolicy := policy } }

variable {c : Compiler} {name : String} {r : Request} {p : Prepared}

/-- Settings are accepted or refused whatever their policy is. -/
lemma ofConfig_withPolicy {config : Config} {policy policy' : SkipPolicy}
    (h : ofConfig { config with skipPolicy := policy } = .ok c) :
    ofConfig { config with skipPolicy := policy' } = .ok (c.withPolicy policy') := by
  have hfault : Config.fault? { config with skipPolicy := policy' }
      = Config.fault? { config with skipPolicy := policy } := rfl
  have hordering : Config.defaultOrdering { config with skipPolicy := policy' }
      = Config.defaultOrdering { config with skipPolicy := policy } := rfl
  unfold ofConfig at h ⊢
  rw [hfault, hordering]
  split at h
  · cases h
  · obtain ⟨entries, hentries, rfl⟩ := map_eq_ok.1 h
    rw [hentries]
    rfl

/-- Nothing of the preparation of a request depends on the policy. -/
lemma prepare_withPolicy (c : Compiler) (policy : SkipPolicy) (r : Request) :
    (c.withPolicy policy).prepare r = c.prepare r :=
  rfl

/-- A result is no skipped condition. -/
def NeverSkips {β : Type} (x : Except CompileError β) : Prop :=
  ∀ s, x ≠ .error (.skipped s)

/-- A result skips nothing. -/
lemma neverSkips_ok {β : Type} (b : β) : NeverSkips (.ok b) := by
  intro s h
  cases h

/-- A violation is no skipped condition. -/
lemma neverSkips_violation {β : Type} (x : Except Violation β) :
    NeverSkips (x.mapError .violation) := by
  intro s h
  cases x <;> cases h

/-- A sequence skips nothing if neither step does. -/
lemma NeverSkips.bind {α β : Type} {x : Except CompileError α} {f : α → Except CompileError β}
    (hx : NeverSkips x) (hf : ∀ a, NeverSkips (f a)) : NeverSkips (x >>= f) := by
  cases x with
  | error e =>
    intro s h
    obtain rfl := Except.error.inj h
    exact hx s rfl
  | ok a => exact hf a

/-- A family of results, one for each policy, is settled by what is skipped first: under the strict
policy that ends it, and otherwise it goes on in the same way. -/
def Settled {β : Type} (skipped : Option Skipped) (x : SkipPolicy → Except CompileError β) : Prop :=
  ∃ rest, NeverSkips rest ∧
    ∀ policy, x policy = (policy.settle skipped ()).mapError .skipped >>= fun _ => rest

/-- Steps that skip nothing may follow what is settled. -/
lemma Settled.bind {α β : Type} {skipped : Option Skipped} {x : SkipPolicy → Except CompileError α}
    {f : α → Except CompileError β} (hx : Settled skipped x) (hf : ∀ a, NeverSkips (f a)) :
    Settled skipped fun policy => x policy >>= f := by
  obtain ⟨rest, hrest, hx⟩ := hx
  refine ⟨rest >>= f, hrest.bind hf, fun policy => ?_⟩
  simp only [hx, bind_assoc]

/-- A statement is settled by what is skipped first. -/
lemma toSql_settled (d : Sql.Dialect) (name : String) (hp : (c.prepare r).result = .ok p) :
    Settled ((Target.sql d).firstSkipped? p) fun policy =>
      ((c.withPolicy policy).toSql d name r).result := by
  refine ⟨?rest, ?never, fun policy => ?calls⟩
  case calls =>
    simp only [toSql, Traced.result_bind, Traced.result_mapError, prepare_withPolicy, hp, ok_bind,
      selecting, guarding, Sql.Select.filter_result, Sql.Select.orderBy_result,
      Sql.Select.paginate_result]
    rw [calls_eq]
    rfl
  case never => exact (neverSkips_violation _).bind fun _ => neverSkips_violation _

/-- A query is settled by what is skipped first. -/
lemma mongoQuery_settled (name : String) (hp : (c.prepare r).result = .ok p) :
    Settled (Target.find.firstSkipped? p) fun policy =>
      ((c.withPolicy policy).mongoQuery name r).result := by
  refine ⟨?rest, ?never, fun policy => ?calls⟩
  case calls =>
    simp only [mongoQuery, Traced.result_bind, Traced.result_mapError, prepare_withPolicy, hp,
      ok_bind, selecting, guarding, Mongo.Query.filter_result, Mongo.Query.orderBy_result,
      Mongo.Query.paginate_result]
    rw [calls_eq]
    rfl
  case never =>
    refine (neverSkips_violation _).bind fun _ => ?_
    split
    · exact neverSkips_ok _
    · exact neverSkips_violation _

/-- An InfluxQL statement is settled by what is skipped first. -/
lemma toInflux_settled (name : String) (hp : (c.prepare r).result = .ok p) :
    Settled (Target.influx.firstSkipped? p) fun policy =>
      ((c.withPolicy policy).toInflux name r).result := by
  refine ⟨?rest, ?never, fun policy => ?calls⟩
  case calls =>
    simp only [toInflux, Traced.result_bind, Traced.result_mapError, prepare_withPolicy, hp,
      ok_bind, selecting, guarding, Influx.Query.filter_result, Influx.Query.orderBy_result,
      Influx.Query.paginate_result]
    rw [calls_eq]
    rfl
  case never => exact (neverSkips_violation _).bind fun _ => neverSkips_violation _

/-- The compilations of a request are settled by what the target skips first. -/
theorem compile_settled (t : Target) (name : String) (hp : (c.prepare r).result = .ok p) :
    Settled (t.firstSkipped? p) fun policy => ((c.withPolicy policy).compile t name r).result := by
  cases t with
  | sql d => exact toSql_settled d name hp
  | influx => exact toInflux_settled name hp
  | find =>
    have h := (mongoQuery_settled name hp).bind (f := fun q => .ok q.find) fun _ => neverSkips_ok _
    simp only [compile, toFind, Traced.result_bind]
    exact h
  | pipeline =>
    have h := (mongoQuery_settled name hp).bind (f := fun q => .ok q.pipeline)
      fun _ => neverSkips_ok _
    simp only [compile, toPipeline, Traced.result_bind]
    exact h

namespace Settled

variable {β : Type} {skipped : Option Skipped} {x : SkipPolicy → Except CompileError β}

/-- What the strict policy lets through comes out the same under the lenient one. -/
lemma lenient_of_strict (h : Settled skipped x) {b : β} (hb : x .strict = .ok b) :
    x .lenient = .ok b := by
  obtain ⟨rest, -, hx⟩ := h
  rw [hx] at hb ⊢
  cases skipped with
  | none => exact hb
  | some s => cases hb

/-- The lenient policy never ends with a skipped condition. -/
lemma neverSkips_lenient (h : Settled skipped x) : NeverSkips (x .lenient) := by
  obtain ⟨rest, hrest, hx⟩ := h
  rw [hx]
  exact hrest

/-- The strict policy ends with the first thing skipped, if there is one. -/
lemma strict_eq_skipped_iff (h : Settled skipped x) {s : Skipped} :
    x .strict = .error (.skipped s) ↔ skipped = some s := by
  obtain ⟨rest, hrest, hx⟩ := h
  rw [hx]
  cases skipped with
  | none => simpa using hrest s
  | some s' => simp [SkipPolicy.settle]

end Settled

/-- A strict and a lenient compiler of the same settings: what the strict one compiles the lenient
one compiles to the same; the lenient one never ends with a skipped condition; and the strict one
does so exactly if the target skips something, with the first thing it skips. -/
theorem policies_agree {config : Config} {strict lenient : Compiler}
    (hstrict : ofConfig { config with skipPolicy := .strict } = .ok strict)
    (hlenient : ofConfig { config with skipPolicy := .lenient } = .ok lenient)
    (hp : (strict.prepare r).result = .ok p) (t : Target) (name : String) :
    (∀ out, (strict.compile t name r).result = .ok out →
        (lenient.compile t name r).result = .ok out) ∧
      (∀ s, (lenient.compile t name r).result ≠ .error (.skipped s)) ∧
      ∀ s, (strict.compile t name r).result = .error (.skipped s) ↔ t.SkipsFirst p s := by
  have hsame : ofConfig { config with skipPolicy := .strict } = .ok (strict.withPolicy .strict) :=
    ofConfig_withPolicy hstrict
  have hother : ofConfig { config with skipPolicy := .lenient }
      = .ok (strict.withPolicy .lenient) := ofConfig_withPolicy hstrict
  obtain rfl : strict.withPolicy .lenient = lenient := Except.ok.inj (hother.symm.trans hlenient)
  have hs : strict.withPolicy .strict = strict := Except.ok.inj (hsame.symm.trans hstrict)
  have hsettled := compile_settled t name hp
  refine ⟨fun out hout => ?_, hsettled.neverSkips_lenient, fun s => ?_⟩
  · rw [← hs] at hout
    exact hsettled.lenient_of_strict hout
  · rw [← Target.firstSkipped?_eq_some_iff, ← hsettled.strict_eq_skipped_iff]
    simp only [hs]

/-- A request on an unsafe table with a condition on no field in a group, behind one that can be
compiled, and an ordering by no field. -/
def skippedRequest : Request where
  filter := .structured ⟨some .and, [.single "a" (.compare .equals) (.int 1)],
    [⟨some .or, [.nullary "" (.nullness false)], []⟩]⟩
  ordering := .list [⟨"", .ascending⟩]
  fields := []
  page := Page.Request.whole

/-- The skipped request, prepared. -/
def skippedPrepared : Prepared where
  filter := ⟨some .and, [.single "a" (.compare .equals) (.int 1)],
    [⟨some .or, [.nullary "" (.nullness false)], []⟩]⟩
  ordering := [⟨"", .ascending⟩]
  fields := []
  window := Page.Window.whole

/-- On the skipped request the strict compiler ends with the condition on no field, although the
table is unsafe and the ordering is skipped as well; the lenient one skips both. -/
theorem policies_agree_skippedRequest :
    ofConfig { Config.default with skipPolicy := .strict }
        = .ok ⟨{ Config.default with skipPolicy := .strict }, []⟩ ∧
      ofConfig { Config.default with skipPolicy := .lenient }
        = .ok ⟨{ Config.default with skipPolicy := .lenient }, []⟩ ∧
      ((⟨{ Config.default with skipPolicy := .strict }, []⟩ : Compiler).prepare
        skippedRequest).result = .ok skippedPrepared ∧
      ((⟨{ Config.default with skipPolicy := .strict }, []⟩ : Compiler).compile (.sql .sqlite)
        "t; u" skippedRequest).result = .error (.skipped ⟨"", .emptyField⟩) ∧
      ∀ s, ((⟨{ Config.default with skipPolicy := .lenient }, []⟩ : Compiler).compile
        (.sql .sqlite) "t; u" skippedRequest).result ≠ .error (.skipped s) := by
  have hstrict : ofConfig { Config.default with skipPolicy := .strict }
      = .ok ⟨{ Config.default with skipPolicy := .strict }, []⟩ := rfl
  have hlenient : ofConfig { Config.default with skipPolicy := .lenient }
      = .ok ⟨{ Config.default with skipPolicy := .lenient }, []⟩ := rfl
  have hp : ((⟨{ Config.default with skipPolicy := .strict }, []⟩ : Compiler).prepare
      skippedRequest).result = .ok skippedPrepared := rfl
  have hlive : skippedPrepared.filter.liveConditions
      = [.single "a" (.compare .equals) (.int 1)] ++ .nullary "" (.nullness false) :: [] := rfl
  have hfirst : (Target.sql .sqlite).SkipsFirst skippedPrepared ⟨"", .emptyField⟩ :=
    .condition hlive (by decide) (by decide)
  obtain ⟨-, hnever, hends⟩ := policies_agree hstrict hlenient hp (.sql .sqlite) "t; u"
  exact ⟨hstrict, hlenient, hp, (hends _).2 hfirst, hnever⟩

end ReadQuery.Compiler
