import ReadQuery.Proofs.Compiler.Binding
import ReadQuery.Proofs.Influx.Calls
import ReadQuery.Proofs.Mongo.Calls

/-!
# Violations in compiled requests

Which requests on a proper name end with a violation. For every target the compilation is the same
sequence of checks (`outcome_eq`): the request is read, its conditions and the entries of its
ordering are accepted under the policy, and the window is checked; everything else that the builders
check again has been checked before. A violation is therefore that of the window, and it is found
exactly if the configured cursor field is not proper and the request has a token that can be read
(`outcome_eq_violation_iff`).
-/

namespace ReadQuery

namespace Compiler

/-- What a request can be compiled to. -/
inductive Target where
  | sql (d : Sql.Dialect)
  | find
  | pipeline
  | influx
  deriving DecidableEq, Repr

namespace Target

/-- The first condition or entry of an ordering that is skipped. -/
def firstSkipped? (t : Target) (p : Prepared) : Option Skipped :=
  match t with
  | sql d => Filter.firstSkipped? (Sql.condition d) p.filter.liveConditions
      <|> SortEntry.firstSkipped? (Sql.Select.orderEntry d) p.ordering
  | find | pipeline => Filter.firstSkipped? Mongo.condition p.filter.liveConditions
      <|> SortEntry.firstSkipped? Mongo.orderKey p.ordering
  | influx => Filter.firstSkipped? Influx.condition p.filter.liveConditions
      <|> SortEntry.firstSkipped? Influx.Query.timeDirection p.ordering

end Target

/-- Whether a request on a name can be compiled, and why not. -/
def outcome (c : Compiler) (t : Target) (name : String) (r : Request) : Except CompileError Unit :=
  match t with
  | .sql d => (c.toSql d name r).result.map fun _ => ()
  | .find => (c.toFind name r).result.map fun _ => ()
  | .pipeline => (c.toPipeline name r).result.map fun _ => ()
  | .influx => (c.toInflux name r).result.map fun _ => ()

/-- The request without its token. -/
def Request.withoutToken (r : Request) : Request :=
  { r with page := r.page.withoutToken }

variable {c : Compiler} {name : String} {r : Request} {p : Prepared}

/-- A request is read part by part; its window needs no reading. -/
lemma prepare_result (c : Compiler) (r : Request) :
    (c.prepare r).result
      = (r.filter.resolve.result.mapError .parse) >>= fun f =>
          (r.ordering.resolve.mapError .parse) >>= fun entries =>
            .ok ⟨c.nameFilter f, c.nameEntries (SortEntry.orDefault entries c.defaultOrdering),
              (c.nameFields r.fields).filter Identifier.isProper,
              r.page.window c.config.pageSettings⟩ := by
  simp only [prepare, Traced.result_bind, Traced.result_mapError, Traced.result_ofExcept,
    Traced.result_pure, keepFields, ok_bind]

/-- A prepared request has the window of the request and proper fields. -/
lemma of_prepare_eq_ok (h : (c.prepare r).result = .ok p) :
    p.window = r.page.window c.config.pageSettings ∧
      ∀ field ∈ p.fields, Identifier.isProper field = true := by
  rw [prepare_result] at h
  obtain ⟨f, -, h⟩ := bind_eq_ok.1 h
  obtain ⟨entries, -, h⟩ := bind_eq_ok.1 h
  obtain rfl := Except.ok.inj h
  exact ⟨rfl, fun field hf => (List.mem_filter.1 hf).2⟩

/-- Preparing fails only while it reads the request. -/
lemma of_prepare_eq_error {e : CompileError} (h : (c.prepare r).result = .error e) :
    ∃ e', e = .parse e' := by
  rw [prepare_result] at h
  cases hf : r.filter.resolve.result with
  | error e' =>
    rw [hf] at h
    exact ⟨e', (Except.error.inj h).symm⟩
  | ok f =>
    cases ho : r.ordering.resolve with
    | error e' =>
      rw [hf, ho] at h
      exact ⟨e', (Except.error.inj h).symm⟩
    | ok entries =>
      rw [hf, ho] at h
      cases h

/-- Without the token, a request is prepared with another window. -/
lemma prepare_withoutToken (c : Compiler) (r : Request) :
    (c.prepare r.withoutToken).result
      = (c.prepare r).result.map fun p =>
          { p with window := r.page.withoutToken.window c.config.pageSettings } := by
  rw [prepare_result, prepare_result]
  simp only [Request.withoutToken]
  cases r.filter.resolve.result with
  | error e' => rfl
  | ok f =>
    cases r.ordering.resolve with
    | error e' => rfl
    | ok entries => rfl

/-- What is left to check of a prepared request: its conditions and the entries of its ordering, and
then its window. -/
def Target.check (t : Target) (policy : SkipPolicy) (p : Prepared) : Except CompileError Unit :=
  (policy.settle (t.firstSkipped? p) ()).mapError .skipped >>= fun _ =>
    p.window.check.mapError .violation

/-- The calls on a builder in order: what a filter and an ordering make of it, a window that is
checked, and what is done with the builder in the end. -/
lemma calls_eq {σ β : Type} (policy : SkipPolicy) (s t : Option Skipped)
    (check : Except Violation Unit) (a : σ) (f g : σ → σ) (finish : σ → Except CompileError β) :
    ((policy.settle s a).mapError .skipped >>= fun b =>
      (policy.settle t (f b)).mapError .skipped >>= fun b =>
        (check >>= fun _ => .ok (g b)).mapError .violation >>= finish)
      = ((policy.settle (s <|> t) ()).mapError .skipped >>= fun _ =>
          check.mapError .violation >>= fun _ => finish (g (f a))) := by
  cases policy with
  | lenient => cases check <;> rfl
  | strict =>
    cases s with
    | some s => rfl
    | none =>
      cases t with
      | some t => rfl
      | none => cases check <;> rfl

/-- What is built in any case does not matter to whether the checks are passed. -/
lemma map_unit_of_exists {β : Type} {x y : Except CompileError Unit} {z : Except CompileError β}
    (h : ∃ b, z = .ok b) :
    ((x >>= fun _ => y >>= fun _ => z).map fun _ => ()) = x >>= fun _ => y := by
  obtain ⟨b, rfl⟩ := h
  cases x with
  | error e => rfl
  | ok _ => cases y <;> rfl

/-- What can be rendered can be built. -/
lemma exists_built {β : Type} {x : Except Violation β} (h : ∃ b, x = .ok b) :
    ∃ b, (x >>= fun b => .ok b).mapError CompileError.violation = .ok b := by
  obtain ⟨b, rfl⟩ := h
  exact ⟨b, rfl⟩

/-- A statement on a proper table comes to what the checks of its target say. -/
lemma toSql_outcome {d : Sql.Dialect} (hname : Identifier.isProper name = true)
    (hp : (c.prepare r).result = .ok p) :
    ((c.toSql d name r).result.map fun _ => ())
      = (Target.sql d).check c.config.skipPolicy p := by
  have hfields := (of_prepare_eq_ok hp).2
  -- the calls of the compiler on the builder, one after another
  simp only [toSql, Traced.result_bind, Traced.result_mapError, hp, ok_bind, selecting, guarding,
    Sql.Select.build, Traced.result_ofExcept, Traced.result_report, Traced.result_pure,
    Sql.Select.filter_result, Sql.Select.orderBy_result, Sql.Select.paginate_result]
  rw [calls_eq]
  refine map_unit_of_exists ?_
  simp only [Sql.Select.pushAll_eq]
  refine exists_built ?_
  refine Sql.Select.IsRead.exists_statement ⟨rfl, rfl, rfl, rfl, rfl⟩ ?_ ?_
  · exact hname
  · exact hfields

/-- A query comes to what the checks of its target say. -/
lemma mongoQuery_outcome (hp : (c.prepare r).result = .ok p) :
    ((c.mongoQuery name r).result.map fun _ => ()) = Target.find.check c.config.skipPolicy p := by
  have hfields := (of_prepare_eq_ok hp).2
  simp only [mongoQuery, Traced.result_bind, Traced.result_mapError, hp, ok_bind, selecting,
    guarding, Mongo.Query.filter_result, Mongo.Query.orderBy_result, Mongo.Query.paginate_result]
  rw [calls_eq]
  refine map_unit_of_exists ?_
  split
  · exact ⟨_, rfl⟩
  · obtain ⟨q, hq⟩ := Mongo.Query.project_result _ hfields
    rw [Traced.result_mapError, hq]
    exact ⟨q, rfl⟩

/-- A statement on a proper measurement comes to what the checks of its target say. -/
lemma toInflux_outcome (hname : Identifier.isProper name = true)
    (hp : (c.prepare r).result = .ok p) :
    ((c.toInflux name r).result.map fun _ => ()) = Target.influx.check c.config.skipPolicy p := by
  have hfields := (of_prepare_eq_ok hp).2
  simp only [toInflux, Traced.result_bind, Traced.result_mapError, hp, ok_bind, selecting,
    guarding, Influx.Query.build, Traced.result_ofExcept, Traced.result_report,
    Traced.result_pure, Influx.Query.filter_result, Influx.Query.orderBy_result,
    Influx.Query.paginate_result]
  rw [calls_eq]
  refine map_unit_of_exists ?_
  refine exists_built ?_
  refine Influx.Query.exists_statement p.fields ?_ rfl hfields rfl rfl rfl
  exact hname

/-- A request is compiled to a target exactly if it can be read and passes the checks. -/
theorem outcome_eq (t : Target) (hname : Identifier.isProper name = true) :
    c.outcome t name r
      = (c.prepare r).result >>= fun p => t.check c.config.skipPolicy p := by
  cases hp : (c.prepare r).result with
  | error e =>
    have hmongo : (c.mongoQuery name r).result = .error e := by
      rw [mongoQuery, Traced.result_bind, hp, error_bind]
    cases t with
    | sql d => rw [outcome, toSql, Traced.result_bind, hp]; rfl
    | influx => rw [outcome, toInflux, Traced.result_bind, hp]; rfl
    | find => rw [outcome, toFind, Traced.result_bind, hmongo]; rfl
    | pipeline => rw [outcome, toPipeline, Traced.result_bind, hmongo]; rfl
  | ok p =>
    rw [ok_bind]
    have hmongo : ((c.mongoQuery name r).result.map fun _ => ())
        = Target.find.check c.config.skipPolicy p := mongoQuery_outcome hp
    cases t with
    | sql d => exact toSql_outcome hname hp
    | influx => exact toInflux_outcome hname hp
    | find =>
      rw [← hmongo, outcome, toFind, Traced.result_bind]
      cases (c.mongoQuery name r).result <;> rfl
    | pipeline =>
      refine Eq.trans ?_ hmongo
      rw [outcome, toPipeline, Traced.result_bind]
      cases (c.mongoQuery name r).result <;> rfl

/-- The checks end with a violation exactly if the window does and everything before it passes. -/
lemma Target.check_eq_violation_iff {t : Target} {policy : SkipPolicy} {v : Violation} :
    t.check policy p = .error (.violation v) ↔
      p.window.check = .error v ∧ policy.settle (t.firstSkipped? p) () = .ok () := by
  unfold Target.check
  cases policy.settle (t.firstSkipped? p) () with
  | error s => simp
  | ok _ =>
    cases p.window.check with
    | error v' => simp
    | ok _ => simp

/-- A request on a proper name ends with a violation exactly if the configured cursor field is not
proper, the request has a token that can be read, and nothing but the token is in the way. -/
theorem outcome_eq_violation_iff (hname : Identifier.isProper name = true) {t : Target}
    {v : Violation} :
    c.outcome t name r = .error (.violation v) ↔
      v = .unsafeIdentifier c.config.cursorField ∧
        Identifier.isProper c.config.cursorField = false ∧ r.page.lastId?.isSome = true ∧
        c.outcome t name r.withoutToken = .ok () := by
  rw [outcome_eq t hname, outcome_eq t hname, prepare_withoutToken]
  cases hp : (c.prepare r).result with
  | error e =>
    obtain ⟨e', rfl⟩ := of_prepare_eq_error hp
    simp [Except.map]
  | ok p =>
    have hwindow := (of_prepare_eq_ok hp).1
    -- without the token only the conditions and the ordering are left to check
    have hrest : t.check c.config.skipPolicy
          { p with window := r.page.withoutToken.window c.config.pageSettings } = .ok () ↔
        c.config.skipPolicy.settle (t.firstSkipped? p) () = .ok () := by
      have hskipped : t.firstSkipped?
          { p with window := r.page.withoutToken.window c.config.pageSettings }
            = t.firstSkipped? p := by
        cases t <;> rfl
      rw [Target.check, hskipped, r.page.check_withoutToken]
      cases c.config.skipPolicy.settle (t.firstSkipped? p) () with
      | error s => simp
      | ok _ => simp
    simp only [ok_bind, Except.map, hrest]
    rw [Target.check_eq_violation_iff, hwindow, Page.Request.check_eq_error_iff]
    simp only [and_assoc]
    rfl

/-- Settings that are accepted although no builder accepts their cursor field. -/
def dottedConfig : Config :=
  { Config.default with cursorField := ".id" }

/-- A request for the page behind the key 42. -/
def pagedRequest : Request where
  filter := .none
  ordering := .none
  fields := []
  page := { Page.Request.whole with token := some "eyJsYXN0X2lkIjo0Mn0=" }

/-- The violation that a compilation ends with, if it does. -/
def violation? : Except CompileError Unit → Option Violation
  | .error (.violation v) => some v
  | _ => none

/-- A violation is how the result ends. -/
lemma eq_of_violation? {x : Except CompileError Unit} {v : Violation} (h : violation? x = some v) :
    x = .error (.violation v) := by
  unfold violation? at h
  split at h
  · obtain rfl := Option.some.inj h
    rfl
  · cases h

/-- The request for a page on a dotted cursor field, on a proper name. -/
theorem outcome_eq_violation_iff_pagedRequest :
    Identifier.isProper "users" = true ∧
      ((⟨dottedConfig, []⟩ : Compiler).outcome (.sql .postgres) "users" pagedRequest
          = .error (.violation (.unsafeIdentifier ".id")) ↔
        Violation.unsafeIdentifier ".id" = .unsafeIdentifier dottedConfig.cursorField ∧
          Identifier.isProper dottedConfig.cursorField = false ∧
          pagedRequest.page.lastId?.isSome = true ∧
          (⟨dottedConfig, []⟩ : Compiler).outcome (.sql .postgres) "users"
            pagedRequest.withoutToken = .ok ()) :=
  ⟨by decide, outcome_eq_violation_iff (by decide)⟩

/-- Not every request on a proper name is free of violations under every accepted settings. -/
theorem not_forall_outcome_ne_violation :
    ¬ ∀ (config : Config) (c : Compiler), ofConfig config = .ok c →
      ∀ (t : Target) (name : String), Identifier.isProper name = true →
        ∀ (r : Request) (v : Violation), c.outcome t name r ≠ .error (.violation v) := by
  intro h
  have hc : ofConfig dottedConfig = .ok ⟨dottedConfig, []⟩ := rfl
  have hname : Identifier.isProper "users" = true := by decide
  refine h dottedConfig _ hc (.sql .postgres) "users" hname pagedRequest
    (.unsafeIdentifier ".id") (eq_of_violation? ?_)
  decide +kernel

end Compiler

end ReadQuery
