import ReadQuery.Proofs.Filter.Faithful
import ReadQuery.Proofs.Walker

/-!
# Truth of the output

Whether the output of a walker has the truth value of the filter. A membership in nothing has a
truth value of its own (`constant?`). Where it is false, it is rendered in the form that nothing
satisfies (`Walker.rendersNever`); where it is true, it is left out, and in a disjunction with other
conditions the output is then no longer true.

The main statement is `emits_value_iff`: if no condition is skipped, the output has the value of the
filter under all assignments exactly if the filter is `Faithful`, which is the same for all walkers.
In any case the output holds only where the filter does (`value_of_output`), and a filter without
conditions that are constantly true is faithful (`Filter.faithful_of_constant?`).
-/

namespace ReadQuery

open Walker

/-- The truth value that a condition has of its own: nothing is in an empty list. -/
def Condition.constant? (c : Condition) : Option Bool :=
  match c.op with
  | .among negated => if c.resolveList.isEmpty then some negated else none
  | _ => none

/-- The operands leave out a condition exactly if it is constantly true, or they have it skipped. -/
lemma Condition.skipped_or_isRendered (c : Condition) :
    (∃ r, c.verdict = .skipped r) ∨ c.verdict.isRendered = (c.constant? != some true) := by
  unfold verdict constant?
  cases c.op with
  | unspecified => exact .inl ⟨_, rfl⟩
  | nullness negated => exact .inr rfl
  | among negated =>
    refine .inr ?_
    cases c.resolveList with
    | nil => cases negated <;> rfl
    | cons v vs => rfl
  | compare cmp =>
    cases c.scalar? with
    | none => exact .inl ⟨_, rfl⟩
    | some v => exact .inr rfl
  | between =>
    cases c.resolveRange with
    | error r => exact .inl ⟨_, rfl⟩
    | ok range => exact .inr rfl
  | text place folded | regex folded | search =>
    cases c.patternText? with
    | none => exact .inl ⟨_, rfl⟩
    | some s => exact .inr rfl

/-- The truth value that an occurrence of a condition has of its own. -/
def Occurrence.constant? (o : Occurrence) : Option Bool :=
  o.1.constant?

/-- An assignment to the conditions, which does not change the constant ones. -/
def Occurrence.assigned (v : Occurrence → Bool) : Occurrence → Bool :=
  Clause.assigned constant? v

/-- The truth value of an output; one that is absent is true. -/
def outputValue (m : Option Meaning) (v : Occurrence → Bool) : Bool :=
  (m.map fun g => g v).getD true

namespace Filter

/-- The truth value of a filter under an assignment to its conditions; an empty filter is true. -/
def value (f : Filter) (v : Occurrence → Bool) : Bool :=
  (f.numbered.map fun k => k.holds v).getD true

/-- Whether leaving out the conditions that are constantly true keeps the truth value. -/
def Faithful (f : Filter) : Prop :=
  ∀ k, f.numbered = some k → k.faithful Occurrence.constant? = true

/-- The tree of the filter is looked through. -/
instance (f : Filter) : Decidable f.Faithful :=
  match h : f.numbered with
  | Option.none => isTrue fun _ hk => by rw [h] at hk; cases hk
  | some k => decidable_of_iff (k.faithful Occurrence.constant? = true)
      ⟨fun hk k' hk' => by rw [h] at hk'; cases hk'; exact hk, fun hf => hf k h⟩

/-- The numbered tree has no empty group and no leaf twice. -/
lemma full_and_nodup_of_numbered {f : Filter} {k : Clause Occurrence} (h : f.numbered = some k) :
    k.Full ∧ k.leaves.Nodup := by
  obtain ⟨t, ht, rfl⟩ := Option.map_eq_some_iff.1 h
  exact ⟨Clause.full_zipIdx (full_of_tree ht), Clause.nodup_leaves_zipIdx 0 t⟩

/-- A filter keeps its truth value if no condition is constantly true. -/
theorem faithful_of_constant? {f : Filter}
    (h : ∀ c ∈ f.liveConditions, c.constant? ≠ some true) : f.Faithful := by
  intro k hk
  obtain ⟨hfull, hnodup⟩ := full_and_nodup_of_numbered hk
  exact Clause.faithful_of_forall_ne hfull hnodup fun o ho => h o.1 (mem_liveConditions hk o ho)

end Filter

namespace Walker

/-- Whether a condition is rendered in the form that nothing satisfies. -/
def RendersNever (b : Walker) (c : Condition) : Prop :=
  match b with
  | sql d => Sql.condition d c = .rendered .never
  | mongo => Mongo.condition c = .rendered Mongo.never
  | influx => Influx.condition c = .rendered Influx.never

/-- A condition that is not skipped is left out exactly if it is constantly true. -/
lemma isRendered_verdict {b : Walker} {c : Condition} (h : (b.verdict c).reason? = none) :
    (b.verdict c).isRendered = (c.constant? != some true) := by
  have hskip : ∀ r, b.verdict c ≠ .skipped r := by
    intro r hr
    rw [hr] at h
    cases h
  have hv : b.verdict c = c.verdict :=
    (b.skipped_or_verdict_eq c).resolve_left fun ⟨r, hr⟩ => hskip r hr
  rw [hv] at hskip ⊢
  exact c.skipped_or_isRendered.resolve_left fun ⟨r, hr⟩ => hskip r hr

/-- A condition that is constantly false is rendered in the form that nothing satisfies. -/
lemma rendersNever {b : Walker} {c : Condition} (h : (b.verdict c).reason? = none)
    (hc : c.constant? = some false) : b.RendersNever c := by
  obtain ⟨hop, hlist⟩ : c.op = .among false ∧ c.resolveList = [] := by
    unfold Condition.constant? at hc
    split at hc
    · next negated hop =>
      split at hc
      · next hlist =>
        obtain rfl : negated = false := Option.some.inj hc
        exact ⟨hop, List.isEmpty_iff.1 hlist⟩
      · cases hc
    · cases hc
  cases b with
  | sql d =>
    rw [verdict, Sql.condition] at h
    rw [RendersNever, Sql.condition]
    cases hexpr : Sql.comparedExpr d c with
    | error r =>
      rw [hexpr] at h
      cases h
    | ok expr => simp only [Sql.operation, hop, hlist, Bool.false_eq_true, if_false]
  | mongo =>
    rw [verdict, Mongo.condition] at h
    rw [RendersNever, Mongo.condition]
    cases hfield : c.fieldRef with
    | error r =>
      rw [hfield] at h
      cases h
    | ok f =>
      cases hpart : c.datePart with
      | none => simp [Mongo.keyCondition, hop, hlist]
      | some part => simp [Mongo.exprCondition, hop, hlist]
  | influx =>
    rw [verdict, Influx.condition] at h
    rw [RendersNever, Influx.condition]
    cases hfield : c.fieldRef with
    | error r =>
      rw [hfield] at h
      cases h
    | ok f =>
      cases hpart : c.datePart with
      | some part =>
        rw [hfield, hpart] at h
        cases h
      | none => simp [Influx.operation, hop, hlist]

/-- What a walker makes of a filter if it skips no condition. -/
def output (b : Walker) (f : Filter) : Option Meaning :=
  (f.kept fun c => (b.verdict c).isRendered).map fun k v => k.holds v

/-- A filter of which nothing is skipped is emitted under every policy. -/
lemma emits_output {b : Walker} {f : Filter}
    (h : ∀ c ∈ f.liveConditions, (b.verdict c).reason? = none) (policy : SkipPolicy) :
    b.Emits policy f (.ok (b.output f)) := by
  have he := b.emits policy f
  rwa [Filter.firstSkipped?_eq_none_iff.2 h, SkipPolicy.settle_none] at he

/-- The value of the output is that of what is left of the filter without the conditions that are
constantly true. -/
lemma value_output {b : Walker} {f : Filter}
    (h : ∀ c ∈ f.liveConditions, (b.verdict c).reason? = none) (v : Occurrence → Bool) :
    outputValue (b.output f) v
      = (f.numbered.map (Clause.emitted Occurrence.constant? v)).getD true := by
  have hkept : (f.kept fun c => (b.verdict c).isRendered)
      = f.numbered.bind (Clause.left Occurrence.constant?) :=
    Filter.kept_congr fun c hc => isRendered_verdict (h c hc)
  rw [outputValue, output, hkept]
  cases f.numbered with
  | none => rfl
  | some k =>
    rw [Option.bind_some, Option.map_some, Option.getD_some, Clause.emitted, Option.map_map]
    rfl

/-- The output holds only where the filter does. -/
theorem value_of_output {b : Walker} {f : Filter}
    (h : ∀ c ∈ f.liveConditions, (b.verdict c).reason? = none) (v : Occurrence → Bool)
    (hv : outputValue (b.output f) (Occurrence.assigned v) = true) :
    f.value (Occurrence.assigned v) = true := by
  rw [value_output h] at hv
  rw [Filter.value]
  cases hk : f.numbered with
  | none => rfl
  | some k =>
    rw [hk] at hv
    exact Clause.holds_of_emitted (Filter.full_and_nodup_of_numbered hk).1 hv

end Walker

/-- If no condition is skipped, an output is emitted that has the truth value of the filter, under
all assignments, exactly if the filter is faithful. -/
theorem emits_value_iff {b : Walker} {f : Filter}
    (h : ∀ c ∈ f.liveConditions, (b.verdict c).reason? = none) (policy : SkipPolicy) :
    ∃ m, b.Emits policy f (.ok m) ∧
      (∀ c ∈ f.liveConditions, c.constant? = some false → b.RendersNever c) ∧
      ((∀ v, outputValue m (Occurrence.assigned v) = f.value (Occurrence.assigned v)) ↔
        f.Faithful) := by
  refine ⟨b.output f, emits_output h policy, fun c hc => rendersNever (h c hc), ?_⟩
  simp only [value_output h, Filter.value, Filter.Faithful]
  cases hk : f.numbered with
  | none => simp
  | some k =>
    obtain ⟨hfull, hnodup⟩ := Filter.full_and_nodup_of_numbered hk
    have hiff : k.faithful Occurrence.constant? = true ↔ ∀ v,
        Clause.emitted Occurrence.constant? (Occurrence.assigned v) k
          = k.holds (Occurrence.assigned v) := Clause.faithful_iff hfull hnodup
    simpa using hiff.symm

/-- A conjunction of a membership in nothing, which is left out, and a disjunction with another one,
which never holds. -/
def scopedFilter : Filter :=
  ⟨some .and, [.listed "id" (.among true) []],
    [.any [.single "a" (.compare .equals) (.int 1), .listed "b" (.among false) []]]⟩

/-- The output for the scoped filter has its truth value. -/
theorem emits_value_iff_scopedFilter :
    (∀ c ∈ scopedFilter.liveConditions, (influx.verdict c).reason? = none) ∧
      ∃ m, influx.Emits .strict scopedFilter (.ok m) ∧
        influx.RendersNever (.listed "b" (.among false) []) ∧
        ∀ v, outputValue m (Occurrence.assigned v)
          = scopedFilter.value (Occurrence.assigned v) := by
  have h : ∀ c ∈ scopedFilter.liveConditions, (influx.verdict c).reason? = none := by
    decide +kernel
  obtain ⟨m, hm, hnever, hiff⟩ := emits_value_iff h .strict
  exact ⟨h, m, hm, hnever _ (by decide) rfl, hiff.2 (by decide)⟩

/-- A disjunction of a comparison and a membership in nothing, which is true of everything. -/
def wideFilter : Filter :=
  .any [.single "a" (.compare .equals) (.int 1), .listed "id" (.among true) []]

/-- Not every output has the truth value of its filter: of the wide filter only the comparison is
left. -/
theorem not_forall_emits_value :
    ¬ ∀ (b : Walker) (policy : SkipPolicy) (f : Filter),
      (∀ c ∈ f.liveConditions, (b.verdict c).reason? = none) →
        ∃ m, b.Emits policy f (.ok m) ∧
          ∀ v, outputValue m (Occurrence.assigned v) = f.value (Occurrence.assigned v) := by
  intro h
  obtain ⟨m, ⟨d, hd, hm⟩, hv⟩ := h mongo .strict wideFilter (by decide +kernel)
  have hd' : (Mongo.filter? .strict wideFilter).result
      = .ok (some [("a", .document [("$eq", .ofValue (.int 1))])]) := by
    rfl
  have ha : mongo.atoms wideFilter = [(.single "a" (.compare .equals) (.int 1), 0)] := by
    decide +kernel
  obtain rfl : some [("a", .document [("$eq", .ofValue (.int 1))])] = d :=
    Except.ok.inj (hd'.symm.trans hd)
  rw [ha] at hm
  have hfalse := hv fun _ => false
  -- the document can only be that of the comparison, and its meaning only the comparison's value
  cases m with
  | none => cases hm
  | some g =>
    obtain ⟨k, hk, hdoc, hg⟩ := hm
    cases k with
    | leaf o =>
      obtain rfl : o = (.single "a" (.compare .equals) (.int 1), 0) := by
        simpa [Clause.leaves] using hk
      have hvalue : outputValue (some g) (Occurrence.assigned fun _ => false) = false := by
        rw [outputValue, Option.map_some, Option.getD_some, ← hg]
        rfl
      rw [hvalue] at hfalse
      revert hfalse
      decide
    | group j parts => cases j <;> simp [Mongo.document, Mongo.junctionName] at hdoc

end ReadQuery
