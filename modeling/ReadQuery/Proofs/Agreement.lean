import ReadQuery.Proofs.Walker

/-!
# Agreement of the walkers

The walkers of all backends make the same of a filter without parts of dates and without patterns
that InfluxQL cannot write. They make the same of each of its conditions, and what they emit depends
on nothing else: they end with the same skipped condition, or the outputs have the same truth value
under every assignment to the conditions in them (`walkers_agree`).
-/

namespace ReadQuery

open Walker

/-- The conditions of a filter that count are on no part of a date, and no pattern of a regular
expression ends in an odd run of backslashes. -/
structure Filter.Plain (f : Filter) : Prop where
  datePart : ∀ c ∈ f.liveConditions, c.datePart = Option.none
  pattern : ∀ c ∈ f.liveConditions, ∀ folded s, c.op = .regex folded →
    c.patternText? = some s → ¬ Text.EndsInOddRun s

/-- A walker emits what another one does that makes the same of every condition that counts. -/
lemma Walker.emits_of_verdict_eq {b : Walker} {verdict : Condition → Compiled Unit}
    {policy : SkipPolicy} {f : Filter} (h : ∀ c ∈ f.liveConditions, b.verdict c = verdict c) :
    b.Emits policy f (policy.settle (Filter.firstSkipped? verdict f.liveConditions)
      ((f.kept fun c => (verdict c).isRendered).map fun k v => k.holds v)) := by
  have hs : Filter.firstSkipped? b.verdict f.liveConditions
      = Filter.firstSkipped? verdict f.liveConditions :=
    Filter.firstSkipped?_congr fun c hc => by rw [h c hc]
  have hk : (f.kept fun c => (b.verdict c).isRendered)
      = f.kept fun c => (verdict c).isRendered :=
    Filter.kept_congr fun c hc => by rw [h c hc]
  have he := b.emits policy f
  rwa [hs, hk] at he

/-- The walkers agree: on a plain filter they end with the same skipped condition, or they emit
outputs of the same meaning, which is none for an empty filter. -/
theorem walkers_agree {f : Filter} (hf : f.Plain) (d : Sql.Dialect) (policy : SkipPolicy) :
    ∃ outcome : Except Skipped (Option Meaning),
      (sql d).Emits policy f outcome ∧ mongo.Emits policy f outcome ∧
        influx.Emits policy f outcome ∧ (f.isEmpty = true → outcome = .ok none) := by
  refine ⟨policy.settle (Filter.firstSkipped? plainVerdict f.liveConditions)
    ((f.kept fun c => (plainVerdict c).isRendered).map fun k v => k.holds v), ?_, ?_, ?_, ?_⟩
  · exact emits_of_verdict_eq fun c hc => verdict_sql d (hf.datePart c hc)
  · exact emits_of_verdict_eq fun c hc => verdict_mongo (hf.datePart c hc)
  · exact emits_of_verdict_eq fun c hc => verdict_influx (hf.datePart c hc) (hf.pattern c hc)
  · intro hempty
    rw [Filter.liveConditions_of_isEmpty hempty, Filter.kept_of_isEmpty hempty]
    exact SkipPolicy.settle_none policy _

/-- A disjunction with a membership in nothing, a regular expression and a nested conjunction. -/
def mixedFilter : Filter :=
  ⟨some .or, [.single "a" (.compare .equals) (.int 1), .listed "b" (.among true) []],
    [.all [.single "c" (.regex true) (.string "x/y"), .nullary "d" (.nullness false)]]⟩

/-- The mixed filter has no part of a date, and its pattern ends in no backslash. -/
lemma mixedFilter_plain : mixedFilter.Plain where
  datePart := by decide
  pattern := by
    intro c hc folded s hop hs
    have hc' : c = .single "a" (.compare .equals) (.int 1) ∨ c = .listed "b" (.among true) [] ∨
        c = .single "c" (.regex true) (.string "x/y") ∨ c = .nullary "d" (.nullness false) := by
      simpa [mixedFilter, Filter.all, Filter.liveConditions, Filter.liveConditionsOfAll] using hc
    rcases hc' with rfl | rfl | rfl | rfl
    · cases hop
    · cases hop
    · obtain rfl : "x/y" = s := Option.some.inj hs
      decide
    · cases hop

/-- The walkers agree on the mixed filter. -/
theorem walkers_agree_mixedFilter :
    mixedFilter.Plain ∧ ∃ outcome : Except Skipped (Option Meaning),
      (sql .sqlite).Emits .strict mixedFilter outcome ∧ mongo.Emits .strict mixedFilter outcome ∧
        influx.Emits .strict mixedFilter outcome ∧
        (mixedFilter.isEmpty = true → outcome = .ok none) :=
  ⟨mixedFilter_plain, walkers_agree mixedFilter_plain .sqlite .strict⟩

end ReadQuery
