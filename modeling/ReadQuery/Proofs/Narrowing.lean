import ReadQuery.Proofs.Influx.Conjunction
import ReadQuery.Proofs.Sql.Conjunction

/-!
# Adding predicates to a query

Every predicate entry is joined with `AND`, and so a predicate that is added can be expected to
narrow the result. For the builders of SQL and InfluxQL statements that is so exactly if no
hand-written predicate is read with an `OR` outside of parentheses
(`predicates_only_narrow_iff`): the texts of hand-written predicates are joined as they are, and
`AND` binds tighter than `OR`. Compiled filters are parenthesized and do no harm anywhere.
-/

namespace ReadQuery

namespace Sql

/-- The readings of the predicates that are written as some tokens. -/
def readingOf (tss : List (List (Token Predicate))) (p : Predicate) :
    Option (List (Token Predicate)) :=
  tss.find? fun ts =>
    (⟨Token.spell (·.sql) ts, (Token.atoms ts).flatMap (·.params)⟩ : Predicate) = p

/-- Expressions in SQL are their own readings, one for each predicate. -/
lemma isReading_readingOf {tss : List (List (Token Predicate))}
    (h : ∀ ts ∈ tss, Token.IsExpression ts) : IsReading (readingOf tss) := by
  have hfound : ∀ {p ts}, readingOf tss p = some ts →
      (⟨Token.spell (·.sql) ts, (Token.atoms ts).flatMap (·.params)⟩ : Predicate) = p := by
    intro p ts hts
    have hwritten := List.find?_some hts
    exact of_decide_eq_true hwritten
  constructor
  · intro p ts hts
    obtain rfl := hfound hts
    exact Token.written_spell _ ts
  · intro p ts hts
    obtain rfl := hfound hts
    rfl
  · intro p ts hts
    exact h ts (List.mem_of_find?_eq_some hts)

end Sql

namespace Influx

/-- The readings of the predicates that are written as some tokens. -/
def readingOf (tss : List (List (Token String))) (s : String) : Option (List (Token String)) :=
  tss.find? fun ts => Token.spell id ts = s

/-- Expressions in InfluxQL are their own readings, one for each predicate. -/
lemma isReading_readingOf {tss : List (List (Token String))}
    (h : ∀ ts ∈ tss, Token.IsExpression ts) : IsReading (readingOf tss) := by
  constructor
  · intro s ts hts
    have hwritten := List.find?_some hts
    obtain rfl : Token.spell id ts = s := of_decide_eq_true hwritten
    exact Token.written_spell id ts
  · intro s ts hts
    exact h ts (List.mem_of_find?_eq_some hts)

end Influx

/-- The clauses of a statement are the predicates that were added, joined by `AND`. They are read
as the conjunction of what each predicate is read as, after any sequence of calls, exactly if
predicates that are added only narrow the result, and exactly if no hand-written predicate that is
accepted is read with an `OR` outside of parentheses. -/
theorem predicates_only_narrow_iff {raw : Sql.Predicate → Option (List (Token Sql.Predicate))}
    {rawInflux : String → Option (List (Token String))} (hsql : Sql.IsReading raw)
    (hinflux : Influx.IsReading rawInflux) :
    ((∀ (d : Sql.Dialect) (table : String) (calls : List (Sql.Call d)) (out : Sql.Predicate),
        (∀ k ∈ calls, k.Readable raw) →
        ((Sql.Select.fromTable table).run calls).build.result = .ok out →
        ((Sql.Select.fromTable table).run calls).Emits out
          (calls.flatMap (Sql.Call.prewherePredicates raw))
          (calls.flatMap (Sql.Call.predicates raw))) ∧
      ∀ d, [Sql.Conjoins d raw, Sql.OnlyNarrows d raw, Sql.AllTight raw].TFAE) ∧
    ((∀ (measurement : String) (calls : List Influx.Call) (out : String),
        (∀ k ∈ calls, k.Readable rawInflux) →
        ((Influx.Query.ofMeasurement measurement).run calls).build.result = .ok out →
        ((Influx.Query.ofMeasurement measurement).run calls).Emits out
          (calls.flatMap (Influx.Call.predicates rawInflux))) ∧
      [Influx.Conjoins rawInflux, Influx.OnlyNarrows rawInflux,
        Influx.AllTight rawInflux].TFAE) := by
  refine ⟨⟨?_, fun d => Sql.conjunction_tfae d hsql⟩, ?_, Influx.conjunction_tfae hinflux⟩
  · intro d table calls out hreadable hout
    rw [Sql.Select.build_result] at hout
    exact ((Sql.Select.reads_fromTable table).run hsql hreadable).emits hout
  · intro measurement calls out hreadable hout
    rw [Influx.Query.build_result] at hout
    have hstart : (Influx.Query.ofMeasurement measurement).Reads [] := .nil
    exact (hstart.run hinflux hreadable).emits hout

namespace Sql

/-- Two predicates, the first of which is read as a disjunction. -/
def openDisjunction : List (List (Token Predicate)) :=
  [[.atom ⟨"a = 1", []⟩, .join .or, .atom ⟨"b = 2", []⟩], [.atom ⟨"c = 3", []⟩]]

/-- The disjunction in parentheses. -/
def closedDisjunction : List (List (Token Predicate)) :=
  [[.opening, .atom ⟨"a = 1", []⟩, .join .or, .atom ⟨"b = 2", []⟩, .closing]]

/-- The predicates with a free disjunction are expressions. -/
lemma isExpression_of_mem_open : ∀ ts ∈ openDisjunction, Token.IsExpression ts := by
  simp [openDisjunction, Token.IsExpression, Token.value?, Token.valueFrom]

/-- The predicates with a disjunction in parentheses are expressions. -/
lemma isExpression_of_mem_closed : ∀ ts ∈ closedDisjunction, Token.IsExpression ts := by
  simp [closedDisjunction, Token.IsExpression, Token.value?, Token.valueFrom]

end Sql

/-- With parentheses a disjunction narrows what it is added to. -/
theorem predicates_only_narrow_iff_closed :
    Sql.IsReading (Sql.readingOf Sql.closedDisjunction) ∧
      Influx.IsReading (Influx.readingOf [[.atom "c = 3"]]) ∧
      Sql.OnlyNarrows .sqlite (Sql.readingOf Sql.closedDisjunction) ∧
      Influx.OnlyNarrows (Influx.readingOf [[.atom "c = 3"]]) := by
  have hsql := Sql.isReading_readingOf Sql.isExpression_of_mem_closed
  have hinflux : Influx.IsReading (Influx.readingOf [[.atom "c = 3"]]) :=
    Influx.isReading_readingOf (by simp [Token.IsExpression, Token.value?, Token.valueFrom])
  have htight : Sql.AllTight (Sql.readingOf Sql.closedDisjunction) := by
    intro p ts _ hts
    have hmem := List.mem_of_find?_eq_some hts
    obtain rfl := List.mem_singleton.1 hmem
    rfl
  have htightInflux : Influx.AllTight (Influx.readingOf [[.atom "c = 3"]]) := by
    intro s ts _ hts
    have hmem := List.mem_of_find?_eq_some hts
    obtain rfl := List.mem_singleton.1 hmem
    rfl
  have h := predicates_only_narrow_iff hsql hinflux
  exact ⟨hsql, hinflux, ((h.1.2 .sqlite).out 1 2).2 htight, (h.2.2.out 1 2).2 htightInflux⟩

namespace Sql

/-- Two accepted predicates, added one after the other. -/
def openCallsInTurn : List (Call .sqlite) :=
  [.filterRaw "a = 1 OR b = 2" [], .filterRaw "c = 3" []]

/-- The predicates of the calls can be read. -/
lemma readable_openCallsInTurn :
    ∀ k ∈ openCallsInTurn, k.Readable (readingOf openDisjunction) := by
  have hfirst : (readingOf openDisjunction ⟨"a = 1 OR b = 2", []⟩).isSome = true := by
    decide +kernel
  have hsecond : (readingOf openDisjunction ⟨"c = 3", []⟩).isSome = true := by decide +kernel
  have hraw : ∀ {condition p}, (Call.filterRaw condition [] : Call .sqlite).raw? = some p →
      p = ⟨condition, []⟩ := by
    intro condition p hp
    rw [Call.raw?] at hp
    exact (Select.rawPredicate_eq_ok (eq_ok_of_toOption hp)).1
  intro k hk p hp
  rcases List.mem_pair.1 hk with rfl | rfl
  · rw [hraw hp]
    exact hfirst
  · rw [hraw hp]
    exact hsecond

/-- The calls add the predicates with the free disjunction. -/
lemma predicates_openCallsInTurn :
    openCallsInTurn.flatMap (Call.predicates (readingOf openDisjunction)) = openDisjunction := by
  decide +kernel

end Sql

/-- Predicates are not joined as a conjunction whatever is called: behind `a = 1 OR b = 2` the
predicate `c = 3` is joined with `b = 2` only. -/
theorem not_forall_conjoins :
    ¬ ∀ (raw : Sql.Predicate → Option (List (Token Sql.Predicate))), Sql.IsReading raw →
      ∀ d, Sql.Conjoins d raw := by
  intro h
  have hreading := Sql.isReading_readingOf Sql.isExpression_of_mem_open
  obtain ⟨hreads, -⟩ := h _ hreading .sqlite Sql.openCallsInTurn Sql.readable_openCallsInTurn
  rw [Sql.predicates_openCallsInTurn] at hreads
  -- where `a = 1` holds and `c = 3` does not, the text holds and the conjunction does not
  have htext : Token.clauseValue? (fun p => p.sql == "a = 1") Sql.openDisjunction = some true := by
    decide +kernel
  have hconjunction : Sql.openDisjunction.all
      (fun ts => Token.value? (fun p => p.sql == "a = 1") ts == some true) = false := by
    decide +kernel
  have hvalue := hreads fun p => p.sql == "a = 1"
  rw [htext, hconjunction] at hvalue
  cases hvalue

end ReadQuery
