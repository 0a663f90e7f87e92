import ReadQuery.Influx.Query
import ReadQuery.Proofs.Ordering
import ReadQuery.Proofs.Page

/-!
# Calls on the builder of InfluxQL statements

What the calls on `Query` that compile a read come to: under the strict policy the first skipped
condition or entry of an ordering ends them, a window is checked, and otherwise the builder they
leave has predicates and bounds added. A statement of proper identifiers can be built.
-/

namespace ReadQuery.Influx

/-- The predicate of a cursor: points strictly after a key. -/
def cursorPredicate (cursor : Page.Cursor) : String :=
  quoteName cursor.field ++ " > " ++ Number.showInt64 cursor.lastId

/-- A proper name may be quoted. -/
lemma safeName_of_isProper {name : String} (h : Identifier.isProper name = true) :
    safeName name = .ok (quoteName name) := by
  simp [safeName, Identifier.ensure, h, Except.map]

namespace Query

/-- The order that the entries of an ordering leave, the last one deciding. -/
def lastDirection (order : Option Direction) (es : List SortEntry) : Option Direction :=
  es.foldl (fun order e => (timeDirection e).form? <|> order) order

/-- A filter adds its entries, unless something in it is skipped and that is not allowed. -/
lemma filter_result (q : Query) (f : Filter) (policy : SkipPolicy) :
    (q.filter f policy).toTraced.result
      = policy.settle (Filter.firstSkipped? condition f.liveConditions)
          { q with conditions := q.conditions ++ entries (f.remains condition) } := by
  simp only [Query.filter, Step.result_atomic, Traced.result_bind, Traced.result_pure,
    Influx.filter, Filter.compile_result, SkipPolicy.settle_map]

/-- The first entry of an ordering is taken first. -/
lemma orderBy_cons (q : Query) (policy : SkipPolicy) (e : SortEntry) (es : List SortEntry) :
    (q.orderBy policy (e :: es)).toTraced.result
      = (policy.accept e.field (timeDirection e)).result >>= fun d =>
          (orderBy { q with timeOrder := d <|> q.timeOrder } policy es).toTraced.result := by
  simp only [Query.orderBy]
  split
  · next h => rw [h]; rfl
  · next h => rw [h]; simp [Step.after, Step.toTraced]
  · next h => rw [h]; simp [Step.after, Step.toTraced]

/-- An ordering sets the direction of the last of its entries. -/
lemma orderBy_result (q : Query) (policy : SkipPolicy) (es : List SortEntry) :
    (q.orderBy policy es).toTraced.result
      = policy.settle (SortEntry.firstSkipped? timeDirection es)
          { q with timeOrder := lastDirection q.timeOrder es } := by
  induction es generalizing q with
  | nil => simp [Query.orderBy, Step.done, Step.toTraced, SortEntry.firstSkipped?, lastDirection]
  | cons e es ih =>
    simp only [orderBy_cons, ih]
    exact SortEntry.accept_cons policy timeDirection e es fun d =>
      { q with timeOrder := lastDirection (d <|> q.timeOrder) es }

/-- A window sets the limit and the offset and adds its cursor, if it passes the check. -/
lemma paginate_result (q : Query) (w : Page.Window) :
    (q.paginate w).toTraced.result = w.check >>= fun _ =>
      .ok { q with
        conditions := q.conditions ++ w.after.toList.map cursorPredicate
        limit := w.limit
        offset := w.offset } := by
  simp only [Query.paginate, Step.result_atomic, Page.Window.check]
  cases w.after with
  | none => simp
  | some cursor =>
    cases h : Identifier.ensure cursor.field with
    | error v =>
      simp only [safeName, h, Traced.result_bind, Traced.result_ofExcept, Except.map, error_bind]
    | ok field =>
      obtain ⟨-, rfl⟩ := Identifier.ensure_eq_ok_iff.1 h
      simp only [safeName, h, Traced.result_bind, Traced.result_ofExcept, Traced.result_pure,
        Except.map, ok_bind]
      rfl

/-- A read of proper fields from a proper measurement has a statement. -/
lemma exists_statement {q : Query} (fields : List String)
    (hm : Identifier.isProper q.measurement = true) (hi : q.items = fields.map .field)
    (hf : ∀ field ∈ fields, Identifier.isProper field = true) (ht : q.tags = [])
    (hn : q.interval = none) (hfill : q.fill = none) : ∃ s, q.statement = .ok s := by
  have hitem : ∀ item ∈ fields.map Item.field, ∃ text, item.text = .ok text := by
    intro item hitem
    obtain ⟨field, hfield, rfl⟩ := List.mem_map.1 hitem
    exact ⟨_, safeName_of_isProper (hf field hfield)⟩
  obtain ⟨texts, htexts⟩ := exists_mapM_eq_ok hitem
  have htags : ([] : List String).mapM safeName = .ok [] := rfl
  rw [Query.statement, Query.clauses, Query.intervalTexts, hi, ht, hn, hfill, htexts, htags,
    safeName_of_isProper hm]
  cases fields with
  | nil => exact ⟨_, rfl⟩
  | cons field fields => exact ⟨_, rfl⟩

end Query

end ReadQuery.Influx
