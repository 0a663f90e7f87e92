import ReadQuery.Proofs.Ordering
import ReadQuery.Proofs.Page
import ReadQuery.Sql.Select

/-!
# Calls on the builder of statements

What the calls on `Select` that compile a read come to: under the strict policy the first skipped
condition or entry of an ordering ends them, a window is checked, and otherwise the builder they
leave is the one they were made on with predicates, entries or bounds added.
-/

namespace ReadQuery.Sql

/-- The predicate of a cursor: rows strictly after a key. -/
def cursorPredicate (cursor : Page.Cursor) : Predicate :=
  ⟨cursor.field ++ " > ?", [.int cursor.lastId]⟩

namespace Select

variable {d : Dialect}

/-- Adding predicates one by one adds their texts and their values. -/
lemma pushAll_eq (s : Select d) (rs : List Predicate) :
    s.pushAll rs = { s with
      conditions := s.conditions ++ rs.map (·.sql)
      params := s.params ++ rs.flatMap (·.params) } := by
  unfold pushAll
  induction rs generalizing s with
  | nil => simp
  | cons r rs ih =>
    rw [List.foldl_cons, ih]
    simp [push, List.append_assoc]

/-- A filter adds its entries, unless something in it is skipped and that is not allowed. -/
lemma filter_result (s : Select d) (f : Filter) (policy : SkipPolicy) :
    (s.filter f policy).toTraced.result
      = policy.settle (Filter.firstSkipped? (condition d) f.liveConditions)
          (s.pushAll (Tree.ofClause? (f.remains (condition d))).entries) := by
  simp only [Select.filter, Step.result_atomic, Traced.result_bind, Traced.result_pure,
    Sql.filter, Filter.compile_result, SkipPolicy.settle_map]

/-- The first entry of an ordering is taken first. -/
lemma orderBy_cons (s : Select d) (policy : SkipPolicy) (e : SortEntry) (es : List SortEntry) :
    (s.orderBy policy (e :: es)).toTraced.result
      = (policy.accept e.field (orderEntry d e)).result >>= fun entry =>
          (orderBy { s with ordering := s.ordering ++ entry.toList } policy
            es).toTraced.result := by
  simp only [Select.orderBy]
  split
  · next h => rw [h]; rfl
  · next h => rw [h]; simp [Step.after, Step.toTraced]
  · next h => rw [h]; simp [Step.after, Step.toTraced]

/-- An ordering adds its entries, unless one is skipped and that is not allowed. -/
lemma orderBy_result (s : Select d) (policy : SkipPolicy) (es : List SortEntry) :
    (s.orderBy policy es).toTraced.result
      = policy.settle (SortEntry.firstSkipped? (orderEntry d) es)
          { s with ordering := s.ordering ++ es.filterMap fun e => (orderEntry d e).form? } := by
  induction es generalizing s with
  | nil => simp [Select.orderBy, Step.done, Step.toTraced, SortEntry.firstSkipped?]
  | cons e es ih =>
    simp only [orderBy_cons, ih]
    refine (SortEntry.accept_cons policy (orderEntry d) e es fun entry =>
      { s with ordering := s.ordering ++ entry.toList
        ++ es.filterMap fun e => (orderEntry d e).form? }).trans ?_
    cases h : (orderEntry d e).form? <;> simp [h, List.append_assoc]

/-- A window sets the limit and the offset and adds its cursor, if it passes the check. -/
lemma paginate_result (s : Select d) (w : Page.Window) :
    (s.paginate w).toTraced.result = w.check >>= fun _ =>
      .ok { s.pushAll (w.after.toList.map cursorPredicate) with
        limit := w.limit, offset := w.offset } := by
  simp only [Select.paginate, Step.result_atomic, Page.Window.check]
  cases w.after with
  | none => rfl
  | some cursor =>
    cases h : Identifier.ensure cursor.field with
    | error v => simp only [h, Traced.result_bind, Traced.result_ofExcept, Except.map, error_bind]
    | ok field =>
      obtain ⟨-, rfl⟩ := Identifier.ensure_eq_ok_iff.1 h
      simp only [h, Traced.result_bind, Traced.result_ofExcept, Traced.result_pure, Except.map,
        ok_bind]
      rfl

end Select

end ReadQuery.Sql
