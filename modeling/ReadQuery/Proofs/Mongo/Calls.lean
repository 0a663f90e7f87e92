import ReadQuery.Mongo.Query
import ReadQuery.Proofs.Ordering
import ReadQuery.Proofs.Page

/-!
# Calls on the builder of MongoDB queries

What the calls on `Query` that compile a read come to: under the strict policy the first skipped
condition or entry of an ordering ends them, windows and projected fields are checked, and otherwise
the builder they leave has documents added.
-/

namespace ReadQuery.Mongo

/-- The key of an entry of an ordering. -/
def orderKey (e : SortEntry) : Compiled String :=
  .ofExcept (e.fieldRef.map FieldRef.dotted)

/-- The entry of the sort document, if the entry of the ordering has a key. -/
def sortPair? (e : SortEntry) : Option (String × Bson) :=
  (orderKey e).form?.map fun key =>
    (key, .int32 (match e.direction with
      | .ascending => 1
      | .descending => -1))

/-- The document of a cursor: rows strictly after a key. -/
def cursorDocument (cursor : Page.Cursor) : Document :=
  [(cursor.field, .entry "$gt" (.int64 cursor.lastId))]

/-- The first entry of an ordering is taken first. -/
lemma orderDocument_cons (policy : SkipPolicy) (e : SortEntry) (es : List SortEntry)
    (d : Document) :
    (orderDocument policy (e :: es) d).result
      = (policy.accept e.field (orderKey e)).result >>= fun key =>
          (orderDocument policy es (d.insertAll ((key.map fun key =>
            (key, Bson.int32 (match e.direction with
              | .ascending => 1
              | .descending => -1))).toList))).result := by
  simp only [orderDocument, Traced.result_bind, orderKey]
  congr 1
  funext key
  cases key with
  | none => rfl
  | some key => cases e.direction <;> rfl

/-- An ordering sets the keys that its entries have. -/
lemma orderDocument_result (policy : SkipPolicy) (es : List SortEntry) (d : Document) :
    (orderDocument policy es d).result
      = policy.settle (SortEntry.firstSkipped? orderKey es)
          (d.insertAll (es.filterMap sortPair?)) := by
  induction es generalizing d with
  | nil => simp [orderDocument, SortEntry.firstSkipped?, Document.insertAll]
  | cons e es ih =>
    simp only [orderDocument_cons, ih]
    refine (SortEntry.accept_cons policy orderKey e es _).trans ?_
    cases h : (orderKey e).form? <;> simp [sortPair?, h, Document.insertAll]

namespace Query

/-- A filter adds its document, unless something in it is skipped and that is not allowed. -/
lemma filter_result (q : Query) (f : Filter) (policy : SkipPolicy) :
    (q.filter f policy).toTraced.result
      = policy.settle (Filter.firstSkipped? condition f.liveConditions)
          { q with required := q.required ++ ((f.remains condition).map ofClause).toList } := by
  simp only [Query.filter, Step.result_atomic, Traced.result_bind, Traced.result_pure, filter?,
    Filter.compile_result, SkipPolicy.settle_map]

/-- An ordering sets its document, unless an entry is skipped and that is not allowed. -/
lemma orderBy_result (q : Query) (policy : SkipPolicy) (es : List SortEntry) :
    (q.orderBy policy es).toTraced.result
      = policy.settle (SortEntry.firstSkipped? orderKey es)
          { q with order :=
              let d := Document.insertAll [] (es.filterMap sortPair?)
              if d.isEmpty then none else some d } := by
  simp only [Query.orderBy, Step.result_atomic, Traced.result_bind, Traced.result_pure, order?,
    orderDocument_result, SkipPolicy.settle_map]

/-- A window sets the limit and the offset and adds its cursor, if it passes the check. -/
lemma paginate_result (q : Query) (w : Page.Window) :
    (q.paginate w).toTraced.result = w.check >>= fun _ =>
      .ok { q with
        required := q.required ++ w.after.toList.map cursorDocument
        skip := w.offset
        limit := w.limit } := by
  simp only [Query.paginate, Step.result_atomic, Page.Window.check]
  cases w.after with
  | none => simp
  | some cursor =>
    cases h : Identifier.ensure cursor.field with
    | error v => simp only [h, Traced.result_bind, Traced.result_ofExcept, Except.map, error_bind]
    | ok field =>
      obtain ⟨-, rfl⟩ := Identifier.ensure_eq_ok_iff.1 h
      simp only [h, Traced.result_bind, Traced.result_ofExcept, Traced.result_pure, Except.map,
        ok_bind]
      rfl

/-- A projection of proper fields succeeds. -/
lemma project_result (q : Query) {fields : List String}
    (h : ∀ field ∈ fields, Identifier.isProper field = true) :
    ∃ q', (q.project fields).toTraced.result = .ok q' := by
  obtain ⟨names, hnames⟩ := exists_mapM_eq_ok (f := Identifier.ensure) fun field hf =>
    ⟨field, Identifier.ensure_eq_ok_iff.2 ⟨h field hf, rfl⟩⟩
  simp only [Query.project, Step.result_atomic, Traced.result_bind, Traced.result_ofExcept,
    Traced.result_pure, hnames, ok_bind]
  exact ⟨_, rfl⟩

end Query

end ReadQuery.Mongo
