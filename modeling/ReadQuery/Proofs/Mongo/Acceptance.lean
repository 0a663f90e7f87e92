import ReadQuery.Proofs.Atomicity

/-!
# Documents that a query accepts

What a filter document means: `$and`, `$or` and `$nor` are the conjunction, the disjunction and the
negated disjunction of the documents in their arrays, every other clause is a predicate that is not
looked into, and a document accepts if all of its clauses do (`Document.accepts`).

The calls on a builder collect documents that all have to accept, documents of which one has to, and
documents of which none may. However many there are of each, the filter document says just that
(`accepts_filterDocument`). So what a query accepts is said by what its calls add, call by call, and
the order of the calls is without effect (`accepts_run_iff`).
-/

namespace ReadQuery.Mongo

namespace Bson

variable (clause : String → Bson → Bool)

mutual

/-- Whether a filter accepts, given which clauses hold that are no connectives. -/
def accepts : Bson → Bool
  | .document entries => (entryValues entries).all id
  | _ => false

/-- Which entries of a document hold. -/
def entryValues : List (String × Bson) → List Bool
  | [] => []
  | (key, value) :: entries => entryValue key value :: entryValues entries

/-- Whether one entry of a document holds: a connective by its items, any other clause as given. -/
def entryValue (key : String) : Bson → Bool
  | .array items =>
    if key = "$and" then (itemValues items).all id
    else if key = "$or" then (itemValues items).any id
    else if key = "$nor" then !(itemValues items).any id
    else clause key (.array items)
  | value => clause key value

/-- Which items of an array accept. -/
def itemValues : List Bson → List Bool
  | [] => []
  | b :: bs => accepts b :: itemValues bs

end

end Bson

variable {clause : String → Bson → Bool}

/-- Whether a filter document accepts, given which clauses hold that are no connectives. -/
def Document.accepts (clause : String → Bson → Bool) (d : Document) : Bool :=
  (Bson.document d).accepts clause

/-- Documents in an array are asked one by one. -/
lemma itemValues_documents (ds : List Document) :
    Bson.itemValues clause (ds.map .document) = ds.map (Document.accepts clause) := by
  induction ds with
  | nil => rfl
  | cons d ds ih =>
    rw [List.map_cons, Bson.itemValues, ih]
    rfl

/-- A document of one entry accepts if the entry holds. -/
lemma accepts_singleton (key : String) (value : Bson) :
    Document.accepts clause [(key, value)] = Bson.entryValue clause key value :=
  Bool.and_true _

/-- A conjunction accepts if all its documents do. -/
lemma accepts_and (ds : List Document) :
    Document.accepts clause [("$and", .array (ds.map .document))]
      = ds.all (Document.accepts clause) := by
  rw [accepts_singleton, Bson.entryValue, if_pos rfl, itemValues_documents, List.all_map]
  rfl

/-- A disjunction accepts if one of its documents does. -/
lemma accepts_or (ds : List Document) :
    Document.accepts clause [("$or", .array (ds.map .document))]
      = ds.any (Document.accepts clause) := by
  rw [accepts_singleton, Bson.entryValue, if_neg (by decide), if_pos rfl, itemValues_documents,
    List.any_map]
  rfl

/-- An exclusion accepts if none of its documents does. -/
lemma accepts_nor (ds : List Document) :
    Document.accepts clause [("$nor", .array (ds.map .document))]
      = !ds.any (Document.accepts clause) := by
  rw [accepts_singleton, Bson.entryValue, if_neg (by decide), if_neg (by decide), if_pos rfl,
    itemValues_documents, List.any_map]
  rfl

/-- Documents that all have to accept; none of them is no restriction. -/
lemma accepts_combine?_and (ds : List Document) :
    Document.accepts clause ((combine? "$and" ds).getD []) = ds.all (Document.accepts clause) := by
  match ds with
  | [] => rfl
  | [d] => exact (Bool.and_true _).symm
  | d :: d' :: ds => exact accepts_and (d :: d' :: ds)

/-- Documents of which one has to accept; none of them is no restriction. -/
lemma all_combine?_or (ds : List Document) :
    (combine? "$or" ds).toList.all (Document.accepts clause)
      = (ds.isEmpty || ds.any (Document.accepts clause)) := by
  match ds with
  | [] => rfl
  | [d] => simp [combine?]
  | d :: d' :: ds =>
    have h := @accepts_or clause (d :: d' :: ds)
    simpa [combine?] using h

namespace Query

variable {q : Query}

/-- The filter document accepts if all required documents do, one of the choices, if there are any,
and none of the excluded ones. -/
theorem accepts_filterDocument (q : Query) :
    q.filterDocument.accepts clause = (q.required.all (Document.accepts clause) &&
      (q.choices.isEmpty || q.choices.any (Document.accepts clause)) &&
      !q.excluded.any (Document.accepts clause)) := by
  have hexcluded : List.all (if q.excluded.isEmpty then []
      else [[("$nor", Bson.array (q.excluded.map Bson.document))]]) (Document.accepts clause)
        = !q.excluded.any (Document.accepts clause) := by
    cases hq : q.excluded with
    | nil => rfl
    | cons d ds =>
      rw [List.isEmpty_cons, if_neg (by decide), List.all_cons, accepts_nor]
      exact Bool.and_true _
  rw [filterDocument, accepts_combine?_and, List.all_append, List.all_append, all_combine?_or,
    hexcluded]

end Query

/-- The document that a filter is compiled to, if it does not fail and anything remains of it. -/
def compiledDocuments (f : Filter) (policy : SkipPolicy) : List Document :=
  ((filter? policy f).result.toOption.bind id).toList

namespace Call

/-- The documents that a call adds to those that all have to accept: the one of a filter, and the
clause of a cursor on a proper field. A call that fails adds none. -/
def required : Call → List Document
  | .filter f policy => compiledDocuments f policy
  | .paginate w => (w.check.toOption.bind fun _ => w.after).toList.map cursorDocument
  | _ => []

/-- The documents that a call adds to those of which one has to accept. -/
def choices : Call → List Document
  | .anyOf f policy => compiledDocuments f policy
  | _ => []

/-- The documents that a call adds to those of which none may accept. -/
def excluded : Call → List Document
  | .noneOf f policy => compiledDocuments f policy
  | _ => []

/-- The stages that a call adds at the end of the pipeline. -/
def stages : Call → List Document
  | .stage d => [d]
  | _ => []

/-- Whether a call selects documents by a filter or a window. -/
def selects : Call → Bool
  | .filter _ _ | .anyOf _ _ | .noneOf _ _ | .paginate _ => true
  | _ => false

end Call

namespace Query

/-- A builder has collected what another one has and, behind it, what calls add. -/
structure Collects (q : Query) (calls : List Call) (q' : Query) : Prop where
  required : q'.required = q.required ++ calls.flatMap Call.required
  choices : q'.choices = q.choices ++ calls.flatMap Call.choices
  excluded : q'.excluded = q.excluded ++ calls.flatMap Call.excluded
  stages : q'.stages = q.stages ++ calls.flatMap Call.stages

variable {k : Call} {calls : List Call}

/-- What one call adds stands in front of what the others add. -/
lemma Collects.cons {q q' q'' : Query} (h : q.Collects [k] q') (h' : q'.Collects calls q'') :
    q.Collects (k :: calls) q'' := by
  constructor
  · rw [h'.required, h.required, List.flatMap_singleton, List.append_assoc, List.flatMap_cons]
  · rw [h'.choices, h.choices, List.flatMap_singleton, List.append_assoc, List.flatMap_cons]
  · rw [h'.excluded, h.excluded, List.flatMap_singleton, List.append_assoc, List.flatMap_cons]
  · rw [h'.stages, h.stages, List.flatMap_singleton, List.append_assoc, List.flatMap_cons]

/-- A call that compiles a filter adds the document of the filter as `add` does. -/
lemma state_atomic_filter (q : Query) (f : Filter) (policy : SkipPolicy)
    (add : List Document → Query) (hadd : add [] = q) :
    (Step.atomic q (filter? policy f >>= fun d => pure (add d.toList))).state
      = add (compiledDocuments f policy) := by
  rw [Step.state_atomic, Traced.result_bind, compiledDocuments]
  cases (filter? policy f).result with
  | error e => exact hadd.symm
  | ok d => rfl

/-- A filter adds its document, or nothing if it fails. -/
lemma collects_filter (q : Query) (f : Filter) (policy : SkipPolicy) :
    q.Collects [.filter f policy] (q.filter f policy).state := by
  have hstate := q.state_atomic_filter f policy
    (fun ds => { q with required := q.required ++ ds }) (by rw [List.append_nil])
  rw [Query.filter, hstate]
  constructor <;> simp [Call.required, Call.choices, Call.excluded, Call.stages]

/-- A filter adds its document to the choices, or nothing if it fails. -/
lemma collects_anyOf (q : Query) (f : Filter) (policy : SkipPolicy) :
    q.Collects [.anyOf f policy] (q.anyOf f policy).state := by
  have hstate := q.state_atomic_filter f policy
    (fun ds => { q with choices := q.choices ++ ds }) (by rw [List.append_nil])
  rw [Query.anyOf, hstate]
  constructor <;> simp [Call.required, Call.choices, Call.excluded, Call.stages]

/-- A filter adds its document to those excluded, or nothing if it fails. -/
lemma collects_noneOf (q : Query) (f : Filter) (policy : SkipPolicy) :
    q.Collects [.noneOf f policy] (q.noneOf f policy).state := by
  have hstate := q.state_atomic_filter f policy
    (fun ds => { q with excluded := q.excluded ++ ds }) (by rw [List.append_nil])
  rw [Query.noneOf, hstate]
  constructor <;> simp [Call.required, Call.choices, Call.excluded, Call.stages]

/-- A window adds the document of its cursor, or nothing if it fails. -/
lemma collects_paginate (q : Query) (w : Page.Window) :
    q.Collects [.paginate w] (q.paginate w).state := by
  have hresult := paginate_result q w
  rw [Query.paginate, Step.result_atomic] at hresult
  rw [Query.paginate, Step.state_atomic, hresult]
  cases hcheck : w.check with
  | error v =>
    constructor <;>
      simp [Call.required, Call.choices, Call.excluded, Call.stages, hcheck, Except.toOption]
  | ok u =>
    constructor <;>
      simp [Call.required, Call.choices, Call.excluded, Call.stages, hcheck, Except.toOption]

/-- Every call adds the documents that it is said to add. -/
lemma collects_perform (q : Query) (k : Call) : q.Collects [k] (q.perform k).state := by
  cases k with
  | filter f policy => exact q.collects_filter f policy
  | anyOf f policy => exact q.collects_anyOf f policy
  | noneOf f policy => exact q.collects_noneOf f policy
  | paginate w => exact q.collects_paginate w
  | skip | limit | stage =>
    constructor <;> simp [Call.required, Call.choices, Call.excluded, Call.stages, perform,
      Step.done, withSkip, withLimit, stage]
  -- the other atomic calls leave these documents alone, whether they fail or not
  | project | orderBy | groupBy =>
    simp only [perform, Step.mapFailure, Query.project, Query.orderBy, Query.groupBy]
    refine Step.keeps_of_atomic_bind (P := q.Collects _) ?_ fun _ _ => ?_ <;>
      constructor <;> simp [Call.required, Call.choices, Call.excluded, Call.stages]

/-- Any calls add what each of them adds, in order. -/
lemma collects_run (q : Query) (calls : List Call) : q.Collects calls (q.run calls) := by
  induction calls generalizing q with
  | nil => constructor <;> simp [run, Step.runAll]
  | cons k calls ih => exact (q.collects_perform k).cons (ih (q.perform k).state)

/-- The document of a `$match` stage. -/
def matchDocument? : Document → Option Document
  | [(key, .document d)] => if key = "$match" then some d else none
  | _ => none

/-- The documents of the `$match` stages of a pipeline: the filter document, if there is anything in
it, and those of the stages in the end. -/
lemma filterMap_matchDocument? (q : Query) :
    q.pipeline.filterMap matchDocument?
      = (if q.filterDocument.isEmpty then [] else [q.filterDocument])
        ++ q.stages.filterMap matchDocument? := by
  have hother : ∀ {α : Type} (key : String) (f : α → Bson) (a : Option α), key ≠ "$match" →
      (stage? key f a).filterMap matchDocument? = [] := by
    intro α key f a hkey
    cases a with
    | none => rfl
    | some a => cases hf : f a <;> simp [stage?, matchDocument?, hf, hkey]
  simp only [pipeline, List.filterMap_append]
  rw [hother "$group" _ _ (by decide), hother "$sort" _ _ (by decide),
    hother "$skip" _ _ (by decide), hother "$limit" _ _ (by decide),
    hother "$project" _ _ (by decide)]
  split <;> simp [stage?, matchDocument?]

variable {clause : String → Bson → Bool}

/-- A document passes the `$match` stages of a pipeline without other stages in the end exactly if
the filter accepts it. -/
lemma all_matchDocument? (q : Query) (hstages : q.stages = []) :
    (q.pipeline.filterMap matchDocument?).all (Document.accepts clause)
      = q.filterDocument.accepts clause := by
  rw [filterMap_matchDocument?, hstages, List.filterMap_nil, List.append_nil]
  cases hfilter : q.filterDocument with
  | nil => rfl
  | cons e es => exact Bool.and_true _

/-- The filter after a sequence of calls accepts exactly if the documents that the calls add do: all
those of filters and cursors, one of the choices, if there are any, and none of the excluded ones.
So do the `$match` stages of the pipeline after calls that only select documents, and the calls in
any other order come to the same. -/
theorem accepts_run_iff (collection : String) (calls : List Call)
    (clause : String → Bson → Bool) :
    (((ofCollection collection).run calls).find.filter.accepts clause = true ↔
      (∀ d ∈ calls.flatMap Call.required, d.accepts clause = true) ∧
      (calls.flatMap Call.choices ≠ [] →
        ∃ d ∈ calls.flatMap Call.choices, d.accepts clause = true) ∧
      ∀ d ∈ calls.flatMap Call.excluded, d.accepts clause = false) ∧
    ((∀ k ∈ calls, k.selects = true) →
      (((ofCollection collection).run calls).pipeline.filterMap matchDocument?).all
          (Document.accepts clause)
        = ((ofCollection collection).run calls).find.filter.accepts clause) ∧
    ∀ calls' : List Call, calls.Perm calls' →
      ((ofCollection collection).run calls').find.filter.accepts clause
        = ((ofCollection collection).run calls).find.filter.accepts clause := by
  have hcollects := fun calls => (ofCollection collection).collects_run calls
  have hvalue : ∀ calls : List Call,
      ((ofCollection collection).run calls).find.filter.accepts clause
        = ((calls.flatMap Call.required).all (Document.accepts clause) &&
          ((calls.flatMap Call.choices).isEmpty ||
            (calls.flatMap Call.choices).any (Document.accepts clause)) &&
          !(calls.flatMap Call.excluded).any (Document.accepts clause)) := by
    intro calls
    have haccepts := @accepts_filterDocument clause ((ofCollection collection).run calls)
    rw [(hcollects calls).required, (hcollects calls).choices, (hcollects calls).excluded]
      at haccepts
    exact haccepts
  refine ⟨?_, fun hselects => ?_, fun calls' hperm => ?_⟩
  · rw [hvalue, Bool.and_eq_true, Bool.and_eq_true, Bool.or_eq_true, List.all_eq_true,
      List.any_eq_true, List.isEmpty_iff, Bool.not_eq_true', List.any_eq_false, and_assoc,
      or_iff_not_imp_left]
    simp only [Bool.not_eq_true, ne_eq]
  · refine all_matchDocument? _ ?_
    rw [(hcollects calls).stages, ofCollection, List.nil_append, List.flatMap_eq_nil_iff]
    intro k hk
    have hselect := hselects k hk
    cases k with
    | stage d => cases hselect
    | _ => rfl
  · rw [hvalue, hvalue, (hperm.flatMap_right Call.required).all_eq,
      (hperm.flatMap_right Call.choices).isEmpty_eq, (hperm.flatMap_right Call.choices).any_eq,
      (hperm.flatMap_right Call.excluded).any_eq]

/-- Calls of all kinds that select documents, in between each other, and one that adds nothing. -/
def mixedCalls : List Call :=
  [.anyOf ⟨some .and, [.single "role" (.compare .equals) (.string "admin")], []⟩ .strict,
    .noneOf ⟨some .or, [.single "banned" (.compare .equals) (.bool true)], []⟩ .strict,
    .paginate ⟨some 10, none, some ⟨"id", 42⟩⟩,
    .anyOf ⟨none, [.nullary "" .unspecified], []⟩ .strict,
    .filter ⟨some .or, [.single "age" (.compare .less) (.int 7),
      .single "age" (.compare .greater) (.int 70)], []⟩ .strict,
    .anyOf ⟨some .and, [.single "role" (.compare .equals) (.string "owner")], []⟩ .strict]

/-- The clauses that hold of an owner of age 80 with the key 43. -/
def holdsOfOwner (key : String) : Bson → Bool
  | .document [(operator, .string s)] => key == "role" && operator == "$eq" && s == "owner"
  | .document [(operator, .int64 _)] => (key == "id" || key == "age") && operator == "$gt"
  | _ => false

/-- The owner is accepted as the second choice, by the filter and by the `$match` stage, and also if
the calls are made in reverse. -/
theorem accepts_run_iff_mixedCalls :
    (∀ k ∈ mixedCalls, k.selects = true) ∧ mixedCalls.Perm mixedCalls.reverse ∧
      ((ofCollection "users").run mixedCalls).find.filter.accepts holdsOfOwner = true ∧
      (((ofCollection "users").run mixedCalls).pipeline.filterMap matchDocument?).all
        (Document.accepts holdsOfOwner) = true ∧
      ((ofCollection "users").run mixedCalls.reverse).find.filter.accepts holdsOfOwner = true := by
  obtain ⟨hiff, hmatch, hperm⟩ := accepts_run_iff "users" mixedCalls holdsOfOwner
  have hselects : ∀ k ∈ mixedCalls, k.selects = true := by decide
  have hreverse : mixedCalls.Perm mixedCalls.reverse := mixedCalls.reverse_perm.symm
  have haccepts := hiff.2 ⟨by decide +kernel, fun _ => by decide +kernel, by decide +kernel⟩
  exact ⟨hselects, hreverse, haccepts, (hmatch hselects).trans haccepts,
    (hperm _ hreverse).trans haccepts⟩

end Query

end ReadQuery.Mongo
