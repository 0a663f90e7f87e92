import Mathlib.Data.List.Permutation
import ReadQuery.Compiler.Compile
import ReadQuery.Proofs.Compiler.Binding
import ReadQuery.Proofs.Mongo.Acceptance
import ReadQuery.Proofs.Sorting

/-!
# Reads of a collection

What is returned of a collection, which is a list of documents of any kind (`Contents`). A find
keeps the documents that its filter accepts and applies its options: sort, skip, limit and
projection, wherever they stand among the options (`Contents.find?`). A pipeline runs its stages one
after another (`Contents.aggregate?`).

A builder is written as a find and as a pipeline. Unless it groups or has stages of its own, both
return what its parts say (`Contents.read`), and a request is compiled to both or to neither
(`find_pipeline_alike`).
-/

namespace ReadQuery

/-- The value of a key, if no key is there twice, does not depend on the order of the entries. -/
lemma lookup_eq_of_perm {κ β : Type} [DecidableEq κ] {l l' : List (κ × β)} (h : l.Perm l')
    (hkeys : (l.map (·.1)).Nodup) (k : κ) : l.lookup k = l'.lookup k := by
  induction h with
  | nil => rfl
  | cons e _ ih =>
    rw [lookup_cons_ite, lookup_cons_ite, ih (List.nodup_cons.1 hkeys).2]
  | swap e e' l =>
    have hne : e'.1 ≠ e.1 := by
      intro he
      exact (List.nodup_cons.1 hkeys).1 (by simp [he])
    rw [lookup_cons_ite, lookup_cons_ite, lookup_cons_ite, lookup_cons_ite]
    by_cases he : k = e'.1
    · rw [if_pos he, if_neg (he ▸ hne), if_pos he]
    · rw [if_neg he, if_neg he]
  | trans h _ ih ih' => rw [ih hkeys, ih' ((h.map _).nodup_iff.1 hkeys)]

namespace Mongo

/-- What reads look at in the documents of a collection. -/
structure Contents (δ κ : Type) where
  /-- Whether a clause of a filter holds of a document. -/
  holds : δ → String → Bson → Bool
  /-- What a document has under a path. -/
  value : δ → String → κ
  /-- A document with the fields that a projection names. -/
  project : Document → δ → δ

variable {δ κ α : Type}

/-- A step of a read that takes a document. -/
def withDocument? (run : Document → List δ → List δ) : Bson → List δ → Option (List δ)
  | .document d, ds => some (run d ds)
  | _, _ => none

/-- A step of a read that takes a number. -/
def withNumber? (run : Int64 → List δ → List δ) : Bson → List δ → Option (List δ)
  | .int64 n, ds => some (run n ds)
  | _, _ => none

/-- Applies an option; without it nothing is done. -/
def applyOption? (options : Document) (key : String) (run : Bson → List δ → Option (List δ))
    (ds : List δ) : Option (List δ) :=
  match options.lookup key with
  | none => some ds
  | some value => run value ds

/-- Applies a part of a builder; without it nothing is done. -/
def applyPart (run : α → List δ → List δ) : Option α → List δ → List δ
  | none, ds => ds
  | some a, ds => run a ds

/-- The documents behind the first `n`; all of them if `n` is negative. -/
def skipFirst (n : Int64) (ds : List δ) : List δ :=
  ds.drop n.toNatClampNeg

/-- The first `n` documents; none of them if `n` is negative. -/
def keepFirst (n : Int64) (ds : List δ) : List δ :=
  ds.take n.toNatClampNeg

namespace Contents

variable (x : Contents δ κ)

/-- The documents that a filter accepts. -/
def select (filter : Document) (ds : List δ) : List δ :=
  ds.filter fun d => filter.accepts (x.holds d)

/-- A filter without clauses accepts everything. -/
lemma select_nil (ds : List δ) : x.select [] ds = ds :=
  List.filter_eq_self.2 fun _ _ => rfl

/-- The documents as a projection leaves them. -/
def projectAll (projection : Document) (ds : List δ) : List δ :=
  ds.map (x.project projection)

variable [LinearOrder κ]

/-- The documents in the order of a sort document; those that it does not tell apart stay in the
order that they have. -/
def sort (order : Document) (ds : List δ) : List δ :=
  ds.mergeSort fun d d' => compareBy (sortKeys order) (x.value d) (x.value d') != .gt

/-- What a find returns of a collection, unless an option is not of its type. -/
def find? (q : Find) (ds : List δ) : Option (List δ) := do
  let ds ← applyOption? q.options "sort" (withDocument? x.sort) (x.select q.filter ds)
  let ds ← applyOption? q.options "skip" (withNumber? skipFirst) ds
  let ds ← applyOption? q.options "limit" (withNumber? keepFirst) ds
  applyOption? q.options "projection" (withDocument? x.projectAll) ds

/-- Runs the stage of a key, unless there is none. -/
def runStage? (key : String) : Bson → List δ → Option (List δ) :=
  if key = "$match" then withDocument? x.select
  else if key = "$sort" then withDocument? x.sort
  else if key = "$skip" then withNumber? skipFirst
  else if key = "$limit" then withNumber? keepFirst
  else if key = "$project" then withDocument? x.projectAll
  else fun _ _ => none

/-- What the stages of a pipeline make of a collection one after another. -/
def aggregate? : List Document → List δ → Option (List δ)
  | [], ds => some ds
  | [(key, value)] :: stages, ds => (x.runStage? key value ds).bind (aggregate? stages)
  | _ :: _, _ => none

/-- What the parts of a builder say is to be read of a collection. -/
def read (q : Query) (ds : List δ) : List δ :=
  let sorted := applyPart x.sort q.order (x.select q.filterDocument ds)
  let limited := applyPart keepFirst q.limit (applyPart skipFirst q.skip sorted)
  applyPart x.projectAll q.projection limited

/-- A find, with its options in any order, and a pipeline return the same of every collection. -/
def ReadsAlike (q : Find) (stages : List Document) : Prop :=
  ∀ ds, ∃ out, x.aggregate? stages ds = some out ∧
    ∀ options : Document, options.Perm q.options → x.find? ⟨q.filter, options⟩ ds = some out

variable {x}

/-- An option is found under its own key only. -/
lemma lookup_optional (key : String) (f : α → Bson) (a : Option α) (k : String) :
    (Query.optional key f a).lookup k = if k = key then a.map f else none := by
  cases a with
  | none => exact (ite_self none).symm
  | some a => exact lookup_cons_ite key k (f a) []

/-- No option is there twice. -/
lemma nodup_options (q : Query) : (q.find.options.map (·.1)).Nodup := by
  have hkeys : ∀ {α : Type} (key : String) (f : α → Bson) (a : Option α),
      ((Query.optional key f a).map (·.1)).Sublist [key] := by
    intro α key f a
    cases a with
    | none => exact List.nil_sublist _
    | some a => exact List.Sublist.refl _
  have hsublist : (q.find.options.map (·.1)).Sublist ["projection", "sort", "skip", "limit"] := by
    simp only [Query.find, List.map_append]
    exact (((hkeys _ _ _).append (hkeys _ _ _)).append (hkeys _ _ _)).append (hkeys _ _ _)
  exact hsublist.nodup (by decide)

/-- The order of the options is without effect. -/
lemma find?_of_perm (q : Query) {options : Document} (hperm : options.Perm q.find.options)
    (ds : List δ) : x.find? ⟨q.find.filter, options⟩ ds = x.find? q.find ds := by
  have hlookup : ∀ key : String, options.lookup key = q.find.options.lookup key := fun key =>
    (lookup_eq_of_perm hperm.symm (nodup_options q) key).symm
  simp only [find?, applyOption?, hlookup]

/-- An option that is written for a part of a builder. -/
lemma applyOption?_of_lookup {options : Document} {key : String} {a : Option α} {f : α → Bson}
    (hlookup : options.lookup key = a.map f) {run? : Bson → List δ → Option (List δ)}
    {run : α → List δ → List δ} (hrun : ∀ a ds, run? (f a) ds = some (run a ds)) (ds : List δ) :
    applyOption? options key run? ds = some (applyPart run a ds) := by
  rw [applyOption?, hlookup]
  cases a with
  | none => rfl
  | some a => exact hrun a ds

/-- The find of a query reads the documents. -/
lemma find?_find (q : Query) (ds : List δ) : x.find? q.find ds = some (x.read q ds) := by
  have hsort : q.find.options.lookup "sort" = q.order.map .document := by
    simp [Query.find, List.lookup_append, lookup_optional]
  have hskip : q.find.options.lookup "skip" = q.skip.map .int64 := by
    simp [Query.find, List.lookup_append, lookup_optional]
  have hlimit : q.find.options.lookup "limit" = q.limit.map .int64 := by
    simp [Query.find, List.lookup_append, lookup_optional]
  have hprojection : q.find.options.lookup "projection" = q.projection.map .document := by
    simp [Query.find, List.lookup_append, lookup_optional]
  rw [find?, applyOption?_of_lookup hsort fun _ _ => rfl, Option.bind_eq_bind, Option.bind_some,
    applyOption?_of_lookup hskip fun _ _ => rfl, Option.bind_some,
    applyOption?_of_lookup hlimit fun _ _ => rfl, Option.bind_some,
    applyOption?_of_lookup hprojection fun _ _ => rfl]
  rfl

/-- Stages behind others take what these leave. -/
lemma aggregate?_append (stages stages' : List Document) (ds : List δ) :
    x.aggregate? (stages ++ stages') ds
      = (x.aggregate? stages ds).bind (x.aggregate? stages') := by
  induction stages generalizing ds with
  | nil => rfl
  | cons stage stages ih =>
    match stage with
    | [] => rfl
    | [(key, value)] =>
      rw [List.cons_append, aggregate?, aggregate?, Option.bind_assoc]
      exact congrArg _ (funext ih)
    | _ :: _ :: _ => rfl

/-- A stage that is written for a part of a builder. -/
lemma aggregate?_stage? {key : String} {f : α → Bson} {run : α → List δ → List δ}
    (hrun : ∀ a ds, x.runStage? key (f a) ds = some (run a ds)) (a : Option α) (ds : List δ) :
    x.aggregate? (Query.stage? key f a) ds = some (applyPart run a ds) := by
  cases a with
  | none => rfl
  | some a =>
    rw [Query.stage?, aggregate?, hrun]
    rfl

/-- The stage of a filter, which an empty filter does not have. -/
lemma aggregate?_match (filter : Document) (ds : List δ) :
    x.aggregate? (Query.stage? "$match" .document (if filter.isEmpty then none else some filter)) ds
      = some (x.select filter ds) := by
  cases filter with
  | nil => exact congrArg some (x.select_nil ds).symm
  | cons e es => rfl

/-- The pipeline of a query without a group and stages reads the documents. -/
lemma aggregate?_pipeline {q : Query} (hgroup : q.group = none) (hstages : q.stages = [])
    (ds : List δ) : x.aggregate? q.pipeline ds = some (x.read q ds) := by
  have hsort : ∀ ds, x.aggregate? (Query.stage? "$sort" .document q.order) ds
      = some (applyPart x.sort q.order ds) := aggregate?_stage? (fun _ _ => rfl) q.order
  have hskip : ∀ ds, x.aggregate? (Query.stage? "$skip" .int64 q.skip) ds
      = some (applyPart skipFirst q.skip ds) := aggregate?_stage? (fun _ _ => rfl) q.skip
  have hlimit : ∀ ds, x.aggregate? (Query.stage? "$limit" .int64 q.limit) ds
      = some (applyPart keepFirst q.limit ds) := aggregate?_stage? (fun _ _ => rfl) q.limit
  have hproject : ∀ ds, x.aggregate? (Query.stage? "$project" .document q.projection) ds
      = some (applyPart x.projectAll q.projection ds) :=
    aggregate?_stage? (fun _ _ => rfl) q.projection
  have hnogroup : Query.stage? "$group" .document q.group = [] := by rw [hgroup, Query.stage?]
  rw [Query.pipeline, hnogroup, hstages, List.append_nil, List.append_nil]
  simp only [aggregate?_append, aggregate?_match, hsort, hskip, hlimit, hproject, Option.bind_some]
  rfl

/-- The two forms of a builder that neither groups nor has stages of its own. -/
lemma readsAlike_of_plain {q : Query} (hgroup : q.group = none) (hstages : q.stages = []) :
    x.ReadsAlike q.find q.pipeline := by
  intro ds
  refine ⟨x.read q ds, aggregate?_pipeline hgroup hstages ds, fun options hperm => ?_⟩
  rw [find?_of_perm q hperm, find?_find]

end Contents

/-- A request is compiled to a builder that neither groups nor has stages of its own. -/
lemma plain_of_mongoQuery {c : Compiler} {collection : String} {r : Compiler.Request} {q : Query}
    (h : (c.mongoQuery collection r).result = .ok q) : q.group = none ∧ q.stages = [] := by
  simp only [Compiler.mongoQuery, Traced.result_bind] at h
  obtain ⟨p, -, h⟩ := bind_eq_ok.1 h
  obtain ⟨q₁, h₁, h⟩ := bind_eq_ok.1 h
  obtain ⟨q₂, h₂, h⟩ := bind_eq_ok.1 h
  obtain ⟨q₃, h₃, h⟩ := bind_eq_ok.1 h
  rw [Compiler.selecting_eq_ok, Query.filter_result] at h₁
  rw [Compiler.selecting_eq_ok, Query.orderBy_result] at h₂
  rw [Compiler.guarding_eq_ok, Query.paginate_result] at h₃
  obtain rfl := SkipPolicy.of_settle_eq_ok h₁
  obtain rfl := SkipPolicy.of_settle_eq_ok h₂
  obtain ⟨-, -, h₃⟩ := bind_eq_ok.1 h₃
  obtain rfl := Except.ok.inj h₃
  split at h
  · obtain rfl := Except.ok.inj h
    exact ⟨rfl, rfl⟩
  · rw [Compiler.guarding_eq_ok, Query.project, Step.result_atomic, Traced.result_bind] at h
    obtain ⟨fields, -, h⟩ := bind_eq_ok.1 h
    obtain rfl := Except.ok.inj h
    exact ⟨rfl, rfl⟩

/-- A find and a pipeline of the same read return the same of every collection: those that a request
is compiled to, unless both fail with the same error, and those of every builder that neither groups
nor has stages of its own. -/
theorem find_pipeline_alike [LinearOrder κ] (x : Contents δ κ) :
    (∀ (c : Compiler) (collection : String) (r : Compiler.Request),
      (∃ e, (c.toFind collection r).result = .error e ∧
        (c.toPipeline collection r).result = .error e) ∨
      ∃ q stages, (c.toFind collection r).result = .ok q ∧
        (c.toPipeline collection r).result = .ok stages ∧ x.ReadsAlike q stages) ∧
    ∀ q : Query, q.group = none → q.stages = [] → x.ReadsAlike q.find q.pipeline := by
  refine ⟨fun c collection r => ?_, fun q => Contents.readsAlike_of_plain⟩
  rw [Compiler.toFind, Compiler.toPipeline, Traced.result_bind, Traced.result_bind]
  cases h : (c.mongoQuery collection r).result with
  | error e => exact .inl ⟨e, rfl, rfl⟩
  | ok q =>
    obtain ⟨hgroup, hstages⟩ := plain_of_mongoQuery h
    exact .inr ⟨q.find, q.pipeline, rfl, rfl, Contents.readsAlike_of_plain hgroup hstages⟩

/-- A builder with all parts of a find. -/
def pagedQuery : Query :=
  { Query.ofCollection "people" with
    required := [[("age", .entry "$gte" (.int64 18))]]
    order := some [("age", .int32 (-1))]
    skip := some 1
    limit := some 2
    projection := some [("name", .int32 1)] }

/-- People as names and ages, of which a projection leaves the name. -/
def people : Contents (String × Nat) Nat where
  holds person key value := match key, value with
    | "age", .document [("$gte", .int64 n)] => n.toNatClampNeg ≤ person.2
    | _, _ => false
  value person key := if key = "age" then person.2 else 0
  project _ person := (person.1, 0)

/-- Both forms of the read return the second and the third of those that are of age, by age. -/
theorem find_pipeline_alike_pagedQuery :
    pagedQuery.group = none ∧ pagedQuery.stages = [] ∧
      people.ReadsAlike pagedQuery.find pagedQuery.pipeline ∧
      people.aggregate? pagedQuery.pipeline
        [("Ada", 20), ("Bo", 7), ("Cy", 50), ("Di", 20), ("Ed", 33), ("Flo", 20)]
        = some [("Ed", 0), ("Ada", 0)] :=
  ⟨rfl, rfl, (find_pipeline_alike people).2 pagedQuery rfl rfl, by cbv⟩

end Mongo

end ReadQuery
