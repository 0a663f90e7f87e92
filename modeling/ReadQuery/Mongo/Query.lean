import ReadQuery.Mongo.Filter
import ReadQuery.Mongo.Shell
import ReadQuery.Page.Window
import ReadQuery.SortEntry
import ReadQuery.Step

/-!
# Queries of MongoDB

A builder of reads, as a find with options or as an aggregation pipeline.
-/

namespace ReadQuery.Mongo

/-- The sort document of an ordering, in order; a key named again keeps its position. -/
def orderDocument (policy : SkipPolicy) : List SortEntry → Document → Traced Skipped Document
  | [], d => pure d
  | e :: es, d => do
    let key ← policy.accept e.field (Compiled.ofExcept (e.fieldRef.map FieldRef.dotted))
    match key with
    | none => orderDocument policy es d
    | some key =>
      let direction := match e.direction with
        | .ascending => 1
        | .descending => -1
      orderDocument policy es (d.insert key (.int32 direction))

/-- The sort document of an ordering, if it has entries. -/
def order? (policy : SkipPolicy) (entries : List SortEntry) : Traced Skipped (Option Document) := do
  let d ← orderDocument policy entries []
  pure (if d.isEmpty then none else some d)

/-- A find: a filter and options. -/
structure Find where
  filter : Document
  options : Document

/-- A read under construction. -/
structure Query where
  collection : String
  /-- Documents that all have to match. -/
  required : List Document
  /-- Documents of which one has to match, if there are any. -/
  choices : List Document
  /-- Documents of which none may match. -/
  excluded : List Document
  projection : Option Document
  order : Option Document
  skip : Option Int64
  limit : Option Int64
  group : Option Document
  /-- Stages at the end of the pipeline. -/
  stages : List Document

namespace Query

/-- A query of everything in a collection. -/
def ofCollection (collection : String) : Query :=
  { collection, required := [], choices := [], excluded := [], projection := none, order := none,
    skip := none, limit := none, group := none, stages := [] }

/-- Adds the document of a filter to those that all have to match. -/
def filter (q : Query) (f : Filter) (policy : SkipPolicy) : Step Query Skipped :=
  Step.atomic q do
    let d ← filter? policy f
    pure { q with required := q.required ++ d.toList }

/-- Adds a filter to those of which one has to match. -/
def anyOf (q : Query) (f : Filter) (policy : SkipPolicy) : Step Query Skipped :=
  Step.atomic q do
    let d ← filter? policy f
    pure { q with choices := q.choices ++ d.toList }

/-- Adds a filter to those that may not match. -/
def noneOf (q : Query) (f : Filter) (policy : SkipPolicy) : Step Query Skipped :=
  Step.atomic q do
    let d ← filter? policy f
    pure { q with excluded := q.excluded ++ d.toList }

/-- Adds fields to the projection. -/
def project (q : Query) (fields : List String) : Step Query Violation :=
  Step.atomic q do
    let fields ← Traced.ofExcept (fields.mapM Identifier.ensure)
    let projection := Document.insertAll (q.projection.getD [])
      (fields.map fun field => (field, .int32 1))
    pure { q with projection := some projection }

/-- Sets the ordering. -/
def orderBy (q : Query) (policy : SkipPolicy) (entries : List SortEntry) : Step Query Skipped :=
  Step.atomic q do
    let order ← order? policy entries
    pure { q with order }

/-- Sets the number of documents to skip. -/
def withSkip (q : Query) (skip : Int64) : Query :=
  { q with skip := some skip }

def withLimit (q : Query) (limit : Int64) : Query :=
  { q with limit := some limit }

/-- Applies a page window: skip and limit, and for a cursor a filter on the last key seen. -/
def paginate (q : Query) (w : Page.Window) : Step Query Violation :=
  Step.atomic q do
    let q ← match w.after with
      | none => pure q
      | some cursor => do
        let field ← Traced.ofExcept (Identifier.ensure cursor.field)
        let clause : Document := [(field, .entry "$gt" (.int64 cursor.lastId))]
        pure { q with required := q.required ++ [clause] }
    pure { q with skip := w.offset, limit := w.limit }

/-- A group key under a name without dots. -/
def groupKey (key : String) : String × Bson :=
  ("_".intercalate (Text.split '.' key), .string ("$" ++ key))

/-- Groups by keys and computes accumulators. -/
def groupBy (q : Query) (keys : List String) (accumulators : Document) : Step Query Violation :=
  Step.atomic q do
    let keys ← Traced.ofExcept (keys.mapM Identifier.ensure)
    let id := Document.insertAll [] (keys.map groupKey)
    let group := Document.insertAll [("_id", .document id)] accumulators
    pure { q with group := some group }

/-- Adds a stage at the end of the pipeline. -/
def stage (q : Query) (d : Document) : Query :=
  { q with stages := q.stages ++ [d] }

/-- The document that all calls of filters and windows come to. -/
def filterDocument (q : Query) : Document :=
  let excluded : List Document :=
    if q.excluded.isEmpty then []
    else [[("$nor", Bson.array (q.excluded.map Bson.document))]]
  (combine? "$and" (q.required ++ (combine? "$or" q.choices).toList ++ excluded)).getD []

/-- An entry that is there only with its value. -/
def optional {α : Type} (key : String) (f : α → Bson) (a : Option α) : Document :=
  match a with
  | none => []
  | some a => [(key, f a)]

/-- The query as a find with its options. -/
def find (q : Query) : Find :=
  { filter := q.filterDocument
    options := optional "projection" .document q.projection ++ optional "sort" .document q.order
      ++ optional "skip" .int64 q.skip ++ optional "limit" .int64 q.limit }

/-- A stage that is there only with its value. -/
def stage? {α : Type} (key : String) (f : α → Bson) (a : Option α) : List Document :=
  match a with
  | none => []
  | some a => [[(key, f a)]]

/-- The query as a pipeline of stages. -/
def pipeline (q : Query) : List Document :=
  let filter := q.filterDocument
  stage? "$match" .document (if filter.isEmpty then none else some filter)
    ++ stage? "$group" .document q.group ++ stage? "$sort" .document q.order
    ++ stage? "$skip" .int64 q.skip ++ stage? "$limit" .int64 q.limit
    ++ stage? "$project" .document q.projection ++ q.stages

/-- Builds the find, which is reported. -/
def buildFind {ε : Type} (q : Query) : Traced ε Find :=
  ⟨[.mongoBuilt (Shell.find q.collection q.find.filter q.find.options)], .ok q.find⟩

/-- Builds the pipeline, which is reported. -/
def buildPipeline {ε : Type} (q : Query) : Traced ε (List Document) :=
  ⟨[.mongoBuilt (Shell.aggregate q.collection q.pipeline)], .ok q.pipeline⟩

end Query

end ReadQuery.Mongo
