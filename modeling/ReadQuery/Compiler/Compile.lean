import ReadQuery.Compiler.Config
import ReadQuery.Compiler.Request
import ReadQuery.FieldName
import ReadQuery.Influx.Query
import ReadQuery.Mongo.Query
import ReadQuery.Sql.Select

/-!
# Compiling requests

A request is prepared in the same way for every backend and then handed to the backend's builder:
projection, filter, ordering and page window, in an order that decides which of two errors is seen.
-/

namespace ReadQuery

/-- Why a request cannot be compiled. -/
inductive CompileError where
  | parse (e : Input.ParseError)
  | skipped (s : Skipped)
  | violation (v : Violation)

/-- A compiler: settings that have been checked, and the entries of their default ordering. -/
structure Compiler where
  config : Compiler.Config
  defaultOrdering : List SortEntry

namespace Compiler

/-- The compiler with the given settings, unless they have a fault. -/
def ofConfig (config : Config) : Except ConfigFault Compiler :=
  match config.fault? with
  | some fault => .error fault
  | none => config.defaultOrdering.map fun entries => ⟨config, entries⟩

/-- A request whose parts have been read. -/
structure Prepared where
  filter : Filter
  ordering : List SortEntry
  fields : List String
  window : Page.Window

/-- The filter with its field names as configured. -/
def nameFilter (c : Compiler) (f : Filter) : Filter :=
  if c.config.normalizesFieldNames then f.mapFields FieldName.snake else f

/-- The ordering with its field names as configured. -/
def nameEntries (c : Compiler) (entries : List SortEntry) : List SortEntry :=
  if c.config.normalizesFieldNames then FieldName.snakeEntries entries else entries

/-- Fields of a projection under their configured names. -/
def nameFields (c : Compiler) (fields : List String) : List String :=
  if c.config.normalizesFieldNames then fields.map FieldName.snake else fields

/-- The fields that can be returned; the others are reported. -/
def keepFields (fields : List String) : Traced CompileError (List String) :=
  ⟨(fields.filter (!Identifier.isProper ·)).map .droppedField,
    .ok (fields.filter Identifier.isProper)⟩

/-- Reads a request: its filter, its ordering, its fields and its window. -/
def prepare (c : Compiler) (r : Request) : Traced CompileError Prepared := do
  let filter ← r.filter.resolve.mapError .parse
  let entries ← Traced.ofExcept (r.ordering.resolve.mapError .parse)
  let fields ← keepFields (c.nameFields r.fields)
  let window ← Traced.mk (r.page.events c.config.pageSettings)
    (.ok (r.page.window c.config.pageSettings))
  pure
    { filter := c.nameFilter filter
      ordering := c.nameEntries (SortEntry.orDefault entries c.defaultOrdering)
      fields, window }

/-- A call on a builder that may end the compilation by a skipped condition. -/
def selecting {σ : Type} (x : Step σ Skipped) : Traced CompileError σ :=
  x.toTraced.mapError .skipped

/-- A call on a builder that may end the compilation by a violation. -/
def guarding {σ : Type} (x : Step σ Violation) : Traced CompileError σ :=
  x.toTraced.mapError .violation

/-- Compiles a request on a table to a statement of SQL and its parameters. -/
def toSql (c : Compiler) (d : Sql.Dialect) (table : String) (r : Request) :
    Traced CompileError Sql.Predicate := do
  let p ← c.prepare r
  let s : Sql.Select d := (Sql.Select.fromTable table).addColumns p.fields
  let s ← selecting (s.filter p.filter c.config.skipPolicy)
  let s ← selecting (s.orderBy c.config.skipPolicy p.ordering)
  let s ← guarding (s.paginate p.window)
  s.build.mapError .violation

/-- The query of a request on a collection. -/
def mongoQuery (c : Compiler) (collection : String) (r : Request) :
    Traced CompileError Mongo.Query := do
  let p ← c.prepare r
  let q := Mongo.Query.ofCollection collection
  let q ← selecting (q.filter p.filter c.config.skipPolicy)
  let q ← selecting (q.orderBy c.config.skipPolicy p.ordering)
  let q ← guarding (q.paginate p.window)
  if p.fields.isEmpty then pure q else guarding (q.project p.fields)

/-- Compiles a request on a collection to a find. -/
def toFind (c : Compiler) (collection : String) (r : Request) : Traced CompileError Mongo.Find := do
  let q ← c.mongoQuery collection r
  q.buildFind

/-- Compiles a request on a collection to a pipeline. -/
def toPipeline (c : Compiler) (collection : String) (r : Request) :
    Traced CompileError (List Mongo.Document) := do
  let q ← c.mongoQuery collection r
  q.buildPipeline

/-- Compiles a request on a measurement to a statement of InfluxQL. -/
def toInflux (c : Compiler) (measurement : String) (r : Request) : Traced CompileError String := do
  let p ← c.prepare r
  let q := (Influx.Query.ofMeasurement measurement).select (p.fields.map .field)
  let q ← selecting (q.filter p.filter c.config.skipPolicy)
  let q ← selecting (q.orderBy c.config.skipPolicy p.ordering)
  let q ← guarding (q.paginate p.window)
  q.build.mapError .violation

end Compiler

end ReadQuery
