import ReadQuery.Page.Window
import ReadQuery.SortEntry
import ReadQuery.Sql.Filter
import ReadQuery.Step

/-!
# `SELECT` statements

A builder of statements in one dialect. Predicates accumulate with `?` for each parameter, and the
placeholders take the form of the dialect only in the statement.
-/

namespace ReadQuery.Sql

/-- A statement under construction. -/
structure Select (d : Dialect) where
  table : String
  columns : List String
  conditions : List String
  params : List Value
  prewhere : List String
  prewhereParams : List Value
  groupBy : List String
  ordering : List String
  limit : Option Int64
  offset : Option Int64
  sample : Option Number.Double
  isFinal : Bool
  limitBy : Option (Int64 × List String)

namespace Select

variable {d : Dialect}

/-- A statement that reads everything from a table. -/
def fromTable (table : String) : Select d :=
  { table, columns := [], conditions := [], params := [], prewhere := [], prewhereParams := [],
    groupBy := [], ordering := [], limit := none, offset := none, sample := none,
    isFinal := false, limitBy := none }

/-- Adds columns to the projection. A dotted column is a value inside a JSON column. -/
def addColumns (s : Select d) (names : List String) : Select d :=
  { s with columns := s.columns ++ names }

/-- Adds a predicate with its values. -/
def push (s : Select d) (p : Predicate) : Select d :=
  { s with conditions := s.conditions ++ [p.sql], params := s.params ++ p.params }

/-- Adds predicates, in order. -/
def pushAll (s : Select d) (ps : List Predicate) : Select d :=
  ps.foldl push s

/-- Adds the predicates of a filter. -/
def filter (s : Select d) (f : Filter) (policy : SkipPolicy) : Step (Select d) Skipped :=
  Step.atomic s do
    let tree ← Sql.filter d policy f
    pure (s.pushAll tree.entries)

/-- A hand-written predicate: an allowed raw condition with as many placeholders as parameters. -/
def rawPredicate (condition : String) (params : List Value) : Except Violation Predicate := do
  let condition ← RawCondition.ensure condition
  let count := Placeholder.count condition
  if count ≠ params.length then
    .error (.parameterMismatch condition count params.length)
  else
    .ok ⟨condition, params⟩

/-- Adds a predicate that is written by hand. -/
def filterRaw (s : Select d) (condition : String) (params : List Value) :
    Step (Select d) Violation :=
  Step.atomic s do
    let p ← Traced.ofExcept (rawPredicate condition params)
    pure (s.push p)

def addGroup (s : Select d) (column : String) : Select d :=
  { s with groupBy := s.groupBy ++ [column] }

/-- The entry of an ordering. -/
def orderEntry (d : Dialect) (e : SortEntry) : Compiled String :=
  Compiled.ofExcept (e.fieldRef.map fun f => d.field f ++ " " ++ e.direction.name)

/-- Adds the entries of an ordering one after another, up to the first that fails. -/
def orderBy (s : Select d) (policy : SkipPolicy) : List SortEntry → Step (Select d) Skipped
  | [] => Step.done s
  | e :: es =>
    let x := policy.accept e.field (orderEntry d e)
    match x.result with
    | .error err => ⟨s, x.events, some err⟩
    | .ok none => (orderBy s policy es).after x.events
    | .ok (some entry) =>
      (orderBy { s with ordering := s.ordering ++ [entry] } policy es).after x.events

def withLimit (s : Select d) (limit : Int64) : Select d :=
  { s with limit := some limit }

def withOffset (s : Select d) (offset : Int64) : Select d :=
  { s with offset := some offset }

/-- Applies a page window: its limit and offset, and for a cursor a predicate on the last key
seen. -/
def paginate (s : Select d) (w : Page.Window) : Step (Select d) Violation :=
  Step.atomic s do
    let s ← match w.after with
      | none => pure s
      | some cursor => do
        let field ← Traced.ofExcept (Identifier.ensure cursor.field)
        pure (s.push ⟨field ++ " > ?", [.int cursor.lastId]⟩)
    pure { s with limit := w.limit, offset := w.offset }

def withSample (s : Select .clickHouse) (ratio : Number.Double) : Select .clickHouse :=
  { s with sample := some ratio }

/-- Merges the parts of a collapsing table while reading. -/
def final (s : Select .clickHouse) : Select .clickHouse :=
  { s with isFinal := true }

/-- Limits the rows of each value of some columns. -/
def withLimitBy (s : Select .clickHouse) (limit : Int64) (columns : List String) :
    Select .clickHouse :=
  { s with limitBy := some (limit, columns) }

/-- Adds a predicate to the `PREWHERE` clause. -/
def pushPrewhere (s : Select .clickHouse) (p : Predicate) : Select .clickHouse :=
  { s with prewhere := s.prewhere ++ [p.sql], prewhereParams := s.prewhereParams ++ p.params }

/-- Adds the predicates of a filter to the `PREWHERE` clause. -/
def prefilter (s : Select .clickHouse) (f : Filter) (policy : SkipPolicy) :
    Step (Select .clickHouse) Skipped :=
  Step.atomic s do
    let tree ← Sql.filter .clickHouse policy f
    pure (tree.entries.foldl pushPrewhere s)

/-- Adds a hand-written predicate to the `PREWHERE` clause. -/
def prefilterRaw (s : Select .clickHouse) (condition : String) (params : List Value) :
    Step (Select .clickHouse) Violation :=
  Step.atomic s do
    let p ← Traced.ofExcept (rawPredicate condition params)
    pure (s.pushPrewhere p)

/-- One column of the projection; a value inside a JSON column gets a name. -/
def columnText (d : Dialect) (column : String) : Except Violation String :=
  match (FieldRef.resolve column none).result with
  | .error _ => .error (.unsafeIdentifier column)
  | .ok f =>
    if f.isNested then
      .ok (d.field f ++ " AS " ++ d.quoteName ("_".intercalate (f.column :: f.path)))
    else .ok f.column

/-- The columns of a projection. -/
def columnsText (d : Dialect) (columns : List String) : Except Violation String :=
  (columns.mapM (columnText d)).map (", ".intercalate ·)

/-- The names of a list, each of which has to be an identifier. -/
def namesText (names : List String) : Except Violation String :=
  (names.mapM Identifier.ensure).map (", ".intercalate ·)

/-- The predicates of a clause. -/
def conjunction (predicates : List String) : String :=
  " AND ".intercalate predicates

/-- The ratio of a sample, which has to be finite. -/
def sampleText (ratio : Number.Double) : Except Violation String :=
  let text := Number.Layout.plain.text ratio
  if ratio.isFinite then .ok ("SAMPLE " ++ text) else .error (.nonFiniteNumber text)

/-- A clause that is there only for a non-empty list. -/
def clauseOf {α : Type} (items : List α) (clause : Except Violation String) :
    Except Violation (List String) :=
  if items.isEmpty then .ok [] else clause.map ([·])

/-- The clauses of the statement, in order; their placeholders are question marks. -/
def clauses (s : Select d) : Except Violation (List String) := do
  let columns ← if s.columns.isEmpty then .ok "*" else columnsText d s.columns
  let table ← Identifier.ensure s.table
  let sample ← match s.sample with
    | none => .ok []
    | some ratio => (sampleText ratio).map ([·])
  let prewhere ← clauseOf s.prewhere (.ok ("PREWHERE " ++ conjunction s.prewhere))
  let predicates ← clauseOf s.conditions (.ok ("WHERE " ++ conjunction s.conditions))
  let groups ← clauseOf s.groupBy ((namesText s.groupBy).map ("GROUP BY " ++ ·))
  let ordering ← clauseOf s.ordering (.ok ("ORDER BY " ++ ", ".intercalate s.ordering))
  let limitBy ← match s.limitBy with
    | none => .ok []
    | some (limit, names) => (namesText names).map fun names =>
      ["LIMIT " ++ Number.showInt64 limit ++ " BY " ++ names]
  .ok (["SELECT", columns, "FROM " ++ table] ++ (if s.isFinal then ["FINAL"] else []) ++ sample
    ++ prewhere ++ predicates ++ groups ++ ordering ++ limitBy
    ++ (d.limitAndOffset? s.limit s.offset).toList)

/-- The statement and its parameters, in the order of their placeholders. -/
def statement (s : Select d) : Except Violation Predicate :=
  s.clauses.map fun clauses =>
    ⟨d.placeholders (" ".intercalate clauses), s.prewhereParams ++ s.params⟩

/-- The predicates alone, joined, and their parameters. -/
def whereClause (s : Select d) : Predicate :=
  ⟨d.placeholders (conjunction s.conditions), s.params⟩

/-- Builds the statement, which is reported. -/
def build (s : Select d) : Traced Violation Predicate := do
  let p ← Traced.ofExcept s.statement
  Traced.report (.sqlBuilt d.backend p.sql p.params)
  pure p

end Select

end ReadQuery.Sql
