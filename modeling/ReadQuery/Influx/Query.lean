import ReadQuery.Influx.Filter
import ReadQuery.Page.Window
import ReadQuery.SortEntry
import ReadQuery.Step
import ReadQuery.Text.Lowercase

/-!
# Queries of InfluxQL

A builder of `SELECT` statements on the points of a measurement.
-/

namespace ReadQuery.Influx

/-- What stands for the intervals without points. -/
inductive Fill where
  | null
  | none
  | previous
  | linear
  | value (d : Number.Double)
  deriving DecidableEq, Repr

/-- The clause of a fill; a number has to be finite. -/
def Fill.text : Fill → Except Violation String
  | null => .ok "fill(null)"
  | none => .ok "fill(none)"
  | previous => .ok "fill(previous)"
  | linear => .ok "fill(linear)"
  | value d =>
    let text := Number.Layout.plain.text d
    if d.isFinite then .ok ("fill(" ++ text ++ ")") else .error (.nonFiniteNumber text)

/-- An item of the projection. -/
inductive Item where
  | field (name : String)
  | aggregate (function field : String)
  deriving DecidableEq, Repr

/-- The functions that can be applied to a field. -/
def aggregates : List String :=
  ["count", "distinct", "integral", "mean", "median", "mode", "spread", "stddev", "sum", "first",
    "last", "max", "min"]

/-- A quoted name, which has to be an identifier. -/
def safeName (name : String) : Except Violation String :=
  (Identifier.ensure name).map quoteName

/-- An item of the projection; functions are named in letters of any case. -/
def Item.text : Item → Except Violation String
  | field name => safeName name
  | aggregate function name =>
    let function := Text.smallLetters function
    if aggregates.contains function then
      (safeName name).map fun name => function ++ "(" ++ name ++ ")"
    else .error (.unsafeIdentifier function)

/-- The units of durations. -/
def units : List String := ["ns", "u", "\u00B5", "ms", "s", "m", "h", "d", "w"]

/-- A number and a unit. -/
def isInterval (s : String) : Bool :=
  let digits := s.toList.takeWhile Char.isDigit
  !digits.isEmpty && units.contains (String.ofList (s.toList.dropWhile Char.isDigit))

/-- A statement under construction. -/
structure Query where
  measurement : String
  items : List Item
  conditions : List String
  tags : List String
  interval : Option String
  fill : Option Fill
  timeOrder : Option Direction
  limit : Option Int64
  offset : Option Int64
  seriesLimit : Option Int64
  seriesOffset : Option Int64

namespace Query

/-- A read of everything in a measurement. -/
def ofMeasurement (measurement : String) : Query :=
  { measurement, items := [], conditions := [], tags := [], interval := none, fill := none,
    timeOrder := none, limit := none, offset := none, seriesLimit := none, seriesOffset := none }

def select (q : Query) (items : List Item) : Query :=
  { q with items := q.items ++ items }

/-- Adds the predicates of a filter. -/
def filter (q : Query) (f : Filter) (policy : SkipPolicy) : Step Query Skipped :=
  Step.atomic q do
    let ps ← Influx.filter policy f
    pure { q with conditions := q.conditions ++ ps }

/-- Adds a predicate that is written by hand. -/
def filterRaw (q : Query) (condition : String) : Step Query Violation :=
  Step.atomic q do
    let condition ← Traced.ofExcept (RawCondition.ensure condition)
    pure { q with conditions := q.conditions ++ [condition] }

def groupByTag (q : Query) (tag : String) : Query :=
  { q with tags := q.tags ++ [tag] }

def groupByTime (q : Query) (interval : String) : Query :=
  { q with interval := some interval }

/-- Sets what stands for intervals without points. -/
def withFill (q : Query) (fill : Fill) : Query :=
  { q with fill := some fill }

/-- The direction of an entry of an ordering; points are ordered by time only. -/
def timeDirection (e : SortEntry) : Compiled Direction :=
  if e.field = "time" then .rendered e.direction
  else .skipped (.unsupportedOrdering e.field .influx)

/-- Applies the entries of an ordering one after another, up to the first that fails. -/
def orderBy (q : Query) (policy : SkipPolicy) : List SortEntry → Step Query Skipped
  | [] => Step.done q
  | e :: es =>
    let x := policy.accept e.field (timeDirection e)
    match x.result with
    | .error err => ⟨q, x.events, some err⟩
    | .ok Option.none => (orderBy q policy es).after x.events
    | .ok (some d) => (orderBy { q with timeOrder := some d } policy es).after x.events

def withLimit (q : Query) (limit : Int64) : Query :=
  { q with limit := some limit }

def withOffset (q : Query) (offset : Int64) : Query :=
  { q with offset := some offset }

def withSeriesLimit (q : Query) (limit : Int64) : Query :=
  { q with seriesLimit := some limit }

def withSeriesOffset (q : Query) (offset : Int64) : Query :=
  { q with seriesOffset := some offset }

/-- Applies a page window: its limit and offset, and for a cursor a predicate on the last key
seen. -/
def paginate (q : Query) (w : Page.Window) : Step Query Violation :=
  Step.atomic q do
    let q ← match w.after with
      | Option.none => pure q
      | some cursor => do
        let field ← Traced.ofExcept (safeName cursor.field)
        pure { q with conditions := q.conditions ++
          [field ++ " > " ++ Number.showInt64 cursor.lastId] }
    pure { q with limit := w.limit, offset := w.offset }

/-- The grouping by time, if there is one. -/
def intervalTexts (q : Query) : Except Violation (List String) :=
  match q.interval with
  | Option.none => .ok []
  | some interval =>
    let text := "time(" ++ interval ++ ")"
    if isInterval interval then .ok [text] else .error (.unsafeCondition text)

/-- A clause of a keyword and a number, if there is one. -/
def numberClause (keyword : String) (n : Option Int64) : List String :=
  (n.map fun n => keyword ++ " " ++ Number.showInt64 n).toList

/-- The clauses of the statement, in order. -/
def clauses (q : Query) : Except Violation (List String) := do
  let items ← if q.items.isEmpty then .ok "*"
    else (q.items.mapM Item.text).map (", ".intercalate ·)
  let measurement ← safeName q.measurement
  let tags ← q.tags.mapM safeName
  let intervals ← q.intervalTexts
  let fill ← match q.fill with
    | Option.none => .ok []
    | some fill => fill.text.map ([·])
  let groups := intervals ++ tags
  .ok (["SELECT", items, "FROM " ++ measurement]
    ++ (if q.conditions.isEmpty then [] else ["WHERE " ++ " AND ".intercalate q.conditions])
    ++ (if groups.isEmpty then [] else ["GROUP BY " ++ ", ".intercalate groups])
    ++ fill
    ++ (q.timeOrder.map fun d => "ORDER BY time " ++ d.name).toList
    ++ numberClause "LIMIT" q.limit ++ numberClause "OFFSET" q.offset
    ++ numberClause "SLIMIT" q.seriesLimit ++ numberClause "SOFFSET" q.seriesOffset)

/-- The statement with its clauses. -/
def statement (q : Query) : Except Violation String :=
  q.clauses.map (" ".intercalate ·)

/-- Builds the statement, which is reported. -/
def build (q : Query) : Traced Violation String := do
  let s ← Traced.ofExcept q.statement
  Traced.report (.influxBuilt s)
  pure s

end Query

end ReadQuery.Influx
