import ReadQuery.FieldRef
import ReadQuery.Sql.Placeholder

/-!
# Dialects of SQL

What the dialects write differently: quoted names, values inside JSON columns, parts of dates,
regular expressions, matches without regard to case, full-text search, limits, and the form of
placeholders.
-/

namespace ReadQuery.Sql

/-- A dialect of SQL. -/
inductive Dialect where
  | postgres
  | mysql
  | sqlite
  | clickHouse
  deriving DecidableEq, Repr

namespace Dialect

def backend : Dialect → Backend
  | postgres => .postgres
  | mysql => .mysql
  | sqlite => .sqlite
  | clickHouse => .clickHouse

/-- What names are quoted with. -/
def quoteMark : Dialect → String
  | postgres => "\""
  | mysql | sqlite | clickHouse => "`"

/-- A name between quotes, each segment on its own. -/
def quoteName (d : Dialect) (name : String) : String :=
  ".".intercalate ((Text.split '.' name).map fun s => d.quoteMark ++ s ++ d.quoteMark)

/-- A segment that is a position in an array. -/
def isIndex (segment : String) : Bool :=
  !segment.isEmpty && segment.toList.all Char.isDigit

/-- A path in the notation `$.a.b[0]`. -/
def jsonPath (path : List String) : String :=
  "$" ++ "".intercalate (path.map fun segment =>
    if isIndex segment then "[" ++ segment ++ "]" else "." ++ segment)

/-- A text between single quotes. -/
def literal (s : String) : String :=
  "'" ++ s ++ "'"

/-- A path of arrows, of which the last one extracts text. -/
def arrows : List String → String
  | [] => ""
  | segment :: rest =>
    (if rest.isEmpty then "->>" else "->")
      ++ (if isIndex segment then segment else literal segment) ++ arrows rest

/-- A segment as an argument. Positions are counted from one, so that `next` has to give the number
behind a position; digits beyond 64 bits are a key. -/
def argumentWith {m : Type → Type} [Monad m] (next : UInt64 → m UInt64) (segment : String) :
    m String :=
  match Number.readUInt64? segment.toList with
  | some n => do
    let k ← next n
    pure (toString k)
  | none => pure (literal segment)

/-- A segment as an argument, where the number behind the greatest of 64 bits is zero. -/
def argument (segment : String) : String :=
  Id.run (argumentWith (fun n => pure (n + 1)) segment)

/-- The value at a path inside a JSON column, as text. -/
def jsonExtract (d : Dialect) (column : String) (path : List String) : String :=
  match d with
  | postgres => column ++ arrows path
  | mysql => "JSON_UNQUOTE(JSON_EXTRACT(" ++ column ++ ", " ++ literal (jsonPath path) ++ "))"
  | sqlite => "json_extract(" ++ column ++ ", " ++ literal (jsonPath path) ++ ")"
  | clickHouse => "JSONExtractString(" ++ ", ".intercalate (column :: path.map argument) ++ ")"

/-- A field: its column, or the value inside it. -/
def field (d : Dialect) (f : FieldRef) : String :=
  if f.isNested then d.jsonExtract f.column f.path else f.column

def strftime (format expr : String) : String :=
  "CAST(strftime(" ++ literal format ++ ", " ++ expr ++ ") AS INTEGER)"

def extract (name expr : String) : String :=
  "EXTRACT(" ++ name ++ " FROM " ++ expr ++ ")"

def apply (function expr : String) : String :=
  function ++ "(" ++ expr ++ ")"

/-- A part of a date, if the dialect can render it. -/
def datePart (d : Dialect) (expr : String) (part : DatePart) : Except SkipReason String :=
  match d with
  | postgres =>
    match part with
    | .year => .ok (extract "YEAR" expr)
    | .isoYear => .ok (extract "ISOYEAR" expr)
    | .quarter => .ok (extract "QUARTER" expr)
    | .month => .ok (extract "MONTH" expr)
    | .week => .ok (extract "WEEK" expr)
    | .weekDay => .ok (extract "DOW" expr ++ " + 1")
    | .isoWeekDay => .ok (extract "ISODOW" expr)
    | .day => .ok (extract "DAY" expr)
    | .hour => .ok (extract "HOUR" expr)
    | .minute => .ok (extract "MINUTE" expr)
    | .second => .ok (extract "SECOND" expr)
    | .date => .ok ("CAST(" ++ expr ++ " AS DATE)")
    | .time => .ok ("CAST(" ++ expr ++ " AS TIME)")
  | mysql =>
    match part with
    | .year => .ok (apply "YEAR" expr)
    | .isoYear => .ok ("FLOOR(YEARWEEK(" ++ expr ++ ", 3) / 100)")
    | .quarter => .ok (apply "QUARTER" expr)
    | .month => .ok (apply "MONTH" expr)
    | .week => .ok ("WEEK(" ++ expr ++ ", 3)")
    | .weekDay => .ok (apply "DAYOFWEEK" expr)
    | .isoWeekDay => .ok (apply "WEEKDAY" expr ++ " + 1")
    | .day => .ok (apply "DAY" expr)
    | .hour => .ok (apply "HOUR" expr)
    | .minute => .ok (apply "MINUTE" expr)
    | .second => .ok (apply "SECOND" expr)
    | .date => .ok (apply "DATE" expr)
    | .time => .ok (apply "TIME" expr)
  | sqlite =>
    match part with
    | .year => .ok (strftime "%Y" expr)
    | .isoYear => .error (.unsupportedDatePart .isoYear .sqlite)
    | .quarter => .ok ("(" ++ strftime "%m" expr ++ " + 2) / 3")
    | .month => .ok (strftime "%m" expr)
    | .week => .ok (strftime "%W" expr)
    | .weekDay => .ok (strftime "%w" expr ++ " + 1")
    | .isoWeekDay => .ok ("(" ++ strftime "%w" expr ++ " + 6) % 7 + 1")
    | .day => .ok (strftime "%d" expr)
    | .hour => .ok (strftime "%H" expr)
    | .minute => .ok (strftime "%M" expr)
    | .second => .ok (strftime "%S" expr)
    | .date => .ok (apply "date" expr)
    | .time => .ok (apply "time" expr)
  | clickHouse =>
    match part with
    | .year => .ok (apply "toYear" expr)
    | .isoYear => .ok (apply "toISOYear" expr)
    | .quarter => .ok (apply "toQuarter" expr)
    | .month => .ok (apply "toMonth" expr)
    | .week => .ok (apply "toISOWeek" expr)
    | .weekDay => .ok ("toDayOfWeek(" ++ expr ++ ", 3)")
    | .isoWeekDay => .ok (apply "toDayOfWeek" expr)
    | .day => .ok (apply "toDayOfMonth" expr)
    | .hour => .ok (apply "toHour" expr)
    | .minute => .ok (apply "toMinute" expr)
    | .second => .ok (apply "toSecond" expr)
    | .date => .ok (apply "toDate" expr)
    | .time => .ok ("formatDateTime(" ++ expr ++ ", '%H:%M:%S')")

/-- What stands after a pattern, where the backslash has to be named as the escape. -/
def likeEscape : Dialect → String
  | postgres | sqlite => " ESCAPE '\\'"
  | mysql | clickHouse => ""

def like (d : Dialect) (expr : String) : String :=
  expr ++ " LIKE ?" ++ d.likeEscape

/-- A match with a pattern without regard to case. -/
def foldedLike (d : Dialect) (expr : String) : String :=
  match d with
  | postgres | clickHouse => expr ++ " ILIKE ?" ++ d.likeEscape
  | mysql | sqlite => "LOWER(" ++ expr ++ ") LIKE LOWER(?)" ++ d.likeEscape

/-- A match with a regular expression, and the form in which the expression is bound. -/
def regex (d : Dialect) (expr pattern : String) (folded : Bool) : String × String :=
  match d with
  | postgres => (expr ++ (if folded then " ~* ?" else " ~ ?"), pattern)
  | mysql =>
    ("REGEXP_LIKE(" ++ expr ++ ", ?, " ++ literal (if folded then "i" else "c") ++ ")", pattern)
  | sqlite => (expr ++ " REGEXP ?", if folded then "(?i)" ++ pattern else pattern)
  | clickHouse =>
    ("match(" ++ expr ++ ", ?)", if folded then "(?i)" ++ pattern else pattern)

/-- A full-text search, where there is one. -/
def search? (d : Dialect) (expr : String) : Option String :=
  match d with
  | postgres => some ("to_tsvector(" ++ expr ++ ") @@ plainto_tsquery(?)")
  | mysql => some ("MATCH(" ++ expr ++ ") AGAINST(? IN NATURAL LANGUAGE MODE)")
  | sqlite | clickHouse => none

/-- The placeholders in the form of the dialect. -/
def placeholders (d : Dialect) (sql : String) : String :=
  match d with
  | postgres => Placeholder.number "$" sql
  | mysql | sqlite | clickHouse => sql

/-- The placeholders in the form of the dialect, with numbers of 32 bits. There is no text where the
numbers run out. -/
def placeholders? (d : Dialect) (sql : String) : Option String :=
  match d with
  | postgres => Placeholder.number? "$" sql
  | mysql | sqlite | clickHouse => some sql

/-- The clause of an offset without a limit. -/
def bareOffset (d : Dialect) (offset : Int64) : String :=
  let bare := "OFFSET " ++ Number.showInt64 offset
  match d with
  | postgres | clickHouse => bare
  | mysql => "LIMIT " ++ toString Number.maxInt64 ++ " " ++ bare
  | sqlite => "LIMIT -1 " ++ bare

/-- The clause of a limit and an offset, if there is one of them. -/
def limitAndOffset? (d : Dialect) (limit offset : Option Int64) : Option String :=
  match limit, offset with
  | some limit, some offset =>
    some ("LIMIT " ++ Number.showInt64 limit ++ " OFFSET " ++ Number.showInt64 offset)
  | some limit, none => some ("LIMIT " ++ Number.showInt64 limit)
  | none, some offset => some (d.bareOffset offset)
  | none, none => none

end Dialect

end ReadQuery.Sql
