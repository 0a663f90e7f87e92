import ReadQuery.Text.Ascii
import ReadQuery.Text.Blank

/-!
# Parts of dates

The components that can be taken out of a date or time before it is compared.
-/

namespace ReadQuery

/-- A component of a date or time. -/
inductive DatePart where
  | year
  | isoYear
  | quarter
  | month
  | week
  | weekDay
  | isoWeekDay
  | day
  | hour
  | minute
  | second
  | date
  | time
  deriving DecidableEq, Repr

namespace DatePart

def name : DatePart → String
  | year => "year"
  | isoYear => "iso_year"
  | quarter => "quarter"
  | month => "month"
  | week => "week"
  | weekDay => "week_day"
  | isoWeekDay => "iso_week_day"
  | day => "day"
  | hour => "hour"
  | minute => "minute"
  | second => "second"
  | date => "date"
  | time => "time"

/-- The spellings of each part, in small letters. -/
def spellings : List (List String × DatePart) := [
  (["year", "yr"], year),
  (["iso_year", "isoyear"], isoYear),
  (["quarter", "qtr"], quarter),
  (["month", "mon"], month),
  (["week", "wk"], week),
  (["week_day", "weekday", "dow"], weekDay),
  (["iso_week_day", "iso_weekday", "isodow"], isoWeekDay),
  (["day", "dd"], day),
  (["hour", "hr"], hour),
  (["minute", "min"], minute),
  (["second", "sec"], second),
  (["date"], date),
  (["time"], time)
]

/-- The part that a spelling names, blanks around it and the case of its letters aside. -/
def ofSpelling? (s : String) : Option DatePart :=
  let word := Text.lower (Text.trim s)
  (spellings.find? (·.1.contains word)).map (·.2)

/-- Dates and times of day are compared as texts, all other parts as numbers. -/
def isNumeric : DatePart → Bool
  | date | time => false
  | _ => true

/-- Every part goes by its canonical name. -/
theorem ofSpelling?_name (part : DatePart) : ofSpelling? part.name = some part := by
  cases part <;> decide

end DatePart

end ReadQuery
