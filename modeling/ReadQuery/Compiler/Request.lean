import ReadQuery.Input.Expression.ToFilter
import ReadQuery.Input.MapPayload
import ReadQuery.Input.OrderText
import ReadQuery.Page.Window

/-!
# Requests

A read as it is asked for: a filter and an ordering, each in one of several forms, the fields to
return, and the part of the result.
-/

namespace ReadQuery.Compiler

open Input (ParseError)

/-- A filter in one of its forms. -/
inductive FilterInput where
  | none
  /-- Two map payloads. -/
  | map (and or : Option String)
  | expression (s : String)
  | structured (f : Filter)

/-- The filter of a request, in whichever way it is given. -/
def FilterInput.resolve : FilterInput → Traced ParseError Filter
  | none => pure Filter.none
  | map and or => Input.MapPayload.parse and or
  | expression s => Traced.ofExcept (Input.Expression.parse s)
  | structured f => pure f

/-- An ordering in one of its forms. -/
inductive OrderInput where
  | none
  /-- A JSON array of entries. -/
  | json (s : String)
  /-- Entries separated by commas. -/
  | text (s : String)
  | list (entries : List SortEntry)

/-- The ordering that an input stands for. -/
def OrderInput.resolve : OrderInput → Except ParseError (List SortEntry)
  | none => .ok []
  | json s => Input.OrderText.parseJson s
  | text s => Input.OrderText.parseList s
  | list entries => .ok entries

/-- A read as it is asked for. Without fields everything is returned. -/
structure Request where
  filter : FilterInput
  ordering : OrderInput
  fields : List String
  page : Page.Request

end ReadQuery.Compiler
