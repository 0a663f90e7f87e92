import ReadQuery.Input.Grammar
import ReadQuery.Input.ParseError
import ReadQuery.Json.Record
import ReadQuery.SortEntry

/-!
# Orderings in text form

`-created_at`, `created_at:desc`, `created_at.desc` and `created_at desc` all sort downwards; a bare
field and `+field` sort upwards. Several entries are separated by commas or listed in a JSON array.
-/

namespace ReadQuery.Input.OrderText

open Recognizer
open Json (Written)

/-- The sign in front of a field. -/
def sign : Recognizer Direction :=
  (do
    char '-'
    pure .descending)
  <|> (do
    char '+'
    pure .ascending)

/-- A field, which may be dotted. -/
def fieldPath : Recognizer (List Char) := fun cs =>
  match cs with
  | c :: r =>
    let isPathChar := fun d => Text.isNameChar d || d == '.'
    if Text.isNameStart c then some (c :: r.takeWhile isPathChar, r.dropWhile isPathChar) else none
  | [] => none

/-- The word of a direction: the first of its spellings that fits has to be the whole word. -/
def direction : Recognizer Direction := do
  let d ← (do
      word "descending"
      pure Direction.descending)
    <|> (do
      word "ascending"
      pure Direction.ascending)
    <|> (do
      word "desc"
      pure Direction.descending)
    <|> (do
      word "asc"
      pure Direction.ascending)
  nameEnd
  pure d

/-- What an entry says. -/
structure Parts where
  sign : Option Direction
  field : List Char
  direction : Option Direction

/-- An entry. Of two directions the last one counts. -/
def parts : Recognizer Parts := do
  let s ← maybe sign
  gap
  let field ← fieldPath
  gap
  let first ← maybe do
    char ':'
    gap
    direction
  gap
  let second ← maybe direction
  pure ⟨s, field, second.orElse fun _ => first⟩

/-- A direction after the last dot of a field is no segment of it. -/
def splitDirection (field : String) : String × Option Direction :=
  match Text.cutLast? '.' field with
  | some (head, tail) =>
    if head.isEmpty then (field, none)
    else
      match Direction.ofKeyword? tail with
      | some d => (head, some d)
      | none => (field, none)
  | none => (field, none)

/-- The entry that the parts say: a direction word before one after a dot before a sign. -/
def Parts.entry (p : Parts) : SortEntry :=
  let (field, suffix) := splitDirection (String.ofList p.field)
  let chosen := (p.direction.orElse fun _ => suffix).orElse fun _ => p.sign
  ⟨field, chosen.getD .ascending⟩

/-- Entries separated by commas; one more comma may end them. -/
def entries : Recognizer (List Parts) :=
  (do
    let ps ← separated (char ',') parts
    gap
    let _ ← flag (char ',')
    pure ps)
  <|> pure []

/-- Parses one entry of an ordering. -/
def parseEntry (s : String) : Except ParseError SortEntry :=
  match whole? parts s with
  | some p => .ok p.entry
  | none => .error .malformedOrdering

/-- Entries separated by commas; a blank text has none. -/
def parseList (s : String) : Except ParseError (List SortEntry) :=
  if Text.allBlank s then .ok []
  else
    match whole? entries s with
    | some ps => .ok (ps.map Parts.entry)
    | none => .error .malformedOrdering

/-- The keyword of a direction in a record. -/
def recordDirection? (w : Written) : Option Direction :=
  match w.word? Json.maxDepth with
  | some "ASC" | some "asc" => some .ascending
  | some "DESC" | some "desc" => some .descending
  | _ => none

/-- An entry that is written as a record. -/
def recordEntry? (w : Written) : Option SortEntry :=
  (w.record? [["field"], ["sort_order", "direction"]]).bind fun slots =>
    match slots with
    | [field, direction] => do
      let field ← Written.required? Written.string? field
      let direction ← Written.defaulted? .ascending recordDirection? direction
      pure ⟨field, direction⟩
    | _ => none

/-- An item of a JSON array: the text of an entry, or a record. The item is read as a whole
first. -/
def jsonEntry (w : Written) : Except ParseError SortEntry :=
  match w.read? (Json.maxDepth - 1) with
  | none => .error .malformedOrdering
  | some (.string s) => parseEntry s
  | some _ =>
    match recordEntry? w with
    | some e => .ok e
    | none => .error .malformedOrdering

/-- Parses an ordering that is written as a JSON array. -/
def parseJson (s : String) : Except ParseError (List SortEntry) :=
  match Written.ofList? s.toList with
  | some (.array items) => items.mapM jsonEntry
  | _ => .error .malformedOrdering

/-- A JSON array where the text starts with a bracket, else entries separated by commas. -/
def parse (s : String) : Except ParseError (List SortEntry) :=
  match s.toList.dropWhile Text.isBlank with
  | '[' :: _ => parseJson s
  | _ => parseList s

end ReadQuery.Input.OrderText
