import ReadQuery.Json.Written
import ReadQuery.Json.Text

/-!
# Records in JSON text

A record is read from an object by the names of its fields or from an array by their order. Members
with other names are passed over unread; a field given twice, also under two of its names, is
refused, and so is an array with more items than there are fields.
-/

namespace ReadQuery.Json

namespace Written

mutual

/-- A value as it is written without blanks. -/
def ofJson : Json → Written
  | .null => .null
  | .bool b => .bool b
  | .int i => .number (toString i).toList
  | .float d => .float d
  | .string s => .string (escape s.toList)
  | .array items => .array (ofJsonAll items)
  | .object members => .object (ofJsonMembers members)

/-- The items of an array written as their own texts. -/
def ofJsonAll : List Json → List Written
  | [] => []
  | j :: js => ofJson j :: ofJsonAll js

/-- The members of an object written as their own texts. -/
def ofJsonMembers : List (String × Json) → List (List Char × Written)
  | [] => []
  | (k, j) :: ms => (escape k.toList, ofJson j) :: ofJsonMembers ms

end

def string? : Written → Option String
  | .string body => (unescape body).map String.ofList
  | _ => none

def int64? : Written → Option Int64
  | .number cs =>
    match readNumber? cs with
    | some (.int i) => Number.int64? i
    | _ => none
  | _ => none

def bool? : Written → Option Bool
  | .bool b => some b
  | _ => none

def items? : Written → Option (List Written)
  | .array items => some items
  | _ => none

/-- A bare word: a string, or an object whose one member carries `null`. -/
def word? (depth : Nat) : Written → Option String
  | .string body => (unescape body).map String.ofList
  | .object [(key, .null)] => if depth = 0 then none else (unescape key).map String.ofList
  | _ => none

/-- Fills the slot in a place, if it is empty. -/
def fill {α : Type} (value : α) : Nat → List (Option α) → Option (List (Option α))
  | _, [] => none
  | 0, slot :: slots => if slot.isNone then some (some value :: slots) else none
  | n + 1, slot :: slots => (fill value n slots).map (slot :: ·)

/-- Puts the members of an object into the slots of the fields they name. -/
def gather {α : Type} (readKey : List Char → Option String) (names : List (List String)) :
    List (List Char × α) → List (Option α) → Option (List (Option α))
  | [], slots => some slots
  | (key, value) :: members, slots =>
    (readKey key).bind fun k =>
      match names.findIdx? (·.contains k) with
      | none => gather readKey names members slots
      | some i => (fill value i slots).bind (gather readKey names members)

/-- The written values of the fields with the given names (and aliases), in that order. -/
def recordBy? (readKey : List Char → Option String) (names : List (List String)) :
    Written → Option (List (Option Written))
  | .array items =>
    if items.length ≤ names.length then
      some (items.map some ++ List.replicate (names.length - items.length) none)
    else none
  | .object members => gather readKey names members (names.map fun _ => none)
  | _ => none

def key? (body : List Char) : Option String :=
  (unescape body).map String.ofList

/-- The fields of a record in ordinary text. -/
def record? (names : List (List String)) (w : Written) : Option (List (Option Written)) :=
  recordBy? key? names w

/-- A field that has to be there. -/
def required? {α : Type} (read : Written → Option α) : Option Written → Option α
  | none => none
  | some w => read w

/-- A field that has a default. -/
def defaulted? {α : Type} (default : α) (read : Written → Option α) : Option Written → Option α
  | none => some default
  | some w => read w

/-- A field that may be absent or `null`. -/
def optional? {α : Type} (read : Written → Option α) : Option Written → Option (Option α)
  | none => some none
  | some .null => some none
  | some w => (read w).map some

end Written

end ReadQuery.Json
