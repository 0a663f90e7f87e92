import ReadQuery.Json.Basic
import ReadQuery.Number.Layout

/-!
# JSON text

The compact text of a JSON value. In a string only the quote, the backslash and the controls are
escaped; a float that is not finite is written as `null`.
-/

namespace ReadQuery.Json

/-- The escape of one character of a string. -/
def escapeChar (c : Char) : List Char :=
  if c == '"' then ['\\', '"']
  else if c == '\\' then ['\\', '\\']
  else if c == '\x08' then ['\\', 'b']
  else if c == '\x0C' then ['\\', 'f']
  else if c == '\n' then ['\\', 'n']
  else if c == '\r' then ['\\', 'r']
  else if c == '\t' then ['\\', 't']
  else if c.toNat < 0x20 then
    ['\\', 'u', '0', '0', Nat.digitChar (c.toNat / 16), Nat.digitChar (c.toNat % 16)]
  else [c]

/-- The characters of a string between its quotes. -/
def escape (cs : List Char) : List Char :=
  cs.flatMap escapeChar

/-- A string between quotes. -/
def quote (s : String) : String :=
  String.ofList ('"' :: escape s.toList ++ ['"'])

/-- A float, or null where JSON has no number. -/
def floatText (d : Number.Double) : String :=
  if d.isFinite then Number.Layout.json.text d else "null"

mutual

/-- The text of a value, without blanks. -/
def text : Json → String
  | .null => "null"
  | .bool b => if b then "true" else "false"
  | .int i => toString i
  | .float d => floatText d
  | .string s => quote s
  | .array items => "[" ++ ",".intercalate (textAll items) ++ "]"
  | .object members => "\x7b" ++ ",".intercalate (textMembers members) ++ "\x7d"

def textAll : List Json → List String
  | [] => []
  | j :: js => j.text :: textAll js

/-- The texts of the members of an object. -/
def textMembers : List (String × Json) → List String
  | [] => []
  | (k, j) :: ms => (quote k ++ ":" ++ j.text) :: textMembers ms

end

end ReadQuery.Json
