import ReadQuery.Value

/-!
# Literals of InfluxQL

Texts between single quotes, names between double quotes, values, and regular expressions between
slashes.
-/

namespace ReadQuery.Influx

/-- A text between single quotes; quotes and backslashes are escaped. -/
def quoteText (s : String) : String :=
  String.ofList ('\'' :: s.toList.flatMap (fun c => if c = '\\' ∨ c = '\'' then ['\\', c] else [c])
    ++ ['\''])

/-- A name between double quotes, dots included; double quotes are escaped. -/
def quoteName (s : String) : String :=
  String.ofList ('"' :: s.toList.flatMap (fun c => if c = '"' then ['\\', c] else [c]) ++ ['"'])

/-- A value. Null is the empty text, a list the text of its JSON. -/
def literal : Value → String
  | .null => "''"
  | .bool b => if b then "true" else "false"
  | .int i => Number.showInt64 i
  | .float d => Number.Layout.marked.text d
  | .string s => quoteText s
  | .list items => quoteText (Value.text (.list items))

/-- The body of a regular expression, if it can stand between slashes: a slash that no backslash
escapes gets one. `escaped` tells whether a backslash escapes the next character; none may escape
the closing slash. -/
def regexBody : Bool → List Char → Option (List Char)
  | escaped, [] => if escaped then none else some []
  | escaped, c :: cs =>
    if c = '\\' then (regexBody (!escaped) cs).map (c :: ·)
    else if c = '/' ∧ escaped = false then (regexBody false cs).map ('\\' :: c :: ·)
    else (regexBody false cs).map (c :: ·)

/-- A regular expression between slashes. -/
def regexLiteral? (pattern : String) : Option String :=
  (regexBody false pattern.toList).map fun body => String.ofList ('/' :: body ++ ['/'])

end ReadQuery.Influx
