import ReadQuery.Input.Expression.Term
import ReadQuery.Input.Grammar

/-!
# The grammar of expressions

Conditions joined by `AND` and `OR`, where `AND` binds tighter and parentheses group. A condition is
a call, a null check, a range, a membership, a pattern or a comparison; each of these becomes a
call.
-/

namespace ReadQuery.Input.Grammar

open Recognizer

/-- A minus, if there is one. -/
def sign : Recognizer (List Char) :=
  (do
    char '-'
    pure ['-'])
  <|> pure []

/-- The exponent of a float: its letter, an optional sign and digits. -/
def exponent : Recognizer Int := do
  word "e"
  let negative ← (do
      char '+'
      pure false)
    <|> flag (char '-')
  let digits ← takeSome Char.isDigit
  let n : Int := Number.digitsValue digits
  pure (if negative then -n else n)

/-- A number with a point and digits on both sides of it. -/
def float : Recognizer Literal := do
  let minus ← sign
  let whole ← takeSome Char.isDigit
  char '.'
  let fraction ← takeSome Char.isDigit
  let e ← maybe exponent
  pure (.value (.float (Number.Double.ofDecimal (!minus.isEmpty)
    (Number.digitsValue (whole ++ fraction)) (e.getD 0 - fraction.length))))

/-- Digits that no name character follows. -/
def integer : Recognizer Literal := do
  let minus ← sign
  let digits ← takeSome Char.isDigit
  nameEnd
  pure (.integer (minus ++ digits))

def boolean : Recognizer Literal :=
  (do
    keyword "true"
    pure (.value (.bool true)))
  <|> (do
    keyword "false"
    pure (.value (.bool false)))

def null : Recognizer Literal := do
  keyword "null"
  pure (.value .null)

/-- The character that an escape stands for. -/
def escaped (c : Char) : Char :=
  if c == 'n' then '\n'
  else if c == 't' then '\t'
  else if c == 'r' then '\r'
  else if c == '0' then '\x00'
  else c

/-- The text up to a closing quote, and the rest. A backslash escapes the character after it. -/
def quotedBody (quote : Char) : List Char → Option (List Char × List Char)
  | [] => none
  | '\\' :: c :: cs => (quotedBody quote cs).map fun p => (escaped c :: p.1, p.2)
  | c :: cs =>
    if c = quote then some ([], cs)
    else if c = '\\' then none
    else (quotedBody quote cs).map fun p => (c :: p.1, p.2)

/-- A text between single or double quotes. -/
def string : Recognizer Literal :=
  (do
    char '\''
    let body ← quotedBody '\''
    pure (.value (.string (String.ofList body))))
  <|> (do
    char '"'
    let body ← quotedBody '"'
    pure (.value (.string (String.ofList body))))

/-- A literal; a float is tried before an integer, which it begins with. -/
def literal : Recognizer (Term Literal) := do
  let a ← float <|> integer <|> boolean <|> null <|> string
  pure (.literal a)

/-- The words that no field is named by. -/
def keywords : List String :=
  ["and", "or", "not", "in", "is", "null", "like", "ilike", "between", "true", "false"]

/-- One of the words that no field is named by. -/
def reserved : Recognizer Unit :=
  keywords.foldr (fun w p => keyword w <|> p) failure

/-- A name that is not reserved. -/
def identifier : Recognizer (List Char) := do
  absent reserved
  name

/-- A field name and at least one segment after a dot. -/
def select : Recognizer (Term Literal) := do
  let first ← identifier
  let second ← (do
    char '.'
    takeSome Text.isNameChar)
  let others ← many do
    char '.'
    takeSome Text.isNameChar
  pure (.select ((first :: second :: others).map String.ofList))

def field : Recognizer (Term Literal) := do
  let cs ← identifier
  pure (.field (String.ofList cs))

/-- A function name and its arguments between parentheses. -/
def application (argument : Recognizer (Term Literal)) : Recognizer (Term Literal) := do
  let function ← name
  gap
  char '('
  gap
  let args ← commaList argument
  gap
  char ')'
  pure (.call (String.ofList function) args)

/-- An operand; `fuel` bounds the nesting of calls in it. -/
def operand : Nat → Recognizer (Term Literal)
  | 0 => failure
  | fuel + 1 => literal <|> application (operand fuel) <|> select <|> field

/-- The sign of a comparison, under the name of the call it becomes. -/
def comparisonSign : Recognizer String :=
  (do
    mark "=="
    pure "eq")
  <|> (do
    mark "!="
    pure "neq")
  <|> (do
    mark "<>"
    pure "neq")
  <|> (do
    mark ">="
    pure ">=")
  <|> (do
    mark "<="
    pure "<=")
  <|> (do
    char '='
    pure "eq")
  <|> (do
    char '>'
    pure ">")
  <|> (do
    char '<'
    pure "<")

/-- The word of a pattern condition; tells whether case is disregarded. -/
def likeWord : Recognizer Bool :=
  (do
    keyword "ilike"
    pure true)
  <|> (do
    keyword "like"
    pure false)

/-- What may follow a call that is the left operand of a condition. -/
def continuation : Recognizer Unit :=
  (do
    let _ ← comparisonSign
    pure ())
  <|> (do
    let _ ← likeWord
    pure ())
  <|> keyword "is" <|> keyword "not" <|> keyword "in" <|> keyword "between"

/-- A call by itself, which no sign and no word of a condition follows. -/
def call (argument : Recognizer (Term Literal)) : Recognizer (Term Literal) := do
  let t ← application argument
  gap
  absent continuation
  pure t

/-- `x IS NULL` and `x IS NOT NULL`. -/
def nullCheck (operand : Recognizer (Term Literal)) : Recognizer (Term Literal) := do
  let t ← operand
  gap
  keyword "is"
  gap
  let negated ← flag (keyword "not")
  gap
  keyword "null"
  pure (.call (if negated then "isnotnull" else "isnull") [t])

/-- `x BETWEEN a AND b`. -/
def range (operand : Recognizer (Term Literal)) : Recognizer (Term Literal) := do
  let t ← operand
  gap
  keyword "between"
  gap
  let lower ← operand
  gap
  keyword "and"
  gap
  let upper ← operand
  pure (.call "between" [t, lower, upper])

/-- `x IN (a, b)` and `x NOT IN (a, b)`. -/
def membership (operand : Recognizer (Term Literal)) : Recognizer (Term Literal) := do
  let t ← operand
  gap
  let negated ← flag (keyword "not")
  gap
  keyword "in"
  gap
  char '('
  gap
  let items ← commaList operand
  gap
  char ')'
  pure (.call (if negated then "nin" else "in") (t :: items))

/-- Where a pattern with percent signs at its ends puts the text between them. -/
def placement (pattern : List Char) : Placement :=
  let leading := pattern.head? == some '%'
  let trailing := pattern.length > 1 && pattern.getLast? == some '%'
  match leading, trailing with
  | true, true => .anywhere
  | false, true => .atStart
  | true, false => .atEnd
  | false, false => .whole

/-- A pattern without the percent signs at its ends. -/
def bareText (pattern : List Char) : List Char :=
  ((pattern.dropWhile (· == '%')).reverse.dropWhile (· == '%')).reverse

/-- A pattern condition: the percent signs at the ends of a literal pattern choose the operator. -/
def likeCall (t pattern : Term Literal) (folded : Bool) : Term Literal :=
  match pattern with
  | .literal (.value (.string s)) =>
    .call (Operator.text (placement s.toList) folded).name
      [t, .literal (.value (.string (String.ofList (bareText s.toList))))]
  | _ => .call (if folded then "ilike" else "like") [t, pattern]

/-- `x LIKE p` and `x ILIKE p`. -/
def pattern (operand : Recognizer (Term Literal)) : Recognizer (Term Literal) := do
  let t ← operand
  gap
  let folded ← likeWord
  gap
  let p ← operand
  pure (likeCall t p folded)

/-- `x = a` and the other comparisons. -/
def comparison (operand : Recognizer (Term Literal)) : Recognizer (Term Literal) := do
  let t ← operand
  gap
  let function ← comparisonSign
  gap
  let a ← operand
  pure (.call function [t, a])

/-- A single part stands for itself, more are joined. -/
def joined (name : String) : List (Term Literal) → Term Literal
  | [t] => t
  | ts => .call name ts

/-- A condition, given how disjunctions and operands are recognized. -/
def condition (disjunction operand : Recognizer (Term Literal)) : Recognizer (Term Literal) :=
  call (disjunction <|> operand) <|> nullCheck operand <|> range operand <|> membership operand
    <|> pattern operand <|> comparison operand

/-- A condition or a disjunction between parentheses. -/
def part (disjunction operand : Recognizer (Term Literal)) : Recognizer (Term Literal) :=
  (do
    char '('
    gap
    let t ← disjunction
    gap
    char ')'
    pure t)
  <|> condition disjunction operand

/-- Parts joined by `AND`. -/
def conjunction (disjunction operand : Recognizer (Term Literal)) : Recognizer (Term Literal) := do
  let ts ← separated (keyword "and" <|> mark "&&") (part disjunction operand)
  pure (joined "and" ts)

/-- Conjunctions joined by `OR`; `fuel` bounds the nesting of parentheses. -/
def disjunction : Nat → Recognizer (Term Literal)
  | 0 => failure
  | fuel + 1 => do
    let ts ← separated (keyword "or" <|> mark "||") (conjunction (disjunction fuel) (operand fuel))
    pure (joined "or" ts)

/-- An expression. Each level of nesting takes a character, so the length of the text is fuel
enough. -/
def expression? (s : String) : Option (Term Literal) :=
  whole? (disjunction (s.toList.length + 2)) s

end ReadQuery.Input.Grammar
