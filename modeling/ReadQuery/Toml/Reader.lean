import ReadQuery.Input.Grammar
import ReadQuery.Json.Written
import ReadQuery.Number.Integer
import ReadQuery.Toml.Basic

/-!
# Reading TOML

Numbers, texts of four kinds, arrays, tables between braces, dotted keys and table headers. Dates
are recognized by their shape alone.
-/

namespace ReadQuery.Toml

open Input (Recognizer)
open Input.Recognizer (char maybe flag takeSome many)

/-- Replaces the ends of lines of two characters by those of one. -/
def foldLines : List Char → List Char
  | [] => []
  | '\r' :: '\n' :: cs => '\n' :: foldLines cs
  | c :: cs => c :: foldLines cs

/-- Drops a byte order mark from the front. -/
def dropMark : List Char → List Char
  | '\uFEFF' :: cs => cs
  | cs => cs

/-- Blanks within a line. -/
def blanks : Recognizer Unit := fun cs => some ((), cs.dropWhile fun c => c == ' ' || c == '\t')

def isCommentChar (c : Char) : Bool :=
  c == '\t' || 0x20 ≤ c.toNat

/-- Skips blanks, ends of lines and comments. `inside` tells whether the text starts in a
comment. -/
def skipLines : (inside : Bool) → List Char → Option (List Char)
  | _, [] => some []
  | true, c :: cs =>
    if c = '\n' then skipLines false cs
    else if isCommentChar c then skipLines true cs
    else none
  | false, c :: cs =>
    if c = '#' then skipLines true cs
    else if c = ' ' ∨ c = '\t' ∨ c = '\n' then skipLines false cs
    else some (c :: cs)

/-- Skips blanks, ends of lines and comments. -/
def lines : Recognizer Unit := fun cs => (skipLines false cs).map fun r => ((), r)

/-- The end of a line, which a comment may precede. -/
def lineEnd : Recognizer Unit := fun cs =>
  match cs with
  | [] => some ((), [])
  | '\n' :: r => some ((), r)
  | '#' :: r =>
    match r.dropWhile isCommentChar with
    | [] => some ((), [])
    | '\n' :: r => some ((), r)
    | _ => none
  | _ => none

/-- The characters that stand for themselves in a text. -/
def isTextChar (c : Char) : Bool :=
  c == '\t' || (0x20 ≤ c.toNat && c.toNat != 0x7F)

/-- The character of a hexadecimal escape. -/
def hexChar? (digits : List Char) : Option Char :=
  let n := digits.foldl (fun n c => 16 * n + Json.hexValue c) 0
  if digits.all Json.isHex && n.isValidChar then some (Char.ofNat n) else none

/-- The character of a one-letter escape. -/
def escape? (c : Char) : Option Char :=
  match c with
  | '"' => some '"'
  | '\\' => some '\\'
  | 'b' => some '\x08'
  | 'f' => some '\x0C'
  | 'n' => some '\n'
  | 'r' => some '\r'
  | 't' => some '\t'
  | _ => none

/-- The rest of a line of blanks, and all blanks and ends of lines after it. -/
def skipFold (cs : List Char) : Option (List Char) :=
  let isLineBlank := fun c => c == ' ' || c == '\t'
  match cs.dropWhile isLineBlank with
  | [] => some []
  | '\n' :: r => some (r.dropWhile fun c => isLineBlank c || c == '\n')
  | _ => none

/-- The text up to the closing mark, and the rest. Only between double quotes are there escapes; a
text of several lines ends at three marks, of which up to two more may belong to the text. -/
def textBody (mark : Char) (several : Bool) : Nat → List Char → Option (List Char × List Char)
  | 0, _ => none
  | _, [] => none
  | fuel + 1, c :: cs =>
    let push := fun (d : Char) (rest : List Char) =>
      (textBody mark several fuel rest).map fun p => (d :: p.1, p.2)
    if c = mark then
      if !several then some ([], cs)
      else
        match cs.takeWhile (· == mark) with
        | [] => push mark cs
        | [_] => push mark cs
        | [_, _] => some ([], cs.drop 2)
        | [_, _, _] => some ([mark], cs.drop 3)
        | _ => some ([mark, mark], cs.drop 4)
    else if c = '\n' then if several then push '\n' cs else none
    else if c = '\\' ∧ mark = '"' then
      match cs with
      | [] => none
      | e :: r =>
        match escape? e with
        | some d => push d r
        | none =>
          if e = 'u' ∨ e = 'U' then
            let n := if e = 'u' then 4 else 8
            if r.length < n then none
            else (hexChar? (r.take n)).bind fun d => push d (r.drop n)
          else if several ∧ (e = ' ' ∨ e = '\t' ∨ e = '\n') then
            (skipFold cs).bind (textBody mark several fuel)
          else none
    else if isTextChar c then push c cs
    else none

/-- A text; tells whether it may take several lines. The end of the line right after the opening
marks of such a text does not belong to it. -/
def text (mark : Char) : Recognizer (String × Bool) := fun cs =>
  let several := [mark, mark, mark].isPrefixOf cs
  let body := match several, cs with
    | true, _ :: _ :: _ :: '\n' :: r => some r
    | true, _ :: _ :: _ :: r => some r
    | false, c :: r => if c = mark then some r else none
    | _, _ => none
  body.bind fun body =>
    (textBody mark several (body.length + 1) body).map fun p =>
      ((String.ofList p.1, several), p.2)

/-- The characters of bare keys, which numbers and dates are made of too. -/
def isKeyChar (c : Char) : Bool :=
  c.isAlphanum || c == '-' || c == '_'

def bareWord : Recognizer (List Char) := takeSome isKeyChar

/-- A text as a key, which has to stand on one line. -/
def textKey (mark : Char) : Recognizer String := do
  let (s, several) ← text mark
  if several then failure
  pure s

/-- A key, bare or between quotes. -/
def key : Recognizer String :=
  (do
    let cs ← bareWord
    pure (String.ofList cs))
  <|> textKey '"' <|> textKey '\''

/-- A path of keys with dots between them. -/
def keyPath : Recognizer (List String) := do
  let first ← key
  blanks
  let rest ← many do
    char '.'
    blanks
    let k ← key
    blanks
    pure k
  pure (first :: rest)

def given {α : Type} (a : Option α) : Recognizer α := fun cs => a.map fun a => (a, cs)

def isDigitOf (base : Nat) (c : Char) : Bool :=
  Json.isHex c && Json.hexValue c < base

/-- The digits in front of a word, and the rest of it. Underscores stand between digits only.
Without `zeros` no digit follows a leading zero. `seen` tells whether there were digits before, and
`zero` whether the first of them was a zero. -/
def digits? (base : Nat) (zeros : Bool) :
    (seen zero : Bool) → List Char → Option (List Char × List Char)
  | seen, _, [] => if seen then some ([], []) else none
  | seen, zero, '_' :: c :: cs =>
    if seen && isDigitOf base c && (zeros || !zero) then
      (digits? base zeros true zero cs).map fun p => (c :: p.1, p.2)
    else none
  | seen, zero, c :: cs =>
    if isDigitOf base c then
      if zero && !zeros then none
      else
        (digits? base zeros true (zero || (!seen && c == '0')) cs).map fun p => (c :: p.1, p.2)
    else if seen && c != '_' then some ([], c :: cs)
    else none

/-- The number that digits of a base stand for. -/
def valueOf (base : Nat) (digits : List Char) : Nat :=
  digits.foldl (fun n c => base * n + Json.hexValue c) 0

/-- A minus cut from the front, if there is one. -/
def cutMinus : List Char → Bool × List Char
  | '-' :: cs => (true, cs)
  | cs => (false, cs)

/-- A whole word as an integer. Only decimal ones have a sign, and only others leading zeros. -/
def integer? (base : Nat) (word : List Char) : Option Value :=
  let (negative, word) := if base = 10 then cutMinus word else (false, word)
  match digits? base (base != 10) false false word with
  | some (ds, []) =>
    let n : Int := valueOf base ds
    (Number.int64? (if negative then -n else n)).map .integer
  | _ => none

/-- A whole word as the digits of an exponent. -/
def exponentDigits? (word : List Char) : Option Int :=
  match digits? 10 true false false word with
  | some (ds, []) => some (valueOf 10 ds)
  | _ => none

/-- The exponent that the end of a word tells, or the word after a plus sign behind it. -/
def exponent : List Char → Recognizer Int
  | [] => pure 0
  | [e] => do
    if !(e == 'e' || e == 'E') then failure
    let _ ← flag (char '+')
    let word ← bareWord
    given (exponentDigits? word)
  | e :: word =>
    if e == 'e' || e == 'E' then
      let (negative, word) := cutMinus word
      given ((exponentDigits? word).map fun n => if negative then -n else n)
    else failure

/-- A number with a point or an exponent, given the words before and after the point. It has to be
finite. -/
def float (word : List Char) (after : Option (List Char)) : Recognizer Value := do
  let (negative, word) := cutMinus word
  let (whole, rest) ← given (digits? 10 false false false word)
  let (fraction, rest) ← given (match after with
    | none => some ([], rest)
    | some after => if rest.isEmpty then digits? 10 true false false after else none)
  let e ← exponent rest
  let d := Number.Double.ofDecimal negative (valueOf 10 (whole ++ fraction)) (e - fraction.length)
  if !d.isFinite then failure
  pure (.float d)

/-- A number; the prefix of an integer tells its base. -/
def number (word : List Char) : Recognizer Value := do
  match word with
  | '0' :: 'x' :: ds => given (integer? 16 ds)
  | '0' :: 'o' :: ds => given (integer? 8 ds)
  | '0' :: 'b' :: ds => given (integer? 2 ds)
  | _ =>
    if word.contains 'e' || word.contains 'E' then float word none
    else if ← flag (char '.') then
      let after ← bareWord
      float word (some after)
    else
      let (negative, name) := cutMinus word
      if name = ['i', 'n', 'f'] then
        pure (.float (.ofMagnitude negative Number.Double.infiniteBits))
      else if name = ['n', 'a', 'n'] then pure (.float .canonicalNaN)
      else given (integer? 10 word)

def wordAfter (c : Char) : Recognizer Unit := do
  char c
  let _ ← bareWord

/-- A mark, after which a word has to follow. -/
def maybeWordAfter (c : Char) : Recognizer Unit := fun cs =>
  match cs with
  | d :: _ => if d = c then wordAfter c cs else some ((), cs)
  | [] => some ((), cs)

/-- The rest of a date, whose first word may be the hour (`hour`) already. One blank may stand
between the date and the hour. Nothing but the marks between the words is looked at. -/
def datetime (hour : Bool) : Recognizer Value := do
  let _ ← maybe do
    char ' '
    bareWord
  if hour || (← flag (char ':')) then
    let _ ← bareWord
    wordAfter ':'
    maybeWordAfter '.'
    maybeWordAfter '+'
    maybeWordAfter ':'
  pure .datetime

/-- Whether a word starts a date: it has a letter T, or a hyphen that belongs to no exponent. -/
def startsDate (word : List Char) : Bool :=
  let isExponent := fun (p : Char × Char) => (p.1 == 'e' || p.1 == 'E') && p.2 == '-'
  word.contains 'T' || word.contains 't'
    || ((word.drop 1).contains '-' && !(word.zip (word.drop 1)).any isExponent)

/-- The number or date that starts with a word. -/
def numberOrDate (word : List Char) : Recognizer Value := do
  if startsDate word then datetime false
  else if ← flag (char ':') then datetime true
  else number word

/-- Whether a word may start a number or a date. -/
def startsNumber (word : List Char) : Bool :=
  word == ['i', 'n', 'f'] || word == ['n', 'a', 'n']
    || (match word with
      | c :: _ => c == '-' || c.isDigit
      | [] => false)

/-- A value without quotes and brackets. -/
def wordValue : Recognizer Value := do
  let word ← bareWord
  if word = "true".toList then pure (.boolean true)
  else if word = "false".toList then pure (.boolean false)
  else if startsNumber word then numberOrDate word
  else failure

def textValue (mark : Char) : Recognizer Value := do
  let (s, _) ← text mark
  pure (.string s)

/-- Items between brackets, with ends of lines and comments around them and perhaps a comma after
the last. -/
def array (item : Recognizer Value) : Recognizer Value := do
  char '['
  lines
  let items ← (do
    let first ← item
    lines
    let rest ← many do
      char ','
      lines
      let v ← item
      lines
      pure v
    let _ ← maybe do
      char ','
      lines
    pure (first :: rest))
    <|> pure []
  char ']'
  pure (.array items)

/-- A key path and its value. -/
def member (item : Recognizer Value) : Recognizer (List String × Value) := do
  let path ← keyPath
  char '='
  blanks
  let v ← item
  blanks
  pure (path, v)

/-- Adds members one after another. -/
def addAll (given : List (List String × Value)) : Option Members :=
  given.foldlM (fun ms m => addAt m.1 m.2 ms) []

/-- Members between braces, on one line. -/
def inlineTable (item : Recognizer Value) : Recognizer Value := do
  char '{'
  blanks
  let members ← (do
    let first ← member item
    let rest ← many do
      char ','
      blanks
      member item
    pure (first :: rest))
    <|> pure []
  char '}'
  let members ← given (addAll members)
  pure (.inline members)

/-- A value whose arrays and tables are nested `depth` deep at most. -/
def value : (depth : Nat) → Recognizer Value
  | 0 => failure
  | depth + 1 =>
    textValue '"' <|> textValue '\'' <|> wordValue
    <|> (do
      char '+'
      let word ← bareWord
      number word)
    <|> array (value depth) <|> inlineTable (value depth)

/-- A line of a document. -/
inductive Line where
  | member (path : List String) (v : Value)
  | header (h : Header)

/-- The header of a table, up to the end of its line. -/
def header : Recognizer Header := do
  char '['
  let isArray ← flag (char '[')
  blanks
  let path ← keyPath
  char ']'
  if isArray then char ']'
  blanks
  lineEnd
  pure { path, isArray }

/-- One line of a document. -/
def line (depth : Nat) : Recognizer Line := do
  lines
  (do
    let h ← header
    pure (.header h))
  <|> (do
    let (path, v) ← member (value depth)
    lineEnd
    pure (.member path v))

/-- Puts a line into a document: behind the last header, if there is one. -/
def Document.addLine (doc : Document) : Line → Option Document
  | .header h => some { doc with tables := doc.tables ++ [⟨h, []⟩] }
  | .member path v =>
    match doc.tables.getLast? with
    | none => (addAt path v doc.members).map fun ms => { doc with members := ms }
    | some t =>
      (addAt path v t.members).map fun ms =>
        { doc with tables := doc.tables.dropLast ++ [{ t with members := ms }] }

/-- Reads a document line by line. -/
def Document.ofText? (s : String) : Option Document :=
  let cs := foldLines (dropMark s.toList)
  match many (line cs.length) cs with
  | some (ls, rest) =>
    match skipLines false rest with
    | some [] => ls.foldlM Document.addLine { members := [], tables := [] }
    | _ => none
  | none => none

end ReadQuery.Toml
