import ReadQuery.Text.Ascii
import ReadQuery.Text.Blank
import ReadQuery.Text.Split

/-!
# Recognizers

The pieces that the grammars are put together from. A recognizer takes characters from the front of
a text and returns the rest; of two alternatives the first that succeeds is taken, and what was
taken is never given back. Parts of a sequence may have blanks between them.
-/

namespace ReadQuery.Input

/-- Takes characters from the front of a text. -/
abbrev Recognizer (α : Type) := StateT (List Char) Option α

namespace Recognizer

variable {α β : Type}

/-- Blanks, if there are any. -/
def gap : Recognizer Unit := fun cs => some ((), Text.skipGap cs)

/-- A single character. -/
def char (c : Char) : Recognizer Unit := fun cs =>
  match cs with
  | [] => none
  | d :: cs => if d = c then some ((), cs) else none

/-- A fixed text, compared with the characters once `fold` is applied to them. -/
def spelled (fold : Char → Char) (s : String) : Recognizer Unit := fun cs =>
  (Text.stripBy fold s.toList cs).map fun r => ((), r)

/-- A sign, written as it stands. -/
def mark (s : String) : Recognizer Unit := spelled id s

/-- A word in small letters, written in letters of any case. -/
def word (s : String) : Recognizer Unit := spelled Char.toLower s

/-- Succeeds where `p` fails, and takes nothing. -/
def absent (p : Recognizer α) : Recognizer Unit := fun cs =>
  match p cs with
  | some _ => none
  | none => some ((), cs)

/-- Succeeds where no name character follows. -/
def nameEnd : Recognizer Unit := fun cs =>
  match cs with
  | c :: _ => if Text.isNameChar c then none else some ((), cs)
  | [] => some ((), cs)

/-- A word that no name character follows. -/
def keyword (s : String) : Recognizer Unit := do
  word s
  nameEnd

/-- The characters in front that satisfy `p`. -/
def takeWhile (p : Char → Bool) : Recognizer (List Char) := fun cs =>
  some (cs.takeWhile p, cs.dropWhile p)

/-- The characters in front that satisfy `p`, of which there is at least one. -/
def takeSome (p : Char → Bool) : Recognizer (List Char) := fun cs =>
  let taken := cs.takeWhile p
  if taken.isEmpty then none else some (taken, cs.dropWhile p)

/-- A name: a letter or underscore, and name characters. -/
def name : Recognizer (List Char) := fun cs =>
  match cs with
  | c :: r =>
    if Text.isNameStart c then
      some (c :: r.takeWhile Text.isNameChar, r.dropWhile Text.isNameChar)
    else none
  | [] => none

/-- Whether `p` succeeds, taking what it takes. -/
def flag (p : Recognizer α) : Recognizer Bool :=
  (do
    let _ ← p
    pure true)
  <|> pure false

/-- What `p` finds, if it succeeds. -/
def maybe (p : Recognizer α) : Recognizer (Option α) :=
  (do
    let a ← p
    pure (some a))
  <|> pure none

/-- At most `fuel` times `p`. -/
def manyUpTo (p : Recognizer α) : Nat → Recognizer (List α)
  | 0 => pure []
  | fuel + 1 =>
    (do
      let a ← p
      let as ← manyUpTo p fuel
      pure (a :: as))
    <|> pure []

/-- As often `p` as it succeeds, where it takes at least one character every time. -/
def many (p : Recognizer α) : Recognizer (List α) := fun cs => manyUpTo p cs.length cs

/-- Parts with `separator` between them, blanks aside. -/
def separated (separator : Recognizer β) (p : Recognizer α) : Recognizer (List α) := do
  let a ← p
  let as ← many do
    gap
    let _ ← separator
    gap
    p
  pure (a :: as)

/-- Any number of parts with commas between them, blanks aside. -/
def commaList (p : Recognizer α) : Recognizer (List α) :=
  separated (char ',') p <|> pure []

/-- Recognizes a whole text, blanks at its ends aside. -/
def whole? (p : Recognizer α) (s : String) : Option α :=
  match p (Text.skipGap s.toList) with
  | some (a, r) => if (Text.skipGap r).isEmpty then some a else none
  | none => none

end Recognizer

end ReadQuery.Input
