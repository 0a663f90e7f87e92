import ReadQuery.Influx.Filter
import ReadQuery.Proofs.Influx.Literal
import ReadQuery.Proofs.Number

/-!
# Lexemes of InfluxQL

How a predicate falls into lexemes (`lex`): parentheses, words, names between double quotes and
texts between single ones, and regular expressions between slashes. Between quotes a backslash
escapes the character behind it; a regular expression ends at the first slash that none escapes.

A literal is one lexeme, whatever its value is (`lex_literal`): a text is read back from its quotes,
and a number is a word that is no keyword. A regular expression is one lexeme too, which the slash
in the end closes (`lex_regex`).
-/

namespace ReadQuery.Influx

open Number (Scalar isScalarChar)

/-- A lexeme of a predicate. -/
inductive Lexeme where
  | opening
  | closing
  /-- A sign, a connective or the time. -/
  | keyword (word : String)
  /-- Any other word. -/
  | scalar (word : String)
  /-- What is escaped between double quotes. -/
  | name (s : String)
  /-- What is escaped between single quotes. -/
  | text (s : String)
  /-- What is written between slashes. -/
  | regex (body : String)
  deriving DecidableEq, Repr

/-- Where a reader is, and what it has read of the lexeme there. -/
inductive Mode where
  | outside (word : List Char)
  /-- Between quotes; a backslash may escape the next character. -/
  | quoted (mark : Char) (escaped : Bool) (read : List Char)
  /-- Between slashes; an odd run of backslashes may be in front of the next character. -/
  | slashed (escaped : Bool) (read : List Char)
  deriving DecidableEq

/-- The signs and words of predicates. -/
def keywords : List String :=
  ["AND", "OR", "time", "=", "!=", ">", ">=", "<", "<=", "=~"]

/-- The lexeme of the characters of a word, if there are any. -/
def wordLexemes (word : List Char) : List Lexeme :=
  if word = [] then []
  else if String.ofList word ∈ keywords then [.keyword (String.ofList word)]
  else [.scalar (String.ofList word)]

/-- The lexeme between two marks: a name between double quotes, and a text otherwise. -/
def quotedLexeme (mark : Char) (s : List Char) : Lexeme :=
  if mark = '"' then .name (String.ofList s) else .text (String.ofList s)

/-- The characters that end a word. -/
def breaks : List Char := [' ', '\t', '\n', '\r', '(', ')', '"', '\'', '/']

/-- The lexemes that one character ends, and where it leads. -/
def step : Mode → Char → List Lexeme × Mode
  | .outside word, c =>
    if c ∉ breaks then ([], .outside (word ++ [c]))
    else if c = '(' then (wordLexemes word ++ [.opening], .outside [])
    else if c = ')' then (wordLexemes word ++ [.closing], .outside [])
    else if c = '"' ∨ c = '\'' then (wordLexemes word, .quoted c false [])
    else if c = '/' then (wordLexemes word, .slashed false [])
    else (wordLexemes word, .outside [])
  | .quoted mark true read, c => ([], .quoted mark false (read ++ [c]))
  | .quoted mark false read, c =>
    if c = '\\' then ([], .quoted mark true read)
    else if c = mark then ([quotedLexeme mark read], .outside [])
    else ([], .quoted mark false (read ++ [c]))
  | .slashed escaped read, c =>
    if c = '/' ∧ escaped = false then ([.regex (String.ofList read)], .outside [])
    else ([], .slashed (if c = '\\' then !escaped else false) (read ++ [c]))

/-- The lexemes that the characters of a text end, and where they lead. -/
def steps : Mode → List Char → List Lexeme × Mode
  | m, [] => ([], m)
  | m, c :: cs => ((step m c).1 ++ (steps (step m c).2 cs).1, (steps (step m c).2 cs).2)

/-- The lexeme at the end of a text, which may not be between quotes or slashes. -/
def Mode.lexemesAtEnd? : Mode → Option (List Lexeme)
  | outside word => some (wordLexemes word)
  | _ => none

/-- The lexemes of a whole text, unless a quote or a slash is not closed. -/
def lex (s : String) : Option (List Lexeme) :=
  let (ls, m) := steps (.outside []) s.toList
  m.lexemesAtEnd?.map (ls ++ ·)

variable {s t : String} {cs ds : List Char} {ls ls' ms : List Lexeme} {m m' m'' : Mode}

/-- A text is read from where the one before it ends. -/
lemma steps_append (h : steps m cs = (ls, m')) (h' : steps m' ds = (ls', m'')) :
    steps m (cs ++ ds) = (ls ++ ls', m'') := by
  induction cs generalizing m ls with
  | nil =>
    obtain ⟨rfl, rfl⟩ := Prod.mk.inj h
    exact h'
  | cons c cs ih =>
    rw [steps] at h
    obtain ⟨rfl, hm⟩ := Prod.mk.inj h
    rw [List.cons_append, steps, ih (Prod.ext rfl hm), List.append_assoc]

/-- A text is lexed if it ends outside of quotes and slashes. -/
lemma lex_eq_some : lex s = some ls ↔ ∃ ms word,
    steps (.outside []) s.toList = (ms, .outside word) ∧ ls = ms ++ wordLexemes word := by
  unfold lex
  obtain ⟨ms, m⟩ := steps (.outside []) s.toList
  cases m with
  | outside word => simp [Mode.lexemesAtEnd?, eq_comm]
  | quoted | slashed => simp [Mode.lexemesAtEnd?]

/-- A text that ends without a word is lexed as it is read. -/
lemma lex_of_steps (h : steps (.outside []) s.toList = (ls, .outside [])) : lex s = some ls :=
  lex_eq_some.2 ⟨ls, [], h, (List.append_nil ls).symm⟩

/-- A blank ends the lexemes in front of it. -/
lemma lex_spaced (hs : lex s = some ls) (ht : lex t = some ms) :
    lex (s ++ " " ++ t) = some (ls ++ ms) := by
  obtain ⟨_, word, hsteps, rfl⟩ := lex_eq_some.1 hs
  obtain ⟨_, word', htsteps, rfl⟩ := lex_eq_some.1 ht
  have hblank : steps (.outside word) [' '] = (wordLexemes word, .outside []) :=
    Prod.ext (List.append_nil _) rfl
  rw [lex_eq_some, String.toList_append, String.toList_append]
  refine ⟨_, word', steps_append (steps_append hsteps hblank) htsteps, ?_⟩
  simp only [List.append_assoc]

/-- A text in parentheses is lexed between them. -/
lemma lex_parens (hs : lex s = some ls) : lex (parens s) = some (.opening :: ls ++ [.closing]) := by
  obtain ⟨_, word, hsteps, rfl⟩ := lex_eq_some.1 hs
  have hopening : steps (.outside []) ['('] = ([.opening], .outside []) := rfl
  have hclosing : steps (.outside word) [')'] = (wordLexemes word ++ [.closing], .outside []) :=
    Prod.ext (List.append_nil _) rfl
  refine lex_of_steps ?_
  rw [parens, String.toList_append, String.toList_append]
  refine (steps_append (steps_append hopening hsteps) hclosing).trans ?_
  simp

/-- A word goes on up to the next break. -/
lemma steps_word (h : ∀ c ∈ cs, c ∉ breaks) (word : List Char) :
    steps (.outside word) cs = ([], .outside (word ++ cs)) := by
  induction cs generalizing word with
  | nil => rw [List.append_nil, steps]
  | cons c cs ih =>
    rw [List.forall_mem_cons] at h
    rw [steps, step, if_pos h.1, ih h.2, List.append_assoc]
    rfl

/-- A word is one lexeme at most. -/
lemma lex_word (h : ∀ c ∈ s.toList, c ∉ breaks) : lex s = some (wordLexemes s.toList) :=
  lex_eq_some.2 ⟨[], s.toList, steps_word h [], rfl⟩

/-- A keyword is lexed as itself. -/
lemma lex_keyword {w : String} (h : w ∈ keywords) : lex w = some [.keyword w] := by
  have hwords : ∀ w ∈ keywords, lex w = some [.keyword w] := by decide
  exact hwords w h

/-- The text of a number or a truth value is one word and no keyword. -/
lemma lex_scalar (h : Scalar s.toList) (hne : s.toList ≠ []) : lex s = some [.scalar s] := by
  have hbreaks : breaks.all (!isScalarChar ·) = true := by decide
  have hkeywords : ∀ w ∈ keywords, ¬ Scalar w.toList := by decide
  have hword : ∀ c ∈ s.toList, c ∉ breaks := by
    intro c hc hbreak
    have hnone := List.all_eq_true.1 hbreaks c hbreak
    rw [h c hc] at hnone
    cases hnone
  rw [lex_word hword, wordLexemes, if_neg hne, String.ofList_toList,
    if_neg fun hs => hkeywords s hs h]

/-- A text is read back from between quotes if each of its characters is. -/
lemma lex_quoted {mark : Char} (hmark : mark = '"' ∨ mark = '\'') {escape : Char → List Char}
    (h : ∀ c ∈ cs, ∀ read, steps (.quoted mark false read) (escape c)
      = ([], .quoted mark false (read ++ [c]))) :
    lex (String.ofList (mark :: cs.flatMap escape ++ [mark])) = some [quotedLexeme mark cs] := by
  have hopening : steps (.outside []) [mark] = ([], .quoted mark false []) := by
    rcases hmark with rfl | rfl <;> rfl
  have hclosing : steps (.quoted mark false cs) [mark] = ([quotedLexeme mark cs], .outside []) := by
    rcases hmark with rfl | rfl <;> rfl
  have hinside : ∀ ds ⊆ cs, ∀ read, steps (.quoted mark false read) (ds.flatMap escape)
      = ([], .quoted mark false (read ++ ds)) := by
    intro ds
    induction ds with
    | nil =>
      intro _ read
      rw [List.append_nil]
      rfl
    | cons d ds ih =>
      intro hsub read
      rw [List.cons_subset] at hsub
      rw [List.flatMap_cons, steps_append (h d hsub.1 read) (ih hsub.2 _), List.append_assoc]
      rfl
  refine lex_of_steps ?_
  rw [String.toList_ofList]
  exact steps_append (steps_append hopening (hinside cs (List.Subset.refl cs) [])) hclosing

/-- A text is read back from its quotes. -/
lemma lex_quoteText (s : String) : lex (quoteText s) = some [.text s] := by
  have hquoted := @lex_quoted s.toList '\'' (.inr rfl)
    (fun c => if c = '\\' ∨ c = '\'' then ['\\', c] else [c]) fun c _ read => by
      by_cases hc : c = '\\' ∨ c = '\''
      · rw [if_pos hc]
        rfl
      · rw [if_neg hc]
        rw [not_or] at hc
        simp [steps, step, hc]
  rw [quoteText, hquoted, quotedLexeme, if_neg (by decide), String.ofList_toList]

/-- A name without backslashes is read back from its quotes. -/
lemma lex_quoteName (h : '\\' ∉ s.toList) : lex (quoteName s) = some [.name s] := by
  have hquoted := @lex_quoted s.toList '"' (.inl rfl)
    (fun c => if c = '"' then ['\\', c] else [c]) fun c hmem read => by
      have hslash : c ≠ '\\' := fun hc => h (hc ▸ hmem)
      by_cases hc : c = '"'
      · rw [if_pos hc]
        rfl
      · rw [if_neg hc]
        simp [steps, step, hc, hslash]
  rw [quoteName, hquoted, quotedLexeme, if_pos rfl, String.ofList_toList]

/-- The lexeme of a value: a text for null, for strings and for lists, and else a word. -/
def valueLexeme : Value → Lexeme
  | .null => .text ""
  | .string s => .text s
  | .list items => .text (Value.text (.list items))
  | v => .scalar (literal v)

/-- The literal of a value is one lexeme. -/
theorem lex_literal (v : Value) : lex (literal v) = some [valueLexeme v] := by
  cases v with
  | null => exact lex_quoteText ""
  | bool b => cases b <;> exact lex_scalar (by decide) (by decide)
  | int i => exact lex_scalar (Number.scalar_showInt64 i).1 (Number.scalar_showInt64 i).2
  | float d => exact lex_scalar (Number.scalar_text _ d).1 (Number.scalar_text _ d).2
  | string s => exact lex_quoteText s
  | list items => exact lex_quoteText _

/-- No slash in a body ends it. -/
lemma steps_slashed (b : Bool) (cs read : List Char) :
    steps (.slashed b read) (slashed b cs)
      = ([], .slashed (escapedAfter b cs) (read ++ slashed b cs)) := by
  induction cs generalizing b read with
  | nil => rw [slashed, steps, escapedAfter, List.append_nil]
  | cons c cs ih =>
    have hc : steps (.slashed b read) (if c = '/' ∧ b = false then ['\\', c] else [c])
        = ([], .slashed (if c = '\\' then !b else false)
            (read ++ if c = '/' ∧ b = false then ['\\', c] else [c])) := by
      by_cases hslash : c = '/' ∧ b = false
      · obtain ⟨rfl, rfl⟩ := hslash
        simp [steps, step]
      · simp [steps, step, hslash]
    rw [slashed, steps_append hc (ih _ _), escapedAfter, List.append_assoc]
    rfl

/-- A regular expression is one lexeme, which the slash in the end closes. -/
theorem lex_regex {pattern : String} (h : escapedAfter false pattern.toList = false) :
    lex ("/" ++ bodyOf pattern ++ "/") = some [.regex (bodyOf pattern)] := by
  have hopening : steps (.outside []) ['/'] = ([], .slashed false []) := rfl
  have hinside := steps_slashed false pattern.toList []
  have hclosing : steps (.slashed false (slashed false pattern.toList)) ['/']
      = ([.regex (bodyOf pattern)], .outside []) := rfl
  rw [h] at hinside
  refine lex_of_steps ?_
  rw [toList_regex]
  exact steps_append (steps_append hopening hinside) hclosing

end ReadQuery.Influx
