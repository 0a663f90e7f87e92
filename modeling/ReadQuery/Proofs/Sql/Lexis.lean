import Mathlib.Data.List.Chain
import ReadQuery.Proofs.FieldRef
import ReadQuery.Proofs.Sql.Placeholder
import ReadQuery.Sql.Dialect

/-!
# The lexis of statements

What the texts of statements are made of (`Dialect.Clean`): literals, which are constants of the
dialect or names and paths (`Dialect.Permits`), and outside of them characters that cannot be part
of a separator, a comment or a literal. A minus only stands in an arrow or in front of a digit, a
slash only between blanks. Clean texts can be put together, and stay clean when their placeholders
are numbered (`Clean.number`).

No mark that is forbidden in raw conditions occurs in a clean text (`Clean.no_mark`), its quotes
are balanced (`Clean.quotedAfter`), and what stands between them is permitted (`Clean.permits`).
-/

namespace ReadQuery.Sql

open Placeholder

/-- The literals that a dialect writes of its own: the escape of patterns, the formats of dates and
the modes of regular expressions. -/
def Dialect.constants : Dialect → List String
  | postgres => ["\\"]
  | mysql => ["c", "i"]
  | sqlite => ["\\", "%Y", "%m", "%W", "%w", "%d", "%H", "%M", "%S"]
  | clickHouse => ["%H:%M:%S"]

/-- Names and paths: characters of identifiers and dollar signs, and positions between brackets. -/
inductive PathText : List Char → Prop
  | nil : PathText []
  | char {c : Char} {cs : List Char} (hc : Identifier.isChar c = true ∨ c = '$')
      (h : PathText cs) : PathText (c :: cs)
  | index {ds cs : List Char} (hne : ds ≠ []) (hd : ∀ c ∈ ds, c.isDigit = true)
      (h : PathText cs) : PathText ('[' :: (ds ++ ']' :: cs))

/-- What can stand between quotes. -/
def Dialect.Permits (d : Dialect) (s : String) : Prop :=
  s ∈ d.constants ∨ PathText s.toList

/-- A character that is no quote and no part of a separator or a comment, be it the asterisk, which
is a part of a comment only next to a slash. -/
def isFree (c : Char) : Bool :=
  c != '\'' && c != ';' && c != '#' && c != '-' && c != '/'

/-- The texts that statements are made of. -/
inductive Dialect.Clean (d : Dialect) : List Char → Prop
  | nil : Clean d []
  | free {c : Char} {cs : List Char} (hc : isFree c = true) (h : Clean d cs) : Clean d (c :: cs)
  | literal {s : String} {cs : List Char} (hs : d.Permits s) (h : Clean d cs) :
      Clean d ('\'' :: (s.toList ++ '\'' :: cs))
  | arrow {cs : List Char} (h : Clean d cs) : Clean d ('-' :: '>' :: cs)
  | minus {c : Char} {cs : List Char} (hc : c.isDigit = true) (h : Clean d cs) :
      Clean d ('-' :: c :: cs)
  | slash {cs : List Char} (h : Clean d cs) : Clean d (' ' :: '/' :: ' ' :: cs)

/-- Every second item, starting with the second one. -/
def everySecond {α : Type} : List α → List α
  | _ :: a :: as => a :: everySecond as
  | _ => []

/-- What stands between the quotes of a text. -/
def quotedTexts (s : String) : List String :=
  everySecond (Text.split '\'' s)

variable {d : Dialect} {cs ds : List Char}

/-- The characters that are free. -/
lemma isFree_iff {c : Char} :
    isFree c = true ↔ c ≠ '\'' ∧ c ≠ ';' ∧ c ≠ '#' ∧ c ≠ '-' ∧ c ≠ '/' := by
  simp [isFree, and_assoc]

/-- The characters of identifiers are free. -/
lemma isFree_of_isChar {c : Char} (h : Identifier.isChar c = true) : isFree c = true := by
  rw [isFree_iff]
  refine ⟨?_, ?_, ?_, ?_, ?_⟩ <;> rintro rfl <;> revert h <;> decide

/-- Digits are free. -/
lemma isFree_of_isDigit {c : Char} (h : c.isDigit = true) : isFree c = true := by
  rw [isFree_iff]
  refine ⟨?_, ?_, ?_, ?_, ?_⟩ <;> rintro rfl <;> revert h <;> decide

/-- Two path texts behind each other. -/
lemma PathText.append {es : List Char} (h : PathText cs) (h' : PathText es) :
    PathText (cs ++ es) := by
  induction h with
  | nil => exact h'
  | char hc _ ih => exact .char hc ih
  | index hne hd _ ih => simpa using PathText.index hne hd ih

/-- An identifier is a path text. -/
lemma pathText_of_plain {s : String} (h : Identifier.Plain s) : PathText s.toList := by
  have hall : ∀ cs : List Char, (∀ c ∈ cs, Identifier.isChar c = true) → PathText cs := by
    intro cs hcs
    induction cs with
    | nil => exact .nil
    | cons c cs ih =>
      rw [List.forall_mem_cons] at hcs
      exact .char (.inl hcs.1) (ih hcs.2)
  exact hall s.toList h

/-- All characters of a path are free. -/
lemma PathText.isFree (h : PathText cs) : ∀ c ∈ cs, isFree c = true := by
  induction h with
  | nil => simp
  | char hc _ ih =>
    rw [List.forall_mem_cons]
    refine ⟨?_, ih⟩
    rcases hc with hc | rfl
    · exact isFree_of_isChar hc
    · decide
  | index _ hd _ ih =>
    rw [List.forall_mem_cons, List.forall_mem_append, List.forall_mem_cons]
    exact ⟨by decide, fun c hc => isFree_of_isDigit (hd c hc), by decide, ih⟩

/-- Nothing that is permitted between quotes ends a literal or is part of a mark. -/
lemma Dialect.Permits.isFree {s : String} (h : d.Permits s) : ∀ c ∈ s.toList, isFree c = true := by
  have hconstants : ∀ t ∈ d.constants, t.toList.all Sql.isFree = true := by
    cases d <;> decide
  rcases h with h | h
  · exact List.all_eq_true.1 (hconstants s h)
  · exact h.isFree

namespace Dialect.Clean

/-- Two clean texts behind each other. -/
lemma append (hc : d.Clean cs) (hd : d.Clean ds) : d.Clean (cs ++ ds) := by
  induction hc with
  | nil => exact hd
  | free hc _ ih => exact .free hc ih
  | @literal s cs hs _ ih =>
    have h := Clean.literal hs ih
    simpa using h
  | arrow _ ih => exact .arrow ih
  | minus hc _ ih => exact .minus hc ih
  | slash _ ih => exact .slash ih

/-- A text of free characters is clean. -/
lemma of_free (h : ∀ c ∈ cs, isFree c = true) : d.Clean cs := by
  induction cs with
  | nil => exact .nil
  | cons c cs ih =>
    rw [List.forall_mem_cons] at h
    exact .free h.1 (ih h.2)

/-- Texts of free characters only can be checked by computation. -/
lemma const (h : cs.all isFree = true) : d.Clean cs :=
  of_free (List.all_eq_true.1 h)

/-- A literal that the dialect permits is clean. -/
lemma enclosed {s : String} (hs : d.Permits s) : d.Clean (Dialect.literal s).toList := by
  have h := Clean.literal hs .nil
  simpa [Dialect.literal] using h

/-- Numbering passes over the rest of a literal. -/
lemma numberFrom_literal (label : List Char) (n : Nat) {s : List Char}
    (hs : ∀ c ∈ s, isFree c = true) : numberFrom label true n (s ++ '\'' :: cs)
      = s ++ '\'' :: numberFrom label false n cs := by
  induction s with
  | nil => simp [numberFrom_cons]
  | cons c s ih =>
    rw [List.forall_mem_cons] at hs
    have hc := (isFree_iff.1 hs.1).1
    simp [numberFrom_cons, hc, ih hs.2]

/-- A clean text stays clean when its placeholders are numbered. -/
lemma number (h : d.Clean cs) (n : Nat) : d.Clean (numberFrom ['$'] false n cs) := by
  induction h generalizing n with
  | nil => exact .nil
  | @free c cs hc _ ih =>
    have hquote := (isFree_iff.1 hc).1
    by_cases hm : c = '?'
    · have hlabel : d.Clean ('$' :: (toString (n + 1)).toList) :=
        .free (by decide) (.of_free fun c hc => isFree_of_isDigit (isDigit_of_mem_toString hc))
      have hall := hlabel.append (ih (n + 1))
      simpa [numberFrom_cons, hm] using hall
    · have hrest := Clean.free hc (ih n)
      simpa [numberFrom_cons, hquote, hm] using hrest
  | literal hs _ ih =>
    have hall := Clean.literal hs (ih n)
    simpa [numberFrom_cons, numberFrom_literal _ _ hs.isFree] using hall
  | arrow _ ih =>
    have hall := Clean.arrow (ih n)
    simpa [numberFrom_cons] using hall
  | minus hc _ ih =>
    have hall := Clean.minus hc (ih n)
    simpa [numberFrom_cons, plain_of_isDigit hc] using hall
  | slash _ ih =>
    have hall := Clean.slash (ih n)
    simpa [numberFrom_cons] using hall

/-- Two characters that make no forbidden mark next to each other. -/
def Adjacent (a b : Char) : Prop :=
  [a, b] ∉ RawCondition.forbiddenMarks.map String.toList

/-- The pairs of characters that make no mark. -/
lemma adjacent_iff {a b : Char} : Adjacent a b ↔
    ¬ (a = '-' ∧ b = '-') ∧ ¬ (a = '/' ∧ b = '*') ∧ ¬ (a = '*' ∧ b = '/') := by
  simp [Adjacent, RawCondition.forbiddenMarks]

/-- A character makes no mark with what follows if it is neither a minus nor a slash, and no slash
follows. -/
lemma chain_cons {c : Char} (hc : c ≠ '-' ∧ c ≠ '/')
    (h : cs.IsChain Adjacent ∧ cs.head? ≠ some '/') :
    (c :: cs).IsChain Adjacent ∧ (c :: cs).head? ≠ some '/' := by
  obtain ⟨hchain, hhead⟩ := h
  refine ⟨List.isChain_cons.2 ⟨fun b hb => ?_, hchain⟩, by simp [hc.2]⟩
  have hb' : b ≠ '/' := by
    rintro rfl
    exact hhead hb
  simp [adjacent_iff, hc, hb']

/-- Free characters in front make no mark with a text that begins with no slash. -/
lemma chain_append {s : List Char} (hs : ∀ c ∈ s, isFree c = true)
    (h : cs.IsChain Adjacent ∧ cs.head? ≠ some '/') :
    (s ++ cs).IsChain Adjacent ∧ (s ++ cs).head? ≠ some '/' := by
  induction s with
  | nil => exact h
  | cons c s ih =>
    rw [List.forall_mem_cons] at hs
    exact chain_cons (isFree_iff.1 hs.1).2.2.2 (ih hs.2)

/-- No two characters of a clean text make a mark. -/
lemma chain (h : d.Clean cs) : cs.IsChain Adjacent ∧ cs.head? ≠ some '/' := by
  induction h with
  | nil => simp
  | free hc _ ih => exact chain_cons (isFree_iff.1 hc).2.2.2 ih
  | literal hs _ ih =>
    have hclosed := chain_append hs.isFree (chain_cons (c := '\'') (by decide) ih)
    exact chain_cons (by decide) hclosed
  | arrow _ ih =>
    have hpoint := chain_cons (c := '>') (by decide) ih
    exact ⟨List.isChain_cons.2 ⟨by simp [adjacent_iff], hpoint.1⟩, by simp⟩
  | @minus c cs hc _ ih =>
    have hne := (isFree_iff.1 (isFree_of_isDigit hc)).2.2.2
    have hdigit := chain_cons hne ih
    exact ⟨List.isChain_cons.2 ⟨by simp [adjacent_iff, hne], hdigit.1⟩, by simp⟩
  | slash _ ih =>
    have hblank := chain_cons (c := ' ') (by decide) ih
    refine ⟨List.isChain_cons.2 ⟨by simp [adjacent_iff], ?_⟩, by simp⟩
    exact List.isChain_cons.2 ⟨by simp [adjacent_iff], hblank.1⟩

/-- No separator and no comment to the end of the line stands in a clean text. -/
lemma ne_separator (h : d.Clean cs) : ∀ c ∈ cs, c ≠ ';' ∧ c ≠ '#' := by
  have hfree : ∀ {c}, isFree c = true → c ≠ ';' ∧ c ≠ '#' := fun hc =>
    ⟨(isFree_iff.1 hc).2.1, (isFree_iff.1 hc).2.2.1⟩
  induction h with
  | nil => simp
  | free hc _ ih => simpa [hfree hc] using ih
  | @literal s cs hs _ ih =>
    intro c hc
    simp only [List.mem_cons, List.mem_append] at hc
    rcases hc with rfl | hc | rfl | hc
    · decide
    · exact hfree (hs.isFree c hc)
    · decide
    · exact ih c hc
  | arrow _ ih => simpa using ih
  | minus hc _ ih => simpa [hfree (isFree_of_isDigit hc)] using ih
  | slash _ ih => simpa using ih

/-- No forbidden mark occurs in a clean text. -/
theorem no_mark (h : d.Clean cs) {mark : String} (hm : mark ∈ RawCondition.forbiddenMarks) :
    ¬ mark.toList <:+: cs := by
  intro hin
  have hchain := List.IsChain.infix h.chain.1 hin
  have hmem := fun c hc => h.ne_separator c (hin.subset hc)
  simp only [RawCondition.forbiddenMarks, List.mem_cons, List.not_mem_nil, or_false] at hm
  rcases hm with rfl | rfl | rfl | rfl | rfl
  · exact (hmem ';' (by decide)).1 rfl
  · exact absurd hchain (by simp [adjacent_iff])
  · exact absurd hchain (by simp [adjacent_iff])
  · exact absurd hchain (by simp [adjacent_iff])
  · exact (hmem '#' (by decide)).2 rfl

/-- A literal is closed behind its text. -/
lemma quotedAfter_literal {s : List Char} (hs : ∀ c ∈ s, isFree c = true) :
    Placeholder.quotedAfter true (s ++ '\'' :: cs) = Placeholder.quotedAfter false cs := by
  induction s with
  | nil => simp [Placeholder.quotedAfter]
  | cons c s ih =>
    rw [List.forall_mem_cons] at hs
    simpa [Placeholder.quotedAfter, (isFree_iff.1 hs.1).1] using ih hs.2

/-- The quotes of a clean text are balanced. -/
theorem quotedAfter (h : d.Clean cs) : Placeholder.quotedAfter false cs = false := by
  induction h with
  | nil => rfl
  | free hc _ ih => simpa [Placeholder.quotedAfter, (isFree_iff.1 hc).1] using ih
  | literal hs _ ih => simpa [Placeholder.quotedAfter, quotedAfter_literal hs.isFree] using ih
  | arrow _ ih => simpa [Placeholder.quotedAfter] using ih
  | minus hc _ ih => simpa [Placeholder.quotedAfter, (plain_of_isDigit hc).1] using ih
  | slash _ ih => simpa [Placeholder.quotedAfter] using ih

/-- A longer first item changes nothing about every second one. -/
lemma everySecond_consFirst (c : Char) {ps : List (List Char)} (h : ps ≠ []) :
    everySecond (Text.consFirst c ps) = everySecond ps := by
  match ps, h with
  | [p], _ => rfl
  | p :: q :: ps, _ => rfl

/-- A character outside of literals makes no difference to what stands between the quotes. -/
lemma everySecond_cons {c : Char} (hc : c ≠ '\'') :
    everySecond (Text.splitList '\'' (c :: cs)) = everySecond (Text.splitList '\'' cs) := by
  rw [Text.splitList, if_neg hc]
  exact everySecond_consFirst c (Text.splitList_ne_nil _ _)

/-- A literal is one piece between quotes. -/
lemma splitList_literal {s : List Char} (hs : ∀ c ∈ s, isFree c = true) :
    Text.splitList '\'' (s ++ '\'' :: cs) = s :: Text.splitList '\'' cs := by
  induction s with
  | nil => simp [Text.splitList]
  | cons c s ih =>
    rw [List.forall_mem_cons] at hs
    simp [Text.splitList, (isFree_iff.1 hs.1).1, ih hs.2, Text.consFirst]

/-- What stands between the quotes of a clean text is permitted. -/
theorem permits (h : d.Clean cs) :
    ∀ s ∈ everySecond (Text.splitList '\'' cs), d.Permits (String.ofList s) := by
  induction h with
  | nil => simp [Text.splitList, everySecond]
  | free hc _ ih => rwa [everySecond_cons (isFree_iff.1 hc).1]
  | @literal s cs hs _ ih =>
    have hpieces : everySecond (Text.splitList '\'' ('\'' :: (s.toList ++ '\'' :: cs)))
        = s.toList :: everySecond (Text.splitList '\'' cs) := by
      rw [Text.splitList, if_pos rfl, splitList_literal hs.isFree, everySecond]
    rw [hpieces, List.forall_mem_cons]
    exact ⟨by simpa using hs, ih⟩
  | arrow _ ih => rwa [everySecond_cons (by decide), everySecond_cons (by decide)]
  | minus hc _ ih =>
    rwa [everySecond_cons (by decide), everySecond_cons (plain_of_isDigit hc).1]
  | slash _ ih =>
    rwa [everySecond_cons (by decide), everySecond_cons (by decide), everySecond_cons (by decide)]

end Dialect.Clean

/-- What stands between the quotes of a text is what stands between those of its characters. -/
lemma forall_quotedTexts {s : String} (h : d.Clean s.toList) :
    ∀ t ∈ quotedTexts s, d.Permits t := by
  have hmap : ∀ ps : List (List Char), everySecond (ps.map String.ofList)
      = (everySecond ps).map String.ofList := by
    intro ps
    induction ps using everySecond.induct with
    | case1 p q ps ih => simp [everySecond, ih]
    | case2 ps hps =>
      match ps, hps with
      | [], _ => rfl
      | [p], _ => rfl
      | p :: q :: ps, hps => exact absurd rfl (hps p q ps)
  intro t ht
  rw [quotedTexts, Text.split, hmap] at ht
  obtain ⟨cs, hcs, rfl⟩ := List.mem_map.1 ht
  exact h.permits cs hcs

end ReadQuery.Sql
