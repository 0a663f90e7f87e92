import Mathlib.Data.List.DropRight
import Mathlib.Tactic.Lemma
import ReadQuery.Input.Grammar
import ReadQuery.Proofs.Text

/-!
# What recognizers take

How the recognizers of a grammar are followed through a text. A step of a sequence succeeds or fails
on what is in front of it (`bind_of_eq_some`, `bind_of_eq_none`), and an alternative is taken if
those before it fail (`orElse_of_eq_none`). A name in front of something that is no name character
is told from every keyword but itself (`keyword_append`).

A recognizer that takes a text may take blanks behind it as well (`Takes`); one that never looks
behind a mark takes in front of the mark what it takes of the text alone (`StopsAt.takes`). Parts
that are taken one by one are taken as a list of parts with a separator between them
(`separated_takes`).
-/

namespace ReadQuery.Input.Recognizer

open Text (isNameChar isNameStart isGap skipGap stripBy)

variable {α β : Type} {p q : Recognizer α} {f : α → Recognizer β} {a : α} {b : β}
  {c : Char} {cs ds rest : List Char}

/-- Nothing is taken. -/
@[simp] lemma pure_apply (a : α) (cs : List Char) : (pure a : Recognizer α) cs = some (a, cs) := rfl

/-- The second step reads on where the first has stopped. -/
lemma bind_apply (p : Recognizer α) (f : α → Recognizer β) (cs : List Char) :
    (p >>= f) cs = (p cs).bind fun x => f x.1 x.2 := rfl

/-- A sequence goes on behind a step that succeeds. -/
lemma bind_of_eq_some (h : p cs = some (a, rest)) : (p >>= f) cs = f a rest := by
  rw [bind_apply, h, Option.bind_some]

/-- A sequence fails with its first step. -/
lemma bind_of_eq_none (h : p cs = none) : (p >>= f) cs = none := by
  rw [bind_apply, h, Option.bind_none]

/-- The second side is tried on the same text as the first. -/
lemma orElse_apply (p q : Recognizer α) (cs : List Char) :
    (p <|> q) cs = (p cs <|> q cs) := by
  cases h : p cs <;> simp [HOrElse.hOrElse, OrElse.orElse, Alternative.orElse, StateT.orElse,
    Option.orElse, h]

/-- Alternatives are ordered: the first side decides where it succeeds. -/
lemma orElse_of_eq_some {x : α × List Char} (h : p cs = some x) : (p <|> q) cs = some x := by
  rw [orElse_apply, h]
  rfl

/-- The second side decides where the first fails. -/
lemma orElse_of_eq_none (h : p cs = none) : (p <|> q) cs = q cs := by
  rw [orElse_apply, h]
  rfl

/-- An alternative fails where both its sides do. -/
lemma orElse_eq_none (hp : p cs = none) (hq : q cs = none) : (p <|> q) cs = none := by
  rw [orElse_of_eq_none hp, hq]

/-- What may be absent is taken where it stands. -/
lemma maybe_of_eq_some (h : p cs = some (a, rest)) : maybe p cs = some (some a, rest) :=
  orElse_of_eq_some (bind_of_eq_some h)

/-- What may be absent leaves the text alone where it does not stand. -/
lemma maybe_of_eq_none (h : p cs = none) : maybe p cs = some (none, cs) :=
  orElse_of_eq_none (bind_of_eq_none h)

/-- A gap never fails. -/
@[simp] lemma gap_apply (cs : List Char) : gap cs = some ((), skipGap cs) := rfl

/-- A sequence behind a gap starts at the next text. -/
lemma gap_bind (f : Unit → Recognizer β) (cs : List Char) : (gap >>= f) cs = f () (skipGap cs) :=
  bind_of_eq_some (gap_apply cs)

/-- A character is taken where it stands. -/
@[simp] lemma char_cons_self (c : Char) (cs : List Char) : char c (c :: cs) = some ((), cs) := by
  simp [char]

/-- A character is taken nowhere else. -/
lemma char_of_head_ne (h : cs.head? ≠ some c) : char c cs = none := by
  cases cs with
  | nil => rfl
  | cons d cs =>
    have hd : d ≠ c := by simpa using h
    simp [char, hd]

/-- Nothing is skipped in front of a character that is no blank. -/
lemma skipGap_of_head (h : ∀ c, cs.head? = some c → isGap c = false) : skipGap cs = cs := by
  cases cs with
  | nil => rfl
  | cons c cs => rw [skipGap, List.dropWhile_cons, h c rfl, if_neg (by decide)]

/-- A space is skipped. -/
@[simp] lemma skipGap_space (cs : List Char) : skipGap (' ' :: cs) = skipGap cs := rfl

/-- After one gap there is no other. -/
@[simp] lemma skipGap_skipGap (cs : List Char) : skipGap (skipGap cs) = skipGap cs := by
  rw [skipGap, skipGap]
  exact List.dropWhile_idempotent _ cs

/-- What separates the parts of an expression is blank. -/
lemma isBlank_of_isGap (h : isGap c = true) : Text.isBlank c = true := by
  simp only [isGap, Bool.or_eq_true, beq_iff_eq] at h
  obtain ((rfl | rfl) | rfl) | rfl := h <;> decide

/-- A text that begins with a character that is not blank. -/
def Starts (cs : List Char) : Prop :=
  ∃ c ds, cs = c :: ds ∧ Text.isBlank c = false

/-- How a text starts does not depend on what follows it. -/
lemma Starts.append (h : Starts cs) (ds : List Char) : Starts (cs ++ ds) := by
  obtain ⟨c, cs, rfl, hc⟩ := h
  exact ⟨c, cs ++ ds, rfl, hc⟩

/-- There is no gap in front of a text that starts. -/
lemma Starts.skipGap (h : Starts cs) : skipGap cs = cs := by
  obtain ⟨c, cs, rfl, hc⟩ := h
  refine skipGap_of_head fun d hd => ?_
  obtain rfl : c = d := Option.some.inj hd
  by_contra hgap
  rw [isBlank_of_isGap (by simpa using hgap)] at hc
  cases hc

/-- A text behind which a name ends. -/
def EndsName (cs : List Char) : Prop :=
  ∀ c, cs.head? = some c → isNameChar c = false

/-- A name ends in front of a character that is not part of one. -/
lemma endsName_cons (h : isNameChar c = false) (cs : List Char) : EndsName (c :: cs) := by
  rintro d ⟨⟩
  exact h

/-- A run of accepted characters is cut off where the first other one stands. -/
lemma takeWhile_append {P : Char → Bool} (hcs : ∀ c ∈ cs, P c = true)
    (hrest : ∀ c, rest.head? = some c → P c = false) :
    (cs ++ rest).takeWhile P = cs ∧ (cs ++ rest).dropWhile P = rest := by
  have hend : rest.takeWhile P = [] ∧ rest.dropWhile P = rest := by
    cases rest with
    | nil => exact ⟨rfl, rfl⟩
    | cons c rest =>
      rw [List.takeWhile_cons, List.dropWhile_cons, hrest c rfl]
      exact ⟨rfl, rfl⟩
  rw [List.takeWhile_append_of_pos hcs, List.dropWhile_append_of_pos hcs, hend.1, hend.2,
    List.append_nil]
  exact ⟨rfl, rfl⟩

/-- A run that is not empty is taken up to the first other character. -/
lemma takeSome_append {P : Char → Bool} (hne : cs ≠ []) (hcs : ∀ c ∈ cs, P c = true)
    (hrest : ∀ c, rest.head? = some c → P c = false) :
    takeSome P (cs ++ rest) = some (cs, rest) := by
  obtain ⟨htake, hdrop⟩ := takeWhile_append hcs hrest
  simp [takeSome, htake, hdrop, hne]

/-- No run is taken where none begins. -/
lemma takeSome_of_head {P : Char → Bool} (h : ∀ c, cs.head? = some c → P c = false) :
    takeSome P cs = none := by
  cases cs with
  | nil => rfl
  | cons c cs => simp [takeSome, h c rfl]

/-- A letter or underscore and name characters. -/
def IsName (cs : List Char) : Prop :=
  ∃ c ds, cs = c :: ds ∧ isNameStart c = true ∧ ds.all isNameChar = true

/-- The first character of a name may also stand inside one. -/
lemma isNameChar_of_isNameStart (h : isNameStart c = true) : isNameChar c = true := by
  simp only [isNameStart, isNameChar, Char.isAlphanum, Bool.or_eq_true] at h ⊢
  tauto

/-- All characters of a name are name characters. -/
lemma IsName.isNameChar (h : IsName cs) : ∀ c ∈ cs, isNameChar c = true := by
  obtain ⟨c, ds, rfl, hc, hds⟩ := h
  rw [List.forall_mem_cons]
  exact ⟨isNameChar_of_isNameStart hc, List.all_eq_true.1 hds⟩

/-- A name is taken whole in front of its end. -/
lemma name_append (h : IsName cs) (hrest : EndsName rest) :
    name (cs ++ rest) = some (cs, rest) := by
  obtain ⟨c, ds, rfl, hc, hds⟩ := h
  obtain ⟨htake, hdrop⟩ := takeWhile_append (List.all_eq_true.1 hds) hrest
  simp [name, hc, htake, hdrop]

/-- The end of a name is seen where it is. -/
lemma nameEnd_of_endsName (h : EndsName cs) : nameEnd cs = some ((), cs) := by
  cases cs with
  | nil => rfl
  | cons c cs => simp [nameEnd, h c rfl]

/-- Folding makes no name character of a character that is none. -/
lemma isNameChar_of_toLower (h : isNameChar c.toLower = true) : isNameChar c = true := by
  cases hc : c.isUpper with
  | true =>
    show ((c.isUpper || c.isLower) || c.isDigit || c == '_') = true
    rw [hc]
    rfl
  | false => rwa [Text.toLower_of_not_isUpper hc] at h

/-- A word is read from a run of name characters only if it is the whole run, up to case. -/
lemma stripBy_bind_nameEnd {w : List Char} (hw : w.all isNameChar = true)
    (hcs : ∀ c ∈ cs, isNameChar c = true) (hrest : EndsName rest) :
    (stripBy Char.toLower w (cs ++ rest)).bind nameEnd
      = if cs.map Char.toLower = w then some ((), rest) else none := by
  induction w generalizing cs with
  | nil =>
    cases cs with
    | nil => exact nameEnd_of_endsName hrest
    | cons c cs => simp [stripBy, nameEnd, hcs c (by simp)]
  | cons w ws ih =>
    rw [List.all_cons, Bool.and_eq_true] at hw
    cases cs with
    | nil =>
      cases rest with
      | nil => rfl
      | cons c rest =>
        have hc : c.toLower ≠ w := by
          rintro rfl
          have hname := isNameChar_of_toLower hw.1
          rw [hrest c rfl] at hname
          cases hname
        simp [stripBy, hc]
    | cons c cs =>
      rw [List.forall_mem_cons] at hcs
      rw [List.cons_append, stripBy, List.map_cons]
      by_cases hc : c.toLower = w
      · rw [if_pos hc, ih hw.2 hcs.2]
        simp [hc]
      · simp [hc]

/-- A run of name characters is a keyword if it is the same up to the case of letters. -/
lemma keyword_append {s : String} (hs : s.toList.all isNameChar = true)
    (hcs : ∀ c ∈ cs, isNameChar c = true) (hrest : EndsName rest) :
    keyword s (cs ++ rest)
      = if cs.map Char.toLower = s.toList then some ((), rest) else none := by
  rw [← stripBy_bind_nameEnd hs hcs hrest, keyword, bind_apply, word, spelled]
  cases stripBy Char.toLower s.toList (cs ++ rest) <;> rfl

/-- No keyword stands where a name does not begin. -/
lemma keyword_of_endsName {s : String} (hne : s.toList ≠ [])
    (hs : s.toList.all isNameChar = true) (hcs : EndsName cs) : keyword s cs = none := by
  have hnil : ∀ c ∈ ([] : List Char), isNameChar c = true := by simp
  have h := keyword_append hs hnil hcs
  rwa [List.map_nil, if_neg (Ne.symm hne), List.nil_append] at h

/-- In front of a mark, a recognizer does what it does at the end of the text. -/
def StopsAt (m : Char) (p : Recognizer α) : Prop :=
  ∀ cs ds, p (cs ++ m :: ds) = (p cs).map fun x => (x.1, x.2 ++ m :: ds)

variable {m : Char}

/-- Taking nothing does not look at the mark. -/
lemma StopsAt.pure (a : α) : StopsAt m (pure a) := fun _ _ => rfl

/-- A sequence stops at a mark if both its steps do. -/
lemma StopsAt.bind (hp : StopsAt m p) (hf : ∀ a, StopsAt m (f a)) :
    StopsAt m (p >>= f) := by
  intro cs ds
  rw [bind_apply, bind_apply, hp]
  cases p cs with
  | none => rfl
  | some x => exact hf x.1 x.2 ds

/-- An alternative stops at a mark if both its sides do. -/
lemma StopsAt.orElse (hp : StopsAt m p) (hq : StopsAt m q) : StopsAt m (p <|> q) := by
  intro cs ds
  rw [orElse_apply, orElse_apply, hp]
  cases p cs with
  | none => exact hq cs ds
  | some x => rfl

/-- What may be absent stops at a mark if what may be there does. -/
lemma StopsAt.maybe (hp : StopsAt m p) : StopsAt m (maybe p) :=
  (hp.bind fun a => .pure (some a)).orElse (.pure none)

/-- A run ends at a mark that is not accepted, so the text behind it does not count. -/
lemma takeWhile_append_mark {P : Char → Bool} (h : P m = false) (cs ds : List Char) :
    (cs ++ m :: ds).takeWhile P = cs.takeWhile P ∧
      (cs ++ m :: ds).dropWhile P = cs.dropWhile P ++ m :: ds := by
  induction cs with
  | nil =>
    rw [List.nil_append, List.takeWhile_cons, List.dropWhile_cons, h]
    exact ⟨rfl, rfl⟩
  | cons c cs ih =>
    rw [List.cons_append, List.takeWhile_cons, List.takeWhile_cons, List.dropWhile_cons,
      List.dropWhile_cons, ih.1, ih.2]
    cases P c <;> exact ⟨rfl, rfl⟩

/-- Blanks end at a mark that is no blank. -/
lemma stopsAt_gap (h : isGap m = false) : StopsAt m gap := by
  intro cs ds
  rw [gap_apply, skipGap, (takeWhile_append_mark h cs ds).2]
  rfl

/-- A character other than the mark is not looked for behind it. -/
lemma stopsAt_char (h : c ≠ m) : StopsAt m (char c) := by
  intro cs ds
  cases cs with
  | nil => exact if_neg (Ne.symm h)
  | cons d cs =>
    rw [List.cons_append, char, char]
    split <;> rfl

/-- A word that does not hold the mark, once folded, ends in front of it. -/
lemma stripBy_append_mark {fold : Char → Char} {w : List Char} (h : fold m ∉ w)
    (cs ds : List Char) :
    stripBy fold w (cs ++ m :: ds) = (stripBy fold w cs).map (· ++ m :: ds) := by
  induction w generalizing cs with
  | nil => rfl
  | cons d w ih =>
    rw [List.mem_cons, not_or] at h
    cases cs with
    | nil => exact if_neg h.1
    | cons c cs =>
      rw [List.cons_append, stripBy, stripBy, ih h.2]
      split <;> rfl

/-- A word stops at a mark that it does not hold. -/
lemma stopsAt_word {s : String} (h : m.toLower ∉ s.toList) : StopsAt m (word s) := by
  intro cs ds
  rw [word, spelled, spelled, stripBy_append_mark h]
  cases stripBy Char.toLower s.toList cs <;> rfl

/-- A mark that is no name character ends a name as the end of the text does. -/
lemma stopsAt_nameEnd (h : isNameChar m = false) : StopsAt m nameEnd := by
  intro cs ds
  cases cs with
  | nil => exact if_neg (by rw [h]; decide)
  | cons c cs =>
    rw [List.cons_append, nameEnd, nameEnd]
    split <;> rfl

/-- The values found by a recognizer one after the other, and what is left where it fails. -/
inductive Steps (p : Recognizer α) : List Char → List α → List Char → Prop
  | done {cs : List Char} : p cs = none → Steps p cs [] cs
  | step {cs ds rest : List Char} {a : α} {as : List α} :
    p cs = some (a, ds) → Steps p ds as rest → Steps p cs (a :: as) rest

/-- A repetition takes every step there is, if it may take that many. -/
lemma manyUpTo_of_steps {as : List α} (h : Steps p cs as rest) {fuel : Nat}
    (hfuel : as.length ≤ fuel) : manyUpTo p fuel cs = some (as, rest) := by
  induction h generalizing fuel with
  | done hp =>
    cases fuel with
    | zero => rfl
    | succ fuel =>
      rw [manyUpTo, orElse_of_eq_none (bind_of_eq_none hp)]
      rfl
  | step hp _ ih =>
    cases fuel with
    | zero => cases hfuel
    | succ fuel =>
      rw [manyUpTo]
      refine orElse_of_eq_some ?_
      rw [bind_of_eq_some hp, bind_of_eq_some (ih (Nat.le_of_succ_le_succ hfuel))]
      rfl

/-- Each step takes a character at least, so the length of the text is enough rounds. -/
lemma many_of_steps {as : List α} (h : Steps p cs as rest) (hlength : as.length ≤ cs.length) :
    many p cs = some (as, rest) :=
  manyUpTo_of_steps h hlength

/-- A text is taken as a value in front of everything that may follow it, with the blanks behind it
or without. -/
def Takes (Follow : List Char → Prop) (p : Recognizer α) (cs : List Char) (a : α) : Prop :=
  ∀ rest, Follow rest → ∃ ds, p (cs ++ rest) = some (a, ds) ∧ skipGap ds = skipGap rest

/-- A text that is not all blanks keeps its first character whatever follows. -/
lemma skipGap_append_of_ne_nil (h : skipGap cs ≠ []) (ds : List Char) :
    skipGap (cs ++ ds) = skipGap cs ++ ds := by
  rw [skipGap, skipGap, List.dropWhile_append]
  exact if_neg fun hnil => h (List.isEmpty_iff.1 hnil)

/-- A text of blanks is skipped with the blanks behind it. -/
lemma skipGap_append (h : skipGap cs = []) (ds : List Char) : skipGap (cs ++ ds) = skipGap ds :=
  List.dropWhile_append_of_pos (List.dropWhile_eq_nil_iff.1 h)

/-- The end of a text or of what stands in front of a mark. -/
def EndsAt (m : Char) (cs : List Char) : Prop :=
  cs = [] ∨ ∃ ds, cs = m :: ds

/-- What is taken as a whole text is taken in front of a mark. -/
lemma StopsAt.takes (hp : StopsAt m p) (h : p cs = some (a, ds)) (hds : skipGap ds = []) :
    Takes (EndsAt m) p cs a := by
  rintro rest (rfl | ⟨es, rfl⟩)
  · refine ⟨ds, ?_, hds⟩
    rw [List.append_nil, h]
  · refine ⟨ds ++ m :: es, ?_, skipGap_append hds _⟩
    rw [hp, h, Option.map_some]

/-- One more part: a separator and a part, with blanks between them. -/
def further (separator : Recognizer β) (p : Recognizer α) : Recognizer α := do
  gap
  let _ ← separator
  gap
  p

/-- A text between parts, of which blanks are all that is left behind the separator. -/
def Separates (separator : Recognizer β) (mid : List Char) : Prop :=
  ∀ cs, ∃ b ds, separator (skipGap (mid ++ cs)) = some (b, ds) ∧ skipGap ds = skipGap cs ∧
    cs.length < (skipGap (mid ++ cs)).length

variable {Follow : List Char → Prop} {separator : Recognizer β} {mid : List Char}

/-- What is taken from its first character on is taken behind blanks too. -/
lemma Takes.gap_bind (h : Takes Follow p cs a) (hcs : Starts cs) :
    Takes Follow (do gap; p) cs a := by
  intro rest hrest
  obtain ⟨ds, hds, hgap⟩ := h rest hrest
  refine ⟨ds, ?_, hgap⟩
  rw [Recognizer.gap_bind, (hcs.append rest).skipGap, hds]

/-- Each member of a list, with the separator in front of it, is one step. -/
lemma steps_further {texts : List (List Char)} {as : List α}
    (htexts : List.Forall₂ (Takes Follow (do gap; p)) texts as)
    (hmid : Separates separator mid) (hfollow : ∀ cs, Follow (mid ++ cs)) (hrest : Follow rest)
    (hend : separator (skipGap rest) = none)
    (hcs : skipGap cs = skipGap (texts.flatMap (mid ++ ·) ++ rest)) :
    (∃ ds, Steps (further separator p) cs as ds ∧ skipGap ds = skipGap rest) ∧
      as.length ≤ cs.length := by
  induction htexts generalizing cs with
  | nil =>
    refine ⟨⟨cs, .done ?_, hcs⟩, Nat.zero_le _⟩
    rw [further, gap_bind, hcs]
    exact bind_of_eq_none hend
  | @cons text a texts as htakes _ ih =>
    have hbehind : Follow (texts.flatMap (mid ++ ·) ++ rest) := by
      cases texts with
      | nil => exact hrest
      | cons text' texts =>
        rw [List.flatMap_cons, List.append_assoc, List.append_assoc]
        exact hfollow _
    rw [List.flatMap_cons, List.append_assoc, List.append_assoc] at hcs
    obtain ⟨ds, hds, hgap⟩ := htakes _ hbehind
    obtain ⟨⟨es, hsteps, hes⟩, -⟩ := ih hgap
    obtain ⟨b, behind, hb, hbgap, hlong⟩ := hmid (text ++ (texts.flatMap (mid ++ ·) ++ rest))
    constructor
    · refine ⟨es, .step ?_ hsteps, hes⟩
      rw [further, gap_bind, hcs, bind_of_eq_some hb, gap_bind, hbgap]
      exact hds
    · -- a separator has a character of its own
      have hlengths := (@ih (texts.flatMap (mid ++ ·) ++ rest) rfl).2
      have hshort : (Text.skipGap cs).length ≤ cs.length := List.length_dropWhile_le _ _
      rw [← hcs, List.length_append] at hlong
      rw [List.length_cons]
      omega

/-- Texts with a separator between them are taken as a list of parts. -/
theorem separated_takes {text : List Char} {texts : List (List Char)} {as : List α}
    (htext : Takes Follow p text a)
    (htexts : List.Forall₂ (Takes Follow (do gap; p)) texts as)
    (hmid : Separates separator mid) (hfollow : ∀ cs, Follow (mid ++ cs)) (hrest : Follow rest)
    (hend : separator (skipGap rest) = none) :
    ∃ ds, separated separator p (text ++ (texts.flatMap (mid ++ ·) ++ rest)) = some (a :: as, ds) ∧
      skipGap ds = skipGap rest := by
  have hbehind : Follow (texts.flatMap (mid ++ ·) ++ rest) := by
    cases texts with
    | nil => exact hrest
    | cons text' texts =>
      rw [List.flatMap_cons, List.append_assoc, List.append_assoc]
      exact hfollow _
  obtain ⟨ds, hds, hgap⟩ := htext _ hbehind
  obtain ⟨⟨es, hsteps, hes⟩, hlength⟩ := steps_further htexts hmid hfollow hrest hend hgap
  refine ⟨es, ?_, hes⟩
  rw [separated, bind_of_eq_some hds]
  exact bind_of_eq_some (many_of_steps hsteps hlength)

/-- A whole text is recognized if only blanks are left. -/
lemma whole?_eq_some {s : String} :
    whole? p s = some a ↔ ∃ ds, p (skipGap s.toList) = some (a, ds) ∧ skipGap ds = [] := by
  rw [whole?]
  cases p (skipGap s.toList) with
  | none => simp
  | some x =>
    rw [Option.ite_none_right_eq_some, List.isEmpty_iff]
    constructor
    · rintro ⟨hds, ⟨⟩⟩
      exact ⟨x.2, rfl, hds⟩
    · rintro ⟨ds, ⟨⟩, hds⟩
      exact ⟨hds, rfl⟩

end ReadQuery.Input.Recognizer
