import ReadQuery.Proofs.Input.Arguments
import ReadQuery.Proofs.Input.Recognizer
import ReadQuery.Proofs.Number.Numeral

/-!
# Where floats come from

Every float of an expression is written in its text: it is the number nearest to a literal that
stands there (`IsWritten`). The recognizers are followed through the text with what has been found
and with what is left, which is an end of the text (`Finds`); one lemma for each way to put
recognizers together carries this through the grammar (`finds_disjunction`).

What is done with the terms afterwards makes no new values, so the operands of the conditions are
written in the text as well (`isWritten_of_parse`).
-/

namespace ReadQuery

open Number (IsDecimal IsDigits IsExponent signText digitsValue Double)

/-- A value that is no list and, if it is a float, the number nearest to a literal in the text. -/
def Value.IsWritten (text : List Char) : Value → Prop
  | .float d => ∃ literal negative n e, literal <:+: text ∧ IsDecimal literal negative n e ∧
      d = Double.ofDecimal negative n e
  | .list _ => False
  | .null | .bool _ | .int _ | .string _ => True

namespace Input

/-- A literal whose value is written in the text. -/
def Literal.IsWritten (text : List Char) : Literal → Prop
  | .value v => v.IsWritten text
  | .integer _ => True

namespace Term

variable {α : Type}

mutual

/-- The literals of a term. -/
def literals : Term α → List α
  | call _ args => literalsOfAll args
  | field _ | select _ => []
  | literal a => [a]

/-- The literals in a list of terms, from left to right. -/
def literalsOfAll : List (Term α) → List α
  | [] => []
  | t :: ts => literals t ++ literalsOfAll ts

end

/-- The literals of a list are those of its terms. -/
lemma literalsOfAll_eq (ts : List (Term α)) : literalsOfAll ts = ts.flatMap literals := by
  induction ts with
  | nil => rfl
  | cons t ts ih => rw [literalsOfAll, ih, List.flatMap_cons]

/-- A term whose literals are all written in the text. -/
def IsWritten (text : List Char) (t : Term Literal) : Prop :=
  ∀ a ∈ t.literals, a.IsWritten text

/-- A call is written in a text if all its arguments are. -/
lemma isWritten_call {text : List Char} {name : String} {args : List (Term Literal)} :
    (call name args).IsWritten text ↔ ∀ t ∈ args, t.IsWritten text := by
  simp only [IsWritten, literals, literalsOfAll_eq, List.mem_flatMap, forall_exists_index, and_imp]
  exact ⟨fun h t ht a ha => h a t ht ha, fun h a t ht ha => h t ht a ha⟩

end Term

namespace Recognizer

variable {α β γ : Type} {text cs rest : List Char} {p q : Recognizer α} {f : α → Recognizer β}
  {P P' : α → Prop} {Q : β → Prop} {a : α} {b : β}

/-- At every end of the text, what is found has a property and what is left is an end again. -/
def Finds (text : List Char) (p : Recognizer α) (P : α → Prop) : Prop :=
  ∀ cs a rest, cs <:+ text → p cs = some (a, rest) → rest <:+ text ∧ P a

/-- What is left is an end of the text. -/
def Stays (text : List Char) (p : Recognizer α) : Prop :=
  Finds text p fun _ => True

/-- A sequence succeeds only if both its steps do, one behind the other. -/
lemma bind_eq_some (h : (p >>= f) cs = some (b, rest)) :
    ∃ a ds, p cs = some (a, ds) ∧ f a ds = some (b, rest) := by
  rw [bind_apply] at h
  obtain ⟨⟨a, ds⟩, hp, hf⟩ := Option.bind_eq_some_iff.1 h
  exact ⟨a, ds, hp, hf⟩

/-- An alternative succeeds only where one of its sides does. -/
lemma orElse_eq_some (h : (p <|> q) cs = some (a, rest)) :
    p cs = some (a, rest) ∨ q cs = some (a, rest) := by
  cases hp : p cs with
  | none =>
    rw [orElse_of_eq_none hp] at h
    exact .inr h
  | some x =>
    rw [orElse_of_eq_some hp] at h
    exact .inl h

/-- What is found may be described more weakly. -/
lemma Finds.imp (h : Finds text p P) (himp : ∀ a, P a → P' a) : Finds text p P' := by
  intro cs a rest hcs hp
  obtain ⟨hrest, ha⟩ := h cs a rest hcs hp
  exact ⟨hrest, himp a ha⟩

/-- A recognizer that finds something also stays in the text. -/
lemma Finds.stays (h : Finds text p P) : Stays text p :=
  h.imp fun _ _ => trivial

/-- Nothing is taken, so what is returned is all that counts. -/
lemma finds_pure (h : P a) : Finds text (pure a) P := by
  intro cs b rest hcs hp
  cases hp
  exact ⟨hcs, h⟩

/-- A recognizer that always fails finds whatever is asked of it. -/
lemma finds_failure : Finds text (failure : Recognizer α) P := by
  intro cs a rest _ hp
  cases hp

/-- In a sequence, the second step may use what the first has found. -/
lemma Finds.bind (hp : Finds text p P) (hf : ∀ a, P a → Finds text (f a) Q) :
    Finds text (p >>= f) Q := by
  intro cs b rest hcs h
  obtain ⟨a, ds, ha, hb⟩ := bind_eq_some h
  obtain ⟨hds, hPa⟩ := hp cs a ds hcs ha
  exact hf a hPa ds b rest hds hb

/-- A step whose result does not matter. -/
lemma Stays.bind (hp : Stays text p) (hf : ∀ a, Finds text (f a) Q) : Finds text (p >>= f) Q :=
  Finds.bind hp fun a _ => hf a

/-- An alternative finds what both its sides find. -/
lemma Finds.orElse (hp : Finds text p P) (hq : Finds text q P) : Finds text (p <|> q) P := by
  intro cs a rest hcs h
  rcases orElse_eq_some h with h | h
  · exact hp cs a rest hcs h
  · exact hq cs a rest hcs h

/-- Taking nothing stays in the text. -/
lemma stays_pure (a : α) : Stays text (pure a) :=
  finds_pure trivial

/-- Blanks are dropped from the front only. -/
lemma stays_gap : Stays text gap := by
  intro cs a rest hcs h
  cases h
  exact ⟨(List.dropWhile_suffix _).trans hcs, trivial⟩

/-- A character is taken off the front. -/
lemma char_eq_some {c : Char} {u : Unit} (h : char c cs = some (u, rest)) : cs = c :: rest := by
  cases cs with
  | nil => cases h
  | cons d ds =>
    rw [char, Option.ite_none_right_eq_some, Option.some.injEq, Prod.mk.injEq] at h
    obtain ⟨rfl, -, rfl⟩ := h
    rfl

/-- Taking a character stays in the text. -/
lemma stays_char (c : Char) : Stays text (char c) := by
  intro cs a rest hcs h
  rw [char_eq_some h] at hcs
  exact ⟨(List.suffix_cons c rest).trans hcs, trivial⟩

/-- What is left behind a word is the end of what was there before it. -/
lemma suffix_of_stripBy {fold : Char → Char} {w : List Char}
    (h : Text.stripBy fold w cs = some rest) : rest <:+ cs := by
  induction w generalizing cs with
  | nil =>
    cases h
    exact List.suffix_rfl
  | cons d w ih =>
    cases cs with
    | nil => cases h
    | cons c cs =>
      rw [Text.stripBy] at h
      split at h
      · exact (ih h).trans (List.suffix_cons c cs)
      · cases h

/-- A word of one letter is taken as one character that folds to it. -/
lemma stripBy_singleton {fold : Char → Char} {w : Char}
    (h : Text.stripBy fold [w] cs = some rest) :
    ∃ letter : Char, fold letter = w ∧ cs = letter :: rest := by
  cases cs with
  | nil => cases h
  | cons c ds =>
    rw [Text.stripBy, Option.ite_none_right_eq_some] at h
    obtain ⟨hletter, h⟩ := h
    cases h
    exact ⟨c, hletter, rfl⟩

/-- Taking a fixed text stays in the text, however its letters are compared. -/
lemma stays_spelled (fold : Char → Char) (s : String) : Stays text (spelled fold s) := by
  intro cs a rest hcs h
  obtain ⟨ds, hds, heq⟩ := Option.map_eq_some_iff.1 h
  cases heq
  exact ⟨(suffix_of_stripBy hds).trans hcs, trivial⟩

/-- Looking ahead takes nothing. -/
lemma stays_absent (p : Recognizer α) : Stays text (absent p) := by
  intro cs a rest hcs h
  unfold absent at h
  split at h
  · cases h
  · cases h
    exact ⟨hcs, trivial⟩

/-- Looking for the end of a name takes nothing. -/
lemma stays_nameEnd : Stays text nameEnd := by
  intro cs a rest hcs h
  unfold nameEnd at h
  split at h
  · split at h
    · cases h
    · cases h
      exact ⟨hcs, trivial⟩
  · cases h
    exact ⟨hcs, trivial⟩

/-- Taking a keyword stays in the text. -/
lemma stays_keyword (s : String) : Stays text (keyword s) :=
  (stays_spelled Char.toLower s).bind fun _ => stays_nameEnd

/-- A run is not empty, all its characters are accepted, and it stood in front of the rest. -/
lemma takeSome_eq_some {accept : Char → Bool} {taken : List Char}
    (h : takeSome accept cs = some (taken, rest)) :
    cs = taken ++ rest ∧ taken ≠ [] ∧ ∀ c ∈ taken, accept c = true := by
  simp only [takeSome, Option.ite_none_left_eq_some, Option.some.injEq, Prod.mk.injEq] at h
  obtain ⟨hne, rfl, rfl⟩ := h
  refine ⟨List.takeWhile_append_dropWhile.symm, ?_, fun c hc => List.mem_takeWhile_imp hc⟩
  rwa [List.isEmpty_iff] at hne

/-- Taking a run stays in the text. -/
lemma stays_takeSome (accept : Char → Bool) : Stays text (takeSome accept) := by
  intro cs taken rest hcs h
  rw [(takeSome_eq_some h).1] at hcs
  exact ⟨(List.suffix_append taken rest).trans hcs, trivial⟩

/-- Taking a name stays in the text. -/
lemma stays_name : Stays text name := by
  intro cs a rest hcs h
  unfold name at h
  split at h
  · next c r =>
    split at h
    · cases h
      exact ⟨((List.dropWhile_suffix _).trans (List.suffix_cons c r)).trans hcs, trivial⟩
    · cases h
  · cases h

/-- Asking whether something is there stays in the text. -/
lemma Stays.flag (hp : Stays text p) : Stays text (flag p) :=
  Finds.orElse (hp.bind fun _ => stays_pure true) (stays_pure false)

/-- Each round of a repetition finds what one round finds. -/
lemma finds_manyUpTo (hp : Finds text p P) (fuel : Nat) :
    Finds text (manyUpTo p fuel) fun as => ∀ a ∈ as, P a := by
  induction fuel with
  | zero => exact finds_pure nofun
  | succ fuel ih =>
    refine Finds.orElse ?_ (finds_pure nofun)
    exact hp.bind fun a ha => ih.bind fun as has => finds_pure (List.forall_mem_cons.2 ⟨ha, has⟩)

/-- All members of a repetition are found. -/
lemma Finds.many (hp : Finds text p P) : Finds text (many p) fun as => ∀ a ∈ as, P a :=
  fun cs => finds_manyUpTo hp cs.length cs

/-- All members of a separated list are found, whatever the separator returns. -/
lemma Finds.separated {separator : Recognizer β} (hseparator : Stays text separator)
    (hp : Finds text p P) : Finds text (separated separator p) fun as => ∀ a ∈ as, P a := by
  have hfurther : Finds text (do gap; let _ ← separator; gap; p) P :=
    stays_gap.bind fun _ => hseparator.bind fun _ => stays_gap.bind fun _ => hp
  exact hp.bind fun a ha => hfurther.many.bind fun as has =>
    finds_pure (List.forall_mem_cons.2 ⟨ha, has⟩)

/-- All members of a list with commas between them are found. -/
lemma Finds.commaList (hp : Finds text p P) : Finds text (commaList p) fun as => ∀ a ∈ as, P a :=
  (hp.separated (stays_char ',')).orElse (finds_pure nofun)

/-- What is recognized in a whole text is found there. -/
lemma Finds.of_whole? {s : String} (hp : Finds s.toList p P) (h : whole? p s = some a) : P a := by
  unfold whole? at h
  cases hcs : p (Text.skipGap s.toList) with
  | none =>
    rw [hcs] at h
    cases h
  | some x =>
    obtain ⟨b, rest⟩ := x
    simp only [hcs, Option.ite_none_right_eq_some, Option.some.injEq] at h
    obtain ⟨-, rfl⟩ := h
    exact (hp _ b rest (List.dropWhile_suffix _) hcs).2

end Recognizer

namespace Grammar

open Recognizer

variable {text cs rest : List Char} {d o argument : Recognizer (Term Literal)}

/-- Terms whose literals are written in the text are found. -/
def FindsWritten (text : List Char) (p : Recognizer (Term Literal)) : Prop :=
  Finds text p (Term.IsWritten text)

/-- A sign is the minus that was taken, or nothing. -/
lemma sign_eq_some {minus : List Char} (h : sign cs = some (minus, rest)) :
    ∃ negative, minus = signText negative ∧ cs = signText negative ++ rest := by
  rcases orElse_eq_some h with h | h
  · obtain ⟨_, ds, hminus, h⟩ := bind_eq_some h
    cases h
    exact ⟨true, rfl, char_eq_some hminus⟩
  · cases h
    exact ⟨false, rfl, rfl⟩

/-- An exponent is read from letters that are written as one. -/
lemma exponent_eq_some {e : Int} (h : exponent cs = some (e, rest)) :
    ∃ letters, IsExponent letters e ∧ cs = letters ++ rest := by
  obtain ⟨_, signed, hword, h⟩ := bind_eq_some h
  obtain ⟨negative, unsigned, hsign, h⟩ := bind_eq_some h
  obtain ⟨ds, rest', hds, h⟩ := bind_eq_some h
  cases h
  obtain ⟨signed', hstrip, hsigned⟩ := Option.map_eq_some_iff.1 hword
  cases hsigned
  obtain ⟨letter, hletter, rfl⟩ := stripBy_singleton hstrip
  obtain ⟨rfl, hdigits⟩ := takeSome_eq_some hds
  rcases orElse_eq_some hsign with hsign | hsign
  · obtain ⟨_, _, hplus, hsign⟩ := bind_eq_some hsign
    cases hsign
    rw [char_eq_some hplus]
    exact ⟨_, .plus hletter hdigits, rfl⟩
  · rcases orElse_eq_some hsign with hsign | hsign
    · obtain ⟨_, _, hminus, hsign⟩ := bind_eq_some hsign
      cases hsign
      rw [char_eq_some hminus]
      exact ⟨_, .minus hletter hdigits, rfl⟩
    · cases hsign
      exact ⟨_, .unsigned hletter hdigits, rfl⟩

/-- An exponent that may be absent counts as zero where it is. -/
lemma maybe_exponent_eq_some {e : Option Int} (h : maybe exponent cs = some (e, rest)) :
    ∃ letters, IsExponent letters (e.getD 0) ∧ cs = letters ++ rest := by
  rcases orElse_eq_some h with h | h
  · obtain ⟨e, _, hexponent, h⟩ := bind_eq_some h
    cases h
    exact exponent_eq_some hexponent
  · cases h
    exact ⟨[], .none, rfl⟩

/-- A float is the number nearest to the literal that is taken. -/
lemma float_eq_some {a : Literal} (h : float cs = some (a, rest)) :
    ∃ literal negative n e, cs = literal ++ rest ∧ IsDecimal literal negative n e ∧
      a = .value (.float (Double.ofDecimal negative n e)) := by
  obtain ⟨minus, _, hsign, h⟩ := bind_eq_some h
  obtain ⟨whole, _, hwhole, h⟩ := bind_eq_some h
  obtain ⟨_, _, hpoint, h⟩ := bind_eq_some h
  obtain ⟨fraction, _, hfraction, h⟩ := bind_eq_some h
  obtain ⟨e, _, hexponent, h⟩ := bind_eq_some h
  cases h
  obtain ⟨negative, rfl, rfl⟩ := sign_eq_some hsign
  obtain ⟨rfl, hwholeDigits⟩ := takeSome_eq_some hwhole
  obtain rfl := char_eq_some hpoint
  obtain ⟨rfl, hfractionDigits⟩ := takeSome_eq_some hfraction
  obtain ⟨letters, hletters, rfl⟩ := maybe_exponent_eq_some hexponent
  have hnegative : (!(signText negative).isEmpty) = negative := by cases negative <;> rfl
  refine ⟨_, negative, _, _, ?_, .mk negative hwholeDigits hfractionDigits hletters, ?_⟩
  · simp only [List.append_assoc, List.cons_append]
  · rw [hnegative]

/-- A float keeps the text it was read from. -/
lemma finds_float : Finds text float (Literal.IsWritten text) := by
  intro cs a rest hcs h
  obtain ⟨literal, negative, n, e, rfl, hliteral, rfl⟩ := float_eq_some h
  have hrest : rest <:+ text := (List.suffix_append literal rest).trans hcs
  have hinfix : literal <:+: text := (List.prefix_append literal rest).isInfix.trans hcs.isInfix
  exact ⟨hrest, literal, negative, n, e, hinfix, hliteral, rfl⟩

/-- Taking a sign stays in the text. -/
lemma stays_sign : Stays text sign :=
  Finds.orElse ((stays_char '-').bind fun _ => stays_pure ['-']) (stays_pure [])

/-- An integer keeps the digits it was read from. -/
lemma finds_integer : Finds text integer (Literal.IsWritten text) :=
  stays_sign.bind fun _ => (stays_takeSome _).bind fun _ => stays_nameEnd.bind fun _ =>
    finds_pure trivial

/-- The two truth values are fixed words. -/
lemma finds_boolean : Finds text boolean (Literal.IsWritten text) :=
  Finds.orElse ((stays_keyword _).bind fun _ => finds_pure trivial)
    ((stays_keyword _).bind fun _ => finds_pure trivial)

/-- Null is a fixed word. -/
lemma finds_null : Finds text null (Literal.IsWritten text) :=
  (stays_keyword _).bind fun _ => finds_pure trivial

/-- What is left behind a quoted text is the end of what was there before it. -/
lemma suffix_of_quotedBody {quote : Char} {body : List Char}
    (h : quotedBody quote cs = some (body, rest)) : rest <:+ cs := by
  fun_induction quotedBody quote cs generalizing body with
  | case1 => cases h
  | case2 c cs ih =>
    obtain ⟨⟨_, _⟩, hbody, heq⟩ := Option.map_eq_some_iff.1 h
    cases heq
    exact (ih hbody).trans ((List.suffix_cons _ _).trans (List.suffix_cons _ _))
  | case3 cs =>
    cases h
    exact List.suffix_cons _ _
  | case4 => cases h
  | case5 c cs _ _ _ ih =>
    obtain ⟨⟨_, _⟩, hbody, heq⟩ := Option.map_eq_some_iff.1 h
    cases heq
    exact (ih hbody).trans (List.suffix_cons _ _)

/-- Taking a quoted text stays in the text. -/
lemma stays_quotedBody (quote : Char) : Stays text (quotedBody quote) :=
  fun _ _ _ hcs h => ⟨(suffix_of_quotedBody h).trans hcs, trivial⟩

/-- A string stands in the text between its quotes. -/
lemma finds_string : Finds text string (Literal.IsWritten text) :=
  Finds.orElse
    ((stays_char _).bind fun _ => (stays_quotedBody _).bind fun _ => finds_pure trivial)
    ((stays_char _).bind fun _ => (stays_quotedBody _).bind fun _ => finds_pure trivial)

/-- Every literal of the grammar is written where it was read. -/
lemma finds_literal : FindsWritten text literal := by
  have hliteral : Finds text (float <|> integer <|> boolean <|> null <|> string)
      (Literal.IsWritten text) :=
    finds_float.orElse (finds_integer.orElse (finds_boolean.orElse (finds_null.orElse
      finds_string)))
  exact hliteral.bind fun a ha => finds_pure (List.forall_mem_singleton.2 ha)

/-- Taking an identifier stays in the text. -/
lemma stays_identifier : Stays text identifier :=
  (stays_absent _).bind fun _ => stays_name

/-- The operand of a selection holds names only, so there is no literal to look for. -/
lemma finds_select : FindsWritten text select := by
  have hsegment : Stays text (do char '.'; takeSome Text.isNameChar) :=
    (stays_char '.').bind fun _ => stays_takeSome _
  exact stays_identifier.bind fun _ => hsegment.bind fun _ => hsegment.many.stays.bind fun _ =>
    finds_pure nofun

/-- A field holds no literal. -/
lemma finds_field : FindsWritten text field :=
  stays_identifier.bind fun _ => finds_pure nofun

/-- An application is written in the text if its arguments are. -/
lemma finds_application (h : FindsWritten text argument) :
    FindsWritten text (application argument) :=
  stays_name.bind fun _ => stays_gap.bind fun _ => (stays_char '(').bind fun _ =>
    stays_gap.bind fun _ => h.commaList.bind fun _ hargs => stays_gap.bind fun _ =>
      (stays_char ')').bind fun _ => finds_pure (Term.isWritten_call.2 hargs)

/-- Operands are written in the text, to any depth of brackets. -/
lemma finds_operand (fuel : Nat) : FindsWritten text (operand fuel) := by
  induction fuel with
  | zero => exact finds_failure
  | succ fuel ih =>
    exact finds_literal.orElse ((finds_application ih).orElse (finds_select.orElse finds_field))

/-- Taking a comparison sign stays in the text. -/
lemma stays_comparisonSign : Stays text comparisonSign := by
  have hmark : ∀ s name : String, Stays text (do mark s; pure name) := fun s name =>
    (stays_spelled id s).bind fun _ => stays_pure name
  have hchar : ∀ (c : Char) (name : String), Stays text (do char c; pure name) := fun c name =>
    (stays_char c).bind fun _ => stays_pure name
  exact (hmark _ _).orElse ((hmark _ _).orElse ((hmark _ _).orElse ((hmark _ _).orElse
    ((hmark _ _).orElse ((hchar _ _).orElse ((hchar _ _).orElse (hchar _ _)))))))

/-- Taking the word of a pattern condition stays in the text. -/
lemma stays_likeWord : Stays text likeWord :=
  Finds.orElse ((stays_keyword _).bind fun _ => stays_pure true)
    ((stays_keyword _).bind fun _ => stays_pure false)

/-- A call is written in the text if its arguments are. -/
lemma finds_call (h : FindsWritten text argument) : FindsWritten text (call argument) :=
  (finds_application h).bind fun _ ht => stays_gap.bind fun _ => (stays_absent _).bind fun _ =>
    finds_pure ht

/-- A test for null adds no literal to its operand. -/
lemma finds_nullCheck (h : FindsWritten text o) : FindsWritten text (nullCheck o) :=
  h.bind fun _ ht => stays_gap.bind fun _ => (stays_keyword _).bind fun _ =>
    stays_gap.bind fun _ => (stays_keyword _).flag.bind fun _ => stays_gap.bind fun _ =>
      (stays_keyword _).bind fun _ =>
        finds_pure (Term.isWritten_call.2 (List.forall_mem_singleton.2 ht))

/-- The bounds of a range are written in the text as its subject is. -/
lemma finds_range (h : FindsWritten text o) : FindsWritten text (range o) :=
  h.bind fun _ ht => stays_gap.bind fun _ => (stays_keyword _).bind fun _ =>
    stays_gap.bind fun _ => h.bind fun _ hlower => stays_gap.bind fun _ =>
      (stays_keyword _).bind fun _ => stays_gap.bind fun _ => h.bind fun _ hupper =>
        finds_pure (Term.isWritten_call.2 (by simp [ht, hlower, hupper]))

/-- The members of a list condition are written in the text as its subject is. -/
lemma finds_membership (h : FindsWritten text o) : FindsWritten text (membership o) :=
  h.bind fun _ ht => stays_gap.bind fun _ => (stays_keyword _).flag.bind fun _ =>
    stays_gap.bind fun _ => (stays_keyword _).bind fun _ => stays_gap.bind fun _ =>
      (stays_char '(').bind fun _ => stays_gap.bind fun _ => h.commaList.bind fun _ hitems =>
        stays_gap.bind fun _ => (stays_char ')').bind fun _ =>
          finds_pure (Term.isWritten_call.2 (List.forall_mem_cons.2 ⟨ht, hitems⟩))

/-- A pattern condition holds the literals of its subject and of its pattern. -/
lemma isWritten_likeCall {t pattern : Term Literal} (ht : t.IsWritten text)
    (hpattern : pattern.IsWritten text) (folded : Bool) :
    (likeCall t pattern folded).IsWritten text := by
  unfold likeCall
  split
  · have hbare : ∀ s, (Term.literal (Literal.value (.string s))).IsWritten text := fun s =>
      List.forall_mem_singleton.2 trivial
    exact Term.isWritten_call.2 (by simp [ht, hbare])
  · exact Term.isWritten_call.2 (by simp [ht, hpattern])

/-- A pattern condition is written in the text. -/
lemma finds_pattern (h : FindsWritten text o) : FindsWritten text (pattern o) :=
  h.bind fun _ ht => stays_gap.bind fun _ => stays_likeWord.bind fun _ => stays_gap.bind fun _ =>
    h.bind fun _ hpattern => finds_pure (isWritten_likeCall ht hpattern _)

/-- A comparison is written in the text if both its sides are. -/
lemma finds_comparison (h : FindsWritten text o) : FindsWritten text (comparison o) :=
  h.bind fun _ ht => stays_gap.bind fun _ => stays_comparisonSign.bind fun _ =>
    stays_gap.bind fun _ => h.bind fun _ ha =>
      finds_pure (Term.isWritten_call.2 (by simp [ht, ha]))

/-- Conditions joined under one name hold the literals of all of them. -/
lemma isWritten_joined {name : String} {ts : List (Term Literal)}
    (h : ∀ t ∈ ts, t.IsWritten text) : (joined name ts).IsWritten text := by
  unfold joined
  split
  · exact h _ List.mem_cons_self
  · exact Term.isWritten_call.2 h

/-- Every form of a condition is written in the text. -/
lemma finds_condition (hd : FindsWritten text d) (ho : FindsWritten text o) :
    FindsWritten text (condition d o) :=
  (finds_call (hd.orElse ho)).orElse ((finds_nullCheck ho).orElse ((finds_range ho).orElse
    ((finds_membership ho).orElse ((finds_pattern ho).orElse (finds_comparison ho)))))

/-- A part is a group in parentheses or a condition, and written in the text either way. -/
lemma finds_part (hd : FindsWritten text d) (ho : FindsWritten text o) :
    FindsWritten text (part d o) := by
  refine Finds.orElse ?_ (finds_condition hd ho)
  exact (stays_char '(').bind fun _ => stays_gap.bind fun _ => hd.bind fun _ ht =>
    stays_gap.bind fun _ => (stays_char ')').bind fun _ => finds_pure ht

/-- The parts of a conjunction are written in the text. -/
lemma finds_conjunction (hd : FindsWritten text d) (ho : FindsWritten text o) :
    FindsWritten text (conjunction d o) := by
  have hand : Stays text (keyword "and" <|> mark "&&") :=
    (stays_keyword _).orElse (stays_spelled id _)
  exact (Finds.separated hand (finds_part hd ho)).bind fun _ hts =>
    finds_pure (isWritten_joined hts)

/-- The literals of whatever is recognized as an expression are written in the text. -/
theorem finds_disjunction (fuel : Nat) : FindsWritten text (disjunction fuel) := by
  -- an expression between brackets, or in a call, is found with less fuel
  induction fuel with
  | zero => exact finds_failure
  | succ fuel ih =>
    have hor : Stays text (keyword "or" <|> mark "||") :=
      (stays_keyword _).orElse (stays_spelled id _)
    exact (Finds.separated hor (finds_conjunction ih (finds_operand fuel))).bind fun _ hts =>
      finds_pure (isWritten_joined hts)

/-- The literals of a parsed expression are written in the text that was parsed. -/
lemma isWritten_of_expression? {s : String} {t : Term Literal} (h : expression? s = some t) :
    t.IsWritten s.toList :=
  (finds_disjunction _).of_whole? h

end Grammar

/-- A literal that has a value gives one that is written where the literal is. -/
lemma Literal.isWritten_resolve {text : List Char} {a : Literal} {v : Value}
    (ha : a.IsWritten text) (h : a.resolve = .ok v) : v.IsWritten text := by
  cases a with
  | value w =>
    cases h
    exact ha
  | integer digits =>
    rw [Literal.resolve] at h
    split at h
    · split at h
      · cases h
        trivial
      · cases h
    · cases h

mutual

/-- Converting the literals keeps what is written. -/
theorem Term.isWritten_resolve {text : List Char} : ∀ (t : Term Literal) (e : Expr),
    t.resolve = .ok e → t.IsWritten text → ∀ v ∈ e.literals, v.IsWritten text
  | .call name args, e, h, ht => by
    obtain ⟨es, hes, rfl⟩ := map_eq_ok.1 h
    exact Term.isWritten_resolveAll args es hes (Term.isWritten_call.1 ht)
  | .field name, e, h, _ => by
    cases h
    exact nofun
  | .select path, e, h, _ => by
    cases h
    exact nofun
  | .literal a, e, h, ht => by
    obtain ⟨v, hv, rfl⟩ := map_eq_ok.1 h
    have ha : a.IsWritten text := ht a List.mem_cons_self
    exact List.forall_mem_singleton.2 (Literal.isWritten_resolve ha hv)

/-- All values of a resolved list are written where the literals of its terms are. -/
theorem Term.isWritten_resolveAll {text : List Char} :
    ∀ (ts : List (Term Literal)) (es : List Expr), Term.resolveAll ts = .ok es →
      (∀ t ∈ ts, t.IsWritten text) → ∀ v ∈ Term.literalsOfAll es, v.IsWritten text
  | [], es, h, _ => by
    cases h
    exact nofun
  | t :: ts, es, h, hts => by
    rw [Term.resolveAll] at h
    split at h
    · cases h
    · next e he =>
      obtain ⟨es, hes, rfl⟩ := map_eq_ok.1 h
      rw [List.forall_mem_cons] at hts
      exact List.forall_mem_append.2 ⟨Term.isWritten_resolve t e he hts.1,
        Term.isWritten_resolveAll ts es hes hts.2⟩

end

namespace Expression

/-- The literals of the leaves are those of the tree. -/
lemma literals_of_mem_leaves (e : Expr) : ∀ l ∈ leaves e, l.literals ⊆ e.literals := by
  induction e using connective_induction with
  | leaf e h =>
    rw [leaves_of_leaf h]
    exact List.forall_mem_singleton.2 (List.Subset.refl _)
  | node name args k h ih =>
    rw [leaves_call h, Term.literals]
    clear h
    induction args with
    | nil => exact nofun
    | cons a args ihargs =>
      rw [List.forall_mem_cons] at ih
      rw [leavesOfAll, Term.literalsOfAll, List.forall_mem_append]
      constructor
      · intro l hl
        exact List.Subset.trans (ih.1 l hl) (List.subset_append_left _ _)
      · intro l hl
        exact List.Subset.trans (ihargs ih.2 l hl) (List.subset_append_right _ _)

/-- The operands of a condition are literals of its call. -/
lemma exists_operands_of_condition {l : Expr} {c : Condition} (h : condition l = .ok c) :
    ∃ vs, c.HasExactly vs ∧ vs ⊆ l.literals := by
  obtain ⟨name, left, vs, rfl, -, hoperands⟩ := exists_of_condition h
  refine ⟨_, hoperands, ?_⟩
  intro v hv
  have hliteral : v ∈ Term.literals (.literal v : Expr) := List.mem_cons_self
  rw [Term.literals, Term.literalsOfAll, List.mem_append, Term.literalsOfAll_eq, List.mem_flatMap]
  exact .inr ⟨_, List.mem_map_of_mem (Arity.taken_subset _ _ hv), hliteral⟩

/-- The operands of the conditions of an expression are written in its text. -/
theorem isWritten_of_parse {s : String} {f : Filter} (h : parse s = .ok f) {c : Condition}
    (hc : c ∈ f.allConditions) : ∃ vs, c.HasExactly vs ∧ ∀ v ∈ vs, v.IsWritten s.toList := by
  rw [parse] at h
  split at h
  · cases h
    cases hc
  · obtain ⟨e, he, hf⟩ := bind_eq_ok.1 h
    rw [parseTerm] at he
    split at he
    · next t ht =>
      have hwritten := Term.isWritten_resolve t e he (Grammar.isWritten_of_expression? ht)
      obtain ⟨cs, hcs, hperm⟩ := exists_conditions (mapError_eq_ok.1 hf)
      obtain ⟨l, hl, hcondition⟩ := exists_of_mem_mapM hcs c (hperm.subset hc)
      obtain ⟨vs, hoperands, hvs⟩ := exists_operands_of_condition hcondition
      refine ⟨vs, hoperands, ?_⟩
      intro v hv
      exact hwritten v (literals_of_mem_leaves e l hl (hvs hv))
    · cases he

end Expression

end Input

end ReadQuery
