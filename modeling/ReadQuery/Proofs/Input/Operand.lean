import ReadQuery.Proofs.Input.Infix

/-!
# Recognizing operands

The operands of a condition are recognized from their texts in front of everything that ends an
operand (`Ends`): a value as its literal (`literal_valueText`), a field with the path into it as a
selection (`operand_pathText`) and a part of a date as the call on it (`operand_fieldText`). A name
is no literal, a field no call, and a selection ends with its last segment.

The fuel of operands is spent by calls within them, of which a field has at most one.
-/

namespace ReadQuery.Input.Grammar

open Recognizer
open Infix (Style valueText fieldText pathText fieldTerm unresolved)
open Text (isNameChar isNameStart skipGap splitList)

variable {cs ds rest : List Char} {t : Term Literal} {p : Recognizer (Term Literal)} {n : Nat}

/-- A text behind which an operand ends: it continues no name, no path and no call. -/
structure Ends (cs : List Char) : Prop where
  name : EndsName cs
  dot : cs.head? ≠ some '.'
  bracket : (skipGap cs).head? ≠ some '('

/-- There is no sign where there is no minus. -/
lemma sign_of_head (h : cs.head? ≠ some '-') : sign cs = some ([], cs) := by
  rw [sign, orElse_of_eq_none (bind_of_eq_none (char_of_head_ne h))]
  rfl

/-- Digits are name characters. -/
lemma isDigit_of_not_isNameChar {c : Char} (h : isNameChar c = false) : c.isDigit = false := by
  simp only [isNameChar, Char.isAlphanum, Bool.or_eq_false_iff] at h
  exact h.1.2

/-- A text that begins neither with a sign nor with a digit is no number. -/
lemma number_of_head (hsign : cs.head? ≠ some '-')
    (hdigit : ∀ c, cs.head? = some c → c.isDigit = false) :
    float cs = none ∧ integer cs = none := by
  constructor
  · rw [float, bind_of_eq_some (sign_of_head hsign)]
    exact bind_of_eq_none (takeSome_of_head hdigit)
  · rw [integer, bind_of_eq_some (sign_of_head hsign)]
    exact bind_of_eq_none (takeSome_of_head hdigit)

/-- There is no string where there is no quotation mark. -/
lemma string_of_head (hsingle : cs.head? ≠ some '\'') (hdouble : cs.head? ≠ some '"') :
    string cs = none :=
  orElse_eq_none (bind_of_eq_none (char_of_head_ne hsingle))
    (bind_of_eq_none (char_of_head_ne hdouble))

/-- No name begins with a digit. -/
lemma isDigit_of_isNameStart {c : Char} (h : isNameStart c = true) : c.isDigit = false := by
  have hclass : (((c.val ≥ 65 ∧ c.val ≤ 90 : Bool) || (c.val ≥ 97 && c.val ≤ 122))
    || c == '_') = true := h
  simp only [Bool.or_eq_true, Bool.and_eq_true, decide_eq_true_eq, beq_iff_eq, ge_iff_le,
    UInt32.le_iff_toNat_le] at hclass
  have habove : 58 ≤ c.toNat := by
    obtain (⟨hlow, -⟩ | ⟨hlow, -⟩) | rfl := hclass
    · exact le_trans (by decide) hlow
    · exact le_trans (by decide) hlow
    · decide
  have hdigit : ¬ c.toNat ≤ 57 := by omega
  simp only [Char.isDigit, Bool.and_eq_false_iff, decide_eq_false_iff_not, UInt32.le_iff_toNat_le]
  exact .inr hdigit

/-- The constant that a word in small letters stands for. -/
def constant? (word : List Char) : Option Literal :=
  if word = "true".toList then some (.value (.bool true))
  else if word = "false".toList then some (.value (.bool false))
  else if word = "null".toList then some (.value .null)
  else none

/-- A name is a literal only if it is the word of a constant. -/
lemma literal_name (h : IsName cs) (hrest : EndsName rest) :
    literal (cs ++ rest) = (constant? (cs.map Char.toLower)).map fun a => (.literal a, rest) := by
  have htrue := keyword_append (s := "true") (by decide) h.isNameChar hrest
  have hfalse := keyword_append (s := "false") (by decide) h.isNameChar hrest
  have hnull := keyword_append (s := "null") (by decide) h.isNameChar hrest
  obtain ⟨c, cs, rfl, hc, -⟩ := h
  have hne : ∀ d, isNameStart d = false → ((c :: cs) ++ rest).head? ≠ some d := by
    rintro d hd ⟨⟩
    rw [hc] at hd
    cases hd
  have hdigit : ∀ d, ((c :: cs) ++ rest).head? = some d → d.isDigit = false := by
    rintro d ⟨⟩
    exact isDigit_of_isNameStart hc
  obtain ⟨hfloat, hinteger⟩ := number_of_head (hne '-' (by decide)) hdigit
  have hstring := string_of_head (hne '\'' (by decide)) (hne '"' (by decide))
  rw [literal, bind_apply, orElse_of_eq_none hfloat, orElse_of_eq_none hinteger]
  simp only [orElse_apply, boolean, null, bind_apply, htrue, hfalse, hnull, hstring, constant?]
  generalize (c :: cs).map Char.toLower = word
  -- numbers and quoted texts are out, so that the word decides
  split
  · rfl
  · split
    · rfl
    · split <;> rfl

/-- No word of a constant stands where a name does not begin. -/
lemma constants_of_endsName (h : EndsName cs) : boolean cs = none ∧ null cs = none := by
  have htrue := keyword_of_endsName (s := "true") (by decide) (by decide) h
  have hfalse := keyword_of_endsName (s := "false") (by decide) (by decide) h
  have hnull := keyword_of_endsName (s := "null") (by decide) (by decide) h
  exact ⟨orElse_eq_none (bind_of_eq_none htrue) (bind_of_eq_none hfalse), bind_of_eq_none hnull⟩

/-- A printed number has a sign just if it is negative. -/
lemma sign_toDigits (i : Int) (cs : List Char) :
    sign ((if i < 0 then ['-'] else []) ++ (Nat.toDigits 10 i.natAbs ++ cs))
      = some (if i < 0 then ['-'] else [], Nat.toDigits 10 i.natAbs ++ cs) := by
  obtain ⟨d, ds, hds, hd, -⟩ := Number.exists_cons_toDigits i.natAbs
  rw [hds]
  split
  · rfl
  · refine sign_of_head ?_
    rintro ⟨⟩
    cases hd

/-- An integer is recognized as its digits where neither a point nor a name character follows. -/
lemma literal_int (i : Int64) (hrest : Ends rest) :
    literal ((valueText (.int i)).toList ++ rest)
      = some (.literal (unresolved (.int i)), rest) := by
  have hsign := sign_toDigits i.toInt rest
  have hdigits : takeSome Char.isDigit (Nat.toDigits 10 i.toInt.natAbs ++ rest)
      = some (Nat.toDigits 10 i.toInt.natAbs, rest) :=
    takeSome_append Nat.toDigits_ne_nil
      (fun c hc => Nat.isDigit_of_mem_toDigits (by decide) (by decide) hc)
      (fun c hc => isDigit_of_not_isNameChar (hrest.name c hc))
  rw [valueText, unresolved, Number.showInt64, Number.toList_toString_int, List.append_assoc]
  generalize (if i.toInt < 0 then ['-'] else []) = minus at hsign ⊢
  have hfloat : float (minus ++ (Nat.toDigits 10 i.toInt.natAbs ++ rest)) = none := by
    rw [float, bind_of_eq_some hsign, bind_of_eq_some hdigits]
    exact bind_of_eq_none (char_of_head_ne hrest.dot)
  have hinteger : integer (minus ++ (Nat.toDigits 10 i.toInt.natAbs ++ rest))
      = some (.integer (minus ++ Nat.toDigits 10 i.toInt.natAbs), rest) := by
    rw [integer, bind_of_eq_some hsign, bind_of_eq_some hdigits,
      bind_of_eq_some (nameEnd_of_endsName hrest.name)]
    rfl
  refine bind_of_eq_some ?_
  rw [orElse_of_eq_none hfloat]
  exact orElse_of_eq_some hinteger

/-- A quoted text ends with the quote that is not escaped. -/
lemma quotedBody_escapes (cs rest : List Char) :
    quotedBody '\'' ((cs.flatMap fun c => if c = '\'' ∨ c = '\\' then ['\\', c] else [c])
      ++ '\'' :: rest) = some (cs, rest) := by
  induction cs with
  | nil => rfl
  | cons c cs ih =>
    rw [List.flatMap_cons, List.append_assoc]
    split
    · next h =>
      have hescaped : escaped c = c := by
        obtain rfl | rfl := h <;> rfl
      rw [List.cons_append, List.singleton_append, quotedBody, ih, Option.map_some, hescaped]
    · next h =>
      rw [not_or] at h
      rw [List.singleton_append, quotedBody.eq_3 _ _ _ (fun d ds hc _ => h.2 hc),
        if_neg h.1, if_neg h.2, ih]
      rfl

/-- A printed string is read back as a literal. -/
lemma literal_string (s : String) (rest : List Char) :
    literal ((valueText (.string s)).toList ++ rest)
      = some (.literal (.value (.string s)), rest) := by
  have htext : (valueText (.string s)).toList ++ rest = '\'' ::
      ((s.toList.flatMap fun c => if c = '\'' ∨ c = '\\' then ['\\', c] else [c])
        ++ '\'' :: rest) := by
    simp [valueText, Infix.quote]
  rw [htext]
  have hstring := quotedBody_escapes s.toList rest
  generalize (s.toList.flatMap fun c => if c = '\'' ∨ c = '\\' then ['\\', c] else [c])
    ++ '\'' :: rest = ds at hstring ⊢
  have hdigit : ∀ d, ('\'' :: ds).head? = some d → d.isDigit = false := by
    rintro d ⟨⟩
    rfl
  have hsign : ('\'' :: ds).head? ≠ some '-' := by simp
  obtain ⟨hfloat, hinteger⟩ := number_of_head hsign hdigit
  obtain ⟨hboolean, hnull⟩ := constants_of_endsName (endsName_cons (c := '\'') rfl ds)
  refine bind_of_eq_some ?_
  rw [orElse_of_eq_none hfloat, orElse_of_eq_none hinteger, orElse_of_eq_none hboolean,
    orElse_of_eq_none hnull]
  refine orElse_of_eq_some ?_
  rw [bind_of_eq_some (char_cons_self '\'' ds), bind_of_eq_some hstring]
  simp

/-- A value is recognized as its literal. -/
theorem literal_valueText {v : Value} (h : v.IsPlain) (hrest : Ends rest) :
    literal ((valueText v).toList ++ rest) = some (.literal (unresolved v), rest) := by
  cases v with
  | null => exact literal_name ⟨_, _, rfl, by decide, by decide⟩ hrest.name
  | bool b =>
    cases b with
    | true => exact literal_name ⟨_, _, rfl, by decide, by decide⟩ hrest.name
    | false => exact literal_name ⟨_, _, rfl, by decide, by decide⟩ hrest.name
  | int i => exact literal_int i hrest
  | string s => exact literal_string s rest
  | float x => exact h.elim
  | list vs => exact h.elim

/-- There is no name where none begins. -/
lemma name_of_head (h : ∀ c, cs.head? = some c → isNameStart c = false) : name cs = none := by
  cases cs with
  | nil => rfl
  | cons c cs => simp [name, h c rfl]

/-- A run of name characters is none of the words that it is not. -/
lemma reserved_append {words : List String}
    (hwords : ∀ w ∈ words, w.toList.all isNameChar = true)
    (hcs : ∀ c ∈ cs, isNameChar c = true) (hrest : EndsName rest)
    (hmem : ∀ w ∈ words, cs.map Char.toLower ≠ w.toList) :
    words.foldr (fun w p => keyword w <|> p) failure (cs ++ rest) = none := by
  induction words with
  | nil => rfl
  | cons w words ih =>
    rw [List.forall_mem_cons] at hwords hmem
    have hkeyword : keyword w (cs ++ rest) = none := by
      rw [keyword_append hwords.1 hcs hrest, if_neg hmem.1]
    exact orElse_eq_none hkeyword (ih hwords.2 hmem.2)

/-- A name that may be the name of a field. -/
structure IsIdentifier (cs : List Char) : Prop where
  isName : IsName cs
  not_keyword : ∀ w ∈ keywords, cs.map Char.toLower ≠ w.toList

/-- A name that is no keyword is taken whole. -/
lemma identifier_append (h : IsIdentifier cs) (hrest : EndsName rest) :
    identifier (cs ++ rest) = some (cs, rest) := by
  have hreserved : reserved (cs ++ rest) = none :=
    reserved_append (by decide) h.isName.isNameChar hrest h.not_keyword
  have habsent : absent reserved (cs ++ rest) = some ((), cs ++ rest) := by
    rw [absent, hreserved]
  rw [identifier, bind_of_eq_some habsent]
  exact name_append h.isName hrest

/-- A name that is no keyword is no literal. -/
lemma literal_identifier (h : IsIdentifier cs) (hrest : EndsName rest) :
    literal (cs ++ rest) = none := by
  have hconstant : constant? (cs.map Char.toLower) = none := by
    rw [constant?, if_neg (h.not_keyword "true" (by decide)),
      if_neg (h.not_keyword "false" (by decide)), if_neg (h.not_keyword "null" (by decide))]
  rw [literal_name h.isName hrest, hconstant]
  rfl

/-- The texts of the segments of a path, each behind a dot. -/
def dotted (segments : List (List Char)) : List Char :=
  segments.flatMap (['.'] ++ ·)

/-- A segment of a path behind its dot. -/
def segment : Recognizer (List Char) := do
  char '.'
  takeSome isNameChar

/-- The name in front of a path ends where the path begins. -/
lemma endsName_dotted (segments : List (List Char)) (hrest : EndsName rest) :
    EndsName (dotted segments ++ rest) := by
  cases segments with
  | nil => exact hrest
  | cons s segments => exact endsName_cons rfl _

variable {segments : List (List Char)}

/-- The first segment of a path is taken up to the next dot. -/
lemma segment_dotted {s : List Char} (hs : s ≠ [] ∧ ∀ c ∈ s, isNameChar c = true)
    (hrest : EndsName rest) :
    segment (dotted (s :: segments) ++ rest) = some (s, dotted segments ++ rest) := by
  have htake := takeSome_append hs.1 hs.2 (endsName_dotted segments hrest)
  rw [dotted, List.flatMap_cons, List.append_assoc, List.append_assoc, List.singleton_append,
    segment, bind_of_eq_some (char_cons_self '.' _)]
  exact htake

/-- A path is taken segment by segment. -/
lemma steps_segment (h : ∀ s ∈ segments, s ≠ [] ∧ ∀ c ∈ s, isNameChar c = true)
    (hrest : Ends rest) : Steps segment (dotted segments ++ rest) segments rest := by
  induction segments with
  | nil => exact .done (bind_of_eq_none (char_of_head_ne hrest.dot))
  | cons s segments ih =>
    rw [List.forall_mem_cons] at h
    exact .step (segment_dotted h.1 hrest.name) (ih h.2)

/-- A path has a dot for each of its segments. -/
lemma length_le_dotted (segments : List (List Char)) :
    segments.length ≤ (dotted segments).length := by
  induction segments with
  | nil => exact Nat.le_refl 0
  | cons s segments ih =>
    rw [dotted, List.flatMap_cons, List.length_append, ← dotted]
    simp only [List.length_cons, List.length_append, List.length_nil]
    omega

/-- A name with a path behind it is taken as a selection. -/
lemma select_append (hcs : IsIdentifier cs) (hne : segments ≠ [])
    (h : ∀ s ∈ segments, s ≠ [] ∧ ∀ c ∈ s, isNameChar c = true) (hrest : Ends rest) :
    select (cs ++ (dotted segments ++ rest))
      = some (.select ((cs :: segments).map String.ofList), rest) := by
  obtain ⟨s, segments, rfl⟩ := List.exists_cons_of_ne_nil hne
  rw [List.forall_mem_cons] at h
  have hlength : segments.length ≤ (dotted segments ++ rest).length := by
    have := length_le_dotted segments
    rw [List.length_append]
    omega
  rw [select, bind_of_eq_some (identifier_append hcs (endsName_dotted _ hrest.name))]
  refine (bind_of_eq_some (segment_dotted h.1 hrest.name)).trans ?_
  exact bind_of_eq_some (many_of_steps (steps_segment h.2 hrest) hlength)

/-- A name without a path behind it is no selection. -/
lemma select_of_dot (hcs : IsIdentifier cs) (hrest : Ends rest) : select (cs ++ rest) = none := by
  rw [select, bind_of_eq_some (identifier_append hcs hrest.name)]
  exact bind_of_eq_none (bind_of_eq_none (char_of_head_ne hrest.dot))

/-- There is no application where there is no name. -/
lemma application_of_name (h : name cs = none) : application p cs = none :=
  bind_of_eq_none h

/-- A name is no call where no parenthesis follows. -/
lemma application_of_bracket (h : IsName cs) (hrest : EndsName rest)
    (hbracket : (skipGap rest).head? ≠ some '(') : application p (cs ++ rest) = none := by
  rw [application, bind_of_eq_some (name_append h hrest), gap_bind]
  exact bind_of_eq_none (char_of_head_ne hbracket)

/-- A text behind which an expression is complete: nothing, a comma or a closing parenthesis. -/
def Closes (cs : List Char) : Prop :=
  ∀ c, cs.head? = some c → c = ',' ∨ c = ')'

/-- An expression is complete in front of a closing parenthesis. -/
lemma closes_bracket (cs : List Char) : Closes (')' :: cs) := by
  rintro c ⟨⟩
  exact .inr rfl

/-- No other character stands behind a complete expression. -/
lemma Closes.head_ne (h : Closes cs) {c : Char} (hcomma : c ≠ ',') (hbracket : c ≠ ')') :
    cs.head? ≠ some c := fun hc => (h c hc).elim hcomma hbracket

/-- No blank stands behind a complete expression. -/
lemma Closes.skipGap (h : Closes cs) : Text.skipGap cs = cs := by
  refine skipGap_of_head fun c hc => ?_
  obtain rfl | rfl := h c hc <;> rfl

/-- A name ends where an expression is complete. -/
lemma Closes.endsName (h : Closes cs) : EndsName cs := by
  intro c hc
  obtain rfl | rfl := h c hc <;> rfl

/-- An operand ends where an expression is complete. -/
lemma Closes.ends (h : Closes cs) : Ends cs := by
  refine ⟨h.endsName, h.head_ne (by decide) (by decide), ?_⟩
  rw [h.skipGap]
  exact h.head_ne (by decide) (by decide)

/-- Arguments with commas between them are taken up to the closing parenthesis. -/
lemma commaList_takes {text : List Char} {texts : List (List Char)} {ts : List (Term Literal)}
    (htext : Takes Closes p text t)
    (htexts : List.Forall₂ (fun cs t => Starts cs ∧ Takes Closes p cs t) texts ts)
    (rest : List Char) :
    ∃ ds, commaList p (text ++ (texts.flatMap ([',', ' '] ++ ·) ++ ')' :: rest))
        = some (t :: ts, ds) ∧ skipGap ds = ')' :: rest := by
  have hmid : Separates (char ',') [',', ' '] := by
    intro cs
    have hlong : cs.length < cs.length + 2 := Nat.lt_add_of_pos_right (by decide)
    exact ⟨(), ' ' :: cs, rfl, rfl, hlong⟩
  have hfollow : ∀ cs, Closes ([',', ' '] ++ cs) := by
    rintro cs c ⟨⟩
    exact .inl rfl
  have hend : char ',' (skipGap (')' :: rest)) = none := rfl
  have hfurther : List.Forall₂ (Takes Closes (do gap; p)) texts ts :=
    htexts.imp fun _ _ h => h.2.gap_bind h.1
  obtain ⟨ds, hds, hgap⟩ := separated_takes htext hfurther hmid hfollow (closes_bracket rest) hend
  exact ⟨ds, orElse_of_eq_some hds, hgap⟩

/-- A name in front of arguments between parentheses is recognized as a call. -/
lemma application_append (hcs : IsName cs) {text : List Char} {texts : List (List Char)}
    {ts : List (Term Literal)} (hstarts : Starts text) (htext : Takes Closes p text t)
    (htexts : List.Forall₂ (fun cs t => Starts cs ∧ Takes Closes p cs t) texts ts)
    (rest : List Char) :
    application p (cs ++ '(' :: (text ++ (texts.flatMap ([',', ' '] ++ ·) ++ ')' :: rest)))
      = some (.call (String.ofList cs) (t :: ts), rest) := by
  obtain ⟨ds, hds, hgap⟩ := commaList_takes htext htexts rest
  rw [application, bind_of_eq_some (name_append hcs (endsName_cons rfl _)), gap_bind]
  refine (bind_of_eq_some (char_cons_self '(' _)).trans ?_
  rw [gap_bind, (hstarts.append _).skipGap, bind_of_eq_some hds, gap_bind, hgap,
    bind_of_eq_some (char_cons_self ')' rest)]
  rfl

/-- A text that begins as a name does. -/
def Named (cs : List Char) : Prop :=
  ∃ c ds, cs = c :: ds ∧ isNameStart c = true

/-- Names begin as names do. -/
lemma named_of_isName (h : IsName cs) (ds : List Char) : Named (cs ++ ds) := by
  obtain ⟨c, cs, rfl, hc, -⟩ := h
  exact ⟨c, cs ++ ds, rfl, hc⟩

/-- How a text begins does not depend on what follows it. -/
lemma Named.append (h : Named cs) (ds : List Char) : Named (cs ++ ds) := by
  obtain ⟨c, cs, rfl, hc⟩ := h
  exact ⟨c, cs ++ ds, rfl, hc⟩

/-- A text that begins neither with a blank nor with an opening parenthesis. -/
def Unbracketed (cs : List Char) : Prop :=
  ∃ c ds, cs = c :: ds ∧ Text.isBlank c = false ∧ c ≠ '('

/-- There is no gap in front of a text that does not begin with a blank. -/
lemma Unbracketed.starts (h : Unbracketed cs) : Starts cs := by
  obtain ⟨c, cs, rfl, hc, -⟩ := h
  exact ⟨c, cs, rfl, hc⟩

/-- A space ends an operand if no call can follow it. -/
lemma Unbracketed.ends_space (h : Unbracketed cs) : Ends (' ' :: cs) := by
  have hgap : skipGap (' ' :: cs) = cs := by rw [skipGap_space, h.starts.skipGap]
  refine ⟨endsName_cons rfl cs, nofun, ?_⟩
  obtain ⟨c, cs, rfl, -, hc⟩ := h
  rw [hgap]
  simpa using hc

/-- No name begins with a blank or a parenthesis. -/
lemma Named.unbracketed (h : Named cs) : Unbracketed cs := by
  obtain ⟨c, cs, rfl, hc⟩ := h
  refine ⟨c, cs, rfl, Infix.isBlank_of_isNameChar (isNameChar_of_isNameStart hc), ?_⟩
  rintro rfl
  cases hc

/-- The field of an infix condition may be written as a name. -/
lemma IsIdentifier.of_isInfix {c : Condition} (h : c.IsInfix) : IsIdentifier c.field.toList := by
  refine ⟨h.isName, ?_⟩
  intro w hw hfield
  rw [← Text.toList_lower, String.toList_inj] at hfield
  exact h.not_keyword (hfield ▸ hw)

/-- A field and the segments of the path into it. -/
lemma toList_pathText (c : Condition) :
    (pathText c).toList = c.field.toList
      ++ dotted ((c.jsonPath.map fun p => splitList '.' p.toList).getD []) := by
  cases hpath : c.jsonPath with
  | none => simp [pathText, hpath, dotted]
  | some p =>
    obtain ⟨s, segments, hs⟩ := List.exists_cons_of_ne_nil (Text.splitList_ne_nil '.' p.toList)
    have hp := Text.intercalate_splitList '.' p.toList
    rw [hs, Text.intercalate_cons] at hp
    rw [pathText, hpath, Option.map_some, Option.getD_some, hs, dotted, List.flatMap_cons,
      List.append_assoc, hp, String.toList_append, String.toList_append, List.append_assoc]
    rfl

/-- A field with the path into it is no literal and no call. -/
lemma pathText_eq_none {c : Condition} (hc : c.IsInfix) (hrest : Ends rest) :
    literal ((pathText c).toList ++ rest) = none ∧
      application p ((pathText c).toList ++ rest) = none := by
  have hfield := IsIdentifier.of_isInfix hc
  rw [toList_pathText, List.append_assoc]
  generalize (c.jsonPath.map fun p => splitList '.' p.toList).getD [] = segments
  have hends := endsName_dotted segments hrest.name
  refine ⟨literal_identifier hfield hends, application_of_bracket hfield.isName hends ?_⟩
  cases segments with
  | nil => exact hrest.bracket
  | cons s segments => exact nofun

/-- A field with the path into it is recognized as an operand. -/
lemma operand_pathText {c : Condition} (hc : c.IsInfix) (hrest : Ends rest) (n : Nat) :
    operand (n + 1) ((pathText c).toList ++ rest) = some (Infix.pathTerm c, rest) := by
  have hfield := IsIdentifier.of_isInfix hc
  obtain ⟨hliteral, happlication⟩ := pathText_eq_none (p := operand n) hc hrest
  rw [operand, orElse_of_eq_none hliteral, orElse_of_eq_none happlication, toList_pathText,
    List.append_assoc]
  cases hpath : c.jsonPath with
  | none =>
    show (select <|> field) (c.field.toList ++ rest) = _
    rw [orElse_of_eq_none (select_of_dot hfield hrest)]
    refine (bind_of_eq_some (identifier_append hfield hrest.name)).trans ?_
    simp [Infix.pathTerm, hpath]
  | some p =>
    have hselect :=
      select_append hfield (Text.splitList_ne_nil '.' p.toList) (hc.path p hpath) hrest
    refine (orElse_of_eq_some hselect).trans ?_
    simp [Infix.pathTerm, hpath, Text.split]

variable {style : Style} {c : Condition} {v : Value}

/-- No function of a date part is named like a constant. -/
lemma constant?_part (part : DatePart) :
    constant? ((style.part part).toList.map Char.toLower) = none := by
  have hspelling := style.ofSpelling?_part part
  have hword : ∀ word, (DatePart.spellings.find? (·.1.contains word)).map (·.2) = none →
      (style.part part).toList.map Char.toLower ≠ word.toList := by
    intro word hunknown hlower
    rw [← Text.toList_lower, String.toList_inj] at hlower
    rw [Infix.ofSpelling?_of_isName (style.isName_part part) hlower, hunknown] at hspelling
    cases hspelling
  rw [constant?, if_neg (hword "true" (by decide)), if_neg (hword "false" (by decide)),
    if_neg (hword "null" (by decide))]

/-- The path of an infix condition begins with a name. -/
lemma named_pathText (hc : c.IsInfix) : Named (pathText c).toList := by
  rw [toList_pathText]
  exact named_of_isName hc.isName _

variable (style) in
/-- The field of an infix condition begins with a name, be it in a function or not. -/
lemma named_fieldText (hc : c.IsInfix) : Named (fieldText style c).toList := by
  rw [fieldText]
  split
  · exact named_pathText hc
  · next part _ =>
    simp only [String.toList_append]
    exact ((named_of_isName (style.isName_part part) _).append _).append _

variable (style) in
/-- The call on a part of a date. -/
lemma application_part {part : DatePart} (hpart : c.datePart = some part) (hc : c.IsInfix)
    (htakes : Takes Closes p (pathText c).toList (Infix.pathTerm c)) (rest : List Char) :
    application p ((fieldText style c).toList ++ rest) = some (fieldTerm style c, rest) := by
  have hstarts := (named_pathText hc).unbracketed.starts
  have happlication := application_append (style.isName_part part) hstarts htakes .nil rest
  rw [String.ofList_toList] at happlication
  simpa [fieldText, fieldTerm, hpart] using happlication

variable (style) in
/-- The left side of a condition is recognized as an operand. -/
theorem operand_fieldText (hc : c.IsInfix) (hrest : Ends rest) (n : Nat) :
    operand (n + 2) ((fieldText style c).toList ++ rest) = some (fieldTerm style c, rest) := by
  cases hpart : c.datePart with
  | none =>
    have hpath := operand_pathText hc hrest (n + 1)
    rwa [fieldText, fieldTerm, hpart]
  | some part =>
    have hcall := application_part style hpart hc
      (fun rest hrest => ⟨rest, operand_pathText hc hrest.ends n, rfl⟩) rest
    have hliteral : literal ((fieldText style c).toList ++ rest) = none := by
      have hname : EndsName ('(' :: ((pathText c).toList ++ ')' :: rest)) := endsName_cons rfl _
      have h := literal_name (style.isName_part part) hname
      rw [constant?_part] at h
      simpa [fieldText, hpart] using h
    rw [operand, orElse_of_eq_none hliteral]
    exact orElse_of_eq_some hcall

/-- A printed number begins with its sign or with a digit. -/
lemma exists_cons_int (i : Int64) : ∃ c cs, (valueText (.int i)).toList = c :: cs ∧
    (c = '-' ∨ c.isDigit = true) := by
  obtain ⟨d, ds, hds, hd, -⟩ := Number.exists_cons_toDigits i.toInt.natAbs
  rw [valueText, Number.showInt64, Number.toList_toString_int, hds]
  split
  · exact ⟨'-', _, rfl, .inl rfl⟩
  · exact ⟨d, ds, rfl, .inr hd⟩

/-- A printed string begins with a quotation mark. -/
lemma exists_cons_string (s : String) : ∃ cs, (valueText (.string s)).toList = '\'' :: cs := by
  rw [valueText, Infix.quote, String.toList_append, String.toList_append]
  exact ⟨_, rfl⟩

/-- A printed value begins with no parenthesis. -/
lemma unbracketed_valueText (hv : v.IsPlain) : Unbracketed (valueText v).toList := by
  cases v with
  | null => exact ⟨_, _, rfl, by decide, by decide⟩
  | bool b => cases b <;> exact ⟨_, _, rfl, by decide, by decide⟩
  | int i =>
    obtain ⟨c, cs, hcs, rfl | hc⟩ := exists_cons_int i
    · exact ⟨_, cs, hcs, by decide, by decide⟩
    · refine ⟨c, cs, hcs, Infix.isBlank_of_isNameChar ?_, ?_⟩
      · simp [isNameChar, Char.isAlphanum, hc]
      · rintro rfl
        cases hc
  | string s =>
    obtain ⟨cs, hcs⟩ := exists_cons_string s
    exact ⟨_, cs, hcs, by decide, by decide⟩
  | float x => exact hv.elim
  | list vs => exact hv.elim

/-- A value is no call. -/
lemma application_valueText (hv : v.IsPlain) (hrest : Ends rest) :
    application p ((valueText v).toList ++ rest) = none := by
  cases v with
  | null =>
    exact application_of_bracket ⟨_, _, rfl, by decide, by decide⟩ hrest.name hrest.bracket
  | bool b =>
    cases b with
    | true =>
      exact application_of_bracket ⟨_, _, rfl, by decide, by decide⟩ hrest.name hrest.bracket
    | false =>
      exact application_of_bracket ⟨_, _, rfl, by decide, by decide⟩ hrest.name hrest.bracket
  | int i =>
    obtain ⟨c, cs, hcs, hc⟩ := exists_cons_int i
    rw [hcs]
    refine application_of_name (name_of_head ?_)
    rintro d ⟨⟩
    obtain rfl | hc := hc
    · rfl
    · by_contra hstart
      rw [isDigit_of_isNameStart (by simpa using hstart)] at hc
      cases hc
  | string s =>
    obtain ⟨cs, hcs⟩ := exists_cons_string s
    rw [hcs]
    exact application_of_name rfl
  | float x => exact hv.elim
  | list vs => exact hv.elim

/-- A value is recognized as an operand. -/
lemma operand_valueText (hv : v.IsPlain) (hrest : Ends rest) (n : Nat) :
    operand (n + 1) ((valueText v).toList ++ rest) = some (.literal (unresolved v), rest) :=
  orElse_of_eq_some (literal_valueText hv hrest)

/-- No operand stands in front of a closing parenthesis. -/
lemma operand_bracket (n : Nat) (rest : List Char) : operand n (')' :: rest) = none := by
  have hdigit : ∀ c, (')' :: rest).head? = some c → c.isDigit = false := by
    rintro c ⟨⟩
    rfl
  have hsign : (')' :: rest).head? ≠ some '-' := by simp
  obtain ⟨hfloat, hinteger⟩ := number_of_head hsign hdigit
  obtain ⟨hboolean, hnull⟩ := constants_of_endsName (endsName_cons (c := ')') rfl rest)
  have hstring : string (')' :: rest) = none := rfl
  have hliteral : literal (')' :: rest) = none :=
    bind_of_eq_none (orElse_eq_none hfloat (orElse_eq_none hinteger
      (orElse_eq_none hboolean (orElse_eq_none hnull hstring))))
  have hidentifier : identifier (')' :: rest) = none := by
    rw [identifier, bind_apply, absent]
    cases reserved (')' :: rest) <;> rfl
  cases n with
  | zero => rfl
  | succ n =>
    exact orElse_eq_none hliteral (orElse_eq_none (application_of_name rfl)
      (orElse_eq_none (bind_of_eq_none hidentifier) (bind_of_eq_none hidentifier)))

end ReadQuery.Input.Grammar
