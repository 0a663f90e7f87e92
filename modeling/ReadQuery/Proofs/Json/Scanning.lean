import ReadQuery.Proofs.Json.Reading

/-!
# Finding the structure of a written value

The text of a JSON value without floats is found to have the structure of the value
(`ofList?_text`): the digits of an integer end where something else begins (`scanNumber_toString`),
a string ends at the first quote that is not escaped (`scanString_escape`), and arrays and objects
are found item by item. So an array of values without members is read from its text
(`ofText?_array`).
-/

namespace ReadQuery.Json

open Text (isGap skipGap)
open Number (toList_toString_int exists_cons_toDigits)

/-- Whether a text does not go on with a number that stands in front of it. -/
def EndsNumber (rest : List Char) : Prop :=
  ∀ c ∈ rest.head?, c.isDigit = false ∧ c ≠ '.' ∧ c ≠ 'e' ∧ c ≠ 'E'

/-- The end of the text ends a number. -/
lemma endsNumber_nil : EndsNumber [] := by
  intro c hc
  cases hc

/-- A character that belongs to no number ends one. -/
lemma endsNumber_cons {c : Char} (h : c.isDigit = false ∧ c ≠ '.' ∧ c ≠ 'e' ∧ c ≠ 'E')
    (rest : List Char) : EndsNumber (c :: rest) := by
  rintro _ ⟨⟩
  exact h

variable {rest : List Char}

/-- Digits are taken up to the end of the number. -/
lemma takeDigits_append {ds : List Char} (hds : ∀ c ∈ ds, c.isDigit = true)
    (hrest : EndsNumber rest) : takeDigits (ds ++ rest) = (ds, rest) := by
  have hnone : rest.takeWhile Char.isDigit = [] ∧ rest.dropWhile Char.isDigit = rest := by
    cases rest with
    | nil => exact ⟨rfl, rfl⟩
    | cons c cs =>
      have hc : c.isDigit = false := (hrest c rfl).1
      rw [List.takeWhile_cons, List.dropWhile_cons, hc]
      exact ⟨rfl, rfl⟩
  rw [takeDigits, List.takeWhile_append_of_pos hds, List.dropWhile_append_of_pos hds, hnone.1,
    hnone.2, List.append_nil]

/-- There is no fraction behind the end of a number. -/
lemma scanFraction_of_ends (hrest : EndsNumber rest) : scanFraction rest = ([], rest) := by
  cases rest with
  | nil => rfl
  | cons c cs =>
    obtain ⟨-, hpoint, -⟩ := hrest c rfl
    unfold scanFraction
    split
    · next heq =>
      cases heq
      exact absurd rfl hpoint
    · rfl

/-- There is no exponent behind the end of a number. -/
lemma scanExponent_of_ends (hrest : EndsNumber rest) : scanExponent rest = ([], rest) := by
  cases rest with
  | nil => rfl
  | cons c cs =>
    obtain ⟨-, -, hsmall, hlarge⟩ := hrest c rfl
    simp [scanExponent, hsmall, hlarge]

/-- No number but zero is written with a zero in front. -/
lemma head_toDigits {n : Nat} (hn : n ≠ 0) {d : Char} {ds : List Char}
    (h : Nat.toDigits 10 n = d :: ds) : d ≠ '0' := by
  induction n using Nat.strongRecOn generalizing d ds with
  | ind n ih =>
    rcases Nat.lt_or_ge n 10 with hlt | hge
    · rw [Nat.toDigits_of_lt_base hlt] at h
      obtain ⟨rfl, -⟩ := List.cons.inj h
      revert hn
      have hall : ∀ m < 10, m ≠ 0 → Nat.digitChar m ≠ '0' := by decide
      exact hall n hlt
    · rw [Nat.toDigits_of_base_le (by decide) hge] at h
      obtain ⟨d', ds', hds', -⟩ := exists_cons_toDigits (n / 10)
      rw [hds', List.cons_append] at h
      obtain ⟨rfl, -⟩ := List.cons.inj h
      exact ih (n / 10) (by omega) (by omega) hds'

/-- A printed natural number is scanned whole. -/
lemma scanUnsigned_toDigits (n : Nat) (hrest : EndsNumber rest) :
    scanUnsigned (Nat.toDigits 10 n ++ rest) = some (Nat.toDigits 10 n, rest) := by
  rcases eq_or_ne n 0 with rfl | hn
  · have hzero : Nat.toDigits 10 0 = ['0'] := rfl
    simp [hzero, scanUnsigned, scanFraction_of_ends hrest, scanExponent_of_ends hrest]
  · obtain ⟨d, ds, hds, hd, hall⟩ := exists_cons_toDigits n
    have hzero := head_toDigits hn hds
    have htake := takeDigits_append (List.forall_mem_cons.2 ⟨hd, hall⟩) hrest
    rw [hds]
    unfold scanUnsigned
    split
    · next heq =>
      cases heq
      exact absurd rfl hzero
    · rw [htake]
      simp [scanFraction_of_ends hrest, scanExponent_of_ends hrest]

/-- The text of an integer ends with its last digit. -/
theorem scanNumber_toString (i : Int) (hrest : EndsNumber rest) :
    scanNumber ((toString i).toList ++ rest) = some ((toString i).toList, rest) := by
  rw [toList_toString_int]
  split
  · rw [List.singleton_append, List.cons_append, scanNumber, scanUnsigned_toDigits _ hrest]
    rfl
  · obtain ⟨d, ds, hds, hd, -⟩ := exists_cons_toDigits i.natAbs
    have hscan := scanUnsigned_toDigits i.natAbs hrest
    rw [List.nil_append]
    rw [hds] at hscan ⊢
    unfold scanNumber
    split
    · next heq =>
      cases heq
      cases hd
    · exact hscan

variable {c : Char}

/-- A character that is neither a quote, a backslash nor a control character is kept as it is. -/
lemma scanString_cons (hquote : c ≠ '"') (hslash : c ≠ '\\') (hcontrol : ¬ c.toNat < 0x20)
    (cs : List Char) : scanString (c :: cs) = (scanString cs).map fun p => (c :: p.1, p.2) := by
  rw [scanString.eq_def]
  split
  · next heq => cases heq
  · next heq =>
    cases heq
    exact absurd rfl hquote
  · next heq =>
    cases heq
    exact absurd rfl hslash
  · next heq =>
    cases heq
    exact absurd rfl hslash
  · next heq =>
    cases heq
    exact if_neg (by simp [hslash, hcontrol])

/-- A backslash keeps the letter behind it. -/
lemma scanString_letter (hu : c ≠ 'u') (h : c ∈ "\"\\/bfnrt".toList) (cs : List Char) :
    scanString ('\\' :: c :: cs) = (scanString cs).map fun p => ('\\' :: c :: p.1, p.2) := by
  rw [scanString]
  · exact if_pos (List.contains_iff_mem.2 h)
  · rintro _ _ _ _ _ rfl
    exact absurd rfl hu

/-- Printed digits are hexadecimal digits. -/
lemma isHex_digitChar : ∀ n < 16, isHex (Nat.digitChar n) = true := by decide

/-- An escaped control character is kept as its four digits. -/
lemma scanString_control {n m : Nat} (hn : n < 16) (hm : m < 16) (cs : List Char) :
    scanString ('\\' :: 'u' :: '0' :: '0' :: Nat.digitChar n :: Nat.digitChar m :: cs)
      = (scanString cs).map fun p =>
        ('\\' :: 'u' :: '0' :: '0' :: Nat.digitChar n :: Nat.digitChar m :: p.1, p.2) := by
  have hzero : isHex '0' = true := by decide
  rw [scanString, hzero, isHex_digitChar n hn, isHex_digitChar m hm]
  rfl

/-- A string does not end within the escape of a character. -/
lemma scanString_escapeChar (c : Char) (cs : List Char) :
    scanString (escapeChar c ++ cs)
      = (scanString cs).map fun p => (escapeChar c ++ p.1, p.2) := by
  obtain ⟨d, hd, -, h⟩ | ⟨hcontrol, h⟩ | ⟨hquote, hslash, hcontrol, h⟩ := escapeChar_cases c
  · rw [h]
    exact scanString_letter (ne_u_of_mem hd) hd cs
  · rw [h]
    exact scanString_control (by omega) (by omega) cs
  · rw [h]
    exact scanString_cons hquote hslash hcontrol cs

/-- The escaped text of a string ends at the quote behind it. -/
theorem scanString_escape (cs rest : List Char) :
    scanString (escape cs ++ '"' :: rest) = some (escape cs, rest) := by
  induction cs with
  | nil => rfl
  | cons c cs ih =>
    rw [escape, List.flatMap_cons, List.append_assoc, scanString_escapeChar, ← escape, ih]
    rfl

/-- A JSON value without floats. -/
inductive FloatFree : Json → Prop where
  | null : FloatFree .null
  | bool (b : Bool) : FloatFree (.bool b)
  | int (i : Int) : FloatFree (.int i)
  | string (s : String) : FloatFree (.string s)
  | array {items : List Json} : (∀ j ∈ items, FloatFree j) → FloatFree (.array items)
  | object {members : List (String × Json)} :
    (∀ m ∈ members, FloatFree m.2) → FloatFree (.object members)

/-- Whether a value is found in front of all that does not go on with a number. -/
def Found (j : Json) : Prop :=
  ∀ fuel rest, j.text.toList.length ≤ fuel → EndsNumber rest →
    scanValue fuel (j.text.toList ++ rest) = some (Written.ofJson j, rest)

/-- There is no gap in front of a character that is no blank. -/
lemma skipGap_cons (h : isGap c = false) (cs : List Char) : skipGap (c :: cs) = c :: cs := by
  rw [skipGap, List.dropWhile_cons, h]
  rfl

/-- A number begins with no other character than a minus or a digit. -/
lemma ne_of_number (hc : c = '-' ∨ c.isDigit = true) {d : Char} (hminus : d ≠ '-')
    (hdigit : d.isDigit = false) : c ≠ d := by
  rintro rfl
  rcases hc with rfl | hc
  · exact hminus rfl
  · rw [hdigit] at hc
    cases hc

/-- A number begins with no blank. -/
lemma isGap_of_number (hc : c = '-' ∨ c.isDigit = true) : isGap c = false := by
  have hspace : c ≠ ' ' := ne_of_number hc (by decide) (by decide)
  have htab : c ≠ '\t' := ne_of_number hc (by decide) (by decide)
  have hline : c ≠ '\n' := ne_of_number hc (by decide) (by decide)
  have hreturn : c ≠ '\r' := ne_of_number hc (by decide) (by decide)
  simp [isGap, hspace, htab, hline, hreturn]

/-- What begins with a sign or a digit is read as a number. -/
lemma scanValue_number (hc : c = '-' ∨ c.isDigit = true) (fuel : Nat) (cs : List Char) :
    scanValue (fuel + 1) (c :: cs)
      = (scanNumber (c :: cs)).map fun p => (.number p.1, p.2) := by
  rw [scanValue, skipGap_cons (isGap_of_number hc)]
  split
  all_goals try rfl
  all_goals
    next heq =>
    obtain ⟨rfl, -⟩ := List.cons.inj heq
    exact absurd rfl (ne_of_number hc (by decide) (by decide))

/-- A printed integer begins with a minus or a digit. -/
lemma exists_cons_toString (i : Int) :
    ∃ c cs, (toString i).toList = c :: cs ∧ (c = '-' ∨ c.isDigit = true) := by
  rw [toList_toString_int]
  split
  · exact ⟨'-', _, rfl, .inl rfl⟩
  · obtain ⟨d, ds, hds, hd, -⟩ := exists_cons_toDigits i.natAbs
    exact ⟨d, ds, hds, .inr hd⟩

/-- Integers are found. -/
lemma found_int (i : Int) : Found (.int i) := by
  intro fuel rest hfuel hrest
  have htext : (text (.int i)).toList = (toString i).toList := rfl
  rw [htext] at hfuel ⊢
  have hscan := scanNumber_toString i hrest
  obtain ⟨c, cs, hcs, hc⟩ := exists_cons_toString i
  cases fuel with
  | zero =>
    rw [hcs] at hfuel
    cases hfuel
  | succ fuel =>
    rw [hcs, List.cons_append] at hscan ⊢
    rw [scanValue_number hc, hscan, Option.map_some, Written.ofJson, hcs]

/-- A quoted text begins and ends with a quote. -/
lemma toList_quote (s : String) : (quote s).toList = '"' :: (escape s.toList ++ ['"']) :=
  String.toList_ofList

/-- Strings are found. -/
lemma found_string (s : String) : Found (.string s) := by
  intro fuel rest hfuel hrest
  have htext : (text (.string s)).toList = '"' :: (escape s.toList ++ ['"']) := toList_quote s
  rw [htext] at hfuel ⊢
  cases fuel with
  | zero => cases hfuel
  | succ fuel =>
    rw [List.cons_append, List.append_assoc, scanValue, skipGap_cons (by decide)]
    show (scanString (escape s.toList ++ '"' :: rest)).map _ = _
    rw [scanString_escape]
    rfl

/-- The texts of items are joined by commas. -/
lemma toList_textAll_cons (j k : Json) (js : List Json) :
    (",".intercalate (textAll (j :: k :: js))).toList
      = j.text.toList ++ ',' :: (",".intercalate (textAll (k :: js))).toList := by
  rw [textAll, textAll, String.intercalate_cons_cons, String.toList_append, String.toList_append,
    List.append_assoc]
  rfl

/-- The items of an array are found up to its end. -/
lemma scanItems_textAll {j : Json} {js : List Json} (h : ∀ k ∈ j :: js, Found k) (rest : List Char)
    (fuel : Nat) (hfuel : (",".intercalate (textAll (j :: js))).toList.length < fuel) :
    scanItems fuel ((",".intercalate (textAll (j :: js))).toList ++ ']' :: rest)
      = some (Written.ofJsonAll (j :: js), rest) := by
  have hcomma : ∀ cs, EndsNumber (',' :: cs) := endsNumber_cons (by decide)
  have hend : EndsNumber (']' :: rest) := endsNumber_cons (by decide) rest
  obtain ⟨fuel, rfl⟩ := Nat.exists_eq_add_one_of_ne_zero (Nat.ne_zero_of_lt hfuel)
  induction js generalizing j fuel with
  | nil =>
    have hj := h j List.mem_cons_self
    have htext : (",".intercalate (textAll [j])).toList = j.text.toList := rfl
    rw [htext] at hfuel ⊢
    rw [scanItems, hj fuel _ (Nat.le_of_lt_succ hfuel) hend]
    rfl
  | cons k js ih =>
    have hj := h j List.mem_cons_self
    rw [toList_textAll_cons] at hfuel ⊢
    rw [List.append_assoc, List.cons_append]
    simp only [List.length_append, List.length_cons] at hfuel
    obtain ⟨fuel', rfl⟩ : ∃ fuel', fuel = fuel' + 1 := ⟨fuel - 1, by omega⟩
    rw [scanItems, hj (fuel' + 1) _ (by omega) (hcomma _)]
    show (scanItems (fuel' + 1) _).map _ = _
    rw [ih (fun m hm => h m (List.mem_cons_of_mem j hm)) fuel' (by omega)]
    rfl

/-- The text of an array is that of its items in brackets. -/
lemma toList_text_array (items : List Json) : (text (.array items)).toList
    = '[' :: ((",".intercalate (textAll items)).toList ++ [']']) := by
  rw [text, String.toList_append, String.toList_append, List.append_assoc]
  rfl

/-- The text of an object is that of its members in braces. -/
lemma toList_text_object (members : List (String × Json)) : (text (.object members)).toList
    = '{' :: ((",".intercalate (textMembers members)).toList ++ ['}']) := by
  rw [text, String.toList_append, String.toList_append, List.append_assoc]
  rfl

/-- No value begins with a blank or with the end of an array. -/
lemma FloatFree.exists_cons {j : Json} (h : j.FloatFree) :
    ∃ c cs, j.text.toList = c :: cs ∧ isGap c = false ∧ c ≠ ']' := by
  cases h with
  | null => exact ⟨'n', _, rfl, by decide, by decide⟩
  | bool b =>
    cases b with
    | true => exact ⟨'t', _, rfl, by decide, by decide⟩
    | false => exact ⟨'f', _, rfl, by decide, by decide⟩
  | int i =>
    obtain ⟨c, cs, hcs, hc⟩ := exists_cons_toString i
    exact ⟨c, cs, hcs, isGap_of_number hc, ne_of_number hc (by decide) (by decide)⟩
  | string s => exact ⟨'"', _, toList_quote s, by decide, by decide⟩
  | array => exact ⟨'[', _, toList_text_array _, by decide, by decide⟩
  | object => exact ⟨'{', _, toList_text_object _, by decide, by decide⟩

/-- An array with a first item is scanned as a list of items. -/
lemma scanValue_array (hgap : isGap c = false) (hc : c ≠ ']') (fuel : Nat) (cs : List Char) :
    scanValue (fuel + 1) ('[' :: c :: cs)
      = (scanItems fuel (c :: cs)).map fun p => (.array p.1, p.2) := by
  rw [scanValue, skipGap_cons (by decide)]
  simp only [skipGap_cons hgap]
  split
  · next heq =>
    cases heq
    exact absurd rfl hc
  · rfl

/-- An array is found if its items are. -/
lemma found_array {items : List Json} (hfree : ∀ j ∈ items, j.FloatFree)
    (h : ∀ j ∈ items, Found j) : Found (.array items) := by
  intro fuel rest hfuel hrest
  rw [toList_text_array] at hfuel ⊢
  simp only [List.length_append, List.length_cons] at hfuel
  obtain ⟨fuel, rfl⟩ : ∃ fuel', fuel = fuel' + 1 := ⟨fuel - 1, by omega⟩
  rw [List.cons_append, List.append_assoc, List.singleton_append]
  cases items with
  | nil => rfl
  | cons j js =>
    have hitems := scanItems_textAll h rest fuel (by omega)
    obtain ⟨c, cs, hcs, hgap, hend⟩ := (hfree j List.mem_cons_self).exists_cons
    -- the first character of the first item is the one behind the bracket
    obtain ⟨cs', hcs'⟩ : ∃ cs', (",".intercalate (textAll (j :: js))).toList = c :: cs' := by
      cases js with
      | nil => exact ⟨cs, hcs⟩
      | cons k js =>
        rw [toList_textAll_cons, hcs]
        exact ⟨_, rfl⟩
    rw [hcs', List.cons_append] at hitems ⊢
    rw [scanValue_array hgap hend, hitems]
    rfl

/-- The characters of a member. -/
def memberChars (m : String × Json) : List Char :=
  '"' :: (escape m.1.toList ++ '"' :: ':' :: m.2.text.toList)

/-- The text of a member is its key and its value around a colon. -/
lemma toList_textMember (m : String × Json) :
    (quote m.1 ++ ":" ++ m.2.text).toList = memberChars m := by
  rw [String.toList_append, String.toList_append, toList_quote, memberChars]
  simp

/-- The text of a single member. -/
lemma toList_textMembers_singleton (m : String × Json) :
    (",".intercalate (textMembers [m])).toList = memberChars m := by
  rw [← toList_textMember]
  rfl

/-- The texts of members are joined by commas. -/
lemma toList_textMembers_cons (m n : String × Json) (ms : List (String × Json)) :
    (",".intercalate (textMembers (m :: n :: ms))).toList
      = memberChars m ++ ',' :: (",".intercalate (textMembers (n :: ms))).toList := by
  rw [textMembers, textMembers, String.intercalate_cons_cons, String.toList_append,
    String.toList_append, toList_textMember, List.append_assoc]
  rfl

/-- A member is found, and the character behind it tells whether there are more. -/
lemma scanMembers_member {m : String × Json} (h : Found m.2) {fuel : Nat}
    (hfuel : (memberChars m).length ≤ fuel) (hrest : EndsNumber (c :: rest))
    (hgap : isGap c = false) :
    scanMembers (fuel + 1) (memberChars m ++ c :: rest) =
      if c = ',' then (scanMembers fuel rest).map fun p =>
        ((escape m.1.toList, Written.ofJson m.2) :: p.1, p.2)
      else if c = '}' then some ([(escape m.1.toList, Written.ofJson m.2)], rest) else none := by
  have hcolon : isGap ':' = false := by decide
  simp only [memberChars, List.length_append, List.length_cons] at hfuel
  have hvalue := h fuel (c :: rest) (by omega) hrest
  rw [memberChars, List.cons_append, List.append_assoc, scanMembers, skipGap_cons (by decide)]
  simp only [List.cons_append, scanString_escape, skipGap_cons hcolon, hvalue, skipGap_cons hgap]
  split
  · next heq =>
    cases heq
    rfl
  · next heq =>
    cases heq
    rfl
  · next hcomma hbrace =>
    rw [if_neg fun h => hcomma rest (congrArg (· :: rest) h),
      if_neg fun h => hbrace rest (congrArg (· :: rest) h)]

/-- The members of an object are found up to its end. -/
lemma scanMembers_textMembers {m : String × Json} {ms : List (String × Json)}
    (h : ∀ n ∈ m :: ms, Found n.2) (rest : List Char) (fuel : Nat)
    (hfuel : (",".intercalate (textMembers (m :: ms))).toList.length < fuel) :
    scanMembers fuel ((",".intercalate (textMembers (m :: ms))).toList ++ '}' :: rest)
      = some (Written.ofJsonMembers (m :: ms), rest) := by
  have hcomma : ∀ cs, EndsNumber (',' :: cs) := endsNumber_cons (by decide)
  have hend : EndsNumber ('}' :: rest) := endsNumber_cons (by decide) rest
  obtain ⟨fuel, rfl⟩ := Nat.exists_eq_add_one_of_ne_zero (Nat.ne_zero_of_lt hfuel)
  induction ms generalizing m fuel with
  | nil =>
    have hm := h m List.mem_cons_self
    rw [toList_textMembers_singleton] at hfuel ⊢
    rw [scanMembers_member hm (Nat.le_of_lt_succ hfuel) hend (by decide), if_neg (by decide),
      if_pos rfl]
    rfl
  | cons n ms ih =>
    have hm := h m List.mem_cons_self
    rw [toList_textMembers_cons] at hfuel ⊢
    simp only [List.length_append, List.length_cons] at hfuel
    obtain ⟨fuel', rfl⟩ : ∃ fuel', fuel = fuel' + 1 := ⟨fuel - 1, by omega⟩
    rw [List.append_assoc, List.cons_append,
      scanMembers_member hm (by omega) (hcomma _) (by decide), if_pos rfl,
      ih (fun n hn => h n (List.mem_cons_of_mem m hn)) fuel' (by omega)]
    rfl

/-- An object with a first member is scanned as a list of members. -/
lemma scanValue_object (fuel : Nat) (cs : List Char) :
    scanValue (fuel + 1) ('{' :: '"' :: cs)
      = (scanMembers fuel ('"' :: cs)).map fun p => (.object p.1, p.2) :=
  rfl

/-- An object is found if the values of its members are. -/
lemma found_object {members : List (String × Json)} (h : ∀ m ∈ members, Found m.2) :
    Found (.object members) := by
  intro fuel rest hfuel hrest
  rw [toList_text_object] at hfuel ⊢
  simp only [List.length_append, List.length_cons] at hfuel
  obtain ⟨fuel, rfl⟩ : ∃ fuel', fuel = fuel' + 1 := ⟨fuel - 1, by omega⟩
  rw [List.cons_append, List.append_assoc, List.singleton_append]
  cases members with
  | nil => rfl
  | cons m ms =>
    have hmembers := scanMembers_textMembers h rest fuel (by omega)
    obtain ⟨cs, hcs⟩ : ∃ cs, (",".intercalate (textMembers (m :: ms))).toList = '"' :: cs := by
      cases ms with
      | nil => exact ⟨_, toList_textMembers_singleton m⟩
      | cons n ms =>
        rw [toList_textMembers_cons]
        exact ⟨_, rfl⟩
    rw [hcs, List.cons_append] at hmembers ⊢
    rw [scanValue_object, hmembers]
    rfl

/-- Every value without floats is found. -/
lemma FloatFree.found {j : Json} (h : j.FloatFree) : Found j := by
  induction h with
  | null =>
    intro fuel rest hfuel hrest
    cases fuel with
    | zero => cases hfuel
    | succ fuel => rfl
  | bool b =>
    intro fuel rest hfuel hrest
    cases fuel with
    | zero => cases b <;> cases hfuel
    | succ fuel => cases b <;> rfl
  | int i => exact found_int i
  | string s => exact found_string s
  | array hfree ih => exact found_array hfree ih
  | object hfree ih => exact found_object ih

/-- The text of a value without floats has the structure of the value. -/
theorem ofList?_text {j : Json} (h : j.FloatFree) :
    Written.ofList? j.text.toList = some (Written.ofJson j) := by
  have hscan := h.found (2 * j.text.toList.length + 2) [] (by omega) endsNumber_nil
  rw [List.append_nil] at hscan
  rw [Written.ofList?, hscan]
  rfl

/-- Scalars are read back from what is written of them, at any depth. -/
lemma Written.readAll?_ofJsonAll {items : List Json} (h : ∀ j ∈ items, j.IsScalar) (depth : Nat) :
    readAll? depth (ofJsonAll items) = some items := by
  induction items with
  | nil => rfl
  | cons j items ih =>
    rw [List.forall_mem_cons] at h
    rw [ofJsonAll, readAll?, read?_ofJson h.1, Option.bind_some, ih h.2, Option.map_some]

/-- An array of values without members is read from its text. -/
theorem ofText?_array {items : List Json} (hscalar : ∀ j ∈ items, j.IsScalar)
    (hfree : ∀ j ∈ items, j.FloatFree) :
    ofText? (Json.array items).text = some (.array items) := by
  have hdepth : maxDepth ≠ 0 := by decide
  rw [ofText?, ofList?_text (.array hfree), Option.bind_some, Written.ofJson, Written.read?,
    if_neg hdepth, Written.readAll?_ofJsonAll hscalar, Option.map_some]

end ReadQuery.Json
