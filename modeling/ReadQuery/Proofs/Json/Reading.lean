import Mathlib.Tactic.SplitIfs
import ReadQuery.Json.Record
import ReadQuery.Proofs.Number

/-!
# Reading JSON back

A JSON value written as its own text is read as the value again: the characters of a string are
found behind their escapes (`unescape_escape`), an integer in its digits (`readNumber?_toString`),
and so every value without members (`read?_ofJson`).
-/

namespace ReadQuery.Json

open Number (toList_toString_int exists_cons_toDigits all_toDigits digitsValue_toDigits)

variable {c : Char}

/-- A character other than a backslash stands for itself. -/
lemma unescape_cons (h : c ≠ '\\') (cs : List Char) :
    unescape (c :: cs) = (unescape cs).map (c :: ·) := by
  rw [unescape]
  · rintro _ _ _ _ _ rfl
    exact absurd rfl h
  · rintro _ _ rfl
    exact absurd rfl h

/-- A backslash and a letter stand for one character. -/
lemma unescape_letter (h : c ≠ 'u') (cs : List Char) :
    unescape ('\\' :: c :: cs) = (unescape cs).map (unescapeLetter c :: ·) := by
  rw [unescape]
  rintro _ _ _ _ _ rfl
  exact absurd rfl h

/-- The value of a printed hexadecimal digit. -/
lemma hexValue_digitChar : ∀ n < 16, hexValue (Nat.digitChar n) = n := by decide

/-- A control character is read back from its four digits. -/
lemma unescape_control (h : c.toNat < 0x20) (cs : List Char) :
    unescape ('\\' :: 'u' :: '0' :: '0' :: Nat.digitChar (c.toNat / 16)
      :: Nat.digitChar (c.toNat % 16) :: cs) = (unescape cs).map (c :: ·) := by
  have hvalue : hexValue4 '0' '0' (Nat.digitChar (c.toNat / 16)) (Nat.digitChar (c.toNat % 16))
      = c.toNat := by
    have hzero : hexValue '0' = 0 := by decide
    rw [hexValue4, hzero, hexValue_digitChar _ (by omega), hexValue_digitChar _ (by omega)]
    omega
  -- a control is no half of a surrogate pair
  rw [unescape.eq_def]
  simp only [hvalue]
  rw [if_neg (by simp; omega), if_neg (by simp; omega), Char.ofNat_toNat]

/-- A character is escaped by a letter, as a control, or not at all. -/
lemma escapeChar_cases (c : Char) :
    (∃ d ∈ "\"\\/bfnrt".toList, unescapeLetter d = c ∧ escapeChar c = ['\\', d]) ∨
      (c.toNat < 0x20 ∧ escapeChar c = ['\\', 'u', '0', '0', Nat.digitChar (c.toNat / 16),
        Nat.digitChar (c.toNat % 16)]) ∨
      (c ≠ '"' ∧ c ≠ '\\' ∧ ¬ c.toNat < 0x20 ∧ escapeChar c = [c]) := by
  obtain ⟨es, hes⟩ : ∃ es, escapeChar c = es := ⟨_, rfl⟩
  simp only [hes]
  unfold escapeChar at hes
  split_ifs at hes with hquote hslash hback hfeed hline hreturn htab hcontrol
  · exact .inl ⟨'"', by decide, (eq_of_beq hquote).symm, hes.symm⟩
  · exact .inl ⟨'\\', by decide, (eq_of_beq hslash).symm, hes.symm⟩
  · exact .inl ⟨'b', by decide, (eq_of_beq hback).symm, hes.symm⟩
  · exact .inl ⟨'f', by decide, (eq_of_beq hfeed).symm, hes.symm⟩
  · exact .inl ⟨'n', by decide, (eq_of_beq hline).symm, hes.symm⟩
  · exact .inl ⟨'r', by decide, (eq_of_beq hreturn).symm, hes.symm⟩
  · exact .inl ⟨'t', by decide, (eq_of_beq htab).symm, hes.symm⟩
  · exact .inr (.inl ⟨hcontrol, hes.symm⟩)
  · exact .inr (.inr ⟨by simpa using hquote, by simpa using hslash, hcontrol, hes.symm⟩)

/-- None of the letters that escape one character is the one of four digits. -/
lemma ne_u_of_mem (h : c ∈ "\"\\/bfnrt".toList) : c ≠ 'u' := by
  rintro rfl
  exact absurd h (by decide)

/-- The escape of a character stands for the character. -/
lemma unescape_escapeChar (c : Char) (cs : List Char) :
    unescape (escapeChar c ++ cs) = (unescape cs).map (c :: ·) := by
  obtain ⟨d, hd, hc, h⟩ | ⟨hcontrol, h⟩ | ⟨-, hslash, -, h⟩ := escapeChar_cases c
  · rw [h, ← hc]
    exact unescape_letter (ne_u_of_mem hd) cs
  · rw [h]
    exact unescape_control hcontrol cs
  · rw [h]
    exact unescape_cons hslash cs

/-- Every text is read back from its escaped form. -/
theorem unescape_escape (cs : List Char) : unescape (escape cs) = some cs := by
  induction cs with
  | nil => rfl
  | cons c cs ih =>
    rw [escape, List.flatMap_cons, unescape_escapeChar, ← escape, ih, Option.map_some]

/-- Whether an integer is one of JSON; integers outside are floats. -/
def InRange (i : Int) : Prop :=
  Number.minInt64 ≤ i ∧ i < UInt64.size

/-- Integers of 64 bits are in the range. -/
lemma inRange_toInt (i : Int64) : InRange i.toInt := by
  have hl := i.le_toInt
  have hu := i.toInt_lt
  constructor
  · rw [Number.minInt64]
    omega
  · rw [UInt64.size]
    omega

/-- Digits in the range are read as a natural number. -/
lemma readNumber?_digits {n : Nat} (h : n < UInt64.size) :
    readNumber? (Nat.toDigits 10 n) = some (.int n) := by
  obtain ⟨d, ds, hds, hd, -⟩ := exists_cons_toDigits n
  have hall := all_toDigits n
  have hvalue := digitsValue_toDigits n
  rw [hds] at hall hvalue ⊢
  unfold readNumber?
  split
  next negative digits heq =>
  split at heq
  · next hminus =>
    obtain ⟨rfl, -⟩ := List.cons.inj hminus
    cases hd
  · cases heq
    simp only [hall, hvalue, Bool.not_false, Bool.and_self, Bool.true_and]
    exact if_pos (decide_eq_true h)

/-- A minus and digits in the range are read as a negative number. -/
lemma readNumber?_minus {n : Nat} (hne : n ≠ 0) (h : n ≤ Nat.pow 2 63) :
    readNumber? ('-' :: Nat.toDigits 10 n) = some (.int (-n)) := by
  simp [readNumber?, all_toDigits, digitsValue_toDigits, hne]
  exact h

/-- Integers in the range are read back from their texts. -/
theorem readNumber?_toString {i : Int} (h : InRange i) :
    readNumber? (toString i).toList = some (.int i) := by
  rw [toList_toString_int]
  obtain ⟨hl, hu⟩ := h
  split
  · next hneg =>
    have hi : -(i.natAbs : Int) = i := by omega
    have hbound : i.natAbs ≤ Nat.pow 2 63 := by
      rw [Number.minInt64] at hl
      show i.natAbs ≤ 9223372036854775808
      omega
    rw [List.singleton_append, readNumber?_minus (by omega) hbound, hi]
  · next hneg =>
    have hi : (i.natAbs : Int) = i := by omega
    rw [List.nil_append, readNumber?_digits (by omega), hi]

/-- A JSON value that is neither an array nor an object. -/
def IsScalar : Json → Prop
  | .null | .bool _ | .float _ | .string _ => True
  | .int i => InRange i
  | .array _ | .object _ => False

/-- Scalars are read back from what is written of them, at any depth. -/
theorem Written.read?_ofJson {j : Json} (h : j.IsScalar) (depth : Nat) :
    (Written.ofJson j).read? depth = some j := by
  cases j with
  | null | bool | float => rfl
  | int i => exact readNumber?_toString h
  | string s =>
    show (unescape (escape s.toList)).map _ = _
    rw [unescape_escape, Option.map_some, String.ofList_toList]
  | array | object => cases h

/-- No array is a number. -/
lemma readNumber?_ne_array (cs : List Char) (items : List Json) :
    readNumber? cs ≠ some (.array items) := by
  unfold readNumber?
  split
  dsimp only
  split_ifs <;> simp

/-- Only what is written as an array is read as one. -/
lemma Written.of_read?_array {w : Written} {depth : Nat} {items : List Json}
    (h : w.read? depth = some (.array items)) :
    ∃ ws, w = .array ws ∧ readAll? (depth - 1) ws = some items := by
  cases w with
  | null | bool | float => cases h
  | number cs => exact absurd h (readNumber?_ne_array cs items)
  | string body =>
    obtain ⟨cs, -, heq⟩ := Option.map_eq_some_iff.1 h
    cases heq
  | array ws =>
    rw [read?, Option.ite_none_left_eq_some] at h
    obtain ⟨js, hws, heq⟩ := Option.map_eq_some_iff.1 h.2
    cases heq
    exact ⟨ws, rfl, hws⟩
  | object members =>
    rw [read?, Option.ite_none_left_eq_some] at h
    obtain ⟨ms, -, heq⟩ := Option.map_eq_some_iff.1 h.2
    cases heq

end ReadQuery.Json
