import Mathlib.Data.List.Basic
import ReadQuery.Number.Integer
import ReadQuery.Number.Layout

/-!
# Numbers in text

An integer is read from the digits that it is written in (`integer?_toString`). All texts of numbers
are made of a few characters (`scalar_showInt64`, `scalar_text`).
-/

namespace ReadQuery.Number

/-- A printed number begins with a digit and consists of digits. -/
lemma exists_cons_toDigits (n : Nat) : ∃ d ds, Nat.toDigits 10 n = d :: ds ∧
    d.isDigit = true ∧ ∀ c ∈ ds, c.isDigit = true := by
  obtain ⟨d, ds, hds⟩ := List.exists_cons_of_ne_nil (Nat.toDigits_ne_nil (n := n) (b := 10))
  have hdigit : ∀ c ∈ d :: ds, c.isDigit = true := fun c hc =>
    Nat.isDigit_of_mem_toDigits (by decide) (by decide) (hds ▸ hc)
  rw [List.forall_mem_cons] at hdigit
  exact ⟨d, ds, hds, hdigit⟩

/-- A printed number consists of digits. -/
lemma all_toDigits (n : Nat) : (Nat.toDigits 10 n).all Char.isDigit = true :=
  List.all_eq_true.2 fun _ hc => Nat.isDigit_of_mem_toDigits (by decide) (by decide) hc

/-- The value of the digits of a number is the number. -/
lemma digitsValue_toDigits (n : Nat) : digitsValue (Nat.toDigits 10 n) = n :=
  Nat.ofDigitChars_toDigits (by decide) (by decide)

/-- A number is read back from its digits. -/
lemma natural?_toDigits (n : Nat) : natural? (Nat.toDigits 10 n) = some n := by
  obtain ⟨d, ds, hds, -, -⟩ := exists_cons_toDigits n
  rw [natural?, all_toDigits, digitsValue_toDigits, hds]
  rfl

/-- An integer is written as its digits, behind a sign if it is negative. -/
lemma toList_toString_int (i : Int) :
    (toString i).toList = (if i < 0 then ['-'] else []) ++ Nat.toDigits 10 i.natAbs := by
  cases i with
  | ofNat n =>
    have h : ¬ (Int.ofNat n < 0) := by simp
    rw [if_neg h]
    exact Nat.toList_repr
  | negSucc n =>
    rw [if_pos (Int.negSucc_lt_zero n)]
    show ("-" ++ (n + 1).repr).toList = _
    rw [String.toList_append, Nat.toList_repr]
    rfl

/-- An integer is read back from its text. -/
lemma integer?_toString (i : Int) : integer? (toString i).toList = some i := by
  rw [toList_toString_int]
  split
  · next h =>
    rw [List.singleton_append, integer?, natural?_toDigits]
    show some (-(i.natAbs : Int)) = some i
    congr 1
    omega
  · next h =>
    obtain ⟨d, ds, hds, hd, -⟩ := exists_cons_toDigits i.natAbs
    have hnatural := natural?_toDigits i.natAbs
    rw [hds] at hnatural
    rw [List.nil_append, hds]
    unfold integer?
    split
    · next heq =>
      cases heq
      cases hd
    · next heq =>
      cases heq
      cases hd
    · rw [hnatural]
      show some (i.natAbs : Int) = some i
      congr 1
      omega

/-- The characters that numbers and truth values are written with. -/
def isScalarChar (c : Char) : Bool :=
  c.isDigit || c ∈ ".-+NaNinftruefalse".toList

/-- A text of such characters. -/
def Scalar (cs : List Char) : Prop :=
  ∀ c ∈ cs, isScalarChar c = true

/-- Scalars are checked character by character. -/
instance (cs : List Char) : Decidable (Scalar cs) :=
  decidable_of_iff (cs.all isScalarChar = true) List.all_eq_true

/-- Two scalars behind each other. -/
lemma Scalar.append {cs ds : List Char} (h : Scalar cs) (h' : Scalar ds) : Scalar (cs ++ ds) :=
  List.forall_mem_append.2 ⟨h, h'⟩

/-- A part of a scalar is one. -/
lemma Scalar.of_subset {cs ds : List Char} (h : Scalar ds) (hsub : cs ⊆ ds) : Scalar cs :=
  fun c hc => h c (hsub hc)

/-- Zeros are a scalar. -/
lemma scalar_replicate (n : Nat) : Scalar (List.replicate n '0') := by
  intro c hc
  rw [(List.mem_replicate.1 hc).2]
  decide

/-- The digits of a number are a scalar. -/
lemma scalar_toDigits (n : Nat) : Scalar (Nat.toDigits 10 n) := by
  intro c hc
  rw [isScalarChar, Nat.isDigit_of_mem_toDigits (by decide) (by decide) hc, Bool.true_or]

/-- The text of an integer is not empty and has the characters of numbers only. -/
lemma scalar_showInt64 (i : Int64) : Scalar (showInt64 i).toList ∧ (showInt64 i).toList ≠ [] := by
  have hsign : Scalar (if i.toInt < 0 then ['-'] else []) := by split <;> decide
  rw [showInt64, toList_toString_int]
  exact ⟨hsign.append (scalar_toDigits _),
    List.append_ne_nil_of_right_ne_nil _ Nat.toDigits_ne_nil⟩

/-- A number in positional notation is a scalar. -/
lemma scalar_positionalText {digits : List Char} (h : Scalar digits) (whole : Int)
    (keepsPoint : Bool) : Scalar (positionalText digits whole keepsPoint) := by
  have hpoint : Scalar (if keepsPoint then ['.', '0'] else []) := by split <;> decide
  have hstart : Scalar ['0', '.'] := by decide
  have hdot : Scalar ['.'] := by decide
  unfold positionalText
  split
  · exact (hstart.append (scalar_replicate _)).append h
  split
  · exact (h.append (scalar_replicate _)).append hpoint
  · have hback : Scalar (['.'] ++ digits.drop whole.toNat) :=
      hdot.append (h.of_subset (List.drop_subset _ _))
    exact (h.of_subset (List.take_subset _ _)).append hback

/-- A number in positional notation is not empty. -/
lemma positionalText_ne_nil {digits : List Char} (h : digits ≠ []) (whole : Int)
    (keepsPoint : Bool) : positionalText digits whole keepsPoint ≠ [] := by
  unfold positionalText
  split
  · exact List.cons_ne_nil _ _
  split
  · simp [h]
  · simp

/-- A number in scientific notation is a scalar. -/
lemma scalar_scientificText {digits : List Char} (h : Scalar digits) (exponent : Int)
    (plusSign : Bool) : Scalar (scientificText digits exponent plusSign) := by
  have hsign : Scalar (if exponent < 0 then ['-'] else if plusSign then ['+'] else []) := by
    split
    · decide
    · split <;> decide
  have hmark : Scalar ['e'] := by decide
  have hbehind : ∀ {body}, Scalar body → Scalar (body ++
      'e' :: (if exponent < 0 then ['-'] else if plusSign then ['+'] else [])
        ++ Nat.toDigits 10 exponent.natAbs) :=
    fun hbody => (hbody.append (hmark.append hsign)).append (scalar_toDigits _)
  match digits, h with
  | [], _ => exact @hbehind ['0'] (by decide)
  | [d], h => exact hbehind h
  | d :: d' :: ds, h =>
    rw [Scalar, List.forall_mem_cons] at h
    exact hbehind (List.forall_mem_cons.2 ⟨h.1, List.forall_mem_cons.2 ⟨by decide, h.2⟩⟩)

/-- The text of a number is not empty and has the characters of numbers only. -/
lemma scalar_text (l : Layout) (d : Double) :
    Scalar (l.text d).toList ∧ (l.text d).toList ≠ [] := by
  have hmagnitude : Scalar (l.magnitudeText d) ∧ l.magnitudeText d ≠ [] := by
    have hforms : ∀ (b : Bool) (digits : Nat) (exponent : Int),
        Scalar (if b then positionalText (Nat.toDigits 10 digits) (exponent + 1) l.keepsPoint
          else scientificText (Nat.toDigits 10 digits) exponent l.plusSign) ∧
        (if b then positionalText (Nat.toDigits 10 digits) (exponent + 1) l.keepsPoint
          else scientificText (Nat.toDigits 10 digits) exponent l.plusSign) ≠ [] := by
      intro b digits exponent
      cases b with
      | true =>
        exact ⟨scalar_positionalText (scalar_toDigits _) _ _,
          positionalText_ne_nil Nat.toDigits_ne_nil _ _⟩
      | false => exact ⟨scalar_scientificText (scalar_toDigits _) _ _, by simp [scientificText]⟩
    exact hforms _ _ _
  have hsign : Scalar (if d.isNegative then ['-'] else []) := by split <;> decide
  have hbody : Scalar (if d.isFinite then l.magnitudeText d else "inf".toList) ∧
      (if d.isFinite then l.magnitudeText d else "inf".toList) ≠ [] := by
    split
    · exact hmagnitude
    · decide
  unfold Layout.text
  split
  · decide
  · rw [String.toList_ofList]
    exact ⟨hsign.append hbody.1, List.append_ne_nil_of_right_ne_nil _ hbody.2⟩

end ReadQuery.Number
