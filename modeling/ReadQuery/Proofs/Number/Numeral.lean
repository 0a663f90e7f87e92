import ReadQuery.Proofs.Number

/-!
# Numerals

A numeral is an optional minus, digits, an optional fraction and an optional exponent (`IsNumeral`).
The text of an integer is one (`isNumeral_showInt64`), and that of a floating-point number is one
exactly if the number is finite (`isNumeral_text_iff`).
-/

namespace ReadQuery.Number

/-- Digits, of which there is at least one. -/
def IsDigits (cs : List Char) : Prop :=
  cs ≠ [] ∧ ∀ c ∈ cs, c.isDigit = true

/-- The text of an exponent, or no text for none: a letter, an optional sign and digits. -/
inductive IsExponent : List Char → Int → Prop where
  | none : IsExponent [] 0
  | unsigned {letter : Char} {ds : List Char} (hletter : letter.toLower = 'e') (hds : IsDigits ds) :
    IsExponent (letter :: ds) (digitsValue ds)
  | plus {letter : Char} {ds : List Char} (hletter : letter.toLower = 'e') (hds : IsDigits ds) :
    IsExponent (letter :: '+' :: ds) (digitsValue ds)
  | minus {letter : Char} {ds : List Char} (hletter : letter.toLower = 'e') (hds : IsDigits ds) :
    IsExponent (letter :: '-' :: ds) (-(digitsValue ds : Int))

/-- The sign of a numeral. -/
def signText (negative : Bool) : List Char :=
  if negative then ['-'] else []

/-- A numeral, with whatever exponent. -/
inductive IsNumeral : List Char → Prop where
  | whole (negative : Bool) {ds exponent : List Char} {e : Int} (hds : IsDigits ds)
    (hexponent : IsExponent exponent e) : IsNumeral (signText negative ++ ds ++ exponent)
  | fraction (negative : Bool) {ds fraction exponent : List Char} {e : Int} (hds : IsDigits ds)
    (hfraction : IsDigits fraction) (hexponent : IsExponent exponent e) :
    IsNumeral (signText negative ++ ds ++ '.' :: fraction ++ exponent)

/-- A numeral with a fraction, which stands for `± n · 10 ^ e`. -/
inductive IsDecimal : List Char → Bool → Nat → Int → Prop where
  | mk (negative : Bool) {whole fraction exponent : List Char} {e : Int} (hwhole : IsDigits whole)
    (hfraction : IsDigits fraction) (hexponent : IsExponent exponent e) :
    IsDecimal (signText negative ++ whole ++ '.' :: fraction ++ exponent) negative
      (digitsValue (whole ++ fraction)) (e - fraction.length)

variable {cs ds : List Char}

/-- A printed natural number consists of digits. -/
lemma isDigits_toDigits (n : Nat) : IsDigits (Nat.toDigits 10 n) :=
  ⟨Nat.toDigits_ne_nil, List.all_eq_true.1 (all_toDigits n)⟩

/-- Zero is a digit. -/
lemma isDigits_zero : IsDigits ['0'] :=
  isDigits_toDigits 0

/-- Digits behind digits. -/
lemma IsDigits.append (hcs : IsDigits cs) (hds : ∀ d ∈ ds, d.isDigit = true) :
    IsDigits (cs ++ ds) :=
  ⟨List.append_ne_nil_of_left_ne_nil hcs.1 ds, List.forall_mem_append.2 ⟨hcs.2, hds⟩⟩

/-- Zeros are digits. -/
lemma isDigit_of_mem_replicate (n : Nat) : ∀ d ∈ List.replicate n '0', d.isDigit = true := by
  intro d hd
  rw [(List.mem_replicate.1 hd).2]
  rfl

/-- A numeral has a digit. -/
lemma IsNumeral.exists_digit (h : IsNumeral cs) : ∃ c ∈ cs, c.isDigit = true := by
  have hdigits : ∀ {ds}, IsDigits ds → ∃ c ∈ ds, c.isDigit = true := fun hds => by
    obtain ⟨c, hc⟩ := List.exists_mem_of_ne_nil _ hds.1
    exact ⟨c, hc, hds.2 c hc⟩
  cases h with
  | whole negative hds hexponent =>
    obtain ⟨c, hc, hdigit⟩ := hdigits hds
    exact ⟨c, by simp [hc], hdigit⟩
  | fraction negative hds hfraction hexponent =>
    obtain ⟨c, hc, hdigit⟩ := hdigits hds
    exact ⟨c, by simp [hc], hdigit⟩

/-- A printed integer is a numeral. -/
lemma isNumeral_showInt64 (i : Int64) : IsNumeral (showInt64 i).toList := by
  rw [showInt64, toList_toString_int]
  have h := IsNumeral.whole (decide (i.toInt < 0)) (isDigits_toDigits i.toInt.natAbs) .none
  simpa [signText] using h

/-- The magnitude of a number in positional notation. -/
lemma isNumeral_positionalText (negative : Bool) (hds : IsDigits ds) (whole : Int)
    (keepsPoint : Bool) :
    IsNumeral (signText negative ++ positionalText ds whole keepsPoint) := by
  unfold positionalText
  split_ifs with hsmall hgreat hkeeps
  · have hfraction : IsDigits (List.replicate (-whole).toNat '0' ++ ds) :=
      ⟨List.append_ne_nil_of_right_ne_nil _ hds.1,
        List.forall_mem_append.2 ⟨isDigit_of_mem_replicate _, hds.2⟩⟩
    have h := IsNumeral.fraction negative isDigits_zero hfraction .none
    simpa using h
  · have hwhole := hds.append (isDigit_of_mem_replicate (whole.toNat - ds.length))
    have h := IsNumeral.fraction negative hwhole isDigits_zero .none
    simpa using h
  · have hwhole := hds.append (isDigit_of_mem_replicate (whole.toNat - ds.length))
    have h := IsNumeral.whole negative hwhole .none
    simpa using h
  · have hfront : IsDigits (ds.take whole.toNat) := by
      refine ⟨?_, fun d hd => hds.2 d (List.mem_of_mem_take hd)⟩
      rw [Ne, List.take_eq_nil_iff, not_or]
      exact ⟨by omega, hds.1⟩
    have hback : IsDigits (ds.drop whole.toNat) := by
      refine ⟨?_, fun d hd => hds.2 d (List.mem_of_mem_drop hd)⟩
      rw [Ne, List.drop_eq_nil_iff]
      omega
    have h := IsNumeral.fraction negative hfront hback .none
    simpa using h

/-- The exponent behind a magnitude in scientific notation. -/
lemma exists_isExponent (exponent : Int) (plusSign : Bool) :
    ∃ e, IsExponent ('e' :: (if exponent < 0 then ['-'] else if plusSign then ['+'] else [])
      ++ Nat.toDigits 10 exponent.natAbs) e := by
  have hletter : ('e').toLower = 'e' := by decide
  have hdigits := isDigits_toDigits exponent.natAbs
  split_ifs
  · exact ⟨_, .minus hletter hdigits⟩
  · exact ⟨_, .plus hletter hdigits⟩
  · exact ⟨_, .unsigned hletter hdigits⟩

/-- Scientific notation is a numeral. -/
lemma isNumeral_scientificText (negative : Bool) (hds : IsDigits ds) (exponent : Int)
    (plusSign : Bool) :
    IsNumeral (signText negative ++ scientificText ds exponent plusSign) := by
  obtain ⟨e, hexponent⟩ := exists_isExponent exponent plusSign
  match ds, hds with
  | [], hds => exact absurd rfl hds.1
  | [d], hds =>
    have h := IsNumeral.whole negative hds hexponent
    simpa [scientificText] using h
  | d :: d' :: ds, hds =>
    have hall := List.forall_mem_cons.1 hds.2
    have hfront : IsDigits [d] := ⟨List.cons_ne_nil d [], List.forall_mem_singleton.2 hall.1⟩
    have hback : IsDigits (d' :: ds) := ⟨List.cons_ne_nil d' ds, hall.2⟩
    have h := IsNumeral.fraction negative hfront hback hexponent
    simpa [scientificText] using h

/-- A magnitude with its sign in front is a numeral, in either notation. -/
lemma isNumeral_magnitudeText (negative : Bool) (l : Layout) (d : Double) :
    IsNumeral (signText negative ++ l.magnitudeText d) := by
  have hforms : ∀ (positional : Bool) (digits : Nat) (exponent : Int),
      IsNumeral (signText negative ++ if positional
        then positionalText (Nat.toDigits 10 digits) (exponent + 1) l.keepsPoint
        else scientificText (Nat.toDigits 10 digits) exponent l.plusSign) := by
    intro positional digits exponent
    cases positional with
    | true => exact isNumeral_positionalText negative (isDigits_toDigits digits) _ _
    | false => exact isNumeral_scientificText negative (isDigits_toDigits digits) _ _
  exact hforms _ _ _

/-- A number that is not finite is written without digits. -/
lemma text_of_not_isFinite {l : Layout} {d : Double} (h : d.isFinite = false) :
    l.text d = if d.isNaN then "NaN" else if d.isNegative then "-inf" else "inf" := by
  unfold Layout.text
  simp only [h, Bool.false_eq_true, if_false]
  split_ifs <;> rfl

/-- Numbers that are not finite have three texts. -/
lemma text_mem_of_not_isFinite {l : Layout} {d : Double} (h : d.isFinite = false) :
    l.text d ∈ ["NaN", "-inf", "inf"] := by
  rw [text_of_not_isFinite h]
  split_ifs <;> decide

/-- The texts of numbers that are not finite are no numerals. -/
lemma not_isNumeral_of_mem : ∀ s ∈ ["NaN", "-inf", "inf"], ¬ IsNumeral s.toList := by
  have hletters : ∀ s ∈ ["NaN", "-inf", "inf"], ∀ c ∈ s.toList, c.isDigit = false := by simp
  intro s hs h
  obtain ⟨c, hc, hdigit⟩ := h.exists_digit
  rw [hletters s hs c hc] at hdigit
  cases hdigit

/-- The text of a number is a numeral exactly if the number is finite. -/
theorem isNumeral_text_iff {l : Layout} {d : Double} :
    IsNumeral (l.text d).toList ↔ d.isFinite = true := by
  constructor
  · intro h
    by_contra hinfinite
    exact not_isNumeral_of_mem _ (text_mem_of_not_isFinite (eq_false_of_ne_true hinfinite)) h
  · intro h
    have hnumber : d.isNaN = false := by
      have hfinite : d.magnitude < Double.infiniteBits := of_decide_eq_true h
      exact decide_eq_false (Nat.not_lt.2 (Nat.le_of_lt hfinite))
    rw [Layout.text, hnumber, h]
    show IsNumeral (String.ofList _).toList
    rw [String.toList_ofList]
    exact isNumeral_magnitudeText d.isNegative l d

end ReadQuery.Number
