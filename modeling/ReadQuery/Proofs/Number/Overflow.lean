import Mathlib.Algebra.Order.Field.Power
import Mathlib.Data.Rat.Cast.Order
import Mathlib.Tactic.Linarith
import Mathlib.Tactic.NormNum
import Mathlib.Tactic.Positivity
import Mathlib.Tactic.Ring
import ReadQuery.Number.Double

/-!
# Overflow of decimals

Which decimals are too great for a floating-point number. A fraction is cut to 53 bits below the
greatest power of two that is at most the fraction (`leadingPower`), and rounding makes it infinite
from the midpoint between the greatest finite number and `2 ^ 1024` on (`nearestBits_lt_iff`).

So the number nearest to `n · 10 ^ e` is never a NaN (`isNaN_ofDecimal`), and it is finite exactly
below that midpoint (`isFinite_ofDecimal_iff`).
-/

namespace ReadQuery.Number.Double

variable {num den N : Nat} {q e : Int}

/-- Rounding by twice the remainder: down, up, or to the even neighbour in the middle. -/
lemma roundEven_eq (num den : Nat) :
    roundEven num den = if 2 * (num % den) < den then num / den
      else if den < 2 * (num % den) then num / den + 1 else num / den + num / den % 2 := rfl

/-- Rounding goes up by one at most. -/
lemma roundEven_le_succ (num den : Nat) : roundEven num den ≤ num / den + 1 := by
  rw [roundEven_eq]
  split_ifs <;> omega

/-- Rounding does not go below an integer that the fraction has reached. -/
lemma le_roundEven (hden : 0 < den) (h : N * den ≤ num) : N ≤ roundEven num den := by
  have hquotient : N ≤ num / den := (Nat.le_div_iff_mul_le hden).2 h
  rw [roundEven_eq]
  split_ifs <;> omega

/-- Below an even number is what is nearer to the number in front of it. -/
lemma roundEven_lt_iff (hden : 0 < den) (hN : N % 2 = 0) (hpos : 0 < N) :
    roundEven num den < N ↔ 2 * num < (2 * N - 1) * den := by
  have hnum : den * (num / den) + num % den = num := Nat.div_add_mod num den
  have hrest : num % den < den := Nat.mod_lt num hden
  have hquotient : ∀ m, m ≤ num / den ↔ m * den ≤ num := fun m => Nat.le_div_iff_mul_le hden
  obtain ⟨k, rfl⟩ : ∃ k, N = k + 1 := ⟨N - 1, by omega⟩
  have hodd : (2 * (k + 1) - 1) * den = 2 * (k * den) + den := by
    rw [show 2 * (k + 1) - 1 = 2 * k + 1 by omega]
    ring
  rw [hodd]
  rcases Nat.lt_trichotomy (num / den) k with hlt | heq | hgt
  · have hsmall : num < k * den := Nat.lt_of_not_le fun h => absurd ((hquotient k).2 h) (by omega)
    have hround := roundEven_le_succ num den
    constructor <;> intro _ <;> omega
  · rw [heq, Nat.mul_comm] at hnum
    rw [roundEven_eq, heq]
    split_ifs <;> omega
  · have hgreat : (k + 1) * den ≤ num := (hquotient (k + 1)).1 hgt
    have hround := le_roundEven hden hgreat
    rw [Nat.add_mul] at hgreat
    constructor <;> intro _ <;> omega

/-- Rounding does not go above an integer that the fraction has not passed. -/
lemma roundEven_le (hden : 0 < den) (h : num ≤ N * den) : roundEven num den ≤ N := by
  have hnum : den * (num / den) + num % den = num := Nat.div_add_mod num den
  have hrest : num % den < den := Nat.mod_lt num hden
  have hround := roundEven_le_succ num den
  rcases Nat.lt_or_ge (num / den) N with hlt | hge
  · omega
  · have hexact : N * den ≤ num := (Nat.le_div_iff_mul_le hden).1 hge
    have heq : num = N * den := Nat.le_antisymm h hexact
    have hquotient : num / den = N := by rw [heq, Nat.mul_div_cancel N hden]
    have hzero : num % den = 0 := by rw [heq, Nat.mul_mod_left]
    rw [roundEven_eq, hquotient, hzero, if_pos (by omega)]

/-- The comparison with a power of two, on integers, is the one of the fraction. -/
lemma powerBelow_iff (hden : 0 < den) :
    powerBelow num den e = true ↔ (2 : ℚ) ^ e ≤ num / den := by
  have hden' : (0 : ℚ) < den := by exact_mod_cast hden
  rw [le_div_iff₀ hden', powerBelow]
  cases e with
  | ofNat n =>
    have hsign : (0 : Int) ≤ Int.ofNat n := Int.natCast_nonneg n
    rw [if_pos hsign, decide_eq_true_iff, Int.ofNat_eq_natCast, Int.toNat_natCast, zpow_natCast,
      Nat.mul_comm]
    exact_mod_cast Iff.rfl
  | negSucc n =>
    have hsign : ¬ (0 : Int) ≤ Int.negSucc n := by simp
    rw [if_neg hsign, decide_eq_true_iff, Int.neg_negSucc, Int.toNat_natCast, zpow_negSucc,
      inv_mul_le_iff₀ (by positivity), mul_comm]
    exact_mod_cast Iff.rfl

/-- The exponent of the greatest power of two that is at most a fraction. -/
def leadingPower (num den : Nat) : Int :=
  let e : Int := (num.log2 : Int) - den.log2
  if powerBelow num den e then e else e - 1

/-- The logarithm is the exponent of the greatest power of two that is at most the number. -/
lemma log2_bounds {n : Nat} (h : 0 < n) :
    (2 : ℚ) ^ (n.log2 : Int) ≤ n ∧ (n : ℚ) < 2 ^ (n.log2 + 1 : Int) := by
  have hle : 2 ^ n.log2 ≤ n := Nat.log2_self_le h.ne'
  have hlt : n < 2 ^ (n.log2 + 1) := Nat.lt_log2_self
  constructor
  · exact_mod_cast hle
  · exact_mod_cast hlt

/-- A fraction is between its leading power of two and the next one. -/
lemma leadingPower_bounds (hnum : 0 < num) (hden : 0 < den) :
    (2 : ℚ) ^ leadingPower num den ≤ num / den ∧
      (num / den : ℚ) < 2 ^ (leadingPower num den + 1) := by
  obtain ⟨hnum_le, hnum_lt⟩ := log2_bounds hnum
  obtain ⟨hden_le, hden_lt⟩ := log2_bounds hden
  have hden' : (0 : ℚ) < den := by exact_mod_cast hden
  have hbelow : (2 : ℚ) ^ ((num.log2 : Int) - den.log2 - 1) ≤ num / den := by
    rw [sub_sub, zpow_sub₀ two_ne_zero]
    exact div_le_div₀ (Nat.cast_nonneg num) hnum_le hden' hden_lt.le
  have habove : (num / den : ℚ) < 2 ^ ((num.log2 : Int) - den.log2 + 1) := by
    rw [sub_add_eq_add_sub, zpow_sub₀ two_ne_zero]
    exact div_lt_div₀ hnum_lt hden_le (by positivity) (by positivity)
  unfold leadingPower
  by_cases h : powerBelow num den ((num.log2 : Int) - den.log2) = true
  · rw [if_pos h]
    exact ⟨(powerBelow_iff hden).1 h, habove⟩
  · rw [if_neg h, sub_add_cancel]
    exact ⟨hbelow, not_le.1 fun hle => h ((powerBelow_iff hden).2 hle)⟩

/-- A significand is a fraction divided by a power of two and rounded. -/
lemma exists_significand_eq (hden : 0 < den) (num : Nat) (q : Int) :
    ∃ num' den' : Nat, 0 < den' ∧ significand num den q = roundEven num' den' ∧
      (num' / den' : ℚ) = num / den / 2 ^ q := by
  unfold significand
  cases q with
  | ofNat n =>
    have hsign : (0 : Int) ≤ Int.ofNat n := Int.natCast_nonneg n
    rw [if_pos hsign]
    refine ⟨num, den * 2 ^ n, Nat.mul_pos hden (Nat.two_pow_pos n), rfl, ?_⟩
    rw [Int.ofNat_eq_natCast, zpow_natCast, div_div]
    push_cast
    rfl
  | negSucc n =>
    have hsign : ¬ (0 : Int) ≤ Int.negSucc n := by simp
    rw [if_neg hsign]
    refine ⟨num * 2 ^ (n + 1), den, hden, rfl, ?_⟩
    rw [zpow_negSucc, div_inv_eq_mul]
    push_cast
    ring

/-- A significand does not go above an integer that the fraction has not passed. -/
lemma significand_le (hden : 0 < den) (h : (num / den : ℚ) ≤ N * 2 ^ q) :
    significand num den q ≤ N := by
  obtain ⟨num', den', hden', hround, hratio⟩ := exists_significand_eq hden num q
  rw [← div_le_iff₀ (by positivity), ← hratio, div_le_iff₀ (by exact_mod_cast hden')] at h
  rw [hround]
  exact roundEven_le hden' (by exact_mod_cast h)

/-- A significand does not go below an integer that the fraction has reached. -/
lemma le_significand (hden : 0 < den) (h : (N * 2 ^ q : ℚ) ≤ num / den) :
    N ≤ significand num den q := by
  obtain ⟨num', den', hden', hround, hratio⟩ := exists_significand_eq hden num q
  rw [← le_div_iff₀ (by positivity), ← hratio, le_div_iff₀ (by exact_mod_cast hden')] at h
  rw [hround]
  exact le_roundEven hden' (by exact_mod_cast h)

/-- A significand is below an even integer if the fraction is below the middle in front of it. -/
lemma significand_lt_iff (hden : 0 < den) (hN : N % 2 = 0) (hpos : 0 < N) :
    significand num den q < N ↔ (2 * (num / den) : ℚ) < (2 * N - 1) * 2 ^ q := by
  obtain ⟨num', den', hden', hround, hratio⟩ := exists_significand_eq hden num q
  have hcast : (0 : ℚ) < den' := by exact_mod_cast hden'
  have hfraction : (num' : ℚ) = num / den / 2 ^ q * den' := by
    rw [← hratio, div_mul_cancel₀ _ hcast.ne']
  rw [hround, roundEven_lt_iff hden' hN hpos, ← div_lt_iff₀ (by positivity), mul_div_assoc,
    ← hratio, ← mul_div_assoc, div_lt_iff₀ hcast]
  have hN' : ((2 * N - 1 : ℕ) : ℚ) = 2 * N - 1 := by
    rw [Nat.cast_sub (by omega)]
    push_cast
    rfl
  rw [← hN']
  exact_mod_cast Iff.rfl

/-- The bits of the number that a fraction is rounded to in units of a power of two, if they are not
too great. -/
def placedBits (num den : Nat) (q : Int) : Nat :=
  (q + 1074).toNat * 2 ^ 52 + significand num den q

/-- The nearest bits are the placed ones, or those of infinity if that is less. -/
lemma nearestBits_eq (hnum : num ≠ 0) :
    nearestBits num den
      = min (placedBits num den (max (leadingPower num den - 52) (-1074))) infiniteBits :=
  if_neg hnum

/-- No number has greater bits than infinity. -/
lemma nearestBits_le (num den : Nat) : nearestBits num den ≤ infiniteBits := by
  rcases Nat.eq_zero_or_pos num with rfl | hnum
  · exact Nat.zero_le infiniteBits
  · rw [nearestBits_eq hnum.ne']
    exact min_le_right _ _

/-- A power of two with a sum in the exponent. -/
lemma two_zpow_add (m : Nat) (q : Int) : (2 : ℚ) ^ (q + m) = (2 ^ m : Nat) * 2 ^ q := by
  rw [zpow_add₀ two_ne_zero, zpow_natCast, mul_comm]
  push_cast
  rfl

/-- The midpoint between the greatest finite number and the power of two behind it, in units of its
last digit. -/
lemma midpoint_eq : (2 ^ 1024 - 2 ^ 970 : ℚ) = (2 ^ 54 - 1) * 2 ^ 970 := by
  rw [sub_mul, ← pow_add, one_mul]

/-- Below the last power of two the significand may be rounded up to a power of two, but not to the
last one. -/
lemma placedBits_lt_of_small (hden : 0 < den) (hlt : (num / den : ℚ) < 2 ^ (e + 1))
    (hsmall : e < 1023) :
    placedBits num den (max (e - 52) (-1074)) < infiniteBits ∧
      (num / den : ℚ) < 2 ^ 1024 - 2 ^ 970 := by
  constructor
  · have hinfinite : infiniteBits = 2047 * 2 ^ 52 := rfl
    generalize hq : max (e - 52) (-1074) = q
    have hsignificand : significand num den q ≤ 2 ^ 53 := by
      apply significand_le hden
      rw [← two_zpow_add]
      apply hlt.le.trans
      exact zpow_le_zpow_right₀ one_le_two (by omega)
    have hexponent : (q + 1074).toNat ≤ 2044 := by omega
    rw [placedBits]
    omega
  · have hpower : (2 : ℚ) ^ (e + 1) ≤ 2 ^ (970 + (53 : Nat) : Int) :=
      zpow_le_zpow_right₀ one_le_two (by omega)
    apply (hlt.trans_le hpower).trans
    rw [midpoint_eq, two_zpow_add]
    exact mul_lt_mul_of_pos_right (by norm_num) (by positivity)

/-- At the last power of two the significand decides. -/
lemma placedBits_lt_iff (hden : 0 < den) :
    placedBits num den 971 < infiniteBits ↔ (num / den : ℚ) < 2 ^ 1024 - 2 ^ 970 := by
  have hbits : placedBits num den 971 < infiniteBits ↔ significand num den 971 < 2 ^ 53 := by
    have hinfinite : infiniteBits = 2047 * 2 ^ 52 := rfl
    rw [placedBits]
    omega
  have hmidpoint : ((2 * (2 ^ 53 : Nat) - 1) * 2 ^ (971 : Int) : ℚ)
      = 2 * ((2 ^ 54 - 1) * 2 ^ 970) := by
    rw [zpow_ofNat, pow_succ' 2 970, ← mul_assoc, ← mul_assoc]
    norm_num
  rw [hbits, significand_lt_iff hden (by norm_num) (by norm_num), hmidpoint, midpoint_eq]
  exact mul_lt_mul_iff_right₀ two_pos

/-- Above the last power of two there are no finite numbers. -/
lemma infiniteBits_le_placedBits (hden : 0 < den) (hle : (2 : ℚ) ^ e ≤ num / den)
    (hgreat : 1023 < e) :
    infiniteBits ≤ placedBits num den (max (e - 52) (-1074)) ∧
      (2 ^ 1024 - 2 ^ 970 : ℚ) ≤ num / den := by
  constructor
  · have hinfinite : infiniteBits = 2047 * 2 ^ 52 := rfl
    have hq : max (e - 52) (-1074) = e - 52 := by omega
    have hsignificand : 2 ^ 52 ≤ significand num den (e - 52) := by
      apply le_significand hden
      rw [← two_zpow_add]
      convert hle using 2
      omega
    rw [hq, placedBits]
    omega
  · have hpower : (2 : ℚ) ^ (970 + (54 : Nat) : Int) ≤ 2 ^ e :=
      zpow_le_zpow_right₀ one_le_two (by omega)
    apply le_trans _ (hpower.trans hle)
    rw [midpoint_eq, two_zpow_add]
    exact mul_le_mul_of_nonneg_right (by norm_num) (by positivity)

/-- The middle between the greatest number and infinity is greater than one. -/
lemma one_lt_midpoint : (1 : ℚ) < 2 ^ 1024 - 2 ^ 970 := by
  have hunit : (1 : ℚ) ≤ 2 ^ 970 := one_le_pow₀ one_le_two
  rw [midpoint_eq]
  exact one_lt_mul_of_lt_of_le (by norm_num) hunit

/-- The bits of the number nearest to a fraction are those of a finite number exactly below the
midpoint between the greatest finite number and the power of two behind it. -/
theorem nearestBits_lt_iff (hden : 0 < den) :
    nearestBits num den < infiniteBits ↔ (num / den : ℚ) < 2 ^ 1024 - 2 ^ 970 := by
  rcases Nat.eq_zero_or_pos num with rfl | hnum
  · have hbits : nearestBits 0 den < infiniteBits := Nat.succ_pos _
    have hratio : ((0 : Nat) / den : ℚ) < 2 ^ 1024 - 2 ^ 970 := by
      rw [Nat.cast_zero, zero_div]
      exact one_pos.trans one_lt_midpoint
    exact iff_of_true hbits hratio
  rw [nearestBits_eq hnum.ne', min_lt_iff, or_iff_left (lt_irrefl _)]
  obtain ⟨hle, hlt⟩ := leadingPower_bounds hnum hden
  generalize leadingPower num den = top at hle hlt
  -- only at the last power of two the significand decides
  rcases lt_trichotomy top 1023 with hsmall | rfl | hgreat
  · obtain ⟨hbits, hratio⟩ := placedBits_lt_of_small hden hlt hsmall
    exact iff_of_true hbits hratio
  · exact placedBits_lt_iff hden
  · obtain ⟨hbits, hratio⟩ := infiniteBits_le_placedBits hden hle hgreat
    exact iff_of_false (not_lt.2 hbits) (not_lt.2 hratio)

/-- The sign stands in the first bit and the magnitude in the others. -/
lemma toNat_bits_ofMagnitude (negative : Bool) {m : Nat} (h : m ≤ infiniteBits) :
    (ofMagnitude negative m).bits.toNat = m + if negative then 2 ^ 63 else 0 := by
  have hinfinite : infiniteBits = 2047 * 2 ^ 52 := rfl
  have hbits : m + (if negative then 2 ^ 63 else 0) < 2 ^ 64 := by split <;> omega
  exact UInt64.toNat_ofNat_of_lt hbits

/-- The magnitude is found again whatever the sign. -/
lemma magnitude_ofMagnitude (negative : Bool) {m : Nat} (h : m ≤ infiniteBits) :
    (ofMagnitude negative m).magnitude = m := by
  have hinfinite : infiniteBits = 2047 * 2 ^ 52 := rfl
  show (ofMagnitude negative m).bits.toNat % 2 ^ 63 = m
  rw [toNat_bits_ofMagnitude negative h]
  split <;> omega

/-- A decimal lies between the powers of ten that its places tell. -/
lemma decimal_bounds {n : Nat} (hn : 0 < n) (e : Int) :
    (10 : ℚ) ^ ((Nat.toDigits 10 n).length + e - 1) ≤ n * 10 ^ e ∧
      (n * 10 ^ e : ℚ) < 10 ^ ((Nat.toDigits 10 n).length + e) := by
  obtain ⟨places, hplaces⟩ := Nat.exists_eq_add_one.2 (Nat.length_toDigits_pos (b := 10) (n := n))
  have hlt : n < 10 ^ (places + 1) :=
    (Nat.length_toDigits_le_iff (by norm_num) (Nat.succ_pos places)).1 hplaces.le
  have hle : 10 ^ places ≤ n := by
    rcases Nat.eq_zero_or_pos places with rfl | hpos
    · exact hn
    · apply Nat.le_of_not_lt
      rw [← Nat.length_toDigits_le_iff (by norm_num) hpos, hplaces]
      omega
  have hlt' : (n : ℚ) < 10 ^ (places + 1) := by exact_mod_cast hlt
  have hle' : (10 : ℚ) ^ places ≤ n := by exact_mod_cast hle
  have hlow : ((places + 1 : Nat) : Int) + e - 1 = places + e := by omega
  rw [hplaces, hlow, zpow_add₀ (by norm_num), zpow_add₀ (by norm_num), zpow_natCast, zpow_natCast]
  constructor
  · exact mul_le_mul_of_nonneg_right hle' (by positivity)
  · exact mul_lt_mul_of_pos_right hlt' (by positivity)

/-- A power of ten far beyond the range is beyond the middle in front of infinity. -/
lemma midpoint_le : (2 ^ 1024 - 2 ^ 970 : ℚ) ≤ 10 ^ (400 : Int) := by
  have hten : ((2 : ℚ) ^ 3) ^ 400 ≤ 10 ^ 400 := pow_le_pow_left₀ (by norm_num) (by norm_num) 400
  have htwo : (2 : ℚ) ^ 1024 ≤ 2 ^ (3 * 400) := pow_le_pow_right₀ one_le_two (by norm_num)
  have hunit : (0 : ℚ) ≤ 2 ^ 970 := by positivity
  rw [← pow_mul] at hten
  exact (sub_le_self _ hunit).trans (htwo.trans hten)

/-- A decimal whose exponent is not far beyond the range is rounded as a fraction. -/
lemma exists_nearestBits_eq (negative : Bool) (n : Nat) (e : Int) :
    ∃ num den : Nat, 0 < den ∧ (num / den : ℚ) = n * 10 ^ e ∧
      (if 0 ≤ e then ofMagnitude negative (nearestBits (n * Nat.pow 10 e.toNat) 1)
        else ofMagnitude negative (nearestBits n (Nat.pow 10 (-e).toNat)))
          = ofMagnitude negative (nearestBits num den) := by
  cases e with
  | ofNat k =>
    have hsign : (0 : Int) ≤ Int.ofNat k := Int.natCast_nonneg k
    rw [if_pos hsign]
    refine ⟨n * 10 ^ k, 1, one_pos, ?_, rfl⟩
    rw [Int.ofNat_eq_natCast, zpow_natCast, Nat.cast_one, div_one]
    push_cast
    rfl
  | negSucc k =>
    have hsign : ¬ (0 : Int) ≤ Int.negSucc k := by simp
    rw [if_neg hsign]
    refine ⟨n, 10 ^ (k + 1), Nat.pow_pos (by norm_num), ?_, rfl⟩
    rw [zpow_negSucc, ← div_eq_mul_inv]
    push_cast
    rfl

/-- The number nearest to a decimal has the magnitude of one that is finite or infinite, as its
place tells. -/
lemma exists_ofDecimal_eq (negative : Bool) (n : Nat) (e : Int) :
    ∃ m ≤ infiniteBits, ofDecimal negative n e = ofMagnitude negative m ∧
      (m < infiniteBits ↔ (n * 10 ^ e : ℚ) < 2 ^ 1024 - 2 ^ 970) := by
  have hpositive : 0 < infiniteBits := by decide
  rw [ofDecimal]
  rcases Nat.eq_zero_or_pos n with rfl | hn
  · refine ⟨0, hpositive.le, rfl, iff_of_true hpositive ?_⟩
    rw [Nat.cast_zero, zero_mul]
    exact one_pos.trans one_lt_midpoint
  obtain ⟨hlow, hhigh⟩ := decimal_bounds hn e
  simp only [hn.ne', if_false]
  generalize ((Nat.toDigits 10 n).length : Int) + e = leading at hlow hhigh
  -- the exponents that are not worked out are far on either side of the midpoint
  by_cases hgreat : 400 < leading
  · have hpower : (10 : ℚ) ^ (400 : Int) ≤ 10 ^ (leading - 1) :=
      zpow_le_zpow_right₀ (by norm_num) (by omega)
    have hover := midpoint_le.trans (hpower.trans hlow)
    rw [if_pos hgreat]
    exact ⟨infiniteBits, le_rfl, rfl, iff_of_false (lt_irrefl _) (not_lt.2 hover)⟩
  by_cases hsmall : leading < -400
  · have hpower : (10 : ℚ) ^ leading ≤ 10 ^ (0 : Int) :=
      zpow_le_zpow_right₀ (by norm_num) (by omega)
    have hunder := (hhigh.trans_le hpower).trans one_lt_midpoint
    rw [if_neg hgreat, if_pos hsmall]
    exact ⟨0, hpositive.le, rfl, iff_of_true hpositive hunder⟩
  obtain ⟨num, den, hden, hratio, hnearest⟩ := exists_nearestBits_eq negative n e
  rw [if_neg hgreat, if_neg hsmall, hnearest, ← hratio]
  exact ⟨_, nearestBits_le num den, rfl, nearestBits_lt_iff hden⟩

/-- The number nearest to a decimal is one. -/
theorem isNaN_ofDecimal (negative : Bool) (n : Nat) (e : Int) :
    (ofDecimal negative n e).isNaN = false := by
  obtain ⟨m, hm, heq, -⟩ := exists_ofDecimal_eq negative n e
  rw [heq, isNaN, magnitude_ofMagnitude negative hm]
  exact decide_eq_false (not_lt.2 hm)

/-- The number nearest to a decimal is finite exactly below the midpoint between the greatest finite
number and the power of two behind it. -/
theorem isFinite_ofDecimal_iff (negative : Bool) (n : Nat) (e : Int) :
    (ofDecimal negative n e).isFinite = true ↔ (n * 10 ^ e : ℚ) < 2 ^ 1024 - 2 ^ 970 := by
  obtain ⟨m, hm, heq, hfinite⟩ := exists_ofDecimal_eq negative n e
  rw [heq, isFinite, magnitude_ofMagnitude negative hm, decide_eq_true_iff]
  exact hfinite

end ReadQuery.Number.Double
