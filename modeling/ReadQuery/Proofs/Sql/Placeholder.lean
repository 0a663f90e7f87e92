import Mathlib.Data.List.Basic
import ReadQuery.Sql.Placeholder

/-!
# Counting and numbering placeholders

Counting and numbering read a text from left to right and know one thing about what they have read:
whether it ends inside of a literal (`quotedAfter`). From this follow the laws of both on texts put
together (`countFrom_append`, `numberFrom_append`), that a text without placeholders stays as it is,
and that no placeholder is left once all are numbered (`countFrom_numberFrom`).
-/

namespace ReadQuery.Sql.Placeholder

/-- Whether a text that starts inside or outside of a literal ends inside of one. -/
def quotedAfter (quoted : Bool) : List Char → Bool
  | [] => quoted
  | c :: cs => quotedAfter (if c = '\'' then !quoted else quoted) cs

/-- Whether a literal is open is handed on from one text to the next. -/
lemma quotedAfter_append (quoted : Bool) (cs ds : List Char) :
    quotedAfter quoted (cs ++ ds) = quotedAfter (quotedAfter quoted cs) ds := by
  induction cs generalizing quoted with
  | nil => rfl
  | cons c cs ih => exact ih _

/-- The placeholders of two texts are counted one after the other. -/
lemma countFrom_append (quoted : Bool) (cs ds : List Char) :
    countFrom quoted (cs ++ ds) = countFrom quoted cs + countFrom (quotedAfter quoted cs) ds := by
  induction cs generalizing quoted with
  | nil => simp [countFrom, quotedAfter]
  | cons c cs ih =>
    by_cases hq : c = '\''
    · simp [countFrom, quotedAfter, hq, ih]
    · by_cases hm : c = '?' ∧ quoted = false
      · simp [countFrom, quotedAfter, hm, ih]
        omega
      · simp [countFrom, quotedAfter, hq, hm, ih]

/-- Two texts put together are numbered one after the other. -/
lemma numberFrom_append (label : List Char) (quoted : Bool) (n : Nat) (cs ds : List Char) :
    numberFrom label quoted n (cs ++ ds)
      = numberFrom label quoted n cs
        ++ numberFrom label (quotedAfter quoted cs) (n + countFrom quoted cs) ds := by
  induction cs generalizing quoted n with
  | nil => simp [countFrom, quotedAfter]
  | cons c cs ih =>
    by_cases hq : c = '\''
    · simp [numberFrom_cons, countFrom, quotedAfter, hq, ih]
    · by_cases hm : c = '?' ∧ quoted = false
      · simp only [List.cons_append, numberFrom_cons, countFrom, quotedAfter, hm, ih]
        simp [Nat.add_assoc, Nat.add_comm 1]
      · simp [numberFrom_cons, countFrom, quotedAfter, hq, hm, ih]

/-- Numbering changes nothing where there is no placeholder. -/
lemma numberFrom_of_countFrom_eq_zero (label : List Char) {quoted : Bool} (n : Nat)
    {cs : List Char} (h : countFrom quoted cs = 0) : numberFrom label quoted n cs = cs := by
  induction cs generalizing quoted with
  | nil => rfl
  | cons c cs ih =>
    by_cases hq : c = '\''
    · simp only [countFrom, hq, if_pos] at h
      simp [numberFrom_cons, hq, ih h]
    · by_cases hm : c = '?' ∧ quoted = false
      · simp [countFrom, hm] at h
      · simp only [countFrom, hq, hm, if_false] at h
        simp [numberFrom_cons, hq, hm, ih h]

/-- A label adds no placeholder. -/
lemma countFrom_append_of_plain {label : List Char} (hl : ∀ c ∈ label, c ≠ '\'' ∧ c ≠ '?')
    (quoted : Bool) (cs : List Char) : countFrom quoted (label ++ cs) = countFrom quoted cs := by
  induction label with
  | nil => rfl
  | cons c label ih =>
    have hc := hl c (by simp)
    have ht := ih fun d hd => hl d (by simp [hd])
    simp [countFrom, hc.1, hc.2, ht]

/-- Numbers are written in digits. -/
lemma isDigit_of_mem_toString {n : Nat} {c : Char} (h : c ∈ (toString n).toList) :
    c.isDigit = true := by
  simp only [Nat.toString_eq_repr, Nat.toList_repr] at h
  exact Nat.isDigit_of_mem_toDigits (by decide) (by decide) h

/-- Digits open no literal and mark no placeholder. -/
lemma plain_of_isDigit {c : Char} (h : c.isDigit = true) : c ≠ '\'' ∧ c ≠ '?' := by
  constructor <;> rintro rfl <;> simp at h

/-- Once all placeholders are numbered, none is left. -/
lemma countFrom_numberFrom {label : List Char} (hl : ∀ c ∈ label, c ≠ '\'' ∧ c ≠ '?')
    (quoted : Bool) (n : Nat) (cs : List Char) :
    countFrom quoted (numberFrom label quoted n cs) = 0 := by
  induction cs generalizing quoted n with
  | nil => rfl
  | cons c cs ih =>
    by_cases hq : c = '\''
    · simp [numberFrom_cons, countFrom, hq, ih]
    · by_cases hm : c = '?' ∧ quoted = false
      · have hd : ∀ c ∈ (toString (n + 1)).toList, c ≠ '\'' ∧ c ≠ '?' :=
          fun c hc => plain_of_isDigit (isDigit_of_mem_toString hc)
        simp only [numberFrom_cons, hm]
        simp only [and_self, if_true, List.append_assoc]
        -- neither the label nor its number is read as a placeholder or a quote
        rw [if_neg (by decide), countFrom_append_of_plain hl, countFrom_append_of_plain hd]
        exact ih false (n + 1)
      · simp only [numberFrom_cons, hq, hm, if_false, countFrom]
        exact ih quoted n

end ReadQuery.Sql.Placeholder
