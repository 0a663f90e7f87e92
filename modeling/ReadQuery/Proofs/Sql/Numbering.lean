import Mathlib.Algebra.Group.Nat.Even
import Mathlib.Data.List.Induction
import Mathlib.Order.Nat
import ReadQuery.Proofs.Sql.Placeholder
import ReadQuery.Sql.Dialect

/-!
# The positions of placeholders

Where the placeholders of a text stand can be said without reading the text from left to right: at
the question marks that have an even number of quotes in front of them (`IsPlaceholder`). A text
that goes on by one character keeps the placeholders it has, and gets one more at most
(`positions_concat`). From this follows that counting gives the number of these positions
(`countFrom_eq_length_positions`), and that numbering writes the label and the place among them at
each of these positions and leaves all else as it is (`numberFrom_eq_flatten`).

Numbers of 32 bits run out behind the greatest one. A text is numbered in 32 bits exactly if it has
fewer than `2 ^ 31` placeholders, and then as it is with any numbers (`numberFrom?_eq`). Texts put
together are counted and numbered one after the other exactly if the first one has an even number of
quotes (`counts_and_numbers_positions`).
-/

namespace ReadQuery.Sql

namespace Placeholder

/-- At a position stands a question mark, with an even number of quotes in front of it. -/
def IsPlaceholder (cs : List Char) (i : Nat) : Prop :=
  cs[i]? = some '?' ∧ Even ((cs.take i).count '\'')

/-- The character and the quotation marks in front of it are looked at. -/
instance (cs : List Char) : DecidablePred (IsPlaceholder cs) :=
  fun _ => inferInstanceAs (Decidable (_ ∧ _))

/-- Where the placeholders of a text stand, from left to right. -/
def positions (cs : List Char) : List Nat :=
  (List.range cs.length).filter (IsPlaceholder cs ·)

/-- What stands for the character at a position once placeholders are numbered, with `n` of them
before the text: the label and the number of a placeholder, or the character itself. -/
def numberAt (label : List Char) (n : Nat) (cs : List Char) (i : Nat) (c : Char) : List Char :=
  if IsPlaceholder cs i then label ++ (toString (n + (positions cs).idxOf i + 1)).toList else [c]

/-- A text whose placeholders are numbered on behind `n` others. -/
def numberOn (label : String) (n : Nat) (s : String) : String :=
  String.ofList (s.toList.mapIdx (numberAt label.toList n s.toList)).flatten

variable {cs : List Char} {i : Nat}

/-- The reader is outside of literals where the quotation marks are paired. -/
lemma quotedAfter_eq_false_iff (quoted : Bool) (cs : List Char) :
    quotedAfter quoted cs = false ↔ (Even (cs.count '\'') ↔ quoted = false) := by
  induction cs generalizing quoted with
  | nil => simp [quotedAfter]
  | cons c cs ih =>
    by_cases hq : c = '\''
    · subst hq
      rw [quotedAfter, if_pos rfl, ih, List.count_cons_self, Nat.even_add_one]
      cases quoted with
      | false => simp
      | true => simp
    · rw [quotedAfter, if_neg hq, ih, List.count_cons_of_ne hq]

/-- A text ends outside of literals exactly if its quotes are even in number. -/
lemma quotedAfter_false_iff (cs : List Char) :
    quotedAfter false cs = false ↔ Even (cs.count '\'') := by
  rw [quotedAfter_eq_false_iff, iff_true_right rfl]

/-- What follows a position does not matter to it. -/
lemma isPlaceholder_append (hi : i < cs.length) (ds : List Char) :
    IsPlaceholder (cs ++ ds) i ↔ IsPlaceholder cs i := by
  rw [IsPlaceholder, IsPlaceholder, List.getElem?_append_left hi,
    List.take_append_of_le_length hi.le]

/-- The last character is a placeholder if it is a question mark outside of literals. -/
lemma isPlaceholder_concat_length (cs : List Char) (c : Char) :
    IsPlaceholder (cs ++ [c]) cs.length ↔ c = '?' ∧ Even (cs.count '\'') := by
  rw [IsPlaceholder, List.getElem?_concat_length, List.take_left, Option.some.injEq]

/-- Placeholders stand in the text. -/
lemma lt_length_of_mem_positions (h : i ∈ positions cs) : i < cs.length :=
  List.mem_range.1 (List.mem_of_mem_filter h)

/-- Every placeholder has its position. -/
lemma mem_positions_of_isPlaceholder (hi : i < cs.length) (h : IsPlaceholder cs i) :
    i ∈ positions cs :=
  List.mem_filter.2 ⟨List.mem_range.2 hi, decide_eq_true h⟩

/-- One more character is one more placeholder at most, behind all others. -/
lemma positions_concat (cs : List Char) (c : Char) :
    positions (cs ++ [c])
      = positions cs ++ if c = '?' ∧ Even (cs.count '\'') then [cs.length] else [] := by
  have hkept : (List.range cs.length).filter (IsPlaceholder (cs ++ [c]) ·) = positions cs := by
    apply List.filter_congr
    intro i hi
    rw [decide_eq_decide]
    exact isPlaceholder_append (List.mem_range.1 hi) [c]
  rw [positions, List.length_append, List.length_singleton, List.range_succ, List.filter_append,
    hkept, List.filter_singleton]
  simp only [isPlaceholder_concat_length, Bool.cond_decide]

/-- One more character is counted if it is a placeholder. -/
lemma countFrom_concat (cs : List Char) (c : Char) :
    countFrom false (cs ++ [c])
      = countFrom false cs + if c = '?' ∧ Even (cs.count '\'') then 1 else 0 := by
  rw [countFrom_append]
  simp only [← quotedAfter_false_iff]
  by_cases hq : c = '\''
  · subst hq
    rfl
  · simp [countFrom, hq]

/-- One more character is replaced by the next number if it is a placeholder, and else put behind
the text. -/
lemma numberFrom_concat (label : List Char) (n : Nat) (cs : List Char) (c : Char) :
    numberFrom label false n (cs ++ [c])
      = numberFrom label false n cs
        ++ if c = '?' ∧ Even (cs.count '\'') then
            label ++ (toString (n + countFrom false cs + 1)).toList
          else [c] := by
  rw [numberFrom_append]
  simp only [← quotedAfter_false_iff]
  by_cases hq : c = '\''
  · subst hq
    rfl
  · simp [numberFrom_cons, hq]

/-- As many placeholders are counted as there are positions of them. -/
lemma countFrom_eq_length_positions (cs : List Char) :
    countFrom false cs = (positions cs).length := by
  induction cs using List.reverseRecOn with
  | nil => rfl
  | append_singleton cs c ih =>
    rw [countFrom_concat, ih, positions_concat, List.length_append, Nat.add_left_cancel_iff]
    split
    · rfl
    · rfl

/-- What is written at the positions of a text does not depend on what is behind it. -/
lemma mapIdx_numberAt_append (label : List Char) (n : Nat) (cs : List Char) (c : Char) :
    cs.mapIdx (numberAt label n (cs ++ [c])) = cs.mapIdx (numberAt label n cs) := by
  rw [List.mapIdx_eq_mapIdx_iff]
  intro i hi
  have hplaceholder := isPlaceholder_append hi [c]
  by_cases h : IsPlaceholder cs i
  · have hmem := mem_positions_of_isPlaceholder hi h
    rw [numberAt, numberAt, if_pos (hplaceholder.2 h), if_pos h, positions_concat,
      List.idxOf_append_of_mem hmem]
  · rw [numberAt, numberAt, if_neg (mt hplaceholder.1 h), if_neg h]

/-- The last character of a text is the placeholder behind all others or stays as it is. -/
lemma numberAt_concat_length (label : List Char) (n : Nat) (cs : List Char) (c : Char) :
    numberAt label n (cs ++ [c]) cs.length c
      = if c = '?' ∧ Even (cs.count '\'') then
          label ++ (toString (n + (positions cs).length + 1)).toList
        else [c] := by
  have hnew : cs.length ∉ positions cs := fun h => (lt_length_of_mem_positions h).ne rfl
  have hlast := isPlaceholder_concat_length cs c
  by_cases h : c = '?' ∧ Even (cs.count '\'')
  · have hindex : (positions (cs ++ [c])).idxOf cs.length = (positions cs).length := by
      rw [positions_concat, if_pos h, List.idxOf_append_of_notMem hnew, List.idxOf_cons_self]
      exact Nat.add_zero _
    rw [numberAt, if_pos (hlast.2 h), if_pos h, hindex]
  · rw [numberAt, if_neg (mt hlast.1 h), if_neg h]

/-- Numbering writes at each position what the placeholders say that stand there. -/
lemma numberFrom_eq_flatten (label : List Char) (n : Nat) (cs : List Char) :
    numberFrom label false n cs = (cs.mapIdx (numberAt label n cs)).flatten := by
  -- the text is taken from its end, so that the placeholders in front keep their positions
  induction cs using List.reverseRecOn with
  | nil => rfl
  | append_singleton cs c ih =>
    rw [numberFrom_concat, ih, countFrom_eq_length_positions, List.mapIdx_concat,
      mapIdx_numberAt_append, numberAt_concat_length, List.flatten_concat]

/-- Numbers that are not limited give the text that the positions say. -/
lemma number_eq_numberOn (label s : String) : number label s = numberOn label 0 s :=
  congrArg String.ofList (numberFrom_eq_flatten _ _ _)

/-- The next number of 32 bits is the number plus one, if that is below `2 ^ 31`. -/
lemma nextInt32?_cases {n : Int32} {k : Nat} (hn : n.toInt = k) :
    (k + 1 < 2 ^ 31 ∧ ∃ m, Number.nextInt32? n = some m ∧ m.toInt = (k + 1 : Nat)) ∨
      (2 ^ 31 ≤ k + 1 ∧ Number.nextInt32? n = none) := by
  have hless : n < Int32.maxValue ↔ k + 1 < 2 ^ 31 := by
    rw [Int32.lt_iff_toInt_lt, hn, Int32.toInt_maxValue]
    omega
  unfold Number.nextInt32?
  by_cases hfits : k + 1 < 2 ^ 31
  · refine .inl ⟨hfits, n + 1, if_pos (hless.2 hfits), ?_⟩
    rw [Int32.toInt_add, hn]
    exact Int.bmod_eq_of_le (by simp; omega) (by simp; omega)
  · exact .inr ⟨not_lt.1 hfits, if_neg (mt hless.1 hfits)⟩

/-- Numbering in 32 bits gives a text exactly if the last number is below `2 ^ 31`, and then the one
of numbers that are not limited. -/
lemma numberFrom?_eq (label : List Char) (quoted : Bool) (cs : List Char) {n : Int32} {k : Nat}
    (hn : n.toInt = k) :
    numberFrom? label quoted n cs
      = if k + countFrom quoted cs < 2 ^ 31 then some (numberFrom label quoted k cs) else none := by
  -- the counter of 32 bits is in step with the number of placeholders read so far
  induction cs generalizing quoted n k with
  | nil =>
    have hless : k + countFrom quoted [] < 2 ^ 31 := by
      have hlt := n.toInt_lt
      simp only [countFrom]
      omega
    rw [if_pos hless]
    rfl
  | cons c cs ih =>
    rw [numberFrom?_cons, numberFrom_cons]
    by_cases hq : c = '\''
    · rw [if_pos hq, if_pos hq, ih _ hn, countFrom, if_pos hq]
      split
      · rfl
      · rfl
    rw [if_neg hq, if_neg hq, countFrom, if_neg hq]
    by_cases hm : c = '?' ∧ quoted = false
    · rw [if_pos hm, if_pos hm, if_pos hm]
      rcases nextInt32?_cases hn with ⟨hfits, m, hm, hvalue⟩ | ⟨hlarge, hnone⟩
      · have htext : toString m = toString (k + 1) := congrArg toString hvalue
        have hsum : k + 1 + countFrom quoted cs = k + (countFrom quoted cs + 1) := by omega
        rw [hm, Option.bind_some, ih _ hvalue, htext, hsum]
        split
        · rfl
        · rfl
      · have hover : ¬ k + (countFrom quoted cs + 1) < 2 ^ 31 := by omega
        rw [hnone, if_neg hover]
        rfl
    · rw [if_neg hm, if_neg hm, if_neg hm, ih _ hn]
      split
      · rfl
      · rfl

/-- A text has a form with numbers of 32 bits exactly if it has fewer than `2 ^ 31` placeholders. -/
lemma number?_eq (label s : String) :
    number? label s = if count s < 2 ^ 31 then some (numberOn label 0 s) else none := by
  have hzero : (0 : Int32).toInt = (0 : Nat) := rfl
  rw [number?, numberFrom?_eq _ _ _ hzero, Nat.zero_add, ← number_eq_numberOn]
  exact apply_ite (Option.map String.ofList) _ _ _

variable {s : String}

end Placeholder

open Placeholder

/-- In 32 bits a statement has the form that it has with numbers that are not limited, as long as
there are numbers for its placeholders. -/
theorem Dialect.placeholders?_eq (d : Dialect) (sql : String) :
    d.placeholders? sql
      = if d = .postgres ∧ 2 ^ 31 ≤ count sql then none else some (d.placeholders sql) := by
  cases d with
  | postgres =>
    rw [placeholders?, placeholders, number?_eq, number_eq_numberOn]
    by_cases hfits : count sql < 2 ^ 31
    · rw [if_pos hfits, if_neg fun h => absurd hfits (not_lt.2 h.2)]
    · rw [if_neg hfits, if_pos ⟨rfl, not_lt.1 hfits⟩]
  | mysql => rfl
  | sqlite => rfl
  | clickHouse => rfl

end ReadQuery.Sql
