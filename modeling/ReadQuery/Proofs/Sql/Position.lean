import Mathlib.Algebra.Order.BigOperators.Group.List
import Mathlib.Algebra.GroupWithZero.Nat
import Mathlib.Algebra.Order.Group.Nat
import ReadQuery.Proofs.FieldRef
import ReadQuery.Proofs.Outcome
import ReadQuery.Proofs.Sql.Placeholder
import ReadQuery.Sql.Dialect

/-!
# Positions in arrays

ClickHouse counts the positions in an array from one, so that a position in a path is rendered as
the number behind it. Counting is done in 64 bits: the greatest number has none behind it. There the
dialect renders zero (`argument_eq`), and `Dialect.checkedExtract`, which is the same but for this
addition, fails (`checkedArgument_eq`).

Digits beyond 64 bits are no position but a key. So every position is rendered as the number behind
it exactly if all of these numbers fit (`checkedExtract_eq_ok_iff`): other digits are rendered
between quotes, which a number does not have, or as a zero, which is shorter.
-/

namespace ReadQuery

namespace Number

/-- The number that digits spell is read if it fits. -/
lemma readUInt64?_eq (cs : List Char) :
    (readUInt64? cs).map UInt64.toNat = (natural? cs).filter (· < UInt64.size) := by
  unfold readUInt64?
  cases natural? cs with
  | none => rfl
  | some n =>
    by_cases hn : n < UInt64.size
    · simp [hn, Option.filter]
    · simp [hn, Option.filter]

end Number

namespace Sql.Dialect

open Number (digitsValue natural? readUInt64? nextUInt64?)

/-- A segment as an argument, counted in 64 bits; fails at a position that has no number behind
it. -/
def checkedArgument (segment : String) : Except String String :=
  argumentWith (fun n => (nextUInt64? n).elim (.error segment) .ok) segment

/-- A column and some arguments, one for each segment of the path into it. -/
def extraction (column : String) (arguments : List String) : String :=
  "JSONExtractString(" ++ ", ".intercalate (column :: arguments) ++ ")"

/-- The value at a path inside a JSON column, where counting fails beyond 64 bits. -/
def checkedExtract (column : String) (path : List String) : Except String String :=
  (path.mapM checkedArgument).map (extraction column)

/-- A position that is the greatest number of 64 bits. -/
def Overflows (segment : String) : Prop :=
  isIndex segment = true ∧ digitsValue segment.toList + 1 = UInt64.size

/-- The segment is read once. -/
instance (segment : String) : Decidable (Overflows segment) :=
  inferInstanceAs (Decidable (_ ∧ _))

/-- A segment spells a natural number exactly if it is a position. -/
lemma natural?_eq (segment : String) :
    natural? segment.toList
      = if isIndex segment then some (digitsValue segment.toList) else none := by
  have hempty : segment.toList.isEmpty = segment.isEmpty := by
    rw [Bool.eq_iff_iff, List.isEmpty_iff, String.isEmpty_iff]
    exact String.toList_eq_nil_iff
  rw [natural?, isIndex, hempty]

/-- A segment is read as a number exactly if it is a position of 64 bits. -/
lemma readUInt64?_cases (segment : String) :
    (∃ n, readUInt64? segment.toList = some n ∧ isIndex segment = true ∧
        n.toNat = digitsValue segment.toList) ∨
      (readUInt64? segment.toList = none ∧
        ¬ (isIndex segment = true ∧ digitsValue segment.toList < UInt64.size)) := by
  have hread := Number.readUInt64?_eq segment.toList
  rw [natural?_eq] at hread
  by_cases hposition : isIndex segment = true ∧ digitsValue segment.toList < UInt64.size
  · obtain ⟨hindex, hfits⟩ := hposition
    rw [if_pos hindex, Option.filter_some_pos (by simpa using hfits)] at hread
    obtain ⟨n, hn, hvalue⟩ := Option.map_eq_some_iff.1 hread
    exact .inl ⟨n, hn, hindex, hvalue⟩
  · refine .inr ⟨?_, hposition⟩
    rw [← Option.map_eq_none_iff, hread, Option.filter_eq_none_iff]
    intro n hn
    obtain ⟨hindex, hn⟩ := Option.ite_none_right_eq_some.1 hn
    cases hn
    simpa using fun hfits => hposition ⟨hindex, hfits⟩

/-- The dialect renders a position as the number behind it, and as zero where there is none. -/
lemma argument_eq (segment : String) :
    argument segment
      = if isIndex segment = true ∧ digitsValue segment.toList < UInt64.size then
          toString ((digitsValue segment.toList + 1) % UInt64.size)
        else literal segment := by
  unfold argument argumentWith
  rcases readUInt64?_cases segment with ⟨n, hn, hindex, hvalue⟩ | ⟨hn, hposition⟩
  · have hfits := n.toNat_lt
    have hnext : (n + 1).toNat = (digitsValue segment.toList + 1) % UInt64.size := by
      rw [UInt64.toNat_add, hvalue]
      rfl
    rw [hvalue] at hfits
    rw [hn, if_pos ⟨hindex, hfits⟩, ← hnext]
    rfl
  · rw [hn, if_neg hposition]
    rfl

/-- Counting that is checked fails at the greatest number, and otherwise gives the argument of the
dialect. -/
lemma checkedArgument_eq (segment : String) :
    checkedArgument segment
      = if Overflows segment then .error segment else .ok (argument segment) := by
  unfold checkedArgument argument argumentWith
  rcases readUInt64?_cases segment with ⟨n, hn, hindex, hvalue⟩ | ⟨hn, hposition⟩
  · by_cases hbehind : n.toNat + 1 < UInt64.size
    · have hsome : ¬ Overflows segment := fun hover => by have := hover.2; omega
      have hnext : nextUInt64? n = some (n + 1) := if_pos hbehind
      rw [if_neg hsome]
      simp only [hn, hnext]
      rfl
    · have hlt := n.toNat_lt
      have hsize : UInt64.size = 2 ^ 64 := rfl
      have hover : Overflows segment := ⟨hindex, by omega⟩
      have hnext : nextUInt64? n = none := if_neg hbehind
      rw [if_pos hover]
      simp only [hn, hnext]
      rfl
  · -- neither a key nor digits beyond 64 bits are counted
    have hkey : ¬ Overflows segment := fun hover => hposition ⟨hover.1, by have := hover.2; omega⟩
    rw [hn, if_neg hkey]
    rfl

/-- Where no segment overflows the extraction is that of the dialect. -/
lemma checkedExtract_of_forall {column : String} {path : List String}
    (h : ∀ segment ∈ path, ¬ Overflows segment) :
    checkedExtract column path = .ok (clickHouse.jsonExtract column path) := by
  have hsteps : path.mapM checkedArgument = .ok (path.map argument) := by
    rw [mapM_eq_ok_iff, List.forall₂_map_right_iff, List.forall₂_same]
    intro segment hsegment
    rw [checkedArgument_eq, if_neg (h segment hsegment)]
  rw [checkedExtract, hsteps]
  rfl

/-- The extraction fails exactly if a segment overflows. -/
lemma exists_checkedExtract_eq_error_iff {column : String} {path : List String} :
    (∃ segment, checkedExtract column path = .error segment) ↔
      ∃ segment ∈ path, Overflows segment := by
  have hstep : ∀ segment, (∃ s, checkedArgument segment = .error s) ↔ Overflows segment := by
    intro segment
    rw [checkedArgument_eq]
    split
    · next hover => exact ⟨fun _ => hover, fun _ => ⟨segment, rfl⟩⟩
    · next hover =>
      constructor
      · rintro ⟨s, hs⟩
        cases hs
      · exact fun h => absurd h hover
  have hsteps : (∃ s, path.mapM checkedArgument = .error s) ↔
      ∃ segment ∈ path, ∃ s, checkedArgument segment = .error s := exists_mapM_eq_error_iff
  simp only [hstep] at hsteps
  rw [← hsteps, checkedExtract]
  cases path.mapM checkedArgument with
  | error s => exact ⟨fun _ => ⟨s, rfl⟩, fun _ => ⟨s, rfl⟩⟩
  | ok arguments =>
    constructor
    · rintro ⟨s, hs⟩
      cases hs
    · rintro ⟨s, hs⟩
      cases hs

/-- A segment as an argument: a position, whatever its size, as the number behind it, and a key
between quotes. -/
def fromOne (segment : String) : String :=
  if isIndex segment then toString (digitsValue segment.toList + 1) else literal segment

/-- The dialect writes the column and an argument for each segment. -/
lemma jsonExtract_clickHouse (column : String) (path : List String) :
    clickHouse.jsonExtract column path = extraction column (path.map argument) := rfl

/-- A position that has a number behind it is rendered as that. -/
lemma argument_eq_fromOne {segment : String}
    (h : isIndex segment = true → digitsValue segment.toList + 1 < UInt64.size) :
    argument segment = fromOne segment := by
  rw [argument_eq, fromOne]
  by_cases hindex : isIndex segment = true
  · have hnext := h hindex
    have hfits : digitsValue segment.toList < UInt64.size := by omega
    rw [if_pos ⟨hindex, hfits⟩, if_pos hindex, Nat.mod_eq_of_lt hnext]
  · rw [if_neg fun hposition => hindex hposition.1, if_neg hindex]

/-- An extraction is made of its arguments, each behind a comma. -/
lemma toList_extraction (column : String) (arguments : List String) :
    (extraction column arguments).toList
      = "JSONExtractString(".toList
        ++ (column.toList ++ arguments.flatMap fun s => ", ".toList ++ s.toList) ++ ")".toList := by
  unfold extraction
  rw [String.toList_append, String.toList_append, Text.toList_intercalate_cons, List.flatMap_map]

/-- Where two renderings of a path give the same text, the arguments have the same number of
characters of each kind. -/
lemma sum_countP_eq {f g : String → String} {column : String} {path : List String}
    (h : extraction column (path.map f) = extraction column (path.map g)) (p : Char → Bool) :
    (path.map fun s => (f s).toList.countP p).sum
      = (path.map fun s => (g s).toList.countP p).sum := by
  have hcount := congrArg (fun s => s.toList.countP p) h
  simp only [toList_extraction, List.countP_append, List.countP_flatMap, List.map_map,
    Function.comp_def, List.sum_map_add] at hcount
  omega

/-- Counts that add up to the same and of which none is the greater one are the same. -/
lemma forall_eq_of_sum_eq {u v : String → Nat} {path : List String}
    (hle : ∀ s ∈ path, u s ≤ v s) (h : (path.map u).sum = (path.map v).sum) :
    ∀ s ∈ path, u s = v s := by
  intro s hs
  by_contra hne
  exact (List.sum_lt_sum u v hle ⟨s, hs, lt_of_le_of_ne (hle s hs) hne⟩).ne h

/-- The quotes in a text. -/
def quotes (s : String) : Nat :=
  s.toList.countP (· == '\'')

/-- A number has no quotes. -/
lemma quotes_toString (n : Nat) : quotes (toString n) = 0 := by
  rw [quotes, List.countP_eq_zero]
  intro c hc hquote
  exact (Placeholder.plain_of_isDigit (Placeholder.isDigit_of_mem_toString hc)).1
    (by simpa using hquote)

/-- A literal has two quotes at least. -/
lemma two_le_quotes_literal (s : String) : 2 ≤ quotes (literal s) := by
  have hone : "'".toList.countP (· == '\'') = 1 := rfl
  rw [quotes, literal, String.toList_append, String.toList_append, List.countP_append,
    List.countP_append, hone]
  omega

/-- Only digits beyond 64 bits have quotes as an argument that their number does not have. -/
lemma quotes_fromOne_le (segment : String) :
    quotes (fromOne segment) ≤ quotes (argument segment) := by
  rw [argument_eq, fromOne]
  by_cases hindex : isIndex segment = true
  · rw [if_pos hindex, quotes_toString]
    exact Nat.zero_le _
  · rw [if_neg hindex, if_neg fun hposition => hindex hposition.1]

/-- A position is of 64 bits if its argument has as many quotes as the number behind it. -/
lemma lt_size_of_quotes_eq {segment : String} (hindex : isIndex segment = true)
    (h : quotes (fromOne segment) = quotes (argument segment)) :
    digitsValue segment.toList < UInt64.size := by
  by_contra hlarge
  have htwo := two_le_quotes_literal segment
  rw [argument_eq, fromOne, if_pos hindex, quotes_toString,
    if_neg fun hposition => hlarge hposition.2] at h
  omega

/-- The zero for a position without a number behind it is shorter than this number. -/
lemma length_argument_lt {segment : String} (h : Overflows segment) :
    (argument segment).length < (fromOne segment).length := by
  have hfits : digitsValue segment.toList < UInt64.size := by have := h.2; omega
  rw [argument_eq, fromOne, if_pos ⟨h.1, hfits⟩, if_pos h.1, h.2]
  decide +kernel

/-- The dialect counts all positions of a path from one exactly if the numbers behind them fit. -/
lemma jsonExtract_eq_iff (column : String) (path : List String) :
    clickHouse.jsonExtract column path = extraction column (path.map fromOne) ↔
      ∀ segment ∈ path, isIndex segment = true →
        digitsValue segment.toList + 1 < UInt64.size := by
  rw [jsonExtract_clickHouse]
  constructor
  · intro h
    have hquotes := forall_eq_of_sum_eq (fun s _ => quotes_fromOne_le s)
      (sum_countP_eq h (· == '\'')).symm
    have hfits : ∀ s ∈ path, isIndex s = true → digitsValue s.toList < UInt64.size :=
      fun s hs hindex => lt_size_of_quotes_eq hindex (hquotes s hs)
    -- all positions are of 64 bits, so that an argument can only be too short
    have hshort : ∀ s ∈ path, (argument s).length ≤ (fromOne s).length := by
      intro s hs
      by_cases hover : Overflows s
      · exact (length_argument_lt hover).le
      · refine (congrArg String.length (argument_eq_fromOne fun hindex => ?_)).le
        have hlt := hfits s hs hindex
        have hne : digitsValue s.toList + 1 ≠ UInt64.size := fun he => hover ⟨hindex, he⟩
        omega
    have hlengths := sum_countP_eq h fun _ => true
    simp only [List.countP_true, String.length_toList] at hlengths
    have heq := forall_eq_of_sum_eq hshort hlengths
    intro s hs hindex
    have hlt := hfits s hs hindex
    have hne : digitsValue s.toList + 1 ≠ UInt64.size :=
      fun he => (length_argument_lt ⟨hindex, he⟩).ne (heq s hs)
    omega
  · intro h
    exact congrArg _ (List.map_congr_left fun s hs => argument_eq_fromOne (h s hs))

/-- The extraction fails exactly at a position that is the greatest number of 64 bits, and otherwise
is that of the dialect. Both count all positions from one exactly if the numbers behind them fit. -/
theorem checkedExtract_eq_ok_iff (column : String) (path : List String) :
    ((∃ segment, checkedExtract column path = .error segment) ↔
        ∃ segment ∈ path, Overflows segment) ∧
      (∀ text, checkedExtract column path = .ok text →
        text = clickHouse.jsonExtract column path) ∧
      (checkedExtract column path = .ok (extraction column (path.map fromOne)) ↔
        ∀ segment ∈ path, isIndex segment = true →
          digitsValue segment.toList + 1 < UInt64.size) ∧
      (clickHouse.jsonExtract column path = extraction column (path.map fromOne) ↔
        ∀ segment ∈ path, isIndex segment = true →
          digitsValue segment.toList + 1 < UInt64.size) := by
  have htext : ∀ text, checkedExtract column path = .ok text →
      text = clickHouse.jsonExtract column path := by
    intro text htext
    have hnone : ∀ segment ∈ path, ¬ Overflows segment := by
      intro segment hsegment hover
      obtain ⟨s, hs⟩ := exists_checkedExtract_eq_error_iff.2 ⟨segment, hsegment, hover⟩
      rw [hs] at htext
      cases htext
    rw [checkedExtract_of_forall hnone] at htext
    exact (Except.ok.inj htext).symm
  refine ⟨exists_checkedExtract_eq_error_iff, htext, ?_, jsonExtract_eq_iff column path⟩
  constructor
  · exact fun h => (jsonExtract_eq_iff column path).1 (htext _ h).symm
  · intro h
    have hnone : ∀ segment ∈ path, ¬ Overflows segment :=
      fun segment hsegment hover => (h segment hsegment hover.1).ne hover.2
    rw [checkedExtract_of_forall hnone, (jsonExtract_eq_iff column path).2 h]

/-- Not every path goes through, and where one does, not every position is counted from one: the
greatest number of 64 bits overflows, and the number behind it is rendered as a key. -/
theorem not_forall_checkedExtract :
    (¬ ∀ (column : String) (path : List String),
      (∀ segment ∈ path, Identifier.IsSegment segment ∧ segment ≠ "") →
        ∃ text, checkedExtract column path = .ok text) ∧
      ¬ ∀ (column : String) (path : List String) (text : String),
        (∀ segment ∈ path, Identifier.IsSegment segment ∧ segment ≠ "") →
        checkedExtract column path = .ok text →
          text = extraction column (path.map fromOne) := by
  constructor
  · intro h
    obtain ⟨text, htext⟩ := h "meta" ["18446744073709551615"] (by decide +kernel)
    have herror : (checkedExtract "meta" ["18446744073709551615"]).toOption = none := by
      decide +kernel
    rw [htext] at herror
    cases herror
  · intro h
    have htext : checkedExtract "meta" ["18446744073709551616"]
        = .ok "JSONExtractString(meta, '18446744073709551616')" :=
      eq_ok_of_toOption (by decide +kernel)
    have hcounted := h _ _ _ (by decide +kernel) htext
    exact absurd hcounted (by decide +kernel)

end Sql.Dialect

end ReadQuery
