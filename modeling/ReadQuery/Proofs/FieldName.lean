import ReadQuery.FieldName
import ReadQuery.Proofs.FieldRef

/-!
# Names in snake case

The segments of a dotted name are brought to snake case one by one (`snake_intercalate`), and each
of them is a segment again, or empty (`isSegment_snake`).
-/

namespace ReadQuery.FieldName

open Text (isNameChar)

variable {c : Char} {cs : List Char}

/-- Words consist of the characters that they are cut out of. -/
lemma mem_of_mem_cutWords {mode : LetterCase} {current w : List Char}
    (hw : w ∈ cutWords mode current cs) (hc : c ∈ w) : c ∈ current ∨ c ∈ cs := by
  induction mode, current, cs using cutWords.induct with
  | case1 => cases hw
  | case2 mode current hne =>
    rw [cutWords] at hw
    · obtain rfl := List.mem_singleton.1 hw
      exact .inl (List.mem_reverse.1 hc)
    · exact hne
  | case3 mode current d =>
    rw [cutWords] at hw
    obtain rfl := List.mem_singleton.1 hw
    rcases List.mem_cons.1 (List.mem_reverse.1 hc) with rfl | hc
    · exact .inr List.mem_cons_self
    · exact .inl hc
  | case4 mode current d next rest h ih =>
    rw [cutWords, if_pos h] at hw
    rcases List.mem_cons.1 hw with rfl | hw
    · rcases List.mem_cons.1 (List.mem_reverse.1 hc) with rfl | hc
      · exact .inr List.mem_cons_self
      · exact .inl hc
    · exact .inr (List.mem_cons_of_mem d ((ih hw).resolve_left List.not_mem_nil))
  | case5 mode current d next rest h h' ih =>
    rw [cutWords, if_neg h, if_pos h'] at hw
    rcases List.mem_cons.1 hw with rfl | hw
    · exact .inl (List.mem_reverse.1 hc)
    · rcases ih hw with hc | hc
      · obtain rfl := List.mem_singleton.1 hc
        exact .inr List.mem_cons_self
      · exact .inr (List.mem_cons_of_mem d hc)
  | case6 mode current d next rest h h' ih =>
    rw [cutWords, if_neg h, if_neg h'] at hw
    rcases ih hw with hc | hc
    · rcases List.mem_cons.1 hc with rfl | hc
      · exact .inr List.mem_cons_self
      · exact .inl hc
    · exact .inr (List.mem_cons_of_mem d hc)

/-- Pieces consist of letters and digits. -/
lemma isAlphanum_of_mem_pieces {p : List Char} (hp : p ∈ pieces cs) (hc : c ∈ p) :
    c.isAlphanum = true := by
  induction cs generalizing p with
  | nil =>
    obtain rfl := List.mem_singleton.1 hp
    cases hc
  | cons d cs ih =>
    rw [pieces] at hp
    split at hp
    · next hd =>
      cases hpieces : pieces cs with
      | nil =>
        rw [hpieces, Text.consFirst] at hp
        obtain rfl := List.mem_singleton.1 hp
        obtain rfl := List.mem_singleton.1 hc
        exact hd
      | cons q qs =>
        rw [hpieces] at hp ih
        rcases List.mem_cons.1 hp with rfl | hp
        · rcases List.mem_cons.1 hc with rfl | hc
          · exact hd
          · exact ih List.mem_cons_self hc
        · exact ih (List.mem_cons_of_mem q hp) hc
    · rcases List.mem_cons.1 hp with rfl | hp
      · cases hc
      · exact ih hp hc

/-- A segment in snake case consists of the characters of names. -/
lemma isNameChar_of_mem_snakeSegment (hc : c ∈ snakeSegment cs) : isNameChar c = true := by
  rcases Text.mem_intercalate hc with hc | ⟨w, hw, hc⟩
  · obtain rfl := List.mem_singleton.1 hc
    rfl
  · rw [words] at hw
    obtain ⟨w', hw', rfl⟩ := List.mem_map.1 hw
    obtain ⟨p, hp, hw'⟩ := List.mem_flatMap.1 hw'
    obtain ⟨c', hc', rfl⟩ := List.mem_map.1 hc
    have hmem := (mem_of_mem_cutWords hw' hc').resolve_left List.not_mem_nil
    exact Text.isNameChar_of_isAlphanum
      (Text.isAlphanum_toLower (isAlphanum_of_mem_pieces hp hmem))

variable {s : String} {ss : List String}

/-- A name without dots is one segment. -/
lemma snake_of_isSegment (h : Identifier.IsSegment s) (hne : s ≠ "") :
    snake s = String.ofList (snakeSegment s.toList) := by
  rw [snake, if_pos (Identifier.isSafe_of_plain h.plain hne),
    Text.splitList_of_not_mem h.dot_not_mem, List.map_singleton, List.intercalate_singleton]

/-- A segment in snake case is a segment, or empty. -/
theorem isSegment_snake (h : Identifier.IsSegment s) (hne : s ≠ "") :
    Identifier.IsSegment (snake s) := by
  intro c hc
  rw [snake_of_isSegment h hne, String.toList_ofList] at hc
  exact isNameChar_of_mem_snakeSegment hc

/-- The segments of a dotted name are brought to snake case one by one. -/
theorem snake_intercalate (hss : ss ≠ []) (h : ∀ s ∈ ss, Identifier.IsSegment s ∧ s ≠ "") :
    snake (".".intercalate ss) = ".".intercalate (ss.map snake) := by
  obtain ⟨s, ss, rfl⟩ := List.exists_cons_of_ne_nil hss
  have hsafe : Identifier.isSafe (".".intercalate (s :: ss)) = true := by
    refine Identifier.isSafe_of_plain (Identifier.plain_intercalate fun t ht => (h t ht).1) ?_
    exact FieldRef.intercalate_ne_empty (h s List.mem_cons_self) ss
  have hpieces : (s :: ss).map (snakeSegment ∘ String.toList)
      = ((s :: ss).map snake).map String.toList := by
    rw [List.map_map]
    refine List.map_congr_left fun t ht => ?_
    rw [Function.comp_apply, Function.comp_apply, snake_of_isSegment (h t ht).1 (h t ht).2,
      String.toList_ofList]
  have hsplit : Text.splitList '.' (['.'].intercalate ((s :: ss).map String.toList))
      = (s :: ss).map String.toList := by
    refine Text.splitList_intercalate (List.cons_ne_nil _ _) fun p hp => ?_
    obtain ⟨t, ht, rfl⟩ := List.mem_map.1 hp
    exact (h t ht).1.dot_not_mem
  rw [← String.toList_inj, String.toList_intercalate, snake, if_pos hsafe, String.toList_ofList,
    String.toList_intercalate]
  show ['.'].intercalate
    ((Text.splitList '.' (['.'].intercalate ((s :: ss).map String.toList))).map snakeSegment) = _
  rw [hsplit, List.map_map, hpieces]
  rfl

end ReadQuery.FieldName
