import ReadQuery.Proofs.FieldName
import ReadQuery.Proofs.Outcome
import ReadQuery.Proofs.Walker

/-!
# Names in snake case are stable

The words of a segment are not empty and have no capital letters (`isWord_of_mem_words`). A segment
that is joined of such words has these words again (`words_intercalate`), so that a name in snake
case is kept as it is (`snake_snake`). Nothing but underscores and the case of letters is changed
(`filter_snake`).

A name that cannot be resolved is kept as it is, too (`snake_of_resolve_eq_error`): it is refused
afterwards as before. As a walker looks at nothing but the operands once the field is resolved, a
condition that it skips is skipped under the new name (`Condition.inSnakeCase`).
-/

namespace ReadQuery

namespace FieldName

open Text (isNameChar)

/-- The characters of names in snake case. -/
def isSnakeChar (c : Char) : Bool :=
  c.isLower || c.isDigit || c == '_' || c == '.'

/-- Letters and digits, at least one of them and no capital letter. -/
structure IsWord (w : List Char) : Prop where
  ne_nil : w ≠ []
  isAlphanum : ∀ c ∈ w, c.isAlphanum = true
  not_isUpper : ∀ c ∈ w, c.isUpper = false

variable {c : Char} {cs w : List Char} {ws : List (List Char)}

/-- Only a dot becomes a dot. -/
lemma toLower_eq_dot_iff : c.toLower = '.' ↔ c = '.' := by
  constructor
  · intro h
    cases hc : c.isUpper with
    | false => rwa [Text.toLower_of_not_isUpper hc] at h
    | true =>
      have hlower := Text.isLower_toLower_of_isUpper hc
      rw [h] at hlower
      cases hlower
  · rintro rfl
    rfl

/-- A name character is a letter, a digit or an underscore. -/
lemma isAlphanum_iff_of_isNameChar (h : isNameChar c = true) :
    c.isAlphanum = true ↔ c ≠ '_' := by
  rw [isNameChar, Bool.or_eq_true, beq_iff_eq] at h
  constructor
  · rintro hc rfl
    cases hc
  · exact h.resolve_right

/-- The words of a piece make the piece again. -/
lemma flatten_cutWords (mode : LetterCase) (current cs : List Char) :
    (cutWords mode current cs).flatten = current.reverse ++ cs := by
  induction mode, current, cs using cutWords.induct with
  | case1 => rfl
  | case2 mode current hne =>
    rw [cutWords, List.flatten_singleton, List.append_nil]
    exact hne
  | case3 mode current c => rw [cutWords, List.flatten_singleton, List.reverse_cons]
  | case4 mode current c next rest h ih =>
    rw [cutWords, if_pos h, List.flatten_cons, ih, List.reverse_cons]
    simp
  | case5 mode current c next rest h h' ih =>
    rw [cutWords, if_neg h, if_pos h', List.flatten_cons, ih]
    rfl
  | case6 mode current c next rest h h' ih =>
    rw [cutWords, if_neg h, if_neg h', ih, List.reverse_cons]
    simp

/-- No word is empty: one that ends before the last of several capitals has the others. -/
lemma ne_nil_of_mem_cutWords {mode : LetterCase} {current : List Char}
    (hcurrent : mode = .capital → current ≠ []) (hw : w ∈ cutWords mode current cs) : w ≠ [] := by
  induction mode, current, cs using cutWords.induct with
  | case1 => cases hw
  | case2 mode current hne =>
    rw [cutWords] at hw
    · obtain rfl := List.mem_singleton.1 hw
      simpa using hne
    · exact hne
  | case3 mode current c =>
    rw [cutWords] at hw
    obtain rfl := List.mem_singleton.1 hw
    simp
  | case4 mode current c next rest h ih =>
    rw [cutWords, if_pos h] at hw
    rcases List.mem_cons.1 hw with rfl | hw
    · simp
    · exact ih (by decide) hw
  | case5 mode current c next rest h h' ih =>
    rw [cutWords, if_neg h, if_pos h'] at hw
    rcases List.mem_cons.1 hw with rfl | hw
    · simpa using hcurrent h'.1
    · exact ih (fun _ => List.cons_ne_nil c []) hw
  | case6 mode current c next rest h h' ih =>
    rw [cutWords, if_neg h, if_neg h'] at hw
    exact ih (fun _ => List.cons_ne_nil c current) hw

/-- Without capital letters there is no place to cut at. -/
lemma cutWords_of_not_isUpper {mode : LetterCase} {current : List Char} (hmode : mode ≠ .capital)
    (hcs : ∀ c ∈ cs, c.isUpper = false) (hne : current ≠ [] ∨ cs ≠ []) :
    cutWords mode current cs = [current.reverse ++ cs] := by
  induction mode, current, cs using cutWords.induct with
  | case1 => simp at hne
  | case2 mode current hcurrent =>
    rw [cutWords, List.append_nil]
    exact hcurrent
  | case3 mode current c => rw [cutWords, List.reverse_cons]
  | case4 mode current c next rest h ih =>
    have hnext := hcs next (by simp)
    rw [hnext] at h
    cases h.2
  | case5 mode current c next rest h h' ih => exact absurd h'.1 hmode
  | case6 mode current c next rest h h' ih =>
    rw [List.forall_mem_cons] at hcs
    have hsmall : mode.next c ≠ .capital := by
      rw [LetterCase.next, hcs.1]
      split
      · decide
      · exact hmode
    rw [cutWords, if_neg h, if_neg h', ih hsmall hcs.2 (.inl (List.cons_ne_nil c current)),
      List.reverse_cons]
    simp

/-- A word is in small letters. -/
lemma IsWord.map_toLower (h : IsWord w) : w.map Char.toLower = w :=
  (List.map_congr_left fun c hc => Text.toLower_of_not_isUpper (h.not_isUpper c hc)).trans
    (List.map_id w)

/-- A word is not cut. -/
lemma IsWord.cutWords_eq (h : IsWord w) : cutWords .none [] w = [w] :=
  cutWords_of_not_isUpper (by decide) h.not_isUpper (.inr h.ne_nil)

/-- No letter or digit is lost between the pieces. -/
lemma flatten_pieces (cs : List Char) : (pieces cs).flatten = cs.filter Char.isAlphanum := by
  induction cs with
  | nil => rfl
  | cons c cs ih =>
    rw [pieces]
    split
    · next hc =>
      rw [List.filter_cons_of_pos hc, ← ih]
      cases pieces cs <;> rfl
    · next hc =>
      rw [List.filter_cons_of_neg hc, ← ih]
      rfl

/-- Underscores are the only characters of names that pieces are cut at. -/
lemma pieces_eq_splitList (h : ∀ c ∈ cs, isNameChar c = true) :
    pieces cs = Text.splitList '_' cs := by
  induction cs with
  | nil => rfl
  | cons c cs ih =>
    rw [List.forall_mem_cons] at h
    rw [pieces, Text.splitList, ih h.2]
    by_cases hc : c = '_'
    · rw [if_pos hc, if_neg fun halnum => (isAlphanum_iff_of_isNameChar h.1).1 halnum hc]
    · rw [if_neg hc, if_pos ((isAlphanum_iff_of_isNameChar h.1).2 hc)]

/-- The words of a segment are words. -/
lemma isWord_of_mem_words (hw : w ∈ words cs) : IsWord w := by
  rw [words] at hw
  obtain ⟨w', hw', rfl⟩ := List.mem_map.1 hw
  obtain ⟨p, hp, hw'⟩ := List.mem_flatMap.1 hw'
  refine ⟨?_, fun c hc => ?_, fun c hc => ?_⟩
  · have hstart : LetterCase.none = .capital → ([] : List Char) ≠ [] := by decide
    simpa using ne_nil_of_mem_cutWords hstart hw'
  · obtain ⟨c', hc', rfl⟩ := List.mem_map.1 hc
    have hmem := (mem_of_mem_cutWords hw' hc').resolve_left List.not_mem_nil
    exact Text.isAlphanum_toLower (isAlphanum_of_mem_pieces hp hmem)
  · obtain ⟨c', -, rfl⟩ := List.mem_map.1 hc
    exact Text.not_isUpper_toLower c'

/-- Words joined by underscores consist of name characters. -/
lemma isNameChar_of_mem_intercalate (h : ∀ w ∈ ws, IsWord w) (hc : c ∈ ['_'].intercalate ws) :
    isNameChar c = true := by
  rcases Text.mem_intercalate hc with hc | ⟨w, hw, hc⟩
  · obtain rfl := List.mem_singleton.1 hc
    rfl
  · exact Text.isNameChar_of_isAlphanum ((h w hw).isAlphanum c hc)

/-- A segment that is joined of words has these words. -/
theorem words_intercalate (h : ∀ w ∈ ws, IsWord w) : words (['_'].intercalate ws) = ws := by
  cases ws with
  | nil => rfl
  | cons w ws =>
    have hpieces : pieces (['_'].intercalate (w :: ws)) = w :: ws := by
      rw [pieces_eq_splitList fun c hc => isNameChar_of_mem_intercalate h hc]
      refine Text.splitList_intercalate (List.cons_ne_nil w ws) fun w' hw' hmem => ?_
      cases (h w' hw').isAlphanum '_' hmem
    have hcut : (w :: ws).flatMap (cutWords .none []) = w :: ws := by
      have hsingle : ∀ w' ∈ w :: ws, cutWords .none [] w' = [w'] := fun w' hw' =>
        (h w' hw').cutWords_eq
      rw [List.flatMap_congr hsingle, List.flatMap_singleton']
    rw [words, hpieces, hcut]
    exact (List.map_congr_left fun w' hw' => (h w' hw').map_toLower).trans (List.map_id _)

/-- A segment in snake case is kept. -/
lemma snakeSegment_snakeSegment (cs : List Char) :
    snakeSegment (snakeSegment cs) = snakeSegment cs := by
  have hwords : words (snakeSegment cs) = words cs :=
    words_intercalate fun w hw => isWord_of_mem_words hw
  rw [snakeSegment, hwords, snakeSegment]

/-- No letter or digit is lost between the words, in whatever case. -/
lemma flatten_words (cs : List Char) :
    (words cs).flatten = (cs.filter Char.isAlphanum).map Char.toLower := by
  have hcut : ∀ ps : List (List Char),
      (ps.flatMap (cutWords .none [])).flatten = ps.flatten := by
    intro ps
    induction ps with
    | nil => rfl
    | cons p ps ih =>
      rw [List.flatMap_cons, List.flatten_append, flatten_cutWords, ih]
      rfl
  rw [words, ← List.map_flatten, hcut, flatten_pieces]

/-- Nothing but underscores and the case of letters is changed in a segment. -/
lemma filter_snakeSegment (h : ∀ c ∈ cs, isNameChar c = true) :
    (snakeSegment cs).filter (· ≠ '_') = (cs.filter (· ≠ '_')).map Char.toLower := by
  have hwords : ∀ c ∈ (words cs).flatten, decide (c ≠ '_') = true := by
    intro c hc
    obtain ⟨w, hw, hc⟩ := List.mem_flatten.1 hc
    rw [decide_eq_true_eq]
    rintro rfl
    cases (isWord_of_mem_words hw).isAlphanum '_' hc
  have hletters : cs.filter Char.isAlphanum = cs.filter (· ≠ '_') := by
    refine List.filter_congr fun c hc => ?_
    rw [Bool.eq_iff_iff, decide_eq_true_eq]
    exact isAlphanum_iff_of_isNameChar (h c hc)
  have hmark : ['_'].filter (· ≠ '_') = [] := rfl
  rw [snakeSegment, Text.filter_intercalate, hmark, Text.nil_intercalate, ← List.filter_flatten,
    List.filter_eq_self.2 hwords, flatten_words, hletters]

variable {s : String}

/-- A name that is unsafe stays as it is. -/
lemma snake_of_not_isSafe (h : Identifier.isSafe s = false) : snake s = s := by
  rw [snake, h, if_neg Bool.false_ne_true]

/-- A safe name is changed segment by segment. -/
lemma toList_snake (h : Identifier.isSafe s = true) :
    (snake s).toList
      = ['.'].intercalate ((Text.splitList '.' s.toList).map snakeSegment) := by
  rw [snake, if_pos h, String.toList_ofList]

/-- The segments of a safe name consist of name characters. -/
lemma isNameChar_of_mem_splitList (h : Identifier.isSafe s = true)
    (hw : w ∈ Text.splitList '.' s.toList) (hc : c ∈ w) : isNameChar c = true := by
  obtain ⟨hmem, hdot⟩ := Text.mem_of_mem_splitList hw hc
  have hchar := Identifier.plain_of_isSafe h c hmem
  rw [Identifier.isChar, Bool.or_eq_true, beq_iff_eq] at hchar
  exact hchar.resolve_right hdot

/-- Nothing but underscores and the case of letters is changed in a name. -/
theorem filter_snake (h : Identifier.isSafe s = true) :
    (snake s).toList.filter (· ≠ '_') = (s.toList.filter (· ≠ '_')).map Char.toLower := by
  have hpieces : ((Text.splitList '.' s.toList).map snakeSegment).map (List.filter (· ≠ '_'))
      = ((Text.splitList '.' s.toList).map (List.filter (· ≠ '_'))).map
        (List.map Char.toLower) := by
    rw [List.map_map, List.map_map]
    exact List.map_congr_left fun w hw =>
      filter_snakeSegment fun c hc => isNameChar_of_mem_splitList h hw hc
  have hdot : (['.'].filter (· ≠ '_')).map Char.toLower = ['.'].filter (· ≠ '_') := rfl
  rw [toList_snake h, Text.filter_intercalate, hpieces, ← hdot, ← Text.map_intercalate,
    ← Text.filter_intercalate, Text.intercalate_splitList]

/-- A changed name consists of the characters of snake case. -/
lemma isSnakeChar_of_mem_snake (h : Identifier.isSafe s = true) (hc : c ∈ (snake s).toList) :
    isSnakeChar c = true := by
  by_cases hmark : c = '_'
  · rw [hmark]
    rfl
  have hmem : c ∈ (s.toList.filter (· ≠ '_')).map Char.toLower := by
    rw [← filter_snake h, List.mem_filter]
    exact ⟨hc, decide_eq_true hmark⟩
  obtain ⟨c', hc', rfl⟩ := List.mem_map.1 hmem
  rw [List.mem_filter, decide_eq_true_eq] at hc'
  have hchar := Identifier.plain_of_isSafe h c' hc'.1
  rw [Identifier.isChar, Bool.or_eq_true, beq_iff_eq] at hchar
  rcases hchar with hname | rfl
  · have halnum := Text.isAlphanum_toLower ((isAlphanum_iff_of_isNameChar hname).2 hc'.2)
    have hclass : ((c'.toLower.isUpper || c'.toLower.isLower) || c'.toLower.isDigit) = true :=
      halnum
    rw [Text.not_isUpper_toLower, Bool.false_or] at hclass
    rw [isSnakeChar, hclass]
    rfl
  · rfl

/-- The characters of snake case may stand in identifiers. -/
lemma isChar_of_isSnakeChar (h : isSnakeChar c = true) : Identifier.isChar c = true := by
  have halnum : c.isAlphanum = ((c.isUpper || c.isLower) || c.isDigit) := rfl
  simp only [isSnakeChar, Bool.or_eq_true] at h
  simp only [Identifier.isChar, isNameChar, halnum, Bool.or_eq_true]
  tauto

/-- No dot is lost or added. -/
lemma count_dot_snake (h : Identifier.isSafe s = true) :
    (snake s).toList.count '.' = s.toList.count '.' := by
  have hmap : ∀ l : List Char, (l.map Char.toLower).count '.' = l.count '.' := by
    intro l
    rw [List.count_eq_countP, List.count_eq_countP, List.countP_map]
    refine List.countP_congr fun c hc => ?_
    rw [Function.comp_apply, beq_iff_eq, beq_iff_eq]
    exact toLower_eq_dot_iff
  have hkept : ∀ l : List Char, (l.filter (· ≠ '_')).count '.' = l.count '.' := fun l =>
    List.count_filter rfl
  rw [← hkept, filter_snake h, hmap, hkept]

/-- A name in snake case is kept. -/
theorem snake_snake (s : String) : snake (snake s) = snake s := by
  cases h : Identifier.isSafe s with
  | false => rw [snake_of_not_isSafe h, snake_of_not_isSafe h]
  | true =>
    by_cases hempty : snake s = ""
    · rw [hempty]
      rfl
    · have hsafe : Identifier.isSafe (snake s) = true := Identifier.isSafe_of_plain
        (fun c hc => isChar_of_isSnakeChar (isSnakeChar_of_mem_snake h hc)) hempty
      have hpieces : Text.splitList '.' (snake s).toList
          = (Text.splitList '.' s.toList).map snakeSegment := by
        rw [toList_snake h]
        refine Text.splitList_intercalate ?_ fun w hw hdot => ?_
        · simpa using Text.splitList_ne_nil '.' s.toList
        · obtain ⟨w', -, rfl⟩ := List.mem_map.1 hw
          cases isNameChar_of_mem_snakeSegment hdot
      rw [← String.toList_inj, toList_snake hsafe, hpieces, List.map_map, toList_snake h]
      congr 2
      exact funext snakeSegment_snakeSegment

/-- A safe name is refused only if it has no segment. -/
lemma segments_eq_nil_of_resolve {path : Option String} {r : SkipReason}
    (hsafe : Identifier.isSafe s = true) (h : (FieldRef.resolve s path).result = .error r) :
    FieldRef.segments s = [] := by
  have hne : s ≠ "" := by
    rintro rfl
    cases hsafe
  have hkept := (FieldRef.trim_of_plain (Identifier.plain_of_isSafe hsafe) hne).1
  obtain ⟨hempty, -⟩ | ⟨hrefused | hsegments, -⟩ := FieldRef.of_resolve_eq_error h
  · exact absurd (hkept.symm.trans hempty) hne
  · rw [hkept, hsafe] at hrefused
    cases hrefused
  · rwa [hkept] at hsegments

/-- A name that cannot be resolved is kept: it is no identifier, or has nothing but dots. -/
theorem snake_of_resolve_eq_error {path : Option String} {r : SkipReason}
    (h : (FieldRef.resolve s path).result = .error r) : snake s = s := by
  cases hsafe : Identifier.isSafe s with
  | false => exact snake_of_not_isSafe hsafe
  | true =>
    have hsegments := segments_eq_nil_of_resolve hsafe h
    rw [FieldRef.segments, Text.split, List.filter_eq_nil_iff] at hsegments
    have hpieces : (Text.splitList '.' s.toList).map snakeSegment
        = Text.splitList '.' s.toList := by
      refine (List.map_congr_left fun w hw => ?_).trans (List.map_id _)
      have hempty := hsegments (String.ofList w) (List.mem_map_of_mem hw)
      rw [Bool.not_eq_true, Bool.not_eq_false', String.isEmpty_iff] at hempty
      obtain rfl : w = [] := by simpa using hempty
      rfl
    rw [← String.toList_inj, toList_snake hsafe, hpieces, Text.intercalate_splitList]

end FieldName

open FieldName (snake)

/-- A condition under its name in snake case, skipped by every walker that skips the condition. -/
structure Condition.InSnakeCase (c c' : Condition) : Prop where
  eq_rename : c' = { c with field := snake c.field }
  skipped : ∀ (b : Walker) (r : SkipReason), b.verdict c = .skipped r →
    ∃ r', b.verdict c' = .skipped r'

namespace Filter

mutual

/-- Filters of the same nodes whose conditions are related. -/
def Corresponds (R : Condition → Condition → Prop) : Filter → Filter → Prop
  | ⟨j, cs, fs⟩, ⟨j', cs', fs'⟩ => j = j' ∧ List.Forall₂ R cs cs' ∧ AllCorrespond R fs fs'

/-- Filters that correspond one by one. -/
def AllCorrespond (R : Condition → Condition → Prop) : List Filter → List Filter → Prop
  | [], [] => True
  | f :: fs, g :: gs => Corresponds R f g ∧ AllCorrespond R fs gs
  | [], _ :: _ | _ :: _, [] => False

end

variable {R : Condition → Condition → Prop} {rename : String → String}

mutual

/-- A filter corresponds to the one with its fields renamed. -/
lemma corresponds_mapFields (h : ∀ c : Condition, R c { c with field := rename c.field }) :
    ∀ f : Filter, Corresponds R f (f.mapFields rename)
  | ⟨junction, conditions, groups⟩ => by
    rw [mapFields, Corresponds]
    refine ⟨rfl, ?_, allCorrespond_mapFieldsAll h groups⟩
    rw [List.forall₂_map_right_iff, List.forall₂_same]
    exact fun c _ => h c

/-- Filters correspond to the ones with their fields renamed. -/
lemma allCorrespond_mapFieldsAll (h : ∀ c : Condition, R c { c with field := rename c.field }) :
    ∀ fs : List Filter, AllCorrespond R fs (mapFieldsAll rename fs)
  | [] => trivial
  | f :: fs => ⟨corresponds_mapFields h f, allCorrespond_mapFieldsAll h fs⟩

end

end Filter

/-- No walker that skips a condition takes it under its name in snake case. -/
theorem Condition.inSnakeCase (c : Condition) :
    c.InSnakeCase { c with field := snake c.field } := by
  refine ⟨rfl, fun b r h => ?_⟩
  cases hfield : c.fieldRef with
  | error e =>
    rw [FieldName.snake_of_resolve_eq_error hfield]
    exact ⟨r, h⟩
  | ok f =>
    cases hfield' : { c with field := snake c.field : Condition }.fieldRef with
    | error e => exact ⟨e, Walker.verdict_of_fieldRef_eq_error b hfield'⟩
    | ok f' => exact ⟨r, (Walker.verdict_congr b hfield hfield').trans h⟩

/-- Names in snake case are stable: a name in snake case is kept, and so is one that is no
identifier. All others keep their dots, letters and digits, those in small letters. What cannot be
resolved is refused under its name in snake case, and no condition of a filter is changed but for
its field, or taken where it was skipped. -/
theorem FieldName.snake_stable (s : String) (f : Filter) :
    snake (snake s) = snake s ∧
      (Identifier.isSafe s = false → snake s = s) ∧
      (Identifier.isSafe s = true →
        (snake s).toList.count '.' = s.toList.count '.' ∧
          (∀ c ∈ (snake s).toList, isSnakeChar c = true) ∧
          (snake s).toList.filter (· ≠ '_') = (s.toList.filter (· ≠ '_')).map Char.toLower) ∧
      (∀ r, (FieldRef.resolve s none).result = .error r →
        (FieldRef.resolve (snake s) none).result = .error r) ∧
      f.Corresponds Condition.InSnakeCase (f.mapFields snake) := by
  refine ⟨snake_snake s, snake_of_not_isSafe, fun hsafe => ⟨count_dot_snake hsafe,
    fun c hc => isSnakeChar_of_mem_snake hsafe hc, filter_snake hsafe⟩, fun r h => ?_,
    Filter.corresponds_mapFields Condition.inSnakeCase f⟩
  rwa [snake_of_resolve_eq_error h]

/-- Underscores may leave nothing of a segment, and a name with a blank behind it is no
identifier. -/
theorem FieldName.snake_stable_emptySegments :
    Identifier.isSafe "__.HTTPServer2Id." = true ∧
      snake "__.HTTPServer2Id." = ".http_server2_id." ∧
      snake ".http_server2_id." = ".http_server2_id." ∧
      ".http_server2_id.".toList.count '.' = "__.HTTPServer2Id.".toList.count '.' ∧
      Identifier.isSafe "userId " = false ∧ snake "userId " = "userId " ∧
      (FieldRef.resolve ".." none).result = .error (.invalidField "..") ∧
      (FieldRef.resolve (snake "..") none).result = .error (.invalidField "..") := by
  have hsafe : Identifier.isSafe "__.HTTPServer2Id." = true := by decide +kernel
  have hsnake : snake "__.HTTPServer2Id." = ".http_server2_id." := by decide +kernel
  have hunsafe : Identifier.isSafe "userId " = false := by decide +kernel
  have hdots : (FieldRef.resolve ".." none).result = .error (.invalidField "..") := by
    decide +kernel
  obtain ⟨hstable, -, hkept, -⟩ := snake_stable "__.HTTPServer2Id." Filter.none
  rw [hsnake] at hstable hkept
  exact ⟨hsafe, hsnake, hstable, (hkept hsafe).1, hunsafe,
    (snake_stable "userId " Filter.none).2.1 hunsafe, hdots,
    (snake_stable ".." Filter.none).2.2.2.1 _ hdots⟩

end ReadQuery
