import ReadQuery.Proofs.Filter.Walk
import ReadQuery.Proofs.Influx.Confinement
import ReadQuery.Proofs.Number.Numeral

/-!
# Scalars of predicates

The words of a predicate that are not between quotes and are no keywords (`HasScalar`). A predicate
has those of its conditions (`hasScalar_ofClause`), and a condition those of the values that it
compares with. Reading them as values goes wrong for floats that are not finite, and for nothing
else (`isScalarText_iff`): these are written as words that are names.

So all scalars of a condition, and of what remains of a filter, are truth values and numerals
exactly if all floats are finite that are compared with (`lex_condition_scalars`, `filter_scalars`).
-/

namespace ReadQuery.Influx

open Number (IsNumeral)

/-- A word that is read as a value: a truth value or a numeral. -/
def IsScalarText (w : String) : Prop :=
  w = "true" ∨ w = "false" ∨ IsNumeral w.toList

/-- A predicate falls into lexemes, of which a word is one. -/
def HasScalar (p w : String) : Prop :=
  ∃ ls, lex p = some ls ∧ Lexeme.scalar w ∈ ls

variable {p w field : String} {ls : List Lexeme} {c : Condition} {v : Value}

/-- A predicate has the words that are among its lexemes. -/
lemma hasScalar_iff (h : lex p = some ls) : HasScalar p w ↔ .scalar w ∈ ls := by
  unfold HasScalar
  rw [h]
  constructor
  · intro ⟨ls', hls, hw⟩
    rwa [Option.some.inj hls]
  · intro hw
    exact ⟨ls, rfl, hw⟩

/-- A word in joined predicates stands in one of them. -/
lemma scalar_mem_intercalate (connective : String) {lss : List (List Lexeme)} :
    .scalar w ∈ [Lexeme.keyword connective].intercalate lss ↔ ∃ ls ∈ lss, .scalar w ∈ ls := by
  induction lss with
  | nil => simp
  | cons ls lss ih =>
    cases lss with
    | nil => simp
    | cons ls' lss =>
      rw [List.intercalate_cons_cons, List.mem_append, List.mem_append, ih,
        List.exists_mem_cons_iff (a := ls)]
      simp

/-- The connective of a chain adds no scalar. -/
lemma scalar_mem_chained {connective : String} {lss : List (List Lexeme)} :
    .scalar w ∈ chained connective lss ↔ ∃ ls ∈ lss, .scalar w ∈ ls := by
  match lss with
  | [] => simp [chained]
  | [ls] => simp [chained]
  | ls :: ls' :: lss =>
    rw [← scalar_mem_intercalate connective]
    simp [chained]

/-- Predicates that are chained by a connective are lexed one by one. -/
lemma lex_chained {α : Type} {f : α → String} {g : α → List Lexeme} (j : Junction) {as : List α}
    (h : ∀ a ∈ as, lex (f a) = some (g a)) :
    lex (chain (connective j) (as.map f)) = some (chained j.name (as.map g)) := by
  have hconnective : connective j = " " ++ j.name ++ " " := by cases j <;> rfl
  have hkeyword : j.name ∈ keywords := by cases j <;> decide
  rw [hconnective]
  exact lex_chain h hkeyword

/-- The predicates of some clauses are those of each. -/
lemma ofClauses_eq (ks : List (Clause String)) : ofClauses ks = ks.map ofClause := by
  induction ks with
  | nil => rfl
  | cons k ks ih => rw [ofClauses, ih, List.map_cons]

/-- A clause of predicates that fall into lexemes does so, and has the scalars of the predicates. -/
lemma hasScalar_ofClause (k : Clause String) (h : ∀ p ∈ k.leaves, (lex p).isSome = true) :
    (lex (ofClause k)).isSome = true ∧
      ∀ w, HasScalar (ofClause k) w ↔ ∃ p ∈ k.leaves, HasScalar p w := by
  induction k using Clause.parts_induction with
  | leaf p =>
    rw [Clause.leaves, List.forall_mem_singleton] at h
    simp [ofClause, Clause.leaves, h]
  | group j parts ih =>
    rw [Clause.leaves, Clause.leavesOfAll_eq] at h ⊢
    have hleaves : ∀ k ∈ parts, ∀ p ∈ k.leaves, (lex p).isSome = true := by
      intro k hk p hp
      exact h p (List.mem_flatMap.2 ⟨k, hk, hp⟩)
    have hparts : ∀ k ∈ parts, lex (ofClause k) = some ((lex (ofClause k)).getD []) := by
      intro k hk
      obtain ⟨ls, hls⟩ := Option.isSome_iff_exists.1 (ih k hk (hleaves k hk)).1
      rw [hls, Option.getD_some]
    have hlex := lex_chained j hparts
    rw [ofClause, ofClauses_eq, hlex]
    refine ⟨rfl, fun w => ?_⟩
    rw [hasScalar_iff hlex, scalar_mem_chained]
    constructor
    · rintro ⟨ls, hls, hw⟩
      obtain ⟨k, hk, rfl⟩ := List.mem_map.1 hls
      obtain ⟨p, hp, hw⟩ := ((ih k hk (hleaves k hk)).2 w).1 ((hasScalar_iff (hparts k hk)).2 hw)
      exact ⟨p, List.mem_flatMap.2 ⟨k, hk, hp⟩, hw⟩
    · rintro ⟨p, hp, hw⟩
      obtain ⟨k, hk, hp⟩ := List.mem_flatMap.1 hp
      have hk' := ((ih k hk (hleaves k hk)).2 w).2 ⟨p, hp, hw⟩
      exact ⟨_, List.mem_map_of_mem hk, (hasScalar_iff (hparts k hk)).1 hk'⟩

/-- The predicates of what remains of a filter are those of its clause, or of its parts. -/
lemma exists_entries_eq (k : Option (Clause String)) :
    ∃ ks : List (Clause String), entries k = ks.map ofClause ∧
      (k.map Clause.leaves).getD [] = ks.flatMap Clause.leaves := by
  match k with
  | none => exact ⟨[], rfl, rfl⟩
  | some (.group .and parts) => exact ⟨parts, ofClauses_eq parts, Clause.leavesOfAll_eq parts⟩
  | some (.group .or parts) =>
    exact ⟨[.group .or parts], rfl, (List.flatMap_singleton _ _).symm⟩
  | some (.leaf p) => exact ⟨[.leaf p], rfl, rfl⟩

/-- They have the scalars of the predicates that remain. -/
lemma hasScalar_entries (k : Option (Clause String))
    (h : ∀ p ∈ (k.map Clause.leaves).getD [], (lex p).isSome = true) :
    (∀ p ∈ entries k, (lex p).isSome = true) ∧
      ∀ w, (∃ p ∈ entries k, HasScalar p w) ↔
        ∃ p ∈ (k.map Clause.leaves).getD [], HasScalar p w := by
  obtain ⟨ks, hentries, hleaves⟩ := exists_entries_eq k
  rw [hleaves] at h ⊢
  have hks : ∀ k ∈ ks, ∀ p ∈ k.leaves, (lex p).isSome = true := by
    intro k hk p hp
    exact h p (List.mem_flatMap.2 ⟨k, hk, hp⟩)
  rw [hentries]
  constructor
  · rw [List.forall_mem_map]
    intro k hk
    exact (hasScalar_ofClause k (hks k hk)).1
  · intro w
    constructor
    · intro ⟨p, hp, hw⟩
      obtain ⟨k, hk, rfl⟩ := List.mem_map.1 hp
      obtain ⟨p, hp, hw⟩ := ((hasScalar_ofClause k (hks k hk)).2 w).1 hw
      exact ⟨p, List.mem_flatMap.2 ⟨k, hk, hp⟩, hw⟩
    · intro ⟨p, hp, hw⟩
      obtain ⟨k, hk, hp⟩ := List.mem_flatMap.1 hp
      exact ⟨_, List.mem_map_of_mem hk, ((hasScalar_ofClause k (hks k hk)).2 w).2 ⟨p, hp, hw⟩⟩

/-- The texts of numbers that are not finite are not read as values. -/
lemma not_isScalarText_of_mem : ∀ w ∈ ["NaN", "-inf", "inf"], ¬ IsScalarText w := by
  have htruth : ∀ w ∈ ["NaN", "-inf", "inf"], w ≠ "true" ∧ w ≠ "false" := by decide
  intro w hw h
  rcases h with h | h | h
  · exact (htruth w hw).1 h
  · exact (htruth w hw).2 h
  · exact Number.not_isNumeral_of_mem w hw h

/-- A value that is written as a word is written as a truth value or a numeral, unless it is a float
that is not finite. -/
lemma isScalarText_iff (h : valueLexeme v = .scalar w) :
    IsScalarText w ↔ ∀ d, v = .float d → d.isFinite = true := by
  cases v with
  | null | string | list => cases h
  | bool b =>
    cases h
    refine ⟨fun _ => nofun, fun _ => ?_⟩
    cases b with
    | false => exact .inr (.inl rfl)
    | true => exact .inl rfl
  | int i =>
    cases h
    exact ⟨fun _ => nofun, fun _ => .inr (.inr (Number.isNumeral_showInt64 i))⟩
  | float d =>
    cases h
    constructor
    · intro hw d' hd
      cases hd
      by_contra hinfinite
      have hmem : literal (.float d) ∈ ["NaN", "-inf", "inf"] :=
        Number.text_mem_of_not_isFinite (eq_false_of_ne_true hinfinite)
      exact not_isScalarText_of_mem _ hmem hw
    · intro hfinite
      exact .inr (.inr (Number.isNumeral_text_iff.2 (hfinite d rfl)))

/-- A comparison has the word that its value is written with. -/
lemma scalar_mem_comparison {sign : String} {l : Lexeme} :
    .scalar w ∈ comparison field sign l ↔ .scalar w = l := by
  simp [comparison]

/-- Comparisons have the words that their values are written with. -/
lemma scalar_mem_comparisons {connective sign : String} :
    .scalar w ∈ chained connective (ls.map (comparison field sign)) ↔ .scalar w ∈ ls := by
  simp [scalar_mem_chained, scalar_mem_comparison]

/-- The number in the predicate that never holds is its only scalar. -/
lemma eq_zero_of_scalar_mem_never (h : .scalar w ∈ neverLexemes) : w = "0" := by
  simpa [neverLexemes] using h

/-- A scalar of a predicate is one of the literals, but for the number in the predicate that never
holds. -/
lemma scalar_of_conditionLexemes {op : Operator} (h : .scalar w ∈ conditionLexemes field op ls) :
    .scalar w ∈ ls ∨ w = "0" := by
  unfold conditionLexemes at h
  split at h
  · exact .inl (List.mem_singleton.2 (scalar_mem_comparison.1 h))
  · exact .inr (eq_zero_of_scalar_mem_never h)
  · exact .inl (scalar_mem_comparisons.1 h)
  · exact .inl (scalar_mem_comparisons.1 h)
  · simpa [scalar_mem_chained, scalar_mem_comparison] using Or.inl h
  · exact .inl (List.mem_singleton.2 (scalar_mem_comparison.1 h))
  · exact .inl (List.mem_singleton.2 (scalar_mem_comparison.1 h))
  · exact .inl (List.mem_singleton.2 (scalar_mem_comparison.1 h))
  · exact .inl (List.mem_singleton.2 (scalar_mem_comparison.1 h))
  · exact .inl (List.mem_singleton.2 (scalar_mem_comparison.1 h))
  · cases h

/-- The scalars among the literals of a condition that does not look for a pattern are scalars of
its predicate. -/
lemma scalar_mem_conditionLexemes {quoted : String} (hop : c.op.isPattern = false)
    (h : operation quoted c = .rendered p) (hw : .scalar w ∈ c.compared.map valueLexeme) :
    .scalar w ∈ conditionLexemes field c.op (c.compared.map valueLexeme) := by
  unfold Condition.compared at hw ⊢
  unfold operation at h
  cases hc : c.op with
  | unspecified => simp [hc] at h
  | compare cmp =>
    rw [hc] at hw
    cases hv : c.scalar? with
    | none => simp [hv] at hw
    | some v =>
      simp only [hv, Option.toList_some, List.map_singleton, List.mem_singleton] at hw ⊢
      exact scalar_mem_comparison.2 hw
  | among negated =>
    simp only [hc] at hw ⊢
    generalize c.resolveList.map valueLexeme = ls at hw
    cases ls with
    | nil => cases hw
    | cons l ls => cases negated <;> exact scalar_mem_comparisons.2 hw
  | between =>
    simp only [hc] at hw ⊢
    unfold Condition.resolveRange at h
    match hvs : c.resolveList with
    | [] => simp [hc, hvs] at h
    | [v] =>
      simp only [hvs, List.map_singleton, List.mem_singleton] at hw ⊢
      exact scalar_mem_comparison.2 hw
    | [lower, upper] =>
      simp only [hvs, List.map_cons, List.map_nil] at hw ⊢
      simpa [conditionLexemes, scalar_mem_chained, scalar_mem_comparison] using hw
    | _ :: _ :: _ :: _ => simp [hc, hvs] at h
  | nullness negated =>
    simp only [hc, List.map_singleton, List.mem_singleton] at hw ⊢
    exact scalar_mem_comparison.2 hw
  | text | regex | search => simp [hc, Operator.isPattern] at hop

/-- Zero is written as a number. -/
lemma isScalarText_zero : IsScalarText "0" :=
  .inr (.inr (.whole false Number.isDigits_zero .none))

/-- A word is that of a value but not read as one if it is that of a float that is not finite. -/
lemma exists_float_iff {vs : List Value} :
    .scalar w ∈ vs.map valueLexeme ∧ ¬ IsScalarText w ↔
      ∃ d, .float d ∈ vs ∧ d.isFinite = false ∧ w = literal (.float d) := by
  constructor
  · intro ⟨hw, hmisread⟩
    obtain ⟨v, hv, hlexeme⟩ := List.mem_map.1 hw
    rw [isScalarText_iff hlexeme, not_forall] at hmisread
    obtain ⟨d, hd⟩ := hmisread
    rw [Classical.not_imp] at hd
    obtain ⟨rfl, hinfinite⟩ := hd
    exact ⟨d, hv, eq_false_of_ne_true hinfinite, (Lexeme.scalar.inj hlexeme).symm⟩
  · intro ⟨d, hd, hinfinite, hw⟩
    have hlexeme : valueLexeme (.float d) = .scalar w := congrArg Lexeme.scalar hw.symm
    refine ⟨List.mem_map.2 ⟨_, hd, hlexeme⟩, fun hread => ?_⟩
    rw [isScalarText_iff hlexeme] at hread
    rw [hread d rfl] at hinfinite
    cases hinfinite

/-- The predicate of a condition falls into lexemes. The scalars that are not read as values are
those of the floats that are not finite, unless the condition looks for a pattern. -/
theorem lex_condition_scalars (h : condition c = .rendered p) : ∃ ls, lex p = some ls ∧
    ∀ w, .scalar w ∈ ls ∧ ¬ IsScalarText w ↔
      c.op.isPattern = false ∧
        ∃ d, .float d ∈ c.compared ∧ d.isFinite = false ∧ w = literal (.float d) := by
  cases hf : c.fieldRef with
  | error reason => simp [condition, hf] at h
  | ok f =>
    have hfield := lex_quoteName (Condition.backslash_not_mem_dotted hf)
    rcases condition_of_ok hf with hoperation | ⟨part, hpart⟩
    · rw [hoperation] at h
      cases hop : c.op.isPattern with
      | true =>
        obtain ⟨ls, hlex, hliterals⟩ := lex_operation_pattern hfield hop h
        refine ⟨_, hlex, fun w => iff_of_false ?_ fun h => Bool.false_ne_true h.1.symm⟩
        rintro ⟨hw, hmisread⟩
        rcases scalar_of_conditionLexemes hw with hw | rfl
        · -- the only literal is a pattern between slashes
          cases hliterals with
          | values hvalues =>
            rw [hop] at hvalues
            cases hvalues
          | pattern =>
            rw [List.mem_singleton] at hw
            cases hw
        · exact hmisread isScalarText_zero
      | false =>
        refine ⟨_, lex_operation_values hfield hop h, fun w => ?_⟩
        rw [← exists_float_iff, eq_self, true_and]
        refine and_congr_left fun hmisread => ⟨fun hw => ?_, scalar_mem_conditionLexemes hop h⟩
        rcases scalar_of_conditionLexemes hw with hw | rfl
        · exact hw
        · exact absurd isScalarText_zero hmisread
    · cases hpart.symm.trans h

/-- The predicates of a filter fall into lexemes. The scalars that are not read as values are those
of the floats that are not finite among the values that its conditions compare with. -/
theorem filter_scalars {policy : SkipPolicy} {f : Filter} {ps : List String}
    (h : (filter policy f).result = .ok ps) :
    (∀ p ∈ ps, (lex p).isSome = true) ∧
      ∀ w, (∃ p ∈ ps, HasScalar p w) ∧ ¬ IsScalarText w ↔
        ∃ c ∈ f.liveConditions, (condition c).isRendered = true ∧ c.op.isPattern = false ∧
          ∃ d, .float d ∈ c.compared ∧ d.isFinite = false ∧ w = literal (.float d) := by
  have hremains : entries (f.remains condition) = ps := by
    rw [filter, Traced.result_bind, Filter.compile_result] at h
    obtain ⟨k, hk, hps⟩ := bind_eq_ok.1 h
    rw [SkipPolicy.of_settle_eq_ok hk]
    exact Except.ok.inj hps
  have hleaves : ∀ {p}, p ∈ ((f.remains condition).map Clause.leaves).getD [] ↔
      ∃ c ∈ f.liveConditions, condition c = .rendered p := by
    intro p
    rw [Filter.leaves_remains, List.mem_filterMap]
    simp only [Compiled.form?_eq_some]
  obtain ⟨hlex, hscalars⟩ := hasScalar_entries (f.remains condition) fun p hp => by
    obtain ⟨c, -, hc⟩ := hleaves.1 hp
    obtain ⟨ls, hls, -⟩ := lex_condition_scalars hc
    rw [hls, Option.isSome_some]
  rw [hremains] at hlex hscalars
  refine ⟨hlex, fun w => ?_⟩
  rw [hscalars]
  constructor
  · intro ⟨⟨p, hp, hw⟩, hmisread⟩
    obtain ⟨c, hc, hrendered⟩ := hleaves.1 hp
    obtain ⟨ls, hls, hfloats⟩ := lex_condition_scalars hrendered
    have hfloat := (hfloats w).1 ⟨(hasScalar_iff hls).1 hw, hmisread⟩
    refine ⟨c, hc, ?_, hfloat⟩
    rw [hrendered]
    rfl
  · intro ⟨c, hc, hrendered, hfloat⟩
    obtain ⟨p, hp⟩ := Option.isSome_iff_exists.1 hrendered
    have hp := Compiled.form?_eq_some.1 hp
    obtain ⟨ls, hls, hfloats⟩ := lex_condition_scalars hp
    obtain ⟨hw, hmisread⟩ := (hfloats w).2 hfloat
    exact ⟨⟨p, hleaves.2 ⟨c, hc, hp⟩, (hasScalar_iff hls).2 hw⟩, hmisread⟩

end ReadQuery.Influx
