import ReadQuery.Proofs.Influx.Scalars
import ReadQuery.Proofs.Input.Provenance
import ReadQuery.Proofs.Number.Overflow

/-!
# Floats from expressions in InfluxQL

What becomes of the floats that are written in an expression. A literal that is too great for a
floating-point number is read as an infinite one without an error, and InfluxQL has no literal for
it: the predicate has the word `inf`, which is a name.

The main statement, `scalars_of_parse`, says for which literals this happens, that nothing else goes
wrong, and that all scalars of the predicates are truth values and numerals exactly if the floats
that are compared with are finite.
-/

namespace ReadQuery

open Number (Double IsDecimal)

/-- The values that a condition is given. -/
def Condition.given (c : Condition) : List Value :=
  c.value.toList ++ c.values

variable {c : Condition} {vs : List Value} {d : Double}

/-- No list is written as one value. -/
lemma Value.IsWritten.kind_ne_list {text : List Char} {v : Value} (h : v.IsWritten text) :
    v.kind ≠ .list := by
  cases v with
  | list items => exact h.elim
  | null | bool | int | float | string => exact nofun

namespace Condition

/-- The values that a condition has are those that it was given. -/
lemma HasExactly.given_eq (h : c.HasExactly vs) : c.given = vs := by
  unfold HasExactly at h
  unfold given
  cases harity : c.op.arity with
  | nullary =>
    rw [harity] at h
    obtain ⟨rfl, hvalue, hvalues⟩ := h
    rw [hvalue, hvalues]
    rfl
  | single =>
    rw [harity] at h
    obtain ⟨v, rfl, hvalue, hvalues⟩ := h
    rw [hvalue, hvalues]
    rfl
  | list | range =>
    rw [harity] at h
    rw [h.1, h.2]
    rfl

/-- The value of an operator that takes one is compared with as it is, unless it is compared with a
part of a date. -/
lemma scalar?_of_value {v : Value} (hvalue : c.value = some v) (hpart : c.datePart = none) :
    c.scalar? = some v := by
  simp [scalar?, hasNumericPart, hvalue, hpart]

/-- A list of values on no part of a date is resolved to itself. -/
lemma resolveList_of_values (hvalue : c.value = none) (hpart : c.datePart = none) :
    c.resolveList = c.values := by
  simp [resolveList, hasNumericPart, hvalue, hpart]

/-- The floats that a condition compares with are those that it is given. -/
lemma HasExactly.float_mem_compared_iff (h : c.HasExactly vs) (hpart : c.datePart = none) :
    .float d ∈ c.compared ↔ .float d ∈ vs := by
  unfold HasExactly at h
  unfold compared
  cases hop : c.op with
  | unspecified =>
    rw [hop] at h
    rw [h.1]
  | compare | text | regex | search =>
    rw [hop] at h
    obtain ⟨v, rfl, hvalue, -⟩ := h
    rw [scalar?_of_value hvalue hpart]
    rfl
  | among | between =>
    rw [hop] at h
    obtain ⟨hvalue, rfl⟩ := h
    rw [resolveList_of_values hvalue hpart]
  | nullness =>
    rw [hop] at h
    rw [h.1]
    simp

end Condition

namespace Influx

/-- Only conditions on no part of a date are rendered. -/
lemma datePart_of_isRendered (h : (condition c).isRendered = true) : c.datePart = none := by
  unfold condition at h
  cases hf : c.fieldRef with
  | error reason =>
    simp only [hf] at h
    cases h
  | ok f =>
    cases hpart : c.datePart with
    | none => rfl
    | some part =>
      simp only [hf, hpart] at h
      cases h

/-- The words of the floats that are too great. -/
lemma eq_inf_of_isWritten {text : List Char} (hwritten : (Value.float d).IsWritten text)
    (hinfinite : d.isFinite = false) :
    literal (.float d) = "inf" ∨ literal (.float d) = "-inf" := by
  obtain ⟨_, negative, n, e, -, -, rfl⟩ := hwritten
  have htext := Number.text_of_not_isFinite (l := .marked) hinfinite
  rw [Double.isNaN_ofDecimal, if_neg Bool.false_ne_true] at htext
  rw [literal, htext]
  split
  · exact .inr rfl
  · exact .inl rfl

section

variable {s : String} {f : Filter}

/-- The values of a parsed condition are written in the text that was parsed. -/
lemma isWritten_of_mem_given (h : Input.Expression.parse s = .ok f) (hc : c ∈ f.allConditions)
    {v : Value} (hv : v ∈ c.given) : v.IsWritten s.toList := by
  obtain ⟨vs, hoperands, hvs⟩ := Input.Expression.isWritten_of_parse h hc
  rw [hoperands.given_eq] at hv
  exact hvs v hv

/-- A condition of an expression that has a predicate compares with the floats that it is given. -/
lemma float_mem_compared_iff (h : Input.Expression.parse s = .ok f) (hc : c ∈ f.allConditions)
    (hrendered : (condition c).isRendered = true) :
    .float d ∈ c.compared ↔ .float d ∈ c.given := by
  obtain ⟨vs, hoperands, -⟩ := Input.Expression.isWritten_of_parse h hc
  rw [hoperands.given_eq, hoperands.float_mem_compared_iff (datePart_of_isRendered hrendered)]

/-- The scalars that are not read as values are those of the floats in the expression that are not
finite. -/
lemma misread_iff (h : Input.Expression.parse s = .ok f) {policy : SkipPolicy} {ps : List String}
    (hps : (filter policy f).result = .ok ps) (w : String) :
    (∃ p ∈ ps, HasScalar p w) ∧ ¬ IsScalarText w ↔
      ∃ c ∈ f.liveConditions, (condition c).isRendered = true ∧ c.op.isPattern = false ∧
        ∃ d, .float d ∈ c.given ∧ d.isFinite = false ∧ w = literal (.float d) := by
  rw [(filter_scalars hps).2 w]
  refine exists_congr fun c => and_congr_right fun hc => and_congr_right fun hrendered =>
    and_congr_right fun _ => exists_congr fun d => and_congr_left fun _ => ?_
  exact float_mem_compared_iff h (Filter.liveConditions_subset f hc) hrendered

end

/-- The operands of an expression are no lists, and its floats are the numbers nearest to literals
in the text: never a NaN, but infinite from the midpoint between the greatest finite number and the
power of two behind it on.

The predicates fall into lexemes, and a scalar of them is a truth value, a numeral, or the word of
an infinite number. None is such a word exactly if all floats are finite that conditions with a
predicate, and without a pattern, are given. -/
theorem scalars_of_parse {s : String} {f : Filter} (h : Input.Expression.parse s = .ok f) :
    (∀ c ∈ f.allConditions, ∀ v ∈ c.given, v.kind ≠ .list ∧ ∀ d, v = .float d →
      ∃ literal negative n e, literal <:+: s.toList ∧ IsDecimal literal negative n e ∧
        d = Double.ofDecimal negative n e ∧ d.isNaN = false ∧
        (d.isFinite = true ↔ (n * 10 ^ e : ℚ) < 2 ^ 1024 - 2 ^ 970)) ∧
    ∀ policy ps, (filter policy f).result = .ok ps →
      (∀ p ∈ ps, ∃ ls, lex p = some ls ∧
        ∀ w, .scalar w ∈ ls → IsScalarText w ∨ w = "inf" ∨ w = "-inf") ∧
      ((∀ p ∈ ps, ∀ w, HasScalar p w → IsScalarText w) ↔
        ∀ c ∈ f.liveConditions, (condition c).isRendered = true → c.op.isPattern = false →
          ∀ d, .float d ∈ c.given → d.isFinite = true) := by
  constructor
  · intro c hc v hv
    have hwritten := isWritten_of_mem_given h hc hv
    refine ⟨hwritten.kind_ne_list, ?_⟩
    rintro d rfl
    obtain ⟨literal, negative, n, e, hinfix, hliteral, rfl⟩ := hwritten
    exact ⟨literal, negative, n, e, hinfix, hliteral, rfl, Double.isNaN_ofDecimal negative n e,
      Double.isFinite_ofDecimal_iff negative n e⟩
  intro policy ps hps
  constructor
  · intro p hp
    obtain ⟨ls, hls⟩ := Option.isSome_iff_exists.1 ((filter_scalars hps).1 p hp)
    refine ⟨ls, hls, fun w hw => ?_⟩
    by_cases hread : IsScalarText w
    · exact .inl hread
    · obtain ⟨c, hc, -, -, d, hd, hinfinite, rfl⟩ :=
        (misread_iff h hps w).1 ⟨⟨p, hp, (hasScalar_iff hls).2 hw⟩, hread⟩
      have hwritten := isWritten_of_mem_given h (Filter.liveConditions_subset f hc) hd
      exact .inr (eq_inf_of_isWritten hwritten hinfinite)
  constructor
  · intro hread c hc hrendered hop d hd
    by_contra hinfinite
    obtain ⟨⟨p, hp, hw⟩, hmisread⟩ := (misread_iff h hps _).2
      ⟨c, hc, hrendered, hop, d, hd, eq_false_of_ne_true hinfinite, rfl⟩
    exact hmisread (hread p hp _ hw)
  · intro hfinite p hp w hw
    by_contra hmisread
    obtain ⟨c, hc, hrendered, hop, d, hd, hinfinite, -⟩ :=
      (misread_iff h hps w).1 ⟨⟨p, hp, hw⟩, hmisread⟩
    rw [hfinite c hc hrendered hop d hd] at hinfinite
    cases hinfinite

/-- A comparison with a float, and a membership with a negative one. -/
def measuredText : String :=
  "load > 1.5 AND delta IN (-2.0e3, 7)"

/-- The predicates of the measured text. -/
def measuredPredicates : List String :=
  ["\"load\" > 1.5", "(\"delta\" = -2000.0 OR \"delta\" = 7)"]

/-- The scalars of the predicates are numerals, since the floats in the text are finite. -/
theorem scalars_of_parse_measuredText : ∃ f, Input.Expression.parse measuredText = .ok f ∧
    (filter .strict f).result = .ok measuredPredicates ∧
    (∀ p ∈ measuredPredicates, (lex p).isSome = true) ∧
    ∀ p ∈ measuredPredicates, ∀ w, HasScalar p w → IsScalarText w := by
  have hresult : (Input.Expression.parse measuredText).toOption.map
      (fun f => ((filter .strict f).result.toOption, f.liveConditions.flatMap Condition.given))
        = some (some measuredPredicates,
          [.float ⟨0x3FF8000000000000⟩, .float ⟨0xC09F400000000000⟩, .int 7]) := by
    decide +kernel
  obtain ⟨f, hparse, heq⟩ := Option.map_eq_some_iff.1 hresult
  obtain ⟨hfilter, hgiven⟩ := Prod.mk.inj heq
  have hparse := eq_ok_of_toOption hparse
  have hfilter := eq_ok_of_toOption hfilter
  have hfinite : ∀ c ∈ f.liveConditions, ∀ d, .float d ∈ c.given → d.isFinite = true := by
    intro c hc d hd
    have hmem := List.mem_flatMap.2 ⟨c, hc, hd⟩
    rw [hgiven] at hmem
    simp only [List.mem_cons, List.not_mem_nil, Value.float.injEq, reduceCtorEq, or_false] at hmem
    rcases hmem with rfl | rfl
    · decide
    · decide
  obtain ⟨hlex, hscalars⟩ := (scalars_of_parse hparse).2 _ _ hfilter
  refine ⟨f, hparse, hfilter, ?_, hscalars.2 fun c hc _ _ => hfinite c hc⟩
  intro p hp
  obtain ⟨ls, hls, -⟩ := hlex p hp
  rw [hls, Option.isSome_some]

/-- A literal beyond the greatest finite number is read as infinite and written as a name. -/
theorem not_forall_scalars_of_parse :
    ¬ ∀ s f, Input.Expression.parse s = .ok f →
      (∀ c ∈ f.allConditions, ∀ d, .float d ∈ c.given → d.isFinite = true) ∧
      ∀ policy ps, (filter policy f).result = .ok ps →
        ∀ p ∈ ps, ∀ w, HasScalar p w → IsScalarText w := by
  intro h
  have hresult : (Input.Expression.parse "a = 1.0e999").toOption.map
      (fun f => (filter .lenient f).result.toOption) = some (some ["\"a\" = inf"]) := by
    decide +kernel
  obtain ⟨f, hparse, hfilter⟩ := Option.map_eq_some_iff.1 hresult
  have hread := (h _ f (eq_ok_of_toOption hparse)).2 .lenient _ (eq_ok_of_toOption hfilter) _
    List.mem_cons_self "inf"
  have hlex : lex "\"a\" = inf" = some [.name "a", .keyword "=", .scalar "inf"] := by
    decide +kernel
  have hmem : Lexeme.scalar "inf" ∈ [.name "a", .keyword "=", .scalar "inf"] := by decide
  exact not_isScalarText_of_mem "inf" (by decide) (hread ⟨_, hlex, hmem⟩)

end Influx

end ReadQuery
