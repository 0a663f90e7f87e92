import ReadQuery.Input.Structured
import ReadQuery.Proofs.Input.Key
import ReadQuery.Proofs.Json.Reading

/-!
# One filter as a map and as a record

A comparison of a field with one value can be asked for as a member of a map payload, whose key is
made of the field and an operator, and as a record of a structured filter. Both forms know the
spellings of all operators and all values without members, and both are read as the same condition,
except that a record takes a value of `null` as absent (`surfaces_converge_iff`).
-/

namespace ReadQuery

open Json (Written)

namespace Json.Written

/-- A text is read back from what is written of it. -/
lemma string?_ofJson (s : String) : (ofJson (.string s)).string? = some s := by
  rw [ofJson, string?, unescape_escape, Option.map_some, String.ofList_toList]

end Json.Written

/-- An operator with one operand is one that is known. -/
lemma Operator.isSpecified_of_single {op : Operator} (h : op.arity = .single) :
    op.isSpecified = true := by
  cases op with
  | unspecified => cases h
  | _ => rfl

/-- A value without members is read as itself, and no other one is read as null. -/
lemma Value.ofJson_scalar {j : Json} (h : j.IsScalar) :
    ∃ v, Value.ofJson j = .ok v ∧ (∀ items, v ≠ .list items) ∧ (v = .null ↔ j = .null) := by
  cases j with
  | null => exact ⟨_, rfl, by simp, by simp⟩
  | bool | float | string => exact ⟨_, rfl, by simp, by simp⟩
  | int i =>
    rw [Value.ofJson]
    split
    · exact ⟨_, rfl, by simp, by simp⟩
    · exact ⟨_, rfl, by simp, by simp⟩
  | array | object => cases h

namespace Input

/-- A comparison of a field with one value, as it is asked for. -/
structure Comparand where
  field : String
  spelling : String
  value : Json

namespace Comparand

/-- The key and the value of a comparison in a map payload. -/
def member (m : Comparand) : String × Json :=
  (m.field ++ "__" ++ m.spelling, m.value)

/-- The record of a comparison. -/
def record (m : Comparand) : Json :=
  .object [("field", .string m.field), ("op", .string m.spelling), ("value", m.value)]

/-- The condition that a comparand becomes in a map payload. -/
def condition (m : Comparand) : Condition :=
  ⟨m.field, Operator.ofSpelling m.spelling, (Value.ofJson m.value).toOption, [], none, none⟩

/-- The condition of a comparison with a value of `null` left out. -/
def conditionWithoutNull (m : Comparand) : Condition :=
  { m.condition with value := m.condition.value.filter (· ≠ .null) }

/-- A field without dots that can be told from the operator behind it, an operator with one operand
and a value without members. -/
structure Valid (m : Comparand) : Prop where
  not_dotted : '.' ∉ m.field.toList
  undoubled : Text.Undoubled '_' m.field.toList
  getLast? : m.field.toList.getLast? ≠ some '_'
  arity : (Operator.ofSpelling m.spelling).arity = .single
  isScalar : m.value.IsScalar

variable {m : Comparand} {ms : List Comparand}

/-- The member of a comparand is converted to its condition. -/
lemma condition_member (h : m.Valid) :
    MapPayload.condition m.member.1 m.member.2 = pure m.condition := by
  have hop := Operator.isSpecified_of_single h.arity
  obtain ⟨v, hv, hlist, -⟩ := Value.ofJson_scalar h.isScalar
  have hcondition : m.condition
      = ⟨m.field, Operator.ofSpelling m.spelling, some v, [], none, none⟩ := by
    rw [condition, hv]
    rfl
  have hkey := MapPayload.Key.ofText_operator h.undoubled h.getLast? hop
  have hread := MapPayload.condition_of_ofText hkey hop hv
  rw [MapPayload.Key.condition_of_single h.not_dotted h.arity hlist none, ← hcondition] at hread
  exact hread

/-- The members of comparands are converted to their conditions. -/
lemma conditions_members (h : ∀ m ∈ ms, m.Valid) :
    MapPayload.conditions (ms.map member) = pure (ms.map condition) := by
  induction ms with
  | nil => rfl
  | cons m ms ih =>
    rw [List.forall_mem_cons] at h
    rw [List.map_cons, MapPayload.conditions, condition_member h.1, ih h.2]
    rfl

/-- A record has the field, the operator and the value of its comparand. -/
lemma record?_record (m : Comparand) :
    (Written.ofJson m.record).record? [["field"], ["op"], ["value"], ["values"],
        ["json_path", "jsonPath"], ["date_part", "datePart"]]
      = some [some (.ofJson (.string m.field)), some (.ofJson (.string m.spelling)),
          some (.ofJson m.value), none, none, none] := by
  rfl

/-- A value of `null` in a record is absent, all others are read. -/
lemma optional?_value {j : Json} (h : j.IsScalar) (depth : Nat) :
    Written.optional? (Value.ofWritten? depth) (some (.ofJson j))
      = some ((Value.ofJson j).toOption.filter (· ≠ .null)) := by
  by_cases hj : j = .null
  · subst hj
    rfl
  · obtain ⟨v, hv, -, hnull⟩ := Value.ofJson_scalar h
    have hwritten : Written.ofJson j = .null → False := by
      cases j with
      | null => exact absurd rfl hj
      | _ => nofun
    have hread : Value.ofWritten? depth (.ofJson j) = some v := by
      rw [Value.ofWritten?, Written.read?_ofJson h, Option.bind_some, hv]
      rfl
    have hne : v ≠ .null := fun he => hj (hnull.1 he)
    have hkept : (Except.ok v : Except ConversionFailure Value).toOption.filter (· ≠ .null)
        = some v := Option.filter_some_pos (decide_eq_true hne)
    rw [Written.optional?, hread, hv, hkept]
    · rfl
    · exact hwritten

/-- The record of a comparand is read as a condition, where null counts as no value. -/
lemma ofWritten?_record (h : m.Valid) (depth : Nat) :
    Condition.ofWritten? (depth + 1) (.ofJson m.record) = some m.conditionWithoutNull := by
  rw [Condition.ofWritten?, if_neg (by omega), record?_record, Nat.add_sub_cancel]
  simp only [Option.bind_some, Written.required?, Written.string?_ofJson, Written.defaulted?,
    optional?_value h.isScalar, Option.map_some, Option.bind_eq_bind]
  simp only [Written.optional?, Option.bind_some, Option.pure_def, conditionWithoutNull, condition]

/-- Records of comparisons are read as conditions, where they may be entered at all. -/
lemma mapM_records (h : ∀ m ∈ ms, m.Valid) {depth : Nat} (hdepth : ms = [] ∨ 0 < depth) :
    (Written.ofJsonAll (ms.map record)).mapM (Condition.ofWritten? depth)
      = some (ms.map conditionWithoutNull) := by
  induction ms with
  | nil => rfl
  | cons m ms ih =>
    have hpos : 0 < depth := hdepth.resolve_left (List.cons_ne_nil m ms)
    obtain ⟨depth, rfl⟩ := Nat.exists_eq_succ_of_ne_zero hpos.ne'
    rw [List.forall_mem_cons] at h
    rw [List.map_cons, Written.ofJsonAll, List.mapM_cons, ofWritten?_record h.1,
      ih h.2 (.inr hpos)]
    rfl

/-- A record of a comparison is nested once, and there is nothing to nest without one. -/
lemma nestingAll_records (ms : List Comparand) :
    ms = [] ∨ 0 < Written.nestingAll (Written.ofJsonAll (ms.map record)) := by
  cases ms with
  | nil => exact .inl rfl
  | cons m ms =>
    refine .inr ?_
    rw [List.map_cons, Written.ofJsonAll, Written.nestingAll, record, Written.ofJson,
      Written.nesting]
    omega

end Comparand

open Comparand

/-- The map payload of comparisons. -/
def mapOf (ms : List Comparand) : Json :=
  .object (ms.map member)

/-- The structured filter of comparisons that hold together. -/
def recordOf (ms : List Comparand) : Json :=
  .object [("type", .string "AND"), ("conditions", .array (ms.map record))]

/-- A payload of comparands is converted to a conjunction of their conditions. -/
lemma filter_mapOf {ms : List Comparand} (h : ∀ m ∈ ms, m.Valid) :
    MapPayload.filter (some (mapOf ms)) none = pure (Filter.all (ms.map condition)) := by
  have hconditions : MapPayload.conditions [ms.map member].flatten = pure (ms.map condition) := by
    rw [List.flatten_singleton, conditions_members h]
  simp only [MapPayload.filter, MapPayload.objects?, MapPayload.objects, mapOf]
  show (do
    let cs ← MapPayload.conditions [ms.map member].flatten
    pure (Filter.all cs)) = _
  rw [hconditions]
  rfl

/-- The records are read as conditions that hold together. -/
lemma ofJson_recordOf {ms : List Comparand} (h : ∀ m ∈ ms, m.Valid) :
    Structured.ofJson (recordOf ms) = .ok (Filter.all (ms.map conditionWithoutNull)) := by
  have hslots : (Written.ofJson (recordOf ms)).record? [["type"], ["conditions"], ["groups"]]
      = some [some (.ofJson (.string "AND")), some (.array (Written.ofJsonAll (ms.map record))),
          none] := by
    rfl
  have hnesting : (Written.ofJson (recordOf ms)).nesting
      = Written.nestingAll (Written.ofJsonAll (ms.map record)) + 2 := by
    simp only [recordOf, Written.ofJson, Written.ofJsonMembers, Written.nesting,
      Written.nestingMembers]
    omega
  have hjunction : Junction.ofText? "AND" = some .and := by decide
  rw [Structured.ofJson, Structured.ofWritten, hnesting, Filter.ofWritten?, Filter.ofRecord?,
    hslots]
  simp only [Option.bind_some, Written.defaulted?, Written.items?,
    mapM_records h (nestingAll_records ms), Written.string?_ofJson, Option.map_some, hjunction,
    Option.bind_eq_bind, Option.pure_def]
  rfl

/-- Leaving out nulls changes nothing exactly if there are none. -/
lemma conditionWithoutNull_eq_iff {m : Comparand} (h : m.Valid) :
    m.conditionWithoutNull = m.condition ↔ m.value ≠ .null := by
  obtain ⟨v, hv, -, hnull⟩ := Value.ofJson_scalar h.isScalar
  have hvalue : m.condition.value = some v := by
    rw [condition, hv]
    rfl
  rw [ne_eq, ← hnull]
  constructor
  · intro heq hv
    have hkept := congrArg Condition.value heq
    rw [conditionWithoutNull, hvalue, Option.filter_some_neg (by simp [hv])] at hkept
    cases hkept
  · intro hne
    have hkept : (some v).filter (· ≠ .null) = some v :=
      Option.filter_some_pos (decide_eq_true hne)
    rw [conditionWithoutNull, hvalue, hkept, ← hvalue]

/-- Comparisons are read as conditions in both forms. The filters are the same exactly if no value
is `null`, which is a value in the map and absent in the record. -/
theorem surfaces_converge_iff {ms : List Comparand} (h : ∀ m ∈ ms, m.Valid) :
    MapPayload.filter (some (mapOf ms)) none = pure (Filter.all (ms.map condition)) ∧
    Structured.ofJson (recordOf ms) = .ok (Filter.all (ms.map conditionWithoutNull)) ∧
    ((∃ f, MapPayload.filter (some (mapOf ms)) none = pure f ∧
        Structured.ofJson (recordOf ms) = .ok f) ↔ ∀ m ∈ ms, m.value ≠ .null) := by
  have hmap := filter_mapOf h
  have hrecord := ofJson_recordOf h
  refine ⟨hmap, hrecord, ?_⟩
  rw [hmap, hrecord]
  constructor
  · rintro ⟨f, hf, hg⟩ m hm
    have heq := Except.ok.inj (hg.trans (congrArg Traced.result hf).symm)
    have hconditions := List.map_inj_left.1 (congrArg Filter.conditions heq)
    exact (conditionWithoutNull_eq_iff (h m hm)).1 (hconditions m hm)
  · intro hnull
    have hconditions : ms.map conditionWithoutNull = ms.map condition :=
      List.map_inj_left.2 fun m hm => (conditionWithoutNull_eq_iff (h m hm)).2 (hnull m hm)
    exact ⟨_, rfl, by rw [hconditions]⟩

/-- A number, and a text that is matched under an alias between blanks. -/
def grownNames : List Comparand :=
  [⟨"age", "gte", .int 18⟩, ⟨"first_name", " ILike ", .string "O'B%"⟩]

/-- A number and a text without null among them converge. -/
theorem surfaces_converge_iff_grownNames :
    (∀ m ∈ grownNames, m.Valid) ∧
      ∃ f, MapPayload.filter (some (mapOf grownNames)) none = pure f ∧
        Structured.ofJson (recordOf grownNames) = .ok f := by
  have h : ∀ m ∈ grownNames, m.Valid := by
    refine List.forall_mem_cons.2 ⟨?_, List.forall_mem_singleton.2 ?_⟩
    · exact ⟨by decide, by decide, by decide, by decide +kernel, by decide, by decide⟩
    · exact ⟨by decide, by decide, by decide, by decide +kernel, trivial⟩
  refine ⟨h, (surfaces_converge_iff h).2.2.2 ?_⟩
  exact List.forall_mem_cons.2 ⟨nofun, List.forall_mem_singleton.2 nofun⟩

/-- The forms do not always agree: the map compares `a` with `null`, and the record with nothing. -/
theorem not_forall_surfaces_converge :
    ¬ ∀ ms : List Comparand, ms ≠ [] → (∀ m ∈ ms, Identifier.isSafe m.field = true ∧ m.Valid) →
      ∃ f, MapPayload.filter (some (mapOf ms)) none = pure f ∧
        Structured.ofJson (recordOf ms) = .ok f := by
  intro h
  have hvalid : Valid ⟨"a", "EQ", .null⟩ :=
    ⟨by decide, by decide, by decide, by decide +kernel, trivial⟩
  have hall : ∀ m ∈ [(⟨"a", "EQ", .null⟩ : Comparand)], m.Valid :=
    List.forall_mem_singleton.2 hvalid
  obtain ⟨f, hf, hg⟩ := h _ (List.cons_ne_nil _ _)
    (List.forall_mem_singleton.2 ⟨by decide, hvalid⟩)
  rw [filter_mapOf hall] at hf
  rw [ofJson_recordOf hall] at hg
  have heq := Except.ok.inj (hg.trans (congrArg Traced.result hf).symm)
  have hconditions := List.map_inj_left.1 (congrArg Filter.conditions heq)
  exact (conditionWithoutNull_eq_iff hvalid).1 (hconditions _ (List.mem_singleton_self _)) rfl

end Input

end ReadQuery
