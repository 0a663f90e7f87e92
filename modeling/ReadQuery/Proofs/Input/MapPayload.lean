import ReadQuery.Input.MapPayload
import ReadQuery.Proofs.Value

/-!
# Conversion of map payloads

Two payloads are converted as a whole or not at all. They are converted exactly if both list objects
and no value in them contains one (`exists_filter_iff`), and then every member has its condition:
those of the first payload hold together, those of each object of the second form a group
(`filter_eq_ok_iff`). No member is lost and none is moved (`forall₂_allConditions`).
-/

namespace ReadQuery.Input.MapPayload

/-- The objects that a payload lists: none if it is absent or `null`, itself if it is one, and the
items of an array of them. -/
inductive Lists : Option Json → List (List (String × Json)) → Prop where
  | absent : Lists none []
  | null : Lists (some .null) []
  | object (members : List (String × Json)) : Lists (some (.object members)) [members]
  | array (objects : List (List (String × Json))) :
    Lists (some (.array (objects.map .object))) objects

/-- The items are objects, all of them. -/
lemma objectsOf_eq_ok_iff {items : List Json} {os : List (List (String × Json))} :
    objectsOf items = .ok os ↔ items = os.map .object := by
  induction items generalizing os with
  | nil =>
    constructor
    · intro h
      cases h
      rfl
    · intro h
      rw [List.map_eq_nil_iff.1 h.symm]
      rfl
  | cons j items ih =>
    cases j with
    | object members =>
      rw [objectsOf, map_eq_ok]
      constructor
      · rintro ⟨os', hos, rfl⟩
        rw [ih.1 hos, List.map_cons]
      · intro h
        cases os with
        | nil => cases h
        | cons o os' =>
          rw [List.map_cons, List.cons.injEq, Json.object.injEq] at h
          exact ⟨os', ih.2 h.2, by rw [h.1]⟩
    | _ =>
      refine ⟨nofun, fun h => ?_⟩
      cases os <;> cases h

/-- The objects of a payload are those that it lists. -/
lemma objects?_eq_ok_iff {payload : Option Json} {os : List (List (String × Json))} :
    objects? payload = .ok os ↔ Lists payload os := by
  constructor
  · intro h
    cases payload with
    | none =>
      cases h
      exact .absent
    | some j =>
      cases j with
      | null =>
        cases h
        exact .null
      | object members =>
        cases h
        exact .object members
      | array items =>
        obtain rfl := objectsOf_eq_ok_iff.1 h
        exact .array os
      | _ => cases h
  · intro h
    cases h with
    | absent => rfl
    | null => rfl
    | object members => rfl
    | array objects => exact objectsOf_eq_ok_iff.2 rfl

/-- The condition that a member of an object is converted to. -/
def Reads (m : String × Json) (c : Condition) : Prop :=
  (condition m.1 m.2).result = .ok c

variable {m : String × Json} {members : List (String × Json)} {c : Condition}
  {cs : List Condition}

/-- Only the value of a member can be in the way of its condition. -/
lemma reads_iff :
    Reads m c ↔ ∃ v, Value.ofJson m.2 = .ok v ∧ (Key.ofText m.1).condition v = c := by
  have hresult : (condition m.1 m.2).result
      = ((Value.ofJson m.2).mapError (.notAValue m.1)).map (Key.ofText m.1).condition := by
    rw [condition]
    cases Value.ofJson m.2 <;> split <;> rfl
  simp only [Reads, hresult, map_eq_ok, mapError_eq_ok]

/-- A member can be converted unless there is an object in its value. -/
lemma exists_reads_iff : (∃ c, Reads m c) ↔ m.2.ObjectFree := by
  rw [← Value.exists_ofJson_iff]
  constructor
  · rintro ⟨c, hc⟩
    obtain ⟨v, hv, -⟩ := reads_iff.1 hc
    exact ⟨v, hv⟩
  · rintro ⟨v, hv⟩
    exact ⟨_, reads_iff.2 ⟨v, hv, rfl⟩⟩

/-- The members of an object are converted one by one. -/
lemma conditions_eq_ok_iff :
    (conditions members).result = .ok cs ↔ List.Forall₂ Reads members cs := by
  induction members generalizing cs with
  | nil =>
    rw [List.forall₂_nil_left_iff]
    exact ⟨fun h => (Except.ok.inj h).symm, fun h => congrArg Except.ok h.symm⟩
  | cons m members ih =>
    rw [conditions, Traced.result_bind, bind_eq_ok, List.forall₂_cons_left_iff]
    constructor
    · rintro ⟨c, hc, h⟩
      rw [Traced.result_bind] at h
      obtain ⟨cs', hcs, h⟩ := bind_eq_ok.1 h
      exact ⟨c, cs', hc, ih.1 hcs, (Except.ok.inj h).symm⟩
    · rintro ⟨c, cs', hc, hcs, rfl⟩
      refine ⟨c, hc, ?_⟩
      rw [Traced.result_bind, ih.2 hcs]
      rfl

/-- All members of an object can be converted unless there is an object in a value. -/
lemma exists_conditions_iff :
    (∃ cs, List.Forall₂ Reads members cs) ↔ ∀ m ∈ members, m.2.ObjectFree := by
  rw [exists_forall₂_iff]
  exact forall₂_congr fun m _ => exists_reads_iff

/-- A group that holds if one of the conditions of an object's members does. -/
structure IsChoice (members : List (String × Json)) (g : Filter) : Prop where
  junction : g.junction = some .or
  conditions : List.Forall₂ Reads members g.conditions
  groups : g.groups = []

variable {g : Filter} {fs : List Filter} {choices : List (List (String × Json))}

/-- The conditions of members make up a choice. -/
lemma isChoice_any (h : List.Forall₂ Reads members cs) : IsChoice members (Filter.any cs) :=
  ⟨rfl, h, rfl⟩

/-- A choice has nothing but its conditions. -/
lemma IsChoice.eq_any (h : IsChoice members g) : g = Filter.any g.conditions := by
  obtain ⟨junction, conditions, groups⟩ := g
  obtain ⟨rfl, -, rfl⟩ := h
  rfl

/-- There is a choice for an object unless there is an object in a value of it. -/
lemma exists_isChoice_iff :
    (∃ g, IsChoice members g) ↔ ∀ m ∈ members, m.2.ObjectFree := by
  rw [← exists_conditions_iff]
  exact ⟨fun ⟨g, hg⟩ => ⟨g.conditions, hg.conditions⟩, fun ⟨cs, hcs⟩ => ⟨_, isChoice_any hcs⟩⟩

/-- An object without members has no group, every other one has its own. -/
lemma groups_eq_ok_iff :
    (groups choices).result = .ok fs
      ↔ List.Forall₂ IsChoice (choices.filter (!·.isEmpty)) fs := by
  induction choices generalizing fs with
  | nil =>
    rw [List.filter_nil, List.forall₂_nil_left_iff]
    exact ⟨fun h => (Except.ok.inj h).symm, fun h => congrArg Except.ok h.symm⟩
  | cons members choices ih =>
    rw [groups, Traced.result_bind, bind_eq_ok]
    simp only [Traced.result_bind, bind_eq_ok, conditions_eq_ok_iff, ih, Traced.result_pure,
      Except.ok.injEq]
    cases members with
    | nil =>
      rw [List.filter_cons_of_neg (by decide)]
      constructor
      · rintro ⟨cs, hcs, fs', hfs, rfl⟩
        cases hcs
        exact hfs
      · intro hfs
        exact ⟨[], .nil, fs, hfs, rfl⟩
    | cons m members =>
      rw [List.filter_cons_of_pos (by rfl), List.forall₂_cons_left_iff]
      constructor
      · rintro ⟨cs, hcs, fs', hfs, rfl⟩
        obtain ⟨c, cs', -, -, rfl⟩ := List.forall₂_cons_left_iff.1 hcs
        exact ⟨_, fs', isChoice_any hcs, hfs, rfl⟩
      · rintro ⟨g, fs', hg, hfs, rfl⟩
        obtain ⟨c, cs', -, -, hcs⟩ := List.forall₂_cons_left_iff.1 hg.conditions
        refine ⟨g.conditions, hg.conditions, fs', hfs, ?_⟩
        have hempty : g.conditions.isEmpty = false := by
          rw [hcs]
          rfl
        rw [hempty, if_neg Bool.false_ne_true, ← hg.eq_any]

/-- There is a choice for each object that has members, unless there is an object in a value. -/
lemma exists_groups_iff :
    (∃ fs, List.Forall₂ IsChoice (choices.filter (!·.isEmpty)) fs)
      ↔ ∀ members ∈ choices, ∀ m ∈ members, m.2.ObjectFree := by
  simp only [exists_forall₂_iff, exists_isChoice_iff, List.mem_filter]
  constructor
  · intro h members hmembers m hm
    refine h members ⟨hmembers, ?_⟩ m hm
    rw [List.isEmpty_eq_false_iff.2 (List.ne_nil_of_mem hm)]
    rfl
  · rintro h members ⟨hmembers, -⟩
    exact h members hmembers

/-- A conjunction of the conditions of the members of some objects and, for each of other objects
that has members, a group of its own. -/
structure IsConverted (required choices : List (List (String × Json))) (f : Filter) : Prop where
  junction : f.junction = some .and
  conditions : List.Forall₂ Reads required.flatten f.conditions
  groups : List.Forall₂ IsChoice (choices.filter (!·.isEmpty)) f.groups

variable {required : List (List (String × Json))} {and or : Option Json} {f : Filter}

/-- A filter is what the objects that both payloads list are converted to. -/
theorem filter_eq_ok_iff :
    (filter and or).result = .ok f ↔
      ∃ required choices, Lists and required ∧ Lists or choices ∧
        IsConverted required choices f := by
  rw [filter]
  simp only [Traced.result_bind, bind_eq_ok, Traced.result_ofExcept, objects?_eq_ok_iff,
    conditions_eq_ok_iff, groups_eq_ok_iff, Traced.result_pure, Except.ok.injEq]
  constructor
  · rintro ⟨required, hrequired, cs, hcs, choices, hchoices, gs, hgs, rfl⟩
    exact ⟨required, choices, hrequired, hchoices, rfl, hcs, hgs⟩
  · rintro ⟨required, choices, hrequired, hchoices, hf⟩
    obtain ⟨junction, cs, gs⟩ := f
    obtain ⟨rfl, hcs, hgs⟩ := hf
    exact ⟨required, hrequired, cs, hcs, choices, hchoices, gs, hgs, rfl⟩

/-- Objects can be converted unless there is an object in a value of one. -/
lemma exists_isConverted_iff :
    (∃ f, IsConverted required choices f)
      ↔ ∀ members ∈ required ++ choices, ∀ m ∈ members, m.2.ObjectFree := by
  have hrequired : (∀ members ∈ required, ∀ m ∈ members, m.2.ObjectFree)
      ↔ ∃ cs, List.Forall₂ Reads required.flatten cs := by
    rw [exists_conditions_iff, List.forall_mem_flatten]
  rw [List.forall_mem_append, hrequired, ← exists_groups_iff]
  constructor
  · rintro ⟨f, hf⟩
    exact ⟨⟨_, hf.conditions⟩, ⟨_, hf.groups⟩⟩
  · rintro ⟨⟨cs, hcs⟩, ⟨gs, hgs⟩⟩
    exact ⟨⟨some .and, cs, gs⟩, rfl, hcs, hgs⟩

/-- Payloads are converted just if they list objects and there is no object in any value. -/
theorem exists_filter_iff :
    (∃ f, (filter and or).result = .ok f) ↔
      ∃ required choices, Lists and required ∧ Lists or choices ∧
        ∀ members ∈ required ++ choices, ∀ m ∈ members, m.2.ObjectFree := by
  simp only [filter_eq_ok_iff, ← exists_isConverted_iff]
  constructor
  · rintro ⟨f, required, choices, hrequired, hchoices, hf⟩
    exact ⟨required, choices, hrequired, hchoices, f, hf⟩
  · rintro ⟨required, choices, hrequired, hchoices, f, hf⟩
    exact ⟨f, required, choices, hrequired, hchoices, hf⟩

/-- The conditions in choices are those of the members of their objects. -/
lemma forall₂_conditionsOfAll (h : List.Forall₂ IsChoice choices fs) :
    List.Forall₂ Reads choices.flatten (Filter.conditionsOfAll fs) := by
  induction h with
  | nil => exact .nil
  | @cons members g choices fs hg _ ih =>
    have hall : g.allConditions = g.conditions := by
      rw [hg.eq_any, Filter.any, Filter.allConditions, Filter.conditionsOfAll, List.append_nil]
    rw [List.flatten_cons, Filter.conditionsOfAll, hall]
    exact List.rel_append hg.conditions ih

/-- The conditions of a converted filter are those of the members of all its objects. -/
theorem forall₂_allConditions (h : IsConverted required choices f) :
    List.Forall₂ Reads (required.flatten ++ choices.flatten) f.allConditions := by
  obtain ⟨junction, cs, gs⟩ := f
  have hgroups := forall₂_conditionsOfAll h.groups
  rw [List.flatten_filter_not_isEmpty] at hgroups
  exact List.rel_append h.conditions hgroups

/-- Two payloads are converted exactly if they list objects whose values contain no others. The
conversion keeps every member once: in its place in the conjunction, or in the group of its object.
-/
theorem filter_complete (and or : Option Json) :
    ((∃ f, (filter and or).result = .ok f) ↔
      ∃ required choices, Lists and required ∧ Lists or choices ∧
        ∀ members ∈ required ++ choices, ∀ m ∈ members, m.2.ObjectFree) ∧
    ∀ f, (filter and or).result = .ok f →
      ∃ required choices, Lists and required ∧ Lists or choices ∧
        IsConverted required choices f ∧
        List.Forall₂ Reads (required.flatten ++ choices.flatten) f.allConditions := by
  refine ⟨exists_filter_iff, fun f hf => ?_⟩
  obtain ⟨required, choices, hrequired, hchoices, hconverted⟩ := filter_eq_ok_iff.1 hf
  exact ⟨required, choices, hrequired, hchoices, hconverted, forall₂_allConditions hconverted⟩

end ReadQuery.Input.MapPayload
