import ReadQuery.Proofs.Outcome
import ReadQuery.Value

/-!
# Values of JSON

A JSON value is a value of a condition exactly if it contains no object (`exists_ofJson_iff`). A
value is read as false if it is `false` or one of the texts for it (`bool?_eq_false_iff`).
-/

namespace ReadQuery

/-- A JSON value that contains no object at any depth. -/
inductive Json.ObjectFree : Json → Prop where
  | null : ObjectFree .null
  | bool (b : Bool) : ObjectFree (.bool b)
  | int (i : Int) : ObjectFree (.int i)
  | float (d : Number.Double) : ObjectFree (.float d)
  | string (s : String) : ObjectFree (.string s)
  | array {items : List Json} : (∀ j ∈ items, ObjectFree j) → ObjectFree (.array items)

/-- A value that is neither a float nor a list. -/
def Value.IsPlain : Value → Prop
  | .null | .bool _ | .int _ | .string _ => True
  | .float _ | .list _ => False

namespace Value

variable {j : Json} {js : List Json} {v : Value} {vs : List Value}

/-- The items of a list are read one by one. -/
lemma ofJsonAll_eq_mapM (js : List Json) : ofJsonAll js = js.mapM ofJson := by
  induction js with
  | nil => rfl
  | cons j js ih =>
    rw [ofJsonAll, List.mapM_cons, ih]
    cases ofJson j with
    | error e => rfl
    | ok v => cases js.mapM ofJson <;> rfl

/-- A list is read as the values of its items. -/
lemma ofJsonAll_eq_ok_iff :
    ofJsonAll js = .ok vs ↔ List.Forall₂ (fun j v => ofJson j = .ok v) js vs := by
  rw [ofJsonAll_eq_mapM, mapM_eq_ok_iff]

/-- A JSON value without objects is a value. -/
lemma exists_ofJson (h : j.ObjectFree) : ∃ v, ofJson j = .ok v := by
  induction h with
  | null => exact ⟨.null, rfl⟩
  | bool b => exact ⟨.bool b, rfl⟩
  | int i =>
    rw [ofJson]
    split
    · exact ⟨_, rfl⟩
    · exact ⟨_, rfl⟩
  | float d => exact ⟨.float d, rfl⟩
  | string s => exact ⟨.string s, rfl⟩
  | array _ ih =>
    obtain ⟨vs, hvs⟩ := exists_mapM_eq_ok ih
    exact ⟨.list vs, by rw [ofJson, ofJsonAll_eq_mapM, hvs]; rfl⟩

mutual

/-- What is a value contains no object. -/
theorem objectFree_of_ofJson : ∀ {j : Json} {v : Value}, ofJson j = .ok v → j.ObjectFree
  | .null, _, _ => .null
  | .bool b, _, _ => .bool b
  | .int i, _, _ => .int i
  | .float d, _, _ => .float d
  | .string s, _, _ => .string s
  | .array items, _, h => by
    obtain ⟨vs, hvs, -⟩ := map_eq_ok.1 h
    exact .array (objectFree_of_ofJsonAll hvs)
  | .object _, _, h => nomatch h

/-- There is no object in an item of a list that can be read. -/
theorem objectFree_of_ofJsonAll : ∀ {js : List Json} {vs : List Value},
    ofJsonAll js = .ok vs → ∀ j ∈ js, j.ObjectFree
  | [], _, _ => List.forall_mem_nil _
  | j :: js, vs, h => by
    obtain ⟨v, ws, hj, hjs, -⟩ := List.forall₂_cons_left_iff.1 (ofJsonAll_eq_ok_iff.1 h)
    exact List.forall_mem_cons.2
      ⟨objectFree_of_ofJson hj, objectFree_of_ofJsonAll (ofJsonAll_eq_ok_iff.2 hjs)⟩

end

/-- Only arrays are read as lists. -/
lemma exists_array_of_ofJson {items : List Value} (h : ofJson j = .ok (.list items)) :
    ∃ js, j = .array js := by
  cases j with
  | array js => exact ⟨js, rfl⟩
  | int i =>
    rw [ofJson] at h
    split at h <;> cases h
  | _ => cases h

/-- A value can be read unless there is an object in it. -/
theorem exists_ofJson_iff : (∃ v, ofJson j = .ok v) ↔ j.ObjectFree :=
  ⟨fun ⟨_, h⟩ => objectFree_of_ofJson h, exists_ofJson⟩

end Value

/-- A JSON value that stands for false. -/
def Json.ReadsFalse : Json → Prop
  | .bool b => b = false
  | .string s => Text.lower s = "false" ∨ s = "0"
  | _ => False

/-- The texts that count as false. -/
lemma Value.bool?_string_eq_false (s : String) :
    (Value.string s).bool? = some false ↔ Text.lower s = "false" ∨ s = "0" := by
  have hwords : Text.lower "true" = "true" ∧ Text.lower "false" = "false" := by decide
  rw [bool?, Text.sameLetters, Text.sameLetters, hwords.1, hwords.2]
  constructor
  · intro h
    split at h
    · cases h
    split at h
    · next hfalse => simpa using hfalse
    · cases h
  · rintro (h | rfl)
    · have hone : s ≠ "1" := by
        rintro rfl
        exact absurd h (by decide)
      simp [h, hone]
    · decide

/-- A value is false if the JSON value it comes from stands for false. -/
theorem Value.bool?_eq_false_iff {j : Json} {v : Value} (h : ofJson j = .ok v) :
    v.bool? = some false ↔ j.ReadsFalse := by
  cases j with
  | null =>
    cases h
    exact ⟨nofun, nofun⟩
  | bool b =>
    cases h
    exact Option.some_inj
  | int i =>
    rw [ofJson] at h
    split at h <;> cases h <;> exact ⟨nofun, nofun⟩
  | float d =>
    cases h
    exact ⟨nofun, nofun⟩
  | string s =>
    cases h
    exact bool?_string_eq_false s
  | array items =>
    obtain ⟨vs, -, rfl⟩ := map_eq_ok.1 h
    exact ⟨nofun, nofun⟩
  | object => cases h

end ReadQuery
