import ReadQuery.Input.MapPayload
import ReadQuery.Proofs.Text
import ReadQuery.Proofs.Value

/-!
# Keys of map payloads

A key is cut at its doubled underscores. No spelling of an operator or of a part of a date has them,
and none is a spelling of both, so that a field, a part and an operator are read from the key made
of them (`Key.ofText_operator`, `Key.ofText_part`, `Key.ofText_part_operator`). Together with a
value, the key becomes the condition that says this (`condition_of_key`).
-/

namespace ReadQuery

/-- A known operator has been found under one of its spellings. -/
lemma Operator.exists_spelling {s : String} (h : (Operator.ofSpelling s).isSpecified) :
    ∃ entry ∈ spellings, Text.lower (Text.trim s) ∈ entry.1 := by
  rw [ofSpelling] at h
  cases hfind : spellings.find? (·.1.contains (Text.lower (Text.trim s))) with
  | none =>
    simp only [hfind] at h
    cases h
  | some entry =>
    have hword := List.find?_some hfind
    rw [List.contains_iff_mem] at hword
    exact ⟨entry, List.mem_of_find?_eq_some hfind, hword⟩

/-- The spellings of operators have no doubled underscores. -/
lemma Operator.undoubled_of_isSpecified {s : String} (h : (Operator.ofSpelling s).isSpecified) :
    Text.Undoubled '_' s.toList := by
  obtain ⟨entry, hentry, hword⟩ := exists_spelling h
  have hall : ∀ entry ∈ spellings, ∀ word ∈ entry.1, Text.Undoubled '_' word.toList := by
    decide +kernel
  exact Text.undoubled_of_word (hall entry hentry _ hword)

namespace DatePart

variable {s : String} {part : DatePart}

/-- A part of a date has been found under one of its spellings. -/
lemma exists_spelling (h : ofSpelling? s = some part) :
    ∃ entry ∈ spellings, Text.lower (Text.trim s) ∈ entry.1 := by
  rw [ofSpelling?, Option.map_eq_some_iff] at h
  obtain ⟨entry, hfind, -⟩ := h
  have hword := List.find?_some hfind
  rw [List.contains_iff_mem] at hword
  exact ⟨entry, List.mem_of_find?_eq_some hfind, hword⟩

/-- The spellings of parts of dates have no doubled underscores and do not end in one. -/
lemma undoubled_of_spelling (h : ofSpelling? s = some part) :
    Text.Undoubled '_' s.toList ∧ s.toList.getLast? ≠ some '_' := by
  obtain ⟨entry, hentry, hword⟩ := exists_spelling h
  have hall : ∀ entry ∈ spellings, ∀ word ∈ entry.1,
      Text.Undoubled '_' word.toList ∧ word.toList.getLast? ≠ some '_' := by
    decide +kernel
  obtain ⟨hundoubled, hlast⟩ := hall entry hentry _ hword
  exact ⟨Text.undoubled_of_word hundoubled, Text.getLast?_of_word hlast⟩

/-- No spelling of a part of a date is one of an operator. -/
lemma not_isSpecified_of_spelling (h : ofSpelling? s = some part) :
    (Operator.ofSpelling s).isSpecified = false := by
  rw [Bool.eq_false_iff]
  intro hop
  obtain ⟨entry, hentry, hword⟩ := exists_spelling h
  obtain ⟨entry', hentry', hword'⟩ := Operator.exists_spelling hop
  have hall : ∀ entry ∈ spellings, ∀ word ∈ entry.1, ∀ entry' ∈ Operator.spellings,
      word ∉ entry'.1 := by
    decide +kernel
  exact hall entry hentry _ hword entry' hentry' hword'

end DatePart

namespace Input.MapPayload

variable {field spelling partSpelling : String} {part : DatePart}

/-- A field is cut off where a doubled underscore follows it. -/
lemma splitDoubled_append (hfield : Text.Undoubled '_' field.toList)
    (hlast : field.toList.getLast? ≠ some '_') (rest : String) :
    Text.splitDoubled '_' (field ++ "__" ++ rest) = field :: Text.splitDoubled '_' rest := by
  have htext : (field ++ "__" ++ rest).toList = field.toList ++ '_' :: '_' :: rest.toList := by
    simp [String.toList_append]
  rw [Text.splitDoubled, htext, Text.splitDoubledList_append hfield hlast, List.map_cons,
    String.ofList_toList, Text.splitDoubled]

/-- A field without doubled underscores is not cut. -/
lemma splitDoubled_of_undoubled (h : Text.Undoubled '_' field.toList) :
    Text.splitDoubled '_' field = [field] := by
  rw [Text.splitDoubled, Text.splitDoubledList_of_undoubled h, List.map_singleton,
    String.ofList_toList]

/-- A field by itself is compared for equality. -/
theorem Key.ofText_field (hfield : Text.Undoubled '_' field.toList) :
    Key.ofText field = ⟨field, none, .compare .equals⟩ := by
  rw [Key.ofText, splitDoubled_of_undoubled hfield]

/-- A field and a spelling of an operator are read from the key made of them. -/
theorem Key.ofText_operator (hfield : Text.Undoubled '_' field.toList)
    (hlast : field.toList.getLast? ≠ some '_')
    (hop : (Operator.ofSpelling spelling).isSpecified) :
    Key.ofText (field ++ "__" ++ spelling) = ⟨field, none, Operator.ofSpelling spelling⟩ := by
  rw [Key.ofText, splitDoubled_append hfield hlast,
    splitDoubled_of_undoubled (Operator.undoubled_of_isSpecified hop)]
  simp only [hop, if_true]

/-- A field and a spelling of a part of a date are read from the key made of them. -/
theorem Key.ofText_part (hfield : Text.Undoubled '_' field.toList)
    (hlast : field.toList.getLast? ≠ some '_')
    (hpart : DatePart.ofSpelling? partSpelling = some part) :
    Key.ofText (field ++ "__" ++ partSpelling) = ⟨field, some part, .compare .equals⟩ := by
  obtain ⟨hundoubled, -⟩ := DatePart.undoubled_of_spelling hpart
  have hop := DatePart.not_isSpecified_of_spelling hpart
  rw [Key.ofText, splitDoubled_append hfield hlast, splitDoubled_of_undoubled hundoubled]
  simp only [hop, hpart]
  rfl

/-- A field, a part of a date and an operator are read from the key made of their spellings. -/
theorem Key.ofText_part_operator (hfield : Text.Undoubled '_' field.toList)
    (hlast : field.toList.getLast? ≠ some '_')
    (hpart : DatePart.ofSpelling? partSpelling = some part)
    (hop : (Operator.ofSpelling spelling).isSpecified) :
    Key.ofText (field ++ "__" ++ partSpelling ++ "__" ++ spelling)
      = ⟨field, some part, Operator.ofSpelling spelling⟩ := by
  obtain ⟨hundoubled, hpartLast⟩ := DatePart.undoubled_of_spelling hpart
  have htext : field ++ "__" ++ partSpelling ++ "__" ++ spelling
      = field ++ "__" ++ (partSpelling ++ "__" ++ spelling) := by
    simp only [String.append_assoc]
  rw [Key.ofText, htext, splitDoubled_append hfield hlast,
    splitDoubled_append hundoubled hpartLast,
    splitDoubled_of_undoubled (Operator.undoubled_of_isSpecified hop)]
  simp only [hpart]

section

variable {part : Option DatePart} {op : Operator} {v : Value}

/-- A null check of what is false is the opposite check. -/
lemma effectiveOperator_of_false {negated : Bool} (h : v.bool? = some false) :
    effectiveOperator (.nullness negated) v = .nullness (!negated) := by
  simp only [effectiveOperator, h]

/-- An operator stays unless its value turns it into its opposite. -/
lemma effectiveOperator_of_ne (h : ∀ negated, op = .nullness negated → v.bool? ≠ some false) :
    effectiveOperator op v = op := by
  rw [effectiveOperator]
  intro negated hop hv
  exact h negated hop hv

/-- The opposite of an operator takes as many operands. -/
lemma arity_effectiveOperator (op : Operator) (v : Value) :
    (effectiveOperator op v).arity = op.arity := by
  unfold effectiveOperator
  split <;> rfl

/-- A key without a dot names a field. -/
lemma Key.condition_undotted (h : '.' ∉ field.toList) :
    (Key.condition ⟨field, part, op⟩ v).field = field ∧
      (Key.condition ⟨field, part, op⟩ v).jsonPath = none := by
  have hcut : Text.cut? '.' field = none := by
    rw [Text.cut?, Text.cutList_eq_none h, Option.map_none]
  simp only [Key.condition, hcut, and_self]

/-- A key with a dot names a field and a path into it. -/
lemma Key.condition_dotted {column path : String} (h : '.' ∉ column.toList) :
    (Key.condition ⟨column ++ "." ++ path, part, op⟩ v).field = column ∧
      (Key.condition ⟨column ++ "." ++ path, part, op⟩ v).jsonPath = some path := by
  have hcut : Text.cut? '.' (column ++ "." ++ path) = some (column, path) :=
    Text.cut?_append h path
  simp only [Key.condition, hcut, and_self]

/-- An operator without operands leaves the value out. -/
lemma Key.condition_nullary (h : op.arity = .nullary) :
    (Key.condition ⟨field, part, op⟩ v).value = none ∧
      (Key.condition ⟨field, part, op⟩ v).values = [] := by
  rw [← arity_effectiveOperator op v] at h
  simp only [Key.condition, h, and_self]

/-- The items of a list become the values. -/
lemma Key.condition_list (h : op.arity ≠ .nullary) (items : List Value) :
    (Key.condition ⟨field, part, op⟩ (.list items)).value = none ∧
      (Key.condition ⟨field, part, op⟩ (.list items)).values = items := by
  rw [← arity_effectiveOperator op (.list items)] at h
  unfold Key.condition
  dsimp only
  cases harity : (effectiveOperator op (.list items)).arity with
  | nullary => exact absurd harity h
  | _ => exact ⟨rfl, rfl⟩

/-- What is no list becomes the value. -/
lemma Key.condition_value (h : op.arity ≠ .nullary) (hlist : ∀ items, v ≠ .list items) :
    (Key.condition ⟨field, part, op⟩ v).value = some v ∧
      (Key.condition ⟨field, part, op⟩ v).values = [] := by
  rw [← arity_effectiveOperator op v] at h
  unfold Key.condition
  dsimp only
  cases harity : (effectiveOperator op v).arity with
  | nullary => exact absurd harity h
  | _ =>
    cases v with
    | list items => exact absurd rfl (hlist items)
    | _ => exact ⟨rfl, rfl⟩

/-- An operator with one operand keeps its value, and a field without dots has no path. -/
lemma Key.condition_of_single {field : String} (hfield : '.' ∉ field.toList) {op : Operator}
    (hop : op.arity = .single) {v : Value} (hlist : ∀ items, v ≠ .list items)
    (part : Option DatePart) :
    Key.condition ⟨field, part, op⟩ v = ⟨field, op, some v, [], none, part⟩ := by
  have hcut : Text.cut? '.' field = none := by
    rw [Text.cut?, Text.cutList_eq_none hfield, Option.map_none]
  have heffective : effectiveOperator op v = op := by
    rw [effectiveOperator]
    rintro negated rfl
    cases hop
  rw [Key.condition.eq_def]
  simp only [heffective, hcut]
  cases v with
  | list items => exact absurd rfl (hlist items)
  | _ => simp only [hop]

end

/-- What a condition says of a field, a part of a date, an operator and a JSON value. -/
structure Decoded (field : String) (part : Option DatePart) (op : Operator) (json : Json)
    (c : Condition) : Prop where
  datePart : c.datePart = part
  undotted : '.' ∉ field.toList → c.field = field ∧ c.jsonPath = none
  dotted : ∀ column path : String, '.' ∉ column.toList → field = column ++ "." ++ path →
    c.field = column ∧ c.jsonPath = some path
  /-- A null check of what stands for false is the opposite check. -/
  flipped : ∀ negated, op = .nullness negated → json.ReadsFalse → c.op = .nullness (!negated)
  kept : (∀ negated, op = .nullness negated → ¬ json.ReadsFalse) → c.op = op
  nullary : op.arity = .nullary → c.value = none ∧ c.values = []
  listed : op.arity ≠ .nullary → ∀ items, json = .array items →
    c.value = none ∧ List.Forall₂ (fun j v => Value.ofJson j = .ok v) items c.values
  single : op.arity ≠ .nullary → (∀ items, json ≠ .array items) →
    c.values = [] ∧ ∃ v, c.value = some v ∧ Value.ofJson json = .ok v

/-- The condition of a key says what the key does. -/
lemma decoded_condition (field : String) (part : Option DatePart) (op : Operator) {json : Json}
    {v : Value} (h : Value.ofJson json = .ok v) :
    Decoded field part op json (Key.condition ⟨field, part, op⟩ v) where
  datePart := rfl
  undotted hfield := Key.condition_undotted hfield
  dotted column path hcolumn hfield := hfield ▸ Key.condition_dotted hcolumn
  flipped := by
    rintro negated rfl hfalse
    exact effectiveOperator_of_false ((Value.bool?_eq_false_iff h).2 hfalse)
  kept htrue := effectiveOperator_of_ne fun negated hop hfalse =>
    htrue negated hop ((Value.bool?_eq_false_iff h).1 hfalse)
  nullary hop := Key.condition_nullary hop
  listed := by
    rintro hop items rfl
    obtain ⟨vs, hvs, rfl⟩ := map_eq_ok.1 h
    obtain ⟨hvalue, hvalues⟩ : (Key.condition ⟨field, part, op⟩ (.list vs)).value = none ∧
        (Key.condition ⟨field, part, op⟩ (.list vs)).values = vs := Key.condition_list hop vs
    refine ⟨hvalue, ?_⟩
    rw [hvalues]
    exact Value.ofJsonAll_eq_ok_iff.1 hvs
  single := by
    intro hop harray
    have hlist : ∀ items, v ≠ .list items := by
      rintro items rfl
      obtain ⟨js, hjs⟩ := Value.exists_array_of_ofJson h
      exact harray js hjs
    obtain ⟨hvalue, hvalues⟩ : (Key.condition ⟨field, part, op⟩ v).value = some v ∧
        (Key.condition ⟨field, part, op⟩ v).values = [] := Key.condition_value hop hlist
    exact ⟨hvalues, v, hvalue, h⟩

/-- The condition of a key that names a known operator is that of what the key hdecoded. -/
lemma condition_of_ofText {key field : String} {part : Option DatePart} {op : Operator}
    {json : Json} {v : Value} (hkey : Key.ofText key = ⟨field, part, op⟩) (hop : op.isSpecified)
    (hv : Value.ofJson json = .ok v) :
    condition key json = pure (Key.condition ⟨field, part, op⟩ v) := by
  rw [condition, hkey, hv]
  simp only [hop, Bool.not_true, Bool.false_eq_true, if_false]
  rfl

/-- A key and a value become a condition on a field, a part of its date and an operator, and nothing
is reported. -/
def ReadAs (key : String) (json : Json) (field : String) (part : Option DatePart)
    (op : Operator) : Prop :=
  ∃ c, condition key json = pure c ∧ Decoded field part op json c

/-- A key that says a field, a part and an operator is read as a condition on them. -/
lemma readAs_of_ofText {key field : String} {part : Option DatePart} {op : Operator} {json : Json}
    (hkey : Key.ofText key = ⟨field, part, op⟩) (hop : op.isSpecified) (hjson : json.ObjectFree) :
    ReadAs key json field part op := by
  obtain ⟨v, hv⟩ := Value.exists_ofJson hjson
  exact ⟨_, condition_of_ofText hkey hop hv, decoded_condition field part op hv⟩

/-- A key is read as what it was made of: a field, alone or with the spellings of a part of a date,
of an operator, or of both. -/
theorem condition_of_key {json : Json} (hfield : Text.Undoubled '_' field.toList)
    (hlast : field.toList.getLast? ≠ some '_')
    (hop : (Operator.ofSpelling spelling).isSpecified)
    (hpart : DatePart.ofSpelling? partSpelling = some part) (hjson : json.ObjectFree) :
    ReadAs field json field none (.compare .equals) ∧
      ReadAs (field ++ "__" ++ spelling) json field none (Operator.ofSpelling spelling) ∧
      ReadAs (field ++ "__" ++ partSpelling) json field (some part) (.compare .equals) ∧
      ReadAs (field ++ "__" ++ partSpelling ++ "__" ++ spelling) json field (some part)
        (Operator.ofSpelling spelling) :=
  ⟨readAs_of_ofText (Key.ofText_field hfield) rfl hjson,
    readAs_of_ofText (Key.ofText_operator hfield hlast hop) hop hjson,
    readAs_of_ofText (Key.ofText_part hfield hlast hpart) rfl hjson,
    readAs_of_ofText (Key.ofText_part_operator hfield hlast hpart hop) hop hjson⟩

/-- A null check that is switched off, on a part of the date at a path. -/
theorem condition_of_key_nullCheck :
    Text.Undoubled '_' "meta.seen_at".toList ∧ "meta.seen_at".toList.getLast? ≠ some '_' ∧
      (Operator.ofSpelling "Is_Null").isSpecified ∧
      DatePart.ofSpelling? " DOW" = some .weekDay ∧ (Json.string "False").ObjectFree ∧
      ∃ c, condition "meta.seen_at__ DOW__Is_Null" (.string "False") = pure c ∧
        c.field = "meta" ∧ c.jsonPath = some "seen_at" ∧ c.datePart = some .weekDay ∧
        c.op = .nullness true ∧ c.value = none ∧ c.values = [] := by
  have hfield : Text.Undoubled '_' "meta.seen_at".toList := by decide
  have hlast : "meta.seen_at".toList.getLast? ≠ some '_' := by decide
  have hop : Operator.ofSpelling "Is_Null" = .nullness false := by decide
  have hpart : DatePart.ofSpelling? " DOW" = some .weekDay := by decide
  have hspecified : (Operator.ofSpelling "Is_Null").isSpecified := by rw [hop]; rfl
  obtain ⟨-, -, -, c, hc, hdecoded⟩ :=
    condition_of_key hfield hlast hspecified hpart (.string "False")
  rw [hop] at hdecoded
  obtain ⟨hcolumn, hpath⟩ := hdecoded.dotted "meta" "seen_at" (by decide) (by decide)
  obtain ⟨hvalue, hvalues⟩ := hdecoded.nullary rfl
  refine ⟨hfield, hlast, hspecified, hpart, .string "False", c, ?_, hcolumn, hpath,
    hdecoded.datePart, hdecoded.flipped false rfl (.inl (by decide)), hvalue, hvalues⟩
  have hkey : "meta.seen_at__ DOW__Is_Null"
      = "meta.seen_at" ++ "__" ++ " DOW" ++ "__" ++ "Is_Null" := by decide
  rw [hkey, hc]

end Input.MapPayload

end ReadQuery
