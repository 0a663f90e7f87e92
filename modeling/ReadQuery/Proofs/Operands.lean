import ReadQuery.Influx.Filter
import ReadQuery.Mongo.Filter
import ReadQuery.Proofs.Json.Scanning
import ReadQuery.Proofs.Text
import ReadQuery.Proofs.Value
import ReadQuery.Sql.Filter

/-!
# Encodings of operands

The operands of a membership or a range can be a list of values, one value that is a list, the JSON
text of the list, or its words between commas. All of them come to the same operands
(`resolveList_of_encodes`), and no backend tells them apart (`interchangeable_of_encodes`).
-/

namespace ReadQuery

namespace Value

variable {v : Value} {xs : List Value}

/-- A plain value is read back from its JSON. -/
lemma ofJson_toJson (h : v.IsPlain) : ofJson v.toJson = .ok v := by
  cases v with
  | null | bool | string => rfl
  | int i => rw [toJson, ofJson, Number.int64?_toInt]
  | float | list => cases h

/-- A plain value is a scalar in JSON. -/
lemma isScalar_toJson (h : v.IsPlain) : v.toJson.IsScalar := by
  cases v with
  | null | bool | string => trivial
  | int i => exact Json.inRange_toInt i
  | float | list => cases h

/-- A plain value has no floats in JSON. -/
lemma floatFree_toJson (h : v.IsPlain) : v.toJson.FloatFree := by
  cases v with
  | null => exact .null
  | bool b => exact .bool b
  | int i => exact .int _
  | string s => exact .string s
  | float | list => cases h

/-- The members of a list are turned into JSON one by one. -/
lemma toJsonAll_eq_map (xs : List Value) : toJsonAll xs = xs.map toJson := by
  induction xs with
  | nil => rfl
  | cons x xs ih => rw [toJsonAll, ih, List.map_cons]

/-- A list of plain values is read from its JSON text. -/
lemma ofText?_text_list (h : ∀ x ∈ xs, x.IsPlain) :
    Json.ofText? (list xs).text = some (.array (toJsonAll xs)) := by
  rw [text]
  apply Json.ofText?_array
  · rw [toJsonAll_eq_map, List.forall_mem_map]
    exact fun x hx => isScalar_toJson (h x hx)
  · rw [toJsonAll_eq_map, List.forall_mem_map]
    exact fun x hx => floatFree_toJson (h x hx)

end Value

namespace Condition

variable {xs : List Value} {words pieces : List String} {s : String}

/-- Plain values are read back from the members of an array. -/
lemma arrayValues_toJsonAll (h : ∀ x ∈ xs, x.IsPlain) :
    arrayValues (Value.toJsonAll xs) = xs := by
  rw [arrayValues, Value.toJsonAll_eq_map, List.filterMap_map]
  have hread : ∀ x ∈ xs, ((fun j => (Value.ofJson j).toOption) ∘ Value.toJson) x = some x := by
    intro x hx
    rw [Function.comp_apply, Value.ofJson_toJson (h x hx)]
    rfl
  rw [List.filterMap_congr hread, List.filterMap_some]

/-- A text that begins with a bracket is read as an array if it is the text of one. -/
lemma jsonArray?_eq_some {items : List Json} (hs : s.toList.head? = some '[')
    (h : Json.ofText? s = some (.array items)) : jsonArray? s.toList = some items := by
  obtain ⟨cs, hcs⟩ := List.head?_eq_some_iff.1 hs
  have htext : String.ofList ('[' :: cs) = s := by rw [← hcs, String.ofList_toList]
  rw [hcs, jsonArray?, htext, h]

/-- A text that begins with no bracket is no array. -/
lemma jsonArray?_eq_none {cs : List Char} (h : cs.head? ≠ some '[') : jsonArray? cs = none := by
  unfold jsonArray?
  split
  · exact absurd rfl h
  · rfl

/-- The text of a list is in brackets. -/
lemma toList_text_list (xs : List Value) :
    ∃ mid, (Value.list xs).text.toList = '[' :: mid ++ [']'] :=
  ⟨_, Json.toList_text_array _⟩

/-- The text of a list is not blank. -/
lemma allBlank_text_list (xs : List Value) : Text.allBlank (Value.list xs).text = false := by
  obtain ⟨mid, hmid⟩ := toList_text_list xs
  rw [Text.allBlank, hmid]
  rfl

/-- The JSON text of a list lists its values. -/
theorem listText_text_list (h : ∀ x ∈ xs, x.IsPlain) : listText (Value.list xs).text = xs := by
  obtain ⟨mid, hmid⟩ := toList_text_list xs
  have htrim : Text.trimList (Value.list xs).text.toList = (Value.list xs).text.toList := by
    rw [hmid]
    refine Text.trimList_of_ends ?_ ?_
    · rintro c ⟨⟩
      rfl
    · rw [List.getLast?_append]
      rintro c ⟨⟩
      rfl
  have harray : jsonArray? (Value.list xs).text.toList = some (Value.toJsonAll xs) := by
    refine jsonArray?_eq_some ?_ (Value.ofText?_text_list h)
    rw [hmid]
    rfl
  rw [listText]
  simp only [htrim, harray]
  exact arrayValues_toJsonAll h

/-- A word that a list between commas can hold. -/
structure IsWord (w : String) : Prop where
  nonempty : w ≠ ""
  trimmed : Text.trim w = w
  separated : ',' ∉ w.toList

/-- There are no blanks around a word. -/
lemma IsWord.trimList_eq {w : String} (h : IsWord w) : Text.trimList w.toList = w.toList := by
  rw [← Text.toList_trim, h.trimmed]

/-- A word begins with a character that is not blank. -/
lemma IsWord.exists_cons {w : String} (h : IsWord w) :
    ∃ c cs, w.toList = c :: cs ∧ Text.isBlank c = false := by
  obtain ⟨c, cs, hcs⟩ := List.exists_cons_of_ne_nil (String.toList_eq_nil_iff.not.2 h.nonempty)
  refine ⟨c, cs, hcs, ?_⟩
  by_contra hc
  rw [Bool.not_eq_false] at hc
  -- the blank in front would be gone from the text between its blanks
  have hlength : (Text.trimList w.toList).length ≤ cs.length := by
    rw [hcs, Text.trimList_cons_of_isBlank hc]
    exact Text.length_trimList_le cs
  rw [h.trimList_eq, hcs, List.length_cons] at hlength
  omega

/-- The pieces of a text are words between blanks. -/
def AreWords (words pieces : List String) : Prop :=
  List.Forall₂ (fun w p => IsWord w ∧ Text.Padded w.toList p.toList) words pieces

/-- There is no comma in a word between blanks. -/
lemma AreWords.not_mem_comma (h : AreWords words pieces) : ∀ p ∈ pieces, ',' ∉ p.toList := by
  induction h with
  | nil => exact nofun
  | cons hp _ ih =>
    obtain ⟨hw, before, after, hbefore, hafter, heq⟩ := hp
    rw [List.forall_mem_cons]
    refine ⟨?_, ih⟩
    rw [heq, List.mem_append, List.mem_append, not_or, not_or]
    have hcomma : ¬ Text.isBlank ',' = true := by decide
    exact ⟨⟨fun hmem => hcomma (hbefore _ hmem), hw.separated⟩,
      fun hmem => hcomma (hafter _ hmem)⟩

/-- Trimming leaves the words. -/
lemma AreWords.map_trimList (h : AreWords words pieces) :
    (pieces.map String.toList).map Text.trimList = words.map String.toList := by
  induction h with
  | nil => rfl
  | cons hp _ ih =>
    rw [List.map_cons, List.map_cons, List.map_cons, ih, hp.2.trimList_eq, hp.1.trimList_eq]

/-- Words between blanks are words. -/
lemma AreWords.isWord (h : AreWords words pieces) : ∀ w ∈ words, IsWord w := by
  induction h with
  | nil => exact nofun
  | cons hp _ ih => exact List.forall_mem_cons.2 ⟨hp.1, ih⟩

/-- Behind blanks, the words between commas begin with the first character of the first one. -/
lemma AreWords.exists_cons (h : AreWords words pieces) (hne : words ≠ []) :
    ∃ c before cs ds, Text.isBlank c = false ∧ (∀ d ∈ before, Text.isBlank d = true) ∧
      (",".intercalate words).toList = c :: cs ∧
      (",".intercalate pieces).toList = before ++ c :: ds := by
  cases h with
  | nil => exact absurd rfl hne
  | @cons w p words pieces hp hps =>
    obtain ⟨hw, before, after, hbefore, -, heq⟩ := hp
    obtain ⟨c, cs, hcs, hblank⟩ := hw.exists_cons
    rw [Text.toList_intercalate_cons, Text.toList_intercalate_cons, heq, hcs, List.append_assoc,
      List.append_assoc]
    exact ⟨c, before, _, _, hblank, hbefore, rfl, rfl⟩

/-- A list of words is not blank. -/
lemma AreWords.allBlank_intercalate (h : AreWords words pieces) (hne : words ≠ []) :
    Text.allBlank (",".intercalate pieces) = false := by
  obtain ⟨c, before, -, ds, hblank, -, -, hpieces⟩ := h.exists_cons hne
  rw [Text.allBlank, List.all_eq_false]
  refine ⟨c, ?_, by rw [hblank]; decide⟩
  rw [hpieces]
  exact List.mem_append_right _ List.mem_cons_self

/-- A list of words is no array, if the first one does not begin with a bracket. -/
lemma AreWords.jsonArray?_intercalate (h : AreWords words pieces) (hne : words ≠ [])
    (hfirst : (",".intercalate words).toList.head? ≠ some '[') :
    jsonArray? (Text.trimList (",".intercalate pieces).toList) = none := by
  obtain ⟨c, before, cs, ds, hblank, hbefore, hwords, hpieces⟩ := h.exists_cons hne
  have hpadded : Text.Padded (c :: ds) (before ++ c :: ds) :=
    ⟨before, [], hbefore, nofun, (List.append_nil _).symm⟩
  obtain ⟨rest, hrest⟩ := Text.exists_trimList_cons hblank ds
  apply jsonArray?_eq_none
  rw [hpieces, hpadded.trimList_eq, hrest]
  rwa [hwords] at hfirst

/-- A list of words is split into them. -/
lemma AreWords.splitList_intercalate (h : AreWords words pieces) (hne : words ≠ []) :
    (Text.splitList ',' (Text.trimList (",".intercalate pieces).toList)).map Text.trimList
      = words.map String.toList := by
  have hpieces : pieces.map String.toList ≠ [] := by
    intro hnil
    rw [List.map_eq_nil_iff] at hnil
    subst hnil
    exact hne (List.forall₂_nil_right_iff.1 h)
  have htext : (",".intercalate pieces).toList = [','].intercalate (pieces.map String.toList) :=
    String.toList_intercalate
  rw [← (Text.padded_trimList _).map_trimList_splitList (by decide), htext,
    Text.splitList_intercalate hpieces (List.forall_mem_map.2 h.not_mem_comma), h.map_trimList]

/-- Words between commas are listed without the blanks around them. -/
theorem listText_intercalate (h : AreWords words pieces) (hne : words ≠ [])
    (hfirst : (",".intercalate words).toList.head? ≠ some '[') :
    listText (",".intercalate pieces) = words.map .string := by
  have hkeep : ∀ cs ∈ words.map String.toList, (!cs.isEmpty) = true := by
    rw [List.forall_mem_map]
    intro w hw
    obtain ⟨c, cs, hcs, -⟩ := (h.isWord w hw).exists_cons
    rw [hcs]
    rfl
  rw [listText]
  simp only [h.jsonArray?_intercalate hne hfirst, h.splitList_intercalate hne]
  rw [List.filter_eq_self.2 hkeep, List.map_map]
  refine List.map_congr_left fun w _ => ?_
  rw [Function.comp_apply, String.ofList_toList]

/-- The condition with other operands. -/
def withOperands (c : Condition) (value : Option Value) (values : List Value) : Condition :=
  { c with value := value, values := values }

section

variable (c : Condition) (value : Option Value) (values : List Value)

/-- Other operands are given to the same field. -/
@[simp] lemma fieldRef_withOperands : (c.withOperands value values).fieldRef = c.fieldRef := rfl

/-- Other operands are compared with the same part of a date. -/
@[simp] lemma datePart_withOperands : (c.withOperands value values).datePart = c.datePart := rfl

/-- Other operands are compared with the same expression. -/
@[simp] lemma comparedExpr_withOperands (d : Sql.Dialect) :
    Sql.comparedExpr d (c.withOperands value values) = Sql.comparedExpr d c := rfl

end

/-- The ways to give a list of operands: as the values, as a value that is a list, as the JSON text
of the list, and, if all of them are words, as these between commas with any blanks around them. -/
inductive Encodes (xs : List Value) : Option Value → List Value → Prop where
  | values : Encodes xs none xs
  | list (values : List Value) : Encodes xs (some (.list xs)) values
  | json (values : List Value) : Encodes xs (some (.string (Value.list xs).text)) values
  | words {words pieces : List String} (hxs : xs = words.map .string)
    (hwords : AreWords words pieces)
    (hfirst : (",".intercalate words).toList.head? ≠ some '[') :
    Encodes xs (some (.string (",".intercalate pieces))) []

variable {c : Condition} {value value' : Option Value} {values values' : List Value}

/-- A text is resolved as a list, with integers where a part of a date is numeric. -/
lemma resolveList_string (h : Text.allBlank s = false) :
    (c.withOperands (some (.string s)) values).resolveList
      = if c.hasNumericPart then (listText s).map Value.coerceInteger else listText s := by
  rw [resolveList]
  simp only [withOperands, h]
  rfl

/-- All encodings of a list come to its values; where numbers are compared, those that spell an
integer become it. -/
theorem resolveList_of_encodes (hxs : ∀ x ∈ xs, x.IsPlain) (h : Encodes xs value values) :
    (c.withOperands value values).resolveList
      = if c.hasNumericPart then xs.map Value.coerceInteger else xs := by
  cases h with
  | values => rfl
  | list values => rfl
  | json values => rw [resolveList_string (allBlank_text_list xs), listText_text_list hxs]
  | @words words pieces heq hwords hfirst =>
    subst heq
    by_cases hne : words = []
    · -- no word at all leaves a blank text, which spells no list
      subst hne
      obtain rfl := List.forall₂_nil_left_iff.1 hwords
      rfl
    · rw [resolveList_string (hwords.allBlank_intercalate hne),
        listText_intercalate hwords hne hfirst]

/-- Conditions that have the same operands, and that no backend tells apart: not in what they
become, nor in the reason why they are left out, nor in what is reported. -/
structure Interchangeable (c d : Condition) : Prop where
  resolveList : c.resolveList = d.resolveList
  resolveRange : c.resolveRange = d.resolveRange
  sql (dialect : Sql.Dialect) (policy : SkipPolicy) :
    Filter.compileCondition policy (Sql.condition dialect) c
      = Filter.compileCondition policy (Sql.condition dialect) d
  mongo (policy : SkipPolicy) :
    Filter.compileCondition policy Mongo.condition c
      = Filter.compileCondition policy Mongo.condition d
  influx (policy : SkipPolicy) :
    Filter.compileCondition policy Influx.condition c
      = Filter.compileCondition policy Influx.condition d

/-- Whether the operator is a membership or a range. -/
def TakesList (c : Condition) : Prop :=
  (∃ negated, c.op = .among negated) ∨ c.op = .between

section

variable {d : Condition}

/-- Ranges are resolved from the same list. -/
lemma resolveRange_congr (h : c.resolveList = d.resolveList) : c.resolveRange = d.resolveRange := by
  rw [resolveRange, resolveRange, h]

/-- In SQL, lists and ranges depend on what their operands are resolved to. -/
lemma sql_operation_congr (h : c.resolveList = d.resolveList)
    (hop : c.TakesList) (hd : d.op = c.op) (dialect : Sql.Dialect) (expr : String) :
    Sql.operation dialect expr c = Sql.operation dialect expr d := by
  obtain ⟨negated, hop⟩ | hop := hop
  · simp only [Sql.operation, hd, hop, h]
  · simp only [Sql.operation, hd, hop, resolveRange_congr h]

/-- In MongoDB, lists and ranges of a key depend on what their operands are resolved to. -/
lemma mongo_keyCondition_congr (h : c.resolveList = d.resolveList)
    (hop : c.TakesList) (hd : d.op = c.op) (key : String) :
    Mongo.keyCondition c key = Mongo.keyCondition d key := by
  obtain ⟨negated, hop⟩ | hop := hop
  · simp only [Mongo.keyCondition, hd, hop, h]
  · simp only [Mongo.keyCondition, hd, hop, resolveRange_congr h]

/-- In MongoDB, lists and ranges of an expression depend on what their operands are resolved to. -/
lemma mongo_exprCondition_congr (h : c.resolveList = d.resolveList)
    (hop : c.TakesList) (hd : d.op = c.op) (expr : Mongo.Bson) :
    Mongo.exprCondition c expr = Mongo.exprCondition d expr := by
  obtain ⟨negated, hop⟩ | hop := hop
  · simp only [Mongo.exprCondition, hd, hop, h]
  · simp only [Mongo.exprCondition, hd, hop, resolveRange_congr h]

/-- In InfluxQL, lists and ranges depend on what their operands are resolved to. -/
lemma influx_operation_congr (h : c.resolveList = d.resolveList)
    (hop : c.TakesList) (hd : d.op = c.op) (field : String) :
    Influx.operation field c = Influx.operation field d := by
  obtain ⟨negated, hop⟩ | hop := hop
  · simp only [Influx.operation, hd, hop, h]
  · simp only [Influx.operation, hd, hop, resolveRange_congr h]

end

/-- Conditions that are rendered alike are compiled alike. -/
lemma compileCondition_withOperands {α : Type} {render : Condition → Compiled α}
    (h : render (c.withOperands value values) = render (c.withOperands value' values'))
    (policy : SkipPolicy) :
    Filter.compileCondition policy render (c.withOperands value values)
      = Filter.compileCondition policy render (c.withOperands value' values') := by
  rw [Filter.compileCondition, Filter.compileCondition, h]
  rfl

/-- Of the ways to give the operands of a membership or a range, only what they come to is seen. -/
lemma interchangeable_of_resolveList (hop : c.TakesList)
    (h : (c.withOperands value values).resolveList
      = (c.withOperands value' values').resolveList) :
    Interchangeable (c.withOperands value values) (c.withOperands value' values') where
  resolveList := h
  resolveRange := resolveRange_congr h
  sql dialect := by
    apply compileCondition_withOperands
    simp only [Sql.condition, comparedExpr_withOperands]
    cases Sql.comparedExpr dialect c with
    | error reason => rfl
    | ok expr => exact sql_operation_congr h hop rfl dialect expr
  mongo := by
    apply compileCondition_withOperands
    simp only [Mongo.condition, fieldRef_withOperands, datePart_withOperands]
    cases c.fieldRef with
    | error reason => rfl
    | ok f =>
      cases c.datePart with
      | none => exact mongo_keyCondition_congr h hop rfl _
      | some part => exact mongo_exprCondition_congr h hop rfl _
  influx := by
    apply compileCondition_withOperands
    simp only [Influx.condition, fieldRef_withOperands, datePart_withOperands]
    cases c.fieldRef with
    | error reason => rfl
    | ok f =>
      cases c.datePart with
      | none => exact influx_operation_congr h hop rfl _
      | some part => rfl

/-- However a list of operands is given to a membership or a range, it is the same condition to all
backends. -/
theorem interchangeable_of_encodes (c : Condition) (hop : c.TakesList) (hxs : ∀ x ∈ xs, x.IsPlain)
    (h : Encodes xs value values) (h' : Encodes xs value' values') :
    Interchangeable (c.withOperands value values) (c.withOperands value' values') :=
  interchangeable_of_resolveList hop
    ((resolveList_of_encodes hxs h).trans (resolveList_of_encodes hxs h').symm)

/-- The years of a range as JSON text and between commas. -/
theorem interchangeable_of_encodes_years :
    (onPart (nullary "created_at" .between) .year).TakesList ∧
      (∀ x ∈ [Value.string "2019", .string "2021"], x.IsPlain) ∧
      Encodes [.string "2019", .string "2021"]
        (some (.string "[\"2019\",\"2021\"]")) [] ∧
      Encodes [.string "2019", .string "2021"] (some (.string " 2019 , 2021")) [] ∧
      Interchangeable ((onPart (nullary "created_at" .between) .year).withOperands
          (some (.string "[\"2019\",\"2021\"]")) [])
        ((onPart (nullary "created_at" .between) .year).withOperands
          (some (.string " 2019 , 2021")) []) := by
  have hop : (onPart (nullary "created_at" .between) .year).TakesList := .inr rfl
  have hxs : ∀ x ∈ [Value.string "2019", .string "2021"], x.IsPlain := by
    rintro x (_ | ⟨_, _ | ⟨_, ⟨⟩⟩⟩) <;> trivial
  have hjson : Encodes [.string "2019", .string "2021"]
      (some (.string "[\"2019\",\"2021\"]")) [] := .json []
  have hspace : ∀ c ∈ [' '], Text.isBlank c = true := List.all_eq_true.1 rfl
  have hwords : AreWords ["2019", "2021"] [" 2019 ", " 2021"] :=
    .cons ⟨⟨by decide, by decide, by decide⟩, [' '], [' '], hspace, hspace, rfl⟩
      (.cons ⟨⟨by decide, by decide, by decide⟩, [' '], [], hspace, nofun, rfl⟩ .nil)
  have hcommas : Encodes [.string "2019", .string "2021"] (some (.string " 2019 , 2021")) [] :=
    .words rfl hwords (by decide)
  exact ⟨hop, hxs, hjson, hcommas, interchangeable_of_encodes _ hop hxs hjson hcommas⟩

end Condition

end ReadQuery
