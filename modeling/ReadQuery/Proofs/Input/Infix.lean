import ReadQuery.Input.Expression.ToFilter
import ReadQuery.Proofs.FieldRef
import ReadQuery.Proofs.Input.Recognizer
import ReadQuery.Proofs.Number
import ReadQuery.Proofs.Outcome
import ReadQuery.Proofs.Value

/-!
# Filters written infix

The filters that the expression language has a form for (`Filter.IsInfix`), their texts
(`Infix.print`) and the terms that these are meant to be read as (`Infix.filterTerm`). What the
language leaves open is a choice of the writer (`Infix.Style`): aliases of operators and parts of
dates, and parentheses around conjunctions.

The terms of a filter are converted to the filter again (`toFilter_filterTerm`): the calls of a
connective become nodes and all other calls conditions, in the order in which they were written.
-/

namespace ReadQuery

/-- The operands that an operator takes, in the one form in which they are written. -/
def Condition.HasOperands (c : Condition) : Prop :=
  match c.op.arity with
  | .nullary => c.op ≠ .unspecified ∧ c.value = none ∧ c.values = []
  | .single => (∃ v : Value, c.value = some v ∧ v.IsPlain) ∧ c.values = []
  | .list => c.value = none ∧ ∀ v ∈ c.values, v.IsPlain
  | .range => c.value = none ∧ ∃ a b : Value, c.values = [a, b] ∧ a.IsPlain ∧ b.IsPlain

/-- A condition that can be written: on a name that is no keyword, with a path of names into it or
without. -/
structure Condition.IsInfix (c : Condition) : Prop where
  isName : Input.Recognizer.IsName c.field.toList
  not_keyword : Text.lower c.field ∉ Input.Grammar.keywords
  path : ∀ p, c.jsonPath = some p → ∀ segment ∈ Text.splitList '.' p.toList,
    segment ≠ [] ∧ ∀ ch ∈ segment, Text.isNameChar ch = true
  operands : c.HasOperands

/-- The other connective. -/
def Junction.other : Junction → Junction
  | and => or
  | or => and

namespace Filter

mutual

/-- A node of a connective with at least two members; the groups among them are nodes of the other
connective. -/
def IsGroup (j : Junction) : Filter → Prop
  | ⟨junction, conditions, groups⟩ =>
    junction = some j ∧ 2 ≤ conditions.length + groups.length ∧
      (∀ c ∈ conditions, c.IsInfix) ∧ AllGroups j.other groups

/-- Filters that are nodes of the connective. -/
def AllGroups (j : Junction) : List Filter → Prop
  | [] => True
  | f :: fs => IsGroup j f ∧ AllGroups j fs

end

/-- A filter in normal form: a node of at least two members, or a single condition. -/
def IsInfix (f : Filter) : Prop :=
  (∃ j, IsGroup j f) ∨ ∃ c : Condition, c.IsInfix ∧ f = Filter.all [c]

end Filter

namespace Input.Infix

/-- What is left open in the text of a filter: the names that operators and parts of dates are
called by, and which conjunctions in a disjunction go without parentheses, told apart by their
place. -/
structure Style where
  call : Operator → String
  part : DatePart → String
  bare : List Nat → Bool
  isName_call : ∀ op, Recognizer.IsName (call op).toList
  ofSpelling_call : ∀ op, Operator.ofSpelling (call op) = op
  isName_part : ∀ p, Recognizer.IsName (part p).toList
  ofSpelling?_part : ∀ p, DatePart.ofSpelling? (part p) = some p

namespace Style

/-- Operators and parts of dates go by their own names, and parentheses are only where they have to
be. -/
def canonical : Style where
  call := Operator.name
  part := DatePart.name
  bare := fun _ => true
  isName_call op := by
    match op with
    | .unspecified | .between | .search => exact ⟨_, _, rfl, by decide, by decide⟩
    | .compare c => cases c <;> exact ⟨_, _, rfl, by decide, by decide⟩
    | .among n => cases n <;> exact ⟨_, _, rfl, by decide, by decide⟩
    | .nullness n => cases n <;> exact ⟨_, _, rfl, by decide, by decide⟩
    | .text p f => cases p <;> cases f <;> exact ⟨_, _, rfl, by decide, by decide⟩
    | .regex f => cases f <;> exact ⟨_, _, rfl, by decide, by decide⟩
  ofSpelling_call := Operator.ofSpelling_name
  isName_part p := by cases p <;> exact ⟨_, _, rfl, by decide, by decide⟩
  ofSpelling?_part := DatePart.ofSpelling?_name

end Style

/-- A text between single quotes, with a backslash in front of quotes and backslashes. -/
def quote (s : String) : String :=
  "'" ++ String.ofList (s.toList.flatMap fun c => if c = '\'' ∨ c = '\\' then ['\\', c] else [c])
    ++ "'"

/-- A value as it is written in an expression. -/
def valueText : Value → String
  | .null => "null"
  | .bool b => if b then "true" else "false"
  | .int i => Number.showInt64 i
  | .string s => quote s
  | .float _ | .list _ => ""

/-- The sign of a comparison. -/
def sign : Comparison → String
  | .equals => "="
  | .notEquals => "<>"
  | .greater => ">"
  | .greaterOrEquals => ">="
  | .less => "<"
  | .lessOrEquals => "<="

/-- A field with the path into it. -/
def pathText (c : Condition) : String :=
  match c.jsonPath with
  | none => c.field
  | some p => c.field ++ "." ++ p

variable (style : Style)

/-- The left side of a condition. -/
def fieldText (c : Condition) : String :=
  match c.datePart with
  | none => pathText c
  | some part => style.part part ++ "(" ++ pathText c ++ ")"

/-- The values of a condition, of which there are as many as its operator takes. -/
def operands (c : Condition) : List Value :=
  c.value.toList ++ c.values

/-- A condition: a sign or a word between its operands where its operator has one, and a call
otherwise. -/
def conditionText (c : Condition) : String :=
  match c.op with
  | .compare cmp =>
    fieldText style c ++ " " ++ sign cmp ++ " " ++ " ".intercalate ((operands c).map valueText)
  | .among negated =>
    fieldText style c ++ (if negated then " NOT IN (" else " IN (")
      ++ ", ".intercalate ((operands c).map valueText) ++ ")"
  | .between =>
    fieldText style c ++ " BETWEEN " ++ " AND ".intercalate ((operands c).map valueText)
  | .nullness negated => fieldText style c ++ (if negated then " IS NOT NULL" else " IS NULL")
  | op =>
    style.call op ++ "(" ++ ", ".intercalate (fieldText style c :: (operands c).map valueText)
      ++ ")"

/-- What stands between the members of a node. -/
def connective : Option Junction → String
  | some .or => " OR "
  | _ => " AND "

/-- A group within a node: parentheses may be left out around a conjunction in a disjunction. -/
def enclosed (junction : Option Junction) (place : List Nat) (s : String) : String :=
  if junction = some .or ∧ style.bare place = true then s else "(" ++ s ++ ")"

mutual

/-- The text of a filter: its conditions and then its groups. -/
def print (place : List Nat) : Filter → String
  | ⟨junction, conditions, groups⟩ =>
    (connective junction).intercalate
      (conditions.map (conditionText style) ++ printAll junction place 0 groups)

/-- The texts of the groups of a node, from the `i`-th on. -/
def printAll (junction : Option Junction) (place : List Nat) (i : Nat) : List Filter → List String
  | [] => []
  | f :: fs =>
    enclosed style junction (i :: place) (print (i :: place) f)
      :: printAll junction place (i + 1) fs

end

variable {α : Type} (constant : Value → α)

/-- A field with the path into it as a term. -/
def pathTerm (c : Condition) : Term α :=
  match c.jsonPath with
  | none => .field c.field
  | some p => .select (c.field :: Text.split '.' p)

/-- The left side of a condition as a term. -/
def fieldTerm (c : Condition) : Term α :=
  match c.datePart with
  | none => pathTerm c
  | some part => .call (style.part part) [pathTerm c]

/-- The name of the call that a condition with a sign or a word between its operands becomes. -/
def infixName? : Operator → Option String
  | .compare .equals => some "eq"
  | .compare .notEquals => some "neq"
  | .compare cmp => some (sign cmp)
  | .among negated => some (if negated then "nin" else "in")
  | .between => some "between"
  | .nullness negated => some (if negated then "isnotnull" else "isnull")
  | .unspecified | .text _ _ | .regex _ | .search => none

/-- The name of the call that a condition becomes. -/
def function (op : Operator) : String :=
  (infixName? op).getD (style.call op)

/-- A condition as a call of its operator. -/
def conditionTerm (c : Condition) : Term α :=
  .call (function style c.op)
    (fieldTerm style c :: (operands c).map fun v => .literal (constant v))

/-- A single member stands for itself, more are joined. -/
def nodeTerm (junction : Option Junction) : List (Term α) → Term α
  | [t] => t
  | ts => .call (if junction = some .or then "or" else "and") ts

mutual

/-- A filter as a term. -/
def filterTerm : Filter → Term α
  | ⟨junction, conditions, groups⟩ =>
    nodeTerm junction (conditions.map (conditionTerm style constant) ++ termsOfAll groups)

/-- Filters as terms. -/
def termsOfAll : List Filter → List (Term α)
  | [] => []
  | f :: fs => filterTerm f :: termsOfAll fs

end

/-- A value as the literal that its text is recognized as. -/
def unresolved : Value → Literal
  | .int i => .integer (Number.showInt64 i).toList
  | v => .value v

/-- The literal of a value has this value. -/
lemma resolve_unresolved (v : Value) : (unresolved v).resolve = .ok v := by
  cases v with
  | int i =>
    rw [unresolved, Literal.resolve, Number.showInt64, Number.integer?_toString]
    simp only [Number.int64?_toInt]
  | _ => rfl

variable {style} {op : Operator} {c : Condition}

/-- No name character is blank. -/
lemma isBlank_of_isNameChar {ch : Char} (h : Text.isNameChar ch = true) :
    Text.isBlank ch = false := by
  refine Identifier.isBlank_of_isChar ?_
  rw [Identifier.isChar, h]
  rfl

/-- A name has no blanks around it. -/
lemma trim_of_isName {s : String} (h : Recognizer.IsName s.toList) : Text.trim s = s :=
  Text.trim_of_no_blank fun ch hch => isBlank_of_isNameChar (h.isNameChar ch hch)

/-- A name spells an operator as its small letters do. -/
lemma ofSpelling_of_isName {s word : String} (h : Recognizer.IsName s.toList)
    (hword : Text.lower s = word) (hplain : Text.lower (Text.trim word) = word) :
    Operator.ofSpelling s = Operator.ofSpelling word := by
  unfold Operator.ofSpelling
  rw [trim_of_isName h, hword, hplain]

/-- A part of a date is looked up under its name in small letters. -/
lemma ofSpelling?_of_isName {s word : String} (h : Recognizer.IsName s.toList)
    (hword : Text.lower s = word) :
    DatePart.ofSpelling? s = (DatePart.spellings.find? (·.1.contains word)).map (·.2) := by
  rw [DatePart.ofSpelling?, trim_of_isName h, hword]

/-- No operator goes by the name of a connective. -/
lemma junction?_call (hop : op ≠ .unspecified) : Expression.junction? (style.call op) = none := by
  have hspelling := style.ofSpelling_call op
  have hword : ∀ word, Text.lower (Text.trim word) = word →
      Operator.ofSpelling word = .unspecified → Text.lower (style.call op) ≠ word := by
    intro word hplain hunknown hlower
    rw [ofSpelling_of_isName (style.isName_call op) hlower hplain, hunknown] at hspelling
    exact hop hspelling.symm
  have hand := hword "and" (by decide) (by decide)
  have hands := hword "&&" (by decide) (by decide)
  have hor := hword "or" (by decide) (by decide)
  have hors := hword "||" (by decide) (by decide)
  simp [Expression.junction?, hand, hands, hor, hors]

/-- The names behind signs and words are those of their operators, and of no connective. -/
lemma infixName?_spec {name : String} (h : infixName? op = some name) :
    Operator.ofSpelling name = op ∧ Expression.junction? name = none := by
  cases op with
  | compare cmp => cases cmp <;> obtain rfl := Option.some.inj h <;> decide
  | among negated => cases negated <;> obtain rfl := Option.some.inj h <;> decide
  | between => obtain rfl := Option.some.inj h; decide
  | nullness negated => cases negated <;> obtain rfl := Option.some.inj h <;> decide
  | unspecified => cases h
  | text place folded => cases h
  | regex folded => cases h
  | search => cases h

/-- All operators without a sign or a word take one value. -/
lemma arity_of_infixName (h : infixName? op = none) (hop : op ≠ .unspecified) :
    op.arity = .single := by
  cases op with
  | compare cmp => rfl
  | among negated => cases h
  | between => cases h
  | nullness negated => cases h
  | unspecified => exact absurd rfl hop
  | text place folded => rfl
  | regex folded => rfl
  | search => rfl

/-- A condition without a sign or a word is written as a call. -/
lemma conditionText_of_infixName (h : infixName? c.op = none) :
    conditionText style c = style.call c.op ++ "("
      ++ ", ".intercalate (fieldText style c :: (operands c).map valueText) ++ ")" := by
  rw [conditionText]
  cases hop : c.op with
  | compare cmp =>
    rw [hop] at h
    cases cmp <;> cases h
  | among negated =>
    rw [hop] at h
    cases h
  | between =>
    rw [hop] at h
    cases h
  | nullness negated =>
    rw [hop] at h
    cases h
  | unspecified => rfl
  | text place folded => rfl
  | regex folded => rfl
  | search => rfl

/-- The call of a condition names its operator, and no connective. -/
lemma function_spec (hop : op ≠ .unspecified) :
    Operator.ofSpelling (function style op) = op ∧
      Expression.junction? (function style op) = none := by
  rw [function]
  cases h : infixName? op with
  | some name => exact infixName?_spec h
  | none => exact ⟨style.ofSpelling_call op, junction?_call hop⟩

/-- A text is put together again from its segments. -/
lemma intercalate_split (p : String) : ".".intercalate (Text.split '.' p) = p := by
  have hpieces : (Text.split '.' p).map String.toList = Text.splitList '.' p.toList := by
    rw [Text.split, List.map_map]
    exact List.map_id'' (fun cs => String.toList_ofList) _
  rw [← String.toList_inj, String.toList_intercalate, hpieces]
  exact Text.intercalate_splitList '.' p.toList

/-- A path is read back as the field and the path into it. -/
lemma fieldReference_pathTerm (op : Operator) (c : Condition) :
    Expression.fieldReference op (pathTerm c)
      = .ok { Condition.nullary c.field op with jsonPath := c.jsonPath } := by
  rw [pathTerm]
  cases c.jsonPath with
  | none => rfl
  | some p =>
    show Except.ok ((Condition.nullary c.field op).atPath (".".intercalate (Text.split '.' p))) = _
    rw [intercalate_split]
    rfl

/-- The left side of a condition refers to its field. -/
lemma fieldReference_fieldTerm (op : Operator) (c : Condition) :
    Expression.fieldReference op (fieldTerm style c)
      = .ok { Condition.nullary c.field op with
        jsonPath := c.jsonPath, datePart := c.datePart } := by
  rw [fieldTerm]
  cases c.datePart with
  | none => exact fieldReference_pathTerm op c
  | some part =>
    unfold Expression.fieldReference
    rw [style.ofSpelling?_part, fieldReference_pathTerm]
    rfl

/-- Literals are constants under every operator. -/
lemma constants_literals (op : Operator) (vs : List Value) :
    Expression.constants op (vs.map Term.literal) = .ok vs := by
  induction vs with
  | nil => rfl
  | cons v vs ih =>
    rw [List.map_cons, Expression.constants, ih]
    rfl

/-- The operator of a condition that can be written is known. -/
lemma ne_unspecified (h : c.HasOperands) : c.op ≠ .unspecified := by
  intro hop
  rw [Condition.HasOperands, hop] at h
  exact h.1 rfl

/-- An operator without operands is written without values. -/
lemma operands_nullary (h : c.HasOperands) (harity : c.op.arity = .nullary) : operands c = [] := by
  rw [Condition.HasOperands, harity] at h
  obtain ⟨-, hvalue, hvalues⟩ := h
  rw [operands, hvalue, hvalues]
  rfl

/-- An operator with one operand is written with one value. -/
lemma operands_single (h : c.HasOperands) (harity : c.op.arity = .single) :
    ∃ v, operands c = [v] ∧ v.IsPlain := by
  rw [Condition.HasOperands, harity] at h
  obtain ⟨⟨v, hvalue, hplain⟩, hvalues⟩ := h
  refine ⟨v, ?_, hplain⟩
  rw [operands, hvalue, hvalues]
  rfl

/-- An operator with a list is written with values. -/
lemma operands_list (h : c.HasOperands) (harity : c.op.arity = .list) :
    ∀ v ∈ operands c, v.IsPlain := by
  rw [Condition.HasOperands, harity] at h
  obtain ⟨hvalue, hplain⟩ := h
  rw [operands, hvalue]
  exact hplain

/-- A range is written with its two bounds. -/
lemma operands_range (h : c.HasOperands) (harity : c.op.arity = .range) :
    ∃ a b, operands c = [a, b] ∧ a.IsPlain ∧ b.IsPlain := by
  rw [Condition.HasOperands, harity] at h
  obtain ⟨hvalue, a, b, hvalues, ha, hb⟩ := h
  refine ⟨a, b, ?_, ha, hb⟩
  rw [operands, hvalue, hvalues]
  rfl

/-- The operands of a condition that can be written are given to it again. -/
lemma withOperands_operands (h : c.HasOperands) :
    Expression.withOperands { c with value := none, values := [] } (operands c) = .ok c := by
  obtain ⟨field, op, value, values, jsonPath, datePart⟩ := c
  simp only [Condition.HasOperands] at h
  simp only [operands, Expression.withOperands]
  cases harity : op.arity with
  | nullary =>
    simp only [harity] at h
    obtain ⟨-, rfl, rfl⟩ := h
    rfl
  | single =>
    simp only [harity] at h
    obtain ⟨⟨v, rfl, -⟩, rfl⟩ := h
    rfl
  | list =>
    simp only [harity] at h
    obtain ⟨rfl, -⟩ := h
    rfl
  | range =>
    simp only [harity] at h
    obtain ⟨rfl, -⟩ := h
    rfl

variable (style) in
/-- The term of a condition is converted to the condition. -/
lemma callCondition_eq (h : c.HasOperands) :
    Expression.callCondition (function style c.op)
      (fieldTerm style c :: (operands c).map Term.literal) = .ok c := by
  have hop := ne_unspecified h
  have hspecified : c.op.isSpecified = true := by simpa [Operator.isSpecified] using hop
  have hoperands := withOperands_operands h
  rw [Expression.callCondition]
  simp only [(function_spec hop).1, hspecified, fieldReference_fieldTerm, constants_literals,
    ok_bind, Bool.not_true, Bool.false_eq_true, if_false]
  exact hoperands

/-- A condition is a member of its node by itself. -/
lemma members_condition (h : c.HasOperands) (j : Junction) :
    Expression.members j (conditionTerm style id c) = .ok ⟨[c], []⟩ := by
  have hcall := callCondition_eq style h
  rw [conditionTerm, Expression.members, (function_spec (ne_unspecified h)).2]
  simp only [id_eq, hcall]
  rfl

/-- The conditions of a node come in front of its other members. -/
lemma membersOfAll_conditions {cs : List Condition} (h : ∀ c ∈ cs, c.HasOperands) (j : Junction)
    {ts : List Expr} {m : Expression.Members} (hts : Expression.membersOfAll j ts = .ok m) :
    Expression.membersOfAll j (cs.map (conditionTerm style id) ++ ts)
      = .ok ⟨cs ++ m.conditions, m.groups⟩ := by
  induction cs with
  | nil => exact hts
  | cons c cs ih =>
    rw [List.forall_mem_cons] at h
    rw [List.map_cons, List.cons_append, Expression.membersOfAll, members_condition h.1, ih h.2]
    rfl

/-- There is a term for each filter. -/
lemma length_termsOfAll (gs : List Filter) : (termsOfAll style constant gs).length = gs.length := by
  induction gs with
  | nil => rfl
  | cons g gs ih => rw [termsOfAll, List.length_cons, List.length_cons, ih]

/-- Two terms or more are joined by a call. -/
lemma nodeTerm_of_two_le {ts : List (Term α)} (h : 2 ≤ ts.length) (junction : Option Junction) :
    nodeTerm junction ts = .call (if junction = some .or then "or" else "and") ts := by
  match ts, h with
  | _ :: _ :: _, _ => rfl

/-- The term of a node with two members or more. -/
lemma filterTerm_of_two_le {conditions : List Condition} {groups : List Filter}
    (h : 2 ≤ conditions.length + groups.length) (j : Junction) :
    filterTerm style constant ⟨some j, conditions, groups⟩
      = .call (if some j = some .or then "or" else "and")
        (conditions.map (conditionTerm style constant) ++ termsOfAll style constant groups) := by
  refine nodeTerm_of_two_le ?_ _
  rwa [List.length_append, List.length_map, length_termsOfAll]

/-- The name of a connective is read as the connective. -/
lemma junction?_connective (j : Junction) :
    Expression.junction? (if some j = some .or then "or" else "and") = some j := by
  cases j <;> decide

/-- The terms of a node are its conditions and its groups. -/
lemma membersOfAll_node {j : Junction} {conditions : List Condition} {groups : List Filter}
    (hconditions : ∀ c ∈ conditions, c.IsInfix)
    (hgroups : Expression.membersOfAll j (termsOfAll style id groups) = .ok ⟨[], groups⟩) :
    Expression.membersOfAll j
        (conditions.map (conditionTerm style id) ++ termsOfAll style id groups)
      = .ok ⟨conditions, groups⟩ := by
  rw [membersOfAll_conditions (fun c hc => (hconditions c hc).operands) j hgroups,
    List.append_nil]

mutual

/-- A group of the other connective is a group of the node. -/
lemma members_group (j : Junction) : ∀ {g : Filter}, g.IsGroup j.other →
    Expression.members j (filterTerm style id g) = .ok ⟨[], [g]⟩
  | ⟨_, conditions, groups⟩, h => by
    rw [Filter.IsGroup] at h
    obtain ⟨rfl, htwo, hconditions, hgroups⟩ := h
    have hother : j.other ≠ j := by cases j <;> decide
    have hmembers := membersOfAll_node hconditions (membersOfAll_groups j.other hgroups)
    rw [filterTerm_of_two_le _ htwo, Expression.members, junction?_connective]
    simp only [if_neg hother, hmembers]
    rfl

/-- Groups of the other connective stay groups within a node. -/
lemma membersOfAll_groups (j : Junction) : ∀ {groups : List Filter},
    Filter.AllGroups j.other groups →
    Expression.membersOfAll j (termsOfAll style id groups) = .ok ⟨[], groups⟩
  | [], _ => rfl
  | g :: gs, h => by
    rw [Filter.AllGroups] at h
    rw [termsOfAll, Expression.membersOfAll, members_group j h.1, membersOfAll_groups j h.2]
    rfl

end

/-- The term of a filter in normal form is converted to the filter. -/
theorem toFilter_filterTerm {f : Filter} (h : f.IsInfix) :
    Expression.toFilter (filterTerm style id f) = .ok f := by
  obtain ⟨j, hgroup⟩ | ⟨c, hc, rfl⟩ := h
  · obtain ⟨junction, conditions, groups⟩ := f
    rw [Filter.IsGroup] at hgroup
    obtain ⟨rfl, htwo, hconditions, hgroups⟩ := hgroup
    rw [filterTerm_of_two_le _ htwo, Expression.toFilter, junction?_connective]
    simp only [membersOfAll_node hconditions (membersOfAll_groups j hgroups)]
    rfl
  · have hcall := callCondition_eq style hc.operands
    show Expression.toFilter (conditionTerm style id c) = _
    rw [conditionTerm, Expression.toFilter, (function_spec (ne_unspecified hc.operands)).2]
    simp only [id_eq, hcall]
    rfl

/-- There is no literal to resolve on the left side of a condition. -/
lemma resolve_fieldTerm (c : Condition) :
    (fieldTerm style c : Term Literal).resolve = .ok (fieldTerm style c) := by
  obtain ⟨field, op, value, values, jsonPath, datePart⟩ := c
  cases jsonPath <;> cases datePart <;> rfl

/-- Literals of values are resolved to these values. -/
lemma resolveAll_literals (vs : List Value) :
    Term.resolveAll (vs.map fun v => .literal (unresolved v)) = .ok (vs.map .literal) := by
  induction vs with
  | nil => rfl
  | cons v vs ih =>
    rw [List.map_cons, Term.resolveAll, Term.resolve, resolve_unresolved, ih]
    rfl

/-- The literals of a condition are resolved to its values. -/
lemma resolve_conditionTerm (c : Condition) :
    (conditionTerm style unresolved c).resolve = .ok (conditionTerm style id c) := by
  rw [conditionTerm, Term.resolve, Term.resolveAll, resolve_fieldTerm, resolveAll_literals]
  rfl

/-- Lists of terms are resolved side by side. -/
lemma resolveAll_append {ts us : List (Term Literal)} {ts' us' : List Expr}
    (hts : Term.resolveAll ts = .ok ts') (hus : Term.resolveAll us = .ok us') :
    Term.resolveAll (ts ++ us) = .ok (ts' ++ us') := by
  induction ts generalizing ts' with
  | nil =>
    cases hts
    exact hus
  | cons t ts ih =>
    rw [Term.resolveAll] at hts
    split at hts
    · cases hts
    · next t' ht =>
      obtain ⟨ts', hts', rfl⟩ := map_eq_ok.1 hts
      rw [List.cons_append, Term.resolveAll, ht, ih hts']
      rfl

/-- The literals of some conditions are resolved to their values. -/
lemma resolveAll_conditions (cs : List Condition) :
    Term.resolveAll (cs.map (conditionTerm style unresolved))
      = .ok (cs.map (conditionTerm style id)) := by
  induction cs with
  | nil => rfl
  | cons c cs ih =>
    rw [List.map_cons, Term.resolveAll, resolve_conditionTerm, ih]
    rfl

/-- Resolving keeps the number of terms. -/
lemma length_of_resolveAll {ts : List (Term Literal)} {ts' : List Expr}
    (h : Term.resolveAll ts = .ok ts') : ts'.length = ts.length := by
  induction ts generalizing ts' with
  | nil =>
    cases h
    rfl
  | cons t ts ih =>
    rw [Term.resolveAll] at h
    split at h
    · cases h
    · obtain ⟨us, hus, rfl⟩ := map_eq_ok.1 h
      rw [List.length_cons, List.length_cons, ih hus]

/-- A node is resolved with its members. -/
lemma resolve_nodeTerm {ts : List (Term Literal)} {ts' : List Expr} (junction : Option Junction)
    (h : Term.resolveAll ts = .ok ts') :
    (nodeTerm junction ts).resolve = .ok (nodeTerm junction ts') := by
  have hlength := length_of_resolveAll h
  match ts with
  | [] =>
    cases h
    rfl
  | [t] =>
    rw [Term.resolveAll] at h
    split at h
    · cases h
    · next ht =>
      cases h
      exact ht
  | t :: u :: ts =>
    have htwo : 2 ≤ (t :: u :: ts).length := Nat.le_add_left 2 ts.length
    rw [nodeTerm_of_two_le htwo, nodeTerm_of_two_le (hlength ▸ htwo), Term.resolve, h]
    rfl

mutual

/-- The literals of a filter's term have the values of the filter. -/
theorem resolve_filterTerm : ∀ f : Filter,
    (filterTerm style unresolved f).resolve = .ok (filterTerm style id f)
  | ⟨junction, conditions, groups⟩ => by
    refine resolve_nodeTerm junction ?_
    exact resolveAll_append (resolveAll_conditions conditions) (resolveAll_termsOfAll groups)

/-- The terms of some filters are resolved to the terms with their values. -/
theorem resolveAll_termsOfAll : ∀ fs : List Filter,
    Term.resolveAll (termsOfAll style unresolved fs) = .ok (termsOfAll style id fs)
  | [] => rfl
  | f :: fs => by
    rw [termsOfAll, Term.resolveAll, resolve_filterTerm f, resolveAll_termsOfAll fs]
    rfl

end

end Input.Infix

end ReadQuery
