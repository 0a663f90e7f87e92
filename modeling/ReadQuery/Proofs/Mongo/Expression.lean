import Mathlib.Data.List.Basic
import ReadQuery.Mongo.Filter

/-!
# Values inside expressions

A condition on a part of a date is a test inside of `$expr`, where a text with a dollar sign in
front is read as the path of a field or as a variable. The values of the condition are written into
the test as they are (`Test`, `operands`), and nothing keeps such a text from being read so.

What expressions mean is said by an evaluator that knows neither the contents of fields nor the
operators (`Bson.eval`). An operand that is the same in every context is the value of the condition
and nothing else (`Bson.IsConstant`). The main statement, `forall_operands_isConstant_iff`, says
exactly which conditions have such operands only, and that their tests depend on no field but their
own.
-/

namespace ReadQuery

namespace Mongo

/-- Whether an expression reads a text as the path of a field or as a variable. -/
def isReference (s : String) : Bool :=
  s.toList.head? == some '$'

/-- What an expression is evaluated in: the contents that references stand for, and what operators
make of their arguments. -/
structure Context where
  content : String → Bson
  operate : Document → Bson

namespace Bson

mutual

/-- The value of an expression: references stand for their contents, other scalars for themselves,
an array for the values of its items, and an operator is given the values of its arguments. -/
def eval (x : Context) : Bson → Bson
  | .null => .null
  | .bool b => .bool b
  | .int32 i => .int32 i
  | .int64 i => .int64 i
  | .double d => .double d
  | .string s => if isReference s then x.content s else .string s
  | .array items => .array (evalAll x items)
  | .document entries => x.operate (evalEntries x entries)

/-- The values of some expressions. -/
def evalAll (x : Context) : List Bson → List Bson
  | [] => []
  | b :: bs => eval x b :: evalAll x bs

/-- A document with the values of its expressions. -/
def evalEntries (x : Context) : List (String × Bson) → List (String × Bson)
  | [] => []
  | (key, b) :: entries => (key, eval x b) :: evalEntries x entries

end

/-- An expression that stands for itself, whatever fields and variables contain. -/
def IsConstant (b : Bson) : Prop :=
  ∀ x, b.eval x = b

end Bson

/-- The tests of an expression, each with the operands that the expression is tested with. -/
inductive Test (expr : Bson) : List Bson → Bson → Prop
  | never : Test expr [] (.bool false)
  | nullCheck (negated : Bool) : Test expr [] (applied (nullCheckName negated) expr .null)
  | comparison (cmp : Comparison) (b : Bson) : Test expr [b] (applied (comparisonName cmp) expr b)
  | membership (bs : List Bson) : Test expr bs (applied "$in" expr (.array bs))
  | exclusion (bs : List Bson) :
      Test expr bs (.entry "$not" (.array [applied "$in" expr (.array bs)]))
  | range (lower upper : Bson) : Test expr [lower, upper]
      (.entry "$and" (.array [applied "$gte" expr lower, applied "$lte" expr upper]))
  | pattern (s : String) (folded : Bool) : Test expr [.string s] (exprPattern expr s folded)

/-- The values of a condition as the operands of a test; of a text that is looked for, the pattern
made of it. -/
def operands (c : Condition) : List Bson :=
  match c.op with
  | .compare _ => c.scalar?.toList.map .ofValue
  | .among _ | .between => Bson.ofValues c.resolveList
  | .text place _ => c.patternText?.toList.map fun s => .string (regexOf (some place) s)
  | .regex _ => c.patternText?.toList.map fun s => .string (regexOf none s)
  | .unspecified | .nullness _ | .search => []

end Mongo

mutual

/-- Whether a value is, or is a list that contains, a text that expressions read as a reference. -/
def Value.refers : Value → Bool
  | .null | .bool _ | .int _ | .float _ => false
  | .string s => Mongo.isReference s
  | .list items => anyRefers items

/-- Whether one of some values refers. -/
def Value.anyRefers : List Value → Bool
  | [] => false
  | v :: vs => refers v || anyRefers vs

end

/-- Whether a value of a condition, or the pattern made of it, is read as a reference. Escaping
takes the dollar sign away from a text that is looked for, and the anchor at the end is alone if
there is no text. -/
def Condition.refers (c : Condition) : Bool :=
  match c.op with
  | .compare _ => c.scalar?.any Value.refers
  | .among _ | .between => Value.anyRefers c.resolveList
  | .regex _ => c.patternText?.any Mongo.isReference
  | .text .atEnd _ => c.patternText? == some ""
  | .text _ _ | .unspecified | .nullness _ | .search => false

namespace Mongo

open Bson

variable {x y : Context}

/-- An operator is given the values of its arguments. -/
lemma eval_document (entries : Document) :
    (Bson.document entries).eval x = x.operate (evalEntries x entries) :=
  rfl

/-- Expressions stand for themselves if each of them does. -/
lemma evalAll_eq_self_iff {bs : List Bson} : evalAll x bs = bs ↔ ∀ b ∈ bs, b.eval x = b := by
  induction bs with
  | nil => simp [evalAll]
  | cons b bs ih => simp [evalAll, ih]

/-- A text stands for itself unless it is read as a reference. -/
lemma isConstant_string_iff {s : String} : (Bson.string s).IsConstant ↔ isReference s = false := by
  constructor
  · intro h
    -- a reference is not the same where it stands for null
    have hnull := h ⟨fun _ => .null, fun _ => .null⟩
    rw [eval] at hnull
    cases hs : isReference s with
    | false => rfl
    | true => simp [hs] at hnull
  · intro h x
    simp [eval, h]

/-- An array stands for itself if its items do. -/
lemma isConstant_array_iff {bs : List Bson} :
    (Bson.array bs).IsConstant ↔ ∀ b ∈ bs, b.IsConstant := by
  simp only [IsConstant, eval, Bson.array.injEq, evalAll_eq_self_iff]
  exact ⟨fun h b hb x => h x b hb, fun h x b hb => h b hb x⟩

mutual

/-- A value is the same in every context exactly if no text in it is read as a reference. -/
lemma isConstant_ofValue_iff : ∀ v : Value, (ofValue v).IsConstant ↔ v.refers = false
  | .null | .bool _ | .int _ | .float _ => ⟨fun _ => rfl, fun _ _ => rfl⟩
  | .string _ => isConstant_string_iff
  | .list items => isConstant_array_iff.trans (forall_isConstant_ofValues_iff items)

/-- Values stand for themselves if none of them refers. -/
lemma forall_isConstant_ofValues_iff : ∀ vs : List Value,
    (∀ b ∈ ofValues vs, b.IsConstant) ↔ Value.anyRefers vs = false
  | [] => by simp [ofValues, Value.anyRefers]
  | v :: vs => by
    rw [ofValues, List.forall_mem_cons, isConstant_ofValue_iff v,
      forall_isConstant_ofValues_iff vs, Value.anyRefers, Bool.or_eq_false_iff]

end

/-- No escaped text begins with a dollar sign. -/
lemma head?_escape (s : String) : (Pattern.escape s).toList.head? ≠ some '$' := by
  unfold Pattern.escape
  cases s.toList with
  | nil => simp
  | cons c cs =>
    by_cases hc : c ∈ Pattern.special
    · simp [hc]
    · have hne : c ≠ '$' := by
        rintro rfl
        exact hc (by decide)
      simp [hc, hne]

/-- Only the empty text is escaped to nothing. -/
lemma toList_escape_eq_nil {s : String} : (Pattern.escape s).toList = [] ↔ s = "" := by
  rw [← String.toList_inj]
  unfold Pattern.escape
  cases s.toList with
  | nil => simp
  | cons c cs => by_cases hc : c ∈ Pattern.special <;> simp [hc]

/-- The pattern of a text that is looked for is a reference only if it is the anchor at the end
alone. -/
lemma isReference_regexOf (place : Placement) (s : String) :
    isReference (regexOf (some place) s) = true ↔ place = .atEnd ∧ s = "" := by
  have hhead := head?_escape s
  cases place with
  | anywhere => simpa [isReference, regexOf, Pattern.anchored] using hhead
  | atStart => simp [isReference, regexOf, Pattern.anchored]
  | whole => simp [isReference, regexOf, Pattern.anchored]
  | atEnd =>
    rw [← toList_escape_eq_nil]
    cases hs : (Pattern.escape s).toList with
    | nil => simp [isReference, regexOf, Pattern.anchored, hs]
    | cons c cs =>
      rw [hs] at hhead
      simpa [isReference, regexOf, Pattern.anchored, hs] using hhead

/-- A rendered condition on an expression is a test with the values of the condition as operands. -/
lemma test_of_exprCondition {c : Condition} {expr : Bson} {d : Document}
    (h : exprCondition c expr = .rendered d) :
    ∃ test, d = [("$expr", test)] ∧ Test expr (operands c) test := by
  unfold exprCondition at h
  unfold operands
  cases hop : c.op with
  | unspecified => simp [hop] at h
  | search => simp [hop] at h
  | nullness negated =>
    simp only [hop, Compiled.rendered.injEq] at h
    exact ⟨_, h.symm, .nullCheck negated⟩
  | compare cmp =>
    cases hv : c.scalar? with
    | none => simp [hop, hv] at h
    | some v =>
      simp only [hop, hv, Compiled.rendered.injEq] at h
      exact ⟨_, h.symm, .comparison cmp _⟩
  | among negated =>
    cases hv : c.resolveList with
    | nil =>
      cases negated with
      | true => simp [hop, hv] at h
      | false =>
        simp [hop, hv] at h
        exact ⟨_, h.symm, .never⟩
    | cons v vs =>
      simp only [hop, hv, Compiled.rendered.injEq] at h
      cases negated with
      | true => exact ⟨_, h.symm, .exclusion _⟩
      | false => exact ⟨_, h.symm, .membership _⟩
  | between =>
    simp only [hop, Condition.resolveRange] at h
    -- only two values are a range, and a single one is what the expression has to equal
    rcases hv : c.resolveList with _ | ⟨v, _ | ⟨w, _ | ⟨u, vs⟩⟩⟩
    · simp [hv] at h
    · simp only [hv, Compiled.rendered.injEq] at h
      exact ⟨_, h.symm, .comparison .equals _⟩
    · simp only [hv, Compiled.rendered.injEq] at h
      exact ⟨_, h.symm, .range _ _⟩
    · simp [hv] at h
  | text place folded =>
    cases hv : c.patternText? with
    | none => simp [hop, hv] at h
    | some s =>
      simp only [hop, hv, Compiled.rendered.injEq] at h
      exact ⟨_, h.symm, .pattern _ folded⟩
  | regex folded =>
    cases hv : c.patternText? with
    | none => simp [hop, hv] at h
    | some s =>
      simp only [hop, hv, Compiled.rendered.injEq] at h
      exact ⟨_, h.symm, .pattern _ folded⟩

/-- The part of a date depends on the field that it is taken from only. -/
lemma eval_datePartExpr {path : String} (ho : x.operate = y.operate)
    (hc : x.content ("$" ++ path) = y.content ("$" ++ path)) (part : DatePart) :
    (datePartExpr path part).eval x = (datePartExpr path part).eval y := by
  have hpath : isReference ("$" ++ path) = true := by simp [isReference]
  have hdate : isReference "%Y-%m-%d" = false := by decide
  have htime : isReference "%H:%M:%S" = false := by decide
  cases part <;>
    simp [datePartExpr, entry, eval, evalAll, evalEntries, ho, hpath, hc, hdate, htime]

/-- Expressions have the same values where each of them has. -/
lemma evalAll_congr {bs : List Bson} (h : ∀ b ∈ bs, b.eval x = b.eval y) :
    evalAll x bs = evalAll y bs := by
  induction bs with
  | nil => rfl
  | cons b bs ih =>
    rw [List.forall_mem_cons] at h
    rw [evalAll, evalAll, h.1, ih h.2]

/-- A test depends on the expression tested and on the operands. -/
lemma Test.eval_congr {expr test : Bson} {bs : List Bson} (ht : Test expr bs test)
    (ho : x.operate = y.operate) (he : expr.eval x = expr.eval y)
    (hb : ∀ b ∈ bs, b.eval x = b.eval y) : test.eval x = test.eval y := by
  have happlied : ∀ operator {b : Bson}, b.eval x = b.eval y →
      (applied operator expr b).eval x = (applied operator expr b).eval y := by
    intro operator b h
    simp [applied, entry, eval, evalAll, evalEntries, ho, he, h]
  have hlist : (Bson.array bs).eval x = (Bson.array bs).eval y :=
    congrArg Bson.array (evalAll_congr hb)
  cases ht with
  | never => rfl
  | nullCheck negated => exact happlied _ rfl
  | comparison cmp b => exact happlied _ (hb b (by simp))
  | membership bs => exact happlied _ hlist
  | exclusion bs => simp only [entry, eval, evalAll, evalEntries, ho, happlied "$in" hlist]
  | range lower upper =>
    simp only [entry, eval, evalAll, evalEntries, ho, happlied "$gte" (hb lower (by simp)),
      happlied "$lte" (hb upper (by simp))]
  | pattern s folded =>
    have hpattern := hb (.string s) (by simp)
    have hoptions : ∀ z : Context, (Bson.string (if folded then "i" else "")).eval z
        = .string (if folded then "i" else "") := by
      cases folded <;> exact fun z => by rw [eval, if_neg (by decide)]
    simp only [exprPattern, entry, eval_document, evalEntries, ho, he, hpattern, hoptions]

/-- The operands of a condition are constants exactly if none of its values is read as a
reference. -/
lemma forall_operands_iff (c : Condition) :
    (∀ b ∈ operands c, b.IsConstant) ↔ c.refers = false := by
  unfold operands Condition.refers
  cases c.op with
  | unspecified => simp
  | nullness negated => simp
  | search => simp
  | compare cmp =>
    cases c.scalar? with
    | none => simp
    | some v => simp [isConstant_ofValue_iff]
  | among negated => exact forall_isConstant_ofValues_iff _
  | between => exact forall_isConstant_ofValues_iff _
  | regex folded =>
    cases c.patternText? with
    | none => simp
    | some s => simp [isConstant_string_iff, regexOf]
  | text place folded =>
    cases c.patternText? with
    | none => cases place <;> simp
    | some s =>
      cases place <;> simp [isConstant_string_iff, ← Bool.not_eq_true, isReference_regexOf]

/-- A condition on a part of a date that is rendered is a test of the part with its values. -/
theorem forall_operands_isConstant_iff {c : Condition} {part : DatePart} {d : Document}
    (hp : c.datePart = some part) (h : condition c = .rendered d) :
    ∃ f test, c.fieldRef = .ok f ∧ d = [("$expr", test)] ∧
      Test (datePartExpr f.dotted part) (operands c) test ∧
      ((∀ b ∈ operands c, b.IsConstant) ↔ c.refers = false) ∧
      (c.refers = false → ∀ x y : Context, x.operate = y.operate →
        x.content ("$" ++ f.dotted) = y.content ("$" ++ f.dotted) → test.eval x = test.eval y) := by
  unfold condition at h
  cases hf : c.fieldRef with
  | error reason => simp [hf] at h
  | ok f =>
    simp only [hf, hp] at h
    obtain ⟨test, rfl, ht⟩ := test_of_exprCondition h
    refine ⟨f, test, rfl, rfl, ht, forall_operands_iff c, fun hc x y ho hx => ?_⟩
    have hconstant := (forall_operands_iff c).2 hc
    refine ht.eval_congr ho (eval_datePartExpr ho hx part) fun b hb => ?_
    rw [hconstant b hb x, hconstant b hb y]

/-- A list of days, none of them a text with a dollar sign in front. -/
def days : Condition :=
  { Condition.listed "log.created_at" (.among true) [.string "2024-05-01", .string "5$", .null]
    with jsonPath := some "$.at", datePart := some .date }

/-- A list with a text in which the dollar sign stands at the end. -/
theorem forall_operands_isConstant_iff_days :
    ∃ d f test, condition days = .rendered d ∧ days.fieldRef = .ok f ∧ d = [("$expr", test)] ∧
      Test (datePartExpr f.dotted .date) (operands days) test ∧
      ((∀ b ∈ operands days, b.IsConstant) ↔ days.refers = false) ∧
      (days.refers = false → ∀ x y : Context, x.operate = y.operate →
        x.content ("$" ++ f.dotted) = y.content ("$" ++ f.dotted) → test.eval x = test.eval y) :=
  have hrendered : condition days = .rendered [("$expr", .entry "$not" (.array
      [applied "$in" (datePartExpr "log.created_at.at" .date)
        (.array [.string "2024-05-01", .string "5$", .null])]))] := rfl
  have ⟨f, test, h⟩ := forall_operands_isConstant_iff rfl hrendered
  ⟨_, f, test, hrendered, h⟩

/-- The day that a field is compared with, which is read as another field. -/
def secretDay : Condition :=
  (Condition.single "created_at" (.compare .equals) (.string "$secret")).onPart .date

/-- Operands are not always constants: a text can be read as the path of a field. -/
theorem not_forall_operands_isConstant :
    ¬ ∀ (c : Condition) (part : DatePart) (d : Document), c.datePart = some part →
      condition c = .rendered d → ∀ b ∈ operands c, b.IsConstant := by
  intro h
  have hrendered : condition secretDay = .rendered [("$expr",
      applied "$eq" (datePartExpr "created_at" .date) (.string "$secret"))] := rfl
  have hoperand : Bson.string "$secret" ∈ operands secretDay := List.mem_singleton.2 rfl
  have hconstant := isConstant_string_iff.1 (h secretDay .date _ rfl hrendered _ hoperand)
  exact absurd hconstant (by decide)

end Mongo

end ReadQuery
