import Mathlib.Tactic.Lemma
import ReadQuery.Influx.Filter
import ReadQuery.Mongo.Filter
import ReadQuery.Sql.Filter

/-!
# Ranges of one value

A range for which only one value is given stands for the equality with this value
(`Condition.equalTo`). The value of the equality is read once more, which leaves it as it is
(`scalar?_equalTo`).

MongoDB and InfluxQL make the same of the range and of the equality, whatever the value is. In SQL
the equality with null is a null check, but the range of null compares with a parameter, so there
the two are the same exactly if the value is not null (`single_range_iff`).
-/

namespace ReadQuery

namespace Value

/-- A value that was read as an integer where it spells one is not changed by reading it again. -/
lemma coerceInteger_coerceInteger (v : Value) :
    v.coerceInteger.coerceInteger = v.coerceInteger := by
  cases v with
  | string s =>
    cases h : Number.readInt64? (Text.trim s) with
    | some i => simp only [coerceInteger, h]
    | none => simp only [coerceInteger, h]
  | null | bool | int | float | list => rfl

end Value

namespace Condition

/-- The condition that the same field, path and part of a date equals a value. -/
def equalTo (c : Condition) (v : Value) (values : List Value) : Condition :=
  { c with op := .compare .equals, value := some v, values := values }

variable {c : Condition} {v : Value}

/-- A range is an equality if its list has one value. -/
lemma resolveRange_eq_single : c.resolveRange = .ok (.single v) ↔ c.resolveList = [v] := by
  unfold resolveRange
  match c.resolveList with
  | [] => simp
  | [w] => simp
  | [lower, upper] => simp
  | _ :: _ :: _ :: _ => simp

/-- Where numbers are compared, the values of a list are read as integers. -/
lemma coerceInteger_of_mem_resolveList (hpart : c.hasNumericPart = true)
    (hv : v ∈ c.resolveList) : v.coerceInteger = v := by
  rw [resolveList, if_pos hpart] at hv
  obtain ⟨w, -, rfl⟩ := List.mem_map.1 hv
  exact w.coerceInteger_coerceInteger

/-- The only value of a range is the value of the equality with it. -/
lemma scalar?_equalTo (h : c.resolveRange = .ok (.single v)) (values : List Value) :
    (c.equalTo v values).scalar? = some v := by
  have hv : v ∈ c.resolveList := by
    rw [resolveRange_eq_single.1 h]
    exact List.mem_singleton_self v
  have hpart : (c.equalTo v values).hasNumericPart = c.hasNumericPart := rfl
  rw [scalar?, hpart]
  cases hnumeric : c.hasNumericPart with
  | false => rfl
  | true =>
    apply congrArg some
    exact coerceInteger_of_mem_resolveList hnumeric hv

end Condition

variable {c : Condition} {v : Value}

namespace Sql

/-- A range of one value is rendered with an equals sign, be the value null or not. -/
lemma operation_of_single (hop : c.op = .between) (h : c.resolveRange = .ok (.single v))
    (d : Dialect) (expr : String) : operation d expr c = single (expr ++ " = ?") [v] := by
  simp only [operation, hop, h]

/-- An equality compares with its value, unless it is null. -/
lemma operation_equalTo (h : c.resolveRange = .ok (.single v)) (values : List Value)
    (d : Dialect) (expr : String) :
    operation d expr (c.equalTo v values)
      = if v = .null then single (nullCheck expr false) [] else single (expr ++ " = ?") [v] := by
  have hop : (c.equalTo v values).op = .compare .equals := rfl
  have hsign : expr ++ " " ++ comparisonSign .equals ++ " ?" = expr ++ " = ?" := by
    rw [String.append_assoc, String.append_assoc]
    rfl
  simp only [operation, hop, Condition.scalar?_equalTo h values]
  cases v with
  | null => rfl
  | bool | int | float | string | list =>
    rw [if_neg nofun]
    exact congrArg (single · _) hsign

/-- In SQL, a range of one value is the equality with it unless the value is null. -/
lemma operation_eq_equalTo_iff (hop : c.op = .between) (h : c.resolveRange = .ok (.single v))
    (values : List Value) (d : Dialect) (expr : String) :
    operation d expr c = operation d expr (c.equalTo v values) ↔ v ≠ .null := by
  rw [operation_of_single hop h, operation_equalTo h]
  by_cases hv : v = .null
  · rw [if_pos hv]
    simp [single, hv]
  · rw [if_neg hv]
    simp [hv]

/-- A dialect of SQL makes the same of a range and of the equality with its only value if the value
is not null, or if it can compare neither. -/
lemma condition_equalTo_iff (hop : c.op = .between) (h : c.resolveRange = .ok (.single v))
    (values : List Value) (d : Dialect) :
    condition d c = condition d (c.equalTo v values) ↔
      v ≠ .null ∨ ∃ reason, comparedExpr d c = .error reason := by
  have hexpr : comparedExpr d (c.equalTo v values) = comparedExpr d c := rfl
  rw [condition, condition, hexpr]
  cases comparedExpr d c with
  | error reason => simp
  | ok expr => simpa using operation_eq_equalTo_iff hop h values d expr

end Sql

namespace Mongo

/-- In MongoDB, a range of one value on a key is the equality with it. -/
lemma keyCondition_equalTo (hop : c.op = .between) (h : c.resolveRange = .ok (.single v))
    (values : List Value) (key : String) :
    keyCondition c key = keyCondition (c.equalTo v values) key := by
  have hop' : (c.equalTo v values).op = .compare .equals := rfl
  simp only [keyCondition, hop, hop', h, Condition.scalar?_equalTo h values, comparisonName]

/-- In MongoDB, a range of one value on an expression is the equality with it. -/
lemma exprCondition_equalTo (hop : c.op = .between) (h : c.resolveRange = .ok (.single v))
    (values : List Value) (expr : Bson) :
    exprCondition c expr = exprCondition (c.equalTo v values) expr := by
  have hop' : (c.equalTo v values).op = .compare .equals := rfl
  simp only [exprCondition, hop, hop', h, Condition.scalar?_equalTo h values, comparisonName]

/-- In MongoDB, a range of one value is the equality with it. -/
lemma condition_equalTo (hop : c.op = .between) (h : c.resolveRange = .ok (.single v))
    (values : List Value) : condition c = condition (c.equalTo v values) := by
  have hfield : (c.equalTo v values).fieldRef = c.fieldRef := rfl
  have hpart : (c.equalTo v values).datePart = c.datePart := rfl
  rw [condition, condition, hfield, hpart]
  cases c.fieldRef with
  | error reason => rfl
  | ok f =>
    cases c.datePart with
    | none => exact keyCondition_equalTo hop h values f.dotted
    | some part => exact exprCondition_equalTo hop h values _

end Mongo

namespace Influx

/-- In InfluxQL, a range of one value on a field is the equality with it. -/
lemma operation_equalTo (hop : c.op = .between) (h : c.resolveRange = .ok (.single v))
    (values : List Value) (field : String) :
    operation field c = operation field (c.equalTo v values) := by
  have hop' : (c.equalTo v values).op = .compare .equals := rfl
  simp only [operation, hop, hop', h, Condition.scalar?_equalTo h values, comparisonSign]

/-- In InfluxQL, a range of one value is the equality with it. -/
lemma condition_equalTo (hop : c.op = .between) (h : c.resolveRange = .ok (.single v))
    (values : List Value) : condition c = condition (c.equalTo v values) := by
  have hfield : (c.equalTo v values).fieldRef = c.fieldRef := rfl
  have hpart : (c.equalTo v values).datePart = c.datePart := rfl
  rw [condition, condition, hfield, hpart]
  cases c.fieldRef with
  | error reason => rfl
  | ok f =>
    cases c.datePart with
    | none => exact operation_equalTo hop h values _
    | some part => rfl

end Influx

/-- A range of one value is compiled as the equality with it by MongoDB and InfluxQL, and by a
dialect of SQL exactly if the value is not null, unless the dialect can compare neither. -/
theorem single_range_iff (hop : c.op = .between) (h : c.resolveRange = .ok (.single v))
    (values : List Value) :
    (∀ d : Sql.Dialect, Sql.condition d c = Sql.condition d (c.equalTo v values) ↔
      v ≠ .null ∨ ∃ reason, Sql.comparedExpr d c = .error reason) ∧
      Mongo.condition c = Mongo.condition (c.equalTo v values) ∧
      Influx.condition c = Influx.condition (c.equalTo v values) :=
  ⟨Sql.condition_equalTo_iff hop h values, Mongo.condition_equalTo hop h values,
    Influx.condition_equalTo hop h values⟩

/-- A year as a text in a list that is a value. -/
def yearRange : Condition :=
  { Condition.single "log.created_at" .between (.list [.string " 2024 "]) with
    jsonPath := some "$.at", datePart := some .year }

/-- The year is compared as a number. -/
theorem single_range_iff_yearRange :
    yearRange.op = .between ∧ yearRange.resolveRange = .ok (.single (.int 2024)) ∧
      Sql.condition .mysql yearRange = Sql.condition .mysql (yearRange.equalTo (.int 2024) []) ∧
      Sql.condition .mysql yearRange = Sql.single
        "YEAR(JSON_UNQUOTE(JSON_EXTRACT(log, '$.created_at.at'))) = ?" [.int 2024] ∧
      Mongo.condition yearRange = Mongo.condition (yearRange.equalTo (.int 2024) []) ∧
      Influx.condition yearRange = Influx.condition (yearRange.equalTo (.int 2024) []) := by
  have hrange : yearRange.resolveRange = .ok (.single (.int 2024)) :=
    Condition.resolveRange_eq_single.2 (by decide +kernel)
  have hvalue : Value.int 2024 ≠ .null := by decide
  have hcolumn : Sql.Dialect.mysql.field ⟨"log", ["created_at", "at"]⟩
      = "JSON_UNQUOTE(JSON_EXTRACT(log, '$.created_at.at'))" := by decide +kernel
  have hexpr : Sql.comparedExpr .mysql yearRange
      = .ok "YEAR(JSON_UNQUOTE(JSON_EXTRACT(log, '$.created_at.at')))" := by
    show Sql.Dialect.mysql.datePart (Sql.Dialect.mysql.field ⟨"log", ["created_at", "at"]⟩) .year
      = _
    rw [hcolumn]
    rfl
  have hcondition : Sql.condition .mysql yearRange = Sql.single
      "YEAR(JSON_UNQUOTE(JSON_EXTRACT(log, '$.created_at.at'))) = ?" [.int 2024] := by
    rw [Sql.condition, hexpr]
    exact Sql.operation_of_single rfl hrange _ _
  obtain ⟨hsql, hmongo, hinflux⟩ := single_range_iff rfl hrange []
  exact ⟨rfl, hrange, (hsql .mysql).2 (.inl hvalue), hcondition, hmongo, hinflux⟩

/-- A range of null. -/
def nullRange : Condition :=
  Condition.listed "a" .between [.null]

/-- A range of one value is not always compiled as the equality with it: SQL compares with null
where the equality is a null check. -/
theorem not_forall_single_range :
    ¬ ∀ (c : Condition) (v : Value), c.op = .between → c.resolveRange = .ok (.single v) →
      ∀ (d : Sql.Dialect) (values : List Value),
        Sql.condition d c = Sql.condition d (c.equalTo v values) := by
  intro h
  have heq := h nullRange .null rfl rfl .sqlite []
  have hexpr : Sql.comparedExpr .sqlite nullRange = .ok "a" := rfl
  rcases (Sql.condition_equalTo_iff rfl rfl [] .sqlite).1 heq with hnull | ⟨reason, herror⟩
  · exact hnull rfl
  · rw [hexpr] at herror
    cases herror

end ReadQuery
