import ReadQuery.Proofs.Influx.Literal
import ReadQuery.Proofs.Influx.Reading
import ReadQuery.Proofs.Mongo.Reading
import ReadQuery.Proofs.Sql.Reading

/-!
# Walkers

The walks over a filter that the backends make, seen from outside: what becomes of a condition, its
form aside (`Walker.verdict`), and what the whole output means (`Walker.Emits`). Every walker emits
what is kept of the filter or, under the strict policy, the first condition that it skips
(`Walker.emits`).

What a walker makes of a condition that it does not skip is up to the operands alone
(`skipped_or_verdict_eq`). Without parts of dates, and without patterns that InfluxQL cannot write,
all walkers make the same of every condition (`verdict_sql`, `verdict_mongo`, `verdict_influx`).
-/

namespace ReadQuery

/-- A walk over a filter. -/
inductive Walker where
  | sql (d : Sql.Dialect)
  | mongo
  | influx
  deriving DecidableEq, Repr

/-- What becomes of a condition on a field that can be compared, as far as the operands go. -/
def Condition.verdict (c : Condition) : Compiled Unit :=
  match c.op with
  | .unspecified => .skipped .unknownOperator
  | .compare _ => if c.scalar?.isSome then .rendered () else .skipped .missingValue
  | .among negated =>
    if c.resolveList.isEmpty && negated then .vacuous else .rendered ()
  | .between => (Compiled.ofExcept c.resolveRange).map fun _ => ()
  | .nullness _ => .rendered ()
  | .text _ _ | .regex _ | .search =>
    if c.patternText?.isSome then .rendered () else .skipped .missingValue

namespace Walker

/-- What becomes of a condition, its form aside. -/
def verdict : Walker → Condition → Compiled Unit
  | sql d, c => (Sql.condition d c).map fun _ => ()
  | mongo, c => (Mongo.condition c).map fun _ => ()
  | influx, c => (Influx.condition c).map fun _ => ()

/-- The conditions in the output. -/
def atoms (b : Walker) (f : Filter) : List Occurrence :=
  f.occurrences.filter fun o => (b.verdict o.1).isRendered

/-- What a walker makes of a filter: it ends with a skipped condition, or its output has a
meaning. -/
def Emits (b : Walker) (policy : SkipPolicy) (f : Filter) :
    Except Skipped (Option Meaning) → Prop
  | .error s =>
    match b with
    | sql d => (Sql.filter d policy f).result = .error s
    | mongo => (Mongo.filter? policy f).result = .error s
    | influx => (Influx.filter policy f).result = .error s
  | .ok m =>
    match b with
    | sql d => ∃ t, (Sql.filter d policy f).result = .ok t ∧ Sql.Means d t (b.atoms f) m
    | mongo => ∃ d, (Mongo.filter? policy f).result = .ok d ∧ Mongo.Means d (b.atoms f) m
    | influx => ∃ ps, (Influx.filter policy f).result = .ok ps ∧ Influx.Means ps (b.atoms f) m

/-- What holds of a settled computation, given what holds of its error and of its result. -/
lemma of_settle {α β : Type} {policy : SkipPolicy} {s : Option Skipped} {a : α} {m : β}
    {x : Except Skipped α} {P : α → Prop} {E : Except Skipped β → Prop}
    (hx : x = policy.settle s a) (ha : P a) (herror : ∀ e, x = .error e → E (.error e))
    (hok : (∃ a, x = .ok a ∧ P a) → E (.ok m)) : E (policy.settle s m) := by
  cases policy with
  | lenient => exact hok ⟨a, hx, ha⟩
  | strict =>
    cases s with
    | none => exact hok ⟨a, hx, ha⟩
    | some e => exact herror e hx

/-- A walker ends with the first condition that it skips, under the strict policy, or emits what is
kept of the filter. -/
theorem emits (b : Walker) (policy : SkipPolicy) (f : Filter) :
    b.Emits policy f (policy.settle (Filter.firstSkipped? b.verdict f.liveConditions)
      ((f.kept fun c => (b.verdict c).isRendered).map fun k v => k.holds v)) := by
  cases b with
  | sql d =>
    have hs : Filter.firstSkipped? (sql d).verdict f.liveConditions
        = Filter.firstSkipped? (Sql.condition d) f.liveConditions := Filter.firstSkipped?_map _ _
    have hm := Sql.means_ofClause? d f
    simp only [hs, verdict, Compiled.isRendered_map]
    refine of_settle (x := (Sql.filter d policy f).result) (P := fun t => Sql.Means d t _ _)
      (E := (sql d).Emits policy f) ?_ hm (fun _ h => h) fun h => ?_
    · simp only [Sql.filter, Traced.result_bind, Traced.result_pure, Filter.compile_result,
        SkipPolicy.settle_map]
    · simpa only [Emits, atoms, verdict, Compiled.isRendered_map] using h
  | mongo =>
    have hs : Filter.firstSkipped? mongo.verdict f.liveConditions
        = Filter.firstSkipped? Mongo.condition f.liveConditions := Filter.firstSkipped?_map _ _
    have hm := Mongo.means_ofClause f
    simp only [hs, verdict, Compiled.isRendered_map]
    refine of_settle (x := (Mongo.filter? policy f).result) (P := fun t => Mongo.Means t _ _)
      (E := mongo.Emits policy f) ?_ hm (fun _ h => h) fun h => ?_
    · simp only [Mongo.filter?, Traced.result_bind, Traced.result_pure, Filter.compile_result,
        SkipPolicy.settle_map]
    · simpa only [Emits, atoms, verdict, Compiled.isRendered_map] using h
  | influx =>
    have hs : Filter.firstSkipped? influx.verdict f.liveConditions
        = Filter.firstSkipped? Influx.condition f.liveConditions := Filter.firstSkipped?_map _ _
    have hm := Influx.means_entries f
    simp only [hs, verdict, Compiled.isRendered_map]
    refine of_settle (x := (Influx.filter policy f).result) (P := fun t => Influx.Means t _ _)
      (E := influx.Emits policy f) ?_ hm (fun _ h => h) fun h => ?_
    · simp only [Influx.filter, Traced.result_bind, Traced.result_pure, Filter.compile_result,
        SkipPolicy.settle_map]
    · simpa only [Emits, atoms, verdict, Compiled.isRendered_map] using h

/-- The operands decide what becomes of a condition in SQL, once there is an expression. -/
lemma operation_verdict (d : Sql.Dialect) (expr : String) (c : Condition) :
    ((Sql.operation d expr c).map fun _ => ()) = c.verdict := by
  unfold Sql.operation Condition.verdict
  cases c.op with
  | unspecified => rfl
  | compare cmp =>
    cases c.scalar? with
    | none => rfl
    | some v => cases cmp <;> cases v <;> rfl
  | among negated =>
    cases c.resolveList with
    | nil => cases negated <;> rfl
    | cons v vs => rfl
  | between =>
    cases c.resolveRange with
    | error r => rfl
    | ok range => cases range <;> rfl
  | nullness negated => rfl
  | text place folded => cases c.patternText? <;> rfl
  | regex folded => cases c.patternText? <;> rfl
  | search =>
    cases c.patternText? with
    | none => rfl
    | some s => cases d.search? expr <;> rfl

/-- A condition on a key of MongoDB is rendered or skipped as its verdict says. -/
lemma keyCondition_verdict (c : Condition) (key : String) :
    ((Mongo.keyCondition c key).map fun _ => ()) = c.verdict := by
  unfold Mongo.keyCondition Condition.verdict
  cases c.op with
  | unspecified => rfl
  | compare cmp => cases c.scalar? <;> rfl
  | among negated =>
    cases c.resolveList with
    | nil => cases negated <;> rfl
    | cons v vs => rfl
  | between =>
    cases c.resolveRange with
    | error r => rfl
    | ok range => cases range <;> rfl
  | nullness negated => rfl
  | text place folded => cases c.patternText? <;> rfl
  | regex folded => cases c.patternText? <;> rfl
  | search => cases c.patternText? <;> rfl

/-- The operands decide what becomes of a condition on an expression, except for a search. -/
lemma exprCondition_verdict (c : Condition) (expr : Mongo.Bson) :
    (∃ r, Mongo.exprCondition c expr = .skipped r) ∨
      ((Mongo.exprCondition c expr).map fun _ => ()) = c.verdict := by
  unfold Mongo.exprCondition Condition.verdict
  cases c.op with
  | search => exact .inl ⟨_, rfl⟩
  | unspecified => exact .inr rfl
  | compare cmp => exact .inr (by cases c.scalar? <;> rfl)
  | among negated =>
    refine .inr ?_
    cases c.resolveList with
    | nil => cases negated <;> rfl
    | cons v vs => rfl
  | between =>
    refine .inr ?_
    cases c.resolveRange with
    | error r => rfl
    | ok range => cases range <;> rfl
  | nullness negated => exact .inr rfl
  | text place folded => exact .inr (by cases c.patternText? <;> rfl)
  | regex folded => exact .inr (by cases c.patternText? <;> rfl)

/-- A regular expression of InfluxQL is skipped if it leaves the closing slash escaped. -/
lemma regexMatch_verdict (field pattern : String) (folded : Bool) :
    ((Influx.regexMatch field pattern folded).map fun _ => ())
      = if Influx.escapedAfter false pattern.toList then
          .skipped (.invalidPattern (if folded then "(?i)" ++ pattern else pattern))
        else .rendered () := by
  have hflag := Influx.escapedAfter_flagged folded pattern
  have hbody := Influx.isSome_regexBody false (if folded then "(?i)" ++ pattern else pattern).toList
  rw [hflag] at hbody
  unfold Influx.regexMatch Influx.regexLiteral?
  cases hr : Influx.regexBody false (if folded then "(?i)" ++ pattern else pattern).toList with
  | none =>
    rw [hr] at hbody
    have he : Influx.escapedAfter false pattern.toList = true := by simpa using hbody
    simp only [hr, he]
    rfl
  | some body =>
    rw [hr] at hbody
    have he : Influx.escapedAfter false pattern.toList = false := by simpa using hbody
    simp only [hr, he]
    rfl

/-- The operands decide what becomes of a condition in InfluxQL, except for regular expressions that
cannot stand between slashes. -/
lemma influx_operation_verdict (field : String) (c : Condition) :
    (∃ folded s, c.op = .regex folded ∧ c.patternText? = some s ∧ Text.EndsInOddRun s ∧
      ∃ r, Influx.operation field c = .skipped r) ∨
      ((Influx.operation field c).map fun _ => ()) = c.verdict := by
  unfold Influx.operation Condition.verdict
  cases hop : c.op with
  | unspecified => exact .inr rfl
  | compare cmp => exact .inr (by cases c.scalar? <;> rfl)
  | among negated =>
    refine .inr ?_
    cases c.resolveList with
    | nil => cases negated <;> rfl
    | cons v vs => cases negated <;> rfl
  | between =>
    refine .inr ?_
    cases c.resolveRange with
    | error r => rfl
    | ok range => cases range <;> rfl
  | nullness negated => exact .inr rfl
  | text place folded =>
    refine .inr ?_
    cases c.patternText? with
    | none => rfl
    | some s =>
      -- the backslashes of a literal text are escaped, which leaves none to escape the slash
      have ha := Influx.escapedAfter_anchored place s
      simp only [regexMatch_verdict, ha]
      rfl
  | search =>
    refine .inr ?_
    cases c.patternText? with
    | none => rfl
    | some s =>
      have ha := Influx.escapedAfter_anchored .anywhere s
      simp only [regexMatch_verdict, ha]
      rfl
  | regex folded =>
    cases hp : c.patternText? with
    | none => exact .inr rfl
    | some s =>
      have hv := regexMatch_verdict field s folded
      rw [Influx.escapedAfter_eq] at hv
      -- the pattern is written as it is given, so that its own end decides
      by_cases hodd : Text.EndsInOddRun s
      · refine .inl ⟨folded, s, rfl, rfl, hodd, ?_⟩
        cases hm : Influx.regexMatch field s folded with
        | skipped r => exact ⟨r, hm⟩
        | rendered t => simp [hm, hodd, Compiled.map] at hv
        | vacuous => simp [hm, hodd, Compiled.map] at hv
      · refine .inr ?_
        simpa [hodd] using hv

/-- A walker skips a condition or makes of it what its operands say. -/
theorem skipped_or_verdict_eq (b : Walker) (c : Condition) :
    (∃ r, b.verdict c = .skipped r) ∨ b.verdict c = c.verdict := by
  cases b with
  | sql d =>
    rw [verdict, Sql.condition]
    cases Sql.comparedExpr d c with
    | error r => exact .inl ⟨r, rfl⟩
    | ok expr => exact .inr (operation_verdict d expr c)
  | mongo =>
    rw [verdict, Mongo.condition]
    cases c.fieldRef with
    | error r => exact .inl ⟨r, rfl⟩
    | ok f =>
      cases c.datePart with
      | none => exact .inr (keyCondition_verdict c f.dotted)
      | some part =>
        rcases exprCondition_verdict c (Mongo.datePartExpr f.dotted part) with ⟨r, h⟩ | h
        · exact .inl ⟨r, congrArg (Compiled.map fun _ => ()) h⟩
        · exact .inr h
  | influx =>
    rw [verdict, Influx.condition]
    cases c.fieldRef with
    | error r => exact .inl ⟨r, rfl⟩
    | ok f =>
      cases c.datePart with
      | some part => exact .inl ⟨_, rfl⟩
      | none =>
        rcases influx_operation_verdict (Influx.quoteName f.dotted) c with ⟨-, -, -, -, -, r, h⟩ | h
        · exact .inl ⟨r, congrArg (Compiled.map fun _ => ()) h⟩
        · exact .inr h

/-- Whether a part of a date can be rendered does not depend on the expression. -/
lemma datePart_congr (d : Sql.Dialect) (expr expr' : String) (part : DatePart) :
    ((d.datePart expr part).map fun _ => ()) = (d.datePart expr' part).map fun _ => () := by
  cases d <;> cases part <;> rfl

/-- What becomes of a condition in SQL, by whether there is an expression. -/
lemma verdict_sql_eq (d : Sql.Dialect) (c : Condition) :
    (sql d).verdict c = match (Sql.comparedExpr d c).map fun _ => () with
      | .error r => .skipped r
      | .ok _ => c.verdict := by
  rw [verdict, Sql.condition]
  cases Sql.comparedExpr d c with
  | error r => rfl
  | ok expr => exact operation_verdict d expr c

/-- Whether a condition on an expression of MongoDB is rendered does not depend on the
expression. -/
lemma exprCondition_congr (c : Condition) (expr expr' : Mongo.Bson) :
    ((Mongo.exprCondition c expr).map fun _ => ())
      = (Mongo.exprCondition c expr').map fun _ => () := by
  unfold Mongo.exprCondition
  cases c.op with
  | unspecified => rfl
  | compare cmp => cases c.scalar? <;> rfl
  | among negated =>
    cases c.resolveList with
    | nil => cases negated <;> rfl
    | cons v vs => rfl
  | between =>
    cases c.resolveRange with
    | error r => rfl
    | ok range => cases range <;> rfl
  | nullness negated => rfl
  | text place folded => cases c.patternText? <;> rfl
  | regex folded => cases c.patternText? <;> rfl
  | search => rfl

/-- Whether a condition of InfluxQL is rendered does not depend on the field. -/
lemma influx_operation_congr (field field' : String) (c : Condition) :
    ((Influx.operation field c).map fun _ => ())
      = (Influx.operation field' c).map fun _ => () := by
  unfold Influx.operation
  cases c.op with
  | unspecified => rfl
  | compare cmp => cases c.scalar? <;> rfl
  | among negated =>
    cases c.resolveList with
    | nil => cases negated <;> rfl
    | cons v vs => cases negated <;> rfl
  | between =>
    cases c.resolveRange with
    | error r => rfl
    | ok range => cases range <;> rfl
  | nullness negated => rfl
  | text place folded =>
    cases c.patternText? with
    | none => rfl
    | some s => simp only [regexMatch_verdict]
  | regex folded =>
    cases c.patternText? with
    | none => rfl
    | some s => simp only [regexMatch_verdict]
  | search =>
    cases c.patternText? with
    | none => rfl
    | some s => simp only [regexMatch_verdict]

variable {c : Condition} {field : String} {f f' : FieldRef}

/-- A condition on a field that cannot be resolved is skipped. -/
lemma verdict_of_fieldRef_eq_error (b : Walker) {e : SkipReason} (h : c.fieldRef = .error e) :
    b.verdict c = .skipped e := by
  cases b with
  | sql d => rw [verdict_sql_eq, Sql.comparedExpr, h]; rfl
  | mongo => rw [verdict, Mongo.condition, h]; rfl
  | influx => rw [verdict, Influx.condition, h]; rfl

/-- Which field a condition is on does not decide what becomes of it, once it is resolved. -/
theorem verdict_congr (b : Walker) (h : c.fieldRef = .ok f)
    (h' : { c with field := field : Condition }.fieldRef = .ok f') :
    b.verdict { c with field := field } = b.verdict c := by
  obtain ⟨name, op, value, values, path, part⟩ := c
  cases b with
  | sql d =>
    rw [verdict_sql_eq, verdict_sql_eq, Sql.comparedExpr, Sql.comparedExpr, h, h']
    cases part with
    | none => rfl
    | some part =>
      simp only [Except.bind, datePart_congr d (d.field f') (d.field f) part]
      rfl
  | mongo =>
    rw [verdict, verdict, Mongo.condition, Mongo.condition, h, h']
    cases part with
    | none => exact (keyCondition_verdict _ _).trans (keyCondition_verdict _ _).symm
    | some part => exact exprCondition_congr _ _ _
  | influx =>
    rw [verdict, verdict, Influx.condition, Influx.condition, h, h']
    cases part with
    | none => exact influx_operation_congr _ _ _
    | some part => rfl

/-- What becomes of a condition on no part of a date: its field is resolved, and then its operands
decide. -/
def plainVerdict (c : Condition) : Compiled Unit :=
  match c.fieldRef with
  | .error r => .skipped r
  | .ok _ => c.verdict

/-- In SQL, conditions on no part of a date are told by the plain verdict. -/
lemma verdict_sql (d : Sql.Dialect) {c : Condition} (hp : c.datePart = none) :
    (sql d).verdict c = plainVerdict c := by
  rw [verdict, Sql.condition, Sql.comparedExpr, plainVerdict, hp]
  cases c.fieldRef with
  | error r => rfl
  | ok f => exact operation_verdict d (d.field f) c

/-- In MongoDB, conditions on no part of a date are told by the plain verdict. -/
lemma verdict_mongo {c : Condition} (hp : c.datePart = none) :
    mongo.verdict c = plainVerdict c := by
  rw [verdict, Mongo.condition, plainVerdict, hp]
  cases c.fieldRef with
  | error r => rfl
  | ok f => exact keyCondition_verdict c f.dotted

/-- InfluxQL skips no condition but for its field and its operands, unless it is on a part of a date
or its pattern cannot stand between slashes. -/
lemma verdict_influx {c : Condition} (hp : c.datePart = none)
    (hr : ∀ folded s, c.op = .regex folded → c.patternText? = some s → ¬ Text.EndsInOddRun s) :
    influx.verdict c = plainVerdict c := by
  rw [verdict, Influx.condition, plainVerdict, hp]
  cases c.fieldRef with
  | error r => rfl
  | ok f =>
    rcases influx_operation_verdict (Influx.quoteName f.dotted) c with
      ⟨folded, s, hop, hs, hodd, -⟩ | h
    · exact absurd hodd (hr folded s hop hs)
    · exact h

end Walker

end ReadQuery
