import ReadQuery.Compiler.Compile
import ReadQuery.Proofs.Sql.Statement

/-!
# What compiled statements bind

A compiled statement binds the values of the predicates it is made of: those of the live conditions
of the request's filter, in order, and that of the cursor (`Prepared.predicates`). The calls of the
compiler keep the invariant of the builder one after the other, and `toSql_binds` reads it off the
statement.
-/

namespace ReadQuery.Compiler

open Sql

/-- The predicates of a prepared request: those of the conditions that have one, a node's conditions
before its groups, and that of the cursor, if there is one. -/
def Prepared.predicates (d : Dialect) (p : Prepared) : List Predicate :=
  p.filter.liveConditions.filterMap (predicate? d) ++ p.window.after.toList.map cursorPredicate

/-- Selecting succeeds with the state that the step leaves. -/
lemma selecting_eq_ok {σ : Type} {x : Step σ Skipped} {s : σ} :
    (selecting x).result = .ok s ↔ x.toTraced.result = .ok s :=
  mapError_eq_ok

/-- Guarding succeeds with the state that the step leaves. -/
lemma guarding_eq_ok {σ : Type} {x : Step σ Violation} {s : σ} :
    (guarding x).result = .ok s ↔ x.toTraced.result = .ok s :=
  mapError_eq_ok

/-- The calls on the builder of a compiled statement. -/
lemma toSql_eq_ok {c : Compiler} {d : Dialect} {table : String} {r : Request} {out : Predicate}
    (h : (c.toSql d table r).result = .ok out) :
    ∃ (p : Prepared) (s1 s2 s3 : Select d),
      (c.prepare r).result = .ok p ∧
      (((Select.fromTable table).addColumns p.fields).filter p.filter
        c.config.skipPolicy).toTraced.result = .ok s1 ∧
      (s1.orderBy c.config.skipPolicy p.ordering).toTraced.result = .ok s2 ∧
      (s2.paginate p.window).toTraced.result = .ok s3 ∧ s3.statement = .ok out := by
  simp only [toSql, Traced.result_bind, Traced.result_mapError, Select.build,
    Traced.result_ofExcept, Traced.result_report, Traced.result_pure] at h
  obtain ⟨p, hp, h⟩ := bind_eq_ok.1 h
  obtain ⟨s1, h1, h⟩ := bind_eq_ok.1 h
  obtain ⟨s2, h2, h⟩ := bind_eq_ok.1 h
  obtain ⟨s3, h3, h⟩ := bind_eq_ok.1 h
  obtain ⟨out', hs, hout⟩ := bind_eq_ok.1 (mapError_eq_ok.1 h)
  obtain rfl := Except.ok.inj hout
  exact ⟨p, s1, s2, s3, hp, selecting_eq_ok.1 h1, selecting_eq_ok.1 h2, guarding_eq_ok.1 h3, hs⟩

/-- A compiled statement is built from a read that the predicates of the request are woven in. -/
lemma exists_weaves {c : Compiler} {d : Dialect} {table : String} {r : Request} {out : Predicate}
    (h : (c.toSql d table r).result = .ok out) :
    ∃ (p : Prepared) (s : Select d), (c.prepare r).result = .ok p ∧ s.Weaves (p.predicates d) ∧
      s.statement = .ok out := by
  obtain ⟨p, s1, s2, s3, hp, h1, h2, h3, hs⟩ := toSql_eq_ok h
  have hw := (Select.weaves_fromTable (d := d) table).addColumns p.fields
  have hw1 := hw.filter h1
  have hw3 := (hw1.orderBy h2).paginate h3
  rw [List.nil_append] at hw3
  exact ⟨p, s3, hp, hw3, hs⟩

/-- A compiled statement is made of the predicates of the request: each of them has as many
placeholders as values, the text holds them in order and has no placeholders besides, and the
parameters are their values one after the other. The placeholders have the form of the dialect. -/
theorem toSql_binds {c : Compiler} {d : Dialect} {table : String} {r : Request} {out : Predicate}
    (h : (c.toSql d table r).result = .ok out) :
    ∃ p : Prepared, (c.prepare r).result = .ok p ∧
      out.params = (p.predicates d).flatMap (·.params) ∧
      (∀ q ∈ p.predicates d, Placeholder.count q.sql = q.params.length) ∧
      Woven d.written 0 (p.predicates d) out.sql.toList ∧
      d.HasPlaceholders out.sql out.params.length := by
  obtain ⟨p, s, hp, hw, hs⟩ := exists_weaves h
  obtain ⟨hparams, hwoven, hplaceholders⟩ := hw.statement hs
  exact ⟨p, hp, hparams, hwoven.count_eq, hwoven, hplaceholders⟩

/-- A request with a disjunction, a group without junction and the token of a page. -/
def nestedRequest : Request where
  filter := .structured ⟨some .or,
    [.single "a" (.compare .equals) (.int 1), .listed "b" (.among false) [.int 2, .int 3]],
    [⟨none, [.single "x" (.compare .equals) (.int 7)], []⟩,
      .all [.single "c.d" (.text .atStart false) (.string "x?")]]⟩
  ordering := .none
  fields := []
  page := { Page.Request.whole with token := some "eyJsYXN0X2lkIjo0Mn0=" }

/-- The statement of the nested request. -/
def nestedStatement : Predicate where
  sql := "SELECT * FROM users WHERE (a = $1 OR b IN ($2, $3) OR c->>'d' LIKE $4 ESCAPE '\\')"
    ++ " AND id > $5 LIMIT 20"
  params := [.int 1, .int 2, .int 3, .string "x?%", .int 42]

/-- The nested request binds its five values. -/
theorem toSql_binds_nestedRequest :
    ((⟨.default, []⟩ : Compiler).toSql .postgres "users" nestedRequest).result
        = .ok nestedStatement ∧
      ∃ p : Prepared, ((⟨.default, []⟩ : Compiler).prepare nestedRequest).result = .ok p ∧
        nestedStatement.params = (p.predicates .postgres).flatMap (·.params) ∧
        (∀ q ∈ p.predicates .postgres, Placeholder.count q.sql = q.params.length) ∧
        Woven Dialect.postgres.written 0 (p.predicates .postgres) nestedStatement.sql.toList ∧
        Dialect.postgres.HasPlaceholders nestedStatement.sql nestedStatement.params.length := by
  have h : ((⟨.default, []⟩ : Compiler).toSql .postgres "users" nestedRequest).result
      = .ok nestedStatement :=
    eq_ok_of_toOption (by decide +kernel)
  exact ⟨h, toSql_binds h⟩

end ReadQuery.Compiler
