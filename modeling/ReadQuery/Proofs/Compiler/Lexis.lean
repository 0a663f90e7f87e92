import ReadQuery.Proofs.Compiler.Binding

/-!
# What compiled statements are written with

Field names, paths, orderings, projections and values of a request are arbitrary texts. Nothing that
ends a statement, opens a comment or breaks out of a literal comes from them: the text of a compiled
statement is clean in every dialect, and what `Clean` says of it is spelt out by `toSql_clean`.
-/

namespace ReadQuery.Compiler

open Sql

/-- In a compiled statement no separator and no comment occurs, the quotes are balanced, and what
stands between them is a constant of the dialect, a name or a path. -/
theorem toSql_clean {c : Compiler} {d : Dialect} {table : String} {r : Request} {out : Predicate}
    (h : (c.toSql d table r).result = .ok out) :
    (∀ mark ∈ RawCondition.forbiddenMarks, ¬ mark.toList <:+: out.sql.toList) ∧
      Placeholder.quotedAfter false out.sql.toList = false ∧
      ∀ s ∈ quotedTexts out.sql, s ∈ d.constants ∨ PathText s.toList := by
  obtain ⟨p, s, -, hw, hs⟩ := exists_weaves h
  have hclean := hw.clean_statement hs
  exact ⟨fun _ hm => hclean.no_mark hm, hclean.quotedAfter, forall_quotedTexts hclean⟩

/-- A request whose names, paths and values try to break out of the statement. -/
def hostileRequest : Request where
  filter := .structured (.all
    [.single "tags.0.k" (.compare .equals) (.string "x'; DROP TABLE users; --"),
      (Condition.single "name" (.regex true) (.string "^a")).atPath "$.x' /*",
      .single "id; --" (.compare .equals) (.int 1),
      (Condition.listed "seen" .between [.int 1, .int 9]).onPart .isoYear])
  ordering := .list [⟨"meta.0", .descending⟩, ⟨"seen#", .ascending⟩]
  fields := ["meta.a", "id'"]
  page := Page.Request.whole

/-- The statement of the hostile request. -/
def harmlessStatement : Predicate where
  sql := "SELECT JSON_UNQUOTE(JSON_EXTRACT(meta, '$.a')) AS `meta_a` FROM users"
    ++ " WHERE JSON_UNQUOTE(JSON_EXTRACT(tags, '$[0].k')) = ? AND REGEXP_LIKE(name, ?, 'i')"
    ++ " AND FLOOR(YEARWEEK(seen, 3) / 100) BETWEEN ? AND ?"
    ++ " ORDER BY JSON_UNQUOTE(JSON_EXTRACT(meta, '$[0]')) DESC"
  params := [.string "x'; DROP TABLE users; --", .string "^a", .int 1, .int 9]

/-- Of the hostile request only what is harmless is written. -/
theorem toSql_clean_hostileRequest :
    ((⟨.default, []⟩ : Compiler).toSql .mysql "users" hostileRequest).result
        = .ok harmlessStatement ∧
      (∀ mark ∈ RawCondition.forbiddenMarks, ¬ mark.toList <:+: harmlessStatement.sql.toList) ∧
      Placeholder.quotedAfter false harmlessStatement.sql.toList = false ∧
      ∀ s ∈ quotedTexts harmlessStatement.sql, s ∈ Dialect.mysql.constants ∨ PathText s.toList := by
  have h : ((⟨.default, []⟩ : Compiler).toSql .mysql "users" hostileRequest).result
      = .ok harmlessStatement :=
    eq_ok_of_toOption (by decide +kernel)
  exact ⟨h, toSql_clean h⟩

end ReadQuery.Compiler
