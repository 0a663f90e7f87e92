import ReadQuery.Proofs.Filter.Walk
import ReadQuery.Proofs.Input.Expression
import ReadQuery.Proofs.Sql.Wildcard

/-!
# Patterns in expressions

What becomes of `x LIKE p` on the way into SQL. The expression is recognized as a condition that
looks for the text between the percent signs at the ends of the pattern (`parse_pattern`), and the
condition binds a pattern made of that text again (`filter_onText`).
-/

namespace ReadQuery

/-- A field that can be written in an expression: a column that is no keyword, with names behind it
or without. -/
structure FieldRef.IsInfix (f : FieldRef) : Prop where
  isName : Input.Recognizer.IsName f.column.toList
  not_keyword : Text.lower f.column ∉ Input.Grammar.keywords
  path : ∀ s ∈ f.path, Identifier.IsSegment s ∧ s ≠ ""

/-- The condition that a field has a text at a place. -/
def FieldRef.onText (f : FieldRef) (place : Placement) (folded : Bool) (v : String) : Condition :=
  { Condition.single f.column (.text place folded) (.string v) with
    jsonPath := if f.path.isEmpty then none else some (".".intercalate f.path) }

variable {f : FieldRef} {place : Placement} {folded : Bool} {v : String}

namespace FieldRef

/-- The column of such a field is a name. -/
lemma IsInfix.isSegment_column (hf : f.IsInfix) :
    Identifier.IsSegment f.column ∧ f.column ≠ "" := by
  obtain ⟨c, cs, hcs, -⟩ := hf.isName
  refine ⟨hf.isName.isNameChar, ?_⟩
  intro hempty
  rw [hempty] at hcs
  cases hcs

/-- The condition names the field. -/
lemma fieldRef_onText (hf : f.IsInfix) : (f.onText place folded v).fieldRef = .ok f := by
  have hresolve : resolve f.column (f.onText place folded v).jsonPath = pure f := by
    obtain ⟨column, path⟩ := f
    cases path with
    | nil =>
      have hcolumn := hf.isSegment_column
      exact resolve_of_segments hcolumn.1.plain (segments_of_isSegment hcolumn)
    | cons s ss =>
      apply resolve_column_path
      exact ⟨List.cons_ne_nil s ss, List.forall_mem_cons.2 ⟨hf.isSegment_column, hf.path⟩⟩
  show (resolve f.column _).result = _
  rw [hresolve]
  rfl

/-- The condition can be written in an expression. -/
lemma isInfix_onText (hf : f.IsInfix) : (f.onText place folded v).IsInfix := by
  refine ⟨hf.isName, hf.not_keyword, ?_, ⟨_, rfl, trivial⟩, rfl⟩
  intro p hp segment hsegment
  obtain ⟨column, path⟩ := f
  cases path with
  | nil => cases hp
  | cons s ss =>
    cases hp
    have hmem : String.ofList segment ∈ s :: ss := by
      rw [← Text.split_intercalate (List.cons_ne_nil s ss) fun t ht => (hf.path t ht).1]
      exact List.mem_map_of_mem hsegment
    obtain ⟨hname, hne⟩ := hf.path _ hmem
    rw [Identifier.IsSegment, String.toList_ofList] at hname
    refine ⟨?_, hname⟩
    rintro rfl
    exact hne rfl

/-- A field is written with its segments between dots. -/
lemma pathText_onText : Input.Infix.pathText (f.onText place folded v) = f.dotted := by
  obtain ⟨column, path⟩ := f
  cases path with
  | nil => rfl
  | cons s ss =>
    show column ++ "." ++ ".".intercalate (s :: ss) = _
    rw [dotted, String.intercalate_cons_cons]

end FieldRef

namespace Sql

variable {d : Dialect} {policy : SkipPolicy}

/-- A filter of a single condition is the form of the condition. -/
lemma filter_single {c : Condition} {t : Tree} (h : condition d c = .rendered t) :
    (filter d policy (Filter.all [c])).result = .ok (.all [t]) := by
  have hremains : (Filter.all [c]).remains (condition d) = some (.group .and [.leaf t]) := by
    simp [Filter.all, Filter.remains, Filter.remainsOfAll, Filter.leaf?, h, Clause.join?]
  have hskipped : Filter.firstSkipped? (condition d) (Filter.all [c]).liveConditions = none := by
    simp [Filter.all, Filter.liveConditions, Filter.liveConditionsOfAll, Filter.firstSkipped?,
      Filter.skipped?, h, Compiled.reason?]
  rw [filter, Traced.result_bind, Filter.compile_result, hremains, hskipped,
    SkipPolicy.settle_none]
  rfl

/-- The condition that a field has a text at a place binds the pattern of the text. -/
lemma filter_onText (hf : f.IsInfix) :
    (filter d policy (Filter.all [f.onText place folded v])).result
      = .ok (.all [.leaf ⟨if folded then d.foldedLike (d.field f) else d.like (d.field f),
        [.string (likePattern place v)]⟩]) := by
  have hexpr : comparedExpr d (f.onText place folded v) = .ok (d.field f) := by
    rw [comparedExpr, FieldRef.fieldRef_onText hf]
    rfl
  apply filter_single
  rw [condition, hexpr]
  rfl

end Sql

namespace Input.Grammar

open Recognizer
open Infix (Style valueText fieldText fieldTerm)
open Text (skipGap)

variable {style : Style} {c : Condition} {p : String}

/-- The text of a pattern condition on a field. -/
def patternText (field : String) (folded : Bool) (p : String) : String :=
  field ++ (if folded then " ILIKE " else " LIKE ") ++ Infix.quote p

/-- A pattern condition is recognized from its text. -/
lemma condition_patternText (hc : c.IsInfix) (folded : Bool) (p : String) (n : Nat) :
    Takes (Within .and) (condition (disjunction (n + 2)) (operand (n + 2)))
      (patternText (fieldText style c) folded p).toList
      (likeCall (fieldTerm style c) (.literal (.value (.string p))) folded) := by
  intro rest hrest
  have hp : Value.IsPlain (.string p) := trivial
  have hoperand := operand_valueText hp hrest.ends (n + 1)
  have hstarts := (unbracketed_valueText hp).starts.append rest
  have htext : (patternText (fieldText style c) folded p).toList ++ rest
      = (fieldText style c).toList ++ ' ' :: ((if folded then "ILIKE " else "LIKE ").toList
        ++ ((valueText (.string p)).toList ++ rest)) := by
    cases folded <;> simp [patternText, valueText]
  rw [htext]
  generalize (valueText (.string p)).toList ++ rest = quoted at hoperand hstarts
  have hunbracketed : Unbracketed ((if folded then "ILIKE " else "LIKE ").toList ++ quoted) := by
    cases folded <;> exact ⟨_, _, rfl, by decide, by decide⟩
  have hcontinuation : continuation ((if folded then "ILIKE " else "LIKE ").toList ++ quoted)
      ≠ none := by
    cases folded <;> exact Option.some_ne_none _
  obtain ⟨hfield, hcondition⟩ := condition_fieldText style hc hunbracketed hcontinuation n
  -- no other word of a condition is found where the pattern's word stands
  have hnull := nullCheck_eq_none (behind_of_eq_some hfield (by cases folded <;> rfl))
  have hrange := range_eq_none (behind_of_eq_some hfield (by cases folded <;> rfl))
  have hmembership := membership_eq_none
    (behind_of_eq_some hfield (by cases folded <;> exact ⟨rfl, rfl⟩))
  have hword : likeWord (skipGap (' ' :: ((if folded then "ILIKE " else "LIKE ").toList
      ++ quoted))) = some (folded, ' ' :: quoted) := by
    cases folded <;> rfl
  refine ⟨rest, ?_, rfl⟩
  rw [hcondition, orElse_of_eq_none hnull, orElse_of_eq_none hrange,
    orElse_of_eq_none hmembership]
  apply orElse_of_eq_some
  rw [pattern, left_bind hfield, bind_of_eq_some hword, gap_bind, skipGap_space, hstarts.skipGap,
    bind_of_eq_some hoperand]
  rfl

variable (style) in
/-- A pattern condition by itself is an expression. -/
lemma expression?_patternText (hc : c.IsInfix) (folded : Bool) (p : String) :
    Starts (patternText (fieldText style c) folded p).toList ∧
      expression? (patternText (fieldText style c) folded p)
        = some (likeCall (fieldTerm style c) (.literal (.value (.string p))) folded) := by
  have hunbracketed : Unbracketed (patternText (fieldText style c) folded p).toList := by
    rw [patternText, String.toList_append, String.toList_append, List.append_assoc]
    exact ((named_fieldText style hc).append _).unbracketed
  obtain ⟨ch, cs, hcs, -⟩ := hunbracketed.starts
  have hlength : (patternText (fieldText style c) folded p).toList.length = cs.length + 1 := by
    rw [hcs, List.length_cons]
  refine ⟨hunbracketed.starts, expression?_of_takes hunbracketed.starts ?_⟩
  rw [hlength]
  exact disjunction_of_condition hunbracketed (condition_patternText hc folded p cs.length)

end Input.Grammar

namespace Input.Expression

/-- A pattern condition looks for the text between the percent signs at the ends of its pattern. -/
theorem parse_pattern (hf : f.IsInfix) (folded : Bool) (p : String) :
    parse (Grammar.patternText f.dotted folded p)
      = .ok (Filter.all [f.onText (Grammar.placement p.toList) folded
        (String.ofList (Grammar.bareText p.toList))]) := by
  generalize hcondition : f.onText (Grammar.placement p.toList) folded
    (String.ofList (Grammar.bareText p.toList)) = c
  have hc : c.IsInfix := hcondition ▸ FieldRef.isInfix_onText hf
  have hfield : Infix.fieldText .canonical c = f.dotted := by
    rw [← hcondition]
    exact FieldRef.pathText_onText
  have hterm :
      Grammar.likeCall (Infix.fieldTerm .canonical c) (.literal (.value (.string p))) folded
        = Infix.filterTerm .canonical Infix.unresolved (Filter.all [c]) := by
    rw [← hcondition]
    rfl
  have hsingle : (Filter.all [c]).IsInfix := .inr ⟨c, hc, rfl⟩
  obtain ⟨hstarts, hexpression⟩ := Grammar.expression?_patternText .canonical hc folded p
  rw [hfield] at hstarts hexpression
  unfold parse parseTerm
  rw [not_allBlank hstarts, if_neg (by decide), hexpression, hterm]
  simp only [Infix.resolve_filterTerm, ok_bind, Infix.toFilter_filterTerm hsingle, mapError_ok]

/-- A pattern of characters and percent signs binds one pattern in all dialects and with or without
regard to case. The bound pattern matches nothing that the written one does not, and everything that
it does exactly if no percent sign stands between other characters. -/
theorem pattern_binds_alike_iff (hf : f.IsInfix) {p : String} (hp : Sql.HasPercentsOnly p.toList) :
    (∀ folded, ∃ place v,
      parse (Grammar.patternText f.dotted folded p) = .ok (Filter.all [f.onText place folded v]) ∧
      ∀ (d : Sql.Dialect) (policy : SkipPolicy),
        (Sql.filter d policy (Filter.all [f.onText place folded v])).result.map Sql.Tree.entries
          = .ok [⟨if folded then d.foldedLike (d.field f) else d.like (d.field f),
            [.string (Sql.reboundPattern p)]⟩]) ∧
    (∀ s, Sql.like (Sql.reboundPattern p) s = true → Sql.like p s = true) ∧
    ((∀ s, Sql.like (Sql.reboundPattern p) s = Sql.like p s) ↔
      ¬ Sql.HasPercentInside p.toList) := by
  refine ⟨?_, fun s => Sql.like_of_rebound hp, Sql.forall_like_rebound_iff hp⟩
  intro folded
  refine ⟨_, _, parse_pattern hf folded p, ?_⟩
  intro d policy
  rw [Sql.filter_onText hf]
  rfl

/-- A nested field that can be written in an expression. -/
lemma isInfix_note : FieldRef.IsInfix ⟨"meta", ["note"]⟩ := by
  refine ⟨⟨_, _, rfl, by decide, by decide⟩, by decide, ?_⟩
  exact List.forall_mem_singleton.2 (by decide)

/-- A text with a quote in it between several percent signs. -/
theorem pattern_binds_alike_iff_quotedNote :
    FieldRef.IsInfix ⟨"meta", ["note"]⟩ ∧ Sql.HasPercentsOnly "%%it's%".toList ∧
      (∃ place v, parse "meta.note ILIKE '%%it\\'s%'"
          = .ok (Filter.all [FieldRef.onText ⟨"meta", ["note"]⟩ place true v]) ∧
        (Sql.filter .postgres .strict
          (Filter.all [FieldRef.onText ⟨"meta", ["note"]⟩ place true v])).result.map
            Sql.Tree.entries
          = .ok [⟨"meta->>'note' ILIKE ? ESCAPE '\\'", [.string "%it's%"]⟩]) ∧
      ∀ s, Sql.like "%it's%" s = Sql.like "%%it's%" s := by
  have hp : Sql.HasPercentsOnly "%%it's%".toList := by
    constructor <;> decide
  obtain ⟨hbinds, -, hsame⟩ := pattern_binds_alike_iff isInfix_note hp
  have hpattern : Sql.reboundPattern "%%it's%" = "%it's%" := by decide
  have hnone : ¬ Sql.HasPercentInside "%%it's%".toList := by
    rw [← Sql.percent_mem_bareText_iff]
    decide
  obtain ⟨place, v, hparse, hfilter⟩ := hbinds true
  rw [hpattern] at hfilter hsame
  exact ⟨isInfix_note, hp, ⟨place, v, hparse, hfilter .postgres .strict⟩, hsame.2 hnone⟩

/-- Not every pattern binds one that matches the same: the percent sign between `x` and `y` is
escaped, so that the bound pattern does not match `xy`. -/
theorem not_forall_pattern_binds_alike :
    ¬ ∀ (p : String), Sql.HasPercentsOnly p.toList → ∀ (filter : Filter) (tree : Sql.Tree)
      (q : String), parse (Grammar.patternText "a" false p) = .ok filter →
        (Sql.filter .sqlite .lenient filter).result = .ok tree →
        tree.entries.flatMap (·.params) = [.string q] → ∀ s, Sql.like q s = Sql.like p s := by
  intro h
  have hf : FieldRef.IsInfix ⟨"a", []⟩ :=
    ⟨⟨_, _, rfl, by decide, by decide⟩, by decide, List.forall_mem_nil _⟩
  have hp : Sql.HasPercentsOnly "x%y".toList := by
    constructor <;> decide
  have hsame := h "x%y" hp _ _ "x\\%y" (parse_pattern hf false "x%y") (Sql.filter_onText hf)
    (by decide) "xy"
  exact absurd hsame (by decide)

end Input.Expression

end ReadQuery
