import ReadQuery.Proofs.Sql.Calls

/-!
# Bound values do not reach the text

Two filters are alike (`Filter.Alike`) if they have the same nodes and corresponding conditions
differ in the contents of their values only: not in what they compare, nor in whether a value is
there and is null, nor in how long a list is.

The walk over alike filters makes trees that are the same once the values bound in them are
forgotten (`Tree.blank`), and rendering does not look at these values. So the texts of alike filters
are the same, and they bind equally many values: `filter_alike`.
-/

namespace ReadQuery

/-- Conditions that differ in the contents of their values only. -/
structure Condition.Alike (c c' : Condition) : Prop where
  field : c.field = c'.field
  jsonPath : c.jsonPath = c'.jsonPath
  datePart : c.datePart = c'.datePart
  op : c.op = c'.op
  scalar : c.scalar?.map Value.isNull = c'.scalar?.map Value.isNull
  list : c.resolveList.length = c'.resolveList.length

mutual

/-- Filters of the same nodes whose conditions are alike. -/
def Filter.Alike : Filter → Filter → Prop
  | ⟨j, cs, fs⟩, ⟨j', cs', fs'⟩ => j = j' ∧ List.Forall₂ Condition.Alike cs cs' ∧ AllAlike fs fs'

/-- Filters that are alike one by one. -/
def Filter.AllAlike : List Filter → List Filter → Prop
  | [], [] => True
  | f :: fs, g :: gs => Filter.Alike f g ∧ AllAlike fs gs
  | [], _ :: _ | _ :: _, [] => False

end

/-- Conditions that are alike name the same field. -/
lemma Condition.Alike.resolveField {c c' : Condition} (h : c.Alike c') :
    c.resolveField = c'.resolveField := by
  rw [Condition.resolveField, Condition.resolveField, h.field, h.jsonPath]

namespace Sql

/-- The predicate with null for each value it binds. -/
def Predicate.blank (p : Predicate) : Predicate :=
  ⟨p.sql, p.params.map fun _ => .null⟩

/-- What there is of a predicate without its values: its text and how many values it binds. -/
def Predicate.shape (p : Predicate) : String × Nat :=
  (p.sql, p.params.length)

namespace Tree

mutual

/-- The tree with null for each value bound in it. -/
def blank : Tree → Tree
  | all parts => all (blankAll parts)
  | any parts => any (blankAll parts)
  | leaf p => leaf p.blank
  | nothing => nothing
  | never => never

/-- Trees with null for each value bound in them. -/
def blankAll : List Tree → List Tree
  | [] => []
  | t :: ts => blank t :: blankAll ts

end

end Tree

/-- Values make no difference to the shape. -/
@[simp] lemma Predicate.shape_blank (p : Predicate) : p.blank.shape = p.shape := by
  simp [shape, blank]

/-- Predicates may be joined before their values are blanked or after. -/
lemma Predicate.blank_joined (connective : String) (nested : Bool) (ps : List Predicate) :
    joined connective nested (ps.map blank) = (joined connective nested ps).blank := by
  have hparams : (ps.map blank).flatMap (·.params)
      = (ps.flatMap (·.params)).map fun _ => .null := by
    rw [List.flatMap_map, List.map_flatMap]
    rfl
  simp only [joined, hparams, List.map_map, List.length_map]
  rfl

namespace Tree

/-- Blanking trees is blanking each of them. -/
lemma blankAll_eq (ts : List Tree) : blankAll ts = ts.map blank := by
  induction ts with
  | nil => rfl
  | cons t ts ih => rw [blankAll, ih, List.map_cons]

mutual

/-- A tree may be rendered before its values are blanked or after. -/
lemma render_blank (nested : Bool) : ∀ t : Tree,
    t.blank.render nested = (t.render nested).blank
  | leaf p => rfl
  | nothing => rfl
  | never => rfl
  | all parts => by
    rw [blank, render, render, renderAll_blankAll parts, Predicate.blank_joined]
  | any parts => by
    rw [blank, render, render, renderAll_blankAll parts, Predicate.blank_joined]

/-- Trees may be rendered before their values are blanked or after. -/
lemma renderAll_blankAll : ∀ ts : List Tree,
    renderAll (blankAll ts) = (renderAll ts).map Predicate.blank
  | [] => rfl
  | t :: ts => by
    rw [blankAll, renderAll, renderAll, render_blank true t, renderAll_blankAll ts, List.map_cons]

end

/-- The entries of a blank tree are the blank entries. -/
lemma entries_blank (t : Tree) : t.blank.entries = t.entries.map Predicate.blank := by
  cases t with
  | leaf p => rfl
  | nothing => rfl
  | never => rfl
  | all parts => exact renderAll_blankAll parts
  | any parts =>
    have hlength : (blankAll parts).length = parts.length := by
      rw [blankAll_eq, List.length_map]
    have hany := render_blank true (any parts)
    rw [blank] at hany
    rw [blank, entries, entries, hlength, hany, renderAll_blankAll]
    split <;> rfl

/-- Values make no tree empty. -/
lemma isEmpty_blank (t : Tree) : t.blank.isEmpty = t.isEmpty := by
  cases t <;> rfl

mutual

/-- The tree of a clause may be blanked leaf by leaf. -/
lemma blank_ofClause : ∀ k : Clause Tree, (ofClause k).blank = ofClause (k.map blank)
  | .leaf _ => rfl
  | .group .and parts => congrArg all (blankAll_ofClauses parts)
  | .group .or parts => congrArg any (blankAll_ofClauses parts)

/-- The trees of some clauses may be blanked leaf by leaf. -/
lemma blankAll_ofClauses : ∀ ks : List (Clause Tree),
    blankAll (ofClauses ks) = ofClauses (Clause.mapAll blank ks)
  | [] => rfl
  | k :: ks => by
    rw [ofClauses, blankAll, Clause.mapAll, ofClauses, blank_ofClause k, blankAll_ofClauses ks]

end

/-- What remains of a filter may be blanked leaf by leaf. -/
lemma blank_ofClause? (k : Option (Clause Tree)) :
    (ofClause? k).blank = ofClause? (k.map (Clause.map blank)) := by
  cases k with
  | none => rfl
  | some k => exact blank_ofClause k

end Tree

variable {c c' : Condition}

/-- A condition has a text to match with just if its value is there and not null. -/
lemma patternText?_isSome (c : Condition) :
    c.patternText?.isSome = (c.scalar?.map Value.isNull == some false) := by
  unfold Condition.patternText?
  cases c.scalar? with
  | none => rfl
  | some v => cases v <;> rfl

/-- A value that is not null is compared by a sign and a placeholder. -/
lemma operation_of_not_null {d : Dialect} {expr : String} {cmp : Comparison} {v : Value}
    (hop : c.op = .compare cmp) (hv : c.scalar? = some v) (hn : v.isNull = false) :
    operation d expr c = single (expr ++ " " ++ comparisonSign cmp ++ " ?") [v] := by
  unfold operation
  rw [hop, hv]
  cases v with
  | null => cases hn
  | bool b => cases cmp <;> rfl
  | int i => cases cmp <;> rfl
  | float f => cases cmp <;> rfl
  | string t => cases cmp <;> rfl
  | list items => cases cmp <;> rfl

/-- There is one null. -/
lemma eq_null_of_isNull {v : Value} (h : v.isNull = true) : v = .null := by
  cases v with
  | null => rfl
  | bool b => cases h
  | int i => cases h
  | float f => cases h
  | string t => cases h
  | list items => cases h

/-- Single conditions are the same but for their values if their texts are the same and they bind
equally many. -/
lemma map_blank_single {sql sql' : String} {params params' : List Value} (hs : sql = sql')
    (hp : params.length = params'.length) :
    (single sql params).map Tree.blank = (single sql' params').map Tree.blank := by
  have hblank : params.map (fun _ => Value.null) = params'.map fun _ => .null := by
    rw [List.map_const', List.map_const', hp]
  simp only [single, Compiled.map, Tree.blank, Predicate.blank, hs, hblank]

/-- The text of a match with a regular expression does not depend on the expression. -/
lemma regex_fst (d : Dialect) (expr s s' : String) (folded : Bool) :
    (d.regex expr s folded).1 = (d.regex expr s' folded).1 := by
  cases d <;> rfl

/-- Comparisons of conditions that are alike differ in their values only. -/
lemma blank_compare (d : Dialect) (expr : String) {cmp : Comparison} (hop : c.op = .compare cmp)
    (h : c.Alike c') :
    (operation d expr c).map Tree.blank = (operation d expr c').map Tree.blank := by
  have hop' : c'.op = .compare cmp := h.op ▸ hop
  have hscalar := h.scalar
  cases hv : c.scalar? with
  | none =>
    have hv' : c'.scalar? = none := by simpa [hv] using hscalar.symm
    simp only [operation, hop, hop', hv, hv']
  | some v =>
    obtain ⟨w, hv', hnull⟩ : ∃ w, c'.scalar? = some w ∧ w.isNull = v.isNull := by
      simpa [hv, eq_comm] using hscalar
    cases hn : v.isNull with
    | true =>
      obtain rfl := eq_null_of_isNull hn
      obtain rfl := eq_null_of_isNull (hnull.trans hn)
      simp only [operation, hop, hop', hv, hv']
    | false =>
      rw [operation_of_not_null hop hv hn, operation_of_not_null hop' hv' (hnull.trans hn)]
      exact map_blank_single rfl rfl

/-- Lists of conditions that are alike differ in their values only. -/
lemma blank_among (d : Dialect) (expr : String) {negated : Bool} (hop : c.op = .among negated)
    (h : c.Alike c') :
    (operation d expr c).map Tree.blank = (operation d expr c').map Tree.blank := by
  have hop' : c'.op = .among negated := h.op ▸ hop
  have hlist := h.list
  simp only [operation, hop, hop']
  cases hv : c.resolveList with
  | nil =>
    cases hv' : c'.resolveList with
    | nil => rfl
    | cons w ws => simp [hv, hv'] at hlist
  | cons v vs =>
    cases hv' : c'.resolveList with
    | nil => simp [hv, hv'] at hlist
    | cons w ws =>
      rw [hv, hv'] at hlist
      exact map_blank_single (by rw [hlist]) hlist

/-- Ranges of conditions that are alike differ in their values only. -/
lemma blank_between (d : Dialect) (expr : String) (hop : c.op = .between) (h : c.Alike c') :
    (operation d expr c).map Tree.blank = (operation d expr c').map Tree.blank := by
  have hop' : c'.op = .between := h.op ▸ hop
  have hlist := h.list
  simp only [operation, hop, hop', Condition.resolveRange]
  -- one value and two of them have forms of their own, and any other number is the reason
  rcases hv : c.resolveList with _ | ⟨v, _ | ⟨w, _ | ⟨u, us⟩⟩⟩ <;>
    rcases hv' : c'.resolveList with _ | ⟨v', _ | ⟨w', _ | ⟨u', us'⟩⟩⟩ <;>
    simp [hv, hv'] at hlist
  · rfl
  · exact map_blank_single rfl rfl
  · exact map_blank_single rfl rfl
  · simp [hlist]

/-- Both of two alike conditions have a text to match with, or neither has. -/
lemma patternText?_cases (h : c.Alike c') :
    (c.patternText? = none ∧ c'.patternText? = none) ∨
      ∃ s s', c.patternText? = some s ∧ c'.patternText? = some s' := by
  have hsome : c.patternText?.isSome = c'.patternText?.isSome := by
    rw [patternText?_isSome, patternText?_isSome, h.scalar]
  cases hs : c.patternText? with
  | none =>
    cases hs' : c'.patternText? with
    | none => exact .inl ⟨rfl, rfl⟩
    | some s' => simp [hs, hs'] at hsome
  | some s =>
    cases hs' : c'.patternText? with
    | none => simp [hs, hs'] at hsome
    | some s' => exact .inr ⟨s, s', rfl, rfl⟩

/-- What an operator makes of alike conditions is the same but for the values bound. -/
lemma blank_operation (d : Dialect) (expr : String) (h : c.Alike c') :
    (operation d expr c).map Tree.blank = (operation d expr c').map Tree.blank := by
  cases hop : c.op with
  | compare cmp => exact blank_compare d expr hop h
  | among negated => exact blank_among d expr hop h
  | between => exact blank_between d expr hop h
  | unspecified => simp only [operation, hop, h.op ▸ hop]
  | nullness negated => simp only [operation, hop, h.op ▸ hop]
  | text place folded =>
    rcases patternText?_cases h with ⟨hs, hs'⟩ | ⟨s, s', hs, hs'⟩
    · simp only [operation, hop, h.op ▸ hop, hs, hs']
    · simp only [operation, hop, h.op ▸ hop, hs, hs']
      exact map_blank_single rfl rfl
  | regex folded =>
    rcases patternText?_cases h with ⟨hs, hs'⟩ | ⟨s, s', hs, hs'⟩
    · simp only [operation, hop, h.op ▸ hop, hs, hs']
    · simp only [operation, hop, h.op ▸ hop, hs, hs']
      exact map_blank_single (regex_fst d expr s s' folded) rfl
  | search =>
    rcases patternText?_cases h with ⟨hs, hs'⟩ | ⟨s, s', hs, hs'⟩
    · simp only [operation, hop, h.op ▸ hop, hs, hs']
    · simp only [operation, hop, h.op ▸ hop, hs, hs']
      cases d.search? expr with
      | none => exact map_blank_single rfl rfl
      | some sql => exact map_blank_single rfl rfl

/-- Conditions that are alike are rendered as predicates that differ in their values only. -/
lemma blank_condition (d : Dialect) (h : c.Alike c') :
    (condition d c).map Tree.blank = (condition d c').map Tree.blank := by
  have hexpr : comparedExpr d c = comparedExpr d c' := by
    rw [comparedExpr, comparedExpr, Condition.fieldRef, Condition.fieldRef, h.resolveField,
      h.datePart]
  unfold condition
  rw [hexpr]
  cases comparedExpr d c' with
  | error reason => rfl
  | ok expr => exact blank_operation d expr h

end Sql

namespace Filter

variable {α : Type} {render : Condition → Compiled α}

/-- Conditions that are rendered alike are compiled alike, one by one. -/
lemma compileConditions_congr (policy : SkipPolicy)
    (hrender : ∀ c c', c.Alike c' → render c = render c')
    {cs cs' : List Condition} (h : List.Forall₂ Condition.Alike cs cs') :
    compileConditions policy render cs = compileConditions policy render cs' := by
  induction h with
  | nil => rfl
  | cons hc _ ih =>
    have hhead := hrender _ _ hc
    rw [compileConditions, compileConditions, compileCondition, compileCondition, ih, hhead,
      hc.resolveField, hc.field]

mutual

/-- The walk makes the same of alike filters if each form is the same for alike conditions. -/
lemma compile_congr (policy : SkipPolicy) (hrender : ∀ c c', c.Alike c' → render c = render c') :
    ∀ {f g : Filter}, f.Alike g → f.compile policy render = g.compile policy render
  | ⟨j, cs, fs⟩, ⟨j', cs', fs'⟩, h => by
    rw [Alike] at h
    obtain ⟨rfl, hcs, hfs⟩ := h
    have hgroups := compileAll_congr policy hrender hfs
    have hleaves := compileConditions_congr policy hrender hcs
    cases j with
    | none => rfl
    | some junction => rw [compile, compile, hleaves, hgroups]

/-- Filters whose conditions are rendered alike are compiled alike, one by one. -/
lemma compileAll_congr (policy : SkipPolicy)
    (hrender : ∀ c c', c.Alike c' → render c = render c') :
    ∀ {fs gs : List Filter}, AllAlike fs gs →
      compileAll policy render fs = compileAll policy render gs
  | [], [], _ => rfl
  | f :: fs, g :: gs, h => by
    rw [AllAlike] at h
    have hgroup := compile_congr policy hrender h.1
    have hgroups := compileAll_congr policy hrender h.2
    rw [compileAll, compileAll, hgroup, hgroups]
  | [], _ :: _, h => by simp [AllAlike] at h
  | _ :: _, [], h => by simp [AllAlike] at h

end

end Filter

namespace Sql

/-- The tree of a filter without its values is what the walk makes of conditions without theirs. -/
lemma blank_filter (d : Dialect) (policy : SkipPolicy) (f : Filter) :
    Tree.blank <$> filter d policy f
      = Tree.ofClause? <$> f.compile policy fun c => (condition d c).map Tree.blank := by
  simp only [filter, bind_pure_comp, Functor.map_map, Filter.compile_map, Tree.blank_ofClause?]

/-- Alike filters have the same tree but for the values bound in it, and report the same. -/
lemma blank_filter_eq {f g : Filter} (d : Dialect) (policy : SkipPolicy) (h : f.Alike g) :
    Tree.blank <$> filter d policy f = Tree.blank <$> filter d policy g := by
  have hwalk := Filter.compile_congr policy (fun _ _ hc => blank_condition d hc) h
  rw [blank_filter, blank_filter, hwalk]

/-- Predicates that differ in their values only have the same shape. -/
lemma shape_eq_of_blank {p q : Predicate} (h : p.blank = q.blank) : p.shape = q.shape := by
  rw [← Predicate.shape_blank p, h, Predicate.shape_blank]

/-- Predicates that differ in their values only have the same shapes. -/
lemma shapes_eq_of_blank {ps qs : List Predicate}
    (h : ps.map Predicate.blank = qs.map Predicate.blank) :
    ps.map Predicate.shape = qs.map Predicate.shape := by
  have hblank : ∀ rs : List Predicate,
      (rs.map Predicate.blank).map Predicate.shape = rs.map Predicate.shape := by
    intro rs
    rw [List.map_map]
    exact List.map_congr_left fun p _ => p.shape_blank
  rw [← hblank ps, h, hblank]

/-- The clauses of a statement do not look at its parameters. -/
lemma shape_statement {d : Dialect} (s : Select d) (params : List Value) :
    ({ s with params := params } : Select d).statement.map Predicate.shape
      = s.clauses.map fun cs => (d.placeholders (" ".intercalate cs),
          s.prewhereParams.length + params.length) := by
  show (s.clauses.map fun cs => Predicate.mk (d.placeholders (" ".intercalate cs))
    (s.prewhereParams ++ params)).map Predicate.shape = _
  cases s.clauses with
  | error v => rfl
  | ok cs => simp [Except.map, Predicate.shape]

/-- The text of a statement depends on the texts of its predicates, not on their values. -/
lemma shape_pushAll {d : Dialect} (s : Select d) {ps qs : List Predicate}
    (h : ps.map Predicate.shape = qs.map Predicate.shape) :
    (s.pushAll ps).statement.map Predicate.shape
      = (s.pushAll qs).statement.map Predicate.shape := by
  have hsql : ps.map (·.sql) = qs.map (·.sql) := by
    have hfst := congrArg (List.map Prod.fst) h
    simpa [Predicate.shape, Function.comp_def] using hfst
  have hcount : (ps.map (·.params.length)).sum = (qs.map (·.params.length)).sum := by
    have hsnd := congrArg (fun l => (l.map Prod.snd).sum) h
    simpa [Predicate.shape, Function.comp_def] using hsnd
  rw [Select.pushAll_eq, Select.pushAll_eq, hsql]
  rw [shape_statement { s with conditions := s.conditions ++ qs.map (·.sql) },
    shape_statement { s with conditions := s.conditions ++ qs.map (·.sql) },
    List.length_append, List.length_append, List.length_flatMap, List.length_flatMap, hcount]

/-- Computations that are the same but for a part of their results. -/
lemma of_map_eq {ε α β : Type} {x y : Traced ε α} {g : α → β} (h : g <$> x = g <$> y) :
    x.events = y.events ∧ ((∃ e, x.result = .error e ∧ y.result = .error e) ∨
      ∃ a b, x.result = .ok a ∧ y.result = .ok b ∧ g a = g b) := by
  have hmap : ∀ z : Traced ε α, g <$> z = ⟨z.events, z.result.map g⟩ := by
    rintro ⟨es, r⟩
    cases r with
    | error e => rfl
    | ok a => exact Traced.ext (List.append_nil es) rfl
  rw [hmap, hmap, Traced.mk.injEq] at h
  obtain ⟨hevents, hresults⟩ := h
  refine ⟨hevents, ?_⟩
  cases hx : x.result with
  | error e =>
    cases hy : y.result with
    | error e' =>
      rw [hx, hy] at hresults
      obtain rfl := Except.error.inj hresults
      exact .inl ⟨e, rfl, rfl⟩
    | ok b => simp [hx, hy, Except.map] at hresults
  | ok a =>
    cases hy : y.result with
    | error e => simp [hx, hy, Except.map] at hresults
    | ok b =>
      rw [hx, hy] at hresults
      exact .inr ⟨a, b, rfl, rfl, Except.ok.inj hresults⟩

/-- The contents of values influence nothing but the parameters. Two alike filters are skipped for
the same reason, or become the same texts with equally many values, each on its own, entry by entry
and in whatever statement they are built into; and the same is reported of both. -/
theorem filter_alike {f g : Filter} (d : Dialect) (policy : SkipPolicy) (h : f.Alike g) :
    (filter d policy f).events = (filter d policy g).events ∧
    ((∃ e, (filter d policy f).result = .error e ∧ (filter d policy g).result = .error e) ∨
      ∃ t u, (filter d policy f).result = .ok t ∧ (filter d policy g).result = .ok u ∧
        t.isEmpty = u.isEmpty ∧
        (∀ nested, (t.render nested).shape = (u.render nested).shape) ∧
        t.entries.map Predicate.shape = u.entries.map Predicate.shape ∧
        ∀ s : Select d, (s.pushAll t.entries).statement.map Predicate.shape
          = (s.pushAll u.entries).statement.map Predicate.shape) := by
  obtain ⟨hevents, hresults⟩ := of_map_eq (blank_filter_eq d policy h)
  refine ⟨hevents, hresults.imp_right ?_⟩
  rintro ⟨t, u, ht, hu, htree⟩
  have hentries : t.entries.map Predicate.shape = u.entries.map Predicate.shape := by
    apply shapes_eq_of_blank
    rw [← Tree.entries_blank, htree, Tree.entries_blank]
  have hempty : t.isEmpty = u.isEmpty := by
    rw [← Tree.isEmpty_blank t, htree, Tree.isEmpty_blank]
  refine ⟨t, u, ht, hu, hempty, fun nested => ?_, hentries, fun s => shape_pushAll s hentries⟩
  apply shape_eq_of_blank
  rw [← Tree.render_blank, htree, Tree.render_blank]

/-- A filter on people, with its values in all forms in which they are given. -/
def people (name tags pattern : String) (hours : List Value) : Filter :=
  ⟨some .or,
    [.single "name" (.text .anywhere true) (.string name),
      { Condition.single "tags" (.among false) (.string tags) with jsonPath := some "$.all" },
      .nullary "id" (.compare .equals)],
    [⟨none, [.single "x" .unspecified .null], []⟩,
      ⟨some .and,
        [.single "note" (.regex true) (.string pattern),
          (Condition.listed "seen" .between hours).onPart .hour,
          .single "boss" (.compare .notEquals) .null],
        []⟩]⟩

/-- Names and patterns that would end a literal, open a comment or stand for a parameter make the
same text as harmless ones. -/
theorem filter_alike_people :
    let f := people "Ann" "a,b" "^x" [.int 8, .int 9]
    let g := people "%' OR '1' = '1' -- ?" "[\"?\", \"' /*\"]" "'; \\" [.string "$1", .list []]
    (filter .sqlite .lenient f).events = (filter .sqlite .lenient g).events ∧
    ((∃ e, (filter .sqlite .lenient f).result = .error e ∧
        (filter .sqlite .lenient g).result = .error e) ∨
      ∃ t u, (filter .sqlite .lenient f).result = .ok t ∧
        (filter .sqlite .lenient g).result = .ok u ∧ t.isEmpty = u.isEmpty ∧
        (∀ nested, (t.render nested).shape = (u.render nested).shape) ∧
        t.entries.map Predicate.shape = u.entries.map Predicate.shape ∧
        ∀ s : Select .sqlite, (s.pushAll t.entries).statement.map Predicate.shape
          = (s.pushAll u.entries).statement.map Predicate.shape) := by
  have hname : Condition.Alike (.single "name" (.text .anywhere true) (.string "Ann"))
      (.single "name" (.text .anywhere true) (.string "%' OR '1' = '1' -- ?")) :=
    ⟨rfl, rfl, rfl, rfl, rfl, by decide +kernel⟩
  have htags : Condition.Alike
      { Condition.single "tags" (.among false) (.string "a,b") with jsonPath := some "$.all" }
      { Condition.single "tags" (.among false) (.string "[\"?\", \"' /*\"]") with
        jsonPath := some "$.all" } :=
    ⟨rfl, rfl, rfl, rfl, rfl, by decide +kernel⟩
  have hnote : Condition.Alike (.single "note" (.regex true) (.string "^x"))
      (.single "note" (.regex true) (.string "'; \\")) :=
    ⟨rfl, rfl, rfl, rfl, rfl, by decide +kernel⟩
  have hseen : Condition.Alike ((Condition.listed "seen" .between [.int 8, .int 9]).onPart .hour)
      ((Condition.listed "seen" .between [.string "$1", .list []]).onPart .hour) :=
    ⟨rfl, rfl, rfl, rfl, rfl, rfl⟩
  have hrefl : ∀ c : Condition, c.Alike c := fun c => ⟨rfl, rfl, rfl, rfl, rfl, rfl⟩
  apply filter_alike
  simp only [people, Filter.Alike, Filter.AllAlike]
  exact ⟨trivial, .cons hname (.cons htags (.cons (hrefl _) .nil)),
    ⟨trivial, .cons (hrefl _) .nil, trivial⟩,
    ⟨trivial, .cons hnote (.cons hseen (.cons (hrefl _) .nil)), trivial⟩, trivial⟩

end Sql

end ReadQuery
