import Mathlib.Tactic.TFAE
import ReadQuery.Proofs.Filter.Conjunction
import ReadQuery.Proofs.Sql.Reading
import ReadQuery.Proofs.Sql.Session

/-!
# Predicates joined in a statement

What the `WHERE` and `PREWHERE` clauses of a statement are read as after any sequence of calls on
its builder. A reader has a reading of every hand-written predicate that the builder accepts
(`IsReading`), and the other predicates are read as the clauses they are compiled from
(`Call.predicates`, `Call.prewherePredicates`). The clauses that are emitted are written as these
predicates joined by `AND` (`Select.Emits`, kept by every call through `Select.Reads`).

They are read as the conjunction of what each predicate is read as, for all sequences of calls,
exactly if the readings of the hand-written predicates have no `OR` outside of parentheses; and
exactly then does a predicate that is added only narrow the result (`conjunction_tfae`). From right
to left a hand-written predicate that is not tight is put behind the predicate of a cursor on a
field that it does not have.
-/

namespace ReadQuery.Sql

open Token (IsExpression Tight Written ReadsTogether Narrows)

variable {α : Type} {d : Dialect}

/-- A choice of readings for hand-written predicates. A predicate is written as its reading, which
is an expression over predicates that have its values in order. -/
structure IsReading (raw : Predicate → Option (List (Token Predicate))) : Prop where
  written : ∀ {p ts}, raw p = some ts → Written (·.sql) ts p.sql
  params : ∀ {p ts}, raw p = some ts → (Token.atoms ts).flatMap (·.params) = p.params
  isExpression : ∀ {p ts}, raw p = some ts → IsExpression ts

/-- The predicates that a filter adds to a clause: the parts of what it is compiled to. -/
def filterTokens (d : Dialect) (f : Filter) (policy : SkipPolicy) :
    List (List (Token Predicate)) :=
  match (f.compile policy (condition d)).result with
  | .ok (some k) => (k.map (Tree.render false)).parts.map Clause.tokens
  | _ => []

/-- The reading of a hand-written predicate that is accepted. -/
def rawTokens (raw : Predicate → Option (List (Token Predicate))) (condition : String)
    (params : List Value) : List (List (Token Predicate)) :=
  ((Select.rawPredicate condition params).toOption.bind raw).toList

/-- The predicate of the cursor of a window that passes the check. -/
def cursorTokens (w : Page.Window) : List (List (Token Predicate)) :=
  (w.check.toOption.bind fun _ => w.after).toList.map fun cursor =>
    [.atom (cursorPredicate cursor)]

namespace Call

variable (raw : Predicate → Option (List (Token Predicate)))

/-- The predicates that a call adds to the `WHERE` clause. A call that fails adds none. -/
def predicates : Call d → List (List (Token Predicate))
  | .filter f policy => filterTokens d f policy
  | .filterRaw condition params => rawTokens raw condition params
  | .paginate w => cursorTokens w
  | _ => []

/-- The predicates that a call adds to the `PREWHERE` clause. -/
def prewherePredicates : Call d → List (List (Token Predicate))
  | .prefilter f policy => filterTokens .clickHouse f policy
  | .prefilterRaw condition params => rawTokens raw condition params
  | _ => []

/-- Whether there is a reading of the hand-written predicate of a call, if it is accepted. -/
def Readable (k : Call d) : Prop :=
  ∀ p, k.raw? = some p → (raw p).isSome = true

end Call

/-- The texts of a clause and their values are written as tokens. -/
structure Spelled (tss : List (List (Token Predicate))) (texts : List String)
    (params : List Value) : Prop where
  texts : List.Forall₂ (Written (·.sql)) tss texts
  params : (tss.flatMap Token.atoms).flatMap (·.params) = params

variable {tss uss pre : List (List (Token Predicate))} {texts texts' : List String}
  {params params' : List Value} {raw : Predicate → Option (List (Token Predicate))}

/-- Nothing is spelled as nothing. -/
lemma spelled_nil : Spelled [] [] [] :=
  ⟨.nil, rfl⟩

/-- Texts behind each other are spelled as their tokens behind each other. -/
lemma Spelled.append (h : Spelled tss texts params) (h' : Spelled uss texts' params') :
    Spelled (tss ++ uss) (texts ++ texts') (params ++ params') where
  texts := List.rel_append h.texts h'.texts
  params := by rw [List.flatMap_append, List.flatMap_append, h.params, h'.params]

/-- The entries of a tree are spelled as the parts of its clause. -/
lemma Tree.map_sql_entries {g : α → Tree} (hg : ∀ a, (g a).IsAtom) {k : Clause α} (h : k.Full) :
    (ofClause (k.map g)).entries.map (·.sql)
      = k.parts.map fun part => Token.spell (fun a => ((g a).render false).sql) part.tokens := by
  cases k with
  | leaf a =>
    rw [Clause.map, ofClause, (hg a).entries]
    simp [Clause.parts, Clause.tokens, Token.spell, Token.text]
  | group j ks =>
    cases j with
    | and => exact sql_renderAll hg h.2
    | or =>
      have hone : (any (ofClauses (Clause.mapAll g ks))).entries.length = 1 := by
        rw [entries]
        split
        · rfl
        · have hpos := List.length_pos_iff.2 (ofClauses_ne_nil (g := g) h.1)
          rw [length_renderAll]
          omega
      obtain ⟨p, hp⟩ := List.length_eq_one_iff.1 hone
      have htext := entriesText_any (ofClauses_ne_nil (g := g) h.1)
      rw [entriesText, hp, List.map_singleton, String.intercalate_singleton] at htext
      have hrender := sql_render hg h
      rw [Clause.map, ofClause] at hrender ⊢
      rw [hp, List.map_singleton, htext, hrender]
      rfl

/-- What a filter is compiled to is what remains of it. -/
lemma remains_of_compile {f : Filter} {policy : SkipPolicy} {k : Option (Clause Tree)}
    (h : (f.compile policy (condition d)).result = .ok k) : f.remains (condition d) = k := by
  rw [Filter.compile_result] at h
  exact SkipPolicy.of_settle_eq_ok h

/-- What remains of a filter has the trees of its conditions at the leaves, and no empty group. -/
lemma exists_kept {f : Filter} {k : Clause Tree} (h : f.remains (condition d) = some k) :
    ∃ k' : Clause Occurrence, k'.Full ∧ k'.map (fun o => conditionTree d o.1) = k := by
  have hform : ∀ c t, (condition d c).form? = some t → conditionTree d c = t := by
    intro c t ht
    rw [conditionTree, ht]
    rfl
  rw [Filter.remains_eq_kept hform] at h
  obtain ⟨k', hk', rfl⟩ := Option.map_eq_some_iff.1 h
  exact ⟨k', Filter.full_of_kept hk', rfl⟩

/-- The entries of a filter are written as the parts of what it is compiled to. -/
lemma spelled_filter {f : Filter} {policy : SkipPolicy} {k : Option (Clause Tree)}
    (h : (f.compile policy (condition d)).result = .ok k) :
    Spelled (filterTokens d f policy) ((Tree.ofClause? k).entries.map (·.sql))
      ((Tree.ofClause? k).entries.flatMap (·.params)) := by
  rw [filterTokens, h]
  cases k with
  | none => exact spelled_nil
  | some k =>
    obtain ⟨k', hfull, rfl⟩ := exists_kept (remains_of_compile h)
    have hatom : ∀ o : Occurrence, (conditionTree d o.1).IsAtom :=
      fun o => isAtom_conditionTree d o.1
    constructor
    · rw [Tree.ofClause?, Tree.map_sql_entries hatom hfull]
      simp only [Clause.map_map, Clause.parts_map, List.map_map]
      refine List.forall₂_map_left_iff.2 (List.forall₂_map_right_iff.2 (List.forall₂_same.2 ?_))
      intro part _
      have hwritten := Token.written_spell (·.sql) (part.map fun o : Occurrence =>
        (conditionTree d o.1).render false).tokens
      rw [Clause.tokens_map, Token.spell_map, ← Clause.tokens_map] at hwritten
      simp only [Function.comp_def] at hwritten ⊢
      exact hwritten
    · rw [Clause.atoms_parts, Tree.ofClause?, Tree.params_entries, Tree.fragments_ofClause,
        Clause.leaves_map, List.flatMap_map, List.flatMap_assoc]
      simp only [Tree.params_render]

/-- A hand-written predicate is spelled as its reading. -/
lemma spelled_raw {condition : String} {p : Predicate} (hreading : IsReading raw)
    (hp : Select.rawPredicate condition params = .ok p) (hsome : (raw p).isSome = true) :
    Spelled (rawTokens raw condition params) [p.sql] p.params := by
  obtain ⟨ts, hts⟩ := Option.isSome_iff_exists.1 hsome
  have htokens : rawTokens raw condition params = [ts] := by
    rw [rawTokens, hp]
    simp [Except.toOption, hts]
  rw [htokens]
  refine ⟨.cons (hreading.written hts) .nil, ?_⟩
  rw [List.flatMap_singleton, hreading.params hts]

/-- The predicate of a cursor is spelled as the one condition that it is. -/
lemma spelled_cursor {w : Page.Window} (h : w.check = .ok ()) :
    Spelled (cursorTokens w) ((w.after.toList.map cursorPredicate).map (·.sql))
      ((w.after.toList.map cursorPredicate).flatMap (·.params)) := by
  rw [cursorTokens, h]
  cases w.after with
  | none => exact spelled_nil
  | some cursor =>
    have hwritten := Token.written_spell (·.sql) [Token.atom (cursorPredicate cursor)]
    rw [Token.spell, Token.spell, Token.text, String.append_empty] at hwritten
    exact ⟨.cons hwritten .nil, rfl⟩

namespace Select

variable {s : Select d} {k : Call d}

/-- The predicates under construction are written as tokens. -/
structure Reads (s : Select d) (pre tss : List (List (Token Predicate))) : Prop where
  prewhere : Spelled pre s.prewhere s.prewhereParams
  conditions : Spelled tss s.conditions s.params

/-- A new builder has no predicates. -/
lemma reads_fromTable (table : String) : (fromTable table : Select d).Reads [] [] :=
  ⟨spelled_nil, spelled_nil⟩

/-- Predicates that are spelled are read behind those in the `WHERE` clause. -/
lemma Reads.pushAll {ps : List Predicate} (h : s.Reads pre tss)
    (hp : Spelled uss (ps.map (·.sql)) (ps.flatMap (·.params))) :
    (s.pushAll ps).Reads pre (tss ++ uss) := by
  rw [pushAll_eq]
  exact ⟨h.prewhere, h.conditions.append hp⟩

/-- Predicates that are spelled are read behind those in the `PREWHERE` clause. -/
lemma Reads.pushAllPrewhere {s : Select .clickHouse} {ps : List Predicate} (h : s.Reads pre tss)
    (hp : Spelled uss (ps.map (·.sql)) (ps.flatMap (·.params))) :
    (ps.foldl pushPrewhere s).Reads (pre ++ uss) tss := by
  rw [foldl_pushPrewhere]
  exact ⟨h.prewhere.append hp, h.conditions⟩

/-- A filter adds the entries of its tree, or nothing if it is refused. -/
lemma state_filter (s : Select d) (f : Filter) (policy : SkipPolicy) :
    (s.filter f policy).state
      = match (f.compile policy (condition d)).result with
        | .ok k => s.pushAll (Tree.ofClause? k).entries
        | .error _ => s := by
  rw [Select.filter, Step.state_atomic, Traced.result_bind, Sql.filter, Traced.result_bind]
  cases (f.compile policy (condition d)).result with
  | error e => rfl
  | ok k => rfl

/-- A filter in front adds the entries of its tree, or nothing if it is refused. -/
lemma state_prefilter (s : Select .clickHouse) (f : Filter) (policy : SkipPolicy) :
    (s.prefilter f policy).state
      = match (f.compile policy (condition .clickHouse)).result with
        | .ok k => (Tree.ofClause? k).entries.foldl pushPrewhere s
        | .error _ => s := by
  rw [Select.prefilter, Step.state_atomic, Traced.result_bind, Sql.filter, Traced.result_bind]
  cases (f.compile policy (condition .clickHouse)).result with
  | error e => rfl
  | ok k => rfl

/-- A filter is read as the parts of what it is compiled to. -/
lemma Reads.filter {f : Filter} {policy : SkipPolicy} (h : s.Reads pre tss) :
    (s.filter f policy).state.Reads pre (tss ++ filterTokens d f policy) := by
  rw [state_filter]
  cases hk : (f.compile policy (condition d)).result with
  | error e =>
    rw [filterTokens, hk, List.append_nil]
    exact h
  | ok k => exact h.pushAll (spelled_filter hk)

/-- A filter in front is read as the parts of what it is compiled to. -/
lemma Reads.prefilter {s : Select .clickHouse} {f : Filter} {policy : SkipPolicy}
    (h : s.Reads pre tss) :
    (s.prefilter f policy).state.Reads (pre ++ filterTokens .clickHouse f policy) tss := by
  rw [state_prefilter]
  cases hk : (f.compile policy (condition .clickHouse)).result with
  | error e =>
    rw [filterTokens, hk, List.append_nil]
    exact h
  | ok k => exact h.pushAllPrewhere (spelled_filter hk)

/-- A hand-written predicate is read as its reading, or not at all if it is refused. -/
lemma Reads.filterRaw {condition : String} (hreading : IsReading raw) (h : s.Reads pre tss)
    (hk : (Call.filterRaw condition params : Call d).Readable raw) :
    (s.filterRaw condition params).state.Reads pre (tss ++ rawTokens raw condition params) := by
  rw [Select.filterRaw, Step.state_atomic, Traced.result_bind, Traced.result_ofExcept]
  cases hp : rawPredicate condition params with
  | error v =>
    rw [rawTokens, hp]
    simpa [Except.toOption] using h
  | ok p =>
    have hsome : (raw p).isSome = true := hk p (by rw [Call.raw?, hp]; rfl)
    have hspelled := spelled_raw hreading hp hsome
    have hone : Spelled (rawTokens raw condition params) ([p].map (·.sql))
        ([p].flatMap (·.params)) := by
      rwa [List.map_singleton, List.flatMap_singleton]
    exact h.pushAll hone

/-- A hand-written predicate in front is read as its reading, or not at all if it is refused. -/
lemma Reads.prefilterRaw {s : Select .clickHouse} {condition : String} (hreading : IsReading raw)
    (h : s.Reads pre tss) (hk : (Call.prefilterRaw condition params).Readable raw) :
    (s.prefilterRaw condition params).state.Reads (pre ++ rawTokens raw condition params) tss := by
  rw [Select.prefilterRaw, Step.state_atomic, Traced.result_bind, Traced.result_ofExcept]
  cases hp : rawPredicate condition params with
  | error v =>
    rw [rawTokens, hp]
    simpa [Except.toOption] using h
  | ok p =>
    have hsome : (raw p).isSome = true := hk p (by rw [Call.raw?, hp]; rfl)
    exact ⟨h.prewhere.append (spelled_raw hreading hp hsome), h.conditions⟩

/-- Adding the entries of an ordering leaves the predicates as they are. -/
lemma Reads.orderBy {policy : SkipPolicy} {es : List SortEntry} (h : s.Reads pre tss) :
    (s.orderBy policy es).state.Reads pre tss := by
  induction es generalizing s with
  | nil => exact h
  | cons e es ih =>
    simp only [Select.orderBy]
    split
    · exact h
    · rw [Step.state_after]
      exact ih h
    · next entry _ =>
      rw [Step.state_after]
      exact ih (s := { s with ordering := s.ordering ++ [entry] }) ⟨h.prewhere, h.conditions⟩

/-- A window is read as the predicate of its cursor, or not at all if it is refused. -/
lemma Reads.paginate {w : Page.Window} (h : s.Reads pre tss) :
    (s.paginate w).state.Reads pre (tss ++ cursorTokens w) := by
  have hresult := paginate_result s w
  rw [Select.paginate, Step.result_atomic] at hresult
  rw [Select.paginate, Step.state_atomic, hresult]
  cases hcheck : w.check with
  | error v =>
    rw [cursorTokens, hcheck]
    simpa [Except.toOption] using h
  | ok u =>
    have hpushed := h.pushAll (spelled_cursor hcheck)
    exact ⟨hpushed.prewhere, hpushed.conditions⟩

/-- A call adds the predicates it is said to add, if there is a reading of a hand-written one. -/
lemma Reads.apply (hreading : IsReading raw) (h : s.Reads pre tss) (hk : k.Readable raw) :
    (s.apply k).Reads (pre ++ k.prewherePredicates raw) (tss ++ k.predicates raw) := by
  cases k with
  | filter f policy =>
    show (s.filter f policy).state.Reads (pre ++ []) (tss ++ filterTokens d f policy)
    rw [List.append_nil]
    exact h.filter
  | filterRaw condition params =>
    show (s.filterRaw condition params).state.Reads (pre ++ [])
      (tss ++ rawTokens raw condition params)
    rw [List.append_nil]
    exact h.filterRaw hreading hk
  | paginate w =>
    show (s.paginate w).state.Reads (pre ++ []) (tss ++ cursorTokens w)
    rw [List.append_nil]
    exact h.paginate
  | prefilter f policy =>
    show (s.prefilter f policy).state.Reads (pre ++ filterTokens .clickHouse f policy) (tss ++ [])
    rw [List.append_nil]
    exact h.prefilter
  | prefilterRaw condition params =>
    show (s.prefilterRaw condition params).state.Reads (pre ++ rawTokens raw condition params)
      (tss ++ [])
    rw [List.append_nil]
    exact h.prefilterRaw hreading hk
  | orderBy policy entries =>
    show (s.orderBy policy entries).state.Reads (pre ++ []) (tss ++ [])
    rw [List.append_nil, List.append_nil]
    exact h.orderBy
  -- the other clauses have no predicates
  | columns _ | groupBy _ | limit _ | offset _ | sample _ | final | limitBy _ _ =>
    show Reads _ (pre ++ []) (tss ++ [])
    rw [List.append_nil, List.append_nil]
    exact ⟨h.prewhere, h.conditions⟩

/-- The predicates of a run are read call by call. -/
lemma Reads.run {calls : List (Call d)} (hreading : IsReading raw) (h : s.Reads pre tss)
    (hk : ∀ k ∈ calls, k.Readable raw) :
    (s.run calls).Reads (pre ++ calls.flatMap (Call.prewherePredicates raw))
      (tss ++ calls.flatMap (Call.predicates raw)) := by
  induction calls generalizing s pre tss with
  | nil =>
    rw [List.flatMap_nil, List.flatMap_nil, List.append_nil, List.append_nil]
    exact h
  | cons k calls ih =>
    rw [List.forall_mem_cons] at hk
    have hrest := ih (h.apply hreading hk.1) hk.2
    rw [List.flatMap_cons, List.flatMap_cons, ← List.append_assoc, ← List.append_assoc]
    exact hrest

/-- A statement has a `PREWHERE` and a `WHERE` clause that are written as tokens, between its other
clauses, and the values of the predicates in order as its parameters. -/
structure Emits (s : Select d) (out : Predicate) (pre tss : List (List (Token Predicate))) :
    Prop where
  sql : ∃ head prewhere predicates tail, s.headTexts = .ok head ∧ s.tailTexts = .ok tail ∧
    Token.IsClause (·.sql) "PREWHERE " pre prewhere ∧
    Token.IsClause (·.sql) "WHERE " tss predicates ∧
    out.sql = d.placeholders (" ".intercalate (head ++ prewhere ++ predicates ++ tail))
  params : out.params = ((pre ++ tss).flatMap Token.atoms).flatMap (·.params)

/-- The clauses of a statement are written as the predicates are read. -/
lemma Reads.emits {out : Predicate} (h : s.Reads pre tss) (hout : s.statement = .ok out) :
    s.Emits out pre tss := by
  obtain ⟨cs, hcs, rfl⟩ := map_eq_ok.1 hout
  rw [clauses_eq] at hcs
  obtain ⟨head, hhead, hcs⟩ := bind_eq_ok.1 hcs
  obtain ⟨tail, htail, hcs⟩ := bind_eq_ok.1 hcs
  obtain rfl := Except.ok.inj hcs
  constructor
  · exact ⟨head, _, _, tail, hhead, htail, Token.isClause_of_forall₂ h.prewhere.texts _,
      Token.isClause_of_forall₂ h.conditions.texts _, rfl⟩
  · rw [List.flatMap_append, List.flatMap_append, h.prewhere.params, h.conditions.params]

end Select

/-- The predicates of a filter are expressions, and parenthesized where they have an `OR`. -/
lemma of_mem_filterTokens {f : Filter} {policy : SkipPolicy} {ts : List (Token Predicate)}
    (h : ts ∈ filterTokens d f policy) : IsExpression ts ∧ Tight ts := by
  unfold filterTokens at h
  split at h
  · next k hk =>
    obtain ⟨k', hfull, rfl⟩ := exists_kept (remains_of_compile hk)
    obtain ⟨part, hpart, rfl⟩ := List.mem_map.1 h
    rw [Clause.map_map] at hpart
    exact ⟨Clause.isExpression_tokens (Clause.full_of_mem_parts (Clause.full_map hfull) hpart),
      part.tight_tokens⟩
  · cases h

/-- The predicate of a cursor is one condition, without any `OR`. -/
lemma of_mem_cursorTokens {w : Page.Window} {ts : List (Token Predicate)}
    (h : ts ∈ cursorTokens w) : IsExpression ts ∧ Tight ts := by
  obtain ⟨cursor, -, rfl⟩ := List.mem_map.1 h
  exact ⟨fun v => rfl, rfl⟩

/-- Only accepted predicates are read. -/
lemma of_mem_rawTokens {condition : String} {ts : List (Token Predicate)}
    (h : ts ∈ rawTokens raw condition params) :
    ∃ p, Select.rawPredicate p.sql p.params = .ok p ∧ raw p = some ts := by
  rw [rawTokens, Option.mem_toList, Option.bind_eq_some_iff] at h
  obtain ⟨p, hp, hts⟩ := h
  have hraw := eq_ok_of_toOption hp
  obtain ⟨rfl, -⟩ := Select.rawPredicate_eq_ok hraw
  exact ⟨⟨condition, params⟩, hraw, hts⟩

/-- No hand-written predicate that is accepted is read with an `OR` outside of parentheses. -/
def AllTight (raw : Predicate → Option (List (Token Predicate))) : Prop :=
  ∀ p ts, Select.rawPredicate p.sql p.params = .ok p → raw p = some ts → Tight ts

/-- What a call adds is tight if the readings of accepted hand-written predicates are. -/
lemma Call.of_mem_predicates {k : Call d} {ts : List (Token Predicate)}
    (hreading : IsReading raw) (htight : AllTight raw)
    (h : ts ∈ k.predicates raw ∨ ts ∈ k.prewherePredicates raw) : IsExpression ts ∧ Tight ts := by
  have hhand : ∀ {condition params}, ts ∈ rawTokens raw condition params →
      IsExpression ts ∧ Tight ts := by
    intro condition params hts
    obtain ⟨p, hp, hts⟩ := of_mem_rawTokens hts
    exact ⟨hreading.isExpression hts, htight p ts hp hts⟩
  rcases h with h | h
  · cases k with
    | filter f policy => exact of_mem_filterTokens h
    | filterRaw condition params => exact hhand h
    | paginate w => exact of_mem_cursorTokens h
    | _ => cases h
  · cases k with
    | prefilter f policy => exact of_mem_filterTokens h
    | prefilterRaw condition params => exact hhand h
    | _ => cases h

/-- Cursors on fields of different lengths have different predicates. -/
lemma cursorPredicate_injective (lastId : Int64) :
    Function.Injective fun n => cursorPredicate ⟨Page.fieldOfLength n, lastId⟩ := by
  intro m n h
  have hsql : Page.fieldOfLength m ++ " > ?" = Page.fieldOfLength n ++ " > ?" :=
    congrArg Predicate.sql h
  exact Page.fieldOfLength_injective (String.append_left_inj _ |>.1 hsql)

/-- A hand-written predicate that is not tight can stand behind a predicate that it does not
have. -/
lemma exists_calls_of_not_tight (d : Dialect) {p : Predicate} {ts : List (Token Predicate)}
    (hp : Select.rawPredicate p.sql p.params = .ok p) (hts : raw p = some ts) :
    ∃ (a : Predicate) (first second : Call d), a ∉ Token.atoms ts ∧
      (∀ k ∈ [first, second], k.Readable raw) ∧
      first.predicates raw = [[.atom a]] ∧ second.predicates raw = [ts] := by
  obtain ⟨n, hn⟩ := Page.exists_fieldOfLength_not_mem
    (g := fun field => cursorPredicate ⟨field, 0⟩) (cursorPredicate_injective 0) (Token.atoms ts)
  refine ⟨cursorPredicate ⟨Page.fieldOfLength n, 0⟩,
    .paginate ⟨none, none, some ⟨Page.fieldOfLength n, 0⟩⟩, .filterRaw p.sql p.params, hn, ?_, ?_,
    ?_⟩
  · simp [Call.Readable, Call.raw?, hp, hts, Except.toOption]
  · have hcheck : Page.Window.check ⟨none, none, some ⟨Page.fieldOfLength n, 0⟩⟩ = .ok () := by
      have hfield := Identifier.ensure_eq_ok_iff.2 ⟨Page.isProper_fieldOfLength n, rfl⟩
      simp only [Page.Window.check, hfield]
      rfl
    show cursorTokens _ = _
    rw [cursorTokens, hcheck]
    rfl
  · show rawTokens raw p.sql p.params = [ts]
    rw [rawTokens, hp]
    simp [Except.toOption, hts]

/-- Clauses are read as the conjunction of their predicates, whatever calls there are. -/
def Conjoins (d : Dialect) (raw : Predicate → Option (List (Token Predicate))) : Prop :=
  ∀ calls : List (Call d), (∀ k ∈ calls, k.Readable raw) →
    ReadsTogether (calls.flatMap (Call.predicates raw)) ∧
    ReadsTogether (calls.flatMap (Call.prewherePredicates raw))

/-- More calls only narrow the clauses. -/
def OnlyNarrows (d : Dialect) (raw : Predicate → Option (List (Token Predicate))) : Prop :=
  ∀ calls more : List (Call d), (∀ k ∈ calls ++ more, k.Readable raw) →
    Narrows (calls.flatMap (Call.predicates raw)) (more.flatMap (Call.predicates raw)) ∧
    Narrows (calls.flatMap (Call.prewherePredicates raw))
      (more.flatMap (Call.prewherePredicates raw))

/-- Predicates are joined as a conjunction, and added ones only narrow it, exactly if hand-written
predicates are tight. -/
theorem conjunction_tfae (d : Dialect) (hreading : IsReading raw) :
    [Conjoins d raw, OnlyNarrows d raw, AllTight raw].TFAE := by
  tfae_have 3 → 1 := by
    intro htight calls _
    constructor
    · refine Token.value?_conjoin fun ts hts => ?_
      obtain ⟨k, -, hk⟩ := List.mem_flatMap.1 hts
      exact Call.of_mem_predicates hreading htight (.inl hk)
    · refine Token.value?_conjoin fun ts hts => ?_
      obtain ⟨k, -, hk⟩ := List.mem_flatMap.1 hts
      exact Call.of_mem_predicates hreading htight (.inr hk)
  tfae_have 1 → 2 := by
    intro h calls more hreadable
    have hfirst := h calls fun k hk => hreadable k (List.mem_append_left more hk)
    have hall := h (calls ++ more) hreadable
    rw [List.flatMap_append, List.flatMap_append] at hall
    exact ⟨hfirst.1.narrows hall.1, hfirst.2.narrows hall.2⟩
  tfae_have 2 → 3 := by
    intro h p ts hp hts
    by_contra hnot
    obtain ⟨a, first, second, ha, hreadable, hfirst, hsecond⟩ := exists_calls_of_not_tight d hp hts
    have hnarrows := (h [first] [second] hreadable).1
    rw [List.flatMap_singleton, List.flatMap_singleton, hfirst, hsecond] at hnarrows
    exact Token.not_narrows_of_not_tight (hreading.isExpression hts) hnot ha hnarrows
  tfae_finish

end ReadQuery.Sql
