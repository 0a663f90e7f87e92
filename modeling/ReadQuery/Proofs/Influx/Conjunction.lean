import Mathlib.Tactic.TFAE
import ReadQuery.Proofs.Filter.Conjunction
import ReadQuery.Proofs.Influx.Calls
import ReadQuery.Proofs.Influx.Reading

/-!
# Predicates joined in a statement of InfluxQL

All calls that there are on a builder of InfluxQL statements (`Call`), the builder that a sequence
of them leaves (`Query.run`), and what the `WHERE` clause of its statement is read as: the readings
of hand-written predicates and the clauses that the other ones are compiled from
(`Call.predicates`), joined by `AND` (`Query.Emits`).

As for statements of SQL, that is the conjunction of the predicates for all sequences of calls
exactly if the readings of the hand-written predicates have no `OR` outside of parentheses
(`conjunction_tfae`).
-/

namespace ReadQuery.Influx

open Token (IsExpression Tight Written ReadsTogether Narrows)

variable {α : Type}

/-- A call on a builder of statements. -/
inductive Call where
  | select (items : List Item)
  | filter (f : Filter) (policy : SkipPolicy)
  | filterRaw (condition : String)
  | groupByTag (tag : String)
  | groupByTime (interval : String)
  | fill (fill : Fill)
  | orderBy (policy : SkipPolicy) (entries : List SortEntry)
  | limit (n : Int64)
  | offset (n : Int64)
  | seriesLimit (n : Int64)
  | seriesOffset (n : Int64)
  | paginate (w : Page.Window)

namespace Query

/-- The builder that a call leaves. -/
def apply (q : Query) : Call → Query
  | .select items => q.select items
  | .filter f policy => (q.filter f policy).state
  | .filterRaw condition => (q.filterRaw condition).state
  | .groupByTag tag => q.groupByTag tag
  | .groupByTime interval => q.groupByTime interval
  | .fill fill => q.withFill fill
  | .orderBy policy entries => (q.orderBy policy entries).state
  | .limit n => q.withLimit n
  | .offset n => q.withOffset n
  | .seriesLimit n => q.withSeriesLimit n
  | .seriesOffset n => q.withSeriesOffset n
  | .paginate w => (q.paginate w).state

/-- The builder that a sequence of calls leaves. -/
def run (q : Query) (calls : List Call) : Query :=
  calls.foldl apply q

end Query

/-- A choice of readings for hand-written predicates. A predicate is written as its reading, which
is an expression. -/
structure IsReading (raw : String → Option (List (Token String))) : Prop where
  written : ∀ {s ts}, raw s = some ts → Written id ts s
  isExpression : ∀ {s ts}, raw s = some ts → IsExpression ts

/-- The predicates that a filter adds: the parts of what it is compiled to. -/
def filterTokens (f : Filter) (policy : SkipPolicy) : List (List (Token String)) :=
  match (f.compile policy condition).result with
  | .ok (some k) => k.parts.map Clause.tokens
  | _ => []

/-- The predicate of the cursor of a window that passes the check. -/
def cursorTokens (w : Page.Window) : List (List (Token String)) :=
  (w.check.toOption.bind fun _ => w.after).toList.map fun cursor =>
    [.atom (cursorPredicate cursor)]

namespace Call

variable (raw : String → Option (List (Token String)))

/-- The predicates that a call adds. A call that fails adds none. -/
def predicates : Call → List (List (Token String))
  | .filter f policy => filterTokens f policy
  | .filterRaw condition => ((RawCondition.ensure condition).toOption.bind raw).toList
  | .paginate w => cursorTokens w
  | _ => []

/-- Whether there is a reading of the hand-written predicate of a call, if it is accepted. -/
def Readable : Call → Prop
  | .filterRaw condition => RawCondition.isAllowed condition = true → (raw condition).isSome = true
  | _ => True

end Call

variable {tss uss : List (List (Token String))} {texts : List String}
  {raw : String → Option (List (Token String))}

/-- The entries of a clause are spelled as its parts. -/
lemma entries_map {form : α → String} {k : Clause α} (h : k.Full) :
    entries (some (k.map form)) = k.parts.map fun part => Token.spell form part.tokens := by
  cases k with
  | leaf a => simp [entries, Clause.map, ofClause, Clause.parts, Clause.tokens, Token.spell,
      Token.text]
  | group j ks =>
    cases j with
    | and => exact ofClauses_mapAll h.2
    | or =>
      rw [Clause.parts, List.map_singleton, ← ofClause_map h]
      rfl

/-- What remains of a filter has the texts of its conditions at the leaves, and no empty group. -/
lemma exists_kept {f : Filter} {policy : SkipPolicy} {k : Clause String}
    (h : (f.compile policy condition).result = .ok (some k)) :
    ∃ k' : Clause Occurrence, k'.Full ∧ k'.map (fun o => conditionText o.1) = k := by
  have hform : ∀ c s, (condition c).form? = some s → conditionText c = s := by
    intro c s hs
    rw [conditionText, hs]
    rfl
  rw [Filter.compile_result] at h
  have hremains := SkipPolicy.of_settle_eq_ok h
  rw [Filter.remains_eq_kept hform] at hremains
  obtain ⟨k', hk', rfl⟩ := Option.map_eq_some_iff.1 hremains
  exact ⟨k', Filter.full_of_kept hk', rfl⟩

/-- The predicates of a filter are written as the parts of what it is compiled to. -/
lemma written_filter {f : Filter} {policy : SkipPolicy} {k : Option (Clause String)}
    (h : (f.compile policy condition).result = .ok k) :
    List.Forall₂ (Written id) (filterTokens f policy) (entries k) := by
  rw [filterTokens, h]
  cases k with
  | none => exact .nil
  | some k =>
    obtain ⟨k', hfull, rfl⟩ := exists_kept h
    rw [entries_map hfull]
    simp only [Clause.parts_map, List.map_map]
    refine List.forall₂_map_left_iff.2 (List.forall₂_map_right_iff.2 (List.forall₂_same.2 ?_))
    intro part _
    have hwritten := Token.written_spell id
      (part.map fun o : Occurrence => conditionText o.1).tokens
    rw [Clause.tokens_map, Token.spell_map, ← Clause.tokens_map, Function.id_comp] at hwritten
    exact hwritten

/-- The predicate of a cursor is written as the one condition that it is. -/
lemma written_cursor {w : Page.Window} (h : w.check = .ok ()) :
    List.Forall₂ (Written id) (cursorTokens w) (w.after.toList.map cursorPredicate) := by
  rw [cursorTokens, h]
  cases w.after with
  | none => exact .nil
  | some cursor =>
    have hwritten := Token.written_spell id [Token.atom (cursorPredicate cursor)]
    rw [Token.spell, Token.spell, Token.text, String.append_empty] at hwritten
    exact .cons hwritten .nil

namespace Query

variable {q : Query} {k : Call}

/-- The predicates under construction are written as tokens. -/
def Reads (q : Query) (tss : List (List (Token String))) : Prop :=
  List.Forall₂ (Written id) tss q.conditions

/-- A filter adds its entries, or nothing if it is refused. -/
lemma state_filter (q : Query) (f : Filter) (policy : SkipPolicy) :
    (q.filter f policy).state
      = match (f.compile policy condition).result with
        | .ok k => { q with conditions := q.conditions ++ entries k }
        | .error _ => q := by
  rw [Query.filter, Step.state_atomic, Traced.result_bind, Influx.filter, Traced.result_bind]
  cases (f.compile policy condition).result with
  | error e => rfl
  | ok k => rfl

/-- A filter is read as the parts of what it is compiled to. -/
lemma Reads.filter {f : Filter} {policy : SkipPolicy} (h : q.Reads tss) :
    (q.filter f policy).state.Reads (tss ++ filterTokens f policy) := by
  rw [state_filter]
  cases hk : (f.compile policy condition).result with
  | error e =>
    rw [filterTokens, hk, List.append_nil]
    exact h
  | ok k => exact List.rel_append h (written_filter hk)

/-- A hand-written predicate is read as its reading, or not at all if it is refused. -/
lemma Reads.filterRaw {condition : String} (hreading : IsReading raw) (h : q.Reads tss)
    (hk : (Call.filterRaw condition).Readable raw) :
    (q.filterRaw condition).state.Reads (tss ++ (Call.filterRaw condition).predicates raw) := by
  rw [Query.filterRaw, Step.state_atomic, Traced.result_bind, Traced.result_ofExcept,
    Call.predicates]
  cases hp : RawCondition.ensure condition with
  | error v => simpa [Except.toOption] using h
  | ok s =>
    obtain ⟨hallowed, rfl⟩ := RawCondition.ensure_eq_ok_iff.1 hp
    obtain ⟨ts, hts⟩ := Option.isSome_iff_exists.1 (hk hallowed)
    have hone : List.Forall₂ (Written id) [ts] [s] := .cons (hreading.written hts) .nil
    have htokens : ((Except.ok s : Except Violation String).toOption.bind raw).toList = [ts] := by
      simp [Except.toOption, hts]
    rw [htokens]
    exact List.rel_append h hone

/-- The entries of an ordering leave the predicates as they are. -/
lemma Reads.orderBy {policy : SkipPolicy} {es : List SortEntry} (h : q.Reads tss) :
    (q.orderBy policy es).state.Reads tss := by
  induction es generalizing q with
  | nil => exact h
  | cons e es ih =>
    simp only [Query.orderBy]
    split
    · exact h
    · rw [Step.state_after]
      exact ih h
    · next direction _ =>
      rw [Step.state_after]
      exact ih (q := { q with timeOrder := some direction }) h

/-- A window is read as the predicate of its cursor, or not at all if it is refused. -/
lemma Reads.paginate {w : Page.Window} (h : q.Reads tss) :
    (q.paginate w).state.Reads (tss ++ cursorTokens w) := by
  have hresult := paginate_result q w
  rw [Query.paginate, Step.result_atomic] at hresult
  rw [Query.paginate, Step.state_atomic, hresult]
  cases hcheck : w.check with
  | error v =>
    rw [cursorTokens, hcheck]
    simpa [Except.toOption] using h
  | ok u => exact List.rel_append h (written_cursor hcheck)

/-- A call adds the predicates it is said to add, if there is a reading of a hand-written one. -/
lemma Reads.apply (hreading : IsReading raw) (h : q.Reads tss) (hk : k.Readable raw) :
    (q.apply k).Reads (tss ++ k.predicates raw) := by
  cases k with
  | filter f policy => exact h.filter
  | filterRaw condition => exact h.filterRaw hreading hk
  | paginate w => exact h.paginate
  | orderBy policy entries =>
    rw [Call.predicates, List.append_nil]
    · exact h.orderBy
    all_goals simp
  -- the other clauses have no predicates
  | select _ | groupByTag _ | groupByTime _ | fill _ | limit _ | offset _ | seriesLimit _
    | seriesOffset _ =>
    show Reads _ (tss ++ [])
    rw [List.append_nil]
    exact h

/-- The predicates of a run are read call by call. -/
lemma Reads.run {calls : List Call} (hreading : IsReading raw) (h : q.Reads tss)
    (hk : ∀ k ∈ calls, k.Readable raw) :
    (q.run calls).Reads (tss ++ calls.flatMap (Call.predicates raw)) := by
  induction calls generalizing q tss with
  | nil =>
    rw [List.flatMap_nil, List.append_nil]
    exact h
  | cons k calls ih =>
    rw [List.forall_mem_cons] at hk
    have hrest := ih (h.apply hreading hk.1) hk.2
    rw [List.flatMap_cons, ← List.append_assoc]
    exact hrest

/-- The projection of a statement; without items it is everything. -/
def projectionText (q : Query) : Except Violation String :=
  if q.items.isEmpty then .ok "*" else (q.items.mapM Item.text).map (", ".intercalate ·)

/-- How gaps are filled, if that is asked for. -/
def fillTexts (q : Query) : Except Violation (List String) :=
  match q.fill with
  | none => .ok []
  | some fill => fill.text.map ([·])

/-- The clauses behind the predicates. -/
def tailTexts (q : Query) : Except Violation (List String) :=
  q.tags.mapM safeName >>= fun tags => q.intervalTexts >>= fun intervals =>
    q.fillTexts >>= fun fill =>
      .ok ((if (intervals ++ tags).isEmpty then []
          else ["GROUP BY " ++ ", ".intercalate (intervals ++ tags)])
        ++ fill
        ++ (q.timeOrder.map fun d => "ORDER BY time " ++ d.name).toList
        ++ numberClause "LIMIT" q.limit ++ numberClause "OFFSET" q.offset
        ++ numberClause "SLIMIT" q.seriesLimit ++ numberClause "SOFFSET" q.seriesOffset)

/-- The predicates stand between the other clauses. -/
lemma clauses_eq (q : Query) :
    q.clauses = (q.projectionText >>= fun items => safeName q.measurement >>= fun measurement =>
      q.tailTexts >>= fun tail => .ok (["SELECT", items, "FROM " ++ measurement]
        ++ (if q.conditions.isEmpty then [] else ["WHERE " ++ " AND ".intercalate q.conditions])
        ++ tail)) := by
  -- each part that depends on a choice is taken apart by it, which leaves the same steps
  simp only [Query.clauses, projectionText, tailTexts, fillTexts, ok_bind, bind_assoc,
    List.append_assoc]
  cases hfill : q.fill <;> by_cases hitems : q.items.isEmpty <;> simp [hitems]

/-- A statement has a `WHERE` clause that is written as tokens, between its other clauses. -/
def Emits (q : Query) (out : String) (tss : List (List (Token String))) : Prop :=
  ∃ items measurement predicates tail, q.projectionText = .ok items ∧
    safeName q.measurement = .ok measurement ∧ q.tailTexts = .ok tail ∧
    Token.IsClause id "WHERE " tss predicates ∧
    out = " ".intercalate (["SELECT", items, "FROM " ++ measurement] ++ predicates ++ tail)

/-- The clauses of a statement are written as the predicates are read. -/
lemma Reads.emits {out : String} (h : q.Reads tss) (hout : q.statement = .ok out) :
    q.Emits out tss := by
  obtain ⟨cs, hcs, rfl⟩ := map_eq_ok.1 hout
  rw [clauses_eq] at hcs
  obtain ⟨items, hitems, hcs⟩ := bind_eq_ok.1 hcs
  obtain ⟨measurement, hmeasurement, hcs⟩ := bind_eq_ok.1 hcs
  obtain ⟨tail, htail, hcs⟩ := bind_eq_ok.1 hcs
  obtain rfl := Except.ok.inj hcs
  exact ⟨items, measurement, _, tail, hitems, hmeasurement, htail,
    Token.isClause_of_forall₂ h _, rfl⟩

/-- What is built is the statement. -/
lemma build_result (q : Query) : q.build.result = q.statement := by
  rw [Query.build, Traced.result_bind, Traced.result_ofExcept]
  cases q.statement with
  | error v => rfl
  | ok s => rfl

end Query

/-- The predicates of a filter are expressions, and parenthesized where they have an `OR`. -/
lemma of_mem_filterTokens {f : Filter} {policy : SkipPolicy} {ts : List (Token String)}
    (h : ts ∈ filterTokens f policy) : IsExpression ts ∧ Tight ts := by
  unfold filterTokens at h
  split at h
  · next k hk =>
    obtain ⟨k', hfull, rfl⟩ := exists_kept hk
    obtain ⟨part, hpart, rfl⟩ := List.mem_map.1 h
    exact ⟨Clause.isExpression_tokens (Clause.full_of_mem_parts (Clause.full_map hfull) hpart),
      part.tight_tokens⟩
  · cases h

/-- The predicate of a cursor is one condition, without any `OR`. -/
lemma of_mem_cursorTokens {w : Page.Window} {ts : List (Token String)}
    (h : ts ∈ cursorTokens w) : IsExpression ts ∧ Tight ts := by
  obtain ⟨cursor, -, rfl⟩ := List.mem_map.1 h
  exact ⟨fun v => rfl, rfl⟩

/-- No hand-written predicate that is accepted is read with an `OR` outside of parentheses. -/
def AllTight (raw : String → Option (List (Token String))) : Prop :=
  ∀ s ts, RawCondition.isAllowed s = true → raw s = some ts → Tight ts

/-- What a call adds is tight if the readings of accepted hand-written predicates are. -/
lemma Call.of_mem_predicates {k : Call} {ts : List (Token String)} (hreading : IsReading raw)
    (htight : AllTight raw) (h : ts ∈ k.predicates raw) : IsExpression ts ∧ Tight ts := by
  cases k with
  | filter f policy => exact of_mem_filterTokens h
  | filterRaw condition =>
    rw [predicates, Option.mem_toList, Option.bind_eq_some_iff] at h
    obtain ⟨s, hs, hts⟩ := h
    obtain ⟨hallowed, rfl⟩ := RawCondition.ensure_eq_ok_iff.1 (eq_ok_of_toOption hs)
    exact ⟨hreading.isExpression hts, htight s ts hallowed hts⟩
  | paginate w => exact of_mem_cursorTokens h
  | _ => cases h

/-- The quoted name of a field of letters. -/
lemma toList_quoteName_fieldOfLength (n : Nat) :
    (quoteName (Page.fieldOfLength n)).toList
      = '"' :: (List.replicate (n + 1) 'a' ++ ['"']) := by
  have hplain : (List.replicate (n + 1) 'a').flatMap (fun c => if c = '"' then ['\\', c] else [c])
      = List.replicate (n + 1) 'a' := by
    rw [List.flatMap_replicate]
    simp
  rw [quoteName, Page.fieldOfLength, String.toList_ofList, String.toList_ofList, hplain]
  rfl

/-- Cursors on fields of different lengths have different predicates. -/
lemma cursorPredicate_injective (lastId : Int64) :
    Function.Injective fun n => cursorPredicate ⟨Page.fieldOfLength n, lastId⟩ := by
  intro m n h
  have hlength := congrArg (fun s : String => s.toList.length) h
  simp only [cursorPredicate, String.toList_append, toList_quoteName_fieldOfLength,
    List.length_append, List.length_cons, List.length_replicate] at hlength
  omega

/-- A hand-written predicate that is not tight can stand behind a predicate that it does not
have. -/
lemma exists_calls_of_not_tight {s : String} {ts : List (Token String)}
    (hs : RawCondition.isAllowed s = true) (hts : raw s = some ts) :
    ∃ (a : String) (first second : Call), a ∉ Token.atoms ts ∧
      (∀ k ∈ [first, second], k.Readable raw) ∧
      first.predicates raw = [[.atom a]] ∧ second.predicates raw = [ts] := by
  obtain ⟨n, hn⟩ := Page.exists_fieldOfLength_not_mem
    (g := fun field => cursorPredicate ⟨field, 0⟩) (cursorPredicate_injective 0) (Token.atoms ts)
  refine ⟨cursorPredicate ⟨Page.fieldOfLength n, 0⟩,
    .paginate ⟨none, none, some ⟨Page.fieldOfLength n, 0⟩⟩, .filterRaw s, hn, ?_, ?_, ?_⟩
  · simp [Call.Readable, hts]
  · have hcheck : Page.Window.check ⟨none, none, some ⟨Page.fieldOfLength n, 0⟩⟩ = .ok () := by
      have hfield := Identifier.ensure_eq_ok_iff.2 ⟨Page.isProper_fieldOfLength n, rfl⟩
      simp only [Page.Window.check, hfield]
      rfl
    show cursorTokens _ = _
    rw [cursorTokens, hcheck]
    rfl
  · rw [Call.predicates, RawCondition.ensure_eq_ok_iff.2 ⟨hs, rfl⟩]
    simp [Except.toOption, hts]

/-- The clause is read as the conjunction of its predicates, whatever calls there are. -/
def Conjoins (raw : String → Option (List (Token String))) : Prop :=
  ∀ calls : List Call, (∀ k ∈ calls, k.Readable raw) →
    ReadsTogether (calls.flatMap (Call.predicates raw))

/-- More calls only narrow the clause. -/
def OnlyNarrows (raw : String → Option (List (Token String))) : Prop :=
  ∀ calls more : List Call, (∀ k ∈ calls ++ more, k.Readable raw) →
    Narrows (calls.flatMap (Call.predicates raw)) (more.flatMap (Call.predicates raw))

/-- Predicates are joined as a conjunction, and added ones only narrow it, exactly if hand-written
predicates are tight. -/
theorem conjunction_tfae (hreading : IsReading raw) :
    [Conjoins raw, OnlyNarrows raw, AllTight raw].TFAE := by
  tfae_have 3 → 1 := by
    intro htight calls _
    refine Token.value?_conjoin fun ts hts => ?_
    obtain ⟨k, -, hk⟩ := List.mem_flatMap.1 hts
    exact Call.of_mem_predicates hreading htight hk
  tfae_have 1 → 2 := by
    intro h calls more hreadable
    have hfirst := h calls fun k hk => hreadable k (List.mem_append_left more hk)
    have hall := h (calls ++ more) hreadable
    rw [List.flatMap_append] at hall
    exact hfirst.narrows hall
  tfae_have 2 → 3 := by
    intro h s ts hs hts
    by_contra hnot
    obtain ⟨a, first, second, ha, hreadable, hfirst, hsecond⟩ := exists_calls_of_not_tight hs hts
    have hnarrows := h [first] [second] hreadable
    rw [List.flatMap_singleton, List.flatMap_singleton, hfirst, hsecond] at hnarrows
    exact Token.not_narrows_of_not_tight (hreading.isExpression hts) hnot ha hnarrows
  tfae_finish

end ReadQuery.Influx
