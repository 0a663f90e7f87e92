import ReadQuery.Proofs.Sql.Calls
import ReadQuery.Proofs.Sql.Tree

/-!
# Statements and what they bind

What a builder of statements knows of the predicates that were added to it. The invariant
`Select.Weaves` says that the predicates of the `WHERE` clause are clean and woven from some
predicates whose values are the parameters, and that the ordering is neat. Every call that a read is
compiled with keeps it.

All clauses but those of the predicates are neat (`neat_headTexts`, `admits_tailTexts`). So the
statement is woven from the same predicates (`Weaves.statement`) and clean
(`Weaves.clean_statement`).
-/

namespace ReadQuery.Sql

open Placeholder

namespace Select

variable {d : Dialect} {s s' : Select d} {ps qs : List Predicate}

/-- A statement under construction without the clauses that no compiled read has. -/
structure IsRead (s : Select d) : Prop where
  prewhere : s.prewhere = []
  prewhereParams : s.prewhereParams = []
  sample : s.sample = none
  groupBy : s.groupBy = []
  limitBy : s.limitBy = none

/-- The predicates and the parameters of a read under construction come from `ps`, and its texts are
clean. -/
structure Weaves (s : Select d) (ps : List Predicate) : Prop extends IsRead s where
  conditions : Covers s.conditions ps
  clean : ∀ t ∈ s.conditions, d.Clean t.toList
  params : s.params = ps.flatMap (·.params)
  ordering : ∀ e ∈ s.ordering, Neat d e

/-- A new builder weaves no predicates. -/
lemma weaves_fromTable (table : String) : (fromTable table : Select d).Weaves [] where
  conditions := .nil
  clean := by simp [fromTable]
  params := rfl
  ordering := by simp [fromTable]
  prewhere := rfl
  prewhereParams := rfl
  sample := rfl
  groupBy := rfl
  limitBy := rfl

/-- Columns change nothing about the predicates. -/
lemma Weaves.addColumns (h : s.Weaves ps) (names : List String) : (s.addColumns names).Weaves ps :=
  { h with }

/-- Predicates that are covered are woven behind those that are there. -/
lemma Weaves.pushAll {rs : List Predicate} (h : s.Weaves ps) (hc : Covers (rs.map (·.sql)) qs)
    (hp : rs.flatMap (·.params) = qs.flatMap (·.params)) (hs : ∀ r ∈ rs, d.Clean r.sql.toList) :
    (s.pushAll rs).Weaves (ps ++ qs) := by
  rw [pushAll_eq]
  refine { h with conditions := h.conditions.append hc, clean := ?_, params := ?_ }
  · rw [List.forall_mem_append, List.forall_mem_map]
    exact ⟨h.clean, hs⟩
  · rw [List.flatMap_append, h.params, hp]

/-- The predicates of a filter's live conditions are woven in, in order. -/
lemma Weaves.filter {f : Filter} {policy : SkipPolicy} (h : s.Weaves ps)
    (hr : (s.filter f policy).toTraced.result = .ok s') :
    s'.Weaves (ps ++ f.liveConditions.filterMap (predicate? d)) := by
  rw [filter_result] at hr
  obtain rfl := SkipPolicy.of_settle_eq_ok hr
  rw [← fragments_ofClause?]
  exact h.pushAll (Tree.covers_entries fun _ hp => (sound_of_mem_fragments hp).binds)
    (Tree.params_entries _) (Tree.clean_entries fun _ hp => (sound_of_mem_fragments hp).clean)

/-- The entry of an ordering is a text of a field, in whatever class those are. -/
lemma admits_orderEntry {P : String → Prop} (hP : d.Admits P) {e : SortEntry} {entry : String}
    (h : orderEntry d e = .rendered entry) : P entry := by
  unfold orderEntry at h
  cases hf : e.fieldRef with
  | error reason => rw [hf] at h; cases h
  | ok f =>
    rw [hf] at h
    obtain rfl := Compiled.rendered.inj h
    have hspace : P (d.field f ++ " ") :=
      hP.append (hP.field (FieldRef.safe_of_resolve hf)) (hP.const rfl)
    cases e.direction with
    | ascending => exact hP.append hspace (hP.const rfl)
    | descending => exact hP.append hspace (hP.const rfl)

/-- An ordering changes nothing about the predicates. -/
lemma Weaves.orderBy {policy : SkipPolicy} {es : List SortEntry} (h : s.Weaves ps)
    (hr : (s.orderBy policy es).toTraced.result = .ok s') : s'.Weaves ps := by
  rw [orderBy_result] at hr
  obtain rfl := SkipPolicy.of_settle_eq_ok hr
  refine { h with ordering := ?_ }
  intro t ht
  rcases List.mem_append.1 ht with ht | ht
  · exact h.ordering t ht
  · obtain ⟨e, -, he⟩ := List.mem_filterMap.1 ht
    exact admits_orderEntry (admits_neat d) (Compiled.form?_eq_some.1 he)

/-- The predicate of a cursor binds its one value. -/
lemma sound_cursorPredicate {cursor : Page.Cursor} (h : Identifier.Plain cursor.field) :
    (cursorPredicate cursor).Sound d :=
  sound_of_tail " > ?" (q := .marked) (neat_of_plain h) rfl rfl (.const rfl)

/-- The predicate of a window's cursor is woven in behind the others. -/
lemma Weaves.paginate {w : Page.Window} (h : s.Weaves ps)
    (hr : (s.paginate w).toTraced.result = .ok s') :
    s'.Weaves (ps ++ w.after.toList.map cursorPredicate) := by
  rw [paginate_result] at hr
  obtain ⟨⟨⟩, hcheck, hr⟩ := bind_eq_ok.1 hr
  obtain rfl := Except.ok.inj hr
  have hsound : ∀ r ∈ w.after.toList.map cursorPredicate, r.Sound d := by
    cases hw : w.after with
    | none => simp
    | some cursor =>
      have hplain := Identifier.plain_of_isSafe (Identifier.isSafe_of_isProper
        (Page.Window.isProper_of_check hw hcheck))
      simpa using sound_cursorPredicate hplain
  have hc : Covers ((w.after.toList.map cursorPredicate).map (·.sql))
      (w.after.toList.map cursorPredicate) := by
    cases hw : w.after with
    | none => exact .nil
    | some cursor => exact .single fun _ => .single (hsound _ (by simp [hw])).binds
  have hp := h.pushAll hc rfl fun r hr => (hsound r hr).clean
  exact { hp with }

/-- A quoted name is a fragment. -/
lemma neat_quoteName (d : Dialect) {name : String} (h : Identifier.Plain name) :
    Neat d (d.quoteName name) := by
  have hdot : Neat d "." := .const rfl
  refine neat_intercalate hdot ?_
  intro t ht
  obtain ⟨piece, hpiece, rfl⟩ := List.mem_map.1 ht
  have hp : Neat d piece := by
    obtain ⟨cs, hcs, rfl⟩ := List.mem_map.1 hpiece
    refine neat_of_plain fun c hc => h c ?_
    rw [String.toList_ofList] at hc
    exact (Text.mem_of_mem_splitList hcs hc).1
  have hmark : Neat d d.quoteMark := by
    cases d <;> exact .const rfl
  exact .between hmark hp hmark

/-- Under the name of a nested field its segments are joined by underscores. -/
lemma plain_alias {f : FieldRef} (h : f.Safe) :
    Identifier.Plain ("_".intercalate (f.column :: f.path)) := by
  refine intercalate_induction (P := Identifier.Plain) (by simp [Identifier.Plain]) ?_ ?_
  · intro s t hs ht c hc
    simp only [String.toList_append, List.mem_append] at hc
    rcases hc with (hc | hc) | hc
    · exact hs c hc
    · obtain rfl := List.mem_singleton.1 hc
      decide
    · exact ht c hc
  · intro s hs
    rcases List.mem_cons.1 hs with rfl | hs
    · exact h.column
    · exact h.path s hs

/-- The text of a column is a fragment. -/
lemma neat_columnText {column t : String} (h : columnText d column = .ok t) : Neat d t := by
  unfold columnText at h
  split at h
  · cases h
  next f hf =>
  have hsafe := FieldRef.safe_of_resolve hf
  split at h
  · obtain rfl := Except.ok.inj h
    have has : Neat d " AS " := .const rfl
    exact ((neat_field d hsafe).append has).append (neat_quoteName d (plain_alias hsafe))
  · obtain rfl := Except.ok.inj h
    exact neat_of_plain hsafe.column

/-- A list of names is in the class that names are in. -/
lemma admits_namesText {P : String → Prop} (hP : d.Admits P) {names : List String} {t : String}
    (h : namesText names = .ok t) : P t := by
  obtain ⟨texts, hm, rfl⟩ := map_eq_ok.1 h
  refine hP.intercalate (hP.const rfl) (forall_of_mapM (fun name text hname => ?_) hm)
  obtain ⟨hproper, rfl⟩ := Identifier.ensure_eq_ok_iff.1 hname
  exact hP.plain (Identifier.plain_of_isSafe (Identifier.isSafe_of_isProper hproper))

/-- The limit and the offset are in the class that numbers are in. -/
lemma admits_limitAndOffset {P : String → Prop} (hP : d.Admits P) {limit offset : Option Int64}
    {t : String} (h : t ∈ d.limitAndOffset? limit offset) : P t := by
  have hnumber : ∀ (keyword : String), P keyword → ∀ i, P (keyword ++ Number.showInt64 i) :=
    fun _ hk i => hP.append hk (hP.showInt64 i)
  have hlimit := hnumber "LIMIT " (hP.const rfl)
  have hoffset := hnumber "OFFSET " (hP.const rfl)
  unfold Dialect.limitAndOffset? at h
  split at h
  · obtain rfl := Option.some.inj h
    have hmid : P " OFFSET " := hP.const rfl
    exact hP.append (hP.append (hlimit _) hmid) (hP.showInt64 _)
  · obtain rfl := Option.some.inj h
    exact hlimit _
  · obtain rfl := Option.some.inj h
    cases d with
    | postgres => exact hoffset _
    | clickHouse => exact hoffset _
    | mysql =>
      have hopen : P "LIMIT " := hP.const rfl
      have hmax : P (toString Number.maxInt64) := hP.toString 9223372036854775807
      have hspace : P " " := hP.const rfl
      exact hP.append (hP.append (hP.append hopen hmax) hspace) (hoffset _)
    | sqlite =>
      have hopen : P "LIMIT " := hP.const rfl
      have hspace : P " " := hP.const rfl
      have hall : P ("LIMIT " ++ "-1" ++ " ") :=
        hP.append (hP.append hopen (hP.negative 1)) hspace
      exact hP.append hall (hoffset _)
  · cases h

/-- A clause of the texts of a list, if there are any. -/
def clauseTexts (keyword sep : String) (items : List String) : List String :=
  if items.isEmpty then [] else [keyword ++ sep.intercalate items]

/-- A clause of texts that can all be rendered. -/
lemma clauseOf_ok (keyword sep : String) (items : List String) :
    clauseOf items (.ok (keyword ++ sep.intercalate items))
      = .ok (clauseTexts keyword sep items) := by
  cases items <;> rfl

/-- The projection of a statement; without columns it is everything. -/
def projectionText (s : Select d) : Except Violation String :=
  if s.columns.isEmpty then .ok "*" else columnsText d s.columns

/-- The sampling of a statement, if there is any. -/
def sampleTexts (s : Select d) : Except Violation (List String) :=
  match s.sample with
  | none => .ok []
  | some ratio => (sampleText ratio).map ([·])

/-- The limit for each group of a statement, if there is any. -/
def limitByTexts (s : Select d) : Except Violation (List String) :=
  match s.limitBy with
  | none => .ok []
  | some (limit, names) => (namesText names).map fun names =>
    ["LIMIT " ++ Number.showInt64 limit ++ " BY " ++ names]

/-- The clauses in front of the predicates. -/
def headTexts (s : Select d) : Except Violation (List String) :=
  s.projectionText >>= fun columns => Identifier.ensure s.table >>= fun table =>
    s.sampleTexts >>= fun sample =>
      .ok (["SELECT", columns, "FROM " ++ table] ++ (if s.isFinal then ["FINAL"] else []) ++ sample)

/-- The clauses behind the predicates. -/
def tailTexts (s : Select d) : Except Violation (List String) :=
  clauseOf s.groupBy ((namesText s.groupBy).map ("GROUP BY " ++ ·)) >>= fun groups =>
    s.limitByTexts >>= fun limitBy =>
      .ok (groups ++ clauseTexts "ORDER BY " ", " s.ordering ++ limitBy
        ++ (d.limitAndOffset? s.limit s.offset).toList)

/-- The predicates stand between the other clauses. -/
lemma clauses_eq (s : Select d) :
    s.clauses = (s.headTexts >>= fun head => s.tailTexts >>= fun tail =>
      .ok (head ++ clauseTexts "PREWHERE " " AND " s.prewhere
        ++ clauseTexts "WHERE " " AND " s.conditions ++ tail)) := by
  -- each part that depends on a choice is taken apart by it, which leaves the same steps
  simp only [Select.clauses, headTexts, tailTexts, projectionText, sampleTexts, limitByTexts,
    conjunction, clauseOf_ok, ok_bind, bind_assoc, List.append_assoc]
  cases hsample : s.sample <;> cases hlimit : s.limitBy <;>
    by_cases hcolumns : s.columns.isEmpty <;> simp [hcolumns]

/-- A column with a proper name can be rendered. -/
lemma exists_columnText {column : String} (h : Identifier.isProper column = true) :
    ∃ text, columnText d column = .ok text := by
  obtain ⟨f, hf⟩ := FieldRef.exists_resolve h
  unfold columnText
  rw [hf]
  by_cases hn : f.isNested
  · exact ⟨_, if_pos hn⟩
  · exact ⟨_, if_neg hn⟩

/-- Columns with proper names can be rendered. -/
lemma exists_projectionText (hc : ∀ column ∈ s.columns, Identifier.isProper column = true) :
    ∃ text, s.projectionText = .ok text := by
  obtain ⟨texts, htexts⟩ := exists_mapM_eq_ok fun column hcolumn =>
    exists_columnText (d := d) (hc column hcolumn)
  unfold projectionText
  split
  · exact ⟨_, rfl⟩
  · exact ⟨", ".intercalate texts, by rw [columnsText, htexts]; rfl⟩

/-- The statement of a read depends on its projection and its table being in order only. -/
lemma IsRead.exists_statement (h : s.IsRead) (ht : Identifier.isProper s.table = true)
    (hc : ∀ column ∈ s.columns, Identifier.isProper column = true) :
    ∃ out, s.statement = .ok out := by
  obtain ⟨text, htext⟩ := exists_projectionText hc
  have htable := Identifier.ensure_eq_ok_iff.2 ⟨ht, rfl⟩
  simp only [Select.statement, clauses_eq, headTexts, tailTexts, sampleTexts, limitByTexts, htext,
    htable, h.sample, h.groupBy, h.limitBy, ok_bind]
  exact ⟨_, rfl⟩

/-- The projection is a fragment. -/
lemma neat_projectionText {t : String} (h : s.projectionText = .ok t) : Neat d t := by
  unfold projectionText at h
  split at h
  · obtain rfl := Except.ok.inj h
    exact .const rfl
  · obtain ⟨texts, hm, rfl⟩ := map_eq_ok.1 h
    have hcomma : Neat d ", " := .const rfl
    exact neat_intercalate hcomma (forall_of_mapM (fun _ _ => neat_columnText) hm)

/-- Positional notation starts with a digit, and has no other character with a meaning. -/
lemma positionalText_eq_cons {digits : List Char} (hne : digits ≠ [])
    (hd : ∀ c ∈ digits, c.isDigit = true) (whole : Int) :
    ∃ c cs, Number.positionalText digits whole false = c :: cs ∧ c.isDigit = true ∧
      ∀ x ∈ cs, isPlainChar x = true := by
  have hplain : ∀ c ∈ digits, isPlainChar c = true := fun c hc => isPlainChar_of_isDigit (hd c hc)
  have hzeros : ∀ n, ∀ c ∈ List.replicate n '0', isPlainChar c = true := fun n c hc => by
    obtain rfl := List.eq_of_mem_replicate hc
    rfl
  obtain ⟨c, cs, rfl⟩ := List.exists_cons_of_ne_nil hne
  rw [List.forall_mem_cons] at hplain
  have hc : c.isDigit = true := hd c (by simp)
  unfold Number.positionalText
  split
  · -- the point comes first, behind a zero
    refine ⟨'0', '.' :: (List.replicate (-whole).toNat '0' ++ c :: cs), by simp, rfl, ?_⟩
    simp only [List.forall_mem_append, List.forall_mem_cons]
    exact ⟨rfl, hzeros _, hplain⟩
  next hwhole =>
  split
  · -- a whole number, filled up with zeros
    refine ⟨c, cs ++ List.replicate (whole.toNat - (c :: cs).length) '0', by simp, hc, ?_⟩
    rw [List.forall_mem_append]
    exact ⟨hplain.2, hzeros _⟩
  · -- the point stands between the digits
    obtain ⟨n, hn⟩ : ∃ n, whole.toNat = n + 1 := ⟨whole.toNat - 1, by omega⟩
    rw [hn, List.take_succ_cons, List.drop_succ_cons, List.cons_append]
    refine ⟨c, cs.take n ++ '.' :: cs.drop n, rfl, hc, ?_⟩
    simp only [List.forall_mem_append, List.forall_mem_cons]
    exact ⟨fun x hx => hplain.2 x (List.mem_of_mem_take hx), rfl,
      fun x hx => hplain.2 x (List.mem_of_mem_drop hx)⟩

/-- A minus in front of a text that starts with a digit. -/
lemma neat_signed (negative : Bool) {c : Char} {cs : List Char} (hc : c.isDigit = true)
    (hcs : ∀ x ∈ cs, isPlainChar x = true) :
    Neat d (String.ofList ((if negative then ['-'] else []) ++ c :: cs)) := by
  have hall : ∀ x ∈ c :: cs, isPlainChar x = true := by
    rw [List.forall_mem_cons]
    exact ⟨isPlainChar_of_isDigit hc, hcs⟩
  cases negative with
  | false => exact neat_of_plainChars (by simpa using hall)
  | true =>
    have hbody : Neat d (String.ofList (c :: cs)) := neat_of_plainChars (by simpa using hall)
    have hinert : Inert ("-" ++ String.ofList (c :: cs)) := Inert.append rfl hbody.inert
    have hclean : d.Clean ('-' :: c :: cs) :=
      .minus hc (.of_free fun x hx => (isPlainChar_iff.1 (hcs x hx)).1)
    exact ⟨by simpa [Inert] using hinert, by simpa using hclean⟩

/-- The sampling is a fragment. -/
lemma neat_sampleText {ratio : Number.Double} {t : String} (h : sampleText ratio = .ok t) :
    Neat d t := by
  unfold sampleText at h
  by_cases hfinite : ratio.isFinite = true
  · simp only [hfinite, if_true] at h
    obtain rfl := Except.ok.inj h
    have hkeyword : Neat d "SAMPLE " := .const rfl
    refine hkeyword.append ?_
    unfold Number.Layout.text
    split
    · exact .const rfl
    · have hdigits : ∀ c ∈ Nat.toDigits 10 (ratio.shortest .up).digits, c.isDigit = true :=
        fun c hc => Nat.isDigit_of_mem_toDigits (by decide) (by decide) hc
      obtain ⟨c, cs, htext, hc, hcs⟩ := positionalText_eq_cons Nat.toDigits_ne_nil hdigits
        ((ratio.shortest .up).exponent + (Nat.toDigits 10 (ratio.shortest .up).digits).length
          - 1 + 1)
      have hsigned := neat_signed (d := d) ratio.isNegative hc hcs
      rw [← htext] at hsigned
      simpa [hfinite, Number.Layout.magnitudeText, Number.Layout.plain] using hsigned
  · simp [hfinite] at h

/-- The clauses in front of the predicates are neat. -/
lemma neat_headTexts {ts : List String} (h : s.headTexts = .ok ts) : ∀ t ∈ ts, Neat d t := by
  obtain ⟨columns, hcolumns, h⟩ := bind_eq_ok.1 h
  obtain ⟨table, htable, h⟩ := bind_eq_ok.1 h
  obtain ⟨sample, hsample, h⟩ := bind_eq_ok.1 h
  obtain rfl := Except.ok.inj h
  obtain ⟨hproper, rfl⟩ := Identifier.ensure_eq_ok_iff.1 htable
  have hselect : Neat d "SELECT" := .const rfl
  have hfrom : Neat d "FROM " := .const rfl
  have hname : Neat d s.table :=
    neat_of_plain (Identifier.plain_of_isSafe (Identifier.isSafe_of_isProper hproper))
  have hfinal : ∀ t ∈ if s.isFinal then ["FINAL"] else [], Neat d t := by
    split
    · simpa using (Neat.const rfl : Neat d "FINAL")
    · simp
  have htexts : ∀ t ∈ sample, Neat d t := by
    unfold sampleTexts at hsample
    split at hsample
    · obtain rfl := Except.ok.inj hsample
      simp
    · obtain ⟨text, htext, rfl⟩ := map_eq_ok.1 hsample
      simpa using neat_sampleText htext
  simp only [List.forall_mem_append, List.forall_mem_cons]
  exact ⟨⟨⟨hselect, neat_projectionText hcolumns, hfrom.append hname, by simp⟩, hfinal⟩, htexts⟩

/-- The clauses behind the predicates are of a class of texts if the ordering is. -/
lemma admits_tailTexts {P : String → Prop} (hP : d.Admits P) {ts : List String}
    (ho : ∀ e ∈ s.ordering, P e) (h : s.tailTexts = .ok ts) : ∀ t ∈ ts, P t := by
  obtain ⟨groups, hgroups, h⟩ := bind_eq_ok.1 h
  obtain ⟨limitBy, hlimitBy, h⟩ := bind_eq_ok.1 h
  obtain rfl := Except.ok.inj h
  have hgroup : ∀ t ∈ groups, P t := by
    unfold clauseOf at hgroups
    split at hgroups
    · obtain rfl := Except.ok.inj hgroups
      simp
    · obtain ⟨text, htext, rfl⟩ := map_eq_ok.1 hgroups
      obtain ⟨names, hnames, rfl⟩ := map_eq_ok.1 htext
      have hkeyword : P "GROUP BY " := hP.const rfl
      simpa using hP.append hkeyword (admits_namesText hP hnames)
  have hlimit : ∀ t ∈ limitBy, P t := by
    unfold limitByTexts at hlimitBy
    split at hlimitBy
    · obtain rfl := Except.ok.inj hlimitBy
      simp
    · next limit _ _ =>
      obtain ⟨names, hnames, rfl⟩ := map_eq_ok.1 hlimitBy
      have hkeyword : P "LIMIT " := hP.const rfl
      have hby : P " BY " := hP.const rfl
      have hnumber := hP.append (hP.append hkeyword (hP.showInt64 limit)) hby
      simpa using hP.append hnumber (admits_namesText hP hnames)
  have hordering : ∀ t ∈ clauseTexts "ORDER BY " ", " s.ordering, P t := by
    unfold clauseTexts
    split
    · simp
    · have hkeyword : P "ORDER BY " := hP.const rfl
      simpa using hP.append hkeyword (hP.intercalate (hP.const rfl) ho)
  have hbounds : ∀ t ∈ (d.limitAndOffset? s.limit s.offset).toList, P t :=
    fun t ht => admits_limitAndOffset hP (Option.mem_toList.1 ht)
  simp only [List.forall_mem_append]
  exact ⟨⟨⟨hgroup, hordering⟩, hlimit⟩, hbounds⟩

/-- A clause covers what its texts cover. -/
lemma covers_clauseTexts {keyword sep : String} {items : List String} (hk : Inert keyword)
    (hsep : Inert sep) (hne : ∃ c, sep.toList.head? = some c ∧ c.isDigit = false)
    (hc : Covers items ps) : Covers (clauseTexts keyword sep items) ps := by
  unfold clauseTexts
  split
  · next hi =>
    rw [List.isEmpty_iff] at hi
    subst hi
    exact hc
  · refine .single fun n => ?_
    rw [String.toList_append]
    exact (hc.intercalate hsep hne n).prepend hk

/-- The clauses of a statement with a neat ordering. -/
lemma exists_clauses {cs : List String} (ho : ∀ e ∈ s.ordering, Neat d e)
    (hs : s.clauses = .ok cs) :
    ∃ head tail, cs = head ++ clauseTexts "PREWHERE " " AND " s.prewhere
        ++ clauseTexts "WHERE " " AND " s.conditions ++ tail ∧
      (∀ t ∈ head, Neat d t) ∧ ∀ t ∈ tail, Neat d t := by
  rw [clauses_eq] at hs
  obtain ⟨head, hhead, hs⟩ := bind_eq_ok.1 hs
  obtain ⟨tail, htail, hs⟩ := bind_eq_ok.1 hs
  obtain rfl := Except.ok.inj hs
  exact ⟨head, tail, rfl, neat_headTexts hhead, admits_tailTexts (admits_neat d) ho htail⟩

/-- The clauses of a statement are woven from its predicates. -/
lemma Weaves.covers_clauses {cs : List String} (h : s.Weaves ps) (hs : s.clauses = .ok cs) :
    Covers cs ps := by
  obtain ⟨head, tail, rfl, hhead, htail⟩ := exists_clauses h.ordering hs
  have hwhere : Inert "WHERE " := rfl
  have hand : Inert " AND " := rfl
  have hpredicates : Covers (clauseTexts "WHERE " " AND " s.conditions) ps :=
    covers_clauseTexts hwhere hand ⟨' ', rfl, rfl⟩ h.conditions
  -- only the `WHERE` clause has placeholders, so that it does not matter where it stands
  have hbefore := covers_of_inert fun t ht => (hhead t ht).inert
  have hbehind := covers_of_inert fun t ht => (htail t ht).inert
  rw [h.prewhere]
  have hall := (hbefore.append hpredicates).append hbehind
  simpa [clauseTexts] using hall

/-- The clauses of a statement are clean. -/
lemma Weaves.clean_clauses {cs : List String} (h : s.Weaves ps) (hs : s.clauses = .ok cs) :
    ∀ t ∈ cs, d.Clean t.toList := by
  obtain ⟨head, tail, rfl, hhead, htail⟩ := exists_clauses h.ordering hs
  have hwhere : Neat d "WHERE " := .const rfl
  have hand : Neat d " AND " := .const rfl
  have hpredicates : ∀ t ∈ clauseTexts "WHERE " " AND " s.conditions, d.Clean t.toList := by
    unfold clauseTexts
    split
    · simp
    · simpa using hwhere.clean.append (clean_intercalate hand.clean h.clean)
  have hnone : ∀ t ∈ clauseTexts "PREWHERE " " AND " s.prewhere, d.Clean t.toList := by
    simp [h.prewhere, clauseTexts]
  simp only [List.forall_mem_append]
  exact ⟨⟨⟨fun t ht => (hhead t ht).clean, hnone⟩, hpredicates⟩, fun t ht => (htail t ht).clean⟩

end Select

/-- The form of a fragment in the statement, behind a number of placeholders. -/
def Dialect.written : Dialect → Nat → List Char → List Char
  | .postgres => asLabels
  | .mysql | .sqlite | .clickHouse => asMarks

/-- The placeholders of a statement: labels in order, or question marks, one for each value. -/
def Dialect.HasPlaceholders (d : Dialect) (sql : String) (n : Nat) : Prop :=
  match d with
  | .postgres => Placeholder.labels sql = (List.range n).map (fun i => "$" ++ toString (i + 1))
      ∧ Placeholder.count sql = 0
  | .mysql | .sqlite | .clickHouse => Placeholder.labels sql = [] ∧ Placeholder.count sql = n

/-- In PostgreSQL the placeholders of a scanned text become labels in order. -/
lemma labels_placeholders {s : String} {q : Place} {n : Nat}
    (h : scan .bare s.toList = some (q, n)) :
    Placeholder.labels (Dialect.postgres.placeholders s)
      = (List.range n).map fun i => "$" ++ toString (i + 1) := by
  have hl := labelsFrom_numberFrom h 0
  simpa [Placeholder.labels, Dialect.placeholders, Placeholder.number] using hl

/-- In PostgreSQL no question mark is left. -/
lemma count_placeholders (s : String) :
    Placeholder.count (Dialect.postgres.placeholders s) = 0 := by
  have hplain : ∀ c ∈ ['$'], c ≠ '\'' ∧ c ≠ '?' := by simp
  have hc := countFrom_numberFrom hplain false 0 s.toList
  simpa [Placeholder.count, Dialect.placeholders, Placeholder.number] using hc

/-- A woven text has the placeholders of its predicates once they have the form of the dialect. -/
lemma hasPlaceholders_of_woven (d : Dialect) {ps : List Predicate} {sql : String}
    (h : Woven asMarks 0 ps sql.toList) :
    d.HasPlaceholders (d.placeholders sql) (boundCount ps) := by
  obtain ⟨q, hq, hs⟩ := h.scan
  have hmarks : Placeholder.labels sql = [] ∧ Placeholder.count sql = boundCount ps :=
    ⟨labelsFrom_of_scan hs, (counts_of_scan hs).1⟩
  cases d with
  | postgres => exact ⟨labels_placeholders hs, count_placeholders sql⟩
  | mysql => exact hmarks
  | sqlite => exact hmarks
  | clickHouse => exact hmarks

/-- A woven text is woven from fragments in the form of the dialect once its placeholders have
it. -/
lemma woven_placeholders (d : Dialect) {ps : List Predicate} {sql : String}
    (h : Woven asMarks 0 ps sql.toList) : Woven d.written 0 ps (d.placeholders sql).toList := by
  cases d with
  | postgres =>
    have hl := h.number
    simpa [asLabels, Dialect.written, Dialect.placeholders, Placeholder.number] using hl
  | mysql => exact h
  | sqlite => exact h
  | clickHouse => exact h

/-- A statement binds the values of its predicates in order, each one at its own placeholder. -/
theorem Select.Weaves.statement {d : Dialect} {s : Select d} {ps : List Predicate}
    {out : Predicate} (h : s.Weaves ps) (hs : s.statement = .ok out) :
    out.params = ps.flatMap (·.params) ∧ Woven d.written 0 ps out.sql.toList ∧
      d.HasPlaceholders out.sql out.params.length := by
  obtain ⟨cs, hcs, rfl⟩ := map_eq_ok.1 hs
  have hspace : Inert " " := rfl
  have hw := (h.covers_clauses hcs).intercalate hspace ⟨' ', rfl, rfl⟩ 0
  have hp : s.prewhereParams ++ s.params = ps.flatMap (·.params) := by
    rw [h.prewhereParams, h.params, List.nil_append]
  refine ⟨hp, woven_placeholders d hw, ?_⟩
  simp only [hp]
  exact hasPlaceholders_of_woven d hw

/-- The text of a statement is clean, also once its placeholders have the form of the dialect. -/
theorem Select.Weaves.clean_statement {d : Dialect} {s : Select d} {ps : List Predicate}
    {out : Predicate} (h : s.Weaves ps) (hs : s.statement = .ok out) :
    d.Clean out.sql.toList := by
  obtain ⟨cs, hcs, rfl⟩ := map_eq_ok.1 hs
  have hspace : Neat d " " := .const rfl
  have hclean := clean_intercalate hspace.clean (h.clean_clauses hcs)
  cases d with
  | postgres => simpa [Dialect.placeholders, Placeholder.number] using hclean.number 0
  | mysql => exact hclean
  | sqlite => exact hclean
  | clickHouse => exact hclean

end ReadQuery.Sql
