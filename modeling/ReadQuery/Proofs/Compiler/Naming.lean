import ReadQuery.Proofs.Compiler.Violation
import ReadQuery.Proofs.FieldName

/-!
# Mentions of fields

A request mentions fields in the conditions of its filter, in the entries of its ordering and in its
projection. A dotted name is handed on as a whole or cut into a column and a path, depending on the
way in which it is written (`Names`); settings that ask for names in snake case change the whole
name but only the column of the other (`fieldRef_of_names`). So all mentions of a name come to the
same reference exactly if names are kept as they are, or the column has a name in snake case and the
path is in snake case already (`refersAlike_iff`).
-/

namespace ReadQuery

open Input (Expr)
open FieldName (snake)

namespace Filter

variable {rename : String → String}

mutual

/-- Renaming the fields of a filter renames those of its conditions. -/
lemma allConditions_mapFields : ∀ f : Filter, (f.mapFields rename).allConditions
    = f.allConditions.map fun c => { c with field := rename c.field }
  | ⟨junction, conditions, groups⟩ => by
    rw [mapFields, allConditions, allConditions, List.map_append, conditionsOfAll_mapFieldsAll]

/-- Renaming the fields of some filters renames those of their conditions. -/
lemma conditionsOfAll_mapFieldsAll : ∀ fs : List Filter,
    conditionsOfAll (mapFieldsAll rename fs)
      = (conditionsOfAll fs).map fun c => { c with field := rename c.field }
  | [] => rfl
  | f :: fs => by
    rw [mapFieldsAll, conditionsOfAll, conditionsOfAll, List.map_append, allConditions_mapFields,
      conditionsOfAll_mapFieldsAll]

end

end Filter

namespace Compiler

/-- A field name as configured. -/
def nameField (c : Compiler) (name : String) : String :=
  if c.config.normalizesFieldNames then snake name else name

variable {c : Compiler}

/-- Names are kept where no normal form is asked for. -/
lemma nameField_of_kept (h : c.config.normalizesFieldNames = false) (name : String) :
    c.nameField name = name := by
  rw [nameField, h, if_neg Bool.false_ne_true]

/-- Names are in snake case where that is asked for. -/
lemma nameField_of_normalized (h : c.config.normalizesFieldNames = true) (name : String) :
    c.nameField name = snake name :=
  if_pos h

/-- A place in which a field is mentioned. -/
inductive Mention where
  | condition (k : Condition)
  | entry (e : SortEntry)
  | field (name : String)

namespace Mention

/-- The reference that a mention is compiled to. -/
def fieldRef : Mention → Except SkipReason FieldRef
  | condition k => k.fieldRef
  | entry e => e.fieldRef
  | field name => (FieldRef.resolve name none).result

/-- The mention with its field name as configured. -/
def named (c : Compiler) : Mention → Mention
  | condition k => condition { k with field := c.nameField k.field }
  | entry e => entry { e with field := c.nameField e.field }
  | field name => field (c.nameField name)

end Mention

/-- The mentions of a request that has been read. -/
def Request.Mentions (r : Request) : Mention → Prop
  | .condition k => ∃ f, r.filter.resolve.result = .ok f ∧ k ∈ f.allConditions
  | .entry e => ∃ es, r.ordering.resolve = .ok es ∧ e ∈ es
  | .field name => name ∈ r.fields

/-- The mentions of a request that has been prepared. -/
def Prepared.Mentions (p : Prepared) : Mention → Prop
  | .condition k => k ∈ p.filter.allConditions
  | .entry e => e ∈ p.ordering
  | .field name => name ∈ p.fields

/-- A request whose filter and ordering can be read. -/
def Request.IsReadable (r : Request) : Prop :=
  (∃ f, r.filter.resolve.result = .ok f) ∧ ∃ es, r.ordering.resolve = .ok es

/-- A selection of a dotted name, or a part of the date in it. -/
inductive Selects (d : FieldRef) : Expr → Prop
  | select : Selects d (.select (d.column :: d.path))
  | part {name : String} {e : Expr} : Selects d e → Selects d (.call name [e])

/-- The mentions by which a request names a field. -/
inductive Names (d : FieldRef) (r : Request) : Mention → Prop
  /-- A key of a map payload. -/
  | key {and or : Option String} {key : String} {j : Json} {k : Condition}
      (payload : r.filter = .map and or)
      (condition : (Input.MapPayload.condition key j).result = .ok k)
      (field : (Input.MapPayload.Key.ofText key).field = d.dotted) : Names d r (.condition k)
  /-- A comparison in an expression. -/
  | selection {s name : String} {left : Expr} {right : List Expr} {k : Condition}
      (expression : r.filter = .expression s)
      (condition : Input.Expression.callCondition name (left :: right) = .ok k)
      (selects : Selects d left) : Names d r (.condition k)
  /-- A condition on the whole name. -/
  | whole {f : Filter} {k : Condition} (structured : r.filter = .structured f)
      (field : k.field = d.dotted) (path : k.jsonPath = none) : Names d r (.condition k)
  /-- A condition on the column with a path. -/
  | split {f : Filter} {k : Condition} (structured : r.filter = .structured f)
      (field : k.field = d.column) (path : k.jsonPath = some (".".intercalate d.path)) :
      Names d r (.condition k)
  | entry {e : SortEntry} (field : e.field = d.dotted) : Names d r (.entry e)
  | field : Names d r (.field d.dotted)

variable {d : FieldRef} {r : Request} {m : Mention} {p : Prepared}

/-- The conditions of a named filter are the named conditions. -/
lemma allConditions_nameFilter (c : Compiler) (f : Filter) :
    (c.nameFilter f).allConditions
      = f.allConditions.map fun k => { k with field := c.nameField k.field } := by
  unfold nameFilter nameField
  split
  · exact Filter.allConditions_mapFields f
  · exact (List.map_id _).symm

/-- The entries of an ordering are named one by one. -/
lemma nameEntries_eq_map (c : Compiler) (es : List SortEntry) :
    c.nameEntries es = es.map fun e => { e with field := c.nameField e.field } := by
  unfold nameEntries nameField
  split
  · rfl
  · exact (List.map_id _).symm

/-- Fields are named one by one. -/
lemma nameFields_eq_map (c : Compiler) (names : List String) :
    c.nameFields names = names.map c.nameField := by
  unfold nameFields
  split
  · next h => exact List.map_congr_left fun name _ => (if_pos h).symm
  · next h => exact (List.map_id'' (fun name => if_neg h) names).symm

/-- A readable request is prepared, and its mentions are kept under their configured names, except
fields that are no proper identifiers. -/
lemma exists_prepare_mentions (hr : r.IsReadable) (hm : r.Mentions m)
    (hproper : ∀ name, m = .field name → Identifier.isProper (c.nameField name) = true) :
    ∃ p, (c.prepare r).result = .ok p ∧ p.Mentions (m.named c) := by
  obtain ⟨⟨f, hf⟩, es, hes⟩ := hr
  refine ⟨_, by rw [prepare_result, hf, hes]; rfl, ?_⟩
  cases m with
  | condition k =>
    obtain ⟨f', hf', hk⟩ := hm
    obtain rfl := Except.ok.inj (hf'.symm.trans hf)
    show _ ∈ (c.nameFilter f').allConditions
    rw [allConditions_nameFilter]
    exact List.mem_map_of_mem hk
  | entry e =>
    obtain ⟨es', hes', he⟩ := hm
    obtain rfl := Except.ok.inj (hes'.symm.trans hes)
    have hdefault : SortEntry.orDefault es' c.defaultOrdering = es' := by
      rw [SortEntry.orDefault, if_neg (by simpa using List.ne_nil_of_mem he)]
    show _ ∈ c.nameEntries (SortEntry.orDefault es' c.defaultOrdering)
    rw [hdefault, nameEntries_eq_map]
    exact List.mem_map_of_mem he
  | field name =>
    show _ ∈ (c.nameFields r.fields).filter Identifier.isProper
    rw [nameFields_eq_map]
    exact List.mem_filter.2 ⟨List.mem_map_of_mem hm, hproper name rfl⟩

/-- A condition on a column with a path. -/
def IsSplit (d : FieldRef) (k : Condition) : Prop :=
  k.field = d.column ∧ k.jsonPath = some (".".intercalate d.path)

variable {k : Condition}

/-- The field of a key is cut at its first dot. -/
lemma isSplit_of_key (hd : d.IsDotted) {key : String} {j : Json}
    (hk : (Input.MapPayload.condition key j).result = .ok k)
    (hfield : (Input.MapPayload.Key.ofText key).field = d.dotted) : IsSplit d k := by
  have hsplit : ∀ v, IsSplit d ((Input.MapPayload.Key.ofText key).condition v) := by
    intro v
    rw [Input.MapPayload.Key.condition.eq_def, hfield, FieldRef.cut?_dotted hd]
    exact ⟨rfl, rfl⟩
  obtain ⟨v, rfl⟩ : ∃ v, k = (Input.MapPayload.Key.ofText key).condition v := by
    rw [Input.MapPayload.condition] at hk
    cases hv : Value.ofJson j with
    | error e =>
      rw [hv] at hk
      split at hk <;> cases hk
    | ok v =>
      rw [hv] at hk
      refine ⟨v, ?_⟩
      split at hk
      · exact (Except.ok.inj hk).symm
      · exact (Except.ok.inj hk).symm
  exact hsplit v

/-- A condition on a selection is split into its column and its path. -/
lemma isSplit_of_selects {e : Expr} (h : Selects d e) {op : Operator}
    (hk : Input.Expression.fieldReference op e = .ok k) : IsSplit d k := by
  induction h generalizing k with
  | select =>
    obtain rfl := Except.ok.inj hk
    exact ⟨rfl, rfl⟩
  | @part name e h ih =>
    unfold Input.Expression.fieldReference at hk
    cases hpart : DatePart.ofSpelling? name with
    | none =>
      rw [hpart] at hk
      cases hk
    | some part =>
      cases hinner : Input.Expression.fieldReference op e with
      | error err =>
        simp only [hpart, hinner] at hk
        cases hk
      | ok inner =>
        simp only [hpart, hinner] at hk
        split at hk
        · cases hk
        · obtain rfl := Except.ok.inj hk
          have hsplit : IsSplit d inner := ih hinner
          exact hsplit

/-- Operands change neither field nor path. -/
lemma isSplit_withOperands (h : IsSplit d k) {values : List Value} {k' : Condition}
    (hk : Input.Expression.withOperands k values = .ok k') : IsSplit d k' := by
  rw [Input.Expression.withOperands.eq_def] at hk
  split at hk
  case h_3 => cases hk
  all_goals
    obtain rfl := Except.ok.inj hk
    exact h

/-- A call on a selection is a condition on the column and the path. -/
lemma isSplit_of_selection {name : String} {left : Expr} {right : List Expr}
    (hk : Input.Expression.callCondition name (left :: right) = .ok k) (h : Selects d left) :
    IsSplit d k := by
  rw [Input.Expression.callCondition] at hk
  split at hk
  · cases hk
  · obtain ⟨c, hc, hk⟩ := bind_eq_ok.1 hk
    obtain ⟨values, -, hk⟩ := bind_eq_ok.1 hk
    exact isSplit_withOperands (isSplit_of_selects h hc) hk

/-- A mention of a name is one of the whole name or one of the column with the path. -/
lemma fieldRef_of_names (hd : d.IsDotted) (h : Names d r m) (c : Compiler) :
    (m.named c).fieldRef = (FieldRef.resolve (c.nameField d.dotted) none).result ∨
      (m.named c).fieldRef = (FieldRef.resolve (c.nameField d.column)
        (some (".".intercalate d.path))).result := by
  have hsplit : ∀ k, IsSplit d k → ((Mention.condition k).named c).fieldRef
      = (FieldRef.resolve (c.nameField d.column) (some (".".intercalate d.path))).result := by
    intro k hk
    rw [← hk.1, ← hk.2]
    rfl
  cases h with
  | key payload condition field => exact .inr (hsplit _ (isSplit_of_key hd condition field))
  | selection expression condition selects =>
    exact .inr (hsplit _ (isSplit_of_selection condition selects))
  | whole structured field path =>
    rw [← field, ← path]
    exact .inl rfl
  | split structured field path => exact .inr (hsplit _ ⟨field, path⟩)
  | entry field =>
    rw [← field]
    exact .inl rfl
  | field => exact .inl rfl

/-- All mentions of a name come to one reference. -/
def RefersAlike (c : Compiler) (d : FieldRef) : Prop :=
  ∃ f, ∀ (r : Request) (m : Mention), r.IsReadable → r.Mentions m → Names d r m →
    ∃ p, (c.prepare r).result = .ok p ∧ p.Mentions (m.named c) ∧ (m.named c).fieldRef = .ok f

/-- A request with one condition. -/
def Request.asking (k : Condition) : Request :=
  ⟨.structured (Filter.all [k]), .none, [], .whole⟩

/-- A request with one condition can be read, and it mentions the condition. -/
lemma Request.mentions_asking (k : Condition) :
    (asking k).IsReadable ∧ (asking k).Mentions (.condition k) := by
  have hmem : k ∈ (Filter.all [k]).allConditions := by
    simp [Filter.all, Filter.allConditions]
  exact ⟨⟨⟨_, rfl⟩, _, rfl⟩, _, rfl, hmem⟩

/-- Where names come to one reference, the whole name and the column with the path do. -/
lemma RefersAlike.whole_split (h : c.RefersAlike d) :
    ∃ f, (FieldRef.resolve (c.nameField d.dotted) none).result = .ok f ∧
      (FieldRef.resolve (c.nameField d.column) (some (".".intercalate d.path))).result
        = .ok f := by
  obtain ⟨f, h⟩ := h
  let k := Condition.single d.dotted (.compare .equals) (.int 1)
  let k' := (Condition.single d.column (.compare .equals) (.int 1)).atPath (".".intercalate d.path)
  obtain ⟨hreadable, hmentions⟩ := Request.mentions_asking k
  obtain ⟨hreadable', hmentions'⟩ := Request.mentions_asking k'
  obtain ⟨-, -, -, hwhole⟩ := h _ _ hreadable hmentions (.whole rfl rfl rfl)
  obtain ⟨-, -, -, hsplit⟩ := h _ _ hreadable' hmentions' (.split rfl rfl rfl)
  exact ⟨f, hwhole, hsplit⟩

/-- The column has a name in snake case, and the path is in snake case. -/
def KeepsPath (d : FieldRef) : Prop :=
  snake d.column ≠ "" ∧ d.path.map snake = d.path

/-- A dotted name is put into snake case segment by segment. -/
lemma snake_dotted (hd : d.IsDotted) :
    snake d.dotted = ".".intercalate (snake d.column :: d.path.map snake) :=
  FieldName.snake_intercalate (List.cons_ne_nil _ _) hd.isSegment

/-- A column in snake case with a path is dotted, unless nothing is left of it. -/
lemma isDotted_column (hd : d.IsDotted) (hne : snake d.column ≠ "") :
    FieldRef.IsDotted ⟨snake d.column, d.path⟩ := by
  obtain ⟨hcolumn, hpath⟩ := List.forall_mem_cons.1 hd.isSegment
  have hsnake := FieldName.isSegment_snake hcolumn.1 hcolumn.2
  exact ⟨hd.path_ne_nil, List.forall_mem_cons.2 ⟨⟨hsnake, hne⟩, hpath⟩⟩

/-- A whole name in snake case has the segments in snake case that something is left of. -/
lemma resolve_snake_dotted (hd : d.IsDotted) (hne : snake d.column ≠ "") :
    FieldRef.resolve (snake d.dotted) none
      = pure ⟨snake d.column, (d.path.map snake).filter (!·.isEmpty)⟩ := by
  have hsegments : ∀ s ∈ (d.column :: d.path).map snake, Identifier.IsSegment s := by
    intro s hs
    obtain ⟨t, ht, rfl⟩ := List.mem_map.1 hs
    exact FieldName.isSegment_snake (hd.isSegment t ht).1 (hd.isSegment t ht).2
  have hcolumn : (!(snake d.column).isEmpty) = true := by
    rw [Bool.not_eq_true', Bool.eq_false_iff]
    exact fun he => hne (String.isEmpty_iff.1 he)
  rw [snake_dotted hd]
  exact FieldRef.resolve_intercalate hsegments (List.filter_cons_of_pos hcolumn)

/-- A whole name in snake case and a column in snake case with the path as it is come to the same
only if the path is kept. -/
lemma keepsPath_of_resolve (hd : d.IsDotted) {f : FieldRef}
    (hwhole : (FieldRef.resolve (snake d.dotted) none).result = .ok f)
    (hsplit : (FieldRef.resolve (snake d.column) (some (".".intercalate d.path))).result = .ok f) :
    KeepsPath d := by
  have hcolumn : snake d.column ≠ "" := by
    intro he
    rw [he] at hsplit
    cases hsplit
  rw [resolve_snake_dotted hd hcolumn] at hwhole
  rw [FieldRef.resolve_column_path (isDotted_column hd hcolumn)] at hsplit
  have hpath : (d.path.map snake).filter (!·.isEmpty) = d.path :=
    congrArg FieldRef.path (Except.ok.inj (hwhole.trans hsplit.symm))
  -- nothing is left out, as the segments would be fewer then
  have hmapped : (d.path.map snake).length = d.path.length := List.length_map snake
  have hlength := congrArg List.length hpath
  rw [← hmapped, List.length_filter_eq_length_iff] at hlength
  rw [List.filter_eq_self.2 hlength] at hpath
  exact ⟨hcolumn, hpath⟩

/-- A dotted name that is kept, or whose path is kept, has a dotted name for its configured column
with the path and for its configured whole. -/
lemma exists_named (hd : d.IsDotted) (h : c.config.normalizesFieldNames = false ∨ KeepsPath d) :
    ∃ f : FieldRef, f.IsDotted ∧ c.nameField d.column = f.column ∧ d.path = f.path ∧
      c.nameField d.dotted = f.dotted := by
  cases hnormalizes : c.config.normalizesFieldNames with
  | false => exact ⟨d, hd, nameField_of_kept hnormalizes _, rfl, nameField_of_kept hnormalizes _⟩
  | true =>
    obtain ⟨hcolumn, hpath⟩ := h.resolve_left (by rw [hnormalizes]; decide)
    refine ⟨_, isDotted_column hd hcolumn, nameField_of_normalized hnormalizes _, rfl, ?_⟩
    rw [nameField_of_normalized hnormalizes, snake_dotted hd, hpath, FieldRef.dotted]

/-- If one dotted name serves for the column with the path and for the whole, then all mentions come
to it. -/
lemma refersAlike_of_named (hd : d.IsDotted) {f : FieldRef} (hf : f.IsDotted)
    (hcolumn : c.nameField d.column = f.column) (hpath : d.path = f.path)
    (hdotted : c.nameField d.dotted = f.dotted) : c.RefersAlike d := by
  refine ⟨f, fun r m hreadable hmentions hnames => ?_⟩
  have hproper : ∀ name, m = .field name → Identifier.isProper (c.nameField name) = true := by
    rintro name rfl
    cases hnames
    rw [hdotted]
    exact FieldRef.isProper_dotted hf
  obtain ⟨p, hp, hkept⟩ := exists_prepare_mentions hreadable hmentions hproper
  refine ⟨p, hp, hkept, ?_⟩
  obtain hwhole | hsplit := fieldRef_of_names hd hnames c
  · rw [hwhole, hdotted, FieldRef.resolve_dotted hf.isSegment]
    rfl
  · rw [hsplit, hcolumn, hpath, FieldRef.resolve_column_path hf]
    rfl

/-- All mentions of a dotted name come to one reference exactly if names are kept as they are, or
the name is one whose path snake case keeps. -/
theorem refersAlike_iff (c : Compiler) (hd : d.IsDotted) :
    c.RefersAlike d ↔ c.config.normalizesFieldNames = false ∨ KeepsPath d := by
  constructor
  · intro h
    obtain ⟨f, hwhole, hsplit⟩ := h.whole_split
    cases hnormalizes : c.config.normalizesFieldNames with
    | false => exact .inl rfl
    | true =>
      rw [nameField_of_normalized hnormalizes] at hwhole hsplit
      exact .inr (keepsPath_of_resolve hd hwhole hsplit)
  · intro h
    obtain ⟨f, hf, hcolumn, hpath, hdotted⟩ := exists_named hd h
    exact refersAlike_of_named hd hf hcolumn hpath hdotted

/-- The settings that ask for names in snake case. -/
def snakeConfig : Config :=
  { Config.default with normalizesFieldNames := true }

/-- The name `userMeta.home_address`. -/
def homeAddress : FieldRef :=
  ⟨"userMeta", ["home_address"]⟩

/-- A column need not be in snake case. -/
theorem refersAlike_iff_homeAddress :
    homeAddress.IsDotted ∧ (⟨snakeConfig, []⟩ : Compiler).RefersAlike homeAddress := by
  have hd : homeAddress.IsDotted := ⟨by decide, by decide⟩
  have hkeeps : KeepsPath homeAddress := ⟨by decide +kernel, by decide +kernel⟩
  exact ⟨hd, (refersAlike_iff _ hd).2 (.inr hkeeps)⟩

/-- Not every name is referred to alike under all accepted settings: with names in snake case the
inner segment of `userMeta.homeAddress` is changed in a whole name only. -/
theorem not_forall_refersAlike :
    ¬ ∀ (config : Config) (c : Compiler) (d : FieldRef), ofConfig config = .ok c →
      d.IsDotted → c.RefersAlike d := by
  intro h
  have hd : FieldRef.IsDotted ⟨"userMeta", ["homeAddress"]⟩ := ⟨by decide, by decide⟩
  have hc : ofConfig snakeConfig = .ok ⟨snakeConfig, []⟩ := rfl
  obtain ⟨f, hwhole, hsplit⟩ := (h _ _ _ hc hd).whole_split
  have hchanged : ["homeAddress"].map snake ≠ ["homeAddress"] := by decide +kernel
  exact hchanged (keepsPath_of_resolve hd hwhole hsplit).2

end Compiler

end ReadQuery
