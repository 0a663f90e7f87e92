import Mathlib.Tactic.TFAE
import ReadQuery.Mongo.Query
import ReadQuery.Proofs.Mongo.Document
import ReadQuery.Proofs.Mongo.Expression
import ReadQuery.Proofs.Outcome
import ReadQuery.Proofs.Text

/-!
# Keys of groups

A query groups by the entries of a document, in which every key stands under its name with
underscores for dots (`groupKey_eq`). Documents fall into the same group if the entries have the
same values (`SameGroup`).

Two keys with the same name are one entry, which has the last of them. So the stage refers to every
key, and groups by every key, exactly if no two keys differ in dots and underscores only
(`groupBy_keys_tfae`).
-/

namespace ReadQuery.Mongo

open Bson (evalEntries)

/-- The characters of a key with underscores for its dots. -/
def undotted (key : String) : List Char :=
  key.toList.map fun c => if c = '.' then '_' else c

/-- Keys of which no two differ in dots and underscores only. -/
def ToldApart (keys : List String) : Prop :=
  ∀ k ∈ keys, ∀ k' ∈ keys, undotted k = undotted k' → k = k'

/-- The document that documents are grouped by. -/
def groupId (keys : List String) : Document :=
  Document.insertAll [] (keys.map Query.groupKey)

/-- Documents in whose contents the entries of `_id` have the same values. -/
def SameGroup (id : Document) (x y : Context) : Prop :=
  evalEntries x id = evalEntries y id

variable {keys : List String} {key key' : String} {x y : Context}

/-- A key stands under its name with underscores for dots and is referred to. -/
lemma groupKey_eq (key : String) :
    Query.groupKey key = (String.ofList (undotted key), .string ("$" ++ key)) := by
  have hname : "_".intercalate (Text.split '.' key) = String.ofList (undotted key) := by
    have hpieces : (Text.split '.' key).map String.toList = Text.splitList '.' key.toList := by
      simp [Text.split]
    have htext : (String.ofList (undotted key)).toList = undotted key := String.toList_ofList
    apply String.toList_inj.1
    rw [String.toList_intercalate, hpieces, htext]
    exact Text.intercalate_splitList_eq_map '_' '.' key.toList
  rw [Query.groupKey, hname]

/-- A key of a group is read off its entry. -/
lemma groupKey_injective (h : Query.groupKey key = Query.groupKey key') : key = key' := by
  have hreference : Bson.string ("$" ++ key) = .string ("$" ++ key') := (Prod.mk.inj h).2
  simpa using hreference

/-- No two entries of a group have the same key. -/
lemma nodup_groupId (keys : List String) : ((groupId keys).map (·.1)).Nodup :=
  Document.nodup_insertAll _ List.nodup_nil

/-- The entries refer to keys. -/
lemma exists_of_mem_groupId {e : String × Bson} (h : e ∈ groupId keys) :
    ∃ key ∈ keys, e = Query.groupKey key := by
  obtain ⟨key, hkey, rfl⟩ := List.mem_map.1 (Document.mem_of_mem_insertAll_nil h)
  exact ⟨key, hkey, rfl⟩

/-- Of the keys with a name, the entry refers to the last one. -/
lemma lookup_groupId (keys : List String) (name : String) :
    (groupId keys).lookup name
      = (keys.reverse.find? fun k => String.ofList (undotted k) == name).map
          fun k => Bson.string ("$" ++ k) := by
  rw [groupId, Document.lookup_insertAll, List.lookup_nil, Option.or_none, ← List.map_reverse]
  induction keys.reverse with
  | nil => rfl
  | cons k ks ih =>
    rw [List.map_cons, groupKey_eq, lookup_cons_ite, List.find?_cons, ih]
    by_cases hk : name = String.ofList (undotted k)
    · rw [if_pos hk, hk, beq_self_eq_true]
      rfl
    · rw [if_neg hk, beq_eq_false_iff_ne.2 (Ne.symm hk)]

/-- What is found in a document is in it. -/
lemma mem_of_lookup_eq_some {d : Document} {name : String} {value : Bson}
    (h : d.lookup name = some value) : (name, value) ∈ d := by
  obtain ⟨before, after, rfl, -⟩ := List.lookup_eq_some_iff.1 h
  exact List.mem_append_right _ List.mem_cons_self

/-- Keys that are told apart have an entry each. -/
lemma mem_groupId_of_toldApart (h : ToldApart keys) (hkey : key ∈ keys) :
    Query.groupKey key ∈ groupId keys := by
  rw [groupKey_eq]
  apply mem_of_lookup_eq_some
  rw [lookup_groupId]
  cases hfind : keys.reverse.find? fun k => String.ofList (undotted k)
      == String.ofList (undotted key) with
  | none =>
    have hnone := List.find?_eq_none.1 hfind key (List.mem_reverse.2 hkey)
    rw [beq_self_eq_true] at hnone
    exact absurd rfl hnone
  | some k =>
    have hname : undotted k = undotted key := by
      have heq := List.find?_some hfind
      exact String.ofList_inj.1 (eq_of_beq heq)
    have hmem : k ∈ keys := List.mem_reverse.1 (List.mem_of_find?_eq_some hfind)
    rw [h k hmem key hkey hname]
    rfl

/-- Of two keys with the same name at most one has an entry. -/
lemma eq_of_mem_groupId (hk : Query.groupKey key ∈ groupId keys)
    (hk' : Query.groupKey key' ∈ groupId keys) (hname : undotted key = undotted key') :
    key = key' := by
  apply groupKey_injective
  apply List.inj_on_of_nodup_map (nodup_groupId keys) hk hk'
  rw [groupKey_eq, groupKey_eq, hname]

/-- The value of an entry is the content of its key. -/
lemma eval_groupKey (x : Context) (key : String) :
    (Query.groupKey key).2.eval x = x.content ("$" ++ key) := by
  have href : isReference ("$" ++ key) = true := by simp [isReference]
  rw [Query.groupKey, Bson.eval, if_pos href]

/-- Groups have the same values if each of their entries has. -/
lemma evalEntries_eq_iff {id : Document} :
    evalEntries x id = evalEntries y id ↔ ∀ e ∈ id, e.2.eval x = e.2.eval y := by
  induction id with
  | nil => exact ⟨fun _ => nofun, fun _ => rfl⟩
  | cons e id ih =>
    obtain ⟨name, b⟩ := e
    rw [evalEntries, evalEntries, List.cons.injEq, Prod.mk.injEq, ih, List.forall_mem_cons]
    simp

/-- Documents fall into the same group if they agree on the keys that have an entry. -/
lemma sameGroup_iff : SameGroup (groupId keys) x y ↔
    ∀ key ∈ keys, Query.groupKey key ∈ groupId keys →
      x.content ("$" ++ key) = y.content ("$" ++ key) := by
  rw [SameGroup, evalEntries_eq_iff]
  constructor
  · intro h key _ hmem
    rw [← eval_groupKey, ← eval_groupKey]
    exact h _ hmem
  · intro h e he
    obtain ⟨key, hkey, rfl⟩ := exists_of_mem_groupId he
    rw [eval_groupKey, eval_groupKey]
    exact h key hkey he

/-- Documents that differ in a key without an entry only fall into the same group. -/
lemma exists_sameGroup_of_not_mem (h : Query.groupKey key ∉ groupId keys) :
    ∃ x y : Context, SameGroup (groupId keys) x y ∧
      x.content ("$" ++ key) ≠ y.content ("$" ++ key) := by
  let x : Context := ⟨fun _ => .bool false, fun _ => .null⟩
  let y : Context := ⟨fun s => .bool (s == "$" ++ key), fun _ => .null⟩
  refine ⟨x, y, ?_, by simp [x, y]⟩
  rw [sameGroup_iff]
  intro key' _ hmem
  have hne : ("$" ++ key') ≠ "$" ++ key := by
    intro heq
    rw [(String.append_right_inj "$").1 heq] at hmem
    exact h hmem
  exact congrArg Bson.bool (beq_eq_false_iff_ne.2 hne).symm

variable {q : Query} {accumulators : Document}

/-- Grouping succeeds if all its keys are proper names. -/
lemma groupBy_result (q : Query) (keys : List String) (accumulators : Document) :
    (q.groupBy keys accumulators).toTraced.result
      = (keys.mapM Identifier.ensure).map fun names => { q with
          group := some
            (Document.insertAll [("_id", .document (groupId names))] accumulators) } := by
  rw [Query.groupBy, Step.result_atomic, Traced.result_bind, Traced.result_ofExcept]
  rfl

/-- The group that an accepted call leaves has the accumulators as they are behind the document that
documents are grouped by. -/
lemma group_of_accepted (haccepted : (q.groupBy keys accumulators).failure = none)
    (haccumulators : (accumulators.map (·.1)).Nodup) (hid : "_id" ∉ accumulators.map (·.1)) :
    (q.groupBy keys accumulators).state.group
      = some (("_id", .document (groupId keys)) :: accumulators) := by
  have hresult : (q.groupBy keys accumulators).toTraced.result
      = .ok (q.groupBy keys accumulators).state := by
    rw [Step.toTraced, haccepted]
  rw [groupBy_result] at hresult
  obtain ⟨names, hnames, hstate⟩ := map_eq_ok.1 hresult
  have hkeys : keys = names := by
    apply List.forall₂_eq_eq_eq ▸ List.Forall₂.imp _ (mapM_eq_ok_iff.1 hnames)
    intro key name hname
    exact (Identifier.ensure_eq_ok_iff.1 hname).2.symm
  rw [← hstate, ← hkeys, Document.insertAll_eq_append haccumulators]
  · rfl
  · intro e he hkey
    have hkey : e.1 = "_id" := List.mem_singleton.1 hkey
    exact hid (List.mem_map.2 ⟨e, he, hkey⟩)

/-- The group of a query is a stage of its pipeline. -/
lemma group_mem_pipeline {d : Document} (h : q.group = some d) :
    [("$group", .document d)] ∈ q.pipeline := by
  simp [Query.pipeline, Query.stage?, h]

/-- Some entry refers to a key only if the one under its name does. -/
lemma mem_groupId_iff :
    Query.groupKey key ∈ groupId keys ↔ ∃ e ∈ groupId keys, e.2 = .string ("$" ++ key) := by
  constructor
  · intro h
    exact ⟨_, h, rfl⟩
  · intro ⟨e, he, hvalue⟩
    obtain ⟨key', -, rfl⟩ := exists_of_mem_groupId he
    have hkey : key' = key := by simpa [Query.groupKey] using hvalue
    rwa [hkey] at he

/-- An accepted grouping is a stage of the pipeline, in which the accumulators stand as they are
behind the document that documents are grouped by, and in this document every name has the last of
its keys. It refers to every key, and has documents in the same group that agree on all keys,
exactly if no two keys differ in dots and underscores only. -/
theorem Query.groupBy_keys_tfae (q : Query) (keys : List String) (accumulators : Document)
    (haccepted : (q.groupBy keys accumulators).failure = none)
    (haccumulators : (accumulators.map (·.1)).Nodup) (hid : "_id" ∉ accumulators.map (·.1)) :
    [("$group", .document (("_id", .document (groupId keys)) :: accumulators))]
        ∈ (q.groupBy keys accumulators).state.pipeline ∧
      (∀ name, (groupId keys).lookup name
        = (keys.reverse.find? fun k => String.ofList (undotted k) == name).map
            fun k => Bson.string ("$" ++ k)) ∧
      [ToldApart keys,
        ∀ key ∈ keys, ∃ e ∈ groupId keys, e.2 = .string ("$" ++ key),
        ∀ x y : Context, SameGroup (groupId keys) x y ↔
          ∀ key ∈ keys, x.content ("$" ++ key) = y.content ("$" ++ key)].TFAE := by
  have hgroup := group_of_accepted haccepted haccumulators hid
  refine ⟨group_mem_pipeline hgroup, lookup_groupId keys, ?_⟩
  tfae_have 1 → 2 := by
    intro hapart key hkey
    exact mem_groupId_iff.1 (mem_groupId_of_toldApart hapart hkey)
  tfae_have 2 → 3 := by
    intro hentries x y
    rw [sameGroup_iff]
    constructor
    · intro h key hkey
      exact h key hkey (mem_groupId_iff.2 (hentries key hkey))
    · intro h key hkey _
      exact h key hkey
  tfae_have 3 → 1 := by
    intro hgroups
    have hentry : ∀ key ∈ keys, Query.groupKey key ∈ groupId keys := by
      intro key hkey
      by_contra hmissing
      -- the groups do not tell documents apart that differ in this key only
      obtain ⟨x, y, hsame, hdiffer⟩ := exists_sameGroup_of_not_mem hmissing
      exact hdiffer ((hgroups x y).1 hsame key hkey)
    intro key hkey key' hkey' hname
    exact eq_of_mem_groupId (hentry key hkey) (hentry key' hkey') hname
  tfae_finish

/-- A total for each group of customers. -/
def totals : Document :=
  [("total", .entry "$sum" (.string "$amount")), ("n", .entry "$sum" (.int32 1))]

/-- Grouping by a nested field and a plain one. -/
theorem Query.groupBy_keys_tfae_totals :
    ((ofCollection "orders").groupBy ["customer.id", "region"] totals).failure = none ∧
      (totals.map (·.1)).Nodup ∧ "_id" ∉ totals.map (·.1) ∧
      ToldApart ["customer.id", "region"] ∧
      ∀ x y : Context, SameGroup (groupId ["customer.id", "region"]) x y ↔
        ∀ key ∈ ["customer.id", "region"], x.content ("$" ++ key) = y.content ("$" ++ key) := by
  have hkeys : (totals.map (·.1)).Nodup := by decide
  have hid : "_id" ∉ totals.map (·.1) := by decide
  have hapart : ToldApart ["customer.id", "region"] := by
    unfold ToldApart
    decide
  have haccepted : ((ofCollection "orders").groupBy ["customer.id", "region"] totals).failure
      = none := by rfl
  have htfae := (groupBy_keys_tfae _ _ _ haccepted hkeys hid).2.2
  exact ⟨haccepted, hkeys, hid, hapart, (htfae.out 0 2).1 hapart⟩

/-- Of a path and a column with an underscore for its dot only the column is an entry, so documents
with different contents of the path fall into one group. -/
theorem Query.not_forall_groupBy_refers :
    ¬ ∀ (q : Query) (keys : List String) (accumulators : Document),
      (q.groupBy keys accumulators).failure = none → (accumulators.map (·.1)).Nodup →
      "_id" ∉ accumulators.map (·.1) → ∃ id : Document,
        [("$group", .document (("_id", .document id) :: accumulators))]
            ∈ (q.groupBy keys accumulators).state.pipeline ∧
          ∀ key ∈ keys, ∃ e ∈ id, e.2 = .string ("$" ++ key) := by
  intro h
  obtain ⟨id, hstage, hentries⟩ := h (ofCollection "orders") ["a.b", "a_b"] totals rfl
    (by decide) (by decide)
  have hpipeline : ((ofCollection "orders").groupBy ["a.b", "a_b"] totals).state.pipeline
      = [[("$group", .document (("_id", .document [("a_b", .string "$a_b")]) :: totals))]] := by rfl
  rw [hpipeline] at hstage
  have hid : id = [("a_b", .string "$a_b")] := by simpa using hstage
  obtain ⟨e, he, hvalue⟩ := hentries "a.b" List.mem_cons_self
  rw [hid] at he
  rw [List.mem_singleton.1 he, Bson.string.injEq] at hvalue
  exact absurd hvalue (by decide)

end ReadQuery.Mongo
