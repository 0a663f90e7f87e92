import Mathlib.Order.Compare
import ReadQuery.Proofs.Influx.Calls
import ReadQuery.Proofs.Mongo.Calls
import ReadQuery.Proofs.Mongo.Document
import ReadQuery.Proofs.Sql.Calls
import ReadQuery.Proofs.Text

/-!
# Sorted rows

What an ordering means for the rows of a result: two rows are compared by one key after the other,
and the first key that distinguishes them decides (`compareBy`). A key that is named again has no
effect, so all that counts are the keys in the order of their first occurrence and the direction
that each of them has there.

A statement of SQL names the keys as the ordering does. A sort document of MongoDB has every key
once, where it first occurs and with the direction of its last entry (`sortKeys_sortDocument`), and
a statement of InfluxQL has the direction of the last entry that is spelled `time`. So the backends
sort alike exactly if the first entry on a path and the last one have the same direction, the last
one on the time in that spelling included (`backends_sort_alike_iff`).
-/

namespace ReadQuery

variable {κ κ' α : Type}

/-- The outcome of a comparison in a direction. -/
def Direction.orient : Direction → Ordering → Ordering
  | ascending, o => o
  | descending, o => o.swap

/-- Only what is equal stays equal in either direction. -/
lemma Direction.orient_eq_eq {d : Direction} {o : Ordering} : d.orient o = .eq ↔ o = .eq := by
  cases d <;> cases o <;> decide

/-- A direction is told by what it makes of a lesser row. -/
lemma Direction.orient_lt_inj {d d' : Direction} : d.orient .lt = d'.orient .lt ↔ d = d' := by
  cases d <;> cases d' <;> decide

/-- Compares two rows by keys in turn. The first key under which they differ decides. -/
def compareBy [Ord α] : List (κ × Direction) → (κ → α) → (κ → α) → Ordering
  | [], _, _ => .eq
  | (k, d) :: ks, r, s => (d.orient (compare (r k) (s k))).then (compareBy ks r s)

section Keys

variable [LinearOrder α] {ks ks' : List (κ × Direction)} {r s r' s' : κ → α}

/-- Rows that agree on a key are compared by the others. -/
lemma compareBy_cons_of_eq {k : κ} {d : Direction} (h : r k = s k) :
    compareBy ((k, d) :: ks) r s = compareBy ks r s := by
  rw [compareBy, h, compare_eq_iff_eq.2 rfl, Direction.orient_eq_eq.2 rfl]
  rfl

/-- Rows that differ in a key are compared by it. -/
lemma compareBy_cons_of_ne {k : κ} {d : Direction} (h : r k ≠ s k) :
    compareBy ((k, d) :: ks) r s = d.orient (compare (r k) (s k)) := by
  have hne : d.orient (compare (r k) (s k)) ≠ .eq :=
    fun he => h (compare_eq_iff_eq.1 (Direction.orient_eq_eq.1 he))
  rw [compareBy]
  cases ho : d.orient (compare (r k) (s k)) with
  | lt => rfl
  | eq => exact absurd ho hne
  | gt => rfl

/-- A row is equal to itself. -/
lemma compareBy_self (ks : List (κ × Direction)) (r : κ → α) : compareBy ks r r = .eq := by
  induction ks with
  | nil => rfl
  | cons k ks ih => rw [compareBy_cons_of_eq rfl, ih]

/-- Further keys decide where the first ones do not. -/
lemma compareBy_append (ks ks' : List (κ × Direction)) (r s : κ → α) :
    compareBy (ks ++ ks') r s = (compareBy ks r s).then (compareBy ks' r s) := by
  induction ks with
  | nil => rfl
  | cons k ks ih =>
    obtain ⟨k, d⟩ := k
    rw [List.cons_append, compareBy, compareBy, ih, Ordering.then_assoc]

/-- Rows that no key of a list distinguishes. -/
lemma eq_of_compareBy_eq (h : compareBy ks r s = .eq) {k : κ} (hk : k ∈ ks.map (·.1)) :
    r k = s k := by
  induction ks with
  | nil => cases hk
  | cons k' ks ih =>
    obtain ⟨k', d⟩ := k'
    by_cases he : r k' = s k'
    · rw [compareBy_cons_of_eq he] at h
      rcases List.mem_cons.1 hk with rfl | hk
      · exact he
      · exact ih h hk
    · rw [compareBy_cons_of_ne he, Direction.orient_eq_eq] at h
      exact absurd (compare_eq_iff_eq.1 h) he

/-- A key that is named again has no effect. -/
lemma compareBy_append_of_mem {k : κ} (d : Direction) (hk : k ∈ ks.map (·.1)) :
    compareBy (ks ++ [(k, d)]) r s = compareBy ks r s := by
  rw [compareBy_append]
  cases h : compareBy ks r s with
  | lt => rfl
  | eq => exact compareBy_cons_of_eq (eq_of_compareBy_eq h hk)
  | gt => rfl

/-- What rows have under the keys is all that is compared. -/
lemma compareBy_congr (hr : ∀ k ∈ ks, r k.1 = r' k.1) (hs : ∀ k ∈ ks, s k.1 = s' k.1) :
    compareBy ks r s = compareBy ks r' s' := by
  induction ks with
  | nil => rfl
  | cons k ks ih =>
    rw [List.forall_mem_cons] at hr hs
    rw [compareBy, compareBy, hr.1, hs.1, ih hr.2 hs.2]

/-- Keys may be renamed if the rows are renamed with them. -/
lemma compareBy_map (g : κ → κ') (ks : List (κ × Direction)) (r s : κ' → α) :
    compareBy (ks.map fun k => (g k.1, k.2)) r s = compareBy ks (r ∘ g) (s ∘ g) := by
  induction ks with
  | nil => rfl
  | cons k ks ih =>
    rw [List.map_cons, compareBy, ih]
    rfl

/-- The keys of a list in the directions that `g` says. -/
def directed (g : κ → Direction) (ks : List κ) : List (κ × Direction) :=
  ks.map fun k => (k, g k)

/-- Keys stay the same when they are directed. -/
@[simp] lemma keys_directed (g : κ → Direction) (keys : List κ) :
    (directed g keys).map (·.1) = keys := by
  rw [directed, List.map_map]
  exact List.map_id keys

variable [DecidableEq κ]

/-- Of the directions that a list has for a key only the first one counts, and it counts only for
rows that the key distinguishes. -/
lemma compareBy_of_lookup (hkeys : ks.map (·.1) = ks'.map (·.1))
    (h : ∀ k, r k ≠ s k → ks.lookup k = ks'.lookup k) : compareBy ks r s = compareBy ks' r s := by
  induction ks generalizing ks' with
  | nil =>
    obtain rfl := List.map_eq_nil_iff.1 hkeys.symm
    rfl
  | cons k ks ih =>
    obtain ⟨k, d⟩ := k
    obtain ⟨⟨k', d'⟩, ks', rfl⟩ : ∃ k' l, ks' = k' :: l :=
      List.exists_cons_of_ne_nil (by rintro rfl; cases hkeys)
    rw [List.map_cons, List.map_cons, List.cons.injEq] at hkeys
    obtain ⟨rfl : k = k', hkeys⟩ := hkeys
    by_cases he : r k = s k
    · rw [compareBy_cons_of_eq he, compareBy_cons_of_eq he]
      refine ih hkeys fun k' hk' => ?_
      have hne : k' ≠ k := by
        rintro rfl
        exact hk' he
      have hlookup := h k' hk'
      rwa [lookup_cons_ite, lookup_cons_ite, if_neg hne, if_neg hne] at hlookup
    · have hd := h k he
      rw [List.lookup_cons_self, List.lookup_cons_self, Option.some.injEq] at hd
      rw [compareBy_cons_of_ne he, compareBy_cons_of_ne he, hd]

/-- Rows that only one key distinguishes are compared in the first direction of that key. -/
lemma compareBy_of_differ {k : κ} (h : ∀ k', k' ≠ k → r k' = s k') :
    compareBy ks r s
      = ((ks.lookup k).map fun d => d.orient (compare (r k) (s k))).getD .eq := by
  by_cases he : r k = s k
  · obtain rfl : r = s := funext fun k' => if hk' : k' = k then hk' ▸ he else h k' hk'
    rw [compareBy_self, compare_eq_iff_eq.2 rfl]
    cases ks.lookup k with
    | none => rfl
    | some d => exact (Direction.orient_eq_eq.2 rfl).symm
  · induction ks with
    | nil => rfl
    | cons k' ks ih =>
      obtain ⟨k', d⟩ := k'
      rw [lookup_cons_ite]
      split
      · next hk =>
        subst hk
        rw [compareBy_cons_of_ne he]
        rfl
      · next hk => rw [compareBy_cons_of_eq (h k' (Ne.symm hk)), ih]

/-- Two lists of the same keys compare all rows alike exactly if they agree on the first direction
of every key. -/
lemma compareBy_eq_iff [Nontrivial α] (hkeys : ks.map (·.1) = ks'.map (·.1)) :
    (∀ r s : κ → α, compareBy ks r s = compareBy ks' r s) ↔
      ∀ k, ks.lookup k = ks'.lookup k := by
  refine ⟨fun h k => ?_, fun h r s => compareBy_of_lookup hkeys fun k _ => h k⟩
  obtain ⟨a, b, hab⟩ := exists_pair_lt α
  -- two rows that only this key distinguishes
  have hdiffer : ∀ k', k' ≠ k → a = Function.update (fun _ => a) k b k' :=
    fun k' hk' => (Function.update_of_ne hk' b fun _ => a).symm
  have hcompare := h (fun _ => a) (Function.update (fun _ => a) k b)
  rw [compareBy_of_differ hdiffer, compareBy_of_differ hdiffer, Function.update_self,
    compare_lt_iff_lt.2 hab] at hcompare
  have hne : ∀ d : Direction, d.orient .lt ≠ .eq :=
    fun d hd => absurd (Direction.orient_eq_eq.1 hd) (by decide)
  cases hd : ks.lookup k with
  | none =>
    cases hd' : ks'.lookup k with
    | none => rfl
    | some d' =>
      rw [hd, hd'] at hcompare
      exact absurd hcompare.symm (hne d')
  | some d =>
    cases hd' : ks'.lookup k with
    | none =>
      rw [hd, hd'] at hcompare
      exact absurd hcompare (hne d)
    | some d' =>
      rw [hd, hd'] at hcompare
      rw [Direction.orient_lt_inj.1 hcompare]

/-- A key is not found only if it is not there. -/
lemma lookup_eq_none_iff {k : κ} : ks.lookup k = none ↔ k ∉ ks.map (·.1) := by
  simp only [List.lookup_eq_none_iff, bne_iff_ne, List.mem_map, not_exists, not_and, ne_eq]
  exact forall₂_congr fun _ _ => not_congr eq_comm

/-- Directions that a list has for its keys are found under the same keys. -/
lemma lookup_directed {g : κ → Direction} {keys : List κ}
    (hkeys : ∀ k, k ∈ keys ↔ k ∈ ks.map (·.1)) (hg : ∀ k d, ks.lookup k = some d → g k = d)
    (k : κ) : (directed g keys).lookup k = ks.lookup k := by
  cases hd : ks.lookup k with
  | none => rwa [lookup_eq_none_iff, keys_directed, hkeys, ← lookup_eq_none_iff]
  | some d =>
    have hmem : k ∈ keys := by
      rw [hkeys]
      by_contra h
      rw [lookup_eq_none_iff.2 h] at hd
      cases hd
    rw [← hg k d hd]
    exact List.lookup_graph g hmem

/-- The direction of the last occurrence of a key. -/
def lastDirection (ks : List (κ × Direction)) (k : κ) : Direction :=
  (ks.reverse.lookup k).getD .ascending

/-- The last direction of a key is the one found from behind. -/
lemma lookup_directed_lastDirection (ks : List (κ × Direction)) (k : κ) :
    (directed (lastDirection ks) (ks.map (·.1))).lookup k = ks.reverse.lookup k := by
  refine lookup_directed (by simp) (fun k d hd => ?_) k
  rw [lastDirection, hd, Option.getD_some]

end Keys

namespace Mongo

/-- A direction as the value of an entry of a sort document. -/
def sortValue : Direction → Bson
  | .ascending => .int32 1
  | .descending => .int32 (-1)

/-- The direction of an entry of a sort document. -/
def direction? : Bson → Option Direction
  | .int32 i => if i = 1 then some .ascending else if i = -1 then some .descending else none
  | _ => none

/-- A direction is read back from the value it is written as. -/
lemma direction?_sortValue (d : Direction) : direction? (sortValue d) = some d := by
  cases d <;> decide

/-- The keys of a sort document. -/
def sortKeys (d : Document) : List (String × Direction) :=
  d.filterMap fun e => (direction? e.2).map (e.1, ·)

variable {d : Document}

/-- The keys of a document of directions, in order, and the directions that they have in it. -/
lemma sortKeys_eq (h : ∀ e ∈ d, ∃ direction, e.2 = sortValue direction) :
    (sortKeys d).map (·.1) = d.map (·.1) ∧
      ∀ k, (sortKeys d).lookup k = (d.lookup k).bind direction? := by
  induction d with
  | nil => exact ⟨rfl, fun _ => rfl⟩
  | cons e d ih =>
    obtain ⟨k, v⟩ := e
    rw [List.forall_mem_cons] at h
    obtain ⟨⟨direction, rfl : v = _⟩, h⟩ := h
    obtain ⟨hkeys, hlookup⟩ := ih h
    have hcons : sortKeys ((k, sortValue direction) :: d) = (k, direction) :: sortKeys d := by
      simp [sortKeys, direction?_sortValue]
    refine ⟨by rw [hcons, List.map_cons, List.map_cons, hkeys], fun k' => ?_⟩
    rw [hcons, lookup_cons_ite, lookup_cons_ite, hlookup]
    split
    · rw [Option.bind_some, direction?_sortValue]
    · rfl

variable [LinearOrder α]

/-- A document has the keys that are set in it, in the order in which they are first set. -/
lemma compareBy_keys_insertAll (g : String → Direction) (es : List (String × Bson))
    (r s : String → α) :
    compareBy (directed g ((Document.insertAll [] es).map (·.1))) r s
      = compareBy (directed g (es.map (·.1))) r s := by
  induction es using List.reverseRecOn with
  | nil => rfl
  | append_singleton es e ih =>
    have hlast : Document.insertAll [] (es ++ [e])
        = (Document.insertAll [] es).insert e.1 e.2 := by
      simp [Document.insertAll]
    have hdirected : ∀ ks : List String, directed g (ks ++ [e.1])
        = directed g ks ++ [(e.1, g e.1)] := fun ks => by simp [directed]
    rw [hlast, List.map_append, List.map_singleton, hdirected]
    by_cases hmem : e.1 ∈ (Document.insertAll [] es).map (·.1)
    · have hagain : e.1 ∈ (directed g (es.map (·.1))).map (·.1) := by
        obtain ⟨e', he', hkey⟩ := List.mem_map.1 hmem
        rw [keys_directed, ← hkey]
        exact List.mem_map_of_mem (Document.mem_of_mem_insertAll_nil he')
      rw [Document.keys_insert_of_mem _ hmem, ih, compareBy_append_of_mem _ hagain]
    · rw [Document.insert_of_not_mem _ hmem, List.map_append, List.map_singleton, hdirected,
        compareBy_append, compareBy_append, ih]

/-- The document in which the keys of a list are set, in order. -/
def sortDocument (ks : List (String × Direction)) : Document :=
  Document.insertAll [] (ks.map fun k => (k.1, sortValue k.2))

/-- The keys of a sort document, in order, and the directions that were set last. -/
lemma sortKeys_sortDocument (ks : List (String × Direction)) :
    (sortKeys (sortDocument ks)).map (·.1) = (sortDocument ks).map (·.1) ∧
      ∀ k, (sortKeys (sortDocument ks)).lookup k = ks.reverse.lookup k := by
  have hvalues : ∀ e ∈ sortDocument ks, ∃ direction, e.2 = sortValue direction := by
    intro e he
    obtain ⟨k, -, rfl⟩ := List.mem_map.1 (Document.mem_of_mem_insertAll_nil he)
    exact ⟨k.2, rfl⟩
  obtain ⟨hkeys, hlookup⟩ := sortKeys_eq hvalues
  refine ⟨hkeys, fun k => ?_⟩
  rw [hlookup, sortDocument, Document.lookup_insertAll, ← List.map_reverse]
  induction ks.reverse with
  | nil => rfl
  | cons k' ks ih =>
    obtain ⟨k', direction⟩ := k'
    rw [List.map_cons, lookup_cons_ite, lookup_cons_ite]
    split
    · rw [Option.some_or, Option.bind_some, direction?_sortValue]
    · exact ih

/-- A sort document compares rows by the keys that are set in it, in the directions that are set
last. -/
lemma compareBy_sortKeys (ks : List (String × Direction)) (r s : String → α) :
    compareBy (sortKeys (sortDocument ks)) r s
      = compareBy (directed (lastDirection ks) (ks.map (·.1))) r s := by
  obtain ⟨hkeys, hlast⟩ := sortKeys_sortDocument ks
  have hdirected : ∀ k, (directed (lastDirection ks) ((sortDocument ks).map (·.1))).lookup k
      = (sortKeys (sortDocument ks)).lookup k := by
    refine lookup_directed (fun k => by rw [hkeys]) fun k d hd => ?_
    rw [lastDirection, ← hlast, hd, Option.getD_some]
  have hset := compareBy_keys_insertAll (lastDirection ks)
    (ks.map fun k => (k.1, sortValue k.2)) r s
  rw [List.map_map] at hset
  refine Eq.trans (compareBy_of_lookup ?_ fun k _ => (hdirected k).symm) hset
  rw [keys_directed, hkeys]

end Mongo

namespace SortEntry

/-- The dotted path of an entry's field, if the field can be resolved. -/
def path? (e : SortEntry) : Option String :=
  e.fieldRef.toOption.map FieldRef.dotted

/-- The direction of the first entry on a path. -/
def firstOn (path : String) (es : List SortEntry) : Option Direction :=
  (es.find? (·.path? = some path)).map (·.direction)

/-- The direction of the last entry on a path. -/
def lastOn (path : String) (es : List SortEntry) : Option Direction :=
  firstOn path es.reverse

/-- The direction of the last entry whose field is spelled as a name. -/
def lastNamed (name : String) (es : List SortEntry) : Option Direction :=
  (es.reverse.find? (·.field = name)).map (·.direction)

/-- The fields of the entries that can be resolved, with their directions. -/
def keys (es : List SortEntry) : List (FieldRef × Direction) :=
  es.filterMap fun e => e.fieldRef.toOption.map (·, e.direction)

/-- The paths of the entries whose fields can be resolved, with their directions. -/
def pathKeys (es : List SortEntry) : List (String × Direction) :=
  (keys es).map fun k => (k.1.dotted, k.2)

variable {es : List SortEntry}

/-- The direction found under a path is that of the first entry on it. -/
lemma lookup_pathKeys (es : List SortEntry) (path : String) :
    (pathKeys es).lookup path = firstOn path es := by
  induction es with
  | nil => rfl
  | cons e es ih =>
    cases hf : e.fieldRef.toOption with
    | none =>
      have hpath : e.path? = none := by rw [path?, hf, Option.map_none]
      simpa [pathKeys, keys, hf, firstOn, hpath] using ih
    | some f =>
      have hpath : e.path? = some f.dotted := by rw [path?, hf, Option.map_some]
      have hcons : pathKeys (e :: es) = (f.dotted, e.direction) :: pathKeys es := by
        simp [pathKeys, keys, hf]
      rw [hcons, lookup_cons_ite, ih, firstOn, firstOn, List.find?_cons, hpath]
      by_cases h : path = f.dotted
      · simp [h]
      · simp [h, Ne.symm h]

/-- The paths of the reversed entries are the paths reversed. -/
lemma reverse_pathKeys (es : List SortEntry) : (pathKeys es).reverse = pathKeys es.reverse := by
  simp [pathKeys, keys, List.filterMap_reverse]

/-- An ordering whose fields can all be resolved ends no compilation. -/
lemma firstSkipped?_ofExcept {β : Type} (form : FieldRef → SortEntry → β)
    (h : ∀ e ∈ es, ∃ f, e.fieldRef = .ok f) :
    firstSkipped? (fun e => Compiled.ofExcept (e.fieldRef.map (form · e))) es = none := by
  rw [firstSkipped?, List.findSome?_eq_none_iff]
  intro e he
  obtain ⟨f, hf⟩ := h e he
  rw [skipped?, hf]
  rfl

end SortEntry

/-- The name of a direction is one of its keywords. -/
lemma Direction.ofKeyword?_name (d : Direction) : ofKeyword? d.name = some d := by
  cases d <;> decide

namespace Sql

variable {d : Dialect}

/-- The expression and the direction of an entry of an `ORDER BY` clause. -/
def sortKey? (entry : String) : Option (String × Direction) :=
  (Text.cutLast? ' ' entry).bind fun p => (Direction.ofKeyword? p.2).map (p.1, ·)

/-- The expression and the direction are read back from an entry. -/
lemma sortKey?_entry (expr : String) (direction : Direction) :
    sortKey? (expr ++ " " ++ direction.name) = some (expr, direction) := by
  have hspace : ' ' ∉ direction.name.toList := by cases direction <;> decide
  have hcut := Text.cutLast?_append hspace expr
  rw [sortKey?, show " " = String.ofList [' '] from rfl, hcut, Option.bind_some,
    Direction.ofKeyword?_name, Option.map_some]

/-- The keys of an `ORDER BY` clause. -/
def Select.sortKeys (s : Select d) : List (String × Direction) :=
  s.ordering.filterMap sortKey?

/-- An ordering that can be resolved becomes the `ORDER BY` clause of its keys. -/
lemma orderBy_keys {es : List SortEntry} (h : ∀ e ∈ es, ∃ f, e.fieldRef = .ok f) (table : String)
    (policy : SkipPolicy) :
    ∃ s : Select d, ((Select.fromTable table).orderBy policy es).toTraced.result = .ok s ∧
      s.sortKeys = (SortEntry.keys es).map fun k => (d.field k.1, k.2) := by
  have hnone : SortEntry.firstSkipped? (Select.orderEntry d) es = none :=
    SortEntry.firstSkipped?_ofExcept (fun f e => d.field f ++ " " ++ e.direction.name) h
  refine ⟨_, by rw [Select.orderBy_result, hnone, SkipPolicy.settle_none], ?_⟩
  rw [Select.sortKeys]
  simp only [Select.fromTable, List.nil_append, SortEntry.keys, List.map_filterMap,
    List.filterMap_filterMap]
  refine List.filterMap_congr fun e _ => ?_
  cases hf : e.fieldRef with
  | error reason => simp [Select.orderEntry, hf, Except.map, Compiled.ofExcept, Except.toOption]
  | ok f =>
    simp [Select.orderEntry, hf, Except.map, Compiled.ofExcept, Except.toOption, sortKey?_entry]

end Sql

namespace Mongo

/-- An ordering that can be resolved becomes the sort document of its keys. -/
lemma order?_keys {es : List SortEntry} (h : ∀ e ∈ es, ∃ f, e.fieldRef = .ok f)
    (policy : SkipPolicy) :
    ∃ doc, (order? policy es).result = .ok doc ∧
      doc.getD [] = sortDocument (SortEntry.pathKeys es) := by
  have hnone : SortEntry.firstSkipped? orderKey es = none :=
    SortEntry.firstSkipped?_ofExcept (fun f _ => f.dotted) h
  have hpairs : es.filterMap sortPair?
      = (SortEntry.pathKeys es).map fun k => (k.1, sortValue k.2) := by
    rw [SortEntry.pathKeys, SortEntry.keys, List.map_map, List.map_filterMap]
    refine List.filterMap_congr fun e _ => ?_
    cases hf : e.fieldRef with
    | error reason => simp [sortPair?, orderKey, hf, Except.map, Compiled.ofExcept, Except.toOption]
    | ok f =>
      cases hd : e.direction <;>
        simp [sortPair?, orderKey, hf, hd, Except.map, Compiled.ofExcept, Except.toOption,
          sortValue]
  refine ⟨_, by rw [order?, Traced.result_bind, orderDocument_result, hnone,
    SkipPolicy.settle_none, ok_bind, Traced.result_pure], ?_⟩
  rw [sortDocument, ← hpairs]
  split
  · next hempty => rw [List.isEmpty_iff.1 hempty, Option.getD_none]
  · rw [Option.getD_some]

end Mongo

namespace Influx

/-- An ordering leaves the direction of its last entry that is spelled `time`. -/
lemma lastDirection_eq (es : List SortEntry) :
    Query.lastDirection none es = SortEntry.lastNamed "time" es := by
  rw [SortEntry.lastNamed]
  induction es using List.reverseRecOn with
  | nil => rfl
  | append_singleton es e ih =>
    have hlast : Query.lastDirection none (es ++ [e])
        = ((Query.timeDirection e).form? <|> Query.lastDirection none es) := by
      simp [Query.lastDirection]
    rw [hlast, ih, List.reverse_append, List.reverse_singleton, List.singleton_append,
      List.find?_cons, Query.timeDirection]
    by_cases h : e.field = "time" <;> simp [h]

/-- A read of everything from a measurement, in an order. -/
lemma orderBy_ofMeasurement (measurement : String) (policy : SkipPolicy) (es : List SortEntry) :
    ((Query.ofMeasurement measurement).orderBy policy es).toTraced.result
      = policy.settle (SortEntry.firstSkipped? Query.timeDirection es)
          { Query.ofMeasurement measurement with timeOrder := SortEntry.lastNamed "time" es } := by
  rw [Query.orderBy_result, ← lastDirection_eq]
  rfl

/-- The clauses of a query on a measurement are its ordering by time. -/
lemma clauses_ofMeasurement (measurement : String) (order : Option Direction) :
    { Query.ofMeasurement measurement with timeOrder := order }.clauses
      = (safeName measurement).map fun name => ["SELECT", "*", "FROM " ++ name]
          ++ (order.map fun d => "ORDER BY time " ++ d.name).toList := by
  simp only [Query.ofMeasurement, Query.clauses, Query.intervalTexts, Query.numberClause]
  cases safeName measurement with
  | error v => rfl
  | ok name => cases order <;> rfl

end Influx

section Rows

variable [LinearOrder α] {d : Sql.Dialect} {es : List SortEntry}

/-- A statement of SQL compares what rows store under the paths of the entries. -/
lemma Sql.compareBy_keys {value : String → (String → α) → α}
    (hvalue : ∀ e ∈ es, ∀ f, e.fieldRef = .ok f → ∀ row, value (d.field f) row = row f.dotted)
    (r r' : String → α) :
    compareBy ((SortEntry.keys es).map fun k => (d.field k.1, k.2)) (value · r) (value · r')
      = compareBy (SortEntry.pathKeys es) r r' := by
  have hstored : ∀ row, ∀ k ∈ SortEntry.keys es, value (d.field k.1) row = row k.1.dotted := by
    intro row k hk
    obtain ⟨e, he, hf⟩ := List.mem_filterMap.1 hk
    obtain ⟨f, hf', rfl⟩ := Option.map_eq_some_iff.1 hf
    exact hvalue e he f (eq_ok_of_toOption hf') row
  rw [SortEntry.pathKeys, compareBy_map, compareBy_map]
  exact compareBy_congr (hstored r) (hstored r')

/-- A sort document compares rows as its ordering does exactly if no path is turned. -/
lemma Mongo.compareBy_pathKeys_iff [Nontrivial α] (es : List SortEntry) :
    (∀ r r' : String → α, compareBy (SortEntry.pathKeys es) r r'
        = compareBy (sortKeys (sortDocument (SortEntry.pathKeys es))) r r') ↔
      ∀ path, SortEntry.firstOn path es = SortEntry.lastOn path es := by
  simp only [compareBy_sortKeys]
  rw [compareBy_eq_iff (keys_directed _ _).symm]
  refine forall_congr' fun path => ?_
  rw [lookup_directed_lastDirection, SortEntry.reverse_pathKeys, SortEntry.lookup_pathKeys,
    SortEntry.lookup_pathKeys]
  rfl

end Rows

/-- An ordering whose fields can all be resolved sorts rows alike in SQL and MongoDB exactly if the
first and the last entry on each path have the same direction: in SQL the first one decides, in
MongoDB the last one. In InfluxQL the last entry that is spelled `time` says in which order the
points are. So all three agree exactly if, moreover, that entry has the direction of the last one on
the path, which may be spelled otherwise. -/
theorem backends_sort_alike_iff [LinearOrder α] [Nontrivial α] {d : Sql.Dialect}
    {es : List SortEntry} {value : String → (String → α) → α}
    (hes : ∀ e ∈ es, ∃ f, e.fieldRef = .ok f)
    (hvalue : ∀ e ∈ es, ∀ f, e.fieldRef = .ok f → ∀ row, value (d.field f) row = row f.dotted)
    (table measurement : String) (policy : SkipPolicy) :
    ∃ (s : Sql.Select d) (doc : Option Mongo.Document) (q : Influx.Query),
      ((Sql.Select.fromTable table).orderBy policy es).toTraced.result = .ok s ∧
      (Mongo.order? policy es).result = .ok doc ∧
      ((Influx.Query.ofMeasurement measurement).orderBy policy es).toTraced.result
        = policy.settle (SortEntry.firstSkipped? Influx.Query.timeDirection es) q ∧
      (∀ (path : String) (r r' : String → α), (∀ path', path' ≠ path → r path' = r' path') →
        compareBy s.sortKeys (value · r) (value · r') = ((SortEntry.firstOn path es).map
          fun direction => direction.orient (compare (r path) (r' path))).getD .eq) ∧
      ((∀ r r' : String → α, compareBy s.sortKeys (value · r) (value · r')
          = compareBy (Mongo.sortKeys (doc.getD [])) r r') ↔
        ∀ path, SortEntry.firstOn path es = SortEntry.lastOn path es) ∧
      q.timeOrder = SortEntry.lastNamed "time" es ∧
      (q.clauses = (Influx.safeName measurement).map fun name =>
        ["SELECT", "*", "FROM " ++ name]
          ++ (q.timeOrder.map fun direction => "ORDER BY time " ++ direction.name).toList) ∧
      ((∀ r r' : String → α, compareBy s.sortKeys (value · r) (value · r')
          = compareBy (Mongo.sortKeys (doc.getD [])) r r') ∧
          q.timeOrder = SortEntry.firstOn "time" es ↔
        (∀ path, SortEntry.firstOn path es = SortEntry.lastOn path es) ∧
          SortEntry.lastNamed "time" es = SortEntry.lastOn "time" es) := by
  obtain ⟨s, hs, hskeys⟩ := Sql.orderBy_keys (d := d) hes table policy
  obtain ⟨doc, hdoc, hsort⟩ := Mongo.order?_keys hes policy
  have hsql : ∀ r r' : String → α, compareBy s.sortKeys (value · r) (value · r')
      = compareBy (SortEntry.pathKeys es) r r' := fun r r' => by
    rw [hskeys, Sql.compareBy_keys hvalue]
  have halike := Mongo.compareBy_pathKeys_iff (α := α) es
  refine ⟨s, doc, _, hs, hdoc, Influx.orderBy_ofMeasurement measurement policy es, ?_, ?_, rfl,
    Influx.clauses_ofMeasurement measurement _, ?_⟩
  · intro path r r' hdiffer
    rw [hsql, compareBy_of_differ hdiffer, SortEntry.lookup_pathKeys]
  · simp only [hsql, hsort]
    exact halike
  · simp only [hsql, hsort]
    rw [halike]
    exact and_congr_right fun hfirst => by rw [hfirst "time"]

/-- A path that is named twice, in two spellings, around the time. -/
def rankedNames : List SortEntry :=
  [⟨"meta.rank", .descending⟩, ⟨"time", .descending⟩, ⟨" meta..rank ", .descending⟩]

/-- What a row of PostgreSQL has under the expressions of an ordering. -/
def storedValue (expr : String) (row : String → ℕ) : ℕ :=
  if expr = "meta->>'rank'" then row "meta.rank" else row expr

/-- A path that is named again in the same direction is no harm. -/
theorem backends_sort_alike_iff_rankedNames :
    (∀ e ∈ rankedNames, ∃ f, e.fieldRef = .ok f) ∧
      (∀ e ∈ rankedNames, ∀ f, e.fieldRef = .ok f →
        ∀ row, storedValue (Sql.Dialect.postgres.field f) row = row f.dotted) ∧
      ∃ (s : Sql.Select .postgres) (doc : Option Mongo.Document) (q : Influx.Query),
        ((Sql.Select.fromTable "users").orderBy .lenient rankedNames).toTraced.result = .ok s ∧
        (Mongo.order? .lenient rankedNames).result = .ok doc ∧
        ((Influx.Query.ofMeasurement "users").orderBy .lenient rankedNames).toTraced.result
          = .ok q ∧
        (∀ r r' : String → ℕ, compareBy s.sortKeys (storedValue · r) (storedValue · r')
          = compareBy (Mongo.sortKeys (doc.getD [])) r r') ∧
        q.timeOrder = SortEntry.firstOn "time" rankedNames := by
  have hrefs : ∀ e ∈ rankedNames,
      e.fieldRef = .ok ⟨"meta", ["rank"]⟩ ∨ e.fieldRef = .ok ⟨"time", []⟩ := by
    decide +kernel
  have hes : ∀ e ∈ rankedNames, ∃ f, e.fieldRef = .ok f :=
    fun e he => (hrefs e he).elim (fun h => ⟨_, h⟩) fun h => ⟨_, h⟩
  have hvalue : ∀ e ∈ rankedNames, ∀ f, e.fieldRef = .ok f →
      ∀ row, storedValue (Sql.Dialect.postgres.field f) row = row f.dotted := by
    intro e he f hf row
    rcases hrefs e he with h | h
    · obtain rfl := Except.ok.inj (h.symm.trans hf)
      exact if_pos (by decide +kernel)
    · obtain rfl := Except.ok.inj (h.symm.trans hf)
      exact if_neg (by decide +kernel)
  obtain ⟨s, doc, q, hs, hdoc, hq, -, -, -, -, hiff⟩ :=
    backends_sort_alike_iff hes hvalue "users" "users" .lenient
  have hkeys : SortEntry.pathKeys rankedNames.reverse = SortEntry.pathKeys rankedNames := by
    decide +kernel
  have hfirst : ∀ path, SortEntry.firstOn path rankedNames = SortEntry.lastOn path rankedNames := by
    intro path
    rw [SortEntry.lastOn, ← SortEntry.lookup_pathKeys, ← SortEntry.lookup_pathKeys, hkeys]
  exact ⟨hes, hvalue, s, doc, q, hs, hdoc, hq, hiff.2 ⟨hfirst, by decide +kernel⟩⟩

/-- A field that is named twice, in both directions. -/
def turnedNames : List SortEntry :=
  [⟨"a", .ascending⟩, ⟨"a", .descending⟩]

/-- The backends do not always sort alike: `a` ascending and then `a` descending is ascending in
SQL and descending in MongoDB. -/
theorem not_forall_backends_sort_alike :
    ¬ ∀ (es : List SortEntry) (value : String → (String → ℕ) → ℕ),
      (∀ e ∈ es, ∃ f, e.fieldRef = .ok f) →
      (∀ e ∈ es, ∀ f, e.fieldRef = .ok f →
        ∀ row, value (Sql.Dialect.sqlite.field f) row = row f.dotted) →
      ∀ (s : Sql.Select .sqlite) (doc : Option Mongo.Document),
        ((Sql.Select.fromTable "t").orderBy .lenient es).toTraced.result = .ok s →
        (Mongo.order? .lenient es).result = .ok doc →
        ∀ r r' : String → ℕ, compareBy s.sortKeys (value · r) (value · r')
          = compareBy (Mongo.sortKeys (doc.getD [])) r r' := by
  intro h
  have hrefs : ∀ e ∈ turnedNames, e.fieldRef = .ok ⟨"a", []⟩ := by decide +kernel
  have hes : ∀ e ∈ turnedNames, ∃ f, e.fieldRef = .ok f := fun e he => ⟨_, hrefs e he⟩
  have hvalue : ∀ e ∈ turnedNames, ∀ f, e.fieldRef = .ok f →
      ∀ row : String → ℕ, row (Sql.Dialect.sqlite.field f) = row f.dotted := by
    intro e he f hf row
    obtain rfl := Except.ok.inj ((hrefs e he).symm.trans hf)
    rfl
  obtain ⟨s, hs, hskeys⟩ := Sql.orderBy_keys (d := .sqlite) hes "t" .lenient
  obtain ⟨doc, hdoc, hsort⟩ := Mongo.order?_keys hes .lenient
  have hcompare := h turnedNames (fun expr row => row expr) hes hvalue s doc hs hdoc
    (fun _ => 0) fun _ => 1
  rw [hskeys, hsort] at hcompare
  revert hcompare
  decide +kernel

end ReadQuery
