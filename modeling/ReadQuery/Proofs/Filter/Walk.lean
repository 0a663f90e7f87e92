import Mathlib.Data.List.Basic
import ReadQuery.Proofs.Filter.Clause
import ReadQuery.Proofs.Outcome

/-!
# The walk over a filter

What `Filter.compile` comes to, said once for every backend and both policies. The walk visits the
conditions outside of nodes without junction, those of a node before those of its groups
(`liveConditions`). Under the strict policy the first one that is skipped ends it; otherwise the
result is what `remains` of the filter, in which skipped and vacuous conditions and the groups they
leave empty are gone.

The main statement is `compile_result`. What remains is left of the filter's own tree
(`remains_eq`), which has the live conditions at its leaves (`leaves_tree`), no group without parts
(`full_of_tree`), and is missing exactly if the filter is empty (`tree_eq_none_iff`).
-/

namespace ReadQuery

variable {α β : Type}

namespace Compiled

/-- The form of a rendered condition. -/
def form? : Compiled α → Option α
  | rendered a => some a
  | vacuous | skipped _ => none

/-- The reason for which a condition is skipped. -/
def reason? : Compiled α → Option SkipReason
  | skipped reason => some reason
  | rendered _ | vacuous => none

/-- Whether a condition is rendered. -/
def isRendered (x : Compiled α) : Bool :=
  x.form?.isSome

/-- What a rendered condition is rendered as. -/
@[simp] lemma form?_rendered (a : α) : (rendered a).form? = some a := rfl

/-- A vacuous condition has no form. -/
@[simp] lemma form?_vacuous : (vacuous : Compiled α).form? = none := rfl

/-- A skipped condition has no form. -/
@[simp] lemma form?_skipped (r : SkipReason) : (skipped r : Compiled α).form? = none := rfl

/-- A condition has a form only if it is rendered. -/
lemma form?_eq_some {x : Compiled α} {a : α} : x.form? = some a ↔ x = rendered a := by
  cases x with
  | rendered b => simp
  | vacuous => simp
  | skipped r => simp

/-- Changing the form keeps the reason. -/
@[simp] lemma reason?_map (g : α → β) (x : Compiled α) : (x.map g).reason? = x.reason? := by
  cases x <;> rfl

/-- Changing the form does not change whether there is one. -/
@[simp] lemma isRendered_map (g : α → β) (x : Compiled α) :
    (x.map g).isRendered = x.isRendered := by
  cases x <;> rfl

end Compiled

/-- Under the strict policy a skipped condition ends a computation whose result is `a`. -/
def SkipPolicy.settle (policy : SkipPolicy) (skipped : Option Skipped) (a : α) :
    Except Skipped α :=
  match policy, skipped with
  | .strict, some s => .error s
  | .strict, none | .lenient, _ => .ok a

namespace SkipPolicy

/-- Nothing skipped, nothing ends. -/
@[simp] lemma settle_none (policy : SkipPolicy) (a : α) : policy.settle none a = .ok a := by
  cases policy <;> rfl

/-- A computation that does not end returns its result. -/
lemma of_settle_eq_ok {policy : SkipPolicy} {s : Option Skipped} {a b : α}
    (h : policy.settle s a = .ok b) : a = b := by
  cases policy with
  | lenient => exact Except.ok.inj h
  | strict =>
    cases s with
    | none => exact Except.ok.inj h
    | some s => cases h

/-- Two settled computations in order: the skipped condition of the first one comes first. -/
lemma settle_bind (policy : SkipPolicy) (s t : Option Skipped) (a : α) (g : α → β) :
    (policy.settle s a >>= fun x => policy.settle t (g x)) = policy.settle (s <|> t) (g a) := by
  cases policy with
  | lenient => rfl
  | strict =>
    cases s with
    | none => rfl
    | some s => rfl

/-- The result may be changed before or after it is settled. -/
lemma settle_map (policy : SkipPolicy) (s : Option Skipped) (a : α) (g : α → β) :
    (policy.settle s a >>= fun x => .ok (g x)) = policy.settle s (g a) := by
  have h := settle_bind policy s none a g
  simpa using h

/-- Of two computations behind each other, the first one that skips decides. -/
lemma settle_seq {γ : Type} (policy : SkipPolicy) (s t : Option Skipped) (a : α) (b : β)
    (g : α → β → γ) :
    (policy.settle s a >>= fun x => policy.settle t b >>= fun y => .ok (g x y))
      = policy.settle (s <|> t) (g a b) := by
  simp only [settle_map]
  exact settle_bind policy s t a fun x => g x b

/-- The policy accepts the form of a condition, or ends with the reason why there is none. -/
lemma accept_result (policy : SkipPolicy) (field : String) (x : Compiled α) :
    (policy.accept field x).result = policy.settle (x.reason?.map (⟨field, ·⟩)) x.form? := by
  cases x with
  | rendered a => simp [accept, Compiled.reason?]
  | vacuous => simp [accept, Compiled.reason?]
  | skipped r =>
    cases policy with
    | lenient => rfl
    | strict => rfl

end SkipPolicy

namespace Filter

variable (policy : SkipPolicy) (render : Condition → Compiled α)

mutual

/-- The conditions that are compiled: those of a node before those of its groups, and none of a
node without junction. -/
def liveConditions : Filter → List Condition
  | ⟨Option.none, _, _⟩ => []
  | ⟨some _, conditions, groups⟩ => conditions ++ liveConditionsOfAll groups

/-- The conditions of some filters that are compiled. -/
def liveConditionsOfAll : List Filter → List Condition
  | [] => []
  | f :: fs => liveConditions f ++ liveConditionsOfAll fs

end

mutual

/-- Conditions that are compiled are conditions of nodes. -/
lemma liveConditions_subset : ∀ f : Filter, f.liveConditions ⊆ f.allConditions
  | ⟨Option.none, _, _⟩ => List.nil_subset _
  | ⟨some _, _, groups⟩ =>
    List.append_subset.2 ⟨List.subset_append_left _ _,
      List.subset_append_of_subset_right _ (liveConditionsOfAll_subset groups)⟩

/-- What is compiled of some filters is in them. -/
lemma liveConditionsOfAll_subset : ∀ fs : List Filter, liveConditionsOfAll fs ⊆ conditionsOfAll fs
  | [] => List.nil_subset _
  | f :: fs =>
    List.append_subset.2 ⟨List.subset_append_of_subset_left _ (liveConditions_subset f),
      List.subset_append_of_subset_right _ (liveConditionsOfAll_subset fs)⟩

end

/-- A condition that is skipped. -/
def skipped? (c : Condition) : Option Skipped :=
  (render c).reason?.map (⟨c.field, ·⟩)

/-- The first condition that is skipped. -/
def firstSkipped? (conditions : List Condition) : Option Skipped :=
  conditions.findSome? (skipped? render)

/-- The leaf of a condition that has a form. -/
def leaf? (c : Condition) : Option (Clause α) :=
  (render c).form?.map .leaf

mutual

/-- What remains of a filter where no condition ends the walk. -/
def remains : Filter → Option (Clause α)
  | ⟨Option.none, _, _⟩ => Option.none
  | ⟨some junction, conditions, groups⟩ =>
    Clause.join? junction (conditions.filterMap (leaf? render) ++ remainsOfAll groups)

/-- What remains of some filters where no condition ends the walk. -/
def remainsOfAll : List Filter → List (Clause α)
  | [] => []
  | f :: fs => (remains f).toList ++ remainsOfAll fs

end

mutual

/-- The tree of a filter: the conditions of its nodes and those of their groups that are not
empty. -/
def tree : Filter → Option (Clause Condition)
  | ⟨Option.none, _, _⟩ => Option.none
  | ⟨some junction, conditions, groups⟩ =>
    Clause.join? junction (conditions.map .leaf ++ treesOfAll groups)

/-- The trees of the filters that are not empty. -/
def treesOfAll : List Filter → List (Clause Condition)
  | [] => []
  | f :: fs => (tree f).toList ++ treesOfAll fs

end

/-- A condition is compiled to its leaf, unless it is skipped and that is not allowed. -/
lemma compileCondition_result (c : Condition) :
    (compileCondition policy render c).result
      = policy.settle (skipped? render c) (leaf? render c) := by
  have h := SkipPolicy.accept_result policy c.field (render c)
  simp only [compileCondition, Traced.result_bind, Traced.result_pure, ok_bind, h]
  exact SkipPolicy.settle_map policy _ _ _

/-- The first condition that is skipped is looked for from the left. -/
lemma firstSkipped?_cons (c : Condition) (cs : List Condition) :
    firstSkipped? render (c :: cs) = (skipped? render c <|> firstSkipped? render cs) := by
  cases h : skipped? render c <;> simp [firstSkipped?, h]

/-- Conditions are compiled to their leaves, unless one is skipped and that is not allowed. -/
lemma compileConditions_result (cs : List Condition) :
    (compileConditions policy render cs).result
      = policy.settle (firstSkipped? render cs) (cs.filterMap (leaf? render)) := by
  induction cs with
  | nil => simp [compileConditions, firstSkipped?]
  | cons c cs ih =>
    simp only [compileConditions, Traced.result_bind, Traced.result_pure,
      compileCondition_result, ih]
    rw [SkipPolicy.settle_seq, firstSkipped?_cons]
    cases h : leaf? render c <;> simp [h]

/-- The second list is looked through if nothing is skipped in the first. -/
lemma firstSkipped?_append (cs ds : List Condition) :
    firstSkipped? render (cs ++ ds)
      = (firstSkipped? render cs <|> firstSkipped? render ds) := by
  simp [firstSkipped?, List.findSome?_append]

mutual

/-- Under the strict policy the first skipped condition ends the compilation; otherwise its result
is what remains of the filter. -/
theorem compile_result : ∀ f : Filter,
    (f.compile policy render).result
      = policy.settle (firstSkipped? render f.liveConditions) (f.remains render)
  | ⟨Option.none, _, _⟩ => by
    simp [compile, liveConditions, firstSkipped?, remains]
  | ⟨some junction, conditions, groups⟩ => by
    simp only [compile, Traced.result_bind, Traced.result_pure, liveConditions, remains,
      compileConditions_result, compileAll_result groups, firstSkipped?_append]
    exact SkipPolicy.settle_seq policy _ _ _ _ _

/-- The groups of a node are compiled in order. -/
theorem compileAll_result : ∀ fs : List Filter,
    (compileAll policy render fs).result
      = policy.settle (firstSkipped? render (liveConditionsOfAll fs)) (remainsOfAll render fs)
  | [] => by
    simp [compileAll, liveConditionsOfAll, firstSkipped?, remainsOfAll]
  | f :: fs => by
    simp only [compileAll, Traced.result_bind, Traced.result_pure, liveConditionsOfAll,
      remainsOfAll, compile_result f, compileAll_result fs, firstSkipped?_append]
    exact SkipPolicy.settle_seq policy _ _ _ _ _

end

/-- Whether a condition is accepted does not depend on its form. -/
lemma accept_map (g : α → β) (field : String) (x : Compiled α) :
    policy.accept field (x.map g) = Option.map g <$> policy.accept field x := by
  cases x with
  | rendered a => rfl
  | vacuous => rfl
  | skipped reason => cases policy <;> rfl

/-- Forms may be changed before a condition is compiled or after. -/
lemma compileCondition_map (g : α → β) (c : Condition) :
    compileCondition policy (fun c => (render c).map g) c
      = Option.map (Clause.map g) <$> compileCondition policy render c := by
  have haccept := accept_map policy g c.field (render c)
  simp only [compileCondition, map_bind, map_pure, Option.map_map]
  show Traced.bind _ _ = Traced.bind _ _
  simp only [Traced.bind, haccept, bind_map_left, Option.map_map]
  rfl

/-- Forms may be changed before conditions are compiled or after. -/
lemma compileConditions_map (g : α → β) (cs : List Condition) :
    compileConditions policy (fun c => (render c).map g) cs
      = Clause.mapAll g <$> compileConditions policy render cs := by
  induction cs with
  | nil => rfl
  | cons c cs ih =>
    simp only [compileConditions, compileCondition_map, ih, map_bind, bind_map_left, map_pure,
      Clause.mapAll_append, Clause.mapAll_toList]

mutual

/-- The walk is the same for every form, which is changed in what remains. -/
theorem compile_map (g : α → β) : ∀ f : Filter,
    f.compile policy (fun c => (render c).map g)
      = Option.map (Clause.map g) <$> f.compile policy render
  | ⟨Option.none, _, _⟩ => rfl
  | ⟨some junction, conditions, groups⟩ => by
    simp only [compile, compileConditions_map, compileAll_map g groups, map_bind, bind_map_left,
      map_pure, Clause.join?_map, Clause.mapAll_append]

/-- Forms may be changed before filters are compiled or after. -/
theorem compileAll_map (g : α → β) : ∀ fs : List Filter,
    compileAll policy (fun c => (render c).map g) fs
      = Clause.mapAll g <$> compileAll policy render fs
  | [] => rfl
  | f :: fs => by
    simp only [compileAll, compile_map g f, compileAll_map g fs, map_bind, bind_map_left, map_pure,
      Clause.mapAll_append, Clause.mapAll_toList]

end

variable {render}

/-- Nothing is skipped if there is no reason to skip any of the conditions. -/
lemma firstSkipped?_eq_none_iff {cs : List Condition} :
    firstSkipped? render cs = Option.none ↔ ∀ c ∈ cs, (render c).reason? = Option.none := by
  simp [firstSkipped?, skipped?]

/-- What is skipped first depends on the reasons only. -/
lemma firstSkipped?_congr {render' : Condition → Compiled β} {cs : List Condition}
    (h : ∀ c ∈ cs, (render c).reason? = (render' c).reason?) :
    firstSkipped? render cs = firstSkipped? render' cs := by
  induction cs with
  | nil => rfl
  | cons c cs ih =>
    have hc : skipped? render c = skipped? render' c := by
      simp [skipped?, h c (by simp)]
    have ht := ih fun d hd => h d (by simp [hd])
    rw [firstSkipped?_cons, firstSkipped?_cons, hc, ht]

/-- Changing the forms changes nothing about what is skipped. -/
lemma firstSkipped?_map (g : α → β) (cs : List Condition) :
    firstSkipped? (fun c => (render c).map g) cs = firstSkipped? render cs :=
  firstSkipped?_congr fun c _ => Compiled.reason?_map g (render c)

/-- What is left of conditions is those that have a form. -/
lemma pruneAll_leaves (cs : List Condition) :
    Clause.pruneAll (fun c => (render c).form?) (cs.map .leaf) = cs.filterMap (leaf? render) := by
  induction cs with
  | nil => rfl
  | cons c cs ih =>
    rw [List.map_cons, Clause.pruneAll, ih, Clause.prune]
    cases h : (render c).form? <;> simp [leaf?, h]

mutual

/-- What remains of a filter is left of its tree. -/
theorem remains_eq : ∀ f : Filter,
    f.remains render = f.tree.bind (Clause.prune fun c => (render c).form?)
  | ⟨Option.none, _, _⟩ => rfl
  | ⟨some junction, conditions, groups⟩ => by
    rw [remains, tree, remainsOfAll_eq groups, ← pruneAll_leaves, ← Clause.pruneAll_append]
    cases conditions.map Clause.leaf ++ treesOfAll groups with
    | nil => rfl
    | cons part parts => rfl

/-- What remains of some filters is what is left of their trees. -/
lemma remainsOfAll_eq : ∀ fs : List Filter,
    remainsOfAll render fs = Clause.pruneAll (fun c => (render c).form?) (treesOfAll fs)
  | [] => rfl
  | f :: fs => by
    rw [remainsOfAll, treesOfAll, Clause.pruneAll_append, remains_eq f, remainsOfAll_eq fs]
    cases f.tree with
    | none => rfl
    | some k => simp [Clause.pruneAll]

end

mutual

/-- The tree of a filter holds its live conditions in order. -/
lemma leaves_tree : ∀ f : Filter, (f.tree.map Clause.leaves).getD [] = f.liveConditions
  | ⟨Option.none, _, _⟩ => rfl
  | ⟨some junction, conditions, groups⟩ => by
    rw [tree, Clause.leaves_join?, Clause.leavesOfAll_append, leaves_treesOfAll groups,
      liveConditions, Clause.leavesOfAll_eq, List.flatMap_map]
    simp [Clause.leaves]

/-- The leaves of the trees are the conditions that are compiled. -/
lemma leaves_treesOfAll : ∀ fs : List Filter,
    Clause.leavesOfAll (treesOfAll fs) = liveConditionsOfAll fs
  | [] => rfl
  | f :: fs => by
    rw [treesOfAll, Clause.leavesOfAll_append, leaves_treesOfAll fs, liveConditionsOfAll,
      ← leaves_tree f]
    cases f.tree <;> simp [Clause.leavesOfAll]

end

/-- The forms of the live conditions are kept in order. -/
lemma leaves_remains (f : Filter) :
    ((f.remains render).map Clause.leaves).getD []
      = f.liveConditions.filterMap fun c => (render c).form? := by
  rw [remains_eq, ← leaves_tree]
  cases f.tree with
  | none => rfl
  | some k => exact Clause.leaves_prune _ k

mutual

/-- No tree has an empty group. -/
lemma full_of_tree : ∀ {f : Filter} {k : Clause Condition}, f.tree = some k → k.Full
  | ⟨Option.none, _, _⟩, _, h => by cases h
  | ⟨some junction, conditions, groups⟩, k, h => by
    obtain ⟨hne, rfl⟩ := Clause.join?_eq_some_iff.1 h
    refine ⟨hne, Clause.allFull_iff.2 ?_⟩
    intro c hc
    rcases List.mem_append.1 hc with hc | hc
    · obtain ⟨a, -, rfl⟩ := List.mem_map.1 hc
      trivial
    · exact Clause.allFull_iff.1 (allFull_treesOfAll groups) c hc

/-- None of the trees has an empty group. -/
lemma allFull_treesOfAll : ∀ fs : List Filter, Clause.AllFull (treesOfAll fs)
  | [] => trivial
  | f :: fs => by
    have hs := allFull_treesOfAll fs
    rw [treesOfAll]
    cases h : f.tree with
    | none => exact hs
    | some k => exact ⟨full_of_tree h, hs⟩

end

mutual

/-- Exactly the empty filters have no tree. -/
lemma tree_eq_none_iff : ∀ {f : Filter}, f.tree = Option.none ↔ f.isEmpty = true
  | ⟨Option.none, _, _⟩ => by simp [tree, isEmpty]
  | ⟨some junction, conditions, groups⟩ => by
    rw [tree, Clause.join?_eq_none_iff, List.append_eq_nil_iff, treesOfAll_eq_nil_iff]
    simp [isEmpty]

/-- There are no trees if all the filters are empty. -/
lemma treesOfAll_eq_nil_iff : ∀ {fs : List Filter}, treesOfAll fs = [] ↔ allEmpty fs = true
  | [] => by simp [treesOfAll, allEmpty]
  | f :: fs => by
    rw [treesOfAll, List.append_eq_nil_iff, treesOfAll_eq_nil_iff, allEmpty, Bool.and_eq_true,
      ← tree_eq_none_iff]
    cases f.tree <;> simp

end

end Filter

end ReadQuery
