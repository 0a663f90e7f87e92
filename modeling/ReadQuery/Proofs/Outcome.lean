import Mathlib.Data.List.Forall2
import Mathlib.Tactic.Lemma
import ReadQuery.Step

/-!
# Outcomes of computations

How a result that may be an error passes through the steps of a computation: what a computation in
several steps comes to where a step succeeds or fails (`ok_bind`, `error_bind`), what its success
says of the steps (`bind_eq_ok`, `map_eq_ok`, `forall_of_mapM`), and the same for traced
computations and for calls on a builder.
-/

namespace ReadQuery

variable {ε ε' α β σ : Type}

/-- A sequence goes on with a result. -/
@[simp] lemma ok_bind (a : α) (f : α → Except ε β) : (Except.ok a >>= f) = f a := rfl

/-- A sequence ends with an error. -/
@[simp] lemma error_bind (e : ε) (f : α → Except ε β) : (Except.error e >>= f) = .error e := rfl

/-- A result has no error to change. -/
@[simp] lemma mapError_ok (a : α) (f : ε → ε') : (Except.ok a).mapError f = .ok a := rfl

/-- The error is changed. -/
@[simp] lemma mapError_error (e : ε) (f : ε → ε') :
    (Except.error e : Except ε α).mapError f = .error (f e) := rfl

/-- A sequence succeeds if both its steps do. -/
lemma bind_eq_ok {x : Except ε α} {f : α → Except ε β} {b : β} :
    (x >>= f) = .ok b ↔ ∃ a, x = .ok a ∧ f a = .ok b := by
  cases x with
  | error e => simp
  | ok a => simp

/-- A changed result comes from a result. -/
lemma map_eq_ok {x : Except ε α} {f : α → β} {b : β} :
    x.map f = .ok b ↔ ∃ a, x = .ok a ∧ f a = b := by
  cases x with
  | error e => simp [Except.map]
  | ok a => simp [Except.map]

/-- A result that is there is the result. -/
lemma eq_ok_of_toOption {x : Except ε α} {a : α} (h : x.toOption = some a) : x = .ok a := by
  cases x with
  | error e => cases h
  | ok b => exact congrArg Except.ok (Option.some.inj h)

/-- Changing the error makes no results. -/
lemma mapError_eq_ok {x : Except ε α} {f : ε → ε'} {a : α} :
    x.mapError f = .ok a ↔ x = .ok a := by
  cases x with
  | error e => simp
  | ok a => simp

/-- A list goes through as a whole if its items do one by one. -/
lemma mapM_eq_ok_iff {f : α → Except ε β} {as : List α} {bs : List β} :
    as.mapM f = .ok bs ↔ List.Forall₂ (fun a b => f a = .ok b) as bs := by
  induction as generalizing bs with
  | nil =>
    rw [List.forall₂_nil_left_iff]
    exact ⟨fun h => (Except.ok.inj h).symm, fun h => congrArg Except.ok h.symm⟩
  | cons a as ih =>
    rw [List.mapM_cons, List.forall₂_cons_left_iff, bind_eq_ok]
    constructor
    · rintro ⟨b, hb, h⟩
      obtain ⟨bs, hbs, h⟩ := bind_eq_ok.1 h
      cases h
      exact ⟨b, bs, hb, ih.1 hbs, rfl⟩
    · rintro ⟨b, bs, hb, hbs, rfl⟩
      exact ⟨b, hb, bind_eq_ok.2 ⟨bs, ih.2 hbs, rfl⟩⟩

/-- Related items can be found for a list if they can for each item. -/
lemma exists_forall₂_iff {R : α → β → Prop} {as : List α} :
    (∃ bs, List.Forall₂ R as bs) ↔ ∀ a ∈ as, ∃ b, R a b := by
  induction as with
  | nil => exact ⟨fun _ => nofun, fun _ => ⟨[], .nil⟩⟩
  | cons a as ih =>
    rw [List.forall_mem_cons, ← ih]
    constructor
    · rintro ⟨bs, hbs⟩
      obtain ⟨b, bs, hb, hbs, -⟩ := List.forall₂_cons_left_iff.1 hbs
      exact ⟨⟨b, hb⟩, bs, hbs⟩
    · rintro ⟨⟨b, hb⟩, bs, hbs⟩
      exact ⟨b :: bs, .cons hb hbs⟩

/-- Every result of a list is that of one of its items. -/
lemma exists_of_mem_mapM {f : α → Except ε β} {as : List α} {bs : List β}
    (h : as.mapM f = .ok bs) : ∀ b ∈ bs, ∃ a ∈ as, f a = .ok b := by
  induction mapM_eq_ok_iff.1 h with
  | nil => exact nofun
  | @cons a b as bs hstep hsteps ih =>
    intro c hc
    rcases List.mem_cons.1 hc with rfl | hc
    · exact ⟨a, List.mem_cons_self, hstep⟩
    · obtain ⟨a', ha', hc⟩ := ih (mapM_eq_ok_iff.2 hsteps) c hc
      exact ⟨a', List.mem_cons_of_mem a ha', hc⟩

/-- What a step says of its results holds of the results of a list. -/
lemma forall_of_mapM {f : α → Except ε β} {P : β → Prop} (hstep : ∀ a b, f a = .ok b → P b)
    {as : List α} {bs : List β} (h : as.mapM f = .ok bs) : ∀ b ∈ bs, P b := by
  intro b hb
  obtain ⟨a, -, ha⟩ := exists_of_mem_mapM h b hb
  exact hstep a b ha

/-- A computation on each item of a list succeeds if all of them do. -/
lemma exists_mapM_eq_ok {f : α → Except ε β} {as : List α} (h : ∀ a ∈ as, ∃ b, f a = .ok b) :
    ∃ bs, as.mapM f = .ok bs := by
  obtain ⟨bs, hbs⟩ := exists_forall₂_iff.2 h
  exact ⟨bs, mapM_eq_ok_iff.2 hbs⟩

/-- A list goes through as a whole unless one of its items fails. -/
lemma exists_mapM_eq_error_iff {f : α → Except ε β} {as : List α} :
    (∃ err, as.mapM f = .error err) ↔ ∃ a ∈ as, ∃ err, f a = .error err := by
  induction as with
  | nil => exact ⟨nofun, nofun⟩
  | cons a as ih =>
    rw [List.mapM_cons, List.exists_mem_cons_iff]
    cases f a with
    | error err => exact ⟨fun _ => .inl ⟨err, rfl⟩, fun _ => ⟨err, rfl⟩⟩
    | ok b =>
      rw [← ih]
      cases as.mapM f with
      | error err => exact ⟨fun _ => .inr ⟨err, rfl⟩, fun _ => ⟨err, rfl⟩⟩
      | ok bs => exact ⟨nofun, nofun⟩

/-- An atomic call on a builder comes to what its computation does. -/
@[simp] lemma Step.result_atomic (s : σ) (x : Traced ε σ) :
    (Step.atomic s x).toTraced.result = x.result := by
  unfold Step.atomic Step.toTraced
  cases h : x.result with
  | ok s' => rfl
  | error e => rfl

/-- An atomic step keeps its state unless there is a result. -/
lemma Step.state_atomic (s : σ) (x : Traced ε σ) :
    (Step.atomic s x).state = x.result.toOption.getD s := by
  unfold Step.atomic
  cases h : x.result with
  | ok s' => rfl
  | error e => rfl

/-- Events make no difference to the state. -/
@[simp] lemma Step.state_after (events : List Event) (x : Step σ ε) :
    (x.after events).state = x.state := rfl

/-- What holds of a builder and of whatever the computation of an atomic call comes to holds of the
builder that the call leaves. -/
lemma Step.keeps_of_atomic {P : σ → Prop} {s : σ} {x : Traced ε σ} (hs : P s)
    (hx : ∀ s', x.result = .ok s' → P s') : P (Step.atomic s x).state := by
  unfold Step.atomic
  cases h : x.result with
  | error e => exact hs
  | ok s' => exact hx s' h

/-- An atomic call that computes something and then changes the builder keeps what the change
keeps. -/
lemma Step.keeps_of_atomic_bind {P : σ → Prop} {s : σ} {x : Traced ε α} {f : α → σ} (hs : P s)
    (hf : ∀ a, x.result = .ok a → P (f a)) :
    P (Step.atomic s (x >>= fun a => pure (f a))).state := by
  refine Step.keeps_of_atomic hs fun s' hs' => ?_
  rw [Traced.result_bind] at hs'
  obtain ⟨a, ha, hs'⟩ := bind_eq_ok.1 hs'
  obtain rfl := Except.ok.inj hs'
  exact hf a ha

end ReadQuery
