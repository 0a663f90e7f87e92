import ReadQuery.Trace

/-!
# Builder calls

A call on a builder leaves a builder, reports events and may fail. A call that fails may have
changed the builder before it did; most calls are atomic and leave it as it was.
-/

namespace ReadQuery

/-- What a call on a builder of type `σ` comes to. -/
structure Step (σ ε : Type) where
  state : σ
  events : List Event
  failure : Option ε

namespace Step

variable {σ ε ε' : Type}

/-- A call that leaves a builder and does not fail. -/
def done (s : σ) : Step σ ε :=
  ⟨s, [], none⟩

/-- A call that leaves `s` as it is if it fails. -/
def atomic (s : σ) (x : Traced ε σ) : Step σ ε :=
  match x.result with
  | .ok s' => ⟨s', x.events, none⟩
  | .error e => ⟨s, x.events, some e⟩

/-- A call before which events were reported. -/
def after (events : List Event) (x : Step σ ε) : Step σ ε :=
  { x with events := events ++ x.events }

/-- The builder that a call leaves, if it does not fail. -/
def toTraced (x : Step σ ε) : Traced ε σ :=
  ⟨x.events, match x.failure with
    | none => .ok x.state
    | some e => .error e⟩

/-- Changes what a failure is called. -/
def mapFailure (f : ε → ε') (x : Step σ ε) : Step σ ε' :=
  ⟨x.state, x.events, x.failure.map f⟩

/-- An atomic call that fails leaves the builder as it was. -/
theorem atomic_state_of_failure {s : σ} {x : Traced ε σ} {e : ε}
    (h : (atomic s x).failure = some e) : (atomic s x).state = s := by
  unfold atomic at h ⊢
  cases hx : x.result with
  | ok s' => simp [hx] at h
  | error e' => rfl

end Step

end ReadQuery
