import ReadQuery.Proofs.Filter.Reading

/-!
# Texts joined by AND

What a reader makes of texts that are joined by `AND`, each of which is an expression of its own
(`Token.IsExpression`). Reading goes from state to state (`State.step`), and parentheses that are
open shield what stands outside of them (`Under`). A text with no `OR` outside of parentheses
(`Token.Tight`) is therefore read as a single operand wherever it stands, and tight texts that are
joined are read as the conjunction of what each of them is read as (`value?_conjoin`).

A text that is not tight widens what it is joined with: if its conditions hold it holds together
with whatever stands behind it (`value?_conjoin_of_not_tight`). The parts of a filter are tight
(`Clause.tight_tokens`).
-/

namespace ReadQuery

variable {α β γ : Type}

namespace Token

/-- The tokens of texts that are joined by `AND`. -/
def conjoin : List (List (Token α)) → List (Token α)
  | [] => []
  | [ts] => ts
  | ts :: us :: tss => ts ++ join .and :: conjoin (us :: tss)

/-- How many parentheses are open behind a token, given how many are before it. -/
def depthBehind (depth : Nat) : Token α → Nat
  | opening => depth + 1
  | closing => depth - 1
  | atom _ | join _ => depth

/-- Whether a token is the word `OR`. -/
def isOr : Token α → Bool
  | join .or => true
  | _ => false

/-- Whether there is no `OR` outside of parentheses, `depth` of which are open. -/
def tightFrom : Nat → List (Token α) → Bool
  | _, [] => true
  | depth, t :: ts => (depth != 0 || !t.isOr) && tightFrom (t.depthBehind depth) ts

/-- A text without `OR` outside of parentheses. -/
def Tight (ts : List (Token α)) : Prop :=
  tightFrom 0 ts = true

/-- The text is read once. -/
instance (ts : List (Token α)) : Decidable (Tight ts) :=
  inferInstanceAs (Decidable (_ = true))

/-- A text that has a truth value under every assignment to its conditions. -/
def IsExpression (ts : List (Token α)) : Prop :=
  ∀ v, (value? v ts).isSome = true

/-- The truth value of a clause of texts that are joined by `AND`. A clause of no texts is left out
and holds of everything. -/
def clauseValue? (v : α → Bool) : List (List (Token α)) → Option Bool
  | [] => some true
  | ts :: tss => value? v (conjoin (ts :: tss))

/-- Texts are read together as what they are read as one by one: as their conjunction. -/
def ReadsTogether (tss : List (List (Token α))) : Prop :=
  ∀ v, clauseValue? v tss = some (tss.all fun ts => value? v ts == some true)

/-- What holds with texts added holds without them. -/
def Narrows (tss uss : List (List (Token α))) : Prop :=
  ∀ v, clauseValue? v (tss ++ uss) = some true → clauseValue? v tss = some true

/-- Texts that are read together hold only if each of them does. -/
lemma ReadsTogether.narrows {tss uss : List (List (Token α))} (h : ReadsTogether tss)
    (h' : ReadsTogether (tss ++ uss)) : Narrows tss uss := by
  intro v hv
  rw [h' v, List.all_append, Option.some.injEq, Bool.and_eq_true] at hv
  rw [h v, hv.1]

/-- Where a reader is: whether an operand comes next, the values read since the last parenthesis
that is open, and those of the parentheses around it. -/
structure State where
  operand : Bool
  frame : Frame
  outer : List Frame

namespace State

variable (v : α → Bool)

/-- Where a text begins. -/
def start : State := ⟨true, (false, true), []⟩

/-- Reads one token. -/
def step (s : State) : Token α → Option State
  | atom a => if s.operand then some ⟨false, (s.frame.1, s.frame.2 && v a), s.outer⟩ else none
  | opening => if s.operand then some ⟨true, (false, true), s.frame :: s.outer⟩ else none
  | join .and => if s.operand then none else some ⟨true, s.frame, s.outer⟩
  | join .or => if s.operand then none else some ⟨true, (s.frame.1 || s.frame.2, true), s.outer⟩
  | closing =>
    match s.operand, s.outer with
    | false, above :: outer => some ⟨false, (above.1, above.2 && (s.frame.1 || s.frame.2)), outer⟩
    | _, _ => none

/-- Reads tokens one after the other. -/
def read (s : State) (ts : List (Token α)) : Option State :=
  ts.foldlM (step v) s

/-- The value of what has been read, if it is complete. -/
def value? (s : State) : Option Bool :=
  if s.operand = false ∧ s.outer = [] then some (s.frame.1 || s.frame.2) else none

variable {v}

/-- The first token is read first. -/
@[simp] lemma read_cons (s : State) (t : Token α) (ts : List (Token α)) :
    read v s (t :: ts) = (step v s t).bind fun s' => read v s' ts :=
  List.foldlM_cons

/-- The second of two texts is read from where the first one ends. -/
@[simp] lemma read_append (s : State) (ts us : List (Token α)) :
    read v s (ts ++ us) = (read v s ts).bind fun s' => read v s' us :=
  List.foldlM_append

/-- Reading with one state is reading as the definition of values does. -/
lemma valueFrom_eq (s : State) (ts : List (Token α)) :
    valueFrom v s.operand s.frame s.outer ts = (read v s ts).bind value? := by
  induction ts generalizing s with
  | nil => rfl
  | cons t ts ih =>
    obtain ⟨operand, frame, outer⟩ := s
    cases t with
    | atom a => cases operand <;> simp [valueFrom, step, ← ih]
    | opening => cases operand <;> simp [valueFrom, step, ← ih]
    | join j => cases j <;> cases operand <;> simp [valueFrom, step, ← ih]
    | closing => cases operand <;> cases outer <;> simp [valueFrom, step, ← ih]

/-- There is a value only outside of all parentheses and behind an operand. -/
lemma value?_eq_some {s : State} {b : Bool} (h : s.value? = some b) :
    s.operand = false ∧ s.outer = [] ∧ (s.frame.1 || s.frame.2) = b := by
  unfold value? at h
  split at h
  · next hs => exact ⟨hs.1, hs.2, Option.some.inj h⟩
  · cases h

end State

/-- A text is valued by reading it from the beginning. -/
lemma value?_eq (v : α → Bool) (ts : List (Token α)) :
    value? v ts = (State.read v .start ts).bind State.value? :=
  State.valueFrom_eq .start ts

/-- A text is read on its own, as one state tells, and behind the beginning of a conjunction with
the value `c`, with a disjunction of the value `o` before that and with the frames `outer` around
it, as another one tells. `depth` parentheses of the text are open. -/
inductive Under (o c : Bool) (outer : List Frame) : Nat → State → State → Prop
  | outside (operand b : Bool) :
    Under o c outer 0 ⟨operand, (false, b), []⟩ ⟨operand, (o, c && b), outer⟩
  | inside (operand b : Bool) (frame : Frame) (frames : List Frame) :
    Under o c outer (frames.length + 1) ⟨operand, frame, frames ++ [(false, b)]⟩
      ⟨operand, frame, frames ++ (o, c && b) :: outer⟩

variable {v : α → Bool} {o c : Bool} {outer : List Frame} {depth : Nat} {s s' u : State}
  {t : Token α} {ts us : List (Token α)}

/-- A token that is no free `OR` keeps the two readers beside each other. -/
lemma Under.step (h : Under o c outer depth s s') (ht : (depth != 0 || !t.isOr) = true)
    (hu : s.step v t = some u) :
    ∃ u', s'.step v t = some u' ∧ Under o c outer (t.depthBehind depth) u u' := by
  cases h with
  | outside operand b =>
    cases t with
    | atom a =>
      cases operand with
      | false => cases hu
      | true =>
        obtain rfl := Option.some.inj hu
        refine ⟨_, rfl, ?_⟩
        simp only [Bool.and_assoc]
        exact .outside false (b && v a)
    | opening =>
      cases operand with
      | false => cases hu
      | true =>
        obtain rfl := Option.some.inj hu
        exact ⟨_, rfl, .inside true b (false, true) []⟩
    | join j =>
      cases j with
      | or => cases ht
      | and =>
        cases operand with
        | true => cases hu
        | false =>
          obtain rfl := Option.some.inj hu
          exact ⟨_, rfl, .outside true b⟩
    | closing => cases operand <;> cases hu
  | inside operand b frame frames =>
    cases t with
    | atom a =>
      cases operand with
      | false => cases hu
      | true =>
        obtain rfl := Option.some.inj hu
        exact ⟨_, rfl, .inside false b _ frames⟩
    | opening =>
      cases operand with
      | false => cases hu
      | true =>
        obtain rfl := Option.some.inj hu
        exact ⟨_, rfl, .inside true b (false, true) (frame :: frames)⟩
    | join j =>
      cases operand with
      | true => cases j <;> cases hu
      | false =>
        cases j with
        | and =>
          obtain rfl := Option.some.inj hu
          exact ⟨_, rfl, .inside true b frame frames⟩
        | or =>
          obtain rfl := Option.some.inj hu
          exact ⟨_, rfl, .inside true b _ frames⟩
    | closing =>
      cases operand with
      | true => cases hu
      | false =>
        cases frames with
        | nil =>
          -- the last parenthesis of the text is closed
          obtain rfl := Option.some.inj hu
          refine ⟨_, rfl, ?_⟩
          simp only [Bool.and_assoc]
          exact .outside false _
        | cons above frames =>
          obtain rfl := Option.some.inj hu
          exact ⟨_, rfl, .inside false b _ frames⟩

/-- A text without a free `OR` keeps the two readers beside each other. -/
lemma Under.read (h : Under o c outer depth s s') (ht : tightFrom depth ts = true)
    (hu : s.read v ts = some u) :
    ∃ u' depth', s'.read v ts = some u' ∧ Under o c outer depth' u u' := by
  induction ts generalizing depth s s' with
  | nil =>
    obtain rfl := Option.some.inj hu
    exact ⟨s', depth, rfl, h⟩
  | cons t ts ih =>
    rw [tightFrom, Bool.and_eq_true] at ht
    rw [State.read_cons] at hu
    obtain ⟨w, hw, hu⟩ := Option.bind_eq_some_iff.1 hu
    obtain ⟨w', hw', hstep⟩ := h.step ht.1 hw
    obtain ⟨u', depth', hread, hunder⟩ := ih hstep ht.2 hu
    refine ⟨u', depth', ?_, hunder⟩
    rw [State.read_cons, hw', Option.bind_some, hread]

/-- A tight text is read as a single operand. -/
lemma read_of_tight {b : Bool} (ht : Tight ts) (hb : value? v ts = some b) (o c : Bool)
    (outer : List Frame) :
    State.read v ⟨true, (o, c), outer⟩ ts = some ⟨false, (o, c && b), outer⟩ := by
  rw [value?_eq] at hb
  obtain ⟨u, hu, hvalue⟩ := Option.bind_eq_some_iff.1 hb
  obtain ⟨hoperand, houter, hframe⟩ := State.value?_eq_some hvalue
  have hstart : Under o c outer 0 .start ⟨true, (o, c), outer⟩ := by
    have h : Under o c outer 0 .start ⟨true, (o, c && true), outer⟩ := .outside true true
    rwa [Bool.and_true] at h
  obtain ⟨u', depth', hread, hunder⟩ := hstart.read ht hu
  cases hunder with
  | outside operand b' =>
    obtain rfl : operand = false := hoperand
    obtain rfl : b' = b := hframe
    exact hread
  | inside operand b' frame frames => simp at houter

/-- Tight texts behind the beginning of a conjunction are read as a conjunction with it. -/
lemma read_conjoin {ts : List (Token α)} {tss : List (List (Token α))}
    (h : ∀ us ∈ ts :: tss, IsExpression us ∧ Tight us) (c : Bool) :
    State.read v ⟨true, (false, c), []⟩ (conjoin (ts :: tss))
      = some ⟨false, (false, c && (ts :: tss).all fun us => value? v us == some true), []⟩ := by
  induction tss generalizing ts c with
  | nil =>
    obtain ⟨hexpression, htight⟩ := h ts (by simp)
    obtain ⟨b, hb⟩ := Option.isSome_iff_exists.1 (hexpression v)
    rw [conjoin, read_of_tight htight hb]
    cases b <;> simp [hb]
  | cons us tss ih =>
    rw [List.forall_mem_cons] at h
    obtain ⟨⟨hexpression, htight⟩, hrest⟩ := h
    obtain ⟨b, hb⟩ := Option.isSome_iff_exists.1 (hexpression v)
    have hjoin : State.step v ⟨false, (false, c && b), []⟩ (join .and)
        = some ⟨true, (false, c && b), []⟩ := rfl
    rw [conjoin, State.read_append, read_of_tight htight hb, Option.bind_some, State.read_cons,
      hjoin, Option.bind_some, ih hrest, Bool.and_assoc]
    cases b <;> simp [hb]

/-- Expressions that are tight are read together as their conjunction. -/
theorem value?_conjoin {tss : List (List (Token α))}
    (h : ∀ ts ∈ tss, IsExpression ts ∧ Tight ts) : ReadsTogether tss := by
  intro v
  cases tss with
  | nil => rfl
  | cons ts tss =>
    have hread := read_conjoin (v := v) h true
    rw [clauseValue?, value?_eq, State.start, hread]
    rfl

/-- `s'` is at the place of `s` in a text, and all that has been read on the way to it is true. -/
structure Bright (s s' : State) : Prop where
  operand : s'.operand = s.operand
  depth : s'.outer.length = s.outer.length
  frame : s'.frame.2 = true
  outer : ∀ f ∈ s'.outer, f.2 = true

/-- A token whose condition is true keeps what has been read true. -/
lemma Bright.step (h : Bright s s') (ht : ∀ a ∈ atoms [t], v a = true)
    (hu : s.step v t = some u) : ∃ u', s'.step v t = some u' ∧ Bright u u' := by
  obtain ⟨operand, frame, outer⟩ := s
  obtain ⟨operand', frame', outer'⟩ := s'
  obtain ⟨rfl, hdepth, hframe, houter⟩ := h
  cases t with
  | atom a =>
    have ha : v a = true := ht a (by simp [atoms])
    cases operand' with
    | false => cases hu
    | true =>
      obtain rfl := Option.some.inj hu
      refine ⟨_, rfl, rfl, hdepth, ?_, houter⟩
      simpa [ha] using hframe
  | opening =>
    cases operand' with
    | false => cases hu
    | true =>
      obtain rfl := Option.some.inj hu
      refine ⟨_, rfl, rfl, congrArg (· + 1) hdepth, rfl, ?_⟩
      rw [List.forall_mem_cons]
      exact ⟨hframe, houter⟩
  | join j =>
    cases operand' with
    | true => cases j <;> cases hu
    | false =>
      cases j with
      | and =>
        obtain rfl := Option.some.inj hu
        exact ⟨_, rfl, rfl, hdepth, hframe, houter⟩
      | or =>
        obtain rfl := Option.some.inj hu
        exact ⟨_, rfl, rfl, hdepth, rfl, houter⟩
  | closing =>
    cases operand' with
    | true => cases outer <;> cases hu
    | false =>
      cases outer with
      | nil => cases hu
      | cons above outer =>
        cases outer' with
        | nil => cases hdepth
        | cons above' outer' =>
          obtain rfl := Option.some.inj hu
          rw [List.forall_mem_cons] at houter
          refine ⟨_, rfl, rfl, Nat.succ.inj hdepth, ?_, houter.2⟩
          rw [Bool.and_eq_true, Bool.or_eq_true]
          exact ⟨houter.1, .inr hframe⟩

/-- The conditions of a text are those of its first token and of the rest. -/
lemma forall_atoms_cons {p : α → Prop} :
    (∀ a ∈ atoms (t :: ts), p a) ↔ (∀ a ∈ atoms [t], p a) ∧ ∀ a ∈ atoms ts, p a := by
  have happend : atoms (t :: ts) = atoms [t] ++ atoms ts := atoms_append [t] ts
  rw [happend, List.forall_mem_append]

/-- A text whose conditions are true keeps what has been read true. -/
lemma Bright.read (h : Bright s s') (ht : ∀ a ∈ atoms ts, v a = true)
    (hu : s.read v ts = some u) : ∃ u', s'.read v ts = some u' ∧ Bright u u' := by
  induction ts generalizing s s' with
  | nil =>
    obtain rfl := Option.some.inj hu
    exact ⟨s', rfl, h⟩
  | cons t ts ih =>
    rw [forall_atoms_cons] at ht
    rw [State.read_cons] at hu
    obtain ⟨w, hw, hu⟩ := Option.bind_eq_some_iff.1 hu
    obtain ⟨w', hw', hstep⟩ := h.step ht.1 hw
    obtain ⟨u', hread, hbright⟩ := ih hstep ht.2 hu
    refine ⟨u', ?_, hbright⟩
    rw [State.read_cons, hw', Option.bind_some, hread]

/-- An `OR` outside of parentheses ends the conjunction that is being read, whatever its value. -/
lemma Under.bright_of_not_tight (h : Under o c [] depth s s') (hnot : tightFrom depth ts = false)
    (ht : ∀ a ∈ atoms ts, v a = true) (hu : s.read v ts = some u) :
    ∃ u', s'.read v ts = some u' ∧ Bright u u' := by
  induction ts generalizing depth s s' with
  | nil => cases hnot
  | cons t ts ih =>
    rw [forall_atoms_cons] at ht
    rw [State.read_cons] at hu
    obtain ⟨w, hw, hu⟩ := Option.bind_eq_some_iff.1 hu
    by_cases hshielded : (depth != 0 || !t.isOr) = true
    · rw [tightFrom, hshielded, Bool.true_and] at hnot
      obtain ⟨w', hw', hstep⟩ := h.step hshielded hw
      obtain ⟨u', hread, hbright⟩ := ih hstep hnot ht.2 hu
      refine ⟨u', ?_, hbright⟩
      rw [State.read_cons, hw', Option.bind_some, hread]
    · -- the `OR`: behind it nothing that was read before it is in the conjunction
      obtain ⟨rfl, hor⟩ : depth = 0 ∧ t.isOr = true := by simpa using hshielded
      obtain rfl : t = join .or := by
        cases t with
        | join j => cases j with
          | and => cases hor
          | or => rfl
        | atom a => cases hor
        | opening => cases hor
        | closing => cases hor
      cases h with
      | outside operand b =>
        cases operand with
        | true => cases hw
        | false =>
          obtain rfl := Option.some.inj hw
          have hbright : Bright ⟨true, (false || b, true), []⟩
              ⟨true, (o || (c && b), true), []⟩ := ⟨rfl, rfl, rfl, by simp⟩
          obtain ⟨u', hread, hbright⟩ := hbright.read ht.2 hu
          refine ⟨u', ?_, hbright⟩
          rw [State.read_cons]
          exact hread

/-- Behind a condition that is false, a text that is not tight makes the whole true. -/
theorem value?_conjoin_of_not_tight [DecidableEq α] {a : α} (hexpression : IsExpression ts)
    (hnot : ¬ Tight ts) (ha : a ∉ atoms ts) :
    value? (fun b => b != a) (conjoin [[atom a], ts]) = some true := by
  have htrue : ∀ b ∈ atoms ts, (b != a) = true := by
    intro b hb
    rw [bne_iff_ne]
    rintro rfl
    exact ha hb
  obtain ⟨b, hb⟩ := Option.isSome_iff_exists.1 (hexpression fun b => b != a)
  rw [value?_eq] at hb
  obtain ⟨u, hu, hvalue⟩ := Option.bind_eq_some_iff.1 hb
  obtain ⟨hoperand, houter, -⟩ := State.value?_eq_some hvalue
  have hstart : Under false false [] 0 .start ⟨true, (false, false), []⟩ :=
    .outside true true
  obtain ⟨u', hread, hbright⟩ := hstart.bright_of_not_tight (by simpa [Tight] using hnot) htrue hu
  have hdepth : u'.outer = [] := by
    rw [← List.length_eq_zero_iff, hbright.depth, houter]
    rfl
  have hwhole : State.read (fun b => b != a) .start (conjoin [[atom a], ts]) = some u' := by
    have hfirst : State.step (fun b => b != a) .start (atom a)
        = some ⟨false, (false, false), []⟩ := by
      simp [State.step, State.start]
    have hjoin : State.step (fun b => b != a) ⟨false, (false, false), []⟩ (join .and)
        = some ⟨true, (false, false), []⟩ := rfl
    simp only [conjoin, List.cons_append, List.nil_append, State.read_cons, hfirst, hjoin,
      Option.bind_some]
    exact hread
  rw [value?_eq, hwhole, Option.bind_some, State.value?, hbright.operand, hoperand, hdepth,
    hbright.frame]
  simp

/-- Such a text does not narrow what it is added to. -/
theorem not_narrows_of_not_tight [DecidableEq α] {a : α} (hexpression : IsExpression ts)
    (hnot : ¬ Tight ts) (ha : a ∉ atoms ts) : ¬ Narrows [[atom a]] [ts] := by
  intro h
  have hfirst : value? (fun b => b != a) [atom a] = some false := by simp [value?, valueFrom]
  have hnarrow := h (fun b => b != a) (value?_conjoin_of_not_tight hexpression hnot ha)
  rw [clauseValue?, conjoin, hfirst] at hnarrow
  cases hnarrow

/-- How a token can be written: a connective as a word in letters of any case, a parenthesis as
itself, both with blanks around them or without. -/
def IsWritten (form : α → String) : Token α → String → Prop
  | atom a, s => s = form a
  | join j, s => Text.upper (Text.trim s) = j.name
  | opening, s => Text.trim s = "("
  | closing, s => Text.trim s = ")"

/-- A text is written as tokens one after the other. -/
inductive Written (form : α → String) : List (Token α) → String → Prop
  | nil : Written form [] ""
  | cons {t : Token α} {ts : List (Token α)} {s s' : String} :
    IsWritten form t s → Written form ts s' → Written form (t :: ts) (s ++ s')

variable {form : α → String}

/-- The text of a token is one way to write it. -/
lemma isWritten_text (form : α → String) (t : Token α) : IsWritten form t (t.text form) := by
  cases t with
  | atom a => rfl
  | join j =>
    cases j with
    | and => exact (by decide +kernel : Text.upper (Text.trim " AND ") = "AND")
    | or => exact (by decide +kernel : Text.upper (Text.trim " OR ") = "OR")
  | opening => exact (by decide +kernel : Text.trim "(" = "(")
  | closing => exact (by decide +kernel : Text.trim ")" = ")")

/-- The spelling of tokens is one way to write them. -/
lemma written_spell (form : α → String) (ts : List (Token α)) :
    Written form ts (spell form ts) := by
  induction ts with
  | nil => exact .nil
  | cons t ts ih => exact .cons (isWritten_text form t) ih

/-- Texts behind each other are written as their tokens behind each other. -/
lemma Written.append {x y : String} (h : Written form ts x) (h' : Written form us y) :
    Written form (ts ++ us) (x ++ y) := by
  induction h with
  | nil => simpa using h'
  | cons hs _ ih =>
    rw [List.cons_append, String.append_assoc]
    exact .cons hs ih

/-- Texts that are joined are written as their tokens joined. -/
lemma written_conjoin {tss : List (List (Token α))} {texts : List String}
    (h : List.Forall₂ (Written form) tss texts) :
    Written form (conjoin tss) (" AND ".intercalate texts) := by
  induction h with
  | nil => exact .nil
  | cons hs hrest ih =>
    cases hrest with
    | nil => exact hs
    | cons _ _ =>
      rw [String.intercalate_cons_cons, String.append_assoc, conjoin]
      exact hs.append (.cons (isWritten_text form (join .and)) ih)

/-- What there is in a statement of a clause with a keyword: nothing if there are no texts, and
otherwise the keyword and a text that is written as these joined. -/
def IsClause (form : α → String) (keyword : String) (tss : List (List (Token α)))
    (clause : List String) : Prop :=
  if tss = [] then clause = []
  else ∃ text, clause = [keyword ++ text] ∧ Written form (conjoin tss) text

/-- Texts that are written as theirs make up the clause with the keyword. -/
lemma isClause_of_forall₂ {tss : List (List (Token α))} {texts : List String}
    (h : List.Forall₂ (Written form) tss texts) (keyword : String) :
    IsClause form keyword tss
      (if texts.isEmpty then [] else [keyword ++ " AND ".intercalate texts]) := by
  have hwritten := written_conjoin h
  cases h with
  | nil => rfl
  | cons hs hrest =>
    rw [IsClause, if_neg (List.cons_ne_nil _ _)]
    exact ⟨_, rfl, hwritten⟩

/-- Changes the condition in a token. -/
def map (g : α → β) : Token α → Token β
  | atom a => atom (g a)
  | join j => join j
  | opening => opening
  | closing => closing

/-- Renaming the conditions of a text renames them where they are spelled. -/
lemma spell_map (form : β → String) (g : α → β) (ts : List (Token α)) :
    spell form (ts.map (map g)) = spell (form ∘ g) ts := by
  induction ts with
  | nil => rfl
  | cons t ts ih =>
    have ht : (t.map g).text form = t.text (form ∘ g) := by
      cases t with
      | join j => cases j <;> rfl
      | atom a => rfl
      | opening => rfl
      | closing => rfl
    rw [List.map_cons, spell, spell, ih, ht]

end Token

namespace Clause

open Token

/-- The operands of a conjunction at the root, or the clause itself. -/
def parts : Clause α → List (Clause α)
  | group .and ks => ks
  | leaf a => [leaf a]
  | group .or ks => [group .or ks]

/-- The operands of a full clause are full. -/
lemma full_of_mem_parts {k part : Clause α} (h : k.Full) (hp : part ∈ k.parts) : part.Full := by
  cases k with
  | leaf a =>
    obtain rfl := List.mem_singleton.1 hp
    exact h
  | group j ks =>
    cases j with
    | and => exact allFull_iff.1 h.2 part hp
    | or =>
      obtain rfl := List.mem_singleton.1 hp
      exact h

/-- The tokens of a full clause have a truth value. -/
lemma isExpression_tokens {k : Clause α} (h : k.Full) : IsExpression k.tokens := by
  intro v
  have hread := valueFrom_tokens (v := v) h (false, true) [] []
  rw [List.append_nil] at hread
  rw [Token.value?, hread]
  rfl

mutual

/-- The tokens of an operand are in parentheses, or single. -/
lemma tightFrom_tokens : ∀ (k : Clause α) (n : Nat) (ts : List (Token α)),
    tightFrom n (k.tokens ++ ts) = tightFrom n ts
  | leaf a, n, ts => by simp [tokens, tightFrom, isOr, depthBehind]
  | group j [k], n, ts => by
    simpa [tokens, tokensOfAll, tokensBehind] using tightFrom_tokens k n ts
  | group j [], n, ts => by simp [tokens, tokensOfAll, tightFrom, isOr, depthBehind]
  | group j (k :: k' :: ks), n, ts => by
    have hks := tightFrom_tokensOfAll j (k :: k' :: ks) n (.closing :: ts)
    simpa [tokens, tightFrom, isOr, depthBehind] using hks

/-- Members in a group leave the depth at which the text goes on. -/
lemma tightFrom_tokensOfAll (j : Junction) : ∀ (ks : List (Clause α)) (n : Nat)
    (ts : List (Token α)), tightFrom (n + 1) (tokensOfAll j ks ++ ts) = tightFrom (n + 1) ts
  | [], _, _ => rfl
  | k :: ks, n, ts => by
    rw [tokensOfAll, List.append_assoc, tightFrom_tokens k, tightFrom_tokensBehind j ks]

/-- Members with a connective in front of each leave the depth at which the text goes on. -/
lemma tightFrom_tokensBehind (j : Junction) : ∀ (ks : List (Clause α)) (n : Nat)
    (ts : List (Token α)), tightFrom (n + 1) (tokensBehind j ks ++ ts) = tightFrom (n + 1) ts
  | [], _, _ => rfl
  | k :: ks, n, ts => by
    rw [tokensBehind, List.cons_append, List.append_assoc, tightFrom, depthBehind,
      tightFrom_tokens k, tightFrom_tokensBehind j ks]
    rfl

end

/-- A clause is written with all its alternatives in parentheses. -/
lemma tight_tokens (k : Clause α) : Tight k.tokens := by
  have h := tightFrom_tokens k 0 []
  rwa [List.append_nil] at h

mutual

/-- Changing the conditions twice is changing them once. -/
lemma map_map (g : α → β) (h : β → γ) : ∀ k : Clause α, (k.map g).map h = k.map (h ∘ g)
  | leaf a => rfl
  | group j ks => by rw [map, map, map, mapAll_mapAll g h ks]

/-- Changing the conditions of a list twice is changing them once. -/
lemma mapAll_mapAll (g : α → β) (h : β → γ) : ∀ ks : List (Clause α),
    mapAll h (mapAll g ks) = mapAll (h ∘ g) ks
  | [] => rfl
  | k :: ks => by rw [mapAll, mapAll, mapAll, map_map g h k, mapAll_mapAll g h ks]

end

mutual

/-- The tokens of a changed clause are the changed tokens. -/
lemma tokens_map (g : α → β) : ∀ k : Clause α, (k.map g).tokens = k.tokens.map (Token.map g)
  | leaf a => rfl
  | group j ks => by
    rw [map, tokens, tokens, length_mapAll, tokensOfAll_mapAll g j ks]
    split <;> simp [Token.map]

/-- The tokens of changed members are the changed tokens of the members. -/
lemma tokensOfAll_mapAll (g : α → β) (j : Junction) : ∀ ks : List (Clause α),
    tokensOfAll j (mapAll g ks) = (tokensOfAll j ks).map (Token.map g)
  | [] => rfl
  | k :: ks => by
    rw [mapAll, tokensOfAll, tokensOfAll, tokens_map g k, tokensBehind_mapAll g j ks,
      List.map_append]

/-- Connectives between members stay as they are when conditions change. -/
lemma tokensBehind_mapAll (g : α → β) (j : Junction) : ∀ ks : List (Clause α),
    tokensBehind j (mapAll g ks) = (tokensBehind j ks).map (Token.map g)
  | [] => rfl
  | k :: ks => by
    rw [mapAll, tokensBehind, tokensBehind, tokens_map g k, tokensBehind_mapAll g j ks]
    simp [Token.map]

end

/-- A list is changed member by member. -/
lemma mapAll_eq (g : α → β) (ks : List (Clause α)) : mapAll g ks = ks.map (map g) := by
  induction ks with
  | nil => rfl
  | cons k ks ih => rw [mapAll, ih, List.map_cons]

/-- The operands of a changed clause are its changed operands. -/
lemma parts_map (g : α → β) (k : Clause α) : (k.map g).parts = k.parts.map (map g) := by
  cases k with
  | leaf a => rfl
  | group j ks =>
    cases j with
    | and => exact mapAll_eq g ks
    | or => rfl

/-- The operands of a conjunction hold the conditions of it, in order. -/
lemma atoms_parts (k : Clause α) : (k.parts.map tokens).flatMap atoms = k.leaves := by
  cases k with
  | leaf a => rfl
  | group j ks =>
    cases j with
    | and =>
      rw [parts, leaves, leavesOfAll_eq, List.flatMap_map]
      simp only [atoms_tokens]
    | or =>
      rw [parts, List.map_singleton, List.flatMap_singleton, atoms_tokens]

mutual

/-- The conditions of a changed clause are its changed conditions. -/
lemma leaves_map (g : α → β) : ∀ k : Clause α, (k.map g).leaves = k.leaves.map g
  | leaf a => rfl
  | group j ks => by rw [map, leaves, leaves, leavesOfAll_mapAll g ks]

/-- The conditions of changed members are the changed conditions of the members. -/
lemma leavesOfAll_mapAll (g : α → β) : ∀ ks : List (Clause α),
    leavesOfAll (mapAll g ks) = (leavesOfAll ks).map g
  | [] => rfl
  | k :: ks => by
    rw [mapAll, leavesOfAll, leavesOfAll, leaves_map g k, leavesOfAll_mapAll g ks, List.map_append]

end

mutual

/-- A change of conditions leaves no group empty. -/
lemma full_map {g : α → β} : ∀ {k : Clause α}, k.Full → (k.map g).Full
  | leaf _, _ => trivial
  | group j ks, h => by
    refine ⟨?_, allFull_mapAll h.2⟩
    rw [← List.length_pos_iff, length_mapAll]
    exact List.length_pos_iff.2 h.1

/-- A change of conditions leaves no group of a list empty. -/
lemma allFull_mapAll {g : α → β} : ∀ {ks : List (Clause α)}, AllFull ks → AllFull (mapAll g ks)
  | [], _ => trivial
  | _ :: _, h => ⟨full_map h.1, allFull_mapAll h.2⟩

end

end Clause

end ReadQuery
