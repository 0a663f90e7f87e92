import ReadQuery.Skip
import ReadQuery.Value

/-!
# Traces

What a computation reports while it runs. A traced computation is a result, which may be an error,
together with the events that were reported before it was known; the events never influence the
result.
-/

namespace ReadQuery

/-- Something worth reporting. -/
inductive Event where
  /-- A condition or an entry of an ordering was left out. -/
  | droppedCondition (field : String) (reason : SkipReason)
  /-- A path was no identifier, and the field was taken as a plain column. -/
  | plainColumn (field path : String)
  /-- A page token could not be read. -/
  | unreadableToken (token : String)
  /-- An SQL statement was built. -/
  | sqlBuilt (backend : Backend) (sql : String) (params : List Value)
  /-- An InfluxQL statement was built. -/
  | influxBuilt (query : String)
  /-- A MongoDB query was built. -/
  | mongoBuilt (query : String)
  /-- A key of a map payload names no known operator. -/
  | unknownOperatorKey (key : String)
  /-- A field was left out of the projection. -/
  | droppedField (field : String)
  deriving DecidableEq

/-- How loud an event is. -/
inductive Level where
  | debug
  | warn
  deriving DecidableEq, Repr

/-- The name of a level in a log. -/
def Level.name : Level → String
  | debug => "DEBUG"
  | warn => "WARN"

/-- The value of a field of an event. -/
inductive Detail where
  | text (s : String)
  | flag (b : Bool)
  deriving DecidableEq, Repr

namespace Event

/-- The level of an event. -/
def level : Event → Level
  | droppedCondition .. | plainColumn .. | droppedField .. => .warn
  | unreadableToken .. | sqlBuilt .. | influxBuilt .. | mongoBuilt .. | unknownOperatorKey .. =>
    .debug

/-- The text of an event. -/
def message : Event → String
  | droppedCondition .. => "Dropping filter condition."
  | plainColumn .. => "JSON path failed the identifier allow-list, using the plain column."
  | unreadableToken .. => "Undecodable page token, paginating from the start."
  | sqlBuilt _ sql params => "query: \"" ++ sql ++ "\", params: " ++ Value.showParams params
  | influxBuilt query => "query: \"" ++ query ++ "\""
  | mongoBuilt .. => ""
  | unknownOperatorKey .. => "Filter key names no known operator."
  | droppedField .. => "Dropping projected field."

/-- What is named beside the text of an event. -/
def details : Event → List (String × Detail)
  | droppedCondition field reason => [("field", .text field), ("reason", .text reason.message)]
  | plainColumn field path => [("field", .text field), ("json_path", .text path)]
  | unreadableToken token => [("token", .text token)]
  | sqlBuilt backend _ _ => [("dialect", .text backend.name)]
  | influxBuilt _ => []
  | mongoBuilt query =>
    [("item_type", .text "query"), ("is_query", .flag true), ("query", .text query)]
  | unknownOperatorKey key => [("key", .text key)]
  | droppedField field => [("field", .text field)]

end Event

/-- A result and the events reported before it was known. -/
structure Traced (ε α : Type) where
  events : List Event
  result : Except ε α

namespace Traced

variable {ε ε' α β : Type}

/-- Reports an event. -/
def report (e : Event) : Traced ε Unit :=
  ⟨[e], .ok ()⟩

/-- A result without events. -/
def ofExcept (r : Except ε α) : Traced ε α :=
  ⟨[], r⟩

/-- Fails without an event. -/
def fail (e : ε) : Traced ε α :=
  ⟨[], .error e⟩

/-- Changes the error. -/
def mapError (f : ε → ε') (x : Traced ε α) : Traced ε' α :=
  ⟨x.events, x.result.mapError f⟩

/-- Goes on with a result; an error ends the computation. -/
def bind (x : Traced ε α) (f : α → Traced ε β) : Traced ε β :=
  match x.result with
  | .error e => ⟨x.events, .error e⟩
  | .ok a => ⟨x.events ++ (f a).events, (f a).result⟩

/-- Events are collected in order, and those of a computation that fails are kept. -/
instance : Monad (Traced ε) where
  pure a := ⟨[], .ok a⟩
  bind := bind

@[simp] theorem result_pure (a : α) : (pure a : Traced ε α).result = .ok a := rfl

@[simp] theorem result_bind (x : Traced ε α) (f : α → Traced ε β) :
    (x >>= f).result = x.result >>= fun a => (f a).result := by
  show (Traced.bind x f).result = _
  unfold Traced.bind
  cases h : x.result <;> rfl

@[simp] theorem result_report (e : Event) : (report e : Traced ε Unit).result = .ok () := rfl

@[simp] theorem result_ofExcept (r : Except ε α) : (ofExcept r).result = r := rfl

@[simp] theorem result_mapError (f : ε → ε') (x : Traced ε α) :
    (x.mapError f).result = x.result.mapError f := rfl

/-- Computations are the same if they report and return the same. -/
theorem ext {x y : Traced ε α} (he : x.events = y.events) (hr : x.result = y.result) : x = y := by
  cases x; cases y; cases he; cases hr; rfl

/-- The order of collecting does not matter. -/
instance : LawfulMonad (Traced ε) :=
  LawfulMonad.mk' _
    (fun x => by
      show Traced.bind x _ = x
      unfold Traced.bind
      cases h : x.result with
      | error e => exact ext rfl h.symm
      | ok a => exact ext (List.append_nil _) h.symm)
    (fun _ _ => rfl)
    (fun x f g => by
      show Traced.bind (Traced.bind x f) g = Traced.bind x fun a => Traced.bind (f a) g
      unfold Traced.bind
      cases h : x.result with
      | error e => rfl
      | ok a =>
        cases h' : (f a).result with
        | error e => simp [h']
        | ok b => simp [h', List.append_assoc])

end Traced

/-- A skipped condition is noted and left out, or ends the compilation. -/
def SkipPolicy.accept {α : Type} (policy : SkipPolicy) (field : String) :
    Compiled α → Traced Skipped (Option α)
  | .rendered a => pure (some a)
  | .vacuous => pure none
  | .skipped reason =>
    match policy with
    | .lenient => do
      Traced.report (.droppedCondition field reason)
      pure none
    | .strict => Traced.fail ⟨field, reason⟩

end ReadQuery
