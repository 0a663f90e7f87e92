import ReadQuery.Page.Token
import ReadQuery.Trace

/-!
# Page windows

The part of a result that a request asks for, by an offset, by the number of a page or by a page
token. Whatever the request says, the window has a positive limit or none.
-/

namespace ReadQuery.Page

open Number

/-- The rows strictly after a key on a field. -/
structure Cursor where
  field : String
  lastId : Int64
  deriving DecidableEq, Repr

/-- A part of a result. -/
structure Window where
  limit : Option Int64
  offset : Option Int64
  after : Option Cursor
  deriving DecidableEq, Repr

namespace Window

/-- The window of all rows. -/
def whole : Window := ⟨none, none, none⟩

/-- Whether the window is the whole result. -/
def isEmpty (w : Window) : Bool :=
  w.limit.isNone && w.offset.isNone && w.after.isNone

/-- A limit and an offset; without a positive limit the whole result, and no offset unless it is
positive. -/
def limited (limit offset : Int64) : Window :=
  if limit ≤ 0 then whole
  else ⟨some limit, if 0 < offset then some offset else none, none⟩

/-- Caps the limit, if the cap is positive. -/
def clamp (cap : Option Int64) (w : Window) : Window :=
  match w.limit, cap with
  | some limit, some cap => if 0 < cap then { w with limit := some (min limit cap) } else w
  | _, _ => w

end Window

/-- The rows of a page where nothing else is said. -/
def defaultSize : Int64 := 20

/-- The key that tokens count on where nothing else is said. -/
def defaultCursorField : String := "id"

/-- The size of a page: the one asked for, the configured one, or the default, whichever is positive
first. -/
def effectiveSize (size configured : Int64) : Int64 :=
  if 0 < size then size else if 0 < configured then configured else defaultSize

/-- A way of asking for a part of a result. -/
inductive Strategy where
  | byOffset (offset limit : Int64)
  | byNumber (page size configured : Int64)
  | byToken (token : String) (size configured : Int64) (cursorField : String)
  deriving DecidableEq, Repr

namespace Strategy

/-- The window asked for. Pages are counted from one; an unreadable token asks for the start. -/
def window : Strategy → Window
  | .byOffset offset limit => Window.limited limit offset
  | .byNumber page size configured =>
    let size := effectiveSize size configured
    Window.limited size (mulHeld (max page 1 - 1) size)
  | .byToken token size configured cursorField =>
    let w := Window.limited (effectiveSize size configured) 0
    { w with after := (Token.decode? token).map fun lastId => ⟨cursorField, lastId⟩ }

/-- What is reported of a strategy: a token that cannot be read. -/
def events : Strategy → List Event
  | .byToken token _ _ _ =>
    if (Token.decode? token).isNone then [.unreadableToken token] else []
  | _ => []

end Strategy

/-- What a request says about the part it asks for. -/
structure Request where
  token : Option String
  page : Option Int64
  size : Option Int64
  offset : Option Int64
  limit : Option Int64
  deriving DecidableEq, Repr

/-- Settings of pagination that no request changes. -/
structure Settings where
  defaultSize : Int64
  maxSize : Option Int64
  cursorField : String
  deriving DecidableEq, Repr

/-- The settings where nothing is configured. -/
def Settings.default : Settings := ⟨Page.defaultSize, none, defaultCursorField⟩

namespace Request

/-- The request for all rows. -/
def whole : Request := ⟨none, none, none, none, none⟩

/-- The strategy of a request: a token before the number of a page before an offset. -/
def strategy? (r : Request) (s : Settings) : Option Strategy :=
  let size := (r.size.orElse fun _ => r.limit).getD 0
  match r.token, r.page with
  | some token, _ => some (.byToken token size s.defaultSize s.cursorField)
  | none, some page => some (.byNumber page size s.defaultSize)
  | none, none =>
    if r.offset.isSome || r.limit.isSome then
      some (.byOffset (r.offset.getD 0) (r.limit.getD 0))
    else none

/-- The window of a request, its limit capped as configured. -/
def window (r : Request) (s : Settings) : Window :=
  (((r.strategy? s).map Strategy.window).getD Window.whole).clamp s.maxSize

/-- What is reported while the window of a request is found. -/
def events (r : Request) (s : Settings) : List Event :=
  ((r.strategy? s).map Strategy.events).getD []

/-- Reads a request that is written as a record. -/
def ofWritten? (w : Json.Written) : Option Request :=
  (w.record? [["token"], ["page"], ["size"], ["offset"], ["limit"]]).bind fun slots =>
    match slots with
    | [token, page, size, offset, limit] => do
      let token ← Json.Written.optional? Json.Written.string? token
      let page ← Json.Written.optional? Json.Written.int64? page
      let size ← Json.Written.optional? Json.Written.int64? size
      let offset ← Json.Written.optional? Json.Written.int64? offset
      let limit ← Json.Written.optional? Json.Written.int64? limit
      pure ⟨token, page, size, offset, limit⟩
    | _ => none

end Request

end ReadQuery.Page
