import ReadQuery.Input.OrderText
import ReadQuery.Page.Window
import ReadQuery.Toml.Reader

/-!
# Settings of the compiler

What does not change from request to request: the policy on conditions that cannot be compiled, the
sizes of pages, the key of page tokens, an ordering for requests that ask for none, and whether
field names are brought to snake case. Settings are read from JSON or TOML.
-/

namespace ReadQuery

open Json (Written)

/-- A policy by its name in a configuration. -/
def SkipPolicy.ofName? (s : String) : Option SkipPolicy :=
  if s = "lenient" then some lenient else if s = "strict" then some strict else none

namespace Compiler

/-- Settings as they are given. -/
structure Config where
  skipPolicy : SkipPolicy
  defaultPageSize : Int64
  maxPageSize : Option Int64
  cursorField : String
  defaultOrderBy : Option String
  normalizesFieldNames : Bool
  deriving DecidableEq, Repr

/-- What is wrong with settings. -/
inductive ConfigFault where
  /-- The text is no settings. -/
  | malformed
  | defaultPageSize
  | maxPageSize
  | cursorField (name : String)
  | defaultOrderBy
  deriving DecidableEq, Repr

/-- The fault in words, where there are any. -/
def ConfigFault.message? : ConfigFault → Option String
  | malformed | defaultOrderBy => none
  | defaultPageSize => some "Invalid compiler configuration: default_page_size must be positive"
  | maxPageSize => some "Invalid compiler configuration: max_page_size must be positive"
  | cursorField name =>
    some ("Invalid compiler configuration: `" ++ name ++ "` is not a valid cursor field")

namespace Config

/-- The settings where nothing is configured. -/
def default : Config :=
  { skipPolicy := .lenient, defaultPageSize := Page.defaultSize, maxPageSize := none,
    cursorField := Page.defaultCursorField, defaultOrderBy := none, normalizesFieldNames := false }

/-- What the configuration says of pages. -/
def pageSettings (c : Config) : Page.Settings :=
  ⟨c.defaultPageSize, c.maxPageSize, c.cursorField⟩

/-- The names of the settings. -/
def names : List String :=
  ["skip_policy", "default_page_size", "max_page_size", "cursor_field", "default_order_by",
    "normalize_field_names"]

/-- Reads the settings of a record; those that are absent have their defaults. -/
def ofWritten? (w : Written) : Option Config :=
  (w.record? (names.map ([·]))).bind fun slots =>
    match slots with
    | [policy, size, cap, cursor, order, normalize] => do
      let policy ← Written.defaulted? default.skipPolicy
        (fun w => (w.word? (Json.maxDepth - 1)).bind SkipPolicy.ofName?) policy
      let size ← Written.defaulted? default.defaultPageSize Written.int64? size
      let cap ← Written.optional? Written.int64? cap
      let cursor ← Written.defaulted? default.cursorField Written.string? cursor
      let order ← Written.optional? Written.string? order
      let normalize ← Written.defaulted? default.normalizesFieldNames Written.bool? normalize
      pure ⟨policy, size, cap, cursor, order, normalize⟩
    | _ => none

/-- Reads a configuration from a JSON text. -/
def ofJsonText (s : String) : Except ConfigFault Config :=
  match (Written.ofList? s.toList).bind ofWritten? with
  | some c => .ok c
  | none => .error .malformed

/-- The member of a name, which may be absent but not repeated. -/
def member? {α : Type} (ms : Toml.Members) (name : String) (read : Toml.Value → Option α) :
    Option (Option α) :=
  match ms.filter (·.1 == name) with
  | [] => some none
  | [(_, v)] => (read v).map some
  | _ => none

/-- A policy: its name, or a table whose one member has its name and is an empty table. -/
def tomlPolicy? : Toml.Value → Option SkipPolicy
  | .string s => SkipPolicy.ofName? s
  | .inline [(name, .inline [])] => SkipPolicy.ofName? name
  | _ => none

/-- An integer of TOML. -/
def tomlInteger? : Toml.Value → Option Int64
  | .integer i => some i
  | _ => none

/-- A string of TOML. -/
def tomlString? : Toml.Value → Option String
  | .string s => some s
  | _ => none

/-- A truth value of TOML. -/
def tomlBool? : Toml.Value → Option Bool
  | .boolean b => some b
  | _ => none

/-- Whether a table stands where a setting should. -/
def isSettingTable (t : Toml.Table) : Bool :=
  match t.header.path with
  | name :: _ => names.contains name
  | [] => false

/-- The policy that a document with nothing but one empty table names: the header starts with the
name of the setting and ends with the name of the policy. -/
def tablePolicy? (doc : Toml.Document) : Option SkipPolicy :=
  match doc.members, doc.tables with
  | [], [⟨⟨"skip_policy" :: path, _⟩, []⟩] => path.getLast?.bind SkipPolicy.ofName?
  | _, _ => none

/-- Reads the settings of a document; those that are absent have their defaults. Other members and
tables are passed over. -/
def ofToml? (doc : Toml.Document) : Option Config :=
  match tablePolicy? doc with
  | some policy => some { default with skipPolicy := policy }
  | none => do
    if doc.tables.any isSettingTable || !doc.headersAgree then failure
    let policy ← member? doc.members "skip_policy" tomlPolicy?
    let size ← member? doc.members "default_page_size" tomlInteger?
    let cap ← member? doc.members "max_page_size" tomlInteger?
    let cursor ← member? doc.members "cursor_field" tomlString?
    let order ← member? doc.members "default_order_by" tomlString?
    let normalize ← member? doc.members "normalize_field_names" tomlBool?
    pure
      { skipPolicy := policy.getD default.skipPolicy
        defaultPageSize := size.getD default.defaultPageSize
        maxPageSize := cap
        cursorField := cursor.getD default.cursorField
        defaultOrderBy := order
        normalizesFieldNames := normalize.getD default.normalizesFieldNames }

/-- Reads a configuration from a TOML text. -/
def ofTomlText (s : String) : Except ConfigFault Config :=
  match (Toml.Document.ofText? s).bind ofToml? with
  | some c => .ok c
  | none => .error .malformed

/-- Whether a number that may be absent is positive if it is there. -/
def isPositive? (n : Option Int64) : Bool :=
  n.all (0 < ·)

/-- The first fault of settings, the default ordering aside. -/
def fault? (c : Config) : Option ConfigFault :=
  if c.defaultPageSize ≤ 0 then some .defaultPageSize
  else if !isPositive? c.maxPageSize then some .maxPageSize
  else if !Identifier.isSafe c.cursorField then some (.cursorField c.cursorField)
  else none

/-- The ordering of requests that have none. -/
def defaultOrdering (c : Config) : Except ConfigFault (List SortEntry) :=
  match c.defaultOrderBy with
  | none => .ok []
  | some s => (Input.OrderText.parse s).mapError fun _ => .defaultOrderBy

end Config

end Compiler

end ReadQuery
