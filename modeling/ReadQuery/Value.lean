import ReadQuery.Json.Text
import ReadQuery.Number.Integer
import ReadQuery.Text.Ascii
import ReadQuery.Text.Quoted

/-!
# Values

The scalars and lists that conditions compare with and that statements bind as parameters: their
forms as text and JSON, and the readings of a value as an integer or a truth value.
-/

namespace ReadQuery

open Number

/-- A value of a condition or a bound parameter. -/
inductive Value where
  | null
  | bool (b : Bool)
  | int (i : Int64)
  | float (d : Double)
  | string (s : String)
  | list (items : List Value)
  deriving Inhabited

/-- A JSON value that is no value: it contains the object `json`. -/
structure ConversionFailure where
  json : Json

def ConversionFailure.message (f : ConversionFailure) : String :=
  "Unable to convert value '" ++ f.json.text ++ "' to a QueryValue."

namespace Value

mutual

/-- Equality of values; floats are equal when their bits are. -/
def decEq : (v w : Value) → Decidable (v = w)
  | .null, .null => isTrue rfl
  | .bool a, .bool b => decidable_of_iff (a = b) (by simp)
  | .int a, .int b => decidable_of_iff (a = b) (by simp)
  | .float a, .float b => decidable_of_iff (a = b) (by simp)
  | .string a, .string b => decidable_of_iff (a = b) (by simp)
  | .list a, .list b => @decidable_of_iff _ (a = b) (by simp) (decEqAll a b)
  | .null, .bool _ | .null, .int _ | .null, .float _ | .null, .string _ | .null, .list _
  | .bool _, .null | .bool _, .int _ | .bool _, .float _ | .bool _, .string _ | .bool _, .list _
  | .int _, .null | .int _, .bool _ | .int _, .float _ | .int _, .string _ | .int _, .list _
  | .float _, .null | .float _, .bool _ | .float _, .int _ | .float _, .string _
  | .float _, .list _
  | .string _, .null | .string _, .bool _ | .string _, .int _ | .string _, .float _
  | .string _, .list _
  | .list _, .null | .list _, .bool _ | .list _, .int _ | .list _, .float _
  | .list _, .string _ => isFalse (by simp)

def decEqAll : (vs ws : List Value) → Decidable (vs = ws)
  | [], [] => isTrue rfl
  | [], _ :: _ | _ :: _, [] => isFalse (by simp)
  | v :: vs, w :: ws =>
    match decEq v w, decEqAll vs ws with
    | isTrue h, isTrue hs => isTrue (by rw [h, hs])
    | isFalse h, _ => isFalse fun e => h (List.cons.inj e).1
    | _, isFalse hs => isFalse fun e => hs (List.cons.inj e).2

end

/-- Values are compared by their contents. -/
instance : DecidableEq Value := decEq

/-- A word read as a signed integer: words of `2 ^ 63` and more are negative. -/
def ofWord (w : UInt64) : Value :=
  .int w.toInt64

/-- A value that may be absent; absence is `null`. -/
def ofOption : Option Value → Value
  | none => .null
  | some v => v

mutual

/-- The JSON of a value. -/
def toJson : Value → Json
  | .null => .null
  | .bool b => .bool b
  | .int i => .int i.toInt
  | .float d => if d.isFinite then .float d else .null
  | .string s => .string s
  | .list items => .array (toJsonAll items)

def toJsonAll : List Value → List Json
  | [] => []
  | v :: vs => v.toJson :: toJsonAll vs

end

mutual

/-- A JSON value without objects is a value. Integers beyond 64 bits are floats. -/
def ofJson : Json → Except ConversionFailure Value
  | .null => .ok .null
  | .bool b => .ok (.bool b)
  | .int i =>
    match int64? i with
    | some w => .ok (.int w)
    | none => .ok (.float (Double.ofInt i))
  | .float d => .ok (.float d)
  | .string s => .ok (.string s)
  | .array items => (ofJsonAll items).map .list
  | .object members => .error ⟨.object members⟩

/-- JSON values as values, up to the first that is none. -/
def ofJsonAll : List Json → Except ConversionFailure (List Value)
  | [] => .ok []
  | j :: js =>
    match ofJson j with
    | .error e => .error e
    | .ok v => (ofJsonAll js).map (v :: ·)

end

/-- The text of a value: strings as they are, lists as JSON. -/
def text : Value → String
  | .null => "null"
  | .bool b => if b then "true" else "false"
  | .int i => showInt64 i
  | .float d => Layout.plain.text d
  | .string s => s
  | .list items => (Json.array (toJsonAll items)).text

/-- A parameter for display: strings are quoted. -/
def shown : Value → String
  | .string s => Text.quoted s
  | v => v.text

def showParams (params : List Value) : String :=
  "[" ++ ",".intercalate (params.map shown) ++ "]"

def string? : Value → Option String
  | .string s => some s
  | _ => none

/-- An integer, or a string that spells one between blanks. -/
def int64? : Value → Option Int64
  | .int i => some i
  | .string s => readInt64? (Text.trim s)
  | _ => none

/-- A truth value, or a string that spells one. -/
def bool? : Value → Option Bool
  | .bool b => some b
  | .string s =>
    if Text.sameLetters s "true" || s == "1" then some true
    else if Text.sameLetters s "false" || s == "0" then some false
    else none
  | _ => none

/-- Whether the value is `null`. -/
def isNull : Value → Bool
  | .null => true
  | _ => false

def isList : Value → Bool
  | .list _ => true
  | _ => false

def list? : Value → Option (List Value)
  | .list items => some items
  | _ => none

/-- A string that spells an integer between blanks becomes that integer. -/
def coerceInteger : Value → Value
  | .string s =>
    match readInt64? (Text.trim s) with
    | some i => .int i
    | none => .string s
  | v => v

end Value

end ReadQuery
