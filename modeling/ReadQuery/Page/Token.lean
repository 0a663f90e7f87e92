import ReadQuery.Base64
import ReadQuery.Json.Record
import ReadQuery.Text.Blank
import ReadQuery.Text.Utf8

/-!
# Page tokens

A page token carries the key of the last row that was seen: Base64 of a JSON record with the field
`last_id`. Tokens are written in one form of Base64 and read in four.
-/

namespace ReadQuery.Page.Token

/-- What a token says: the key of the last row. -/
def record (lastId : Int64) : Json :=
  .object [("last_id", .int lastId.toInt)]

def asciiBytes (cs : List Char) : List UInt8 :=
  cs.map fun c => UInt8.ofNat c.toNat

/-- The token behind the last row of a page. -/
def encode (lastId : Int64) : String :=
  String.ofList (Base64.encode Base64.standard (asciiBytes (record lastId).text.toList))

/-- A key of the record, whose characters stand for single bytes. -/
def readKey (body : List Char) : Option String :=
  (Text.utf8Decode? (asciiBytes body)).bind Json.Written.key?

/-- The key in the bytes of a JSON record. The text is searched byte by byte, so that whatever
stands in members that are passed over need not be valid text. -/
def ofBytes? (bytes : List UInt8) : Option Int64 :=
  (Json.Written.ofList? (bytes.map fun b => Char.ofNat b.toNat)).bind fun w =>
    (w.recordBy? readKey [["last_id"]]).bind fun slots =>
      match slots with
      | [slot] => Json.Written.required? Json.Written.int64? slot
      | _ => none

/-- The forms of Base64 in which a token is read, in the order in which they are tried. -/
def forms : List Base64.Form :=
  [Base64.standard, Base64.urlSafe, Base64.urlSafeBare, Base64.standardBare]

/-- The key of a token, blanks around it aside. -/
def decode? (token : String) : Option Int64 :=
  let cs := Text.trimList token.toList
  if cs.isEmpty then none
  else (forms.findSome? fun f => Base64.decode? f cs).bind ofBytes?

end ReadQuery.Page.Token
