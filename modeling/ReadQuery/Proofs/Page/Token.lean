import ReadQuery.Page.Token
import ReadQuery.Proofs.Base64
import ReadQuery.Proofs.FieldRef
import ReadQuery.Proofs.Json.Scanning

/-!
# Reading page tokens back

A token is read as the key that it was written of, in whichever form of Base64 it comes and whatever
blanks stand around it (`decode?_token`).
-/

namespace ReadQuery.Page.Token

open Number (showInt64)
open Text (isBlank)

/-- Whether all characters of a text stand for single bytes. -/
def IsAscii (cs : List Char) : Prop :=
  ∀ c ∈ cs, c.toNat < 128

/-- Texts are checked character by character. -/
instance (cs : List Char) : Decidable (IsAscii cs) :=
  decidable_of_iff (cs.all fun c => c.toNat < 128) (by simp [IsAscii])

/-- ASCII characters are read back from their bytes. -/
lemma map_asciiBytes {cs : List Char} (h : IsAscii cs) :
    (asciiBytes cs).map (fun b => Char.ofNat b.toNat) = cs := by
  induction cs with
  | nil => rfl
  | cons c cs ih =>
    obtain ⟨hc, hcs⟩ := List.forall_mem_cons.1 h
    have hbyte : (UInt8.ofNat c.toNat).toNat = c.toNat := Base64.toNat_ofNat (by omega)
    show Char.ofNat (UInt8.ofNat c.toNat).toNat :: (asciiBytes cs).map _ = _
    rw [hbyte, Char.ofNat_toNat, ih hcs]

/-- Numbers are written in ASCII. -/
lemma toNat_of_isScalarChar {c : Char} (h : Number.isScalarChar c = true) : c.toNat < 128 := by
  rw [Number.isScalarChar, Bool.or_eq_true] at h
  rcases h with h | h
  · have hbounds := Text.toNat_of_isDigit h
    omega
  · have hall : IsAscii ".-+NaNinftruefalse".toList := by decide
    exact hall c (of_decide_eq_true h)

/-- The record of a token as a text. -/
lemma text_record (lastId : Int64) :
    (record lastId).text = "\x7b\"last_id\":" ++ showInt64 lastId ++ "\x7d" :=
  rfl

/-- The record of a token is written in ASCII. -/
lemma isAscii_record (lastId : Int64) : IsAscii (record lastId).text.toList := by
  have hfront : IsAscii "\x7b\"last_id\":".toList := by decide
  have hback : IsAscii "\x7d".toList := by decide
  rw [text_record, String.toList_append, String.toList_append, IsAscii, List.forall_mem_append,
    List.forall_mem_append]
  refine ⟨⟨hfront, ?_⟩, hback⟩
  intro c hc
  exact toNat_of_isScalarChar ((Number.scalar_showInt64 lastId).1 c hc)

/-- There is no float in the record of a token. -/
lemma floatFree_record (lastId : Int64) : (record lastId).FloatFree := by
  apply Json.FloatFree.object
  intro m hm
  obtain rfl := List.mem_singleton.1 hm
  exact .int _

/-- A key in ASCII is read back from its escaped form. -/
lemma readKey_escape {s : String} (h : IsAscii (Json.escape s.toList)) :
    readKey (Json.escape s.toList) = some s := by
  have hbytes : ∀ b ∈ asciiBytes (Json.escape s.toList), b.toNat < 0x80 := by
    intro b hb
    obtain ⟨c, hc, rfl⟩ := List.mem_map.1 hb
    have hlt := h c hc
    rw [Base64.toNat_ofNat (by omega)]
    exact hlt
  rw [readKey, Text.utf8Decode?_ascii _ hbytes, map_asciiBytes h, Option.bind_some,
    Json.Written.key?, Json.unescape_escape, Option.map_some, String.ofList_toList]

/-- The bytes of a record hold its key. -/
lemma ofBytes?_record (lastId : Int64) :
    ofBytes? (asciiBytes (record lastId).text.toList) = some lastId := by
  have hkey : readKey (Json.escape "last_id".toList) = some "last_id" := readKey_escape (by decide)
  rw [ofBytes?, map_asciiBytes (isAscii_record lastId), Json.ofList?_text (floatFree_record lastId)]
  simp only [record, Json.Written.ofJson, Json.Written.ofJsonMembers, Json.Written.recordBy?,
    Json.Written.gather, hkey, Option.bind_some]
  show Json.Written.int64? (.number (toString lastId.toInt).toList) = some lastId
  rw [Json.Written.int64?, Json.readNumber?_toString (Json.inRange_toInt lastId)]
  exact Number.int64?_toInt lastId

/-- Each of the four forms is sound. -/
lemma sound_of_mem_forms {f : Base64.Form} (h : f ∈ forms) : f.Sound := by
  simp only [forms, List.mem_cons, List.not_mem_nil, or_false] at h
  rcases h with rfl | rfl | rfl | rfl
  · exact Base64.sound_standardAlphabet true
  · exact Base64.sound_urlAlphabet true
  · exact Base64.sound_urlAlphabet false
  · exact Base64.sound_standardAlphabet false

/-- Base64 has no blanks. -/
lemma isBlank_encode {f : Base64.Form} (h : f ∈ forms) (bytes : List UInt8) :
    ∀ c ∈ Base64.encode f bytes, isBlank c = false := by
  have hchar : ∀ f ∈ forms, ∀ n < 64, isBlank (f.char n) = false := by decide
  exact Base64.forall_mem_encode (by decide) (hchar f h) bytes

/-- Bytes that are written in one of the forms are read, between blanks, in any of them. -/
lemma decode?_of_bytes {f : Base64.Form} (hf : f ∈ forms) {bytes : List UInt8} (hne : bytes ≠ [])
    {before after : List Char} (hbefore : ∀ c ∈ before, isBlank c = true)
    (hafter : ∀ c ∈ after, isBlank c = true) :
    decode? (String.ofList (before ++ Base64.encode f bytes ++ after)) = ofBytes? bytes := by
  have hsome : (Base64.encode f bytes).isEmpty = false := by
    rw [List.isEmpty_eq_false_iff]
    intro hnil
    have hread := Base64.decode?_encode (sound_of_mem_forms hf) bytes
    rw [hnil, Base64.decode?, Option.some_inj] at hread
    exact hne hread.symm
  simp only [decode?, String.toList_ofList,
    Text.trimList_between hbefore hafter (isBlank_encode hf bytes), hsome,
    Base64.findSome?_decode? (fun _ => sound_of_mem_forms) hf bytes]
  rfl

/-- The record of a token is not empty. -/
lemma asciiBytes_record_ne_nil (lastId : Int64) :
    asciiBytes (record lastId).text.toList ≠ [] := by
  rw [text_record, String.toList_append, String.toList_append]
  exact List.cons_ne_nil _ _

/-- A token is read as its key, and so is the record of the key in either alphabet of Base64, padded
or not, between any blanks. -/
theorem decode?_token (lastId : Int64) :
    decode? (encode lastId) = some lastId ∧
      ∀ f ∈ [Base64.standard, Base64.standardBare, Base64.urlSafe, Base64.urlSafeBare],
        ∀ before after : List Char, (∀ c ∈ before, isBlank c = true) →
          (∀ c ∈ after, isBlank c = true) →
          decode? (String.ofList (before ++ Base64.encode f
            (asciiBytes ("\x7b\"last_id\":" ++ showInt64 lastId ++ "\x7d").toList) ++ after))
              = some lastId := by
  have hread : ∀ f ∈ forms, ∀ before after : List Char, (∀ c ∈ before, isBlank c = true) →
      (∀ c ∈ after, isBlank c = true) →
      decode? (String.ofList (before ++ Base64.encode f
        (asciiBytes (record lastId).text.toList) ++ after)) = some lastId := by
    intro f hf before after hbefore hafter
    rw [decode?_of_bytes hf (asciiBytes_record_ne_nil lastId) hbefore hafter]
    exact ofBytes?_record lastId
  constructor
  · have hstandard := hread Base64.standard (by decide) [] [] (List.forall_mem_nil _)
      (List.forall_mem_nil _)
    rw [List.nil_append, List.append_nil] at hstandard
    exact hstandard
  · intro f hf before after hbefore hafter
    have hforms : ∀ f ∈ [Base64.standard, Base64.standardBare, Base64.urlSafe,
        Base64.urlSafeBare], f ∈ forms := by decide
    rw [← text_record]
    exact hread f (hforms f hf) before after hbefore hafter

/-- The least key, in the alphabet for URLs and without padding, between blanks. -/
theorem decode?_token_leastKey :
    (∀ c ∈ [' ', '\t'], isBlank c = true) ∧ (∀ c ∈ ['\n'], isBlank c = true) ∧
      decode? " \teyJsYXN0X2lkIjotOTIyMzM3MjAzNjg1NDc3NTgwOH0\n"
        = some (-9223372036854775808) := by
  have hbefore : ∀ c ∈ [' ', '\t'], isBlank c = true := List.all_eq_true.1 (by decide)
  have hafter : ∀ c ∈ ['\n'], isBlank c = true := List.all_eq_true.1 (by decide)
  have hread := (decode?_token (-9223372036854775808)).2 Base64.urlSafeBare (by decide) _ _
    hbefore hafter
  have htext : String.ofList ([' ', '\t'] ++ Base64.encode Base64.urlSafeBare
      (asciiBytes ("\x7b\"last_id\":" ++ showInt64 (-9223372036854775808) ++ "\x7d").toList)
        ++ ['\n']) = " \teyJsYXN0X2lkIjotOTIyMzM3MjAzNjg1NDc3NTgwOH0\n" := by decide
  rw [htext] at hread
  exact ⟨hbefore, hafter, hread⟩

end ReadQuery.Page.Token
