import ReadQuery.Input.OrderText
import ReadQuery.Proofs.FieldRef
import ReadQuery.Proofs.Input.Recognizer
import ReadQuery.Proofs.Json.Scanning
import ReadQuery.Proofs.Outcome
import ReadQuery.Proofs.Text

/-!
# Orderings in all their forms

An entry of an ordering ends at a comma (`stopsAt_parts`), so that texts which are entries by
themselves are the same entries in a list, between commas as well as in a JSON array. The spellings
of a direction, in front of a field and behind it, say the same of it (`parseEntry_spelling`).
-/

namespace ReadQuery.Input.OrderText

open Recognizer
open Text (isNameChar isNameStart skipGap)
open Json (Written)

/-- A sign does not look behind a comma. -/
lemma stopsAt_sign : StopsAt ',' sign :=
  ((stopsAt_char (by decide)).bind fun _ => .pure _).orElse
    ((stopsAt_char (by decide)).bind fun _ => .pure _)

/-- A field does not look behind a comma. -/
lemma stopsAt_fieldPath : StopsAt ',' fieldPath := by
  intro cs ds
  cases cs with
  | nil => rfl
  | cons c cs =>
    have hrun := takeWhile_append_mark (P := fun d => isNameChar d || d == '.') (m := ',')
      (by decide) cs ds
    simp only [fieldPath, List.cons_append, hrun]
    split <;> rfl

/-- The word of a direction does not look behind a comma. -/
lemma stopsAt_keyword {s : String} (h : ',' ∉ s.toList) (d : Direction) :
    StopsAt ',' (do
      word s
      pure d) :=
  (stopsAt_word h).bind fun _ => .pure d

/-- A direction does not look behind a comma. -/
lemma stopsAt_direction : StopsAt ',' direction := by
  have hkeyword := (stopsAt_keyword (s := "descending") (by decide) .descending).orElse
    ((stopsAt_keyword (s := "ascending") (by decide) .ascending).orElse
      ((stopsAt_keyword (s := "desc") (by decide) .descending).orElse
        (stopsAt_keyword (s := "asc") (by decide) .ascending)))
  exact hkeyword.bind fun d => (stopsAt_nameEnd (by decide)).bind fun _ => .pure d

/-- An entry ends at a comma. -/
lemma stopsAt_parts : StopsAt ',' parts := by
  have hgap : StopsAt ',' gap := stopsAt_gap (by decide)
  have hfirst : StopsAt ',' (do
      char ':'
      gap
      direction) :=
    (stopsAt_char (by decide)).bind fun _ => hgap.bind fun _ => stopsAt_direction
  exact stopsAt_sign.maybe.bind fun _ => hgap.bind fun _ => stopsAt_fieldPath.bind fun _ =>
    hgap.bind fun _ => hfirst.maybe.bind fun _ => hgap.bind fun _ =>
      stopsAt_direction.maybe.bind fun _ => .pure _

variable {s : String} {cs rest : List Char} {p : Parts} {e : SortEntry}

/-- There is no field where no name begins. -/
lemma fieldPath_of_head (h : ∀ c, cs.head? = some c → isNameStart c = false) :
    fieldPath cs = none := by
  cases cs with
  | nil => rfl
  | cons c cs =>
    rw [fieldPath, h c rfl]
    rfl

/-- The first character of a name may stand in an identifier. -/
lemma isChar_of_isNameStart {c : Char} (h : isNameStart c = true) :
    Identifier.isChar c = true := by
  rw [Identifier.isChar, isNameChar_of_isNameStart h, Bool.true_or]

/-- No entry is made of blanks. -/
lemma parts_of_blank (h : ∀ c ∈ cs, Text.isBlank c = true) : parts cs = none := by
  have hhead : ∀ d, Text.isBlank d = false → cs.head? ≠ some d := by
    intro d hd hhead
    rw [h d (List.mem_of_head? hhead)] at hd
    cases hd
  have hsign : sign cs = none :=
    orElse_eq_none (bind_of_eq_none (char_of_head_ne (hhead '-' (by decide))))
      (bind_of_eq_none (char_of_head_ne (hhead '+' (by decide))))
  have hfield : fieldPath (skipGap cs) = none := by
    refine fieldPath_of_head fun c hc => ?_
    have hmem : c ∈ cs := (List.dropWhile_sublist _).subset (List.mem_of_head? hc)
    rw [Bool.eq_false_iff]
    intro hstart
    have hblank := h c hmem
    rw [Identifier.isBlank_of_isChar (isChar_of_isNameStart hstart)] at hblank
    cases hblank
  rw [parts, bind_of_eq_some (maybe_of_eq_none hsign), gap_bind, bind_of_eq_none hfield]

/-- An entry is what the parts of its text say. -/
lemma parseEntry_eq_ok :
    parseEntry s = .ok e ↔ ∃ p, whole? parts s = some p ∧ p.entry = e := by
  rw [parseEntry]
  cases whole? parts s with
  | none => simp
  | some p => simp

/-- The text of an entry is taken as the same entry in front of a comma. -/
lemma takes_parts (h : whole? parts s = some p) :
    Takes (EndsAt ',') parts (skipGap s.toList) p ∧
      Takes (EndsAt ',') (do gap; parts) s.toList p := by
  obtain ⟨ds, hparts, hds⟩ := whole?_eq_some.1 h
  have hgap : StopsAt ',' gap := stopsAt_gap (by decide)
  refine ⟨stopsAt_parts.takes hparts hds, (hgap.bind fun _ => stopsAt_parts).takes ?_ hds⟩
  rw [gap_bind, hparts]

/-- A comma and blanks. -/
def IsComma (mid : List Char) : Prop :=
  ∃ blanks, mid = ',' :: blanks ∧ skipGap blanks = []

/-- A comma separates the entries of a list. -/
lemma IsComma.separates {mid : List Char} (h : IsComma mid) : Separates (char ',') mid := by
  obtain ⟨blanks, rfl, hblanks⟩ := h
  intro cs
  refine ⟨(), blanks ++ cs, char_cons_self ',' _, skipGap_append hblanks cs, ?_⟩
  show cs.length < (',' :: (blanks ++ cs)).length
  rw [List.length_cons, List.length_append]
  omega

/-- Entries that can be read have parts that can be recognized. -/
lemma exists_parts {texts : List String} {es : List SortEntry}
    (h : texts.mapM parseEntry = .ok es) :
    ∃ ps, List.Forall₂ (fun text p => whole? parts text = some p) texts ps ∧
      ps.map Parts.entry = es := by
  have hentries := mapM_eq_ok_iff.1 h
  clear h
  induction hentries with
  | nil => exact ⟨[], .nil, rfl⟩
  | cons he _ ih =>
    obtain ⟨p, hp, rfl⟩ := parseEntry_eq_ok.1 he
    obtain ⟨ps, hps, rfl⟩ := ih
    exact ⟨p :: ps, .cons hp hps, rfl⟩

/-- The text of an entry is not blank. -/
lemma exists_not_blank (h : whole? parts s = some p) :
    ∃ c ∈ s.toList, Text.isBlank c = false := by
  by_contra hall
  obtain ⟨ds, hparts, -⟩ := whole?_eq_some.1 h
  rw [parts_of_blank] at hparts
  · cases hparts
  · intro c hc
    by_contra hblank
    exact hall ⟨c, (List.dropWhile_sublist _).subset hc, Bool.eq_false_iff.2 hblank⟩

/-- Texts of entries are taken as a list of the entries, whatever blanks follow the commas. -/
lemma entries_joined {mid text : String} (hmid : IsComma mid.toList) {texts : List String}
    {ps : List Parts} (htext : whole? parts text = some p)
    (htexts : List.Forall₂ (fun text p => whole? parts text = some p) texts ps) :
    whole? entries (mid.intercalate (text :: texts)) = some (p :: ps) := by
  obtain ⟨ds, hparts, hds⟩ := whole?_eq_some.1 htext
  have hne : skipGap text.toList ≠ [] := by
    intro hnil
    rw [hnil] at hparts
    cases hparts
  have hfurther : List.Forall₂ (Takes (EndsAt ',') (do gap; parts)) (texts.map String.toList) ps :=
    List.forall₂_map_left_iff.2 (htexts.imp fun _ _ h => (takes_parts h).2)
  have hfollow : ∀ cs, EndsAt ',' (mid.toList ++ cs) := by
    obtain ⟨blanks, hblanks, -⟩ := hmid
    intro cs
    exact .inr ⟨blanks ++ cs, by rw [hblanks, List.cons_append]⟩
  obtain ⟨ds', hds', hgap⟩ := separated_takes (takes_parts htext).1 hfurther hmid.separates hfollow
    (.inl rfl) (by rfl)
  refine whole?_eq_some.2 ⟨skipGap ds', orElse_of_eq_some ?_, ?_⟩
  · rw [Text.toList_intercalate_cons, skipGap_append_of_ne_nil hne]
    rw [List.append_nil] at hds'
    rw [bind_of_eq_some hds', gap_bind, hgap]
    rfl
  · rw [skipGap_skipGap, hgap]
    rfl

/-- Texts of entries with commas between them are a list of the entries. -/
theorem parseList_intercalate {mid : String} (hmid : IsComma mid.toList) {texts : List String}
    {es : List SortEntry} (h : texts.mapM parseEntry = .ok es) :
    parseList (mid.intercalate texts) = .ok es := by
  obtain ⟨ps, hps, rfl⟩ := exists_parts h
  cases hps with
  | nil => rfl
  | @cons text p texts ps htext htexts =>
    obtain ⟨c, hc, hblank⟩ := exists_not_blank htext
    have hjoined : Text.allBlank (mid.intercalate (text :: texts)) = false := by
      rw [Text.allBlank, Text.toList_intercalate_cons, List.all_eq_false]
      exact ⟨c, List.mem_append_left _ hc, by rw [hblank]; decide⟩
    rw [parseList, hjoined, entries_joined hmid htext htexts]
    rfl

/-- The items of an array are read as the texts that they are written as. -/
lemma mapM_jsonEntry {items : List Written} {texts : List String}
    (h : Written.readAll? (Json.maxDepth - 1) items = some (texts.map .string)) :
    items.mapM jsonEntry = texts.mapM parseEntry := by
  induction items generalizing texts with
  | nil =>
    obtain rfl : texts = [] := List.map_eq_nil_iff.1 (Option.some.inj h).symm
    rfl
  | cons w items ih =>
    rw [Written.readAll?, Option.bind_eq_some_iff] at h
    obtain ⟨j, hj, h⟩ := h
    obtain ⟨js, hjs, heq⟩ := Option.map_eq_some_iff.1 h
    cases texts with
    | nil => cases heq
    | cons text texts =>
      obtain ⟨rfl, rfl⟩ := List.cons.inj heq
      rw [List.mapM_cons, List.mapM_cons, ih hjs, jsonEntry, hj]

/-- A text of a JSON array of texts of entries lists the entries. -/
theorem parseJson_of_ofText? {texts : List String}
    (h : Json.ofText? s = some (.array (texts.map .string))) :
    parseJson s = texts.mapM parseEntry := by
  obtain ⟨w, hw, hread⟩ := Option.bind_eq_some_iff.1 h
  obtain ⟨items, rfl, hitems⟩ := Written.of_read?_array hread
  rw [parseJson, hw]
  exact mapM_jsonEntry hitems

/-- The text of an array of strings is read back. -/
lemma ofText?_strings (texts : List String) :
    Json.ofText? (Json.array (texts.map .string)).text = some (.array (texts.map .string)) := by
  refine Json.ofText?_array (List.forall_mem_map.2 fun text _ => ?_)
    (List.forall_mem_map.2 fun text _ => ?_)
  · trivial
  · exact .string text

/-- What is read behind the field of an entry. -/
def directions (s : Option Direction) (field : List Char) : Recognizer Parts := do
  gap
  let first ← maybe do
    char ':'
    gap
    direction
  gap
  let second ← maybe direction
  pure ⟨s, field, second.orElse fun _ => first⟩

/-- A letter or underscore, and name characters and dots. -/
def IsFieldPath (cs : List Char) : Prop :=
  ∃ c ds, cs = c :: ds ∧ isNameStart c = true ∧ ∀ d ∈ ds, Identifier.isChar d = true

/-- A text behind which a field ends. -/
def EndsField (cs : List Char) : Prop :=
  ∀ c, cs.head? = some c → Identifier.isChar c = false

/-- A field is taken up to its end. -/
lemma fieldPath_append (hcs : IsFieldPath cs) (hrest : EndsField rest) :
    fieldPath (cs ++ rest) = some (cs, rest) := by
  obtain ⟨c, ds, rfl, hc, hds⟩ := hcs
  obtain ⟨htake, hdrop⟩ := takeWhile_append hds hrest
  show (if isNameStart c then some (c :: (ds ++ rest).takeWhile Identifier.isChar,
    (ds ++ rest).dropWhile Identifier.isChar) else none) = _
  rw [if_pos hc, htake, hdrop]

/-- The characters of a field may stand in identifiers. -/
lemma IsFieldPath.isChar (h : IsFieldPath cs) : ∀ c ∈ cs, Identifier.isChar c = true := by
  obtain ⟨c, ds, rfl, hc, hds⟩ := h
  exact List.forall_mem_cons.2 ⟨isChar_of_isNameStart hc, hds⟩

/-- There is no blank in front of a field. -/
lemma IsFieldPath.starts (h : IsFieldPath cs) : Starts cs := by
  obtain ⟨c, ds, rfl, hc, -⟩ := h
  exact ⟨c, ds, rfl, Identifier.isBlank_of_isChar (isChar_of_isNameStart hc)⟩

/-- There is no sign in front of a field. -/
lemma sign_of_isFieldPath (h : IsFieldPath cs) (rest : List Char) : sign (cs ++ rest) = none := by
  obtain ⟨c, ds, rfl, hc, -⟩ := h
  have hne : ∀ d, isNameStart d = false → (c :: ds ++ rest).head? ≠ some d := by
    rintro d hd ⟨⟩
    rw [hc] at hd
    cases hd
  exact orElse_eq_none (bind_of_eq_none (char_of_head_ne (hne '-' (by decide))))
    (bind_of_eq_none (char_of_head_ne (hne '+' (by decide))))

/-- Behind a sign or none, an entry is its field and what follows it. -/
lemma parts_append {d : Option Direction} {front : List Char}
    (hfront : maybe sign (front ++ (cs ++ rest)) = some (d, cs ++ rest)) (hcs : IsFieldPath cs)
    (hrest : EndsField rest) : parts (front ++ (cs ++ rest)) = directions d cs rest := by
  rw [parts, bind_of_eq_some hfront, gap_bind, (hcs.starts.append rest).skipGap,
    bind_of_eq_some (fieldPath_append hcs hrest)]
  rfl

/-- A text whose first blank stands behind a field is the entry that is read of it. -/
lemma parseEntry_of_directions {d : Option Direction} {front : List Char}
    (hs : s.toList = front ++ (cs ++ rest)) (hstarts : Starts s.toList)
    (hfront : maybe sign s.toList = some (d, cs ++ rest)) (hcs : IsFieldPath cs)
    (hrest : EndsField rest) (hdirections : directions d cs rest = some (p, [])) :
    parseEntry s = .ok p.entry := by
  refine parseEntry_eq_ok.2 ⟨p, whole?_eq_some.2 ⟨[], ?_, rfl⟩, rfl⟩
  rw [hs] at hfront
  rw [hstarts.skipGap, hs, parts_append hfront hcs hrest, hdirections]

/-- A field that is all of an entry: a letter or underscore, and name characters and dots, where no
keyword of a direction stands behind the last dot. -/
structure IsSortField (field : String) : Prop where
  isFieldPath : IsFieldPath field.toList
  undirected : ∀ head tail : String, field = head ++ "." ++ tail → head ≠ "" →
    '.' ∉ tail.toList → Text.lower tail ∉ ["asc", "ascending", "desc", "descending"]

/-- A word that is none of the four keywords is no direction. -/
lemma ofKeyword?_eq_none {word : String} (htrim : Text.trim word = word)
    (h : Text.lower word ∉ ["asc", "ascending", "desc", "descending"]) :
    Direction.ofKeyword? word = none := by
  simp only [List.mem_cons, List.not_mem_nil, or_false, not_or] at h
  obtain ⟨hasc, hascending, hdesc, hdescending⟩ := h
  simp [Direction.ofKeyword?, htrim, hasc, hascending, hdesc, hdescending]

/-- A field that is all of an entry is not split. -/
lemma splitDirection_of_isSortField {field : String} (h : IsSortField field) :
    splitDirection field = (field, none) := by
  rw [splitDirection]
  cases hcut : Text.cutLast? '.' field with
  | none => rfl
  | some x =>
    obtain ⟨head, tail⟩ := x
    obtain ⟨hfield, htail⟩ := Text.cutLast?_eq_some hcut
    by_cases hhead : head = ""
    · subst hhead
      rfl
    · have hblank : ∀ c ∈ tail.toList, Text.isBlank c = false := by
        intro c hc
        apply Identifier.isBlank_of_isChar
        apply h.isFieldPath.isChar
        rw [hfield, String.toList_append]
        exact List.mem_append_right _ hc
      have hkeyword := ofKeyword?_eq_none (Text.trim_of_no_blank hblank)
        (h.undirected head tail hfield hhead htail)
      simp [hhead, hkeyword]

/-- A field with a direction behind its last dot is split there. -/
lemma splitDirection_suffix {field word : String} {d : Direction} (hfield : field ≠ "")
    (hword : Direction.ofKeyword? word = some d) (hdot : '.' ∉ word.toList) :
    splitDirection (field ++ "." ++ word) = (field, some d) := by
  have hcut := Text.cutLast?_append hdot field
  rw [splitDirection, show "." = String.ofList ['.'] from rfl, hcut]
  simp [hfield, hword]

/-- Of a field by itself, the directions around it decide. -/
lemma entry_of_isSortField {field : String} (h : IsSortField field) (sign d : Option Direction) :
    (Parts.mk sign field.toList d).entry
      = ⟨field, (d.orElse fun _ => sign).getD .ascending⟩ := by
  rw [Parts.entry, String.ofList_toList, splitDirection_of_isSortField h]
  cases d <;> rfl

/-- A field ends at the end of the text. -/
lemma endsField_nil : EndsField [] := by
  rintro c ⟨⟩

/-- A field ends in front of a character that cannot stand in it. -/
lemma endsField_cons {c : Char} (h : Identifier.isChar c = false) (cs : List Char) :
    EndsField (c :: cs) := by
  rintro d ⟨⟩
  exact h

section

variable {field : String} {d : Direction} (h : IsSortField field)
include h

/-- A field is sorted in the direction of the sign in front of it. -/
lemma parseEntry_signed (c : Char) (hc : Text.isBlank c = false)
    (hsign : ∀ cs, sign (c :: cs) = some (d, cs)) :
    parseEntry (String.ofList [c] ++ field) = .ok ⟨field, d⟩ := by
  have hchars : (String.ofList [c] ++ field).toList = [c] ++ (field.toList ++ []) := by simp
  have hstarts : Starts (String.ofList [c] ++ field).toList := ⟨c, _, hchars, hc⟩
  have hfront : maybe sign (String.ofList [c] ++ field).toList
      = some (some d, field.toList ++ []) := by
    rw [hchars]
    exact maybe_of_eq_some (hsign _)
  rw [parseEntry_of_directions hchars hstarts hfront h.isFieldPath endsField_nil rfl,
    entry_of_isSortField h]
  rfl

/-- A field is sorted in the direction that is read behind it. -/
lemma parseEntry_behind (word : String) (hends : EndsField word.toList)
    (hword : directions none field.toList word.toList
      = some (⟨none, field.toList, some d⟩, [])) :
    parseEntry (field ++ word) = .ok ⟨field, d⟩ := by
  have hchars : (field ++ word).toList = [] ++ (field.toList ++ word.toList) := by simp
  have hstarts : Starts (field ++ word).toList := by
    rw [hchars]
    exact h.isFieldPath.starts.append _
  have hfront : maybe sign (field ++ word).toList = some (none, field.toList ++ word.toList) := by
    rw [hchars]
    exact maybe_of_eq_none (sign_of_isFieldPath h.isFieldPath _)
  rw [parseEntry_of_directions hchars hstarts hfront h.isFieldPath hends hword,
    entry_of_isSortField h]
  rfl

/-- A field is sorted in the direction of the keyword behind a last dot. -/
lemma parseEntry_dotted {word : String} (hword : Direction.ofKeyword? word = some d)
    (hname : ∀ c ∈ word.toList, isNameChar c = true) :
    parseEntry (field ++ "." ++ word) = .ok ⟨field, d⟩ := by
  have hchars : (field ++ "." ++ word).toList = [] ++ ((field ++ "." ++ word).toList ++ []) := by
    simp
  have hpath : IsFieldPath (field ++ "." ++ word).toList := by
    obtain ⟨c, ds, hfield, hc, hds⟩ := h.isFieldPath
    refine ⟨c, ds ++ '.' :: word.toList, by simp [hfield], hc, ?_⟩
    refine List.forall_mem_append.2 ⟨hds, List.forall_mem_cons.2 ⟨by decide, fun c hc => ?_⟩⟩
    rw [Identifier.isChar, hname c hc, Bool.true_or]
  have hdot : '.' ∉ word.toList := by
    intro hmem
    cases hname '.' hmem
  have hne : field ≠ "" := by
    rintro rfl
    obtain ⟨c, ds, hnil, -⟩ := h.isFieldPath
    cases hnil
  have hfront := maybe_of_eq_none (sign_of_isFieldPath hpath [])
  rw [parseEntry_of_directions hchars hpath.starts (by rw [← hfront]; simp) hpath endsField_nil rfl,
    Parts.entry, String.ofList_toList, splitDirection_suffix hne hword hdot]
  rfl

end

/-- The spellings of an entry with its direction in front of the field or behind it. -/
def spellings (e : SortEntry) : List String :=
  match e.direction with
  | .descending => ["-" ++ e.field, e.field ++ ":desc", e.field ++ ".desc"]
  | .ascending => ["+" ++ e.field, e.field ++ ":asc", e.field ++ ".asc"]

/-- An entry is read from its field and its direction, however the direction is spelled. -/
theorem parseEntry_spelling (h : IsSortField e.field) :
    ∀ text ∈ e.text :: spellings e, parseEntry text = .ok e := by
  obtain ⟨field, d⟩ := e
  cases d with
  | descending =>
    have htext := parseEntry_behind h " DESC" (endsField_cons (by decide) _) rfl
    have hminus := parseEntry_signed h '-' (by decide) fun _ => rfl
    have hcolon := parseEntry_behind h ":desc" (endsField_cons (by decide) _) rfl
    have hkeyword : Direction.ofKeyword? "desc" = some .descending := by decide
    have hdot := parseEntry_dotted h hkeyword (List.all_eq_true.1 rfl)
    rw [String.append_assoc] at hdot
    rw [SortEntry.text, String.append_assoc, spellings]
    simp only [List.forall_mem_cons]
    exact ⟨htext, hminus, hcolon, hdot, List.forall_mem_nil _⟩
  | ascending =>
    have htext := parseEntry_behind h " ASC" (endsField_cons (by decide) _) rfl
    have hplus := parseEntry_signed h '+' (by decide) fun _ => rfl
    have hcolon := parseEntry_behind h ":asc" (endsField_cons (by decide) _) rfl
    have hkeyword : Direction.ofKeyword? "asc" = some .ascending := by decide
    have hdot := parseEntry_dotted h hkeyword (List.all_eq_true.1 rfl)
    rw [String.append_assoc] at hdot
    rw [SortEntry.text, String.append_assoc, spellings]
    simp only [List.forall_mem_cons]
    exact ⟨htext, hplus, hcolon, hdot, List.forall_mem_nil _⟩

/-- Texts that are entries by themselves list the same entries in every JSON array of them and
between commas, and the entries of an ordering are read from all their texts. -/
theorem entries_read_alike {texts : List String} {es : List SortEntry}
    (htexts : texts.mapM parseEntry = .ok es) {fs : List SortEntry}
    (hfs : ∀ f ∈ fs, IsSortField f.field) :
    (∀ s, Json.ofText? s = some (.array (texts.map .string)) → parseJson s = .ok es) ∧
    parseJson (Json.array (texts.map .string)).text = .ok es ∧
    parseList (",".intercalate texts) = .ok es ∧
    parseList (", ".intercalate (fs.map SortEntry.text)) = .ok fs ∧
    ∀ f ∈ fs, ∀ text ∈ spellings f, parseEntry text = .ok f := by
  have hjson : ∀ s, Json.ofText? s = some (.array (texts.map .string)) → parseJson s = .ok es := by
    intro s hs
    rw [parseJson_of_ofText? hs, htexts]
  have hfs' : (fs.map SortEntry.text).mapM parseEntry = .ok fs := by
    rw [mapM_eq_ok_iff, List.forall₂_map_left_iff, List.forall₂_same]
    exact fun f hf => parseEntry_spelling (hfs f hf) f.text List.mem_cons_self
  refine ⟨hjson, hjson _ (ofText?_strings texts), ?_, ?_, ?_⟩
  · exact parseList_intercalate ⟨[], rfl, rfl⟩ htexts
  · exact parseList_intercalate ⟨[' '], rfl, rfl⟩ hfs'
  · intro f hf text htext
    exact parseEntry_spelling (hfs f hf) text (List.mem_cons_of_mem _ htext)

/-- A field is all of an entry if no direction stands behind its last dot. -/
lemma isSortField_of_cutLast? {field : String} (hpath : IsFieldPath field.toList)
    (h : ∀ x, Text.cutLast? '.' field = some x →
      Text.lower x.2 ∉ ["asc", "ascending", "desc", "descending"]) : IsSortField field where
  isFieldPath := hpath
  undirected := by
    rintro head tail rfl - htail
    exact h (head, tail) (Text.cutLast?_append htail head)

/-- A path, and a field that is named as a direction. -/
def rankedEntries : List SortEntry :=
  [⟨"meta.rank", .descending⟩, ⟨"asc", .ascending⟩]

/-- Blanks around an entry, a spelled-out direction, and a field named as a direction. -/
theorem entries_read_alike_rankedEntries :
    [" -meta.rank\t", "name : DESCENDING", "desc.asc"].mapM parseEntry
      = .ok [⟨"meta.rank", .descending⟩, ⟨"name", .descending⟩, ⟨"desc", .ascending⟩] ∧
    (∀ f ∈ rankedEntries, IsSortField f.field) ∧
    parseJson "[\" -meta.rank\\t\",\"name : DESCENDING\",\"desc.asc\"]"
      = .ok [⟨"meta.rank", .descending⟩, ⟨"name", .descending⟩, ⟨"desc", .ascending⟩] ∧
    parseList " -meta.rank\t,name : DESCENDING,desc.asc"
      = .ok [⟨"meta.rank", .descending⟩, ⟨"name", .descending⟩, ⟨"desc", .ascending⟩] ∧
    parseList "meta.rank DESC, asc ASC" = .ok rankedEntries := by
  have htexts : [" -meta.rank\t", "name : DESCENDING", "desc.asc"].mapM parseEntry
      = .ok [⟨"meta.rank", .descending⟩, ⟨"name", .descending⟩, ⟨"desc", .ascending⟩] := by
    rfl
  have hfields : ∀ f ∈ rankedEntries, IsSortField f.field := by
    refine List.forall_mem_cons.2 ⟨?_, List.forall_mem_singleton.2 ?_⟩
    · have hpath : IsFieldPath "meta.rank".toList :=
        ⟨'m', "eta.rank".toList, rfl, by decide, List.all_eq_true.1 rfl⟩
      refine isSortField_of_cutLast? hpath ?_
      rintro x ⟨⟩
      decide
    · have hpath : IsFieldPath "asc".toList :=
        ⟨'a', "sc".toList, rfl, by decide, List.all_eq_true.1 rfl⟩
      exact isSortField_of_cutLast? hpath nofun
  obtain ⟨-, hjson, hlist, hranked, -⟩ := entries_read_alike htexts hfields
  exact ⟨htexts, hfields, hjson, hlist, hranked⟩

end ReadQuery.Input.OrderText
