import ReadQuery.Proofs.FieldRef
import ReadQuery.Proofs.Sql.Lexis
import ReadQuery.Proofs.Sql.Scan
import ReadQuery.Sql.Filter

/-!
# Fragments of SQL

The two kinds of fragments that statements are made of. A neat fragment is clean, has no placeholder
and leaves the reader where it was (`Neat`): identifiers, literals, fields and parts of dates in
every dialect. A class of texts that holds all that fields, names and numbers are written with holds
the fields, too (`Dialect.Admits`). A predicate is sound (`Predicate.Sound`) if its text is clean
and a scan of it finds one placeholder for each of the values bound. The main statement,
`condition_rendered`, says that every rendered condition is a single sound predicate, in every
dialect and for every operator.
-/

namespace ReadQuery.Sql

open Placeholder

/-- A fragment without placeholders that leaves the reader outside of literals. -/
def Inert (s : String) : Prop :=
  scan .bare s.toList = some (.bare, 0)

/-- A clean fragment without placeholders. -/
structure Neat (d : Dialect) (s : String) : Prop where
  inert : Inert s
  clean : d.Clean s.toList

/-- A predicate with one placeholder for each of its values. -/
def Predicate.Binds (p : Predicate) : Prop :=
  ∃ q : Place, q.isQuoted = false ∧ scan .bare p.sql.toList = some (q, p.params.length)

/-- A clean predicate with one placeholder for each of its values. -/
structure Predicate.Sound (d : Dialect) (p : Predicate) : Prop where
  binds : p.Binds
  clean : d.Clean p.sql.toList

/-- What holds of the empty text and of two texts around a separator holds of any number of
texts. -/
lemma intercalate_induction {P : String → Prop} {sep : String} (h0 : P "")
    (happ : ∀ s t, P s → P t → P (s ++ sep ++ t)) :
    ∀ {items : List String}, (∀ s ∈ items, P s) → P (sep.intercalate items)
  | [], _ => by simpa using h0
  | [s], h => by simpa using h s (by simp)
  | s :: t :: items, h => by
    have ht : P (sep.intercalate (t :: items)) :=
      intercalate_induction h0 happ fun u hu => h u (by simp [hu])
    rw [String.intercalate_cons_cons]
    exact happ _ _ (h s (by simp)) ht

variable {d : Dialect}

/-- Two fragments in a row neither hold a placeholder nor leave a literal open. -/
lemma Inert.append {s t : String} (hs : Inert s) (ht : Inert t) : Inert (s ++ t) := by
  unfold Inert at hs ht ⊢
  rw [String.toList_append]
  exact scan_append hs ht

/-- Two clean fragments in a row are one. -/
lemma Neat.append {s t : String} (hs : Neat d s) (ht : Neat d t) : Neat d (s ++ t) where
  inert := hs.inert.append ht.inert
  clean := by
    rw [String.toList_append]
    exact hs.clean.append ht.clean

/-- Fragments are joined to a fragment, if the separator is one too. -/
lemma neat_intercalate {sep : String} (hsep : Neat d sep) {items : List String}
    (h : ∀ s ∈ items, Neat d s) : Neat d (sep.intercalate items) :=
  intercalate_induction (P := Neat d) ⟨rfl, .nil⟩
    (fun _ _ hs ht => (hs.append hsep).append ht) h

/-- Outside of literals, all characters but quotes, question marks and dollar signs are passed. -/
lemma scan_of_pass {cs : List Char} (h : ∀ c ∈ cs, c ≠ '\'' ∧ c ≠ '?' ∧ c ≠ '$') :
    scan .bare cs = some (.bare, 0) := by
  induction cs with
  | nil => rfl
  | cons c cs ih =>
    obtain ⟨h1, h2, h3⟩ := h c (by simp)
    have ht := ih fun d hd => h d (by simp [hd])
    have hc : Place.bare.read c = some (.bare, 0) := by
      simp [Place.read, h1, h2, h3]
    simp [scan, hc, ht]

/-- A text without quotation marks does not end a literal. -/
lemma scan_quoted_of_pass {cs : List Char} (h : ∀ c ∈ cs, c ≠ '\'') :
    scan .quoted cs = some (.quoted, 0) := by
  induction cs with
  | nil => rfl
  | cons c cs ih =>
    have hc := h c (by simp)
    have ht := ih fun d hd => h d (by simp [hd])
    simp [scan, Place.read_quoted, hc, ht]

/-- A character without any meaning in statements. -/
def isPlainChar (c : Char) : Bool :=
  isFree c && c != '?' && c != '$'

/-- What is plain is free of quotes and marks no placeholder of any dialect. -/
lemma isPlainChar_iff {c : Char} :
    isPlainChar c = true ↔ isFree c = true ∧ c ≠ '?' ∧ c ≠ '$' := by
  simp [isPlainChar, and_assoc]

/-- A text of plain characters is a fragment in every dialect. -/
lemma neat_of_plainChars {s : String} (h : ∀ c ∈ s.toList, isPlainChar c = true) : Neat d s where
  inert := scan_of_pass fun c hc =>
    have hplain := isPlainChar_iff.1 (h c hc)
    ⟨(isFree_iff.1 hplain.1).1, hplain.2⟩
  clean := .of_free fun c hc => (isPlainChar_iff.1 (h c hc)).1

/-- Most of the constant fragments can be checked by computation. -/
lemma Neat.const {s : String} (h : s.toList.all isPlainChar = true) : Neat d s :=
  neat_of_plainChars (List.all_eq_true.1 h)

/-- The characters of identifiers are plain. -/
lemma isPlainChar_of_isChar {c : Char} (h : Identifier.isChar c = true) : isPlainChar c = true := by
  rw [isPlainChar_iff]
  refine ⟨isFree_of_isChar h, ?_, ?_⟩ <;> rintro rfl <;> revert h <;> decide

/-- Identifiers are fragments. -/
lemma neat_of_plain {s : String} (h : Identifier.Plain s) : Neat d s :=
  neat_of_plainChars fun c hc => isPlainChar_of_isChar (h c hc)

/-- Digits are plain. -/
lemma isPlainChar_of_isDigit {c : Char} (h : c.isDigit = true) : isPlainChar c = true := by
  rw [isPlainChar_iff]
  refine ⟨isFree_of_isDigit h, ?_, ?_⟩ <;> rintro rfl <;> simp at h

/-- Numbers are fragments. -/
lemma neat_toString (n : Nat) : Neat d (toString n) :=
  neat_of_plainChars fun _ hc => isPlainChar_of_isDigit (isDigit_of_mem_toString hc)

/-- A minus in front of a number is no part of a comment. -/
lemma neat_negative (n : Nat) : Neat d ("-" ++ toString n) := by
  refine ⟨Inert.append (s := "-") rfl (neat_toString (d := d) n).inert, ?_⟩
  rw [String.toList_append]
  have hdigit := fun c (hc : c ∈ (toString n).toList) => isDigit_of_mem_toString hc
  cases hn : (toString n).toList with
  | nil => exact absurd hn (by simp)
  | cons c cs =>
    rw [hn, List.forall_mem_cons] at hdigit
    exact .minus hdigit.1 (.of_free fun c hc => isFree_of_isDigit (hdigit.2 c hc))

/-- A literal of a text that the dialect permits is a fragment. -/
lemma neat_literal {s : String} (h : d.Permits s) : Neat d (Dialect.literal s) := by
  have ho : scan .bare ['\''] = some (.quoted, 0) := rfl
  have hc : scan .quoted ['\''] = some (.bare, 0) := rfl
  have hpass : scan .quoted s.toList = some (.quoted, 0) :=
    scan_quoted_of_pass fun c hc => (isFree_iff.1 (h.isFree c hc)).1
  have hs := scan_append ho (scan_append hpass hc)
  exact ⟨by simpa [Inert, Dialect.literal] using hs, .enclosed h⟩

/-- Any identifier may stand in a literal. -/
lemma neat_literal_of_plain {s : String} (h : Identifier.Plain s) : Neat d (Dialect.literal s) :=
  neat_literal (.inr (pathText_of_plain h))

/-- The path into a document is a text of identifiers in the form the dialect quotes. -/
lemma pathText_jsonPath {path : List String} (h : ∀ s ∈ path, Identifier.Plain s) :
    PathText (Dialect.jsonPath path).toList := by
  have hp : PathText ("".intercalate (path.map fun segment =>
      if Dialect.isIndex segment then "[" ++ segment ++ "]" else "." ++ segment)).toList := by
    refine intercalate_induction (P := fun s => PathText s.toList) .nil ?_ ?_
    · intro s t hs ht
      simpa using hs.append ht
    · intro s hs
      obtain ⟨segment, hseg, rfl⟩ := List.mem_map.1 hs
      split
      · next hindex =>
        simp only [Dialect.isIndex, Bool.and_eq_true, List.all_eq_true] at hindex
        have hne : segment.toList ≠ [] := by simpa using hindex.1
        simpa using PathText.index hne hindex.2 .nil
      · have hdot : Identifier.isChar '.' = true := rfl
        simpa using PathText.char (.inl hdot) (pathText_of_plain (h segment hseg))
  simpa [Dialect.jsonPath] using PathText.char (c := '$') (.inr rfl) hp

/-- A class of texts that holds, with the texts put together of its members, all that the fields,
names and numbers of a statement are written with. -/
structure Dialect.Admits (d : Dialect) (P : String → Prop) : Prop where
  append {s t : String} : P s → P t → P (s ++ t)
  plainChars {s : String} : (∀ c ∈ s.toList, isPlainChar c = true) → P s
  negative (n : Nat) : P ("-" ++ toString n)
  arrow : P "->"
  textArrow : P "->>"
  literal {s : String} : Identifier.Plain s → P (Dialect.literal s)
  /-- PostgreSQL has no paths, in which there are dollar signs. -/
  jsonPath {path : List String} : d ≠ .postgres → (∀ s ∈ path, Identifier.Plain s) →
    P (Dialect.literal (Dialect.jsonPath path))

/-- Clean fragments are a class of this kind. -/
lemma admits_neat (d : Dialect) : d.Admits (Neat d) where
  append := .append
  plainChars := neat_of_plainChars
  negative := neat_negative
  arrow := ⟨rfl, .arrow .nil⟩
  textArrow := ⟨rfl, .arrow (.free rfl .nil)⟩
  literal := neat_literal_of_plain
  jsonPath _ hpath := neat_literal (.inr (pathText_jsonPath hpath))

namespace Dialect.Admits

variable {P : String → Prop}

/-- A constant text of plain characters is in the class. -/
lemma const (h : d.Admits P) {s : String} (hs : s.toList.all isPlainChar = true) : P s :=
  h.plainChars (List.all_eq_true.1 hs)

/-- Identifiers are in the class. -/
lemma plain (h : d.Admits P) {s : String} (hs : Identifier.Plain s) : P s :=
  h.plainChars fun c hc => isPlainChar_of_isChar (hs c hc)

/-- Numbers are in the class. -/
lemma toString (h : d.Admits P) (n : Nat) : P (ToString.toString n) :=
  h.plainChars fun _ hc => isPlainChar_of_isDigit (isDigit_of_mem_toString hc)

/-- Signed numbers are in the class. -/
lemma showInt64 (h : d.Admits P) (i : Int64) : P (Number.showInt64 i) := by
  unfold Number.showInt64
  cases i.toInt with
  | ofNat n => exact h.toString n
  | negSucc n => exact h.negative (n + 1)

/-- Texts of the class are joined to one, if the separator is one too. -/
lemma intercalate (h : d.Admits P) {sep : String} (hsep : P sep) {items : List String}
    (hitems : ∀ s ∈ items, P s) : P (sep.intercalate items) :=
  intercalate_induction (h.const rfl) (fun _ _ hs ht => h.append (h.append hs hsep) ht) hitems

/-- A chain of arrows into a document is in the class. -/
lemma arrows (h : d.Admits P) : ∀ {path : List String}, (∀ s ∈ path, Identifier.Plain s) →
    P (Dialect.arrows path)
  | [], _ => h.const rfl
  | s :: path, hpath => by
    rw [List.forall_mem_cons] at hpath
    have harrow : P (if path.isEmpty then "->>" else "->") := by
      split
      · exact h.textArrow
      · exact h.arrow
    have hsegment : P (if isIndex s then s else Dialect.literal s) := by
      split
      · exact h.plain hpath.1
      · exact h.literal hpath.1
    exact h.append (h.append harrow hsegment) (h.arrows hpath.2)

/-- An argument of an extraction is in the class, whether it is a position or a key. -/
lemma argument (h : d.Admits P) {s : String} (hs : Identifier.Plain s) : P (argument s) := by
  unfold Dialect.argument Dialect.argumentWith
  split
  · exact h.toString _
  · exact h.literal hs

/-- The text of a field whose segments are identifiers is in the class. -/
lemma field (h : d.Admits P) {f : FieldRef} (hf : f.Safe) : P (d.field f) := by
  have hcolumn : P f.column := h.plain hf.column
  have hcomma : P ", " := h.const rfl
  unfold Dialect.field
  split
  · cases d with
    | postgres => exact h.append hcolumn (h.arrows hf.path)
    | mysql =>
      have hopen : P "JSON_UNQUOTE(JSON_EXTRACT(" := h.const rfl
      have hpath := h.append (h.append (h.append hopen hcolumn) hcomma) (h.jsonPath nofun hf.path)
      exact h.append hpath (h.const rfl)
    | sqlite =>
      have hopen : P "json_extract(" := h.const rfl
      have hpath := h.append (h.append (h.append hopen hcolumn) hcomma) (h.jsonPath nofun hf.path)
      exact h.append hpath (h.const rfl)
    | clickHouse =>
      have hopen : P "JSONExtractString(" := h.const rfl
      have harguments : ∀ s ∈ f.column :: f.path.map Dialect.argument, P s := by
        rw [List.forall_mem_cons, List.forall_mem_map]
        exact ⟨hcolumn, fun s hs => h.argument (hf.path s hs)⟩
      exact h.append (h.append hopen (h.intercalate hcomma harguments)) (h.const rfl)
  · exact hcolumn

end Dialect.Admits

/-- The text of a safe field is a clean fragment. -/
lemma neat_field (d : Dialect) {f : FieldRef} (h : f.Safe) : Neat d (d.field f) :=
  (admits_neat d).field h

/-- A fragment stays one between two others. -/
lemma Neat.between {before expr behind : String} (hb : Neat d before) (he : Neat d expr)
    (ha : Neat d behind) : Neat d (before ++ expr ++ behind) :=
  (hb.append he).append ha

/-- A formatted date is a fragment for the formats that the dialect knows. -/
lemma Neat.strftime {format expr : String} (hf : format ∈ Dialect.sqlite.constants)
    (he : Neat .sqlite expr) : Neat .sqlite (Dialect.strftime format expr) := by
  have hopen : Neat .sqlite "CAST(strftime(" := .const rfl
  have hformat : Neat .sqlite (Dialect.literal format) := neat_literal (.inl hf)
  exact (((hopen.append hformat).append (t := ", ") (.const rfl)).append he).append
    (t := ") AS INTEGER)") (.const rfl)

/-- A part cut out of a date is a fragment. -/
lemma Neat.extract {name expr : String} (hn : Neat d name) (he : Neat d expr) :
    Neat d (Dialect.extract name expr) := by
  have hopen : Neat d "EXTRACT(" := .const rfl
  exact (((hopen.append hn).append (t := " FROM ") (.const rfl)).append he).append (t := ")")
    (.const rfl)

/-- A function applied to a fragment is a fragment. -/
lemma Neat.apply {function expr : String} (hf : Neat d function) (he : Neat d expr) :
    Neat d (Dialect.apply function expr) :=
  ((hf.append (t := "(") (.const rfl)).append he).append (t := ")") (.const rfl)

/-- A slash between blanks. -/
lemma Neat.over {s t : String} (hs : Neat d s) (ht : Neat d t) : Neat d (s ++ " / " ++ t) := by
  have hslash : Neat d " / " := ⟨rfl, .slash .nil⟩
  exact (hs.append hslash).append ht

/-- Whatever part of a date a dialect can render, it renders as a fragment. -/
lemma neat_datePart {d : Dialect} {expr s : String} {part : DatePart} (he : Neat d expr)
    (h : d.datePart expr part = .ok s) : Neat d s := by
  cases d with
  | postgres =>
    cases part <;> obtain rfl := Except.ok.inj h
    case weekDay => exact Neat.append (.extract (.const rfl) he) (.const rfl)
    case date | time => exact .between (.const rfl) he (.const rfl)
    all_goals exact .extract (.const rfl) he
  | mysql =>
    cases part <;> obtain rfl := Except.ok.inj h
    case isoYear =>
      have hover : Neat .mysql ", 3) / 100)" :=
        .over (s := ", 3)") (t := "100)") (.const rfl) (.const rfl)
      exact .between (.const rfl) he hover
    case week => exact .between (.const rfl) he (.const rfl)
    case isoWeekDay => exact Neat.append (.apply (.const rfl) he) (.const rfl)
    all_goals exact .apply (.const rfl) he
  | sqlite =>
    cases part
    case isoYear => cases h
    all_goals obtain rfl := Except.ok.inj h
    case quarter =>
      have hover : Neat .sqlite " + 2) / 3" :=
        .over (s := " + 2)") (t := "3") (.const rfl) (.const rfl)
      exact .between (.const rfl) (.strftime (by decide) he) hover
    case isoWeekDay => exact .between (.const rfl) (.strftime (by decide) he) (.const rfl)
    case weekDay => exact Neat.append (.strftime (by decide) he) (.const rfl)
    case date | time => exact .apply (.const rfl) he
    all_goals exact .strftime (by decide) he
  | clickHouse =>
    cases part <;> obtain rfl := Except.ok.inj h
    case weekDay => exact .between (.const rfl) he (.const rfl)
    case time =>
      have hcomma : Neat .clickHouse ", " := .const rfl
      have hformat : Neat .clickHouse "'%H:%M:%S'" :=
        neat_literal (s := "%H:%M:%S") (.inl (by decide))
      have hclose : Neat .clickHouse ")" := .const rfl
      exact .between (.const rfl) he (hcomma.between hformat hclose)
    all_goals exact .apply (.const rfl) he

/-- The expression that a condition compares is neat. -/
lemma neat_comparedExpr {d : Dialect} {c : Condition} {expr : String}
    (h : comparedExpr d c = .ok expr) : Neat d expr := by
  simp only [comparedExpr, Condition.fieldRef, Condition.resolveField] at h
  cases hf : (FieldRef.resolve c.field c.jsonPath).result with
  | error reason =>
    rw [hf] at h
    cases h
  | ok f =>
    rw [hf] at h
    have hfield := neat_field d (FieldRef.safe_of_resolve hf)
    simp only [Except.bind] at h
    split at h
    · obtain rfl := Except.ok.inj h
      exact hfield
    · exact neat_datePart hfield h

/-- An expression and a text behind it with one placeholder for each of the values. -/
lemma sound_of_tail (tail : String) {expr : String} {params : List Value} {q : Place}
    (he : Neat d expr) (hq : q.isQuoted = false)
    (ht : scan .bare tail.toList = some (q, params.length)) (hc : d.Clean tail.toList) :
    (Predicate.mk (expr ++ tail) params).Sound d where
  binds := by
    have h := scan_append he.inert ht
    rw [← String.toList_append, Nat.zero_add] at h
    exact ⟨q, hq, h⟩
  clean := by
    rw [String.toList_append]
    exact he.clean.append hc

/-- A list of placeholders has as many of them as it has members. -/
lemma scan_marks (n : Nat) :
    scan .bare (", ".intercalate (List.replicate (n + 1) "?")).toList
      = some (.marked, n + 1) := by
  induction n with
  | zero => rfl
  | succ n ih =>
    have hm : scan .bare "?, ".toList = some (.bare, 1) := rfl
    have h := scan_append hm ih
    rw [List.replicate_succ, List.replicate_succ, String.intercalate_cons_cons,
      ← List.replicate_succ]
    rw [← String.toList_append, Nat.add_comm 1] at h
    exact h

/-- Clean texts are joined to a clean text, if the separator is clean too. -/
lemma clean_intercalate {sep : String} (hsep : d.Clean sep.toList) {items : List String}
    (h : ∀ s ∈ items, d.Clean s.toList) : d.Clean (sep.intercalate items).toList := by
  refine intercalate_induction (P := fun s => d.Clean s.toList) .nil ?_ h
  intro s t hs ht
  rw [String.toList_append, String.toList_append]
  exact (hs.append hsep).append ht

/-- A list of placeholders is clean. -/
lemma clean_marks (n : Nat) : d.Clean (", ".intercalate (List.replicate n "?")).toList := by
  refine clean_intercalate (.const rfl) ?_
  intro s hs
  obtain rfl := List.eq_of_mem_replicate hs
  exact .const rfl

/-- A list condition has a placeholder for each member of a list that is not empty. -/
lemma sound_membership {expr : String} {values : List Value} (he : Neat d expr) (negated : Bool)
    (hv : values ≠ []) :
    (Predicate.mk (membership expr negated values.length) values).Sound d := by
  obtain ⟨n, hn⟩ : ∃ n, values.length = n + 1 :=
    ⟨values.length - 1, by have := List.length_pos_iff.2 hv; omega⟩
  have hopen : Neat d (if negated then " NOT IN (" else " IN (") := by
    cases negated <;> exact .const rfl
  have hclose : scan .marked ")".toList = some (.bare, 0) := rfl
  have ht : scan .bare (", ".intercalate (List.replicate values.length "?") ++ ")").toList
      = some (.bare, values.length) := by
    have h := scan_append (scan_marks n) hclose
    rw [String.toList_append, hn]
    exact h
  have hc : d.Clean (", ".intercalate (List.replicate values.length "?") ++ ")").toList := by
    rw [String.toList_append]
    exact (clean_marks _).append (.const rfl)
  rw [membership, String.append_assoc]
  exact sound_of_tail _ (he.append hopen) rfl ht hc

/-- The escape of patterns is a constant of the dialects that name it. -/
lemma neat_likeEscape (d : Dialect) : Neat d d.likeEscape := by
  cases d with
  | postgres | sqlite =>
    -- the backslash is no escape inside a literal, which the second quote ends
    have hescape : ∀ d : Dialect, "\\" ∈ d.constants → Neat d " ESCAPE '\\'" := fun d h =>
      Neat.append (s := " ESCAPE ") (.const rfl) (neat_literal (.inl h))
    exact hescape _ (by decide)
  | mysql | clickHouse => exact .const rfl

/-- A pattern condition has one placeholder in every dialect. -/
lemma sound_like (d : Dialect) {expr : String} (he : Neat d expr) (v : Value) :
    (Predicate.mk (d.like expr) [v]).Sound d := by
  rw [Dialect.like, String.append_assoc]
  have hc : d.Clean (" LIKE ?" ++ d.likeEscape).toList := by
    rw [String.toList_append]
    exact .append (.const rfl) (neat_likeEscape d).clean
  cases d with
  | postgres | sqlite => exact sound_of_tail _ (q := .bare) he rfl rfl hc
  | mysql | clickHouse => exact sound_of_tail _ (q := .marked) he rfl rfl hc

/-- A pattern condition without regard to case has one placeholder in every dialect. -/
lemma sound_foldedLike (d : Dialect) {expr : String} (he : Neat d expr) (v : Value) :
    (Predicate.mk (d.foldedLike expr) [v]).Sound d := by
  have hlower : Neat d "LOWER(" := .const rfl
  have hc : ∀ tail : String, tail.toList.all isFree = true →
      d.Clean (tail ++ d.likeEscape).toList := by
    intro tail ht
    rw [String.toList_append]
    exact .append (.const ht) (neat_likeEscape d).clean
  cases d with
  | postgres =>
    rw [Dialect.foldedLike, String.append_assoc]
    exact sound_of_tail _ (q := .bare) he rfl rfl (hc " ILIKE ?" rfl)
  | clickHouse =>
    rw [Dialect.foldedLike, String.append_assoc]
    exact sound_of_tail _ (q := .marked) he rfl rfl (hc " ILIKE ?" rfl)
  | mysql | sqlite =>
    rw [Dialect.foldedLike, String.append_assoc]
    exact sound_of_tail _ (q := .bare) (hlower.append he) rfl rfl (hc ") LIKE LOWER(?)" rfl)

/-- A regular expression is bound to the one placeholder of its condition. -/
lemma sound_regex (d : Dialect) {expr : String} (he : Neat d expr) (pattern : String)
    (folded : Bool) (v : Value) :
    (Predicate.mk (d.regex expr pattern folded).1 [v]).Sound d := by
  cases d with
  | postgres =>
    cases folded with
    | false => exact sound_of_tail " ~ ?" (q := .marked) he rfl rfl (.const rfl)
    | true => exact sound_of_tail " ~* ?" (q := .marked) he rfl rfl (.const rfl)
  | mysql =>
    have hopen : Neat .mysql "REGEXP_LIKE(" := .const rfl
    have hmode : Neat .mysql (Dialect.literal (if folded then "i" else "c")) :=
      neat_literal (.inl (by cases folded <;> decide))
    have ht : scan .bare (", ?, " ++ (Dialect.literal (if folded then "i" else "c") ++ ")")).toList
        = some (.bare, [v].length) := by
      cases folded <;> rfl
    have hc : Dialect.mysql.Clean
        (", ?, " ++ (Dialect.literal (if folded then "i" else "c") ++ ")")).toList := by
      rw [String.toList_append, String.toList_append]
      exact .append (.const rfl) (hmode.clean.append (.const rfl))
    have htext : (Dialect.mysql.regex expr pattern folded).1 = "REGEXP_LIKE(" ++ expr ++ ", ?, "
        ++ Dialect.literal (if folded then "i" else "c") ++ ")" := rfl
    rw [htext, String.append_assoc, String.append_assoc]
    exact sound_of_tail _ (hopen.append he) rfl ht hc
  | sqlite => exact sound_of_tail " REGEXP ?" (q := .marked) he rfl rfl (.const rfl)
  | clickHouse =>
    have hopen : Neat .clickHouse "match(" := .const rfl
    exact sound_of_tail ", ?)" (q := .bare) (hopen.append he) rfl rfl (.const rfl)

/-- A full-text search has one placeholder where the dialect has such a search. -/
lemma sound_search {d : Dialect} {expr sql : String} (he : Neat d expr) (v : Value)
    (h : d.search? expr = some sql) : (Predicate.mk sql [v]).Sound d := by
  cases d with
  | postgres =>
    obtain rfl := Option.some.inj h
    have hopen : Neat .postgres "to_tsvector(" := .const rfl
    exact sound_of_tail ") @@ plainto_tsquery(?)" (q := .bare) (hopen.append he) rfl rfl
      (.const rfl)
  | mysql =>
    obtain rfl := Option.some.inj h
    have hopen : Neat .mysql "MATCH(" := .const rfl
    exact sound_of_tail ") AGAINST(? IN NATURAL LANGUAGE MODE)" (q := .bare)
      (hopen.append he) rfl rfl (.const rfl)
  | sqlite | clickHouse => cases h

/-- A test for null has no placeholder. -/
lemma sound_nullCheck {expr : String} (he : Neat d expr) (negated : Bool) :
    (Predicate.mk (nullCheck expr negated) []).Sound d := by
  cases negated with
  | false => exact sound_of_tail " IS NULL" (q := .bare) he rfl rfl (.const rfl)
  | true => exact sound_of_tail " IS NOT NULL" (q := .bare) he rfl rfl (.const rfl)

/-- A comparison has one placeholder. -/
lemma sound_comparison {expr : String} (he : Neat d expr) (cmp : Comparison) (v : Value) :
    (Predicate.mk (expr ++ " " ++ comparisonSign cmp ++ " ?") [v]).Sound d := by
  have hspace : Neat d (expr ++ " ") := he.append (.const rfl)
  have hsign : Neat d (comparisonSign cmp) := by
    cases cmp <;> exact .const rfl
  exact sound_of_tail " ?" (q := .marked) (hspace.append hsign) rfl rfl (.const rfl)

/-- What an operator is rendered as: a sound predicate, or one that never holds. -/
inductive Bound (d : Dialect) : Tree → Prop
  | never : Bound d .never
  | leaf {p : Predicate} (h : p.Sound d) : Bound d (.leaf p)

/-- What a single condition is rendered as is bound if its text and values are. -/
lemma bound_of_single {sql : String} {params : List Value} {t : Tree}
    (h : single sql params = .rendered t) (hp : (Predicate.mk sql params).Sound d) :
    Bound d t := by
  obtain rfl := Compiled.rendered.inj h
  exact .leaf hp

/-- Every operator binds its values. -/
lemma bound_of_operation {d : Dialect} {expr : String} {c : Condition} {t : Tree}
    (he : Neat d expr) (h : operation d expr c = .rendered t) : Bound d t := by
  unfold operation at h
  split at h
  · cases h
  · -- a comparison, which with null is a null check and has no value to bind
    split at h
    · cases h
    · exact bound_of_single h (sound_nullCheck he false)
    · exact bound_of_single h (sound_nullCheck he true)
    · exact bound_of_single h (sound_comparison he _ _)
  · -- a membership, which binds all values of the list or is none
    split at h
    · split at h
      · cases h
      · obtain rfl := Compiled.rendered.inj h
        exact .never
    · next hv => exact bound_of_single h (sound_membership he _ hv)
  · -- a range of two values or of one
    split at h
    · exact bound_of_single h (sound_of_tail _ (q := .marked) he rfl rfl (.const rfl))
    · exact bound_of_single h (sound_of_tail _ (q := .marked) he rfl rfl (.const rfl))
    · cases h
  · exact bound_of_single h (sound_nullCheck he _)
  · -- a pattern at a place in the text
    split at h
    · cases h
    · refine bound_of_single h ?_
      split
      · exact sound_foldedLike d he _
      · exact sound_like d he _
  · split at h
    · cases h
    · exact bound_of_single h (sound_regex d he _ _ _)
  · -- a search, which is a pattern where the dialect has none
    split at h
    · cases h
    · split at h
      · next hs => exact bound_of_single h (sound_search he _ hs)
      · exact bound_of_single h (sound_like d he _)

/-- Every rendered condition is a sound predicate, or one that never holds. -/
theorem condition_rendered {d : Dialect} {c : Condition} {t : Tree}
    (h : condition d c = .rendered t) : Bound d t := by
  unfold condition at h
  cases he : comparedExpr d c with
  | error reason =>
    rw [he] at h
    cases h
  | ok expr =>
    rw [he] at h
    exact bound_of_operation (neat_comparedExpr he) h

end ReadQuery.Sql
