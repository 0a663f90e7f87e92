import Mathlib.Data.List.Basic
import ReadQuery.FieldRef
import ReadQuery.Proofs.Text

/-!
# Resolved fields

What a field and an explicit path are resolved into (`of_resolve`): the segments of both, or, if the
path is refused, the field as it is. Why a field cannot be resolved is said once, too
(`of_resolve_eq_error`). Segments are names (`segmented_of_resolve`), and whatever a field is
resolved into may be written into a query: column and path consist of the characters of identifiers
(`Safe`).

A dotted name is resolved into its segments, as a whole (`resolve_dotted`) or as a column and the
path behind it (`resolve_column_path`).
-/

namespace ReadQuery

namespace Text

/-- A piece between separators holds characters of the text other than the separator. -/
lemma mem_of_mem_splitList {sep c : Char} {cs p : List Char} (hp : p ∈ splitList sep cs)
    (hc : c ∈ p) : c ∈ cs ∧ c ≠ sep := by
  induction cs generalizing p with
  | nil =>
    simp only [splitList, List.mem_singleton] at hp
    subst hp
    cases hc
  | cons d cs ih =>
    by_cases hd : d = sep
    · simp only [splitList, hd, if_true, List.mem_cons] at hp
      rcases hp with rfl | hp
      · cases hc
      · have h := ih hp hc
        exact ⟨by simp [h.1], h.2⟩
    · simp only [splitList, hd, if_false] at hp
      cases hs : splitList sep cs with
      | nil => exact absurd hs (splitList_ne_nil sep cs)
      | cons q qs =>
        rw [hs] at hp ih
        simp only [consFirst, List.mem_cons] at hp
        rcases hp with rfl | hp
        · rcases List.mem_cons.1 hc with rfl | hc
          · exact ⟨by simp, hd⟩
          · have h := ih (by simp) hc
            exact ⟨by simp [h.1], h.2⟩
        · have h := ih (by simp [hp]) hc
          exact ⟨by simp [h.1], h.2⟩

/-- A text without blanks is trimmed already. -/
lemma trim_of_no_blank {s : String} (h : ∀ c ∈ s.toList, isBlank c = false) : trim s = s := by
  have hnone : ∀ c ∈ ([] : List Char), isBlank c = true := List.forall_mem_nil _
  have htrim := trimList_between hnone hnone h
  rw [List.nil_append, List.append_nil] at htrim
  rw [← String.toList_inj, toList_trim, htrim]

end Text

/-- A text of the characters of identifiers. -/
def Identifier.Plain (s : String) : Prop :=
  ∀ c ∈ s.toList, Identifier.isChar c = true

namespace Identifier

/-- What is safe consists of the characters of identifiers. -/
lemma plain_of_isSafe {s : String} (h : isSafe s = true) : Plain s := by
  simp only [isSafe, Bool.and_eq_true, List.all_eq_true] at h
  exact h.2

/-- A proper identifier is safe. -/
lemma isSafe_of_isProper {s : String} (h : isProper s = true) : isSafe s = true := by
  simp only [isProper, Bool.and_eq_true] at h
  exact h.1.1

/-- No blank stands in an identifier. -/
lemma isBlank_of_isChar {c : Char} (h : isChar c = true) : Text.isBlank c = false := by
  have hn : (48 ≤ c.toNat ∧ c.toNat ≤ 57) ∨ (65 ≤ c.toNat ∧ c.toNat ≤ 90) ∨
      (97 ≤ c.toNat ∧ c.toNat ≤ 122) ∨ c.toNat = 95 ∨ c.toNat = 46 := by
    have hclass : (((c.val ≥ 65 ∧ c.val ≤ 90 : Bool) || (c.val ≥ 97 && c.val ≤ 122))
      || (c.val ≥ 48 && c.val ≤ 57) || c == '_' || c == '.') = true := h
    simp only [Bool.or_eq_true, Bool.and_eq_true, decide_eq_true_eq, beq_iff_eq, ge_iff_le,
      UInt32.le_iff_toNat_le] at hclass
    rcases hclass with (((h | h) | h) | rfl) | rfl
    · exact .inr (.inl h)
    · exact .inr (.inr (.inl h))
    · exact .inl h
    · exact .inr (.inr (.inr (.inl rfl)))
    · exact .inr (.inr (.inr (.inr rfl)))
  simp only [Text.isBlank, Bool.or_eq_false_iff, Bool.and_eq_false_iff, decide_eq_false_iff_not,
    beq_eq_false_iff_ne]
  omega

/-- A text of letters, digits and underscores. -/
def IsSegment (s : String) : Prop :=
  ∀ c ∈ s.toList, Text.isNameChar c = true

/-- Segments are checked character by character. -/
instance (s : String) : Decidable (IsSegment s) :=
  List.decidableBAll (fun c => Text.isNameChar c = true) s.toList

variable {s : String}

/-- No dot stands in a segment. -/
lemma IsSegment.dot_not_mem (h : IsSegment s) : '.' ∉ s.toList := fun hdot => by
  cases h '.' hdot

/-- A segment is an identifier. -/
lemma IsSegment.plain (h : IsSegment s) : Plain s := fun c hc => by
  rw [isChar, h c hc, Bool.true_or]

/-- Identifiers are safe unless they are empty. -/
lemma isSafe_of_plain (h : Plain s) (hne : s ≠ "") : isSafe s = true := by
  have hlist : s.toList ≠ [] := fun he => hne (by simpa using he)
  rw [isSafe, List.all_eq_true.2 h, Bool.and_true, Bool.not_eq_true', List.isEmpty_eq_false_iff]
  exact hlist

/-- Segments with dots between them are an identifier. -/
lemma plain_intercalate {ss : List String} (h : ∀ s ∈ ss, IsSegment s) :
    Plain (".".intercalate ss) := by
  intro c hc
  rw [String.toList_intercalate] at hc
  rcases Text.mem_intercalate hc with hc | ⟨p, hp, hc⟩
  · obtain rfl : c = '.' := by simpa using hc
    rfl
  · obtain ⟨s, hs, rfl⟩ := List.mem_map.1 hp
    exact (h s hs).plain c hc

end Identifier

/-- The segments of a dotted name are the names that it was joined of. -/
lemma Text.split_intercalate {ss : List String} (hne : ss ≠ [])
    (h : ∀ s ∈ ss, Identifier.IsSegment s) : Text.split '.' (".".intercalate ss) = ss := by
  have hpieces : ∀ p ∈ ss.map String.toList, '.' ∉ p := by
    intro p hp
    obtain ⟨s, hs, rfl⟩ := List.mem_map.1 hp
    exact (h s hs).dot_not_mem
  rw [Text.split, String.toList_intercalate]
  show (Text.splitList '.' (['.'].intercalate (ss.map String.toList))).map String.ofList = ss
  rw [Text.splitList_intercalate (by simpa using hne) hpieces, List.map_map]
  exact List.map_id'' (fun s => String.ofList_toList) ss

namespace FieldRef

variable {field column s : String} {path : Option String} {inner ss : List String} {f : FieldRef}

/-- A text that does not start with a dot has a segment. -/
lemma segments_ne_nil {s : String} (hne : s.toList ≠ []) (hd : s.toList.head? ≠ some '.') :
    segments s ≠ [] := by
  intro h
  cases hs : s.toList with
  | nil => exact hne hs
  | cons c cs =>
    have hc : c ≠ '.' := by
      rintro rfl
      exact hd (by rw [hs]; rfl)
    obtain ⟨p, ps, hp⟩ : ∃ p ps, Text.splitList '.' (c :: cs) = (c :: p) :: ps := by
      rw [Text.splitList, if_neg hc]
      cases Text.splitList '.' cs with
      | nil => exact ⟨[], [], rfl⟩
      | cons q qs => exact ⟨q, qs, rfl⟩
    have hmem : String.ofList (c :: p) ∈ segments s := by
      rw [segments, Text.split, hs, hp]
      simp
    rw [h] at hmem
    cases hmem

/-- The segments of an identifier are names. -/
lemma isSegment_of_mem_segments {s t : String} (hs : Identifier.Plain s) (ht : t ∈ segments s) :
    Identifier.IsSegment t ∧ t ≠ "" := by
  simp only [segments, Text.split, List.mem_filter, List.mem_map] at ht
  obtain ⟨⟨p, hp, rfl⟩, hne⟩ := ht
  refine ⟨fun c hc => ?_, ?_⟩
  · rw [String.toList_ofList] at hc
    obtain ⟨hmem, hdot⟩ := Text.mem_of_mem_splitList hp hc
    have hchar := hs c hmem
    rw [Identifier.isChar, Bool.or_eq_true, beq_iff_eq] at hchar
    exact hchar.resolve_right hdot
  · rintro he
    rw [he] at hne
    cases hne

/-- A field with segments is not empty. -/
lemma ne_empty_of_segments (h : segments field = column :: inner) : field ≠ "" := by
  rintro rfl
  cases h

/-- Segments are found again between dots, the empty ones aside. -/
lemma segments_intercalate (h : ∀ s ∈ ss, Identifier.IsSegment s) :
    segments (".".intercalate ss) = ss.filter (!·.isEmpty) := by
  cases ss with
  | nil => rfl
  | cons s ss => rw [segments, Text.split_intercalate (List.cons_ne_nil s ss) h]

/-- Segments that are not empty are kept. -/
lemma filter_segments {ss : List String} (h : ∀ s ∈ ss, Identifier.IsSegment s ∧ s ≠ "") :
    ss.filter (!·.isEmpty) = ss := by
  refine List.filter_eq_self.2 fun s hs => ?_
  rw [Bool.not_eq_true', Bool.eq_false_iff]
  exact fun he => (h s hs).2 (String.isEmpty_iff.1 he)

/-- A path is given that is no identifier. -/
def RefusesPath (path : Option String) : Prop :=
  normalizePath (path.getD "") ≠ "" ∧ Identifier.isSafe (normalizePath (path.getD "")) = false

/-- Paths are checked by their normal form. -/
instance (path : Option String) : Decidable (RefusesPath path) :=
  inferInstanceAs (Decidable (_ ∧ _))

/-- A field and a path are resolved into the segments of both, unless the path is refused. -/
theorem of_resolve (h : (resolve field path).result = .ok f) :
    Identifier.isSafe (Text.trim field) = true ∧
      ((RefusesPath path ∧ f = ⟨Text.trim field, []⟩) ∨
        (¬ RefusesPath path ∧ ∃ column inner, segments (Text.trim field) = column :: inner ∧
          f = ⟨column, inner ++ segments (normalizePath (path.getD ""))⟩)) := by
  simp only [resolve] at h
  split at h
  · cases h
  split at h
  · cases h
  next hsafe =>
  rw [Bool.not_eq_true, Bool.not_eq_false'] at hsafe
  refine ⟨hsafe, ?_⟩
  split at h
  · cases h
  next column inner hsegments =>
  split at h
  · next hempty =>
    have hnone : normalizePath (path.getD "") = "" := String.isEmpty_iff.1 hempty
    obtain rfl := Except.ok.inj h
    refine .inr ⟨fun hrefused => hrefused.1 hnone, column, inner, hsegments, ?_⟩
    rw [hnone]
    exact congrArg (FieldRef.mk column) (List.append_nil inner).symm
  next hne =>
  split at h
  · next hpath =>
    obtain rfl := Except.ok.inj h
    refine .inr ⟨fun hrefused => ?_, column, inner, hsegments, rfl⟩
    rw [hrefused.2] at hpath
    cases hpath
  · next hpath =>
    simp only [Traced.result_bind, Traced.result_report, Traced.result_pure] at h
    obtain rfl := Except.ok.inj h
    exact .inl ⟨⟨fun he => hne (String.isEmpty_iff.2 he), Bool.eq_false_iff.2 hpath⟩, rfl⟩

/-- A field that cannot be resolved is empty, no identifier or nothing but dots. -/
theorem of_resolve_eq_error {reason : SkipReason}
    (h : (resolve field path).result = .error reason) :
    (Text.trim field = "" ∧ reason = .emptyField) ∨
      ((Identifier.isSafe (Text.trim field) = false ∨ segments (Text.trim field) = []) ∧
        reason = .invalidField (Text.trim field)) := by
  simp only [resolve] at h
  split at h
  · next hempty => exact .inl ⟨String.isEmpty_iff.1 hempty, (Except.error.inj h).symm⟩
  split at h
  · next hsafe =>
    rw [Bool.not_eq_true'] at hsafe
    exact .inr ⟨.inl hsafe, (Except.error.inj h).symm⟩
  split at h
  · next hsegments => exact .inr ⟨.inr hsegments, (Except.error.inj h).symm⟩
  -- a path that is refused is reported, and the field is taken
  split at h
  · cases h
  split at h
  · cases h
  · cases h

/-- A column and a path of names. -/
def Segmented (f : FieldRef) : Prop :=
  ∀ s ∈ f.column :: f.path, Identifier.IsSegment s ∧ s ≠ ""

/-- Column and path consist of the characters of identifiers. -/
structure Safe (f : FieldRef) : Prop where
  column : Identifier.Plain f.column
  path : ∀ s ∈ f.path, Identifier.Plain s

/-- A path that is not refused is empty or an identifier. -/
lemma plain_of_not_refusesPath (h : ¬ RefusesPath path) :
    Identifier.Plain (normalizePath (path.getD "")) := by
  by_cases hempty : normalizePath (path.getD "") = ""
  · rw [hempty]
    exact List.forall_mem_nil _
  · apply Identifier.plain_of_isSafe
    rw [← Bool.not_eq_false]
    exact fun hsafe => h ⟨hempty, hsafe⟩

/-- The reference that a path is not refused for consists of names. -/
lemma segmented_of_resolve (h : (resolve field path).result = .ok f)
    (hpath : ¬ RefusesPath path) : f.Segmented := by
  obtain ⟨hsafe, ⟨hrefused, -⟩ | ⟨-, column, inner, hsegments, rfl⟩⟩ := of_resolve h
  · exact absurd hrefused hpath
  · have hfield : ∀ s ∈ column :: inner, Identifier.IsSegment s ∧ s ≠ "" := fun s hs =>
      isSegment_of_mem_segments (Identifier.plain_of_isSafe hsafe) (hsegments ▸ hs)
    rw [List.forall_mem_cons] at hfield
    intro s hs
    rcases List.mem_cons.1 hs with rfl | hs
    · exact hfield.1
    rcases List.mem_append.1 hs with hs | hs
    · exact hfield.2 s hs
    · exact isSegment_of_mem_segments (plain_of_not_refusesPath hpath) hs

/-- Names are safe. -/
lemma Segmented.safe (h : f.Segmented) : f.Safe where
  column := (h _ List.mem_cons_self).1.plain
  path _ hs := (h _ (List.mem_cons_of_mem _ hs)).1.plain

/-- A resolved field may be written into a query. -/
theorem safe_of_resolve (h : (resolve field path).result = .ok f) : f.Safe := by
  by_cases hpath : RefusesPath path
  · obtain ⟨hsafe, ⟨-, rfl⟩ | ⟨hused, -⟩⟩ := of_resolve h
    · exact ⟨Identifier.plain_of_isSafe hsafe, List.forall_mem_nil _⟩
    · exact absurd hpath hused
  · exact (segmented_of_resolve h hpath).safe

/-- A field of the characters of identifiers is neither trimmed nor refused. -/
lemma trim_of_plain (h : Identifier.Plain field) (hne : field ≠ "") :
    Text.trim field = field ∧ field.isEmpty = false ∧ Identifier.isSafe field = true := by
  have htrim : Text.trim field = field :=
    Text.trim_of_no_blank fun c hc => Identifier.isBlank_of_isChar (h c hc)
  have hempty : field.isEmpty = false := by
    rw [Bool.eq_false_iff]
    exact fun he => hne (String.isEmpty_iff.1 he)
  exact ⟨htrim, hempty, Identifier.isSafe_of_plain h hne⟩

/-- A field of the characters of identifiers is resolved into its segments. -/
lemma resolve_of_segments (h : Identifier.Plain field)
    (hsegments : segments field = column :: inner) :
    resolve field none = pure ⟨column, inner⟩ := by
  obtain ⟨htrim, hempty, hsafe⟩ := trim_of_plain h (ne_empty_of_segments hsegments)
  simp only [resolve, htrim, hempty, hsafe, hsegments]
  rfl

/-- Proper identifiers can be resolved. -/
theorem exists_resolve (h : Identifier.isProper field = true) :
    ∃ f, (resolve field none).result = .ok f := by
  have hsafe := Identifier.isSafe_of_isProper h
  simp only [Identifier.isProper, Bool.and_eq_true, bne_iff_ne] at h
  have hne : field.toList ≠ [] := by
    simp only [Identifier.isSafe, Bool.and_eq_true] at hsafe
    simpa using hsafe.1
  obtain ⟨column, inner, hsegments⟩ := List.exists_cons_of_ne_nil (segments_ne_nil hne h.1.2)
  rw [resolve_of_segments (Identifier.plain_of_isSafe hsafe) hsegments]
  exact ⟨⟨column, inner⟩, rfl⟩

/-- A joined name starts as its first segment does. -/
lemma exists_cons_intercalate {s : String} (h : Identifier.IsSegment s ∧ s ≠ "")
    (ss : List String) :
    ∃ c cs, (".".intercalate (s :: ss)).toList = c :: cs ∧ Text.isNameChar c = true := by
  have hlist : s.toList ≠ [] := fun he => h.2 (by simpa using he)
  obtain ⟨c, cs, hcs⟩ := List.exists_cons_of_ne_nil hlist
  have hc := h.1 c (by rw [hcs]; exact List.mem_cons_self)
  cases ss with
  | nil => exact ⟨c, cs, by rw [String.intercalate_singleton, hcs], hc⟩
  | cons t ss =>
    refine ⟨c, cs ++ ".".toList ++ (".".intercalate (t :: ss)).toList, ?_, hc⟩
    rw [String.intercalate_cons_cons, String.toList_append, String.toList_append, hcs,
      List.cons_append, List.cons_append]

/-- Joined names are not empty. -/
lemma intercalate_ne_empty (h : Identifier.IsSegment s ∧ s ≠ "") (ss : List String) :
    ".".intercalate (s :: ss) ≠ "" := by
  obtain ⟨c, cs, hcs, -⟩ := exists_cons_intercalate h ss
  intro he
  rw [he] at hcs
  cases hcs

/-- A path that starts with a letter, a digit or an underscore is taken as it is. -/
lemma normalizePath_of_plain {path : String} (h : Identifier.Plain path)
    (hhead : ∃ c cs, path.toList = c :: cs ∧ Text.isNameChar c = true) :
    normalizePath path = path := by
  have htrim : Text.trimList path.toList = path.toList := by
    rw [← Text.toList_trim,
      Text.trim_of_no_blank fun c hc => Identifier.isBlank_of_isChar (h c hc)]
  obtain ⟨c, cs, hcs, hc⟩ := hhead
  -- neither of the two marks is in front
  have hroot : ∀ r, path.toList ≠ '$' :: '.' :: r := fun r hr => by
    obtain rfl : c = '$' := (List.cons.inj (hcs.symm.trans hr)).1
    cases hc
  have hdot : ∀ r, path.toList ≠ '.' :: r := fun r hr => by
    obtain rfl : c = '.' := (List.cons.inj (hcs.symm.trans hr)).1
    cases hc
  rw [normalizePath, htrim]
  split
  · next r hr =>
    split at hr
    · next r' hr' => exact absurd hr' (hroot r')
    · exact absurd hr (hdot r)
  · split
    · next r hr => exact absurd hr (hroot r)
    · exact String.ofList_toList

/-- A field with a path into it is a column and the segments of both. -/
lemma resolve_of_path {path : String} (h : Identifier.Plain field)
    (hsegments : segments field = column :: inner) (hpath : Identifier.Plain path)
    (hhead : ∃ c cs, path.toList = c :: cs ∧ Text.isNameChar c = true) :
    resolve field (some path) = pure ⟨column, inner ++ segments path⟩ := by
  have hpathne : path ≠ "" := by
    obtain ⟨c, cs, hcs, -⟩ := hhead
    rintro rfl
    cases hcs
  obtain ⟨htrim, hempty, hsafe⟩ := trim_of_plain h (ne_empty_of_segments hsegments)
  obtain ⟨-, hpathempty, hpathsafe⟩ := trim_of_plain hpath hpathne
  simp only [resolve, htrim, hempty, hsafe, hsegments, Option.getD_some,
    normalizePath_of_plain hpath hhead, hpathempty, hpathsafe]
  rfl

/-- A name joined of segments of which some may be empty, as snake case makes them. -/
lemma resolve_intercalate (h : ∀ s ∈ ss, Identifier.IsSegment s)
    (hsegments : ss.filter (!·.isEmpty) = column :: inner) :
    resolve (".".intercalate ss) none = pure ⟨column, inner⟩ :=
  resolve_of_segments (Identifier.plain_intercalate h) ((segments_intercalate h).trans hsegments)

/-- A reference that consists of names is recovered from its dotted form. -/
theorem resolve_dotted (h : f.Segmented) : resolve f.dotted none = pure f :=
  resolve_intercalate (fun s hs => (h s hs).1) (filter_segments h)

/-- A column and a path of at least one segment, all of them names. -/
structure IsDotted (f : FieldRef) : Prop where
  path_ne_nil : f.path ≠ []
  isSegment : ∀ s ∈ f.column :: f.path, Identifier.IsSegment s ∧ s ≠ ""

/-- A name is resolved into a column. -/
lemma segments_of_isSegment (h : Identifier.IsSegment s ∧ s ≠ "") : segments s = [s] := by
  have hone : ∀ t ∈ [s], Identifier.IsSegment t ∧ t ≠ "" := List.forall_mem_singleton.2 h
  have hsegments := segments_intercalate fun t ht => (hone t ht).1
  rwa [String.intercalate_singleton, filter_segments hone] at hsegments

/-- A column and the path behind it are resolved into the same segments. -/
theorem resolve_column_path (h : f.IsDotted) :
    resolve f.column (some (".".intercalate f.path)) = pure f := by
  obtain ⟨column, path⟩ := f
  obtain ⟨s, ss, rfl⟩ := List.exists_cons_of_ne_nil h.path_ne_nil
  obtain ⟨hcolumn, hpath⟩ := List.forall_mem_cons.1 h.isSegment
  have hsegments : ∀ t ∈ s :: ss, Identifier.IsSegment t := fun t ht => (hpath t ht).1
  rw [resolve_of_path hcolumn.1.plain (segments_of_isSegment hcolumn)
    (Identifier.plain_intercalate hsegments)
    (exists_cons_intercalate (hpath s List.mem_cons_self) ss),
    segments_intercalate hsegments, filter_segments hpath]
  rfl

/-- A joined name ends as its last segment does. -/
lemma exists_getLast_intercalate {ss : List String} (hne : ss ≠ [])
    (h : ∀ s ∈ ss, Identifier.IsSegment s ∧ s ≠ "") :
    ∃ c, (".".intercalate ss).toList.getLast? = some c ∧ Text.isNameChar c = true := by
  induction ss with
  | nil => exact absurd rfl hne
  | cons s ss ih =>
    rw [List.forall_mem_cons] at h
    cases ss with
    | nil =>
      have hlist : s.toList ≠ [] := fun he => h.1.2 (by simpa using he)
      rw [String.intercalate_singleton, List.getLast?_eq_some_getLast hlist]
      exact ⟨_, rfl, h.1.1 _ (List.getLast_mem hlist)⟩
    | cons t ss =>
      obtain ⟨c, hc, hname⟩ := ih (List.cons_ne_nil t ss) h.2
      refine ⟨c, ?_, hname⟩
      rw [String.intercalate_cons_cons, String.toList_append, List.getLast?_append, hc,
        Option.some_or]

/-- Dotted names are proper identifiers. -/
lemma isProper_dotted (h : f.IsDotted) : Identifier.isProper f.dotted = true := by
  obtain ⟨c, cs, hcs, hc⟩ := exists_cons_intercalate (h.isSegment _ List.mem_cons_self) f.path
  obtain ⟨c', hlast, hc'⟩ := exists_getLast_intercalate (List.cons_ne_nil _ _) h.isSegment
  have hne : f.dotted ≠ "" := intercalate_ne_empty (h.isSegment _ List.mem_cons_self) f.path
  have hsafe : Identifier.isSafe f.dotted = true :=
    Identifier.isSafe_of_plain (Identifier.plain_intercalate fun s hs => (h.isSegment s hs).1) hne
  rw [Identifier.isProper, hsafe, dotted, hlast, hcs]
  simp [Text.ne_dot_of_isNameChar hc, Text.ne_dot_of_isNameChar hc']

/-- A dotted name is cut at its first dot into the column and the path. -/
lemma cut?_dotted (h : f.IsDotted) :
    Text.cut? '.' f.dotted = some (f.column, ".".intercalate f.path) := by
  obtain ⟨column, path⟩ := f
  obtain ⟨s, ss, rfl⟩ := List.exists_cons_of_ne_nil h.path_ne_nil
  have hdot := (h.isSegment _ List.mem_cons_self).1.dot_not_mem
  have htext : (".".intercalate (column :: s :: ss)).toList
      = column.toList ++ '.' :: (".".intercalate (s :: ss)).toList := by
    rw [String.intercalate_cons_cons, String.toList_append, String.toList_append]
    simp
  rw [Text.cut?, dotted, htext, Text.cutList_append hdot, Option.map_some, String.ofList_toList,
    String.ofList_toList]

end FieldRef

end ReadQuery
