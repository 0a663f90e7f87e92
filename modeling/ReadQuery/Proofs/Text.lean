import Mathlib.Data.List.Chain
import Mathlib.Data.List.Forall2
import Mathlib.Data.List.TakeWhile
import ReadQuery.Text.Ascii
import ReadQuery.Text.Blank
import ReadQuery.Text.Split

/-!
# Texts in pieces

A text is cut into the pieces that it was joined of: at a single separator if no piece holds it
(`splitList_intercalate`, `cutList_append`), and at a doubled one if no piece holds it twice in a
row or ends in it (`splitDoubledList_append`). Blanks around a text change neither the text between
its own blanks nor its pieces between theirs (`Padded.trimList_eq`,
`Padded.map_trimList_splitList`).
-/

namespace ReadQuery.Text

variable {α β : Type} {sep c : Char} {cs : List Char}

/-- The codes of capital letters. -/
lemma toNat_of_isUpper (h : c.isUpper = true) : 65 ≤ c.toNat ∧ c.toNat ≤ 90 := by
  have hval : decide (65 ≤ c.val ∧ c.val ≤ 90) = true := h
  simpa [UInt32.le_iff_toNat_le] using hval

/-- The codes of small letters. -/
lemma toNat_of_isLower (h : c.isLower = true) : 97 ≤ c.toNat ∧ c.toNat ≤ 122 := by
  have hval : (decide (97 ≤ c.val) && decide (c.val ≤ 122)) = true := h
  simpa [UInt32.le_iff_toNat_le] using hval

/-- The codes of digits. -/
lemma toNat_of_isDigit (h : c.isDigit = true) : 48 ≤ c.toNat ∧ c.toNat ≤ 57 := by
  have hval : (decide (48 ≤ c.val) && decide (c.val ≤ 57)) = true := h
  simpa [UInt32.le_iff_toNat_le] using hval

/-- Letters and digits are ASCII characters. -/
lemma toNat_of_isAlphanum (h : c.isAlphanum = true) : c.toNat < 128 := by
  have hclass : ((c.isUpper || c.isLower) || c.isDigit) = true := h
  rw [Bool.or_eq_true, Bool.or_eq_true] at hclass
  rcases hclass with (hupper | hlower) | hdigit
  · have hbounds := toNat_of_isUpper hupper
    omega
  · have hbounds := toNat_of_isLower hlower
    omega
  · have hbounds := toNat_of_isDigit hdigit
    omega

/-- Only capital letters are changed. -/
lemma toLower_of_not_isUpper (h : c.isUpper = false) : c.toLower = c :=
  dif_neg (of_decide_eq_false h)

/-- A capital letter becomes a small one. -/
lemma isLower_toLower_of_isUpper (h : c.isUpper = true) : c.toLower.isLower = true := by
  have hall : ∀ n < 128, (Char.ofNat n).isUpper = true →
      (Char.ofNat n).toLower.isLower = true := by
    decide +kernel
  have hbounds := toNat_of_isUpper h
  have hc := hall c.toNat (by omega)
  rw [Char.ofNat_toNat] at hc
  exact hc h

/-- No capital letter is left. -/
lemma not_isUpper_toLower (c : Char) : c.toLower.isUpper = false := by
  cases h : c.isUpper with
  | false => rwa [toLower_of_not_isUpper h]
  | true =>
    have hlower := toNat_of_isLower (isLower_toLower_of_isUpper h)
    rw [Bool.eq_false_iff]
    intro hupper
    have hbounds := toNat_of_isUpper hupper
    omega

/-- A letter or digit is one in small letters too. -/
lemma isAlphanum_toLower (h : c.isAlphanum = true) : c.toLower.isAlphanum = true := by
  have hall : ∀ n < 128, (Char.ofNat n).isAlphanum = true →
      (Char.ofNat n).toLower.isAlphanum = true := by
    decide +kernel
  have hc := hall c.toNat (toNat_of_isAlphanum h)
  rw [Char.ofNat_toNat] at hc
  exact hc h

/-- Letters and digits may stand in names. -/
lemma isNameChar_of_isAlphanum (h : c.isAlphanum = true) : isNameChar c = true := by
  rw [isNameChar, h, Bool.true_or]

/-- A dot stands in no name. -/
lemma ne_dot_of_isNameChar (h : isNameChar c = true) : c ≠ '.' := by
  rintro rfl
  cases h

/-- No blank is dropped in front of a character that is none. -/
lemma dropWhile_isBlank_of_head {d : Char} (hd : isBlank d = false) (ds : List Char) :
    (d :: ds).dropWhile isBlank = d :: ds := by
  rw [List.dropWhile_cons, hd]
  rfl

/-- A text that does not begin with a blank keeps its front. -/
lemma dropWhile_isBlank_of_head? (h : ∀ d ∈ cs.head?, isBlank d = false) :
    cs.dropWhile isBlank = cs := by
  cases cs with
  | nil => rfl
  | cons d ds => exact dropWhile_isBlank_of_head (h d rfl) ds

/-- A text without blanks at its ends is trimmed already. -/
lemma trimList_of_ends (hhead : ∀ d ∈ cs.head?, isBlank d = false)
    (hlast : ∀ d ∈ cs.getLast?, isBlank d = false) : trimList cs = cs := by
  rw [← List.head?_reverse] at hlast
  rw [trimList, dropWhile_isBlank_of_head? hhead, dropWhile_isBlank_of_head? hlast,
    List.reverse_reverse]

/-- What stands at the end is not dropped from the front, unless it is blank. -/
lemma exists_dropWhile_append_singleton (hc : isBlank c = false) (cs : List Char) :
    ∃ ds, (cs ++ [c]).dropWhile isBlank = ds ++ [c] := by
  induction cs with
  | nil => exact ⟨[], dropWhile_isBlank_of_head hc []⟩
  | cons d cs ih =>
    rw [List.cons_append, List.dropWhile_cons]
    split
    · exact ih
    · exact ⟨d :: cs, rfl⟩

/-- A text keeps the first of its characters that is no blank. -/
lemma exists_trimList_cons (hc : isBlank c = false) (cs : List Char) :
    ∃ ds, trimList (c :: cs) = c :: ds := by
  obtain ⟨ds, hds⟩ := exists_dropWhile_append_singleton hc cs.reverse
  refine ⟨ds.reverse, ?_⟩
  rw [trimList, dropWhile_isBlank_of_head hc, List.reverse_cons, hds, List.reverse_append,
    List.reverse_singleton, List.singleton_append]

/-- Trimming makes no text longer. -/
lemma length_trimList_le (cs : List Char) : (trimList cs).length ≤ cs.length := by
  have hfront := List.length_dropWhile_le isBlank cs
  have hback := List.length_dropWhile_le isBlank (cs.dropWhile isBlank).reverse
  rw [List.length_reverse] at hback
  rw [trimList, List.length_reverse]
  omega

/-- The second text is the first one between blanks. -/
def Padded (cs ds : List Char) : Prop :=
  ∃ before after, (∀ c ∈ before, isBlank c = true) ∧ (∀ c ∈ after, isBlank c = true) ∧
    ds = before ++ cs ++ after

/-- A text is what is left of it between the blanks that are trimmed. -/
lemma padded_trimList (cs : List Char) : Padded (trimList cs) cs := by
  refine ⟨cs.takeWhile isBlank, ((cs.dropWhile isBlank).reverse.takeWhile isBlank).reverse,
    fun c hc => List.mem_takeWhile_imp hc,
    fun c hc => List.mem_takeWhile_imp (List.mem_reverse.1 hc), ?_⟩
  rw [trimList, List.append_assoc, ← List.reverse_append, List.takeWhile_append_dropWhile,
    List.reverse_reverse, List.takeWhile_append_dropWhile]

/-- Blanks around a text make no difference to the text between its own. -/
lemma Padded.trimList_eq {ds : List Char} (h : Padded cs ds) : trimList ds = trimList cs := by
  obtain ⟨before, after, hbefore, hafter, rfl⟩ := h
  rw [trimList, List.append_assoc, List.dropWhile_append_of_pos hbefore, List.dropWhile_append]
  split
  · next hempty =>
    have hall : after.dropWhile isBlank = [] := List.dropWhile_eq_nil_iff.2 hafter
    rw [hall, trimList, List.isEmpty_iff.1 hempty]
  · rw [List.reverse_append,
      List.dropWhile_append_of_pos fun d hd => hafter d (List.mem_reverse.1 hd), trimList]

/-- A text without blanks is found between blanks. -/
lemma trimList_between {before after : List Char} (hbefore : ∀ c ∈ before, isBlank c = true)
    (hafter : ∀ c ∈ after, isBlank c = true) (hcs : ∀ c ∈ cs, isBlank c = false) :
    trimList (before ++ cs ++ after) = cs := by
  have hpadded : Padded cs (before ++ cs ++ after) := ⟨before, after, hbefore, hafter, rfl⟩
  rw [hpadded.trimList_eq]
  exact trimList_of_ends (fun d hd => hcs d (List.mem_of_mem_head? hd))
    (fun d hd => hcs d (List.mem_of_getLast? hd))

/-- The texts behind the first one, each with a separator in front of it. -/
lemma intercalate_cons (mid text : List α) (texts : List (List α)) :
    mid.intercalate (text :: texts) = text ++ texts.flatMap (mid ++ ·) := by
  induction texts generalizing text with
  | nil => rw [List.intercalate_singleton, List.flatMap_nil, List.append_nil]
  | cons text' texts ih =>
    rw [List.intercalate_cons_cons, ih, List.flatMap_cons]
    simp only [List.append_assoc]

/-- Strings are joined as their characters are. -/
lemma toList_intercalate_cons (mid s : String) (ss : List String) :
    (mid.intercalate (s :: ss)).toList
      = s.toList ++ (ss.map String.toList).flatMap (mid.toList ++ ·) := by
  rw [String.toList_intercalate, List.map_cons, intercalate_cons]

/-- What stands in a joined text stands in a piece or between two. -/
lemma mem_intercalate {mid : List Char} {pieces : List (List Char)}
    (h : c ∈ mid.intercalate pieces) : c ∈ mid ∨ ∃ p ∈ pieces, c ∈ p := by
  induction pieces with
  | nil => cases h
  | cons p pieces ih =>
    cases pieces with
    | nil =>
      rw [List.intercalate_singleton] at h
      exact .inr ⟨p, List.mem_singleton_self p, h⟩
    | cons q pieces =>
      rw [List.intercalate_cons_cons, List.mem_append, List.mem_append] at h
      obtain (h | h) | h := h
      · exact .inr ⟨p, List.mem_cons_self, h⟩
      · exact .inl h
      · obtain h | ⟨p', hp', hc⟩ := ih h
        · exact .inl h
        · exact .inr ⟨p', List.mem_cons_of_mem p hp', hc⟩

/-- Texts with nothing between them are joined by concatenation. -/
lemma nil_intercalate (texts : List (List α)) : [].intercalate texts = texts.flatten := by
  cases texts with
  | nil => rfl
  | cons text texts =>
    rw [intercalate_cons, List.flatten_cons]
    simp only [List.nil_append, List.flatMap_id']

/-- The members of a joined text may be changed before it is joined. -/
lemma map_intercalate (f : α → β) (mid : List α) (texts : List (List α)) :
    (mid.intercalate texts).map f = (mid.map f).intercalate (texts.map (List.map f)) := by
  cases texts with
  | nil => rfl
  | cons text texts =>
    rw [List.map_cons, intercalate_cons, intercalate_cons, List.map_append, List.map_flatMap,
      List.flatMap_map]
    simp only [List.map_append]

/-- The members of a joined text may be filtered before it is joined. -/
lemma filter_intercalate (P : α → Bool) (mid : List α) (texts : List (List α)) :
    (mid.intercalate texts).filter P = (mid.filter P).intercalate (texts.map (List.filter P)) := by
  cases texts with
  | nil => rfl
  | cons text texts =>
    rw [List.map_cons, intercalate_cons, intercalate_cons, List.filter_append, List.filter_flatMap,
      List.flatMap_map]
    simp only [List.filter_append]

/-- A text without separators is one piece. -/
lemma splitList_of_not_mem (h : sep ∉ cs) : splitList sep cs = [cs] := by
  induction cs with
  | nil => rfl
  | cons c cs ih =>
    rw [List.mem_cons, not_or] at h
    rw [splitList, if_neg (Ne.symm h.1), ih h.2, consFirst]

/-- The first piece ends at the first separator. -/
lemma splitList_append (h : sep ∉ cs) (ds : List Char) :
    splitList sep (cs ++ sep :: ds) = cs :: splitList sep ds := by
  induction cs with
  | nil => rw [List.nil_append, splitList, if_pos rfl]
  | cons c cs ih =>
    rw [List.mem_cons, not_or] at h
    rw [List.cons_append, splitList, if_neg (Ne.symm h.1), ih h.2, consFirst]

/-- The pieces of a text joined of pieces without the separator. -/
theorem splitList_intercalate {pieces : List (List Char)} (hne : pieces ≠ [])
    (h : ∀ p ∈ pieces, sep ∉ p) : splitList sep ([sep].intercalate pieces) = pieces := by
  induction pieces with
  | nil => exact absurd rfl hne
  | cons p pieces ih =>
    rw [List.forall_mem_cons] at h
    cases pieces with
    | nil => rw [List.intercalate_singleton, splitList_of_not_mem h.1]
    | cons q pieces =>
      rw [List.intercalate_cons_cons, List.append_assoc, List.singleton_append,
        splitList_append h.1, ih (List.cons_ne_nil q pieces) h.2]

/-- Pieces joined by another character are the text with that character for the separator. -/
lemma intercalate_splitList_eq_map (mid sep : Char) (cs : List Char) :
    [mid].intercalate (splitList sep cs) = cs.map fun c => if c = sep then mid else c := by
  induction cs with
  | nil => rfl
  | cons c cs ih =>
    rw [splitList, List.map_cons, ← ih]
    obtain ⟨piece, pieces, hpieces⟩ := List.exists_cons_of_ne_nil (splitList_ne_nil sep cs)
    by_cases hc : c = sep
    · rw [if_pos hc, if_pos hc, hpieces, List.intercalate_cons_cons]
      rfl
    · rw [if_neg hc, if_neg hc, hpieces, consFirst, intercalate_cons, intercalate_cons]
      rfl

/-- The pieces of a text make the text again. -/
lemma intercalate_splitList (sep : Char) (cs : List Char) :
    [sep].intercalate (splitList sep cs) = cs := by
  rw [intercalate_splitList_eq_map]
  exact List.map_id'' (fun c => by split <;> simp_all) cs

/-- Trimming drops a blank from the front. -/
lemma trimList_cons_of_isBlank (hc : isBlank c = true) (cs : List Char) :
    trimList (c :: cs) = trimList cs := by
  rw [trimList, List.dropWhile_cons, if_pos hc, trimList]

/-- Blanks in front of a text are gone once its pieces are trimmed. -/
lemma map_trimList_append_splitList {before : List Char} (hsep : isBlank sep = false)
    (hbefore : ∀ c ∈ before, isBlank c = true) (cs : List Char) :
    (splitList sep (before ++ cs)).map trimList = (splitList sep cs).map trimList := by
  induction before with
  | nil => rfl
  | cons c before ih =>
    rw [List.forall_mem_cons] at hbefore
    have hc : c ≠ sep := by
      rintro rfl
      exact absurd hbefore.1 (by rw [hsep]; decide)
    rw [← ih hbefore.2, List.cons_append, splitList, if_neg hc]
    obtain ⟨p, ps, hps⟩ := List.exists_cons_of_ne_nil (splitList_ne_nil sep (before ++ cs))
    rw [hps, consFirst, List.map_cons, List.map_cons, trimList_cons_of_isBlank hbefore.1]

/-- Blanks behind a text stand behind the last of its pieces only. -/
lemma forall₂_splitList_append {after : List Char} (hsep : isBlank sep = false)
    (hafter : ∀ c ∈ after, isBlank c = true) (cs : List Char) :
    List.Forall₂ (fun p q => q = p ∨ q = p ++ after) (splitList sep cs)
      (splitList sep (cs ++ after)) := by
  induction cs with
  | nil =>
    have hnot : sep ∉ after := fun hmem => absurd (hafter sep hmem) (by rw [hsep]; decide)
    rw [List.nil_append, splitList_of_not_mem hnot]
    exact .cons (.inr rfl) .nil
  | cons c cs ih =>
    rw [List.cons_append, splitList, splitList]
    split
    · exact .cons (.inl rfl) ih
    · obtain ⟨p, ps, hps⟩ := List.exists_cons_of_ne_nil (splitList_ne_nil sep cs)
      rw [hps] at ih ⊢
      obtain ⟨q, qs, hq, hqs, heq⟩ := List.forall₂_cons_left_iff.1 ih
      rw [heq]
      exact .cons (hq.imp (congrArg _) (congrArg _)) hqs

/-- Blanks around a text are blanks around its first and its last piece. -/
lemma Padded.map_trimList_splitList {ds : List Char} (hsep : isBlank sep = false)
    (h : Padded cs ds) : (splitList sep ds).map trimList = (splitList sep cs).map trimList := by
  obtain ⟨before, after, hbefore, hafter, rfl⟩ := h
  rw [List.append_assoc, map_trimList_append_splitList hsep hbefore, eq_comm,
    ← List.forall₂_eq_eq_eq, List.forall₂_map_left_iff, List.forall₂_map_right_iff]
  refine (forall₂_splitList_append hsep hafter cs).imp fun p q hq => ?_
  obtain rfl | rfl := hq
  · rfl
  · have hpadded : Padded p (p ++ after) := ⟨[], after, nofun, hafter, rfl⟩
    exact hpadded.trimList_eq.symm

/-- A text without separators is not cut. -/
lemma cutList_eq_none (h : sep ∉ cs) : cutList sep cs = none := by
  induction cs with
  | nil => rfl
  | cons c cs ih =>
    rw [List.mem_cons, not_or] at h
    rw [cutList, if_neg (Ne.symm h.1), ih h.2, Option.map_none]

/-- A text is cut at the first of its separators. -/
lemma cutList_append (h : sep ∉ cs) (ds : List Char) :
    cutList sep (cs ++ sep :: ds) = some (cs, ds) := by
  induction cs with
  | nil => rw [List.nil_append, cutList, if_pos rfl]
  | cons c cs ih =>
    rw [List.mem_cons, not_or] at h
    rw [List.cons_append, cutList, if_neg (Ne.symm h.1), ih h.2, Option.map_some]

/-- The parts of a text that is cut stand before and after its first separator. -/
lemma cutList_eq_some {before after : List Char} (h : cutList sep cs = some (before, after)) :
    cs = before ++ sep :: after ∧ sep ∉ before := by
  induction cs generalizing before with
  | nil => cases h
  | cons c cs ih =>
    rw [cutList] at h
    split at h
    · next hc =>
      cases h
      exact ⟨by rw [hc, List.nil_append], List.not_mem_nil⟩
    · next hc =>
      obtain ⟨⟨p, q⟩, hcut, heq⟩ := Option.map_eq_some_iff.1 h
      cases heq
      obtain ⟨rfl, hp⟩ := ih hcut
      exact ⟨rfl, fun hmem => (List.mem_cons.1 hmem).elim (fun e => hc e.symm) hp⟩

/-- A text is cut at the only separator in front of which there is none. -/
lemma cut?_append {s : String} (h : sep ∉ s.toList) (t : String) :
    cut? sep (s ++ String.ofList [sep] ++ t) = some (s, t) := by
  have hchars : (s ++ String.ofList [sep] ++ t).toList = s.toList ++ sep :: t.toList := by simp
  rw [cut?, hchars, cutList_append h]
  simp

/-- A text is cut at the only separator behind which there is none. -/
lemma cutLast?_append {t : String} (h : sep ∉ t.toList) (s : String) :
    cutLast? sep (s ++ String.ofList [sep] ++ t) = some (s, t) := by
  have hreverse : (s ++ String.ofList [sep] ++ t).toList.reverse
      = t.toList.reverse ++ sep :: s.toList.reverse := by simp
  rw [cutLast?, hreverse, cutList_append (by simpa using h)]
  simp

/-- The parts of a text that is cut stand before and after its last separator. -/
lemma cutLast?_eq_some {s head tail : String} (h : cutLast? sep s = some (head, tail)) :
    s = head ++ String.ofList [sep] ++ tail ∧ sep ∉ tail.toList := by
  obtain ⟨⟨p, q⟩, hcut, heq⟩ := Option.map_eq_some_iff.1 h
  cases heq
  obtain ⟨hs, hp⟩ := cutList_eq_some hcut
  constructor
  · apply String.toList_injective
    rw [← List.reverse_reverse s.toList, hs]
    simp
  · simpa using hp

/-- No two neighbours are both the separator. -/
def Undoubled (sep : Char) (cs : List Char) : Prop :=
  cs.IsChain fun c d => ¬ (c = sep ∧ d = sep)

/-- Neighbours are compared pair by pair. -/
instance (sep : Char) (cs : List Char) : Decidable (Undoubled sep cs) :=
  inferInstanceAs (Decidable (cs.IsChain _))

/-- A character other than the separator may be put in front. -/
lemma undoubled_cons {c : Char} (hc : c ≠ sep) (h : Undoubled sep cs) :
    Undoubled sep (c :: cs) := by
  cases cs with
  | nil => exact .singleton c
  | cons d cs => exact .cons_cons (fun hcd => hc hcd.1) h

/-- A text without doubled separators is one piece. -/
lemma splitDoubledList_of_undoubled (h : Undoubled sep cs) : splitDoubledList sep cs = [cs] := by
  induction cs with
  | nil => rfl
  | cons c cs ih =>
    cases cs with
    | nil => rfl
    | cons d cs =>
      rw [Undoubled, List.isChain_cons_cons] at h
      rw [splitDoubledList, if_neg h.1, ih h.2, consFirst]

/-- A piece without doubled separators ends at the first doubled one, if it does not end with the
separator itself. -/
lemma splitDoubledList_append (h : Undoubled sep cs) (hlast : cs.getLast? ≠ some sep)
    (ds : List Char) :
    splitDoubledList sep (cs ++ sep :: sep :: ds) = cs :: splitDoubledList sep ds := by
  induction cs with
  | nil => rw [List.nil_append, splitDoubledList, if_pos ⟨rfl, rfl⟩]
  | cons c cs ih =>
    cases cs with
    | nil =>
      have hc : c ≠ sep := by simpa using hlast
      rw [List.singleton_append, splitDoubledList, if_neg fun hcd => hc hcd.1, splitDoubledList,
        if_pos ⟨rfl, rfl⟩, consFirst]
    | cons d cs =>
      rw [Undoubled, List.isChain_cons_cons] at h
      rw [List.getLast?_cons_cons] at hlast
      rw [List.cons_append, List.cons_append, splitDoubledList, if_neg h.1, ← List.cons_append,
        ih h.2 hlast, consFirst]

/-- Dropping other characters from the front hides no doubled separator. -/
lemma undoubled_of_dropWhile {P : Char → Bool} (hP : P sep = false)
    (h : Undoubled sep (cs.dropWhile P)) : Undoubled sep cs := by
  induction cs with
  | nil => exact .nil
  | cons c cs ih =>
    rw [List.dropWhile_cons] at h
    split at h
    · next hc =>
      refine undoubled_cons ?_ (ih h)
      rintro rfl
      rw [hP] at hc
      cases hc
    · exact h

/-- Read backwards, a text has the same neighbours. -/
lemma undoubled_reverse : Undoubled sep cs.reverse ↔ Undoubled sep cs := by
  rw [Undoubled, List.isChain_reverse, Undoubled]
  simp only [and_comm]

/-- A character at the end that is no blank stays there. -/
lemma getLast?_trimList_append {c : Char} (hc : isBlank c = false) (cs : List Char) :
    (trimList (cs ++ [c])).getLast? = some c := by
  obtain ⟨ds, hds⟩ := exists_dropWhile_append_singleton hc cs
  rw [trimList, hds, List.reverse_append, List.reverse_singleton, List.singleton_append,
    dropWhile_isBlank_of_head hc, List.reverse_cons, List.getLast?_append]
  rfl

/-- A text ends in an underscore only if its word in small letters does. -/
lemma getLast?_of_word {s : String} (h : (lower (trim s)).toList.getLast? ≠ some '_') :
    s.toList.getLast? ≠ some '_' := by
  intro hlast
  obtain ⟨cs, hcs⟩ := List.getLast?_eq_some_iff.1 hlast
  apply h
  rw [toList_lower, toList_trim, hcs, List.getLast?_map, getLast?_trimList_append (by decide)]
  decide

/-- A text has doubled underscores where its word in small letters has them. -/
lemma undoubled_of_word {s : String} (h : Undoubled '_' (lower (trim s)).toList) :
    Undoubled '_' s.toList := by
  rw [toList_lower, toList_trim, trimList, Undoubled, List.isChain_map] at h
  have htrim : Undoubled '_' ((s.toList.dropWhile isBlank).reverse.dropWhile isBlank).reverse := by
    refine h.imp fun c d hcd heq => hcd ?_
    rw [heq.1, heq.2]
    decide
  rw [undoubled_reverse] at htrim
  have hreverse := undoubled_of_dropWhile (by decide) htrim
  rw [undoubled_reverse] at hreverse
  exact undoubled_of_dropWhile (by decide) hreverse

end ReadQuery.Text
