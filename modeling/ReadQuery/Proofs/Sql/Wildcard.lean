import Mathlib.Data.List.Basic
import Mathlib.Data.List.TakeWhile
import ReadQuery.Input.Expression.Grammar
import ReadQuery.Proofs.Sql.Pattern

/-!
# Patterns with percent signs at their ends

A pattern of characters and percent signs is read as the text between the percent signs at its ends,
and these tell where the text has to stand (`exists_ends`). The pattern that is made of the text and
its place again escapes the percent signs that are left in the text. So it never matches more than
the first pattern does (`like_of_rebound`), and as much exactly if no percent sign stands between
other characters (`forall_like_rebound_iff`).
-/

namespace ReadQuery

open Input.Grammar (placement bareText)

/-- The place of a text with percent signs in front of it and behind it, or not. -/
def Placement.ofEnds (leading trailing : Prop) [Decidable leading] [Decidable trailing] :
    Placement :=
  if leading then if trailing then .anywhere else .atEnd
  else if trailing then .atStart else .whole

/-- A text stands at a place where others may be in front of it and behind it, or not. -/
lemma Placement.holds_ofEnds_iff {leading trailing : Prop} [Decidable leading]
    [Decidable trailing] {v s : String} :
    (ofEnds leading trailing).Holds v s ↔ ∃ x y, s.toList = x ++ (v.toList ++ y) ∧
      (¬ leading → x = []) ∧ (¬ trailing → y = []) := by
  unfold ofEnds
  split
  · next hleading =>
    split
    · next htrailing =>
      constructor
      · rintro ⟨x, y, h⟩
        exact ⟨x, y, by rw [← h, List.append_assoc], absurd hleading, absurd htrailing⟩
      · rintro ⟨x, y, h, -, -⟩
        exact ⟨x, y, by rw [h, List.append_assoc]⟩
    · next htrailing =>
      constructor
      · rintro ⟨x, h⟩
        exact ⟨x, [], by rw [← h, List.append_nil], absurd hleading, fun _ => rfl⟩
      · rintro ⟨x, y, h, -, hy⟩
        rw [hy htrailing, List.append_nil] at h
        exact ⟨x, h.symm⟩
  · next hleading =>
    split
    · next htrailing =>
      constructor
      · rintro ⟨y, h⟩
        exact ⟨[], y, h.symm, fun _ => rfl, absurd htrailing⟩
      · rintro ⟨x, y, h, hx, -⟩
        rw [hx hleading] at h
        exact ⟨y, h.symm⟩
    · next htrailing =>
      constructor
      · rintro rfl
        exact ⟨[], [], (List.append_nil _).symm, fun _ => rfl, fun _ => rfl⟩
      · rintro ⟨x, y, h, hx, hy⟩
        rw [hx hleading, hy htrailing, List.append_nil] at h
        exact String.toList_inj.1 h.symm

variable {cs : List Char}

/-- A text begins with some percent signs and goes on with something else. -/
lemma eq_replicate_append_dropWhile (cs : List Char) :
    ∃ n, cs = List.replicate n '%' ++ cs.dropWhile (· == '%') := by
  refine ⟨(cs.takeWhile (· == '%')).length, ?_⟩
  have hall : ∀ c ∈ cs.takeWhile (· == '%'), c = '%' := fun c hc =>
    eq_of_beq (List.mem_takeWhile_imp (p := (· == '%')) hc)
  conv_lhs => rw [← List.takeWhile_append_dropWhile (p := (· == '%')) (l := cs)]
  rw [← List.eq_replicate_of_mem hall]

/-- No percent sign is left in front. -/
lemma head?_dropWhile_percent (cs : List Char) :
    (cs.dropWhile (· == '%')).head? ≠ some '%' := by
  intro h
  have hnot := List.head?_dropWhile_not (· == '%') cs
  rw [h] at hnot
  cases hnot

/-- Behind the percent signs in front stand the text between the ends and other percent signs. -/
lemma exists_dropWhile_eq (cs : List Char) :
    ∃ n, cs.dropWhile (· == '%') = bareText cs ++ List.replicate n '%' := by
  obtain ⟨n, hn⟩ := eq_replicate_append_dropWhile (cs.dropWhile (· == '%')).reverse
  refine ⟨n, ?_⟩
  rw [← List.reverse_inj, List.reverse_append, List.reverse_replicate, bareText,
    List.reverse_reverse]
  exact hn

/-- No percent sign is left at the end of a bare text. -/
lemma getLast?_bareText (cs : List Char) : (bareText cs).getLast? ≠ some '%' := by
  rw [bareText, List.getLast?_reverse]
  exact head?_dropWhile_percent _

/-- No percent sign is left in front of a bare text. -/
lemma head?_bareText (cs : List Char) : (bareText cs).head? ≠ some '%' := by
  obtain ⟨n, hn⟩ := exists_dropWhile_eq cs
  have hfirst := head?_dropWhile_percent cs
  rw [hn, List.head?_append] at hfirst
  intro h
  rw [h] at hfirst
  exact hfirst rfl

/-- The place of a pattern depends on the percent signs at its ends. -/
lemma placement_eq_ofEnds {leading trailing : Prop} [Decidable leading] [Decidable trailing]
    (hleading : cs.head? = some '%' ↔ leading)
    (htrailing : (1 < cs.length ∧ cs.getLast? = some '%') ↔ trailing) :
    placement cs = .ofEnds leading trailing := by
  have hhead : (cs.head? == some '%') = decide leading := by
    rw [Bool.eq_iff_iff, beq_iff_eq, decide_eq_true_iff, hleading]
  have hlast : (decide (cs.length > 1) && cs.getLast? == some '%') = decide trailing := by
    rw [Bool.eq_iff_iff, Bool.and_eq_true, decide_eq_true_iff, beq_iff_eq, decide_eq_true_iff]
    exact htrailing
  simp only [placement, hhead, hlast, Placement.ofEnds]
  by_cases hl : leading <;> by_cases ht : trailing <;> simp [hl, ht]

/-- The place of a text between percent signs, which does not begin or end with others. -/
lemma placement_between {bare : List Char} (hne : bare ≠ []) (hfirst : bare.head? ≠ some '%')
    (hlast : bare.getLast? ≠ some '%') (a b : Nat) :
    placement (List.replicate a '%' ++ (bare ++ List.replicate b '%'))
      = .ofEnds (a ≠ 0) (b ≠ 0) := by
  apply placement_eq_ofEnds
  · cases a with
    | zero =>
      obtain ⟨c, cs, rfl⟩ := List.exists_cons_of_ne_nil hne
      simpa using hfirst
    | succ a => simp [List.replicate_succ]
  · have hlength := List.length_pos_iff.2 hne
    have hd := List.getLast?_eq_some_getLast hne
    rw [hd] at hlast
    have hnot : bare.getLast hne ≠ '%' := fun h => hlast (congrArg some h)
    rw [List.getLast?_append, List.getLast?_append, hd]
    cases b with
    | zero => simp [hnot]
    | succ b =>
      have hmore : 1 < a + (bare.length + (b + 1)) := by omega
      simp [List.getLast?_replicate, hmore]

/-- Of percent signs alone the first one is in front and the others are behind. -/
lemma exists_ends_replicate (n : Nat) : ∃ a b,
    List.replicate n '%' = List.replicate a '%' ++ List.replicate b '%' ∧
      placement (List.replicate n '%') = .ofEnds (a ≠ 0) (b ≠ 0) := by
  match n with
  | 0 => exact ⟨0, 0, rfl, rfl⟩
  | 1 => exact ⟨1, 0, rfl, rfl⟩
  | n + 2 =>
    refine ⟨1, n + 1, rfl, placement_eq_ofEnds ?_ ?_⟩
    · simp [List.replicate_succ]
    · simp [List.getLast?_replicate]

/-- A pattern is the text between the percent signs at its ends, and these are what its place
tells. -/
lemma exists_ends (cs : List Char) :
    ∃ a b, cs = List.replicate a '%' ++ (bareText cs ++ List.replicate b '%') ∧
      placement cs = .ofEnds (a ≠ 0) (b ≠ 0) := by
  obtain ⟨a, ha⟩ := eq_replicate_append_dropWhile cs
  obtain ⟨b, hb⟩ := exists_dropWhile_eq cs
  have hfirst := head?_bareText cs
  have hlast := getLast?_bareText cs
  rw [hb] at ha
  clear hb
  generalize bareText cs = bare at *
  cases bare with
  | nil =>
    rw [List.nil_append, List.replicate_append_replicate] at ha
    subst ha
    exact exists_ends_replicate (a + b)
  | cons c bare =>
    refine ⟨a, b, ha, ?_⟩
    rw [ha]
    exact placement_between (List.cons_ne_nil c bare) hfirst hlast a b

namespace Sql

/-- What a character of a pattern stands for that has no other wildcards. -/
def percentPiece (c : Char) : Piece :=
  if c = '%' then .anyText else .char c

/-- Whether a pattern has neither underscores nor backslashes. -/
def HasPercentsOnly (cs : List Char) : Prop :=
  '_' ∉ cs ∧ '\\' ∉ cs

/-- A pattern of percent signs and plain characters is read character by character. -/
lemma pieces?_of_percents (h : HasPercentsOnly cs) :
    pieces? false cs = some (cs.map percentPiece) := by
  induction cs with
  | nil => rfl
  | cons c cs ih =>
    obtain ⟨hunderscore, hslash⟩ := h
    rw [List.mem_cons, not_or] at hunderscore hslash
    rw [pieces?, ih ⟨hunderscore.2, hslash.2⟩, if_neg (by decide), if_neg (Ne.symm hslash.1),
      if_neg (Ne.symm hunderscore.1), List.map_cons, percentPiece]
    split <;> rfl

variable {ps : List Piece} {s : List Char}

/-- Any number of any texts match some text in front, and none of them matches nothing. -/
lemma matchPieces_anyTexts {n : Nat} :
    matchPieces (List.replicate n .anyText ++ ps) s = true ↔
      ∃ x t, s = x ++ t ∧ (¬ n ≠ 0 → x = []) ∧ matchPieces ps t = true := by
  induction n generalizing s with
  | zero =>
    constructor
    · intro h
      exact ⟨[], s, rfl, fun _ => rfl, h⟩
    · rintro ⟨x, t, rfl, hx, h⟩
      rw [hx (not_not.2 rfl)]
      exact h
  | succ n ih =>
    rw [List.replicate_succ, List.cons_append, matchPieces_anyText]
    constructor
    · rintro ⟨t, ⟨x, rfl⟩, h⟩
      obtain ⟨y, u, rfl, -, hu⟩ := ih.1 h
      exact ⟨x ++ y, u, (List.append_assoc x y u).symm, absurd (Nat.succ_ne_zero n), hu⟩
    · rintro ⟨x, t, rfl, -, h⟩
      exact ⟨t, List.suffix_append x t, ih.2 ⟨[], t, rfl, fun _ => rfl, h⟩⟩

/-- Wildcards match anything, and without one of them only the empty text is matched. -/
lemma matchPieces_replicate {n : Nat} :
    matchPieces (List.replicate n .anyText) s = true ↔ (¬ n ≠ 0 → s = []) := by
  have h := @matchPieces_anyTexts [] s n
  rw [List.append_nil] at h
  rw [h]
  constructor
  · rintro ⟨x, t, rfl, hx, ht⟩ hn
    rw [hx hn, matchPieces_nil.1 ht]
    rfl
  · intro hs
    exact ⟨s, [], (List.append_nil s).symm, hs, rfl⟩

/-- The percent signs of a text match themselves. -/
lemma matchPieces_self (v : List Char) {t : List Char} (h : matchPieces ps t = true) :
    matchPieces (v.map percentPiece ++ ps) (v ++ t) = true := by
  induction v with
  | nil => exact h
  | cons c v ih =>
    rw [List.map_cons, List.cons_append, percentPiece]
    split
    · exact matchPieces_anyText.2 ⟨v ++ t, List.suffix_cons c _, ih⟩
    · rw [List.cons_append, matchPieces, beq_self_eq_true, Bool.true_and]
      exact ih

/-- The percent signs of a text match nothing. -/
lemma matchPieces_erased (v : List Char) {t : List Char} (h : matchPieces ps t = true) :
    matchPieces (v.map percentPiece ++ ps) (v.filter (· != '%') ++ t) = true := by
  induction v with
  | nil => exact h
  | cons c v ih =>
    rw [List.map_cons, List.cons_append, percentPiece]
    split
    · next hc =>
      rw [List.filter_cons_of_neg (by simp [hc])]
      exact matchPieces_anyText.2 ⟨_, List.suffix_rfl, ih⟩
    · next hc =>
      rw [List.filter_cons_of_pos (by simpa using hc), List.cons_append, matchPieces,
        beq_self_eq_true, Bool.true_and]
      exact ih

/-- A text without percent signs is read as its characters. -/
lemma map_percentPiece {v : List Char} (h : '%' ∉ v) : v.map percentPiece = v.map .char := by
  apply List.map_congr_left
  intro c hc
  apply if_neg
  rintro rfl
  exact h hc

variable {p : String}

/-- The pattern of the text between the percent signs of a pattern, at the place that these tell. -/
def reboundPattern (p : String) : String :=
  likePattern (placement p.toList) (String.ofList (bareText p.toList))

/-- What a pattern matches, by its ends. -/
lemma like_ends_iff (h : HasPercentsOnly p.toList) {a b : Nat} {v : List Char}
    (hp : p.toList = List.replicate a '%' ++ (v ++ List.replicate b '%')) {s : String} :
    like p s = true ↔ ∃ x t, s.toList = x ++ t ∧ (¬ a ≠ 0 → x = []) ∧
      matchPieces (v.map percentPiece ++ List.replicate b .anyText) t = true := by
  have hpercent : percentPiece '%' = .anyText := rfl
  rw [like, pieces?_of_percents h, Option.any_some, hp, List.map_append, List.map_append,
    List.map_replicate, List.map_replicate, hpercent]
  exact matchPieces_anyTexts

/-- What a rebound pattern matches holds the bare text, with other text at the open ends only. -/
lemma rebound_iff {a b : Nat} (hplace : placement p.toList = .ofEnds (a ≠ 0) (b ≠ 0))
    {s : String} : like (reboundPattern p) s = true ↔ ∃ x y,
      s.toList = x ++ (bareText p.toList ++ y) ∧ (¬ a ≠ 0 → x = []) ∧ (¬ b ≠ 0 → y = []) := by
  rw [reboundPattern, hplace, like_likePattern, Placement.holds_ofEnds_iff, String.toList_ofList]

/-- The pattern that is bound matches no other texts than the one that was written. -/
lemma like_of_rebound (h : HasPercentsOnly p.toList) {s : String}
    (hs : like (reboundPattern p) s = true) : like p s = true := by
  obtain ⟨a, b, hp, hplace⟩ := exists_ends p.toList
  obtain ⟨x, y, hxy, hx, hy⟩ := (rebound_iff hplace).1 hs
  apply (like_ends_iff h hp).2
  exact ⟨x, _, hxy, hx, matchPieces_self _ (matchPieces_replicate.2 hy)⟩

/-- Without percent signs between its ends a pattern matches what the bound one does. -/
lemma rebound_of_like (h : HasPercentsOnly p.toList) (hbare : '%' ∉ bareText p.toList) {s : String}
    (hs : like p s = true) : like (reboundPattern p) s = true := by
  obtain ⟨a, b, hp, hplace⟩ := exists_ends p.toList
  obtain ⟨x, t, hxt, hx, ht⟩ := (like_ends_iff h hp).1 hs
  rw [map_percentPiece hbare] at ht
  obtain ⟨y, rfl, hy⟩ := (matchPieces_chars _).1 ht
  apply (rebound_iff hplace).2
  exact ⟨x, y, hxt, hx, matchPieces_replicate.1 hy⟩

/-- The text between the ends without its percent signs is matched by the pattern, and by the bound
one only if there were none. -/
lemma percent_not_mem_of_forall_like (h : HasPercentsOnly p.toList)
    (hsame : ∀ s, like (reboundPattern p) s = like p s) : '%' ∉ bareText p.toList := by
  intro hpercent
  obtain ⟨a, b, hp, hplace⟩ := exists_ends p.toList
  have hempty : matchPieces (List.replicate b .anyText) [] = true :=
    matchPieces_replicate.2 fun _ => rfl
  have herased := matchPieces_erased (bareText p.toList) hempty
  rw [List.append_nil] at herased
  have hlike : like p (String.ofList ((bareText p.toList).filter (· != '%'))) = true := by
    apply (like_ends_iff h hp).2
    exact ⟨[], _, String.toList_ofList, fun _ => rfl, herased⟩
  rw [← hsame] at hlike
  obtain ⟨x, y, hxy, -⟩ := (rebound_iff hplace).1 hlike
  have hlt : ((bareText p.toList).filter (· != '%')).length < (bareText p.toList).length :=
    List.length_filter_lt_length_iff_exists.2 ⟨'%', hpercent, by decide⟩
  have hlength := congrArg List.length hxy
  rw [String.toList_ofList, List.length_append, List.length_append] at hlength
  omega

/-- Whether a percent sign stands between other characters. -/
def HasPercentInside (cs : List Char) : Prop :=
  ∃ before after, cs = before ++ '%' :: after ∧ (∃ c ∈ before, c ≠ '%') ∧ ∃ c ∈ after, c ≠ '%'

/-- A character that is no percent sign is where dropping ends. -/
lemma dropWhile_percent_append {before : List Char} (h : ∃ c ∈ before, c ≠ '%')
    (cs : List Char) : (before ++ cs).dropWhile (· == '%')
      = before.dropWhile (· == '%') ++ cs := by
  obtain ⟨c, hc, hne⟩ := h
  have hsome : (before.dropWhile (· == '%')).isEmpty = false := by
    rw [List.isEmpty_eq_false_iff]
    intro hnil
    exact hne (eq_of_beq (List.dropWhile_eq_nil_iff.1 hnil c hc))
  rw [List.dropWhile_append, hsome]
  rfl

/-- The percent signs between the ends are those that stand between other characters. -/
lemma percent_mem_bareText_iff : '%' ∈ bareText cs ↔ HasPercentInside cs := by
  constructor
  · intro h
    obtain ⟨a, b, hends, -⟩ := exists_ends cs
    have hfirst := head?_bareText cs
    have hlast := getLast?_bareText cs
    obtain ⟨before, after, hbare⟩ := List.append_of_mem h
    rw [hbare] at hends hfirst hlast
    refine ⟨List.replicate a '%' ++ before, after ++ List.replicate b '%', ?_, ?_, ?_⟩
    · rw [hends]
      simp
    · cases before with
      | nil => exact absurd rfl hfirst
      | cons c before =>
        refine ⟨c, by simp, ?_⟩
        rintro rfl
        exact hfirst rfl
    · obtain hnil | ⟨after, c, rfl⟩ := after.eq_nil_or_concat'
      · subst hnil
        simp at hlast
      · refine ⟨c, by simp, ?_⟩
        rintro rfl
        have hconcat : before ++ '%' :: (after ++ ['%']) = (before ++ '%' :: after) ++ ['%'] := by
          simp
        rw [hconcat, List.getLast?_concat] at hlast
        exact hlast rfl
  · rintro ⟨before, after, rfl, hbefore, hafter⟩
    have hreverse : ∃ c ∈ after.reverse, c ≠ '%' := by
      obtain ⟨c, hc, hne⟩ := hafter
      exact ⟨c, List.mem_reverse.2 hc, hne⟩
    rw [bareText, List.mem_reverse, dropWhile_percent_append hbefore, List.reverse_append,
      List.reverse_cons, List.append_assoc, dropWhile_percent_append hreverse]
    simp

/-- The bound pattern matches what the pattern does exactly if no percent sign stands between other
characters. -/
theorem forall_like_rebound_iff (h : HasPercentsOnly p.toList) :
    (∀ s, like (reboundPattern p) s = like p s) ↔ ¬ HasPercentInside p.toList := by
  rw [← percent_mem_bareText_iff]
  constructor
  · exact percent_not_mem_of_forall_like h
  · intro hbare s
    rw [Bool.eq_iff_iff]
    exact ⟨like_of_rebound h, rebound_of_like h hbare⟩

end Sql

end ReadQuery
