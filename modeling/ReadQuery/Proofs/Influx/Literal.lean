import Mathlib.Data.List.Basic
import ReadQuery.Influx.Literal
import ReadQuery.Pattern

/-!
# Regular expressions between slashes

Which patterns can stand between slashes: those behind which no backslash is left to escape the
closing slash (`escapedAfter`). These are the patterns that do not end in an odd run of backslashes
(`regexLiteral?_isSome_iff`), and all patterns of literal texts (`escapedAfter_anchored`).

What stands between the slashes is the pattern with some slashes escaped (`bodyOf`). Taking these
backslashes away leaves the pattern of a literal text as it was (`unslash_bodyOf_escape`).
-/

namespace ReadQuery

/-- Whether a text ends in an odd number of backslashes. -/
def Text.EndsInOddRun (s : String) : Prop :=
  (s.toList.reverse.takeWhile (· == '\\')).length % 2 = 1

/-- The run of backslashes is counted. -/
instance (s : String) : Decidable (Text.EndsInOddRun s) :=
  inferInstanceAs (Decidable (_ = _))

namespace Influx

/-- Whether a backslash escapes what stands behind a text, given whether one escapes what it starts
with. -/
def escapedAfter (escaped : Bool) : List Char → Bool
  | [] => escaped
  | c :: cs => escapedAfter (if c = '\\' then !escaped else false) cs

/-- Whether a backslash escapes is handed on from one text to the next. -/
lemma escapedAfter_append (b : Bool) (cs ds : List Char) :
    escapedAfter b (cs ++ ds) = escapedAfter (escapedAfter b cs) ds := by
  induction cs generalizing b with
  | nil => rfl
  | cons c cs ih => rw [List.cons_append, escapedAfter, ih, escapedAfter]

/-- A pattern with a backslash in front of every slash that has none. -/
def slashed : Bool → List Char → List Char
  | _, [] => []
  | escaped, c :: cs =>
    (if c = '/' ∧ escaped = false then ['\\', c] else [c])
      ++ slashed (if c = '\\' then !escaped else false) cs

/-- Slashes are escaped in one text after the other. -/
lemma slashed_append (b : Bool) (cs ds : List Char) :
    slashed b (cs ++ ds) = slashed b cs ++ slashed (escapedAfter b cs) ds := by
  induction cs generalizing b with
  | nil => rfl
  | cons c cs ih => rw [List.cons_append, slashed, slashed, ih, escapedAfter, List.append_assoc]

/-- A pattern has a body unless a backslash is left behind it. -/
lemma regexBody_eq (b : Bool) (cs : List Char) :
    regexBody b cs = if escapedAfter b cs then none else some (slashed b cs) := by
  induction cs generalizing b with
  | nil => rfl
  | cons c cs ih =>
    unfold regexBody slashed escapedAfter
    by_cases hc : c = '\\'
    · subst hc
      rw [if_pos rfl, ih, apply_ite (Option.map _)]
      rfl
    by_cases hslash : c = '/' ∧ b = false
    · rw [if_neg hc, if_neg hc, if_pos hslash, if_pos hslash, ih, apply_ite (Option.map _)]
      rfl
    · rw [if_neg hc, if_neg hc, if_neg hslash, if_neg hslash, ih, apply_ite (Option.map _)]
      rfl

/-- A pattern has a body unless a backslash at its end would escape the closing slash. -/
lemma isSome_regexBody (b : Bool) (cs : List Char) :
    (regexBody b cs).isSome = !escapedAfter b cs := by
  rw [regexBody_eq]
  cases escapedAfter b cs <;> rfl

/-- A backslash is left behind a text exactly if it ends in an odd run of them. -/
lemma escapedAfter_reverse (cs : List Char) :
    escapedAfter false cs.reverse
      = decide ((cs.takeWhile (· == '\\')).length % 2 = 1) := by
  -- by induction on the reversed text, whose head is the last character that is read
  induction cs with
  | nil => rfl
  | cons c cs ih =>
    rw [List.reverse_cons, escapedAfter_append, ih]
    by_cases hc : c = '\\'
    · rw [List.takeWhile_cons, hc]
      simp only [escapedAfter, if_true, beq_self_eq_true, List.length_cons]
      rcases Nat.mod_two_eq_zero_or_one (cs.takeWhile (· == '\\')).length with h | h
      · simp [h, Nat.add_mod]
      · simp [h, Nat.add_mod]
    · simp [escapedAfter, hc]

/-- A backslash at the end escapes if the run that it ends is odd. -/
lemma escapedAfter_eq (s : String) :
    escapedAfter false s.toList = decide (Text.EndsInOddRun s) := by
  have h := escapedAfter_reverse s.toList.reverse
  rwa [List.reverse_reverse] at h

/-- Patterns that do not end in an odd run of backslashes can stand between slashes. -/
theorem regexLiteral?_isSome_iff (s : String) :
    (regexLiteral? s).isSome = true ↔ ¬ Text.EndsInOddRun s := by
  rw [regexLiteral?, Option.isSome_map, isSome_regexBody, escapedAfter_eq]
  simp

/-- A character as it is written in the regular expression of a literal text. -/
def escapeChar (c : Char) : List Char :=
  if c ∈ Pattern.special then ['\\', c] else [c]

/-- A text is escaped character by character. -/
lemma toList_escape (s : String) : (Pattern.escape s).toList = s.toList.flatMap escapeChar :=
  String.toList_ofList

/-- The backslash in front of a character is used up by the character, even by a backslash. -/
lemma escapedAfter_escapeChar (c : Char) : escapedAfter false (escapeChar c) = false := by
  unfold escapeChar
  by_cases hs : c ∈ Pattern.special
  · simp [hs, escapedAfter]
  · have hb : c ≠ '\\' := by
      rintro rfl
      exact hs (by decide)
    simp [hs, hb, escapedAfter]

/-- No escaped text ends in a backslash that escapes. -/
lemma escapedAfter_escape (s : String) :
    escapedAfter false (Pattern.escape s).toList = false := by
  rw [toList_escape]
  induction s.toList with
  | nil => rfl
  | cons c cs ih => rw [List.flatMap_cons, escapedAfter_append, escapedAfter_escapeChar, ih]

/-- The patterns of literal texts can stand between slashes, behind a flag as well. -/
theorem escapedAfter_anchored (place : Placement) (s : String) :
    escapedAfter false (Pattern.anchored place s).toList = false := by
  have hs := escapedAfter_escape s
  have hcaret : escapedAfter false ['^'] = false := rfl
  have hdollar : escapedAfter false ['$'] = false := rfl
  cases place with
  | anywhere => exact hs
  | atStart =>
    rw [Pattern.anchored, String.toList_append, escapedAfter_append]
    simpa [hcaret] using hs
  | atEnd =>
    rw [Pattern.anchored, String.toList_append, escapedAfter_append, hs]
    exact hdollar
  | whole =>
    rw [Pattern.anchored, String.toList_append, String.toList_append, escapedAfter_append,
      escapedAfter_append]
    simpa [hcaret, hs] using hdollar

/-- The flag for case does not end in a backslash. -/
lemma escapedAfter_flagged (folded : Bool) (s : String) :
    escapedAfter false (if folded then "(?i)" ++ s else s).toList
      = escapedAfter false s.toList := by
  cases folded with
  | false => rfl
  | true =>
    have hflag : escapedAfter false "(?i)".toList = false := by decide
    rw [if_pos rfl, String.toList_append, escapedAfter_append, hflag]

/-- The body of a regular expression. -/
def bodyOf (pattern : String) : String :=
  String.ofList (slashed false pattern.toList)

/-- A regular expression is its body between slashes. -/
lemma toList_regex (pattern : String) : ("/" ++ bodyOf pattern ++ "/").toList
    = ['/'] ++ slashed false pattern.toList ++ ['/'] := by
  simp [bodyOf]

/-- A pattern is written as a regular expression just if nothing escapes the closing slash. -/
lemma regexLiteral?_eq_some {pattern l : String} : regexLiteral? pattern = some l ↔
    escapedAfter false pattern.toList = false ∧ l = "/" ++ bodyOf pattern ++ "/" := by
  have htext : String.ofList ('/' :: slashed false pattern.toList ++ ['/'])
      = "/" ++ bodyOf pattern ++ "/" := by
    rw [← String.toList_inj, toList_regex, String.toList_ofList]
    rfl
  rw [regexLiteral?, regexBody_eq]
  cases escapedAfter false pattern.toList with
  | false => rw [if_neg Bool.false_ne_true, Option.map_some, htext, Option.some_inj, eq_comm,
      eq_self, true_and]
  | true => simp

/-- Bodies behind each other are the body of both, if nothing is escaped between them. -/
lemma bodyOf_append {s t : String} (h : escapedAfter false s.toList = false) :
    bodyOf (s ++ t) = bodyOf s ++ bodyOf t := by
  rw [bodyOf, String.toList_append, slashed_append, h, String.ofList_append]
  rfl

/-- A pattern that may disregard case. -/
def flagged (folded : Bool) (pattern : String) : String :=
  if folded then "(?i)" ++ pattern else pattern

/-- A pattern with the anchors of a place. -/
def framed (place : Placement) (pattern : String) : String :=
  match place with
  | .anywhere => pattern
  | .atStart => "^" ++ pattern
  | .atEnd => pattern ++ "$"
  | .whole => "^" ++ pattern ++ "$"

/-- The characters with a slash for every escaped slash. -/
def unslashList : List Char → List Char
  | '\\' :: '/' :: cs => '/' :: unslashList cs
  | c :: cs => c :: unslashList cs
  | [] => []

/-- The text with a slash for every escaped slash. -/
def unslash (s : String) : String :=
  String.ofList (unslashList s.toList)

/-- The flag for case stands in front of the body. -/
lemma bodyOf_flagged (folded : Bool) (s : String) :
    bodyOf (flagged folded s) = flagged folded (bodyOf s) := by
  cases folded with
  | false => rfl
  | true =>
    rw [flagged, if_pos rfl, bodyOf_append (by decide)]
    rfl

/-- The anchors stand around the body. -/
lemma bodyOf_framed (place : Placement) {s : String} (h : escapedAfter false s.toList = false) :
    bodyOf (framed place s) = framed place (bodyOf s) := by
  have hcaret : bodyOf ("^" ++ s) = "^" ++ bodyOf s := bodyOf_append (by decide)
  have hafter : escapedAfter false ("^" ++ s).toList = false := by
    rw [String.toList_append, escapedAfter_append]
    exact h
  cases place with
  | anywhere => rfl
  | atStart => exact hcaret
  | atEnd => exact bodyOf_append h
  | whole =>
    rw [framed, bodyOf_append hafter, hcaret]
    rfl

/-- No body begins with a slash. -/
lemma head?_slashed (cs : List Char) : (slashed false cs).head? ≠ some '/' := by
  cases cs with
  | nil => simp [slashed]
  | cons c cs =>
    rw [slashed]
    by_cases hc : c = '/'
    · simp [hc]
    · simp [hc]

/-- A character stays unless it escapes a slash. -/
lemma unslashList_cons {c : Char} {cs : List Char} (h : c ≠ '\\' ∨ cs.head? ≠ some '/') :
    unslashList (c :: cs) = c :: unslashList cs := by
  rw [unslashList]
  rintro cs' rfl rfl
  simp at h

/-- Of a character of a literal text, only the backslash in front of a slash is taken away. -/
lemma unslashList_escapeChar (c : Char) {cs : List Char} (h : cs.head? ≠ some '/') :
    unslashList (slashed false (escapeChar c) ++ cs) = escapeChar c ++ unslashList cs := by
  unfold escapeChar
  by_cases hspecial : c ∈ Pattern.special
  · have hslash : c ≠ '/' := by
      rintro rfl
      exact absurd hspecial (by decide)
    have hbody : slashed false ['\\', c] = ['\\', c] := by
      simp [slashed, hslash]
    rw [if_pos hspecial, hbody, List.cons_append, List.singleton_append,
      unslashList_cons (.inr (by simpa using hslash)), unslashList_cons (.inr h)]
    rfl
  · have hback : c ≠ '\\' := by
      rintro rfl
      exact hspecial (by decide)
    rw [if_neg hspecial]
    by_cases hslash : c = '/'
    · subst hslash
      rfl
    · have hbody : slashed false [c] = [c] := by
        simp [slashed, hslash]
      rw [hbody, List.singleton_append, unslashList_cons (.inl hback)]
      rfl

/-- Without the backslashes in front of slashes, the body of a literal text is its escape. -/
theorem unslash_bodyOf_escape (s : String) :
    unslash (bodyOf (Pattern.escape s)) = Pattern.escape s := by
  rw [unslash, bodyOf, String.toList_ofList, ← String.toList_inj, String.toList_ofList,
    toList_escape]
  induction s.toList with
  | nil => rfl
  | cons c cs ih =>
    rw [List.flatMap_cons, slashed_append, escapedAfter_escapeChar,
      unslashList_escapeChar c (head?_slashed _), ih]

end Influx

end ReadQuery
