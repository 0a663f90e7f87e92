import Mathlib.Data.List.Infix
import Mathlib.Tactic.Lemma
import ReadQuery.Sql.Filter

/-!
# Patterns of literal texts

What a pattern of `LIKE` matches: a percent sign stands for any text, an underscore for any one
character, and every other character for itself, as a character behind a backslash does whatever it
is. A pattern is read into pieces (`pieces?`), which fails only where a backslash at the end has
nothing to escape, and its pieces are matched with a text (`matchPieces`).

A text with its special characters escaped is read as its own characters (`pieces?_escapeLike`). So
the pattern that a condition binds matches exactly the texts that have the text of the condition at
the place that its operator says, with or without regard to case (`condition_like`).
-/

namespace ReadQuery

/-- A text stands at a place in another one. -/
def Placement.Holds (place : Placement) (v s : String) : Prop :=
  match place with
  | .anywhere => v.toList <:+: s.toList
  | .atStart => v.toList <+: s.toList
  | .atEnd => v.toList <:+ s.toList
  | .whole => v = s

/-- Each of the three places is looked at. -/
instance (place : Placement) (v s : String) : Decidable (place.Holds v s) :=
  match place with
  | .anywhere => inferInstanceAs (Decidable (v.toList <:+: s.toList))
  | .atStart => inferInstanceAs (Decidable (v.toList <+: s.toList))
  | .atEnd => inferInstanceAs (Decidable (v.toList <:+ s.toList))
  | .whole => inferInstanceAs (Decidable (v = s))

namespace Sql

/-- A piece of a pattern. -/
inductive Piece where
  | anyText
  | anyChar
  | char (c : Char)
  deriving DecidableEq, Repr

/-- The pieces of a pattern, unless a backslash is left at its end. `escaped` tells whether a
backslash stands in front. -/
def pieces? (escaped : Bool) : List Char → Option (List Piece)
  | [] => if escaped then none else some []
  | c :: cs =>
    if escaped then (pieces? false cs).map (.char c :: ·)
    else if c = '\\' then pieces? true cs
    else if c = '%' then (pieces? false cs).map (.anyText :: ·)
    else if c = '_' then (pieces? false cs).map (.anyChar :: ·)
    else (pieces? false cs).map (.char c :: ·)

/-- Whether pieces match a text as a whole; any text is tried with each end of it. -/
def matchPieces : List Piece → List Char → Bool
  | [], s => s.isEmpty
  | .anyText :: ps, s => s.tails.any (matchPieces ps)
  | .anyChar :: ps, s =>
    match s with
    | [] => false
    | _ :: s => matchPieces ps s
  | .char c :: ps, s =>
    match s with
    | [] => false
    | d :: s => c == d && matchPieces ps s

/-- Whether a pattern matches a text. -/
def like (pattern s : String) : Bool :=
  (pieces? false pattern.toList).any (matchPieces · s.toList)

variable {ps : List Piece} {s : List Char}

/-- A pattern of no pieces matches the empty text only. -/
lemma matchPieces_nil : matchPieces [] s = true ↔ s = [] := by
  rw [matchPieces, List.isEmpty_iff]

/-- A wildcard for texts matches any beginning. -/
lemma matchPieces_anyText :
    matchPieces (.anyText :: ps) s = true ↔ ∃ t, t <:+ s ∧ matchPieces ps t = true := by
  simp only [matchPieces, List.any_eq_true, List.mem_tails]

/-- Characters match a text that starts with them. -/
lemma matchPieces_chars (v : List Char) :
    matchPieces (v.map .char ++ ps) s = true ↔ ∃ t, s = v ++ t ∧ matchPieces ps t = true := by
  induction v generalizing s with
  | nil => simp
  | cons c v ih =>
    cases s with
    | nil => simp [matchPieces]
    | cons d s =>
      rw [List.map_cons, List.cons_append, matchPieces, Bool.and_eq_true, beq_iff_eq, ih]
      constructor
      · rintro ⟨rfl, t, rfl, ht⟩
        exact ⟨t, rfl, ht⟩
      · rintro ⟨t, hs, ht⟩
        obtain ⟨rfl, rfl⟩ := List.cons.inj hs
        exact ⟨rfl, t, rfl, ht⟩

/-- Any text in the end leaves nothing to be matched. -/
lemma matchPieces_chars_anyText (v : List Char) :
    matchPieces (v.map .char ++ [.anyText]) s = true ↔ v <+: s := by
  rw [matchPieces_chars]
  constructor
  · rintro ⟨t, rfl, -⟩
    exact List.prefix_append v t
  · rintro ⟨t, rfl⟩
    exact ⟨t, rfl, matchPieces_anyText.2 ⟨[], List.nil_suffix, rfl⟩⟩

/-- Characters match themselves. -/
lemma matchPieces_chars_nil (v : List Char) :
    matchPieces (v.map .char) s = true ↔ v = s := by
  have h := @matchPieces_chars [] s v
  rw [List.append_nil] at h
  rw [h]
  constructor
  · rintro ⟨t, rfl, ht⟩
    rw [matchPieces_nil.1 ht, List.append_nil]
  · rintro rfl
    exact ⟨[], (List.append_nil v).symm, rfl⟩

/-- A text with its special characters escaped is read as its characters. -/
lemma pieces?_escapeLike (v : String) (rest : List Char) :
    pieces? false ((escapeLike v).toList ++ rest)
      = (pieces? false rest).map (v.toList.map .char ++ ·) := by
  rw [escapeLike, String.toList_ofList]
  induction v.toList with
  | nil => simp
  | cons c cs ih =>
    rw [List.flatMap_cons, List.append_assoc]
    by_cases hc : c = '\\' ∨ c = '%' ∨ c = '_'
    · rw [if_pos hc]
      simp [pieces?, ih, Function.comp_def]
    · rw [if_neg hc]
      simp only [not_or] at hc
      simp [pieces?, ih, hc, Function.comp_def]

/-- The pieces of the pattern of a text at a place. -/
def placedPieces (place : Placement) (v : List Char) : List Piece :=
  match place with
  | .anywhere => .anyText :: (v.map .char ++ [.anyText])
  | .atStart => v.map .char ++ [.anyText]
  | .atEnd => .anyText :: v.map .char
  | .whole => v.map .char

/-- The pattern for a place is the escaped text with wildcards at its open ends. -/
lemma pieces?_likePattern (place : Placement) (v : String) :
    pieces? false (likePattern place v).toList = some (placedPieces place v.toList) := by
  have hv := pieces?_escapeLike v
  have hpercent : "%".toList = ['%'] := rfl
  cases place with
  | anywhere =>
    simp [likePattern, placedPieces, hpercent, pieces?, hv]
  | atStart => simp [likePattern, placedPieces, hpercent, pieces?, hv]
  | atEnd =>
    have h := hv []
    rw [List.append_nil] at h
    simp [likePattern, placedPieces, hpercent, pieces?, h]
  | whole =>
    have h := hv []
    rw [List.append_nil] at h
    simp [likePattern, placedPieces, pieces?, h]

/-- The pattern of a text at a place matches the texts that have the text there. -/
theorem like_likePattern (place : Placement) (v s : String) :
    like (likePattern place v) s = true ↔ place.Holds v s := by
  rw [like, pieces?_likePattern, Option.any_some]
  cases place with
  | anywhere =>
    rw [placedPieces, matchPieces_anyText, Placement.Holds, List.infix_iff_prefix_suffix]
    simp only [matchPieces_chars_anyText, and_comm]
  | atStart => exact matchPieces_chars_anyText v.toList
  | atEnd =>
    rw [placedPieces, matchPieces_anyText, Placement.Holds]
    simp only [matchPieces_chars_nil, exists_eq_right']
  | whole =>
    rw [placedPieces, matchPieces_chars_nil, Placement.Holds, String.toList_inj]

/-- Where the text of a condition has to stand, if its operator is written as a `LIKE`. A search is
one in the dialects without full-text search. -/
def Dialect.likePlacement? (d : Dialect) : Operator → Option Placement
  | .text place _ => some place
  | .search =>
    match d with
    | sqlite | clickHouse => some .anywhere
    | postgres | mysql => none
  | _ => none

/-- The match of an expression with a pattern, as the operator has it. -/
def Dialect.likeText (d : Dialect) (op : Operator) (expr : String) : String :=
  if op.isFolded then d.foldedLike expr else d.like expr

variable {d : Dialect} {c : Condition} {place : Placement}

/-- An operator for a place binds the pattern of its text. -/
lemma operation_like (hplace : d.likePlacement? c.op = some place) (expr : String) :
    operation d expr c = match c.patternText? with
      | none => .skipped .missingValue
      | some v => single (d.likeText c.op expr) [.string (likePattern place v)] := by
  unfold operation
  cases hop : c.op with
  | text place' folded =>
    rw [hop, Dialect.likePlacement?, Option.some.injEq] at hplace
    subst hplace
    rfl
  | search =>
    rw [hop] at hplace
    cases d with
    | sqlite | clickHouse =>
      obtain rfl : Placement.anywhere = place := Option.some.inj hplace
      rfl
    | postgres | mysql => cases hplace
  | _ => simp [hop, Dialect.likePlacement?] at hplace

/-- A condition for a place is rendered just if its field and its text are known. -/
lemma condition_eq_rendered_iff (hplace : d.likePlacement? c.op = some place) {t : Tree} :
    condition d c = .rendered t ↔ ∃ expr v, comparedExpr d c = .ok expr ∧
      c.patternText? = some v ∧
      t = .leaf ⟨d.likeText c.op expr, [.string (likePattern place v)]⟩ := by
  rw [condition]
  cases comparedExpr d c with
  | error reason => simp
  | ok expr =>
    simp only [operation_like hplace]
    cases c.patternText? with
    | none => simp
    | some v => simp [single, eq_comm]

/-- A condition that looks for a text at a place is a `LIKE` with the pattern of the text. The
pattern has no backslash left at its end and matches exactly the texts that have the text at the
place, and the same condition with or without regard to case binds the same pattern. -/
theorem condition_like (hplace : d.likePlacement? c.op = some place) :
    (∀ t, condition d c = .rendered t ↔ ∃ expr v, comparedExpr d c = .ok expr ∧
      c.patternText? = some v ∧
      t = .leaf ⟨d.likeText c.op expr, [.string (likePattern place v)]⟩) ∧
    (∀ v, (pieces? false (likePattern place v).toList).isSome = true ∧
      ∀ s, like (likePattern place v) s = true ↔ place.Holds v s) ∧
    ∀ folded folded' t, c.op = .text place folded → condition d c = .rendered t →
      ∃ t', condition d { c with op := .text place folded' } = .rendered t' ∧
        (t'.render false).params = (t.render false).params := by
  refine ⟨fun t => condition_eq_rendered_iff hplace, fun v => ⟨?_, like_likePattern place v⟩, ?_⟩
  · rw [pieces?_likePattern, Option.isSome_some]
  · intro folded folded' t _ ht
    obtain ⟨expr, v, hexpr, hv, rfl⟩ := (condition_eq_rendered_iff hplace).1 ht
    exact ⟨_, (condition_eq_rendered_iff rfl).2 ⟨expr, v, hexpr, hv, rfl⟩, rfl⟩

/-- A text of wildcards and a backslash that is looked for without regard to case. -/
def wildcardNote : Condition :=
  .single "meta.note" (.text .atEnd true) (.string "50%_\\")

/-- Wildcards that are looked for are found as they are and stand for nothing else, and the pattern
is the same with regard to case. -/
theorem condition_like_wildcardNote :
    Dialect.sqlite.likePlacement? wildcardNote.op = some .atEnd ∧
      condition .sqlite wildcardNote = .rendered (.leaf
        ⟨"LOWER(json_extract(meta, '$.note')) LIKE LOWER(?) ESCAPE '\\'",
          [.string "%50\\%\\_\\\\"]⟩) ∧
      like "%50\\%\\_\\\\" "off 50%_\\" = true ∧
      like "%50\\%\\_\\\\" "off 500_\\" = false ∧
      ∃ t, condition .sqlite { wildcardNote with op := .text .atEnd false } = .rendered t ∧
        (t.render false).params = [.string "%50\\%\\_\\\\"] := by
  have hplace : Dialect.sqlite.likePlacement? wildcardNote.op = some .atEnd := rfl
  obtain ⟨hrendered, hpattern, hfolded⟩ := condition_like hplace
  have hexpr : comparedExpr .sqlite wildcardNote = .ok "json_extract(meta, '$.note')" := rfl
  have hnote := (hrendered _).2 ⟨_, "50%_\\", hexpr, rfl, rfl⟩
  have hmatch := (hpattern "50%_\\").2
  refine ⟨hplace, hnote, (hmatch "off 50%_\\").2 (by decide), ?_, hfolded true false _ rfl hnote⟩
  exact Bool.eq_false_iff.2 ((hmatch "off 500_\\").not.2 (by decide))

end Sql

end ReadQuery
