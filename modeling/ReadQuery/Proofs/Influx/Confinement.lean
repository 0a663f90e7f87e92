import ReadQuery.Proofs.FieldRef
import ReadQuery.Proofs.Influx.Lexis

/-!
# Values stay in their literals

InfluxQL has no parameters, so the values of a condition are written into its predicate. The
predicate of every condition falls into lexemes that its operator and its field determine, with one
lexeme for each value that the field is compared with (`conditionLexemes`). These literals are read
back as the values that they stand for (`Literals`), so nothing of a value is read as anything else
(`lex_condition`).
-/

namespace ReadQuery

/-- What there is of a value without its contents. -/
inductive Value.Kind where
  | null
  | bool
  | int
  | float
  | string
  | list
  deriving DecidableEq

/-- The kind of a value. -/
def Value.kind : Value → Value.Kind
  | .null => .null
  | .bool _ => .bool
  | .int _ => .int
  | .float _ => .float
  | .string _ => .string
  | .list _ => .list

namespace Operator

/-- Where an operator looks for a literal text. -/
def place? : Operator → Option Placement
  | text place _ => some place
  | search => some .anywhere
  | _ => none

/-- Whether the value of an operator is taken for a pattern. -/
def isPattern : Operator → Bool
  | text _ _ | regex _ | search => true
  | _ => false

end Operator

/-- The values that a condition compares its field with. -/
def Condition.compared (c : Condition) : List Value :=
  match c.op with
  | .unspecified => []
  | .compare _ | .text _ _ | .regex _ | .search => c.scalar?.toList
  | .among _ | .between => c.resolveList
  | .nullness _ => [.null]

/-- A resolved field has no backslash in its dotted name. -/
lemma Condition.backslash_not_mem_dotted {c : Condition} {f : FieldRef} (h : c.fieldRef = .ok f) :
    '\\' ∉ f.dotted.toList := by
  have hsafe : f.Safe := FieldRef.safe_of_resolve h
  have hplain : ∀ s ∈ f.column :: f.path, '\\' ∉ s.toList := by
    intro s hs hmem
    have hchar : Identifier.isChar '\\' = true := by
      rcases List.mem_cons.1 hs with rfl | hs
      · exact hsafe.column _ hmem
      · exact hsafe.path s hs _ hmem
    exact absurd hchar (by decide)
  rw [FieldRef.dotted, String.toList_intercalate]
  intro hmem
  rcases Text.mem_intercalate hmem with hdot | ⟨p, hp, hmem⟩
  · exact absurd hdot (by decide)
  · obtain ⟨s, hs, rfl⟩ := List.mem_map.1 hp
    exact hplain s hs hmem

namespace Influx

/-- The lexemes of a comparison. -/
def comparison (field sign : String) (l : Lexeme) : List Lexeme :=
  [.name field, .keyword sign, l]

/-- The lexemes of a chain of predicates. -/
def chained (connective : String) : List (List Lexeme) → List Lexeme
  | [ls] => ls
  | lss => .opening :: [.keyword connective].intercalate lss ++ [.closing]

/-- The lexemes of the predicate that never holds. -/
def neverLexemes : List Lexeme :=
  [.opening, .keyword "time", .keyword "<", .scalar "0", .keyword "AND", .keyword "time",
    .keyword ">", .scalar "0", .closing]

/-- The lexemes of an operator on a field and literals. -/
def conditionLexemes (field : String) : Operator → List Lexeme → List Lexeme
  | .compare cmp, [l] => comparison field (comparisonSign cmp) l
  | .among false, [] => neverLexemes
  | .among true, ls => chained "AND" (ls.map (comparison field "!="))
  | .among false, ls => chained "OR" (ls.map (comparison field "="))
  | .between, [l, u] => chained "AND" [comparison field ">=" l, comparison field "<=" u]
  | .between, [l] => comparison field "=" l
  | .nullness negated, [l] => comparison field (if negated then "!=" else "=") l
  | .text _ _, [l] | .regex _, [l] | .search, [l] => comparison field "=~" l
  | _, _ => []

/-- A lexeme without what is in it of a value. -/
def Lexeme.blank : Lexeme → Lexeme
  | .scalar _ => .scalar ""
  | .text _ => .text ""
  | .regex _ => .regex ""
  | l => l

/-- The pattern of an operator that matches with one. -/
def patternOf (op : Operator) (s : String) : String :=
  match op.place? with
  | some place => Pattern.anchored place s
  | none => s

/-- The literals that the predicate of a condition has: those of the values that the field is
compared with, or else a regular expression up to the slash in the end. What a literal text is
looked for with is its regular expression with the slashes escaped. -/
inductive Literals (c : Condition) (field predicate : String) : List Lexeme → Prop where
  | values (hop : c.op.isPattern = false) :
    Literals c field predicate (c.compared.map valueLexeme)
  | pattern {body : String} (hop : c.op.isPattern = true)
    (hend : predicate = quoteName field ++ " =~ " ++ ("/" ++ body ++ "/"))
    (hplace : ∀ place, c.op.place? = some place → ∃ s core, c.patternText? = some s ∧
      body = flagged c.op.isFolded (framed place core) ∧ unslash core = Pattern.escape s) :
    Literals c field predicate [.regex body]

variable {s t : String} {cs ds : List Char} {field : String}

/-- A comparison is lexed into its three parts. -/
lemma lex_comparison (hfield : lex (quoteName field) = some [.name field]) {sign l : String}
    {m : Lexeme} (hsign : sign ∈ keywords) (hl : lex l = some [m]) :
    lex (quoteName field ++ " " ++ sign ++ " " ++ l) = some (comparison field sign m) :=
  lex_spaced (lex_spaced hfield (lex_keyword hsign)) hl

/-- A comparison with a value is lexed into its three parts. -/
lemma lex_compare (hfield : lex (quoteName field) = some [.name field]) {sign : String}
    (hsign : sign ∈ keywords) (v : Value) :
    lex (compare (quoteName field) sign v) = some (comparison field sign (valueLexeme v)) :=
  lex_comparison hfield hsign (lex_literal v)

/-- Predicates joined by a connective have their lexemes, joined by it. -/
lemma lex_intercalate {α : Type} {f : α → String} {g : α → List Lexeme} {as : List α}
    (h : ∀ a ∈ as, lex (f a) = some (g a)) {connective : String} (hc : connective ∈ keywords) :
    lex ((" " ++ connective ++ " ").intercalate (as.map f))
      = some ([Lexeme.keyword connective].intercalate (as.map g)) := by
  induction as with
  | nil => rfl
  | cons a as ih =>
    rw [List.forall_mem_cons] at h
    cases as with
    | nil => simpa using h.1
    | cons b as =>
      have hjoined := lex_spaced (lex_spaced h.1 (lex_keyword hc)) (ih h.2)
      simp only [List.map_cons] at hjoined ⊢
      rw [String.intercalate_cons_cons, List.intercalate_cons_cons]
      simpa only [String.append_assoc] using hjoined

/-- A chain of predicates is lexed predicate by predicate. -/
lemma lex_chain {α : Type} {f : α → String} {g : α → List Lexeme} {as : List α}
    (h : ∀ a ∈ as, lex (f a) = some (g a)) {connective : String} (hc : connective ∈ keywords) :
    lex (chain (" " ++ connective ++ " ") (as.map f)) = some (chained connective (as.map g)) := by
  have hjoined := lex_intercalate h hc
  match as with
  | [] => exact lex_parens hjoined
  | [a] => exact h a List.mem_cons_self
  | a :: b :: as =>
    simp only [List.map_cons] at hjoined ⊢
    exact lex_parens hjoined

/-- A pattern is matched with between slashes, unless a backslash would be left behind it. -/
lemma regexMatch_eq (field pattern : String) (folded : Bool) :
    regexMatch field pattern folded
      = if escapedAfter false pattern.toList
        then .skipped (.invalidPattern (flagged folded pattern))
        else .rendered (field ++ " =~ " ++ ("/" ++ bodyOf (flagged folded pattern) ++ "/")) := by
  have hafter : escapedAfter false (flagged folded pattern).toList
      = escapedAfter false pattern.toList := escapedAfter_flagged folded pattern
  rw [← hafter, regexMatch, ← flagged]
  cases hpattern : escapedAfter false (flagged folded pattern).toList with
  | false =>
    rw [regexLiteral?_eq_some.2 ⟨hpattern, rfl⟩]
    rfl
  | true =>
    have hnone : regexLiteral? (flagged folded pattern) = none := by
      rw [regexLiteral?, regexBody_eq, hpattern]
      rfl
    rw [hnone]
    rfl

variable {c c' : Condition} {out out' : String}

/-- The predicate that never holds is lexed. -/
lemma lex_never : lex never = some neverLexemes := by
  decide

/-- The predicate of a membership in a list that is not empty. -/
lemma lex_among (hfield : lex (quoteName field) = some [.name field]) (negated : Bool)
    {vs : List Value} (hne : vs ≠ []) :
    lex (if negated then chain " AND " (vs.map (compare (quoteName field) "!="))
      else chain " OR " (vs.map (compare (quoteName field) "=")))
      = some (conditionLexemes field (.among negated) (vs.map valueLexeme)) := by
  have hand : "AND" ∈ keywords := by decide
  have hor : "OR" ∈ keywords := by decide
  have hequal : "=" ∈ keywords := by decide
  have hunequal : "!=" ∈ keywords := by decide
  obtain ⟨v₀, vs, rfl⟩ := List.exists_cons_of_ne_nil hne
  cases negated with
  | false =>
    have hchain := lex_chain (fun v (_ : v ∈ v₀ :: vs) => lex_compare hfield hequal v) hor
    simpa [conditionLexemes, Function.comp_def] using hchain
  | true =>
    have hchain := lex_chain (fun v (_ : v ∈ v₀ :: vs) => lex_compare hfield hunequal v) hand
    simpa [conditionLexemes, Function.comp_def] using hchain

/-- The predicate of a range with two bounds. -/
lemma lex_between (hfield : lex (quoteName field) = some [.name field]) (lower upper : Value) :
    lex (parens (compare (quoteName field) ">=" lower ++ " AND "
        ++ compare (quoteName field) "<=" upper))
      = some (conditionLexemes field .between [valueLexeme lower, valueLexeme upper]) := by
  have hgreater : ">=" ∈ keywords := by decide
  have hless : "<=" ∈ keywords := by decide
  have hand : "AND" ∈ keywords := by decide
  have hconnective : " AND " = " " ++ "AND" ++ " " := rfl
  have hboth := lex_spaced (lex_spaced (lex_compare hfield hgreater lower) (lex_keyword hand))
    (lex_compare hfield hless upper)
  rw [hconnective, ← String.append_assoc, ← String.append_assoc]
  exact lex_parens hboth

/-- The predicate of an operator on values. -/
lemma lex_operation_values (hfield : lex (quoteName field) = some [.name field])
    (hop : c.op.isPattern = false) (h : operation (quoteName field) c = .rendered out) :
    lex out = some (conditionLexemes field c.op (c.compared.map valueLexeme)) := by
  unfold operation at h
  unfold Condition.compared
  cases hc : c.op with
  | unspecified => simp [hc] at h
  | compare cmp =>
    have hsign : comparisonSign cmp ∈ keywords := by cases cmp <;> decide
    cases hv : c.scalar? with
    | none => simp [hc, hv] at h
    | some v =>
      simp only [hc, hv, Compiled.rendered.injEq] at h
      rw [← h]
      exact lex_compare hfield hsign v
  | among negated =>
    cases hvs : c.resolveList with
    | nil =>
      cases negated with
      | false =>
        simp only [hc, hvs, Bool.false_eq_true, if_false, Compiled.rendered.injEq] at h
        rw [← h]
        exact lex_never
      | true => simp [hc, hvs] at h
    | cons v vs =>
      simp only [hc, hvs, ← apply_ite Compiled.rendered, Compiled.rendered.injEq] at h
      rw [← h]
      exact lex_among hfield negated (List.cons_ne_nil v vs)
  | between =>
    unfold Condition.resolveRange at h
    match hvs : c.resolveList with
    | [] => simp [hc, hvs] at h
    | [v] =>
      simp only [hc, hvs, Compiled.rendered.injEq] at h
      rw [← h]
      exact lex_compare hfield (by decide) v
    | [lower, upper] =>
      simp only [hc, hvs, Compiled.rendered.injEq] at h
      rw [← h]
      exact lex_between hfield lower upper
    | _ :: _ :: _ :: _ => simp [hc, hvs] at h
  | nullness negated =>
    have hsign : (if negated then "!=" else "=") ∈ keywords := by cases negated <;> decide
    simp only [hc, Compiled.rendered.injEq] at h
    rw [← h]
    exact lex_compare hfield hsign .null
  | text | regex | search => simp [hc, Operator.isPattern] at hop

/-- A pattern is matched by its sign. -/
lemma conditionLexemes_pattern {op : Operator} (hop : op.isPattern = true) (l : Lexeme) :
    conditionLexemes field op [l] = comparison field "=~" l := by
  cases op with
  | text | regex | search => rfl
  | _ => cases hop

/-- An operator on a pattern skips null and matches with the pattern of any other value. -/
lemma operation_pattern (hop : c.op.isPattern = true) :
    operation field c = match c.patternText? with
      | none => .skipped .missingValue
      | some s => regexMatch field (patternOf c.op s) c.op.isFolded := by
  unfold operation patternOf
  cases hc : c.op with
  | text | regex | search => exact rfl
  | _ => simp [hc, Operator.isPattern] at hop

/-- A match is lexed up to the final slash of its regular expression. -/
lemma lex_match {pattern : String} (hfield : lex (quoteName field) = some [.name field])
    (h : escapedAfter false pattern.toList = false) :
    lex (quoteName field ++ " =~ " ++ ("/" ++ bodyOf pattern ++ "/"))
      = some (comparison field "=~" (.regex (bodyOf pattern))) := by
  have hsign : quoteName field ++ " =~ " = quoteName field ++ " " ++ "=~" ++ " " := by
    simp only [String.append_assoc]
    rfl
  rw [hsign]
  exact lex_comparison hfield (by decide) (lex_regex h)

/-- The predicate of an operator on a pattern. -/
lemma lex_operation_pattern (hfield : lex (quoteName field) = some [.name field])
    (hop : c.op.isPattern = true) (h : operation (quoteName field) c = .rendered out) :
    ∃ ls, lex out = some (conditionLexemes field c.op ls) ∧ Literals c field out ls := by
  rw [operation_pattern hop] at h
  cases hs : c.patternText? with
  | none => simp [hs] at h
  | some s =>
    have hbody : ∀ place, c.op.place? = some place →
        bodyOf (flagged c.op.isFolded (patternOf c.op s))
          = flagged c.op.isFolded (framed place (bodyOf (Pattern.escape s))) := by
      intro place hplace
      rw [bodyOf_flagged, patternOf, hplace]
      exact congrArg _ (bodyOf_framed place (escapedAfter_escape s))
    have hafter : escapedAfter false (flagged c.op.isFolded (patternOf c.op s)).toList
        = escapedAfter false (patternOf c.op s).toList := escapedAfter_flagged _ _
    simp only [hs, regexMatch_eq, ← hafter] at h
    generalize flagged c.op.isFolded (patternOf c.op s) = pattern at h hbody
    split at h
    · cases h
    next hpattern =>
    obtain rfl := Compiled.rendered.inj h
    refine ⟨[.regex (bodyOf pattern)], ?_, .pattern hop rfl fun place hplace => ?_⟩
    · rw [conditionLexemes_pattern hop]
      exact lex_match hfield (by simpa using hpattern)
    · exact ⟨s, bodyOf (Pattern.escape s), hs, hbody place hplace, unslash_bodyOf_escape s⟩

/-- The predicate of an operator on a resolved field. -/
lemma lex_operation (hfield : lex (quoteName field) = some [.name field])
    (h : operation (quoteName field) c = .rendered out) :
    ∃ ls, lex out = some (conditionLexemes field c.op ls) ∧ Literals c field out ls := by
  cases hop : c.op.isPattern with
  | false => exact ⟨_, lex_operation_values hfield hop h, .values hop⟩
  | true => exact lex_operation_pattern hfield hop h

/-- A chain is blanked predicate by predicate. -/
lemma blank_chained (connective : String) (lss : List (List Lexeme)) :
    (chained connective lss).map Lexeme.blank
      = chained connective (lss.map (List.map Lexeme.blank)) := by
  match lss with
  | [] => rfl
  | [ls] => rfl
  | ls :: ls' :: lss =>
    simp only [chained, List.map_cons, List.map_append, Text.map_intercalate]
    rfl

/-- The lexemes of conditions are the same for literals that differ in their contents only. -/
lemma blank_conditionLexemes (field : String) (op : Operator) (ls : List Lexeme) :
    (conditionLexemes field op ls).map Lexeme.blank
      = (conditionLexemes field op (ls.map Lexeme.blank)).map Lexeme.blank := by
  have hblank : ∀ l : Lexeme, l.blank.blank = l.blank := by
    intro l
    cases l <;> rfl
  have hcomparison : ∀ sign l, (comparison field sign l).map Lexeme.blank
      = (comparison field sign l.blank).map Lexeme.blank := by
    intro sign l
    simp [comparison, hblank]
  have hchained : ∀ connective sign, ∀ ls : List Lexeme,
      (chained connective (ls.map (comparison field sign))).map Lexeme.blank
        = (chained connective ((ls.map Lexeme.blank).map (comparison field sign))).map
            Lexeme.blank := by
    intro connective sign ls
    rw [blank_chained, blank_chained, List.map_map, List.map_map, List.map_map]
    exact congrArg _ (List.map_congr_left fun l _ => hcomparison sign l)
  cases op with
  | unspecified => rfl
  | compare | nullness | text | regex | search =>
    match ls with
    | [] => rfl
    | [l] => exact hcomparison _ l
    | _ :: _ :: _ => rfl
  | among negated =>
    cases negated with
    | true => exact hchained "AND" "!=" ls
    | false =>
      cases ls with
      | nil => rfl
      | cons l ls => exact hchained "OR" "=" (l :: ls)
  | between =>
    match ls with
    | [] => rfl
    | [l] => exact hcomparison "=" l
    | [l, u] =>
      simp only [conditionLexemes, blank_chained, List.map_cons, List.map_nil, hcomparison _ l,
        hcomparison _ u]
    | _ :: _ :: _ :: _ => rfl

/-- What there is of the lexeme of a value without its contents. -/
def blankLexeme : Value.Kind → Lexeme
  | .bool | .int | .float => .scalar ""
  | .null | .string | .list => .text ""

/-- The lexeme of a value depends on its kind only, once it is blanked. -/
lemma blank_valueLexeme (v : Value) : (valueLexeme v).blank = blankLexeme v.kind := by
  cases v <;> rfl

/-- Conditions of one operator have the same literals but for their contents if they compare with
values of the same kinds. -/
lemma Literals.blank_eq {ls ls' : List Lexeme} {out out' : String} (h : Literals c field out ls)
    (h' : Literals c' field out' ls') (hop : c.op = c'.op)
    (hkinds : c.compared.map Value.kind = c'.compared.map Value.kind) :
    ls.map Lexeme.blank = ls'.map Lexeme.blank := by
  cases h with
  | values hvalues =>
    cases h' with
    | values hvalues' =>
      have hblank : ∀ vs : List Value,
          (vs.map valueLexeme).map Lexeme.blank = (vs.map Value.kind).map blankLexeme := by
        intro vs
        simp [blank_valueLexeme]
      rw [hblank, hblank, hkinds]
    | pattern hpattern => rw [hop, hpattern] at hvalues; cases hvalues
  | pattern hpattern =>
    cases h' with
    | values hvalues => rw [hop, hvalues] at hpattern; cases hpattern
    | pattern => rfl

/-- A literal text is never skipped for its pattern. -/
lemma operation_ne_invalidPattern {place : Placement} (hplace : c.op.place? = some place)
    (field pattern : String) : operation field c ≠ .skipped (.invalidPattern pattern) := by
  have hop : c.op.isPattern = true := by
    cases hc : c.op with
    | text | regex | search => rfl
    | _ => simp [hc, Operator.place?] at hplace
  rw [operation_pattern hop]
  cases c.patternText? with
  | none => simp
  | some s =>
    have hafter : escapedAfter false (patternOf c.op s).toList = false := by
      rw [patternOf, hplace]
      exact escapedAfter_anchored place s
    dsimp only
    rw [regexMatch_eq, hafter, if_neg Bool.false_ne_true]
    nofun

/-- A condition on a resolved field is its operation, unless it is on a part of a date. -/
lemma condition_of_ok {f : FieldRef} (hf : c.fieldRef = .ok f) :
    condition c = operation (quoteName f.dotted) c ∨
      ∃ part, condition c = .skipped (.unsupportedDatePart part .influx) := by
  cases hpart : c.datePart with
  | none => exact .inl (by simp only [condition, hf, hpart])
  | some part => exact .inr ⟨part, by simp only [condition, hf, hpart]⟩

/-- The predicate of a condition falls into the lexemes of its operator and its field, with one
literal for each value, and the literals are read back as what they stand for. What is in the values
is without effect on the lexemes but for the contents of the literals, and a literal text is never
skipped for its pattern. -/
theorem lex_condition (c : Condition) :
    (∀ out, condition c = .rendered out → ∃ f ls, c.fieldRef = .ok f ∧
      lex out = some (conditionLexemes f.dotted c.op ls) ∧ Literals c f.dotted out ls) ∧
    (∀ c' out out', condition c = .rendered out → condition c' = .rendered out' →
      c.op = c'.op → c.fieldRef = c'.fieldRef →
      c.compared.map Value.kind = c'.compared.map Value.kind →
      (lex out).map (List.map Lexeme.blank) = (lex out').map (List.map Lexeme.blank)) ∧
    (c.op.place? ≠ none → ∀ pattern, condition c ≠ .skipped (.invalidPattern pattern)) := by
  have hlex : ∀ c out, condition c = .rendered out → ∃ f ls, c.fieldRef = .ok f ∧
      lex out = some (conditionLexemes f.dotted c.op ls) ∧ Literals c f.dotted out ls := by
    intro c out h
    cases hf : c.fieldRef with
    | error reason => simp [condition, hf] at h
    | ok f =>
      rcases condition_of_ok hf with hoperation | ⟨part, hpart⟩
      · have hfield := lex_quoteName (Condition.backslash_not_mem_dotted hf)
        obtain ⟨ls, hls, hliterals⟩ := lex_operation hfield (hoperation.symm.trans h)
        exact ⟨f, ls, rfl, hls, hliterals⟩
      · cases hpart.symm.trans h
  refine ⟨hlex c, fun c' out out' h h' hop hfield hkinds => ?_, fun hplace pattern hskipped => ?_⟩
  · obtain ⟨f, ls, hf, hls, hliterals⟩ := hlex c out h
    obtain ⟨f', ls', hf', hls', hliterals'⟩ := hlex c' out' h'
    obtain rfl : f = f' := Except.ok.inj (hf.symm.trans (hfield.trans hf'))
    rw [hls, hls', Option.map_some, Option.map_some, blank_conditionLexemes,
      hliterals.blank_eq hliterals' hop hkinds, hop, ← blank_conditionLexemes]
  · obtain ⟨place, hplace⟩ := Option.ne_none_iff_exists'.1 hplace
    cases hf : c.fieldRef with
    | error reason =>
      simp only [condition, hf, Compiled.skipped.injEq] at hskipped
      rcases FieldRef.of_resolve_eq_error hf with ⟨-, rfl⟩ | ⟨-, rfl⟩ <;> cases hskipped
    | ok f =>
      rcases condition_of_ok hf with hoperation | ⟨part, hpart⟩
      · exact operation_ne_invalidPattern hplace _ _ (hoperation.symm.trans hskipped)
      · cases hpart.symm.trans hskipped

/-- A membership whose first value tries to leave its quotes. -/
def quotedHosts : Condition :=
  .listed "tags.host" (.among false) [.string "x\\' OR 1 = 1", .list [.string "'"], .int (-3)]

/-- A membership with harmless values of the same kinds. -/
def plainHosts : Condition :=
  .listed "tags.host" (.among false) [.string "x", .list [], .int 3]

/-- The start of a path with a backslash in it. -/
def slashedPath : Condition :=
  .single "path" (.text .atStart true) (.string "/a\\/b.c\\")

/-- The predicate of quoted hosts. -/
def quotedHostsText : String :=
  "(\"tags.host\" = 'x\\\\\\' OR 1 = 1' OR \"tags.host\" = '[\"\\'\"]' OR \"tags.host\" = -3)"

/-- The predicate of plain hosts. -/
def plainHostsText : String :=
  "(\"tags.host\" = 'x' OR \"tags.host\" = '[]' OR \"tags.host\" = 3)"

/-- The values of the membership stay in their literals, and the path can be written. -/
theorem lex_condition_quotedHosts :
    condition quotedHosts = .rendered quotedHostsText ∧
      condition plainHosts = .rendered plainHostsText ∧
      (∃ f ls, quotedHosts.fieldRef = .ok f ∧
        lex quotedHostsText = some (conditionLexemes f.dotted (.among false) ls) ∧
        Literals quotedHosts f.dotted quotedHostsText ls) ∧
      (lex quotedHostsText).map (List.map Lexeme.blank)
        = (lex plainHostsText).map (List.map Lexeme.blank) ∧
      ∀ pattern, condition slashedPath ≠ .skipped (.invalidPattern pattern) := by
  have hquoted : condition quotedHosts = .rendered quotedHostsText := by decide +kernel
  have hplain : condition plainHosts = .rendered plainHostsText := by decide +kernel
  obtain ⟨hlex, hblank, -⟩ := lex_condition quotedHosts
  obtain ⟨-, -, hpath⟩ := lex_condition slashedPath
  exact ⟨hquoted, hplain, hlex _ hquoted, hblank plainHosts _ _ hquoted hplain rfl rfl rfl,
    hpath (by decide)⟩

end Influx

end ReadQuery
