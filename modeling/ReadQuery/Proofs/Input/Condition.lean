import ReadQuery.Proofs.Input.Operand

/-!
# Recognizing conditions

A condition is recognized from its text in front of whatever may stand behind a part of an
expression (`condition_conditionText`). Of the alternatives for a condition all start with the same
left operand, and what is behind it decides: only one of them goes on with the word or the sign that
follows, and a call is a condition of its own only if none of these follows.

The argument of a call may be an expression or an operand. The text of an operand is no expression
(`disjunction_eq_none`), with the exception of a call on a field, which is the same term as either.
-/

namespace ReadQuery.Input.Grammar

open Recognizer
open Infix (Style valueText fieldText pathText fieldTerm pathTerm conditionText conditionTerm
  unresolved operands)
open Text (isNameChar skipGap)

variable {cs ds rest : List Char} {t : Term Literal} {d o p : Recognizer (Term Literal)} {n : Nat}

/-- What follows a left operand is read behind the blanks. -/
lemma left_bind (h : o cs = some (t, rest)) (f : Term Literal → Recognizer (Term Literal)) :
    (o >>= fun t => gap >>= fun _ => f t) cs = f t (skipGap rest) := by
  rw [bind_of_eq_some h, gap_bind]

/-- What holds of the text behind a left operand, if there is one. -/
def Behind (o : Recognizer (Term Literal)) (cs : List Char) (P : List Char → Prop) : Prop :=
  ∀ t ds, o cs = some (t, ds) → P (skipGap ds)

/-- What is behind a left operand that is known may be shown of its own text. -/
lemma behind_of_eq_some {P : List Char → Prop} (ho : o cs = some (t, rest))
    (h : P (skipGap rest)) : Behind o cs P := by
  intro u ds hu
  rw [ho] at hu
  cases hu
  exact h

/-- Nothing is recognized if nothing can follow the left operand. -/
lemma left_bind_eq_none {f : Term Literal → Recognizer (Term Literal)}
    (h : Behind o cs fun ds => ∀ t, f t ds = none) :
    (o >>= fun t => gap >>= fun _ => f t) cs = none := by
  cases ho : o cs with
  | none => exact bind_of_eq_none ho
  | some x => rw [left_bind ho, h x.1 x.2 ho]

/-- What follows a left operand tells that it is none: no sign and no word of a condition. -/
structure NoCondition (cs : List Char) : Prop where
  sign : comparisonSign cs = none
  like : likeWord cs = none
  is : keyword "is" cs = none
  not : keyword "not" cs = none
  among : keyword "in" cs = none
  between : keyword "between" cs = none

/-- No condition continues an operand that none follows. -/
lemma NoCondition.continuation (h : NoCondition cs) : continuation cs = none :=
  orElse_eq_none (bind_of_eq_none h.sign) (orElse_eq_none (bind_of_eq_none h.like)
    (orElse_eq_none h.is (orElse_eq_none h.not (orElse_eq_none h.among h.between))))

/-- What does not stand there is flagged as absent. -/
lemma flag_of_eq_none {α : Type} {p : Recognizer α} (h : p cs = none) :
    flag p cs = some (false, cs) := by
  rw [flag, orElse_of_eq_none (bind_of_eq_none h)]
  rfl

/-- There is no test for null without its word. -/
lemma nullCheck_eq_none (h : Behind o cs fun ds => keyword "is" ds = none) :
    nullCheck o cs = none :=
  left_bind_eq_none fun t ds ho _ => bind_of_eq_none (h t ds ho)

/-- There is no range without its word. -/
lemma range_eq_none (h : Behind o cs fun ds => keyword "between" ds = none) :
    range o cs = none :=
  left_bind_eq_none fun t ds ho _ => bind_of_eq_none (h t ds ho)

/-- There is no list condition without its word. -/
lemma membership_eq_none
    (h : Behind o cs fun ds => keyword "not" ds = none ∧ keyword "in" ds = none) :
    membership o cs = none := by
  refine left_bind_eq_none fun t ds ho _ => ?_
  obtain ⟨hnot, hin⟩ := h t ds ho
  rw [bind_of_eq_some (flag_of_eq_none hnot), gap_bind, skipGap_skipGap]
  exact bind_of_eq_none hin

/-- There is no pattern condition without its word. -/
lemma pattern_eq_none (h : Behind o cs fun ds => likeWord ds = none) : pattern o cs = none :=
  left_bind_eq_none fun t ds ho _ => bind_of_eq_none (h t ds ho)

/-- There is no comparison without its sign. -/
lemma comparison_eq_none (h : Behind o cs fun ds => comparisonSign ds = none) :
    comparison o cs = none :=
  left_bind_eq_none fun t ds ho _ => bind_of_eq_none (h t ds ho)

/-- There is no condition where there is neither a call nor anything behind the left operand. -/
lemma condition_eq_none (hcall : call (d <|> o) cs = none) (h : Behind o cs NoCondition) :
    condition d o cs = none :=
  orElse_eq_none hcall (orElse_eq_none (nullCheck_eq_none fun t ds ho => (h t ds ho).is)
    (orElse_eq_none (range_eq_none fun t ds ho => (h t ds ho).between)
      (orElse_eq_none (membership_eq_none fun t ds ho => ⟨(h t ds ho).not, (h t ds ho).among⟩)
        (orElse_eq_none (pattern_eq_none fun t ds ho => (h t ds ho).like)
          (comparison_eq_none fun t ds ho => (h t ds ho).sign)))))

/-- The words of pattern conditions begin as names do. -/
lemma likeWord_of_endsName (h : EndsName cs) : likeWord cs = none :=
  orElse_eq_none (bind_of_eq_none (keyword_of_endsName (by decide) (by decide) h))
    (bind_of_eq_none (keyword_of_endsName (by decide) (by decide) h))

/-- A fixed text is not taken where its first character does not stand. -/
lemma mark_of_head {s : String} {c : Char} (hs : s.toList = c :: ds) (h : cs.head? ≠ some c) :
    mark s cs = none := by
  rw [mark, spelled, hs]
  cases cs with
  | nil => rfl
  | cons d cs =>
    rw [Text.stripBy, if_neg (by rintro rfl; exact h rfl)]
    rfl

/-- All signs begin with one of four characters. -/
lemma comparisonSign_of_head (h : ∀ c ∈ ['=', '!', '<', '>'], cs.head? ≠ some c) :
    comparisonSign cs = none := by
  have heq := h '=' (by decide)
  have hne := h '!' (by decide)
  have hlt := h '<' (by decide)
  have hgt := h '>' (by decide)
  exact orElse_eq_none (bind_of_eq_none (mark_of_head rfl heq))
    (orElse_eq_none (bind_of_eq_none (mark_of_head rfl hne))
    (orElse_eq_none (bind_of_eq_none (mark_of_head rfl hlt))
    (orElse_eq_none (bind_of_eq_none (mark_of_head rfl hgt))
    (orElse_eq_none (bind_of_eq_none (mark_of_head rfl hlt))
    (orElse_eq_none (bind_of_eq_none (char_of_head_ne heq))
    (orElse_eq_none (bind_of_eq_none (char_of_head_ne hgt))
    (bind_of_eq_none (char_of_head_ne hlt))))))))

/-- No condition goes on where an expression is complete. -/
lemma Closes.noCondition (h : Closes cs) : NoCondition cs := by
  have hkeyword : ∀ s : String, s.toList ≠ [] → s.toList.all isNameChar = true →
      keyword s cs = none := fun s hs hname => keyword_of_endsName hs hname h.endsName
  refine ⟨comparisonSign_of_head ?_, likeWord_of_endsName h.endsName,
    hkeyword _ (by decide) (by decide), hkeyword _ (by decide) (by decide),
    hkeyword _ (by decide) (by decide), hkeyword _ (by decide) (by decide)⟩
  intro c hc hhead
  obtain rfl | rfl := h c hhead <;> revert hc <;> decide

/-- What is recognized between the members of a node. -/
def separator : Junction → Recognizer Unit
  | .and => keyword "and" <|> mark "&&"
  | .or => keyword "or" <|> mark "||"

/-- What a node has as its members: parts, or conjunctions. -/
def member (n : Nat) : Junction → Recognizer (Term Literal)
  | .and => part (disjunction n) (operand n)
  | .or => conjunction (disjunction n) (operand n)

/-- Recognizes a node of a connective. -/
def node (n : Nat) : Junction → Recognizer (Term Literal)
  | .and => conjunction (disjunction n) (operand n)
  | .or => disjunction (n + 1)

/-- The text between the members of a node. -/
def joint : Junction → List Char
  | .and => " AND ".toList
  | .or => " OR ".toList

/-- A text behind a node: a conjunction may be a member of a disjunction. -/
def After : Junction → List Char → Prop
  | .and, cs => Closes cs ∨ ∃ ds, cs = joint .or ++ ds
  | .or, cs => Closes cs

/-- A text behind a member of a node. -/
def Within (j : Junction) (cs : List Char) : Prop :=
  After j cs ∨ ∃ ds, cs = joint j ++ ds

variable {j : Junction}

/-- A node is a list of its members with its separator between them. -/
lemma node_eq (n : Nat) (j : Junction) :
    node n j = (do
      let ts ← separated (separator j) (member n j)
      pure (joined (if some j = some .or then "or" else "and") ts)) := by
  cases j <;> rfl

/-- What may follow a member of any node may follow a member of a conjunction. -/
lemma within_and (h : Within j cs) : Within .and cs := by
  cases j with
  | and => exact h
  | or => exact .inl h

/-- An operand ends at the end of a member. -/
lemma Within.ends (h : Within j cs) : Ends cs := by
  obtain (h | ⟨ds, rfl⟩) | ⟨ds, rfl⟩ := within_and h
  · exact h.ends
  · exact ⟨endsName_cons rfl _, nofun, nofun⟩
  · exact ⟨endsName_cons rfl _, nofun, nofun⟩

/-- No condition goes on behind a member. -/
lemma Within.noCondition (h : Within j cs) : NoCondition (skipGap cs) := by
  obtain (h | ⟨ds, rfl⟩) | ⟨ds, rfl⟩ := within_and h
  · rw [h.skipGap]
    exact h.noCondition
  · exact ⟨rfl, rfl, rfl, rfl, rfl, rfl⟩
  · exact ⟨rfl, rfl, rfl, rfl, rfl, rfl⟩

/-- There is no separator where an expression is complete. -/
lemma separator_of_closes (h : Closes cs) (j : Junction) : separator j (skipGap cs) = none := by
  rw [h.skipGap]
  cases j with
  | and =>
    exact orElse_eq_none (keyword_of_endsName (by decide) (by decide) h.endsName)
      (mark_of_head rfl (h.head_ne (by decide) (by decide)))
  | or =>
    exact orElse_eq_none (keyword_of_endsName (by decide) (by decide) h.endsName)
      (mark_of_head rfl (h.head_ne (by decide) (by decide)))

/-- No other member stands behind a node. -/
lemma separator_eq_none (h : After j cs) : separator j (skipGap cs) = none := by
  cases j with
  | or => exact separator_of_closes h .or
  | and =>
    obtain h | ⟨ds, rfl⟩ := h
    · exact separator_of_closes h .and
    · rfl

/-- A text of a member of a node and its term. -/
def IsMember (n : Nat) (j : Junction) (cs : List Char) (t : Term Literal) : Prop :=
  Starts cs ∧ Takes (Within j) (member n j) cs t

/-- Members with the connective between them are recognized as a node. -/
lemma node_of_members {texts : List (List Char)} {ts : List (Term Literal)}
    (htext : Takes (Within j) (member n j) cs t)
    (htexts : List.Forall₂ (IsMember n j) texts ts) :
    Takes (After j) (node n j) (cs ++ texts.flatMap (joint j ++ ·))
      (Infix.nodeTerm (some j) (t :: ts)) := by
  have hmid : Separates (separator j) (joint j) := by
    intro cs
    have hlong : cs.length < cs.length + 3 := Nat.lt_add_of_pos_right (by decide)
    cases j with
    | and => exact ⟨(), ' ' :: cs, rfl, rfl, Nat.lt_succ_of_lt hlong⟩
    | or => exact ⟨(), ' ' :: cs, rfl, rfl, hlong⟩
  have hfollow : ∀ cs, Within j (joint j ++ cs) := fun cs => .inr ⟨cs, rfl⟩
  intro rest hrest
  have hfurther : List.Forall₂ (Takes (Within j) (do gap; member n j)) texts ts :=
    htexts.imp fun _ _ h => h.2.gap_bind h.1
  obtain ⟨ds, hds, hgap⟩ :=
    separated_takes htext hfurther hmid hfollow (.inl hrest) (separator_eq_none hrest)
  refine ⟨ds, ?_, hgap⟩
  rw [node_eq, List.append_assoc, bind_of_eq_some hds]
  cases ts <;> rfl

/-- A member by itself is a node. -/
lemma node_of_member (h : Takes (Within j) (member n j) cs t) :
    Takes (After j) (node n j) cs t := by
  have hnode := node_of_members h .nil
  rwa [List.flatMap_nil, List.append_nil] at hnode

/-- A part by itself is an expression. -/
lemma disjunction_of_part (h : Takes (Within .and) (part (disjunction n) (operand n)) cs t) :
    Takes Closes (disjunction (n + 1)) cs t :=
  node_of_member (j := .or) (node_of_member (j := .and) h)

/-- A text that begins with no parenthesis is a part if it is a condition. -/
lemma part_of_unbracketed (hcs : Unbracketed cs) :
    part d o (cs ++ rest) = condition d o (cs ++ rest) := by
  obtain ⟨c, ds, rfl, -, hc⟩ := hcs
  exact orElse_of_eq_none (bind_of_eq_none (char_of_head_ne (by simpa using hc)))

/-- A condition by itself is an expression. -/
lemma disjunction_of_condition (hcs : Unbracketed cs)
    (h : Takes (Within .and) (condition (disjunction n) (operand n)) cs t) :
    Takes Closes (disjunction (n + 1)) cs t := by
  refine disjunction_of_part fun rest hrest => ?_
  rw [part_of_unbracketed hcs]
  exact h rest hrest

/-- A call that no condition follows is an application. -/
lemma call_of_application (h : application p cs = some (t, rest))
    (hrest : NoCondition (skipGap rest)) : call p cs = some (t, skipGap rest) := by
  have habsent : absent continuation (skipGap rest) = some ((), skipGap rest) := by
    rw [absent, hrest.continuation]
  rw [call, bind_of_eq_some h, gap_bind, bind_of_eq_some habsent]
  rfl

/-- A call is no condition where it is the left operand of one. -/
lemma call_of_continuation (h : application p cs = some (t, rest))
    (hrest : continuation (skipGap rest) ≠ none) : call p cs = none := by
  obtain ⟨x, hx⟩ := Option.ne_none_iff_exists'.1 hrest
  have habsent : absent continuation (skipGap rest) = none := by
    rw [absent, hx]
  rw [call, bind_of_eq_some h, gap_bind]
  exact bind_of_eq_none habsent

/-- An operand that is no call is no expression. -/
lemma disjunction_eq_none (hcs : Unbracketed cs)
    (happlication : ∀ p, application p (cs ++ rest) = none)
    (hoperand : ∀ m, operand (m + 1) (cs ++ rest) = some (t, rest)) (hrest : Closes rest)
    (n : Nat) : disjunction n (cs ++ rest) = none := by
  cases n with
  | zero => rfl
  | succ n =>
    have hcondition : condition (disjunction n) (operand n) (cs ++ rest) = none := by
      refine condition_eq_none (bind_of_eq_none (happlication _)) ?_
      cases n with
      | zero => exact nofun
      | succ n =>
        refine behind_of_eq_some (hoperand n) ?_
        rw [hrest.skipGap]
        exact hrest.noCondition
    have hpart : part (disjunction n) (operand n) (cs ++ rest) = none := by
      rw [part_of_unbracketed hcs, hcondition]
    exact bind_of_eq_none (bind_of_eq_none (bind_of_eq_none (bind_of_eq_none hpart)))

/-- An argument of a call. -/
def argument (n : Nat) : Recognizer (Term Literal) :=
  disjunction n <|> operand n

variable {style : Style} {c : Condition} {v : Value}

/-- The path of a condition is taken as an argument. -/
lemma argument_pathText (hc : c.IsInfix) (n : Nat) :
    Takes Closes (argument (n + 1)) (pathText c).toList (pathTerm c) := by
  intro rest hrest
  have hoperand := fun m => operand_pathText hc hrest.ends m
  have hdisjunction := disjunction_eq_none (named_pathText hc).unbracketed
    (fun p => (pathText_eq_none hc hrest.ends).2) hoperand hrest (n + 1)
  exact ⟨rest, (orElse_of_eq_none hdisjunction).trans (hoperand n), rfl⟩

/-- A value is taken as an argument. -/
lemma argument_valueText (hv : v.IsPlain) (n : Nat) :
    Takes Closes (argument (n + 1)) (valueText v).toList (.literal (unresolved v)) := by
  intro rest hrest
  have hoperand := fun m => operand_valueText hv hrest.ends m
  have hdisjunction := disjunction_eq_none (unbracketed_valueText hv)
    (fun p => application_valueText hv hrest.ends) hoperand hrest (n + 1)
  exact ⟨rest, (orElse_of_eq_none hdisjunction).trans (hoperand n), rfl⟩

variable (style) in
/-- A call on a field is an expression by itself, all other fields are operands. -/
lemma argument_fieldText (hc : c.IsInfix) (n : Nat) :
    Takes Closes (argument (n + 2)) (fieldText style c).toList (fieldTerm style c) := by
  cases hpart : c.datePart with
  | none =>
    rw [fieldText, fieldTerm, hpart]
    exact argument_pathText hc (n + 1)
  | some part =>
    -- the first alternative takes it, as a condition that is nothing but a call
    have hcondition : Takes (Within .and) (condition (disjunction (n + 1)) (operand (n + 1)))
        (fieldText style c).toList (fieldTerm style c) := by
      intro rest hrest
      have happlication := application_part style hpart hc (argument_pathText hc n) rest
      have hcall := call_of_application happlication hrest.noCondition
      exact ⟨_, orElse_of_eq_some hcall, skipGap_skipGap rest⟩
    have hdisjunction := disjunction_of_condition (named_fieldText style hc).unbracketed hcondition
    intro rest hrest
    obtain ⟨ds, hds, hgap⟩ := hdisjunction rest hrest
    exact ⟨ds, orElse_of_eq_some hds, hgap⟩

variable (style) in
/-- A field is the left operand of a condition, and no condition of its own, where a sign or a word
of one follows. -/
lemma condition_fieldText (hc : c.IsInfix) (hrest : Unbracketed rest)
    (hcontinuation : continuation rest ≠ none) (n : Nat) :
    operand (n + 2) ((fieldText style c).toList ++ ' ' :: rest)
        = some (fieldTerm style c, ' ' :: rest) ∧
      condition (disjunction (n + 2)) (operand (n + 2)) ((fieldText style c).toList ++ ' ' :: rest)
        = (nullCheck (operand (n + 2)) <|> range (operand (n + 2)) <|> membership (operand (n + 2))
          <|> pattern (operand (n + 2)) <|> comparison (operand (n + 2)))
          ((fieldText style c).toList ++ ' ' :: rest) := by
  have hends := hrest.ends_space
  refine ⟨operand_fieldText style hc hends n, orElse_of_eq_none ?_⟩
  cases hpart : c.datePart with
  | none =>
    rw [fieldText, hpart]
    exact bind_of_eq_none (pathText_eq_none hc hends).2
  | some part =>
    have happlication :=
      application_part style hpart hc (argument_pathText hc (n + 1)) (' ' :: rest)
    refine call_of_continuation happlication ?_
    rwa [skipGap_space, hrest.starts.skipGap]

/-- A condition with a sign or a word becomes the call that this stands for. -/
lemma function_of_infixName {op : Operator} {name : String} (h : Infix.infixName? op = some name) :
    Infix.function style op = name := by
  rw [Infix.function, h]
  rfl

/-- Where no word follows the left operand, a comparison is what is left. -/
lemma comparison_of_endsName (ho : o cs = some (t, rest)) (hends : EndsName (skipGap rest)) :
    (nullCheck o <|> range o <|> membership o <|> pattern o <|> comparison o) cs
      = comparison o cs := by
  have hkeyword : ∀ s : String, s.toList ≠ [] → s.toList.all isNameChar = true →
      keyword s (skipGap rest) = none := fun s hs hname => keyword_of_endsName hs hname hends
  have his := hkeyword "is" (by decide) (by decide)
  have hbetween := hkeyword "between" (by decide) (by decide)
  have hnot := hkeyword "not" (by decide) (by decide)
  have hin := hkeyword "in" (by decide) (by decide)
  rw [orElse_of_eq_none (nullCheck_eq_none (behind_of_eq_some ho his)),
    orElse_of_eq_none (range_eq_none (behind_of_eq_some ho hbetween)),
    orElse_of_eq_none (membership_eq_none (behind_of_eq_some ho ⟨hnot, hin⟩)),
    orElse_of_eq_none (pattern_eq_none (behind_of_eq_some ho (likeWord_of_endsName hends)))]

/-- The sign of a comparison tells which one it is. -/
lemma comparisonSign_sign (cmp : Comparison) (cs : List Char) :
    ∃ name, Infix.infixName? (.compare cmp) = some name ∧
      comparisonSign ((Infix.sign cmp).toList ++ ' ' :: cs) = some (name, ' ' :: cs) := by
  cases cmp <;> exact ⟨_, rfl, rfl⟩

/-- A sign ends the name in front of it and begins with no parenthesis. -/
lemma unbracketed_sign (cmp : Comparison) (cs : List Char) :
    Unbracketed ((Infix.sign cmp).toList ++ cs) ∧ EndsName ((Infix.sign cmp).toList ++ cs) := by
  cases cmp <;> refine ⟨⟨_, _, rfl, by decide, by decide⟩, ?_⟩ <;> rintro c ⟨⟩ <;> rfl

/-- A comparison is recognized from its text. -/
lemma condition_compare {cmp : Comparison} (hc : c.IsInfix) (hop : c.op = .compare cmp) (n : Nat) :
    Takes (Within .and) (condition (disjunction (n + 2)) (operand (n + 2)))
      (conditionText style c).toList (conditionTerm style unresolved c) := by
  intro rest hrest
  obtain ⟨v, hoperands, hv⟩ := Infix.operands_single hc.operands (by rw [hop]; rfl)
  obtain ⟨name, hname, hsign⟩ := comparisonSign_sign cmp ((valueText v).toList ++ rest)
  obtain ⟨hunbracketed, hends⟩ := unbracketed_sign cmp (' ' :: ((valueText v).toList ++ rest))
  have htext : (conditionText style c).toList ++ rest = (fieldText style c).toList
      ++ ' ' :: ((Infix.sign cmp).toList ++ ' ' :: ((valueText v).toList ++ rest)) := by
    simp [conditionText, hop, hoperands]
  rw [htext]
  generalize (Infix.sign cmp).toList ++ ' ' :: ((valueText v).toList ++ rest) = behind
    at hsign hends hunbracketed
  have hgap : skipGap (' ' :: behind) = behind := by
    rw [skipGap_space, hunbracketed.starts.skipGap]
  have hcontinuation : continuation behind ≠ none := by
    rw [continuation, orElse_of_eq_some (bind_of_eq_some hsign)]
    exact Option.some_ne_none _
  obtain ⟨hfield, hcondition⟩ := condition_fieldText style hc hunbracketed hcontinuation n
  refine ⟨rest, ?_, rfl⟩
  rw [hcondition, comparison_of_endsName hfield (by rwa [hgap]), comparison, left_bind hfield, hgap,
    bind_of_eq_some hsign, gap_bind, skipGap_space,
    ((unbracketed_valueText hv).starts.append rest).skipGap,
    bind_of_eq_some (operand_valueText hv hrest.ends (n + 1)), conditionTerm, hop, hoperands,
    function_of_infixName hname]
  rfl

/-- Values are taken as operands one by one. -/
lemma forall₂_values {vs : List Value} (h : ∀ v ∈ vs, v.IsPlain) (n : Nat) :
    List.Forall₂ (fun cs t => Starts cs ∧ Takes Closes (operand (n + 1)) cs t)
      ((vs.map valueText).map String.toList) (vs.map fun v => .literal (unresolved v)) := by
  induction vs with
  | nil => exact .nil
  | cons v vs ih =>
    rw [List.forall_mem_cons] at h
    refine .cons ⟨(unbracketed_valueText h.1).starts, fun rest hrest => ?_⟩ (ih h.2)
    exact ⟨rest, operand_valueText h.1 hrest.ends n, rfl⟩

/-- The list of a membership is recognized, also without any value in it. -/
lemma commaList_values {vs : List Value} (h : ∀ v ∈ vs, v.IsPlain) (n : Nat) (rest : List Char) :
    ∃ ds, commaList (operand (n + 1))
        (skipGap ((", ".intercalate (vs.map valueText)).toList ++ ')' :: rest))
        = some (vs.map fun v => .literal (unresolved v), ds) ∧ skipGap ds = ')' :: rest := by
  rw [String.toList_intercalate]
  have hvalues := forall₂_values h n
  cases vs with
  | nil =>
    refine ⟨')' :: rest, ?_, rfl⟩
    exact orElse_of_eq_none (bind_of_eq_none (operand_bracket (n + 1) rest))
  | cons v vs =>
    obtain _ | ⟨⟨hstarts, htakes⟩, hvalues⟩ := hvalues
    obtain ⟨ds, hds, hgap⟩ := commaList_takes htakes hvalues rest
    refine ⟨ds, ?_, hgap⟩
    rw [List.map_cons, List.map_cons, Text.intercalate_cons, List.append_assoc,
      (hstarts.append _).skipGap]
    exact hds

/-- A list condition is put together from its parts. -/
lemma membership_of_flag {negated : Bool} {es items fs : List Char} {ts : List (Term Literal)}
    (ho : o cs = some (t, ds)) (hflag : flag (keyword "not") (skipGap ds) = some (negated, es))
    (hes : skipGap es = "IN (".toList ++ items)
    (hitems : commaList o (skipGap items) = some (ts, fs)) (hfs : skipGap fs = ')' :: rest) :
    membership o cs = some (.call (if negated then "nin" else "in") (t :: ts), rest) := by
  have hin : keyword "in" ("IN (".toList ++ items) = some ((), ' ' :: '(' :: items) := rfl
  have hbracket : char '(' (skipGap (' ' :: '(' :: items)) = some ((), items) := rfl
  rw [membership, left_bind ho, bind_of_eq_some hflag, gap_bind, hes, bind_of_eq_some hin, gap_bind,
    bind_of_eq_some hbracket, gap_bind, bind_of_eq_some hitems, gap_bind, hfs,
    bind_of_eq_some (char_cons_self ')' rest)]
  rfl

/-- A membership is recognized from its text. -/
lemma condition_among {negated : Bool} (hc : c.IsInfix) (hop : c.op = .among negated) (n : Nat) :
    Takes (Within .and) (condition (disjunction (n + 2)) (operand (n + 2)))
      (conditionText style c).toList (conditionTerm style unresolved c) := by
  intro rest hrest
  have hvalues := Infix.operands_list hc.operands (by rw [hop]; rfl)
  obtain ⟨ds, hds, hgap⟩ := commaList_values hvalues (n + 1) rest
  have htext : (conditionText style c).toList ++ rest = (fieldText style c).toList
      ++ ' ' :: ((if negated then "NOT IN (" else "IN (").toList
        ++ ((", ".intercalate ((operands c).map valueText)).toList ++ ')' :: rest)) := by
    cases negated <;> simp [conditionText, hop]
  rw [htext]
  generalize (", ".intercalate ((operands c).map valueText)).toList ++ ')' :: rest = items at hds
  have hunbracketed : Unbracketed ((if negated then "NOT IN (" else "IN (").toList ++ items) := by
    cases negated <;> exact ⟨_, _, rfl, by decide, by decide⟩
  have hcontinuation : continuation ((if negated then "NOT IN (" else "IN (").toList ++ items)
      ≠ none := by
    cases negated <;> exact Option.some_ne_none _
  obtain ⟨hfield, hcondition⟩ := condition_fieldText style hc hunbracketed hcontinuation n
  have hnull := nullCheck_eq_none (behind_of_eq_some hfield (by cases negated <;> rfl))
  have hrange := range_eq_none (behind_of_eq_some hfield (by cases negated <;> rfl))
  refine ⟨rest, ?_, rfl⟩
  rw [hcondition, orElse_of_eq_none hnull, orElse_of_eq_none hrange, conditionTerm, hop]
  refine orElse_of_eq_some ?_
  cases negated with
  | true => exact membership_of_flag hfield rfl rfl hds hgap
  | false => exact membership_of_flag hfield rfl rfl hds hgap

/-- A range is recognized from its text. -/
lemma condition_between (hc : c.IsInfix) (hop : c.op = .between) (n : Nat) :
    Takes (Within .and) (condition (disjunction (n + 2)) (operand (n + 2)))
      (conditionText style c).toList (conditionTerm style unresolved c) := by
  intro rest hrest
  obtain ⟨a, b, hoperands, ha, hb⟩ := Infix.operands_range hc.operands (by rw [hop]; rfl)
  have htext : (conditionText style c).toList ++ rest = (fieldText style c).toList
      ++ ' ' :: ("BETWEEN ".toList ++ ((valueText a).toList
        ++ (" AND ".toList ++ ((valueText b).toList ++ rest)))) := by
    simp [conditionText, hop, hoperands]
  rw [htext]
  have hand : Ends (" AND ".toList ++ ((valueText b).toList ++ rest)) :=
    Unbracketed.ends_space ⟨_, _, rfl, by decide, by decide⟩
  have hlower := operand_valueText ha hand (n + 1)
  have hupper := operand_valueText hb hrest.ends (n + 1)
  have hstarts := (unbracketed_valueText ha).starts.append
    (" AND ".toList ++ ((valueText b).toList ++ rest))
  generalize (valueText a).toList ++ (" AND ".toList ++ ((valueText b).toList ++ rest)) = bounds
    at hlower hstarts
  have hunbracketed : Unbracketed ("BETWEEN ".toList ++ bounds) :=
    ⟨_, _, rfl, by decide, by decide⟩
  obtain ⟨hfield, hcondition⟩ :=
    condition_fieldText style hc hunbracketed (Option.some_ne_none _) n
  have hnull := nullCheck_eq_none (behind_of_eq_some hfield rfl)
  have hbetween : keyword "between" (skipGap (' ' :: ("BETWEEN ".toList ++ bounds)))
      = some ((), ' ' :: bounds) := rfl
  have hword : keyword "and" (skipGap (" AND ".toList ++ ((valueText b).toList ++ rest)))
      = some ((), ' ' :: ((valueText b).toList ++ rest)) := rfl
  refine ⟨rest, ?_, rfl⟩
  rw [hcondition, orElse_of_eq_none hnull, conditionTerm, hop, hoperands]
  refine orElse_of_eq_some ?_
  rw [range, left_bind hfield, bind_of_eq_some hbetween, gap_bind, skipGap_space, hstarts.skipGap,
    bind_of_eq_some hlower, gap_bind, bind_of_eq_some hword, gap_bind, skipGap_space,
    ((unbracketed_valueText hb).starts.append rest).skipGap, bind_of_eq_some hupper]
  rfl

/-- A null check is recognized from its text. -/
lemma condition_nullness {negated : Bool} (hc : c.IsInfix) (hop : c.op = .nullness negated)
    (n : Nat) : Takes (Within .and) (condition (disjunction (n + 2)) (operand (n + 2)))
      (conditionText style c).toList (conditionTerm style unresolved c) := by
  intro rest hrest
  have hoperands := Infix.operands_nullary hc.operands (by rw [hop]; rfl)
  have htext : (conditionText style c).toList ++ rest = (fieldText style c).toList
      ++ ' ' :: ("IS ".toList ++ ((if negated then "NOT NULL" else "NULL").toList ++ rest)) := by
    cases negated <;> simp [conditionText, hop]
  obtain ⟨es, hflag, hes⟩ : ∃ es, flag (keyword "not")
        (skipGap (' ' :: ((if negated then "NOT NULL" else "NULL").toList ++ rest)))
          = some (negated, es) ∧ skipGap es = "NULL".toList ++ rest := by
    cases negated <;> exact ⟨_, rfl, rfl⟩
  have hnull : keyword "null" ("NULL".toList ++ rest) = some ((), rest) := by
    have hname : IsName "NULL".toList := ⟨_, _, rfl, by decide, by decide⟩
    rw [keyword_append (by decide) hname.isNameChar hrest.ends.name]
    rfl
  generalize (if negated then "NOT NULL" else "NULL").toList ++ rest = check at htext hflag
  have hunbracketed : Unbracketed ("IS ".toList ++ check) := ⟨_, _, rfl, by decide, by decide⟩
  obtain ⟨hfield, hcondition⟩ :=
    condition_fieldText style hc hunbracketed (Option.some_ne_none _) n
  have his : keyword "is" (skipGap (' ' :: ("IS ".toList ++ check)))
      = some ((), ' ' :: check) := rfl
  refine ⟨rest, ?_, rfl⟩
  rw [htext, hcondition, conditionTerm, hop, hoperands]
  refine orElse_of_eq_some ?_
  rw [nullCheck, left_bind hfield, bind_of_eq_some his, gap_bind, bind_of_eq_some hflag, gap_bind,
    hes, bind_of_eq_some hnull]
  rfl

/-- A condition written as a call is recognized from its text. -/
lemma condition_call (hc : c.IsInfix) (hop : Infix.infixName? c.op = none) (n : Nat) :
    Takes (Within .and) (condition (disjunction (n + 2)) (operand (n + 2)))
      (conditionText style c).toList (conditionTerm style unresolved c) := by
  intro rest hrest
  have harity := Infix.arity_of_infixName hop (Infix.ne_unspecified hc.operands)
  obtain ⟨v, hoperands, hv⟩ := Infix.operands_single hc.operands harity
  have htext : (conditionText style c).toList ++ rest = (style.call c.op).toList
      ++ '(' :: ((fieldText style c).toList
        ++ ([(valueText v).toList].flatMap ([',', ' '] ++ ·) ++ ')' :: rest)) := by
    rw [Infix.conditionText_of_infixName hop, hoperands]
    simp
  have hvalue : List.Forall₂ (fun cs t => Starts cs ∧ Takes Closes (argument (n + 2)) cs t)
      [(valueText v).toList] [.literal (unresolved v)] :=
    .cons ⟨(unbracketed_valueText hv).starts, argument_valueText hv (n + 1)⟩ .nil
  have happlication := application_append (style.isName_call c.op)
    (named_fieldText style hc).unbracketed.starts (argument_fieldText style hc n) hvalue rest
  have hcall := call_of_application happlication hrest.noCondition
  refine ⟨skipGap rest, ?_, skipGap_skipGap rest⟩
  rw [htext, condition, ← argument, orElse_of_eq_some hcall, conditionTerm, hoperands,
    Infix.function, hop, String.ofList_toList]
  rfl

/-- A condition is recognized from its text. -/
theorem condition_conditionText (hc : c.IsInfix) (n : Nat) :
    Takes (Within .and) (condition (disjunction (n + 2)) (operand (n + 2)))
      (conditionText style c).toList (conditionTerm style unresolved c) := by
  cases hop : c.op with
  | compare cmp => exact condition_compare hc hop n
  | among negated => exact condition_among hc hop n
  | between => exact condition_between hc hop n
  | nullness negated => exact condition_nullness hc hop n
  | unspecified => exact absurd hop (Infix.ne_unspecified hc.operands)
  | text place folded => exact condition_call hc (by rw [hop]; rfl) n
  | regex folded => exact condition_call hc (by rw [hop]; rfl) n
  | search => exact condition_call hc (by rw [hop]; rfl) n

variable (style) in
/-- A condition begins with a name. -/
lemma named_conditionText (hc : c.IsInfix) : Named (conditionText style c).toList := by
  have hfield := named_fieldText style hc
  rw [conditionText]
  split <;> simp only [String.toList_append, List.append_assoc]
  · exact hfield.append _
  · exact hfield.append _
  · exact hfield.append _
  · exact hfield.append _
  · exact named_of_isName (style.isName_call _) _

end ReadQuery.Input.Grammar
