import ReadQuery.Proofs.Sql.Fragment
import ReadQuery.Sql.Predicate

/-!
# Predicates woven into a text

A text in which the fragments of some predicates stand in order, each one preceded by text without
placeholders (`Woven`). The relation is open in the form of the placeholders: while a statement is
under construction they are question marks, and in the statement they are numbered from left to
right, so that a fragment starts with the number of values that the predicates before it bind.

Three facts carry the main results. Woven texts compose (`Woven.append`, `Covers.intercalate`), a
scan of a woven text finds as many placeholders as its predicates have values (`Woven.scan`), and
numbering the placeholders of the text numbers those of each fragment (`Woven.number`).
-/

namespace ReadQuery.Sql

open Placeholder

/-- The number of values that some predicates bind. -/
def boundCount (ps : List Predicate) : Nat :=
  (ps.flatMap (·.params)).length

/-- The fragments of some predicates in order, with text without placeholders around them. `write`
gives a fragment the form it has behind a number of placeholders; `n` of them stand before the
text. No digit follows a fragment, which may end in a label. -/
inductive Woven (write : Nat → List Char → List Char) : Nat → List Predicate → List Char → Prop
  | gap {n : Nat} {g : List Char} (hg : scan .bare g = some (.bare, 0)) : Woven write n [] g
  | piece {n : Nat} {g : List Char} {p : Predicate} {ps : List Predicate} {rest : List Char}
      (hg : scan .bare g = some (.bare, 0)) (hp : p.Binds) (hd : NoDigitHead rest)
      (hr : Woven write (n + p.params.length) ps rest) :
      Woven write n (p :: ps) (g ++ write n p.sql.toList ++ rest)

/-- A fragment whose placeholders are question marks. -/
def asMarks (_ : Nat) (cs : List Char) : List Char :=
  cs

/-- A fragment whose placeholders are numbered labels. -/
def asLabels (n : Nat) (cs : List Char) : List Char :=
  numberFrom ['$'] false n cs

variable {write : Nat → List Char → List Char} {n m : Nat} {p : Predicate}
  {ps qs : List Predicate} {cs ds g : List Char}

/-- The values of the first predicate are counted first. -/
@[simp] lemma boundCount_cons (p : Predicate) (ps : List Predicate) :
    boundCount (p :: ps) = p.params.length + boundCount ps := by
  simp [boundCount]

/-- No digit stands in front of two texts, if none stands in front of either. -/
lemma noDigitHead_append (hc : NoDigitHead cs) (hd : NoDigitHead ds) : NoDigitHead (cs ++ ds) := by
  cases cs with
  | nil => exact hd
  | cons c cs => exact hc

/-- A fragment without placeholders may stand in front. -/
lemma Woven.prepend (hg : scan .bare g = some (.bare, 0)) (h : Woven write n ps cs) :
    Woven write n ps (g ++ cs) := by
  cases h with
  | gap hg' => exact .gap (scan_append hg hg')
  | piece hg' hp hd hr =>
    rw [← List.append_assoc, ← List.append_assoc]
    exact .piece (scan_append hg hg') hp hd hr

/-- Two woven texts behind each other, the second one numbered behind the first. -/
lemma Woven.append (h : Woven write n ps cs) (h' : Woven write (n + boundCount ps) qs ds)
    (hd : NoDigitHead ds) : Woven write n (ps ++ qs) (cs ++ ds) := by
  induction h with
  | gap hg => exact Woven.prepend hg h'
  | piece hg hp hd' hr ih =>
    rw [List.append_assoc]
    refine .piece hg hp (noDigitHead_append hd' hd) (ih ?_)
    rw [boundCount_cons, ← Nat.add_assoc] at h'
    exact h'

/-- A predicate that binds its values is woven from itself. -/
lemma Woven.single (hp : p.Binds) : Woven write n [p] (write n p.sql.toList) := by
  have hnil : scan .bare [] = some (.bare, 0) := rfl
  have h : Woven write n [p] ([] ++ write n p.sql.toList ++ []) :=
    .piece hnil hp (by simp [NoDigitHead]) (.gap hnil)
  simpa using h

/-- Every predicate of a woven text has one placeholder for each of its values. -/
lemma Woven.count_eq (h : Woven write n ps cs) :
    ∀ p ∈ ps, Placeholder.count p.sql = p.params.length := by
  induction h with
  | gap hg =>
    intro p hp
    cases hp
  | piece hg hb hd hr ih =>
    intro p hp
    rcases List.mem_cons.1 hp with rfl | hp
    · obtain ⟨q, hq, hs⟩ := hb
      exact (counts_of_scan hs).1
    · exact ih p hp

/-- Where no digit follows, it makes no difference to stand behind a placeholder. -/
lemma scan_marked {q : Place} (hd : NoDigitHead cs) (hq : q.isQuoted = false)
    (h : scan .bare cs = some (q, m)) :
    ∃ q' : Place, q'.isQuoted = false ∧ scan .marked cs = some (q', m) := by
  cases cs with
  | nil =>
    simp only [scan, Option.some.injEq, Prod.mk.injEq] at h
    exact ⟨.marked, rfl, by simp [scan, h.2]⟩
  | cons c cs =>
    have hc : c.isDigit = false := hd c rfl
    have hread : Place.marked.read c = Place.bare.read c := by
      simp [Place.read, hc]
    refine ⟨q, hq, ?_⟩
    rw [← h]
    simp [scan, hread]

/-- A woven text has as many placeholders as its predicates have values. -/
lemma Woven.scan (h : Woven asMarks n ps cs) :
    ∃ q : Place, q.isQuoted = false ∧ Placeholder.scan .bare cs = some (q, boundCount ps) := by
  induction h with
  | gap hg => exact ⟨.bare, rfl, hg⟩
  | @piece n g p ps rest hg hp hd hr ih =>
    obtain ⟨q, hq, hs⟩ := ih
    obtain ⟨r, hr, hp⟩ := hp
    have hgp := scan_append hg hp
    rw [Nat.zero_add] at hgp
    -- the fragment may end in a placeholder, and what is behind it is then read from there
    cases r with
    | bare => exact ⟨q, hq, by simpa [asMarks] using scan_append hgp hs⟩
    | marked =>
      obtain ⟨q', hq', hs'⟩ := scan_marked hd hq hs
      exact ⟨q', hq', by simpa [asMarks] using scan_append hgp hs'⟩
    | quoted => cases hr

/-- Numbering puts no digit in front. -/
lemma noDigitHead_asLabels (hd : NoDigitHead cs) (n : Nat) : NoDigitHead (asLabels n cs) := by
  cases cs with
  | nil => exact hd
  | cons c cs =>
    have hc : c.isDigit = false := hd c rfl
    by_cases hq : c = '\''
    · simp [NoDigitHead, asLabels, numberFrom_cons, hq]
    · by_cases hm : c = '?'
      · simp [NoDigitHead, asLabels, numberFrom_cons, hm]
      · simpa [NoDigitHead, asLabels, numberFrom_cons, hq, hm] using hc

/-- The second of two texts is numbered behind the placeholders of the first. -/
lemma asLabels_append {q : Place} (hq : q.isQuoted = false)
    (h : Placeholder.scan .bare cs = some (q, m)) :
    asLabels n (cs ++ ds) = asLabels n cs ++ asLabels (n + m) ds := by
  obtain ⟨hc, hafter⟩ := counts_of_scan h
  rw [Place.isQuoted_bare] at hc hafter
  rw [asLabels, numberFrom_append, hafter, hc, hq]
  rfl

/-- Numbering the placeholders of a text numbers those of its fragments. -/
lemma Woven.number (h : Woven asMarks n ps cs) : Woven asLabels n ps (asLabels n cs) := by
  have hgap : ∀ {n : Nat} {g : List Char}, Placeholder.scan .bare g = some (.bare, 0) →
      asLabels n g = g :=
    fun hg => numberFrom_of_countFrom_eq_zero _ _ (counts_of_scan hg).1
  induction h with
  | gap hg =>
    rw [hgap hg]
    exact .gap hg
  | @piece n g p ps rest hg hp hd hr ih =>
    obtain ⟨q, hq, hs⟩ := id hp
    -- the gap is not changed, the fragment is numbered from `n` on, and the rest behind it
    rw [List.append_assoc, asLabels_append rfl hg, hgap hg, asMarks, Nat.add_zero,
      asLabels_append hq hs, ← List.append_assoc]
    exact .piece hg hp (noDigitHead_asLabels hd _) ih

/-- The texts of a list, each woven from some of the predicates, in order. -/
inductive Covers : List String → List Predicate → Prop
  | nil : Covers [] []
  | cons {s : String} {items : List String} {ps qs : List Predicate}
      (hs : ∀ n, Woven asMarks n ps s.toList) (hi : Covers items qs) :
      Covers (s :: items) (ps ++ qs)

/-- Two lists of texts behind each other. -/
lemma Covers.append {items more : List String} (h : Covers items ps) (h' : Covers more qs) :
    Covers (items ++ more) (ps ++ qs) := by
  induction h with
  | nil => exact h'
  | cons hs _ ih =>
    rw [List.append_assoc]
    exact .cons hs ih

/-- A text that is woven covers its predicates. -/
lemma Covers.single {s : String} (hs : ∀ n, Woven asMarks n ps s.toList) : Covers [s] ps := by
  have h := Covers.cons hs .nil
  rwa [List.append_nil] at h

/-- Texts without placeholders cover no predicates. -/
lemma covers_of_inert {items : List String} (h : ∀ s ∈ items, Inert s) : Covers items [] := by
  induction items with
  | nil => exact .nil
  | cons s items ih =>
    have hs : ∀ n, Woven asMarks n [] s.toList := fun _ => .gap (h s (by simp))
    exact Covers.cons hs (ih fun t ht => h t (by simp [ht]))

/-- The texts of a list joined by a separator without placeholders. -/
lemma Covers.intercalate {sep : String} {items : List String} (hsep : Inert sep)
    (hne : ∃ c, sep.toList.head? = some c ∧ c.isDigit = false) (h : Covers items ps) (n : Nat) :
    Woven asMarks n ps (sep.intercalate items).toList := by
  obtain ⟨c, hc, hdigit⟩ := hne
  have hd : ∀ ds, NoDigitHead (sep.toList ++ ds) := by
    intro ds d hd
    rw [List.head?_append, hc] at hd
    obtain rfl := Option.some.inj hd
    exact hdigit
  induction h generalizing n with
  | nil => exact .gap rfl
  | @cons s items ps qs hs hi ih =>
    cases items with
    | nil =>
      cases hi
      rw [List.append_nil, String.intercalate_singleton]
      exact hs n
    | cons t items =>
      rw [String.intercalate_cons_cons, String.append_assoc, String.toList_append,
        String.toList_append]
      exact (hs n).append ((ih _).prepend hsep) (hd _)

end ReadQuery.Sql
