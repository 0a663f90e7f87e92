import ReadQuery.Proofs.Sql.Placeholder

/-!
# Scanning fragments

A scan reads a fragment of SQL, counts its placeholders and knows where it stands behind each
character: outside of literals, right behind a placeholder, or inside a literal. It gives up where
a placeholder written as a label could not be told from what surrounds it: at a dollar sign outside
of literals, and at a digit right behind a placeholder.

Scans of fragments compose (`scan_append`), so that a fragment is scanned piece by piece. A scan
that succeeds gives the number of placeholders (`counts_of_scan`), and once they are numbered, the
labels of the text are the numbers in order (`labelsFrom_numberFrom`).
-/

namespace ReadQuery.Sql.Placeholder

/-- Where a reader of SQL stands. -/
inductive Place where
  /-- Outside of literals. -/
  | bare
  /-- Right behind a placeholder. -/
  | marked
  /-- Inside a literal. -/
  | quoted
  deriving DecidableEq, Repr

/-- Whether the reader stands inside a literal. -/
def Place.isQuoted : Place → Bool
  | quoted => true
  | bare | marked => false

/-- The reader is inside of a literal between quotes. -/
@[simp] lemma Place.isQuoted_quoted : quoted.isQuoted = true := rfl

/-- The reader is outside of literals where it begins. -/
@[simp] lemma Place.isQuoted_bare : bare.isQuoted = false := rfl

/-- The reader is outside of literals behind a placeholder. -/
@[simp] lemma Place.isQuoted_marked : marked.isQuoted = false := rfl

/-- There is one place inside of literals. -/
lemma Place.eq_quoted {p : Place} (h : p.isQuoted = true) : p = quoted := by
  cases p with
  | quoted => rfl
  | bare => cases h
  | marked => cases h

/-- Reads one character: where the reader stands behind it, and how many placeholders it is. -/
def Place.read : Place → Char → Option (Place × Nat)
  | quoted, c => some (if c = '\'' then bare else quoted, 0)
  | place, c =>
    if c = '\'' then some (quoted, 0)
    else if c = '?' then some (marked, 1)
    else if c = '$' ∨ (place = marked ∧ c.isDigit) then none
    else some (bare, 0)

/-- Reads a fragment: where the reader stands behind it, and how many placeholders it has. -/
def scan (place : Place) : List Char → Option (Place × Nat)
  | [] => some (place, 0)
  | c :: cs => (place.read c).bind fun r => (scan r.1 cs).map fun s => (s.1, r.2 + s.2)

/-- The labels outside of literals, from left to right: a dollar sign and the digits behind it. -/
def labelsFrom (quoted : Bool) : List Char → List String
  | [] => []
  | c :: cs =>
    if c = '\'' then labelsFrom (!quoted) cs
    else if c = '$' ∧ quoted = false then
      String.ofList (c :: cs.takeWhile Char.isDigit) :: labelsFrom quoted cs
    else labelsFrom quoted cs

/-- The labels of a statement. -/
def labels (s : String) : List String :=
  labelsFrom false s.toList

variable {p q r : Place} {m n : Nat} {cs ds : List Char}

/-- The first character is read first. -/
lemma scan_cons {c : Char} (h : scan p (c :: cs) = some (r, n)) :
    ∃ q k m, p.read c = some (q, k) ∧ scan q cs = some (r, m) ∧ n = k + m := by
  simp only [scan, Option.bind_eq_some_iff, Option.map_eq_some_iff, Prod.mk.injEq] at h
  obtain ⟨⟨q, k⟩, hc, ⟨r', m⟩, hs, rfl, rfl⟩ := h
  exact ⟨q, k, m, hc, hs, rfl⟩

/-- A fragment is read from where the one before it ends. -/
lemma scan_append (h : scan p cs = some (q, m)) (h' : scan q ds = some (r, n)) :
    scan p (cs ++ ds) = some (r, m + n) := by
  induction cs generalizing p m with
  | nil =>
    simp only [scan, Option.some.injEq, Prod.mk.injEq] at h
    obtain ⟨rfl, rfl⟩ := h
    simpa using h'
  | cons c cs ih =>
    obtain ⟨p', k, m', hc, hs, rfl⟩ := scan_cons h
    simp [scan, hc, ih hs, Nat.add_assoc]

/-- Outside of literals, a quote opens one and a question mark is a placeholder, and no label may
stand. -/
lemma Place.read_of_not_quoted (hp : p.isQuoted = false) (c : Char) :
    p.read c = if c = '\'' then some (quoted, 0)
      else if c = '?' then some (marked, 1)
      else if c = '$' ∨ (p = marked ∧ c.isDigit) then none
      else some (bare, 0) := by
  cases p with
  | quoted => cases hp
  | bare => rfl
  | marked => rfl

/-- What a reader that is not inside a literal can read. -/
lemma Place.read_eq_some {c : Char} (hp : p.isQuoted = false) {k : Nat}
    (h : p.read c = some (q, k)) :
    (c = '\'' ∧ q = quoted ∧ k = 0) ∨ (c = '?' ∧ q = marked ∧ k = 1) ∨
      (c ≠ '\'' ∧ c ≠ '?' ∧ c ≠ '$' ∧ (p = marked → c.isDigit = false) ∧ q = bare ∧ k = 0) := by
  rw [read_of_not_quoted hp] at h
  by_cases hq : c = '\''
  · simp only [hq, if_true, Option.some.injEq, Prod.mk.injEq] at h
    exact .inl ⟨hq, h.1.symm, h.2.symm⟩
  rw [if_neg hq] at h
  by_cases hm : c = '?'
  · simp only [hm, if_true, Option.some.injEq, Prod.mk.injEq] at h
    exact .inr (.inl ⟨hm, h.1.symm, h.2.symm⟩)
  rw [if_neg hm] at h
  by_cases hd : c = '$' ∨ (p = marked ∧ c.isDigit)
  · simp [hd] at h
  · simp only [hd, if_false, Option.some.injEq, Prod.mk.injEq] at h
    have hn : p = marked → c.isDigit = false := by
      intro he
      simpa using fun hc => hd (.inr ⟨he, hc⟩)
    exact .inr (.inr ⟨hq, hm, fun he => hd (.inl he), hn, h.1.symm, h.2.symm⟩)

/-- Inside of literals, a quote ends them and nothing else counts. -/
lemma Place.read_quoted (c : Char) :
    quoted.read c = some (if c = '\'' then bare else quoted, 0) := rfl

/-- What a reader inside a literal can read: everything, and a quote ends it. -/
lemma Place.read_quoted_eq_some {c : Char} {k : Nat} (h : quoted.read c = some (q, k)) :
    (c = '\'' ∧ q = bare ∧ k = 0) ∨ (c ≠ '\'' ∧ q = quoted ∧ k = 0) := by
  rw [read_quoted, Option.some.injEq, Prod.mk.injEq] at h
  by_cases hc : c = '\''
  · rw [if_pos hc] at h
    exact .inl ⟨hc, h.1.symm, h.2.symm⟩
  · rw [if_neg hc] at h
    exact .inr ⟨hc, h.1.symm, h.2.symm⟩

/-- A scan that succeeds has counted the placeholders and knows whether the fragment ends inside a
literal. -/
lemma counts_of_scan (h : scan p cs = some (q, n)) :
    countFrom p.isQuoted cs = n ∧ quotedAfter p.isQuoted cs = q.isQuoted := by
  induction cs generalizing p n with
  | nil =>
    simp only [scan, Option.some.injEq, Prod.mk.injEq] at h
    obtain ⟨rfl, rfl⟩ := h
    exact ⟨rfl, rfl⟩
  | cons c cs ih =>
    obtain ⟨p', k, m, hc, hs, rfl⟩ := scan_cons h
    obtain ⟨hn, hq⟩ := ih hs
    cases hp : p.isQuoted with
    | true =>
      obtain rfl := Place.eq_quoted hp
      rcases Place.read_quoted_eq_some hc with ⟨rfl, rfl, rfl⟩ | ⟨he, rfl, rfl⟩
      · simpa [countFrom, quotedAfter] using ⟨hn, hq⟩
      · simpa [countFrom, quotedAfter, he] using ⟨hn, hq⟩
    | false =>
      rcases Place.read_eq_some hp hc with
        ⟨rfl, rfl, rfl⟩ | ⟨rfl, rfl, rfl⟩ | ⟨h1, h2, -, -, rfl, rfl⟩
      · simpa [countFrom, quotedAfter] using ⟨hn, hq⟩
      · rw [Place.isQuoted_marked] at hn hq
        simp [countFrom, quotedAfter, hn, hq, Nat.add_comm]
      · simpa [countFrom, quotedAfter, h1, h2] using ⟨hn, hq⟩

/-- A text that does not start with a digit. -/
def NoDigitHead (cs : List Char) : Prop :=
  ∀ c ∈ cs.head?, c.isDigit = false

/-- Digits are no labels. -/
lemma labelsFrom_append_of_isDigit {ds : List Char} (hd : ∀ c ∈ ds, c.isDigit = true)
    (cs : List Char) : labelsFrom false (ds ++ cs) = labelsFrom false cs := by
  induction ds with
  | nil => rfl
  | cons d ds ih =>
    have h := hd d (by simp)
    have hq : d ≠ '\'' := (plain_of_isDigit h).1
    have hl : d ≠ '$' := by rintro rfl; simp at h
    simp [labelsFrom, hq, hl, ih fun c hc => hd c (by simp [hc])]

/-- The digits in front of a text are cut off where no other follows. -/
lemma takeWhile_digits {ds : List Char} (hd : ∀ c ∈ ds, c.isDigit = true)
    (hn : NoDigitHead cs) : (ds ++ cs).takeWhile Char.isDigit = ds := by
  rw [List.takeWhile_append_of_pos hd]
  cases cs with
  | nil => simp
  | cons c cs =>
    have hc := hn c (by simp)
    simp [hc]

/-- Behind a placeholder no digit is read, and numbering puts none there. -/
lemma noDigitHead_numberFrom (h : scan .marked cs = some (q, n)) (k : Nat) :
    NoDigitHead (numberFrom ['$'] false k cs) := by
  cases cs with
  | nil => simp [NoDigitHead]
  | cons c cs =>
    obtain ⟨p', k', m, hc, -, -⟩ := scan_cons h
    rcases Place.read_eq_some rfl hc with ⟨rfl, -, -⟩ | ⟨rfl, -, -⟩ | ⟨h1, h2, -, hd, -, -⟩
    · simp [NoDigitHead, numberFrom_cons]
    · simp [NoDigitHead, numberFrom_cons]
    · simpa [NoDigitHead, numberFrom_cons, h1, h2] using hd rfl

/-- A scanned fragment whose placeholders are question marks has no labels. -/
lemma labelsFrom_of_scan (h : scan p cs = some (q, n)) : labelsFrom p.isQuoted cs = [] := by
  induction cs generalizing p n with
  | nil => rfl
  | cons c cs ih =>
    obtain ⟨p', k, m, hc, hs, rfl⟩ := scan_cons h
    have ht := ih hs
    cases hp : p.isQuoted with
    | true =>
      obtain rfl := Place.eq_quoted hp
      rcases Place.read_quoted_eq_some hc with ⟨rfl, rfl, rfl⟩ | ⟨he, rfl, rfl⟩
      · simpa [labelsFrom] using ht
      · simpa [labelsFrom, he] using ht
    | false =>
      rcases Place.read_eq_some hp hc with
        ⟨rfl, rfl, rfl⟩ | ⟨rfl, rfl, rfl⟩ | ⟨h1, -, h3, -, rfl, rfl⟩
      · simpa [labelsFrom] using ht
      · simpa [labelsFrom] using ht
      · simpa [labelsFrom, h1, h3] using ht

/-- The label of a number is the dollar sign and its digits. -/
lemma ofList_label (n : Nat) : String.ofList ('$' :: (toString n).toList) = "$" ++ toString n := by
  rw [← String.toList_inj]
  simp

/-- The label that a placeholder becomes is read together with the digits behind it. -/
lemma labelsFrom_numberFrom_mark (k : Nat) (cs : List Char) :
    labelsFrom false (numberFrom ['$'] false k ('?' :: cs))
      = String.ofList ('$' :: ((toString (k + 1)).toList
          ++ numberFrom ['$'] false (k + 1) cs).takeWhile Char.isDigit)
        :: labelsFrom false (numberFrom ['$'] false (k + 1) cs) := by
  have hd : ∀ c ∈ (toString (k + 1)).toList, c.isDigit = true :=
    fun c hc => isDigit_of_mem_toString hc
  have hr : numberFrom ['$'] false k ('?' :: cs)
      = '$' :: ((toString (k + 1)).toList ++ numberFrom ['$'] false (k + 1) cs) := by
    simp [numberFrom_cons]
  rw [hr, labelsFrom, if_neg (by decide), if_pos ⟨rfl, rfl⟩, labelsFrom_append_of_isDigit hd]

/-- The labels of a scanned fragment whose placeholders are numbered are the numbers in order. -/
lemma labelsFrom_numberFrom (h : scan p cs = some (q, n)) (k : Nat) :
    labelsFrom p.isQuoted (numberFrom ['$'] p.isQuoted k cs)
      = (List.range n).map fun i => "$" ++ toString (k + i + 1) := by
  -- the reader's place is in step with the numbering: only it knows whether a literal is open
  induction cs generalizing p n k with
  | nil =>
    simp only [scan, Option.some.injEq, Prod.mk.injEq] at h
    obtain ⟨rfl, rfl⟩ := h
    rfl
  | cons c cs ih =>
    obtain ⟨p', k', m, hc, hs, rfl⟩ := scan_cons h
    have ht := ih hs
    cases hp : p.isQuoted with
    | true =>
      obtain rfl := Place.eq_quoted hp
      rcases Place.read_quoted_eq_some hc with ⟨rfl, rfl, rfl⟩ | ⟨he, rfl, rfl⟩
      · simpa [numberFrom_cons, labelsFrom] using ht k
      · simpa [numberFrom_cons, labelsFrom, he] using ht k
    | false =>
      rcases Place.read_eq_some hp hc with
        ⟨rfl, rfl, rfl⟩ | ⟨rfl, rfl, rfl⟩ | ⟨h1, h2, h3, -, rfl, rfl⟩
      · simpa [numberFrom_cons, labelsFrom] using ht k
      · -- the label is read as a whole, for what is behind it does not go on with a digit
        have hd : ∀ c ∈ (toString (k + 1)).toList, c.isDigit = true :=
          fun c hc => isDigit_of_mem_toString hc
        have hw := takeWhile_digits hd (noDigitHead_numberFrom hs (k + 1))
        have hl := ht (k + 1)
        rw [Place.isQuoted_marked] at hl
        rw [labelsFrom_numberFrom_mark, hw, ofList_label, hl, Nat.add_comm 1 m,
          List.range_succ_eq_map]
        simp [Nat.add_assoc, Nat.add_comm 1, Function.comp_def]
      · simpa [numberFrom_cons, labelsFrom, h1, h2, h3] using ht k

/-- What stands behind a scanned fragment can be scanned from there. -/
lemma scan_of_append (h : scan p cs = some (q, m)) (h' : scan p (cs ++ ds) = some (r, n)) :
    ∃ k, scan q ds = some (r, k) ∧ n = m + k := by
  induction cs generalizing p m n with
  | nil =>
    simp only [scan, Option.some.injEq, Prod.mk.injEq] at h
    obtain ⟨rfl, rfl⟩ := h
    exact ⟨n, h', by simp⟩
  | cons c cs ih =>
    obtain ⟨p', k, m', hc, hs, rfl⟩ := scan_cons h
    obtain ⟨p'', k', n', hc', hs', rfl⟩ := scan_cons h'
    obtain ⟨rfl, rfl⟩ : p' = p'' ∧ k = k' := by simpa [hc] using hc'
    obtain ⟨j, hj, rfl⟩ := ih hs hs'
    exact ⟨j, hj, by omega⟩

/-- Every placeholder becomes a label of its own. -/
lemma countFrom_le_length_labelsFrom (quoted : Bool) (k : Nat) (cs : List Char) :
    countFrom quoted cs ≤ (labelsFrom quoted (numberFrom ['$'] quoted k cs)).length := by
  induction cs generalizing quoted k with
  | nil => simp [countFrom]
  | cons c cs ih =>
    by_cases hq : c = '\''
    · simpa [hq, countFrom, numberFrom_cons, labelsFrom] using ih (!quoted) k
    · by_cases hm : c = '?' ∧ quoted = false
      · obtain ⟨rfl, rfl⟩ := hm
        rw [labelsFrom_numberFrom_mark]
        simpa [countFrom] using ih false (k + 1)
      · by_cases hl : c = '$' ∧ quoted = false
        · obtain ⟨rfl, rfl⟩ := hl
          have hrest := ih false k
          simp [countFrom, numberFrom_cons, labelsFrom]
          omega
        · simpa [hq, hm, hl, countFrom, numberFrom_cons, labelsFrom] using ih quoted k

/-- A label that is the number of its placeholder has no digit behind it. -/
lemma noDigitHead_of_label {k : Nat}
    (h : String.ofList ('$' :: ((toString (k + 1)).toList
      ++ numberFrom ['$'] false (k + 1) cs).takeWhile Char.isDigit) = "$" ++ toString (k + 1)) :
    NoDigitHead cs := by
  have hd : ∀ c ∈ (toString (k + 1)).toList, c.isDigit = true :=
    fun c hc => isDigit_of_mem_toString hc
  rw [List.takeWhile_append_of_pos hd, ← ofList_label, String.ofList_inj, List.cons.injEq] at h
  have hnil := List.append_right_eq_self.1 h.2
  intro c hc
  obtain ⟨cs', rfl⟩ : ∃ cs', cs = c :: cs' := by
    cases cs with
    | nil => cases hc
    | cons c' cs' => exact ⟨cs', by simpa using hc⟩
  cases hdigit : c.isDigit with
  | false => rfl
  | true =>
    -- the digit would be copied, and read as a part of the label
    simp [numberFrom_cons, plain_of_isDigit hdigit, hdigit] at hnil

/-- If the labels are the numbers in order, the text can be scanned. -/
lemma exists_scan_of_labelsFrom {k : Nat} (hd : p = .marked → NoDigitHead cs)
    (h : labelsFrom p.isQuoted (numberFrom ['$'] p.isQuoted k cs)
      = (List.range (countFrom p.isQuoted cs)).map fun i => "$" ++ toString (k + i + 1)) :
    ∃ q, scan p cs = some (q, countFrom p.isQuoted cs) := by
  induction cs generalizing p k with
  | nil => exact ⟨p, rfl⟩
  | cons c cs ih =>
    cases hp : p.isQuoted with
    | true =>
      obtain rfl := Place.eq_quoted hp
      by_cases hq : c = '\''
      · subst hq
        obtain ⟨q, hs⟩ := ih (p := .bare) (k := k) (by simp) (by
          simpa [numberFrom_cons, labelsFrom, countFrom] using h)
        exact ⟨q, by simpa [scan, Place.read_quoted, countFrom] using hs⟩
      · obtain ⟨q, hs⟩ := ih (p := .quoted) (k := k) (by simp) (by
          simpa [numberFrom_cons, labelsFrom, countFrom, hq] using h)
        exact ⟨q, by simpa [scan, Place.read_quoted, countFrom, hq] using hs⟩
    | false =>
      rw [hp] at h
      by_cases hq : c = '\''
      · subst hq
        obtain ⟨q, hs⟩ := ih (p := .quoted) (k := k) (by simp) (by
          simpa [numberFrom_cons, labelsFrom, countFrom] using h)
        exact ⟨q, by simpa [scan, Place.read_of_not_quoted hp, countFrom] using hs⟩
      by_cases hm : c = '?'
      · subst hm
        have hcount : countFrom false ('?' :: cs) = countFrom false cs + 1 := rfl
        rw [labelsFrom_numberFrom_mark, hcount, List.range_succ_eq_map, List.map_cons,
          List.cons.injEq] at h
        obtain ⟨hlabel, hrest⟩ := h
        have hhead := noDigitHead_of_label (by simpa using hlabel)
        obtain ⟨q, hs⟩ := ih (p := .marked) (k := k + 1) (fun _ => hhead) (by
          simpa [Function.comp_def, Nat.add_assoc, Nat.add_comm 1] using hrest)
        rw [Place.isQuoted_marked] at hs
        exact ⟨q, by simp [scan, Place.read_of_not_quoted hp, hs, hcount, Nat.add_comm]⟩
      by_cases hl : c = '$'
      · -- the dollar sign would be a label more than there are placeholders
        subst hl
        have hlength := congrArg List.length h
        have hle := countFrom_le_length_labelsFrom false k cs
        simp [numberFrom_cons, labelsFrom, countFrom] at hlength
        omega
      · have hdigit : p = .marked → c.isDigit = false := fun hmarked => hd hmarked c rfl
        obtain ⟨q, hs⟩ := ih (p := .bare) (k := k) (by simp) (by
          simpa [numberFrom_cons, labelsFrom, countFrom, hq, hm, hl] using h)
        refine ⟨q, ?_⟩
        have hread : p.read c = some (.bare, 0) := by
          rw [Place.read_of_not_quoted hp]
          simpa [hq, hm, hl] using hdigit
        simpa [scan, hread, countFrom, hq, hm] using hs

end ReadQuery.Sql.Placeholder
