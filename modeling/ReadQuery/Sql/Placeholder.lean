import ReadQuery.Number.Integer

/-!
# Placeholders

A question mark outside of quoted literals stands for a parameter. Single quotes open and close
literals; a doubled quote inside one closes it and opens it again.
-/

namespace ReadQuery.Sql.Placeholder

/-- The placeholders of a text; `quoted` tells whether it starts within a literal. -/
def countFrom (quoted : Bool) : List Char → Nat
  | [] => 0
  | c :: cs =>
    if c = '\'' then countFrom (!quoted) cs
    else if c = '?' ∧ quoted = false then countFrom quoted cs + 1
    else countFrom quoted cs

/-- The number of placeholders in a statement. -/
def count (s : String) : Nat :=
  countFrom false s.toList

/-- Replaces each placeholder by `label` and its number. The number in front of the text is `n`, and
`next` counts on. -/
def numberWith {m : Type → Type} [Monad m] {κ : Type} [ToString κ] (next : κ → m κ)
    (label : List Char) (quoted : Bool) (n : κ) : List Char → m (List Char)
  | [] => pure []
  | c :: cs =>
    if c = '\'' then do
      let rest ← numberWith next label (!quoted) n cs
      pure (c :: rest)
    else if c = '?' ∧ quoted = false then do
      let k ← next n
      let rest ← numberWith next label quoted k cs
      pure (label ++ (toString k).toList ++ rest)
    else do
      let rest ← numberWith next label quoted n cs
      pure (c :: rest)

/-- Replaces each placeholder by `label` and its number; `n` placeholders stand before the text.
There are numbers for all placeholders. -/
def numberFrom (label : List Char) (quoted : Bool) (n : Nat) (cs : List Char) : List Char :=
  Id.run (numberWith (fun k => pure (k + 1)) label quoted n cs)

@[simp]
theorem numberFrom_nil (label : List Char) (quoted : Bool) (n : Nat) :
    numberFrom label quoted n [] = [] := rfl

/-- Numbering replaces a placeholder and passes over all other characters. -/
theorem numberFrom_cons (label : List Char) (quoted : Bool) (n : Nat) (c : Char) (cs : List Char) :
    numberFrom label quoted n (c :: cs)
      = if c = '\'' then c :: numberFrom label (!quoted) n cs
        else if c = '?' ∧ quoted = false then
          label ++ (toString (n + 1)).toList ++ numberFrom label quoted (n + 1) cs
        else c :: numberFrom label quoted n cs := by
  simp only [numberFrom, numberWith]
  split
  · rfl
  · split
    · rfl
    · rfl

/-- Replaces each placeholder by `label` and its number, counted from one. -/
def number (label s : String) : String :=
  String.ofList (numberFrom label.toList false 0 s.toList)

/-- Replaces each placeholder by `label` and its number of 32 bits, counted on from `n`. There is no
text where the numbers run out. -/
def numberFrom? (label : List Char) (quoted : Bool) (n : Int32) (cs : List Char) :
    Option (List Char) :=
  numberWith Number.nextInt32? label quoted n cs

/-- Numbering in 32 bits gives what numbering does, as long as there is a next number. -/
theorem numberFrom?_cons (label : List Char) (quoted : Bool) (n : Int32) (c : Char)
    (cs : List Char) :
    numberFrom? label quoted n (c :: cs)
      = if c = '\'' then (numberFrom? label (!quoted) n cs).map (c :: ·)
        else if c = '?' ∧ quoted = false then
          (Number.nextInt32? n).bind fun k =>
            (numberFrom? label quoted k cs).map (label ++ (toString k).toList ++ ·)
        else (numberFrom? label quoted n cs).map (c :: ·) := by
  simp only [numberFrom?, numberWith, Option.map_eq_bind]
  rfl

/-- Replaces each placeholder by `label` and its number of 32 bits, counted from one. -/
def number? (label s : String) : Option String :=
  (numberFrom? label.toList false 0 s.toList).map String.ofList

end ReadQuery.Sql.Placeholder
