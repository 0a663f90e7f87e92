/-!
# UTF-8

Decoding a list of bytes. Overlong forms, surrogates, code points beyond the last one and cut-off
sequences are refused.
-/

namespace ReadQuery.Text

/-- The low six bits of a continuation byte. -/
def continuation? (b : UInt8) : Option Nat :=
  if 0x80 ≤ b.toNat && b.toNat < 0xC0 then some (b.toNat - 0x80) else none

/-- A character of at least `least`, if the code point is one. -/
def charFrom? (least n : Nat) : Option Char :=
  if least ≤ n && n.isValidChar then some (Char.ofNat n) else none

/-- The characters that the bytes encode. -/
def utf8Decode? : List UInt8 → Option (List Char)
  | [] => some []
  | a :: r₁ =>
    if a.toNat < 0x80 then (utf8Decode? r₁).map (Char.ofNat a.toNat :: ·)
    else
      match r₁ with
      | [] => none
      | b :: r₂ =>
        if 0xC0 ≤ a.toNat && a.toNat < 0xE0 then
          (continuation? b).bind fun y =>
            (charFrom? 0x80 ((a.toNat - 0xC0) * 0x40 + y)).bind fun c =>
              (utf8Decode? r₂).map (c :: ·)
        else
          match r₂ with
          | [] => none
          | b' :: r₃ =>
            if 0xE0 ≤ a.toNat && a.toNat < 0xF0 then
              (continuation? b).bind fun y => (continuation? b').bind fun z =>
                (charFrom? 0x800 (((a.toNat - 0xE0) * 0x40 + y) * 0x40 + z)).bind fun c =>
                  (utf8Decode? r₃).map (c :: ·)
            else
              match r₃ with
              | [] => none
              | b'' :: r₄ =>
                if 0xF0 ≤ a.toNat && a.toNat < 0xF8 then
                  (continuation? b).bind fun x => (continuation? b').bind fun y =>
                    (continuation? b'').bind fun z =>
                      (charFrom? 0x10000
                        ((((a.toNat - 0xF0) * 0x40 + x) * 0x40 + y) * 0x40 + z)).bind fun c =>
                        (utf8Decode? r₄).map (c :: ·)
                else none

/-- Bytes of ASCII stand for the characters of the same numbers. -/
theorem utf8Decode?_ascii (bs : List UInt8) (h : ∀ b ∈ bs, b.toNat < 0x80) :
    utf8Decode? bs = some (bs.map fun b => Char.ofNat b.toNat) := by
  induction bs with
  | nil => rfl
  | cons b bs ih =>
    have hb := h b (List.mem_cons_self ..)
    have hbs := ih fun x hx => h x (List.mem_cons_of_mem _ hx)
    rw [utf8Decode?.eq_def]
    simp [hb, hbs]

end ReadQuery.Text
