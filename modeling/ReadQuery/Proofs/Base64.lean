import ReadQuery.Base64
import ReadQuery.Proofs.Text

/-!
# Reading Base64 back

A form reads exactly the texts that it writes (`decode?_eq_some_iff`), so there is one text for each
list of bytes. No text is written by two forms for different bytes (`eq_of_encode_eq`), for the
texts of all forms are the same without the padding and in one alphabet (`plain_encode`). Forms that
are tried one behind the other read the text of any of them (`findSome?_decode?`).
-/

namespace ReadQuery.Base64

/-- The character of the standard alphabet in the place of one of the alphabet for URLs. -/
def plainChar (c : Char) : Char :=
  if c = '-' then '+' else if c = '_' then '/' else c

/-- The text in the standard alphabet and without padding. -/
def plain (cs : List Char) : List Char :=
  (cs.filter (· != '=')).map plainChar

/-- A form whose alphabet has each character once and not the one of the padding, and differs from
the standard alphabet in the two last characters only. -/
structure Form.Sound (f : Form) : Prop where
  value?_char : ∀ n < 64, f.value? (f.char n) = some n
  value?_pad : f.value? '=' = none
  plainChar_char : ∀ n < 64, plainChar (f.char n) = standardBare.char n

/-- The standard alphabet is sound. -/
lemma sound_standardAlphabet (padded : Bool) : Form.Sound ⟨'+', '/', padded⟩ := by
  constructor <;> revert padded <;> decide

/-- The alphabet for URLs is sound. -/
lemma sound_urlAlphabet (padded : Bool) : Form.Sound ⟨'-', '_', padded⟩ := by
  constructor <;> revert padded <;> decide

variable {f g : Form} {cs : List Char} {bs : List UInt8}

/-- The character of the padding is none of the alphabet. -/
lemma Form.Sound.char_ne_pad (hf : f.Sound) {n : Nat} (hn : n < 64) : f.char n ≠ '=' := by
  intro h
  have hvalue := hf.value?_char n hn
  rw [h, hf.value?_pad] at hvalue
  cases hvalue

/-- A character is found again under its code. -/
lemma ofNat_of_eq {n : Nat} {c : Char} (h : n = c.toNat) : Char.ofNat n = c := by
  rw [h, Char.ofNat_toNat]

/-- The first numbers stand for capital letters. -/
lemma Form.char_of_isUpper (f : Form) {c : Char} (h : c.isUpper = true) :
    c.toNat - 'A'.toNat < 64 ∧ f.char (c.toNat - 'A'.toNat) = c := by
  have hA : 'A'.toNat = 65 := rfl
  obtain ⟨hl, hu⟩ := Text.toNat_of_isUpper h
  refine ⟨by omega, ?_⟩
  rw [char, if_pos (by omega)]
  exact ofNat_of_eq (by omega)

/-- The next numbers stand for small letters. -/
lemma Form.char_of_isLower (f : Form) {c : Char} (h : c.isLower = true) :
    c.toNat - 'a'.toNat + 26 < 64 ∧ f.char (c.toNat - 'a'.toNat + 26) = c := by
  have ha : 'a'.toNat = 97 := rfl
  obtain ⟨hl, hu⟩ := Text.toNat_of_isLower h
  refine ⟨by omega, ?_⟩
  rw [char, if_neg (by omega), if_pos (by omega)]
  exact ofNat_of_eq (by omega)

/-- The numbers after these stand for digits. -/
lemma Form.char_of_isDigit (f : Form) {c : Char} (h : c.isDigit = true) :
    c.toNat - '0'.toNat + 52 < 64 ∧ f.char (c.toNat - '0'.toNat + 52) = c := by
  have h0 : '0'.toNat = 48 := rfl
  obtain ⟨hl, hu⟩ := Text.toNat_of_isDigit h
  refine ⟨by omega, ?_⟩
  rw [char, if_neg (by omega), if_neg (by omega), if_pos (by omega)]
  exact ofNat_of_eq (by omega)

/-- A character is the one with its number. -/
lemma Form.char_of_value? {c : Char} {n : Nat} (h : f.value? c = some n) :
    n < 64 ∧ f.char n = c := by
  unfold value? at h
  split_ifs at h with hupper hlower hdigit h62 h63
  · cases h
    exact f.char_of_isUpper hupper
  · cases h
    exact f.char_of_isLower hlower
  · cases h
    exact f.char_of_isDigit hdigit
  · cases h
    exact ⟨by decide, h62.symm⟩
  · cases h
    exact ⟨by decide, h63.symm⟩

/-- A character has the number whose character it is. -/
lemma Form.Sound.value?_eq_some_iff (hf : f.Sound) {c : Char} {n : Nat} :
    f.value? c = some n ↔ n < 64 ∧ f.char n = c := by
  constructor
  · exact char_of_value?
  · rintro ⟨hn, rfl⟩
    exact hf.value?_char n hn

/-- A byte has the number that it is made of. -/
lemma toNat_ofNat {n : Nat} (h : n < 256) : (UInt8.ofNat n).toNat = n :=
  UInt8.toNat_ofNat_of_lt h

/-- A rest of two characters is read as the byte that it is written of. -/
lemma decode2?_eq_some_iff (hf : f.Sound) {c d : Char} :
    decode2? f c d = some bs ↔ ∃ a : UInt8, bs = [a] ∧
      c = f.char (a.toNat * 16 / 64) ∧ d = f.char (a.toNat * 16 % 64) := by
  simp only [decode2?, Option.bind_eq_some_iff, hf.value?_eq_some_iff]
  constructor
  · rintro ⟨x, ⟨hx, rfl⟩, y, ⟨hy, rfl⟩, h⟩
    obtain ⟨hzero, heq⟩ := Option.ite_none_right_eq_some.1 h
    cases heq
    have hbyte : (UInt8.ofNat ((x * 64 + y) / 16)).toNat * 16 = x * 64 + y := by
      rw [toNat_ofNat (by omega)]
      omega
    refine ⟨_, rfl, ?_⟩
    rw [hbyte]
    refine ⟨congrArg f.char ?_, congrArg f.char ?_⟩ <;> omega
  · rintro ⟨a, rfl, rfl, rfl⟩
    have ha := a.toNat_lt
    refine ⟨_, ⟨by omega, rfl⟩, _, ⟨by omega, rfl⟩, ?_⟩
    have hn : a.toNat * 16 / 64 * 64 + a.toNat * 16 % 64 = a.toNat * 16 := Nat.div_add_mod' _ _
    rw [hn, if_pos (Nat.mul_mod_left _ _), Nat.mul_div_cancel _ (by decide), UInt8.ofNat_toNat]

/-- A rest of three characters is read as the two bytes that it is written of. -/
lemma decode3?_eq_some_iff (hf : f.Sound) {c d e : Char} :
    decode3? f c d e = some bs ↔ ∃ a b : UInt8, bs = [a, b] ∧
      c = f.char ((a.toNat * 256 + b.toNat) * 4 / 4096) ∧
      d = f.char ((a.toNat * 256 + b.toNat) * 4 / 64 % 64) ∧
      e = f.char ((a.toNat * 256 + b.toNat) * 4 % 64) := by
  simp only [decode3?, Option.bind_eq_some_iff, hf.value?_eq_some_iff]
  constructor
  · rintro ⟨x, ⟨hx, rfl⟩, y, ⟨hy, rfl⟩, z, ⟨hz, rfl⟩, h⟩
    obtain ⟨hzero, heq⟩ := Option.ite_none_right_eq_some.1 h
    cases heq
    have hbytes : ((UInt8.ofNat (((x * 64 + y) * 64 + z) / 1024)).toNat * 256
        + (UInt8.ofNat (((x * 64 + y) * 64 + z) / 4 % 256)).toNat) * 4
          = (x * 64 + y) * 64 + z := by
      rw [toNat_ofNat (by omega), toNat_ofNat (by omega)]
      omega
    refine ⟨_, _, rfl, ?_⟩
    rw [hbytes]
    refine ⟨congrArg f.char ?_, congrArg f.char ?_, congrArg f.char ?_⟩ <;> omega
  · rintro ⟨a, b, rfl, rfl, rfl, rfl⟩
    have ha := a.toNat_lt
    have hb := b.toNat_lt
    generalize hn : (a.toNat * 256 + b.toNat) * 4 = n
    have hjoin : (n / 4096 * 64 + n / 64 % 64) * 64 + n % 64 = n := by omega
    have hfirst : n / 1024 = a.toNat := by omega
    have hsecond : n / 4 % 256 = b.toNat := by omega
    refine ⟨_, ⟨by omega, rfl⟩, _, ⟨by omega, rfl⟩, _, ⟨by omega, rfl⟩, ?_⟩
    rw [hjoin, if_pos (by omega), hfirst, hsecond, UInt8.ofNat_toNat, UInt8.ofNat_toNat]

/-- Four characters are read as the three bytes that they are written of. -/
lemma decode4?_eq_some_iff (hf : f.Sound) {c₁ c₂ c₃ c₄ : Char} :
    decode4? f c₁ c₂ c₃ c₄ = some bs ↔ ∃ a b c : UInt8, bs = [a, b, c] ∧
      c₁ = f.char (((a.toNat * 256 + b.toNat) * 256 + c.toNat) / 262144) ∧
      c₂ = f.char (((a.toNat * 256 + b.toNat) * 256 + c.toNat) / 4096 % 64) ∧
      c₃ = f.char (((a.toNat * 256 + b.toNat) * 256 + c.toNat) / 64 % 64) ∧
      c₄ = f.char (((a.toNat * 256 + b.toNat) * 256 + c.toNat) % 64) := by
  simp only [decode4?, Option.bind_eq_some_iff, hf.value?_eq_some_iff]
  constructor
  · rintro ⟨x, ⟨hx, rfl⟩, y, ⟨hy, rfl⟩, z, ⟨hz, rfl⟩, w, ⟨hw, rfl⟩, h⟩
    cases h
    have hbytes : ((UInt8.ofNat ((((x * 64 + y) * 64 + z) * 64 + w) / 65536)).toNat * 256
        + (UInt8.ofNat ((((x * 64 + y) * 64 + z) * 64 + w) / 256 % 256)).toNat) * 256
        + (UInt8.ofNat ((((x * 64 + y) * 64 + z) * 64 + w) % 256)).toNat
          = ((x * 64 + y) * 64 + z) * 64 + w := by
      rw [toNat_ofNat (by omega), toNat_ofNat (by omega), toNat_ofNat (by omega)]
      omega
    refine ⟨_, _, _, rfl, ?_⟩
    rw [hbytes]
    refine ⟨congrArg f.char ?_, congrArg f.char ?_, congrArg f.char ?_, congrArg f.char ?_⟩ <;>
      omega
  · rintro ⟨a, b, c, rfl, rfl, rfl, rfl, rfl⟩
    have ha := a.toNat_lt
    have hb := b.toNat_lt
    have hc := c.toNat_lt
    generalize hn : (a.toNat * 256 + b.toNat) * 256 + c.toNat = n
    have hjoin : ((n / 262144 * 64 + n / 4096 % 64) * 64 + n / 64 % 64) * 64 + n % 64 = n := by
      omega
    have hfirst : n / 65536 = a.toNat := by omega
    have hsecond : n / 256 % 256 = b.toNat := by omega
    have hthird : n % 256 = c.toNat := by omega
    refine ⟨_, ⟨by omega, rfl⟩, _, ⟨by omega, rfl⟩, _, ⟨by omega, rfl⟩, _, ⟨by omega, rfl⟩, ?_⟩
    rw [hjoin, hfirst, hsecond, hthird, UInt8.ofNat_toNat, UInt8.ofNat_toNat, UInt8.ofNat_toNat]

/-- What is written is read back. -/
theorem decode?_encode (hf : f.Sound) (bs : List UInt8) : decode? f (encode f bs) = some bs := by
  fun_induction encode f bs with
  | case1 => rfl
  | case2 a n =>
    have hrest := (decode2?_eq_some_iff hf).2 ⟨a, rfl, rfl, rfl⟩
    cases hpad : f.padded with
    | true => simpa [Form.padding, hpad, decode?] using hrest
    | false => simpa [Form.padding, hpad, decode?] using hrest
  | case3 a b n =>
    have hrest := (decode3?_eq_some_iff hf).2 ⟨a, b, rfl, rfl, rfl, rfl⟩
    have hlast := hf.char_ne_pad (Nat.mod_lt n (by decide : 0 < 64))
    cases hpad : f.padded with
    | true => simpa [Form.padding, hpad, decode?, hlast] using hrest
    | false => simpa [Form.padding, hpad, decode?] using hrest
  | case4 a b c rest n ih =>
    have hgroup := (decode4?_eq_some_iff hf).2 ⟨a, b, c, rfl, rfl, rfl, rfl, rfl⟩
    have hlast := hf.char_ne_pad (Nat.mod_lt n (by decide : 0 < 64))
    rw [decode?, if_neg (by simp [hlast]), hgroup, Option.bind_some, ih]
    rfl

/-- What is read is what is written of the bytes. -/
theorem encode_of_decode? (hf : f.Sound) (h : decode? f cs = some bs) : encode f bs = cs := by
  fun_induction decode? f cs generalizing bs with
  | case1 =>
    cases h
    rfl
  | case2 c => cases h
  | case3 c d hpad => cases h
  | case4 c d hpad =>
    obtain ⟨a, rfl, rfl, rfl⟩ := (decode2?_eq_some_iff hf).1 h
    simp [encode, Form.padding, hpad]
  | case5 c d e hpad => cases h
  | case6 c d e hpad =>
    obtain ⟨a, b, rfl, rfl, rfl, rfl⟩ := (decode3?_eq_some_iff hf).1 h
    simp [encode, Form.padding, hpad]
  | case7 c d e last rest hpad hthird =>
    simp only [Bool.and_eq_true, List.isEmpty_iff, beq_iff_eq] at hpad hthird
    obtain ⟨⟨hpadded, rfl⟩, rfl⟩ := hpad
    obtain ⟨a, rfl, rfl, rfl⟩ := (decode2?_eq_some_iff hf).1 h
    simp [encode, Form.padding, hpadded, hthird]
  | case8 c d e last rest hpad hthird =>
    simp only [Bool.and_eq_true, List.isEmpty_iff, beq_iff_eq] at hpad
    obtain ⟨⟨hpadded, rfl⟩, rfl⟩ := hpad
    obtain ⟨a, b, rfl, rfl, rfl, rfl⟩ := (decode3?_eq_some_iff hf).1 h
    simp [encode, Form.padding, hpadded]
  | case9 c₁ c₂ c₃ c₄ rest hpad ih =>
    obtain ⟨group, hgroup, hrest⟩ := Option.bind_eq_some_iff.1 h
    obtain ⟨bytes, hbytes, rfl⟩ := Option.map_eq_some_iff.1 hrest
    obtain ⟨a, b, c, rfl, rfl, rfl, rfl, rfl⟩ := (decode4?_eq_some_iff hf).1 hgroup
    rw [List.cons_append, List.cons_append, List.singleton_append, encode, ih hbytes]

/-- The texts that a form reads are those that it writes. -/
theorem decode?_eq_some_iff (hf : f.Sound) : decode? f cs = some bs ↔ cs = encode f bs := by
  constructor
  · intro h
    exact (encode_of_decode? hf h).symm
  · rintro rfl
    exact decode?_encode hf bs

/-- A text is written with the characters of the alphabet and the padding. -/
lemma forall_mem_encode {p : Char → Prop} (hpad : p '=') (hchar : ∀ n < 64, p (f.char n))
    (bs : List UInt8) : ∀ c ∈ encode f bs, p c := by
  have hpadding : ∀ k, ∀ c ∈ f.padding k, p c := by
    intro k c hc
    unfold Form.padding at hc
    split at hc
    · rw [List.eq_of_mem_replicate hc]
      exact hpad
    · cases hc
  fun_induction encode f bs with
  | case1 =>
    intro c hc
    cases hc
  | case2 a n =>
    have ha := a.toNat_lt
    simp only [List.forall_mem_cons]
    exact ⟨hchar _ (by omega), hchar _ (by omega), hpadding 2⟩
  | case3 a b n =>
    have ha := a.toNat_lt
    have hb := b.toNat_lt
    simp only [List.forall_mem_cons]
    exact ⟨hchar _ (by omega), hchar _ (by omega), hchar _ (by omega), hpadding 1⟩
  | case4 a b c rest n ih =>
    have ha := a.toNat_lt
    have hb := b.toNat_lt
    have hc := c.toNat_lt
    simp only [List.forall_mem_cons]
    exact ⟨hchar _ (by omega), hchar _ (by omega), hchar _ (by omega), hchar _ (by omega), ih⟩

/-- Each character is turned into one of the standard alphabet. -/
lemma plain_cons (hf : f.Sound) {n : Nat} (hn : n < 64) (cs : List Char) :
    plain (f.char n :: cs) = standardBare.char n :: plain cs := by
  rw [plain, List.filter_cons_of_pos (by simpa using hf.char_ne_pad hn), List.map_cons,
    hf.plainChar_char n hn, plain]

/-- The padding is left out. -/
lemma plain_padding (f : Form) (n : Nat) : plain (f.padding n) = [] := by
  unfold Form.padding
  split
  · rw [plain, List.filter_replicate_of_neg (by decide)]
    rfl
  · rfl

/-- Without the padding and in one alphabet the texts of all forms are the same. -/
lemma plain_encode (hf : f.Sound) (bs : List UInt8) :
    plain (encode f bs) = encode standardBare bs := by
  fun_induction encode f bs with
  | case1 => rfl
  | case2 a n =>
    have ha := a.toNat_lt
    rw [plain_cons hf (by omega), plain_cons hf (by omega), plain_padding]
    rfl
  | case3 a b n =>
    have ha := a.toNat_lt
    have hb := b.toNat_lt
    rw [plain_cons hf (by omega), plain_cons hf (by omega), plain_cons hf (by omega),
      plain_padding]
    rfl
  | case4 a b c rest n ih =>
    have ha := a.toNat_lt
    have hb := b.toNat_lt
    have hc := c.toNat_lt
    rw [plain_cons hf (by omega), plain_cons hf (by omega), plain_cons hf (by omega),
      plain_cons hf (by omega), ih]
    rfl

/-- No text is written by two forms for different bytes. -/
theorem eq_of_encode_eq {bs' : List UInt8} (hf : f.Sound) (hg : g.Sound)
    (h : encode f bs = encode g bs') : bs = bs' := by
  have hplain := congrArg plain h
  rw [plain_encode hf, plain_encode hg] at hplain
  have hread := congrArg (decode? standardBare) hplain
  have hbare : standardBare.Sound := sound_standardAlphabet false
  rw [decode?_encode hbare, decode?_encode hbare] at hread
  exact Option.some.inj hread

/-- Forms that are tried one behind the other read a text of any of them: an earlier one that reads
it too finds the same bytes. -/
theorem findSome?_decode? {forms : List Form} (hforms : ∀ f ∈ forms, f.Sound) (hf : f ∈ forms)
    (bs : List UInt8) : forms.findSome? (decode? · (encode f bs)) = some bs := by
  have hread := decode?_encode (hforms f hf) bs
  cases hfound : forms.findSome? (decode? · (encode f bs)) with
  | none =>
    rw [List.findSome?_eq_none_iff.1 hfound f hf] at hread
    cases hread
  | some bs' =>
    obtain ⟨g, hg, hgread⟩ := List.exists_of_findSome?_eq_some hfound
    have hsame := (decode?_eq_some_iff (hforms g hg)).1 hgread
    rw [eq_of_encode_eq (hforms f hf) (hforms g hg) hsame]

end ReadQuery.Base64
