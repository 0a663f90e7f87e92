import Mathlib.Data.Finset.Preimage
import Mathlib.Data.Fintype.EquivFin
import ReadQuery.Identifier
import ReadQuery.Page.Window
import ReadQuery.Proofs.Outcome

/-!
# Cursors of page windows

Where the cursor of a window comes from and what is checked of it. Only the token of a request gives
its window a cursor, on the configured field (`Request.window_after`); a builder that applies the
window lets a cursor pass if its field is a proper identifier (`Window.check`).
-/

namespace ReadQuery.Page

/-- What every builder checks of a window: the field of its cursor. -/
def Window.check (w : Window) : Except Violation Unit :=
  match w.after with
  | none => .ok ()
  | some cursor => (Identifier.ensure cursor.field).map fun _ => ()

/-- A window that passes the check has a cursor on a proper field, if any. -/
lemma Window.isProper_of_check {w : Window} {cursor : Cursor} (hw : w.after = some cursor)
    (h : w.check = .ok ()) : Identifier.isProper cursor.field = true := by
  rw [Window.check, hw] at h
  obtain ⟨field, hfield, -⟩ := map_eq_ok.1 h
  exact (Identifier.ensure_eq_ok_iff.1 hfield).1

/-- The key that the token of a request stands for, if there is one. -/
def Request.lastId? (r : Request) : Option Int64 :=
  r.token.bind Token.decode?

/-- The request without its token. -/
def Request.withoutToken (r : Request) : Request :=
  { r with token := none }

/-- A cap leaves the cursor alone. -/
lemma Window.clamp_after (cap : Option Int64) (w : Window) : (w.clamp cap).after = w.after := by
  unfold Window.clamp
  split
  · split <;> rfl
  · rfl

/-- A limit and an offset come without a cursor. -/
lemma Window.limited_after (limit offset : Int64) : (limited limit offset).after = none := by
  unfold Window.limited
  split <;> rfl

/-- The cursor of a request is the key of its token on the configured field. -/
theorem Request.window_after (r : Request) (s : Settings) :
    (r.window s).after = r.lastId?.map fun lastId => ⟨s.cursorField, lastId⟩ := by
  obtain ⟨token, page, size, offset, limit⟩ := r
  simp only [Request.window, Window.clamp_after, Request.lastId?]
  cases token with
  | some token => rfl
  | none =>
    cases page with
    | some page => exact Window.limited_after _ _
    | none =>
      simp only [Request.strategy?]
      split
      · exact Window.limited_after _ _
      · rfl

/-- Without a token there is no cursor to refuse. -/
lemma Request.check_withoutToken (r : Request) (s : Settings) :
    (r.withoutToken.window s).check = .ok () := by
  have h := r.withoutToken.window_after s
  rw [Window.check, h]
  rfl

/-- The check of a window fails exactly if there is a cursor and its field is not proper. -/
lemma Request.check_eq_error_iff {r : Request} {s : Settings} {v : Violation} :
    (r.window s).check = .error v ↔
      v = .unsafeIdentifier s.cursorField ∧ Identifier.isProper s.cursorField = false ∧
        r.lastId?.isSome = true := by
  rw [Window.check, r.window_after s]
  cases r.lastId? with
  | none => simp
  | some lastId =>
    cases hf : Identifier.isProper s.cursorField with
    | true => simp [Identifier.ensure, hf, Except.map]
    | false => simp [Identifier.ensure, hf, Except.map, eq_comm]

/-- A field that is named by `n` letters and one more. -/
def fieldOfLength (n : Nat) : String :=
  String.ofList (List.replicate (n + 1) 'a')

/-- A field of letters is proper. -/
lemma isProper_fieldOfLength (n : Nat) : Identifier.isProper (fieldOfLength n) = true := by
  have hchar : Identifier.isChar 'a' = true := by decide
  have hhead : (List.replicate (n + 1) 'a').head? = some 'a' := rfl
  have hlast : (List.replicate (n + 1) 'a').getLast? = some 'a' := by
    rw [List.getLast?_replicate, if_neg (Nat.succ_ne_zero n)]
  simp [Identifier.isProper, Identifier.isSafe, fieldOfLength, hchar, hhead, hlast]

/-- Fields of different lengths are different. -/
lemma fieldOfLength_injective : Function.Injective fieldOfLength := by
  intro m n h
  have hlength := congrArg String.length h
  simpa [fieldOfLength] using hlength

/-- What is made of fields, different ones of different fields, is not all in a list. -/
lemma exists_fieldOfLength_not_mem {α : Type} {g : String → α}
    (hg : Function.Injective fun n => g (fieldOfLength n)) (as : List α) :
    ∃ n, g (fieldOfLength n) ∉ as := by
  classical
  obtain ⟨a, ha⟩ := Infinite.exists_notMem_finset
    ((as.toFinset).preimage (fun n => g (fieldOfLength n)) hg.injOn)
  exact ⟨a, by simpa using ha⟩

end ReadQuery.Page
