import Mathlib.Tactic.TFAE
import ReadQuery.Proofs.FieldRef
import ReadQuery.Proofs.Outcome

/-!
# References recovered from their dotted form

A reference that consists of names is what its dotted form is resolved into. So are all references
but those of a field whose path is refused, which are the field as it is: a field with a dot in it
is no name. A reference is recovered exactly if no path was refused or the field has no dot
(`segmented_tfae`).
-/

namespace ReadQuery.FieldRef

variable {field : String} {path : Option String} {f : FieldRef}

/-- A column without a path is a name if it has no dot. -/
lemma segmented_column_iff {s : String} (hs : Identifier.isSafe s = true) :
    (⟨s, []⟩ : FieldRef).Segmented ↔ '.' ∉ s.toList := by
  constructor
  · intro h
    exact (h s List.mem_cons_self).1.dot_not_mem
  · intro hdot t ht
    obtain rfl := List.mem_singleton.1 ht
    refine ⟨fun c hc => ?_, ?_⟩
    · have hchar := Identifier.plain_of_isSafe hs c hc
      rw [Identifier.isChar, Bool.or_eq_true, beq_iff_eq] at hchar
      refine hchar.resolve_right ?_
      rintro rfl
      exact hdot hc
    · rintro rfl
      cases hs

/-- A reference consists of names exactly if it is recovered from its dotted form, and it does so
unless its path was refused and its field has a dot. -/
theorem segmented_tfae (h : (resolve field path).result = .ok f) :
    (RefusesPath path → f = ⟨Text.trim field, []⟩ ∧ Identifier.isSafe f.column = true) ∧
      [f.Segmented, (resolve f.dotted none).result = .ok f,
        RefusesPath path → '.' ∉ (Text.trim field).toList].TFAE := by
  have hwhole : RefusesPath path →
      f = ⟨Text.trim field, []⟩ ∧ Identifier.isSafe f.column = true := by
    intro hrefused
    obtain ⟨hsafe, ⟨-, rfl⟩ | ⟨hpath, -⟩⟩ := of_resolve h
    · exact ⟨rfl, hsafe⟩
    · exact absurd hrefused hpath
  refine ⟨hwhole, ?_⟩
  tfae_have 1 → 2 := fun hsegmented => by
    rw [resolve_dotted hsegmented]
    rfl
  tfae_have 2 → 1 := fun hdotted => by
    -- no path is given here that could be refused
    refine segmented_of_resolve hdotted fun hrefused => hrefused.1 ?_
    decide
  tfae_have 1 → 3 := fun hsegmented hrefused => by
    obtain ⟨rfl, hsafe⟩ := hwhole hrefused
    exact (segmented_column_iff hsafe).1 hsegmented
  tfae_have 3 → 1 := fun hdot => by
    by_cases hrefused : RefusesPath path
    · obtain ⟨rfl, hsafe⟩ := hwhole hrefused
      exact (segmented_column_iff hsafe).2 (hdot hrefused)
    · exact segmented_of_resolve h hrefused
  tfae_finish

/-- Blanks, empty segments and the root mark of the path are gone from the reference, which is
recovered. -/
theorem segmented_tfae_scatteredDots :
    (resolve " meta..address. " (some "$.city")).result = .ok ⟨"meta", ["address", "city"]⟩ ∧
      (⟨"meta", ["address", "city"]⟩ : FieldRef).Segmented ∧
      (resolve "meta.address.city" none).result = .ok ⟨"meta", ["address", "city"]⟩ := by
  have hresolve : (resolve " meta..address. " (some "$.city")).result
      = .ok ⟨"meta", ["address", "city"]⟩ := eq_ok_of_toOption (by decide +kernel)
  have htfae := (segmented_tfae hresolve).2
  have hused : ¬ RefusesPath (some "$.city") := by decide +kernel
  have hdot : RefusesPath (some "$.city") → '.' ∉ (Text.trim " meta..address. ").toList :=
    fun hrefused => absurd hrefused hused
  exact ⟨hresolve, (htfae.out 0 2).2 hdot, (htfae.out 1 2).2 hdot⟩

/-- Not every reference consists of names and is recovered: a dotted field whose path is refused is
a column as a whole. -/
theorem not_forall_segmented :
    ¬ ∀ (field : String) (path : Option String) (f : FieldRef),
      (resolve field path).result = .ok f →
        f.Segmented ∧ (resolve f.dotted none).result = .ok f := by
  intro h
  have hresolve : (resolve "meta.a" (some "b'")).result = .ok ⟨"meta.a", []⟩ :=
    eq_ok_of_toOption (by decide +kernel)
  have hsegmented := (h _ _ _ hresolve).1
  exact (hsegmented "meta.a" List.mem_cons_self).1.dot_not_mem (by decide)

end ReadQuery.FieldRef
