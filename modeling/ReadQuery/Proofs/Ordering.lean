import ReadQuery.Proofs.Filter.Walk
import ReadQuery.SortEntry

/-!
# Entries of an ordering that are skipped

The builders accept the entries of an ordering one after another, under the same policy as the
conditions of a filter. What ends an ordering under the strict policy is said once for all of them,
given the form that an entry has.
-/

namespace ReadQuery

variable {α β : Type}

/-- An entry that is skipped. -/
def SortEntry.skipped? (form : SortEntry → Compiled α) (e : SortEntry) : Option Skipped :=
  (form e).reason?.map (⟨e.field, ·⟩)

/-- The first entry that is skipped. -/
def SortEntry.firstSkipped? (form : SortEntry → Compiled α) (es : List SortEntry) :
    Option Skipped :=
  es.findSome? (skipped? form)

/-- The first entry that is skipped is looked for from the front. -/
lemma SortEntry.firstSkipped?_cons (form : SortEntry → Compiled α) (e : SortEntry)
    (es : List SortEntry) :
    firstSkipped? form (e :: es) = (skipped? form e <|> firstSkipped? form es) := by
  cases h : skipped? form e <;> simp [firstSkipped?, h]

/-- Entries accepted one after another, each one of which changes what `add` builds. -/
lemma SortEntry.accept_cons (policy : SkipPolicy) (form : SortEntry → Compiled α) (e : SortEntry)
    (es : List SortEntry) (g : Option α → β) :
    ((policy.accept e.field (form e)).result >>= fun a =>
        policy.settle (firstSkipped? form es) (g a))
      = policy.settle (firstSkipped? form (e :: es)) (g (form e).form?) := by
  rw [SkipPolicy.accept_result, SkipPolicy.settle_bind, firstSkipped?_cons]
  rfl

end ReadQuery
