import Mathlib.Tactic.Lemma
import Mathlib.Tactic.Linarith
import ReadQuery.Compiler.Config

/-!
# Rows of numbered pages

Which rows the numbered pages of a request show. A page begins behind as many rows as the pages
before it have by their size (`start_onPage`), and shows as many rows as its size or, if that is
less, the cap allows (`stop?_onPage`).

The pages tile the result exactly if the cap is not below their size (`tiles_iff`): each page ends
where the next one begins, and every row is on one page. The rows that a smaller cap takes from a
page are on no page.
-/

namespace ReadQuery.Page

open Number

/-- The first row of a window; rows are counted from zero. -/
def Window.start (w : Window) : Int :=
  (w.offset.map Int64.toInt).getD 0

/-- The row behind the last one of a window, if it has a limit. -/
def Window.stop? (w : Window) : Option Int :=
  w.limit.map fun limit => w.start + limit.toInt

/-- Whether a row is in a window. -/
def Window.Shows (w : Window) (row : Int) : Prop :=
  w.start ≤ row ∧ ∀ stop ∈ w.stop?, row < stop

namespace Request

/-- The request for a numbered page. -/
def onPage (r : Request) (page : Int64) : Request :=
  { r with token := none, page := some page }

/-- The size of the numbered pages of a request. -/
def pageSize (r : Request) (s : Settings) : Int64 :=
  effectiveSize ((r.size.orElse fun _ => r.limit).getD 0) s.defaultSize

/-- The cap, if there is one, is not below the size of the pages. -/
def FitsCap (r : Request) (s : Settings) : Prop :=
  ∀ cap ∈ s.maxSize, r.pageSize s ≤ cap

/-- How many rows the pages of a request show: their size, or the cap if that is less. -/
def shownRows (r : Request) (s : Settings) : Int :=
  match s.maxSize with
  | none => (r.pageSize s).toInt
  | some cap => min (r.pageSize s).toInt cap.toInt

end Request

/-- The lesser of two numbers is the lesser one as an integer. -/
lemma toInt_min (a b : Int64) : (min a b).toInt = min a.toInt b.toInt := by
  simp only [min, Int64.le_iff_toInt_le]
  split <;> omega

/-- The greater of two numbers is the greater one as an integer. -/
lemma toInt_max (a b : Int64) : (max a b).toInt = max a.toInt b.toInt := by
  simp only [max, Int64.le_iff_toInt_le]
  split <;> omega

/-- Pages are counted from one. -/
lemma one_le_toInt_max_one (p : Int64) : 1 ≤ (max p 1).toInt := by
  rw [toInt_max]
  exact le_max_right _ _

/-- Counting the pages in front of one stays in the range. -/
lemma toInt_max_one_sub_one (p : Int64) : (max p 1 - 1).toInt = (max p 1).toInt - 1 := by
  have hone : (1 : Int64).toInt = 1 := rfl
  have hpos := one_le_toInt_max_one p
  have hlt := (max p 1).toInt_lt
  rw [Int64.toInt_sub, hone, Int.bmod_eq_of_le] <;> omega

/-- A number that is not negative is clamped from above only. -/
lemma toInt_clampInt64 {i : Int} (h : 0 ≤ i) : (clampInt64 i).toInt = min i maxInt64 := by
  have hmin : ¬ i < minInt64 := by
    simp only [minInt64]
    omega
  rw [clampInt64, if_neg hmin]
  split
  · next hi => rw [min_eq_right (by omega)]; rfl
  · next hi =>
    simp only [maxInt64] at hi ⊢
    rw [Int64.toInt_ofInt_of_le (by omega) (by omega)]
    omega

/-- What accepted settings say of sizes: the configured one is positive, and so is the cap. -/
structure Settings.Positive (s : Settings) : Prop where
  defaultSize : 0 < s.defaultSize
  maxSize : ∀ cap ∈ s.maxSize, 0 < cap

/-- Accepted settings have positive sizes. -/
lemma positive_of_fault? {config : Compiler.Config} (h : config.fault? = none) :
    config.pageSettings.Positive := by
  unfold Compiler.Config.fault? at h
  split at h
  · cases h
  · next hsize =>
    split at h
    · cases h
    · next hcap =>
      constructor
      · exact Int64.not_le.1 hsize
      · intro cap hmem
        have hmax : config.maxPageSize = some cap := hmem
        simpa [Compiler.Config.isPositive?, hmax] using hcap

namespace Request

variable {r : Request} {s : Settings} {p : Int64}

/-- Pages have at least one row. -/
lemma pageSize_pos (hs : s.Positive) : 0 < (r.pageSize s).toInt := by
  have hpos : 0 < r.pageSize s := by
    unfold pageSize effectiveSize
    split
    · assumption
    · rw [if_pos hs.defaultSize]
      exact hs.defaultSize
  exact Int64.lt_iff_toInt_lt.1 hpos

/-- A page shows at least one row. -/
lemma shownRows_pos (hs : s.Positive) : 0 < r.shownRows s := by
  have hsize := pageSize_pos (r := r) hs
  unfold shownRows
  split
  · exact hsize
  · next cap hcap =>
    have hpos : 0 < cap.toInt := Int64.lt_iff_toInt_lt.1 (hs.maxSize cap hcap)
    exact lt_min hsize hpos

/-- The pages have their size exactly if the cap is not below it. -/
lemma shownRows_eq_iff : r.shownRows s = (r.pageSize s).toInt ↔ r.FitsCap s := by
  unfold shownRows FitsCap
  cases s.maxSize with
  | none => simp
  | some cap => simp [Int64.le_iff_toInt_le]

/-- A page does not show more rows than its size. -/
lemma shownRows_le : r.shownRows s ≤ (r.pageSize s).toInt := by
  unfold shownRows
  split
  · exact le_rfl
  · exact min_le_left _ _

/-- The window of a numbered page: as many sizes are skipped as there are pages before it. -/
lemma window_onPage (r : Request) (s : Settings) (p : Int64) :
    (r.onPage p).window s = (Window.limited (r.pageSize s)
      (mulHeld (max p 1 - 1) (r.pageSize s))).clamp s.maxSize :=
  rfl

/-- A positive limit is kept, and so is a positive offset. -/
lemma limited_of_pos {limit offset : Int64} (h : 0 < limit.toInt) :
    Window.limited limit offset
      = ⟨some limit, if 0 < offset then some offset else none, none⟩ := by
  have hlimit : ¬ limit ≤ 0 := Int64.not_le.2 (Int64.lt_iff_toInt_lt.2 h)
  exact if_neg hlimit

/-- The cap leaves the first row alone. -/
lemma start_clamp (cap : Option Int64) (w : Window) : (w.clamp cap).start = w.start := by
  unfold Window.clamp
  split
  · split <;> rfl
  · rfl

/-- The cap bounds the limit. -/
lemma limit_clamp {cap : Option Int64} (hcap : ∀ c ∈ cap, 0 < c) {w : Window} {n : Int64}
    (hw : w.limit = some n) : (w.clamp cap).limit = some (cap.elim n (min n)) := by
  cases cap with
  | none => simp [Window.clamp, hw]
  | some c => simp [Window.clamp, hw, hcap c rfl]

/-- A page begins behind the pages before it, as far as rows can be counted; numbers below one stand
for the first page. -/
lemma start_onPage_max (hs : s.Positive) (p : Int64) :
    ((r.onPage p).window s).start
      = min (((max p 1).toInt - 1) * (r.pageSize s).toInt) maxInt64 := by
  have hsize := pageSize_pos (r := r) hs
  have hpage : 0 ≤ (max p 1).toInt - 1 := Int.sub_nonneg_of_le (one_le_toInt_max_one p)
  have hoffset : (mulHeld (max p 1 - 1) (r.pageSize s)).toInt
      = min (((max p 1).toInt - 1) * (r.pageSize s).toInt) maxInt64 := by
    rw [mulHeld, toInt_max_one_sub_one, toInt_clampInt64 (mul_nonneg hpage hsize.le)]
  rw [window_onPage, start_clamp, limited_of_pos hsize, ← hoffset, Window.start]
  split
  · rfl
  · next hzero =>
    -- an offset that is not positive is left out, and is zero
    have hle : (mulHeld (max p 1 - 1) (r.pageSize s)).toInt ≤ 0 :=
      Int64.le_iff_toInt_le.1 (Int64.not_lt.1 hzero)
    have hge : 0 ≤ (mulHeld (max p 1 - 1) (r.pageSize s)).toInt := by
      rw [hoffset]
      exact le_min (mul_nonneg hpage hsize.le) (by simp [maxInt64])
    exact le_antisymm hge hle

/-- A page starts behind the rows of the pages before it, as far as these can be counted. -/
lemma start_onPage (hs : s.Positive) (hp : 0 < p) :
    ((r.onPage p).window s).start = min ((p.toInt - 1) * (r.pageSize s).toInt) maxInt64 := by
  have hpos : (1 : Int64).toInt ≤ p.toInt := Int64.lt_iff_toInt_lt.1 hp
  rw [start_onPage_max hs, toInt_max, max_eq_left hpos]

/-- A page stops behind the rows that it shows. -/
lemma stop?_onPage (hs : s.Positive) :
    ((r.onPage p).window s).stop? = some (((r.onPage p).window s).start + r.shownRows s) := by
  have hlimit : ((r.onPage p).window s).limit
      = some (s.maxSize.elim (r.pageSize s) (min (r.pageSize s))) := by
    rw [window_onPage, limited_of_pos (pageSize_pos hs)]
    exact limit_clamp hs.maxSize rfl
  have hrows : (s.maxSize.elim (r.pageSize s) (min (r.pageSize s))).toInt = r.shownRows s := by
    unfold shownRows
    cases s.maxSize with
    | none => rfl
    | some cap => exact toInt_min _ _
  rw [Window.stop?, hlimit, ← hrows]
  rfl

/-- A page shows the rows from its first one on, as many as there are on a page. -/
lemma shows_onPage_iff (hs : s.Positive) {row : Int} :
    ((r.onPage p).window s).Shows row ↔ ((r.onPage p).window s).start ≤ row ∧
      row < ((r.onPage p).window s).start + r.shownRows s := by
  rw [Window.Shows, stop?_onPage hs]
  simp

/-- A page whose offset can be counted starts exactly behind the pages before it. -/
lemma start_of_fits (hs : s.Positive) (hp : 0 < p)
    (hfit : (p.toInt - 1) * (r.pageSize s).toInt ≤ maxInt64) :
    ((r.onPage p).window s).start = (p.toInt - 1) * (r.pageSize s).toInt := by
  rw [start_onPage hs hp, min_eq_left hfit]

/-- If the cap leaves the pages their size, each row is on the page that its number tells. -/
lemma shows_onPage_iff_div (hs : s.Positive) (hcap : r.FitsCap s) (hp : 0 < p) {row : Int}
    (hrow : row < maxInt64) :
    ((r.onPage p).window s).Shows row ↔ row / (r.pageSize s).toInt = p.toInt - 1 := by
  have hsize := pageSize_pos (r := r) hs
  have hdiv : row / (r.pageSize s).toInt = p.toInt - 1 ↔
      (p.toInt - 1) * (r.pageSize s).toInt ≤ row ∧
        row < (p.toInt - 1) * (r.pageSize s).toInt + (r.pageSize s).toInt := by
    rw [← add_one_mul, ← Int.le_ediv_iff_mul_le hsize, ← Int.ediv_lt_iff_lt_mul hsize]
    omega
  rw [shows_onPage_iff hs, start_onPage hs hp, shownRows_eq_iff.2 hcap, hdiv]
  -- a page that begins where rows cannot be counted any more is behind the row
  rcases le_total ((p.toInt - 1) * (r.pageSize s).toInt) maxInt64 with hfit | hfit
  · rw [min_eq_left hfit]
  · rw [min_eq_right hfit]
    omega

/-- If the cap leaves the pages their size, every row is on one page. -/
lemma existsUnique_page (hs : s.Positive) (hcap : r.FitsCap s) {row : Int} (h0 : 0 ≤ row)
    (hrow : row < maxInt64 / (r.pageSize s).toInt * (r.pageSize s).toInt) :
    ∃! p : Int64, 0 < p ∧ ((r.onPage p).window s).Shows row := by
  have hsize := pageSize_pos (r := r) hs
  have hmax : row < maxInt64 := lt_of_lt_of_le hrow (Int.ediv_mul_le _ hsize.ne')
  have hdiv0 : 0 ≤ row / (r.pageSize s).toInt := Int.ediv_nonneg h0 hsize.le
  have hdiv : row / (r.pageSize s).toInt < maxInt64 :=
    lt_of_le_of_lt (Int.ediv_le_self _ h0) hmax
  have hpage : (Int64.ofInt (row / (r.pageSize s).toInt + 1)).toInt
      = row / (r.pageSize s).toInt + 1 := by
    simp only [maxInt64] at hdiv
    exact Int64.toInt_ofInt_of_le (by omega) (by omega)
  have hpos : 0 < Int64.ofInt (row / (r.pageSize s).toInt + 1) := by
    rw [Int64.lt_iff_toInt_lt, hpage]
    simp only [Int64.reduceToInt]
    omega
  refine ⟨Int64.ofInt (row / (r.pageSize s).toInt + 1), ⟨hpos, ?_⟩, ?_⟩
  · rw [shows_onPage_iff_div hs hcap hpos hmax, hpage]
    omega
  · rintro q ⟨hq, hshows⟩
    rw [shows_onPage_iff_div hs hcap hq hmax] at hshows
    refine Int64.toInt_inj.1 ?_
    omega

/-- A cap below the size hides rows of every page. -/
lemma shownRows_lt_pageSize (hcap : ¬ r.FitsCap s) : r.shownRows s < (r.pageSize s).toInt :=
  lt_of_le_of_ne shownRows_le fun h => hcap (shownRows_eq_iff.1 h)

/-- Sizes are numbers of 64 bits. -/
lemma pageSize_le_maxInt64 : (r.pageSize s).toInt ≤ maxInt64 := by
  have hlt := (r.pageSize s).toInt_lt
  simp only [maxInt64]
  omega

/-- The first row that a smaller cap takes from the first page is among those of full pages. -/
lemma shownRows_lt (hs : s.Positive) (hcap : ¬ r.FitsCap s) :
    r.shownRows s < maxInt64 / (r.pageSize s).toInt * (r.pageSize s).toInt := by
  have hsize := pageSize_pos (r := r) hs
  have hone : 1 ≤ maxInt64 / (r.pageSize s).toInt := by
    rw [Int.le_ediv_iff_mul_le hsize, one_mul]
    exact pageSize_le_maxInt64
  exact (shownRows_lt_pageSize hcap).trans_le (le_mul_of_one_le_left hsize.le hone)

/-- The first row that a smaller cap takes from the first page is on no page. -/
lemma not_shows_shownRows (hs : s.Positive) (hcap : ¬ r.FitsCap s) (hp : 0 < p) :
    ¬ ((r.onPage p).window s).Shows (r.shownRows s) := by
  have hsize := pageSize_pos (r := r) hs
  have hpos : 0 < p.toInt := Int64.lt_iff_toInt_lt.1 hp
  have hlt : r.shownRows s < (r.pageSize s).toInt := shownRows_lt_pageSize hcap
  rw [shows_onPage_iff hs, start_onPage hs hp]
  rcases eq_or_ne p.toInt 1 with hone | hone
  · have hstart : (p.toInt - 1) * (r.pageSize s).toInt = 0 := by simp [hone]
    rw [hstart]
    simp [maxInt64]
  · -- all other pages begin behind the size of the first one
    have hstart : (r.pageSize s).toInt ≤ min ((p.toInt - 1) * (r.pageSize s).toInt) maxInt64 :=
      le_min (le_mul_of_one_le_left hsize.le (by omega)) pageSize_le_maxInt64
    omega

end Request

/-- Pages of accepted settings tile the result exactly if the cap is not below their size: each page
ends where the next one begins, and every row that full pages can hold is on one page. -/
theorem tiles_iff {config : Compiler.Config} (hc : config.fault? = none) (r : Request) :
    (∀ p q : Int64, 0 < p → q.toInt = p.toInt + 1 →
        p.toInt * (r.pageSize config.pageSettings).toInt ≤ maxInt64 →
        (((r.onPage p).window config.pageSettings).stop?
            = some ((r.onPage q).window config.pageSettings).start ↔
          r.FitsCap config.pageSettings)) ∧
      ((∀ row : Int, 0 ≤ row →
          row < maxInt64 / (r.pageSize config.pageSettings).toInt
            * (r.pageSize config.pageSettings).toInt →
          ∃! p : Int64, 0 < p ∧ ((r.onPage p).window config.pageSettings).Shows row) ↔
        r.FitsCap config.pageSettings) := by
  have hs := positive_of_fault? hc
  have hsize := Request.pageSize_pos (r := r) hs
  constructor
  · intro p q hp hq hfit
    have hpos : 0 < p.toInt := Int64.lt_iff_toInt_lt.1 hp
    have hqpos : 0 < q := Int64.lt_iff_toInt_lt.2 (by simp only [Int64.reduceToInt]; omega)
    have hprev : (p.toInt - 1) * (r.pageSize config.pageSettings).toInt ≤ maxInt64 := by
      rw [sub_one_mul]
      omega
    have hnext : (q.toInt - 1) * (r.pageSize config.pageSettings).toInt
        = p.toInt * (r.pageSize config.pageSettings).toInt := by rw [hq, add_sub_cancel_right]
    rw [Request.stop?_onPage hs, Request.start_of_fits hs hp hprev,
      Request.start_of_fits hs hqpos (hnext.trans_le hfit), hnext, sub_one_mul,
      ← Request.shownRows_eq_iff, Option.some_inj]
    omega
  · constructor
    · intro h
      by_contra hcap
      obtain ⟨p, ⟨hp, hshows⟩, -⟩ := h _ (Request.shownRows_pos hs).le
        (Request.shownRows_lt hs hcap)
      exact Request.not_shows_shownRows hs hcap hp hshows
    · intro hcap row h0 hrow
      exact Request.existsUnique_page hs hcap h0 hrow

/-- Settings with a cap of 50 rows. -/
def cappedConfig : Compiler.Config :=
  { Compiler.Config.default with maxPageSize := some 50 }

/-- A request for pages of 100 rows. -/
def largePages : Request :=
  { Request.whole with size := some 100 }

/-- The first two pages of 100 rows under the cap of 50. -/
theorem tiles_iff_largePages :
    cappedConfig.fault? = none ∧ (0 : Int64) < 1 ∧ (2 : Int64).toInt = (1 : Int64).toInt + 1 ∧
      (1 : Int64).toInt * (largePages.pageSize cappedConfig.pageSettings).toInt ≤ maxInt64 ∧
      (((largePages.onPage 1).window cappedConfig.pageSettings).stop?
          = some ((largePages.onPage 2).window cappedConfig.pageSettings).start ↔
        largePages.FitsCap cappedConfig.pageSettings) := by
  have hc : cappedConfig.fault? = none := by decide
  exact ⟨hc, by decide, by decide, by decide,
    (tiles_iff hc largePages).1 1 2 (by decide) (by decide) (by decide)⟩

/-- Not all pages of accepted settings end where the next one begins: of pages of 100 rows the first
one ends behind the 50 rows of the cap, and the second one begins behind 100. -/
theorem not_forall_tiles :
    ¬ ∀ config : Compiler.Config, config.fault? = none → ∀ (r : Request) (p q : Int64), 0 < p →
      q.toInt = p.toInt + 1 → p.toInt * (r.pageSize config.pageSettings).toInt ≤ maxInt64 →
        ((r.onPage p).window config.pageSettings).stop?
          = some ((r.onPage q).window config.pageSettings).start := by
  intro h
  have htiles := h cappedConfig (by decide) largePages 1 2 (by decide) (by decide) (by decide)
  exact absurd htiles (by decide)

end ReadQuery.Page
