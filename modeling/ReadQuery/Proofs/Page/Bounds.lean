import ReadQuery.Proofs.Page
import ReadQuery.Proofs.Page.Tiling

/-!
# Bounds of page windows

What holds of the window of every request, whatever numbers the request has. A window is proper if
its limit and its offset are positive and nothing but a limit stands beside an offset. All
strategies ask for proper windows (`Strategy.proper_window`), and a cap keeps them so
(`Window.Proper.clamp`).

The rows in front of a page are the only ones that are counted by a difference.
`Request.checkedWindow?` gives up where that difference leaves the range of 64 bits, which is on no
request (`Request.checkedWindow?_eq`).
-/

namespace ReadQuery.Page

open Number

/-- The limit is positive; an offset is positive, and has a limit and no cursor beside it. -/
structure Window.Proper (w : Window) : Prop where
  limit_pos : ∀ limit ∈ w.limit, 0 < limit
  offset_pos : ∀ offset ∈ w.offset, 0 < offset
  alone : w.offset.isSome = true → w.limit.isSome = true ∧ w.after = none

namespace Window

variable {w : Window}

/-- The window of everything is proper. -/
lemma proper_whole : whole.Proper := by
  constructor
  · intro limit h
    cases h
  · intro offset h
    cases h
  · intro h
    cases h

/-- A limit and an offset make a proper window. -/
lemma proper_limited (limit offset : Int64) : (limited limit offset).Proper := by
  rcases lt_or_ge 0 limit.toInt with hpos | hle
  · rw [Request.limited_of_pos hpos]
    constructor
    · rintro _ ⟨⟩
      exact Int64.lt_iff_toInt_lt.2 hpos
    · intro n hn
      obtain ⟨hoffset, heq⟩ := Option.ite_none_right_eq_some.1 hn
      cases heq
      exact hoffset
    · intro _
      exact ⟨rfl, rfl⟩
  · have hlimit : limit ≤ 0 := Int64.le_iff_toInt_le.2 hle
    rw [limited, if_pos hlimit]
    exact proper_whole

/-- A window without an offset is proper with any cursor. -/
lemma Proper.withCursor (h : w.Proper) (hw : w.offset = none) (after : Option Cursor) :
    { w with after := after }.Proper := by
  constructor
  · exact h.limit_pos
  · exact h.offset_pos
  · intro hoffset
    have hnone : w.offset.isSome = true := hoffset
    rw [hw] at hnone
    cases hnone

/-- A cap leaves the offset alone. -/
lemma clamp_offset (cap : Option Int64) (w : Window) : (w.clamp cap).offset = w.offset := by
  unfold clamp
  split
  · split <;> rfl
  · rfl

/-- A cap does not change whether there is a limit. -/
lemma isSome_limit_clamp (cap : Option Int64) (w : Window) :
    (w.clamp cap).limit.isSome = w.limit.isSome := by
  unfold clamp
  split
  · next hlimit =>
    split
    · rw [hlimit]
      rfl
    · rfl
  · rfl

/-- The limit behind a cap is the one in front of it, or the cap if that is less. -/
lemma limit_of_clamp {cap : Option Int64} (hcap : ∀ c ∈ cap, 0 < c) {n : Int64}
    (h : n ∈ (w.clamp cap).limit) : ∃ limit ∈ w.limit, n = cap.elim limit (min limit) := by
  cases hlimit : w.limit with
  | none =>
    have hsome := isSome_limit_clamp cap w
    rw [hlimit, h] at hsome
    cases hsome
  | some limit =>
    rw [Request.limit_clamp hcap hlimit] at h
    cases h
    exact ⟨limit, rfl, rfl⟩

/-- A positive cap keeps a window proper. -/
lemma Proper.clamp (h : w.Proper) {cap : Option Int64} (hcap : ∀ c ∈ cap, 0 < c) :
    (w.clamp cap).Proper := by
  constructor
  · intro n hn
    obtain ⟨limit, hmem, rfl⟩ := limit_of_clamp hcap hn
    have hlimit := Int64.lt_iff_toInt_lt.1 (h.limit_pos limit hmem)
    cases cap with
    | none => exact h.limit_pos limit hmem
    | some c =>
      have hc := Int64.lt_iff_toInt_lt.1 (hcap c rfl)
      apply Int64.lt_iff_toInt_lt.2
      rw [Option.elim_some, toInt_min]
      exact lt_min hlimit hc
  · rw [clamp_offset]
    exact h.offset_pos
  · rw [clamp_offset, isSome_limit_clamp, clamp_after]
    exact h.alone

/-- The offset is the first row, left out if that is the first one of all. -/
lemma Proper.offset_eq (h : w.Proper) :
    w.offset.map Int64.toInt = if w.start = 0 then none else some w.start := by
  unfold start
  cases hw : w.offset with
  | none => rfl
  | some offset =>
    have hpos : 0 < offset.toInt := Int64.lt_iff_toInt_lt.1 (h.offset_pos offset hw)
    exact (if_neg hpos.ne').symm

end Window

namespace Strategy

/-- Every strategy has a proper window. -/
lemma proper_window (strategy : Strategy) : strategy.window.Proper := by
  cases strategy with
  | byOffset offset limit => exact Window.proper_limited limit offset
  | byNumber page size configured => exact Window.proper_limited _ _
  | byToken token size configured cursorField =>
    apply (Window.proper_limited (effectiveSize size configured) 0).withCursor
    unfold Window.limited
    split <;> rfl

/-- The window asked for, if the difference that counts the pages in front is in the range. -/
def checkedWindow? : Strategy → Option Window
  | .byNumber page size configured =>
    let size := effectiveSize size configured
    (int64? ((max page 1).toInt - 1)).map fun before => Window.limited size (mulHeld before size)
  | strategy => some strategy.window

end Strategy

/-- No number of a page leaves the range when the pages in front of it are counted. -/
lemma int64?_max_one_sub_one (p : Int64) :
    int64? ((max p 1).toInt - 1) = some (max p 1 - 1) := by
  rw [← toInt_max_one_sub_one]
  exact int64?_toInt _

/-- Nothing overflows in a strategy. -/
lemma Strategy.checkedWindow?_eq (strategy : Strategy) :
    strategy.checkedWindow? = some strategy.window := by
  cases strategy with
  | byOffset offset limit => rfl
  | byNumber page size configured =>
    rw [checkedWindow?, int64?_max_one_sub_one]
    rfl
  | byToken token size configured cursorField => rfl

namespace Request

variable {r : Request} {s : Settings}

/-- The window of a request, if no number leaves its range on the way. -/
def checkedWindow? (r : Request) (s : Settings) : Option Window :=
  match r.strategy? s with
  | some strategy => strategy.checkedWindow?.map (Window.clamp s.maxSize)
  | none => some (Window.whole.clamp s.maxSize)

/-- Nothing overflows in a request. -/
lemma checkedWindow?_eq (r : Request) (s : Settings) :
    r.checkedWindow? s = some (r.window s) := by
  unfold checkedWindow? window
  cases r.strategy? s with
  | none => rfl
  | some strategy =>
    show strategy.checkedWindow?.map (Window.clamp s.maxSize) = _
    rw [strategy.checkedWindow?_eq]
    rfl

/-- Every request has a proper window. -/
lemma proper_window (hs : s.Positive) : (r.window s).Proper := by
  apply Window.Proper.clamp _ hs.maxSize
  cases r.strategy? s with
  | none => exact Window.proper_whole
  | some strategy => exact strategy.proper_window

/-- A limit lies between one and the cap. -/
lemma limit_le (hs : s.Positive) {limit : Int64} (h : limit ∈ (r.window s).limit) :
    ∀ cap ∈ s.maxSize, limit ≤ cap := by
  intro cap hcap
  obtain ⟨n, -, rfl⟩ := Window.limit_of_clamp hs.maxSize h
  rw [hcap, Option.elim_some]
  apply Int64.le_iff_toInt_le.2
  rw [toInt_min]
  exact min_le_right _ _

/-- A token and the number of a page each bring a limit. -/
lemma isSome_limit (hs : s.Positive) (h : r.token.isSome = true ∨ r.page.isSome = true) :
    (r.window s).limit.isSome = true := by
  have hsize := pageSize_pos (r := r) hs
  have hlimited : ∀ offset, (Window.limited (r.pageSize s) offset).limit.isSome = true := by
    intro offset
    rw [limited_of_pos hsize]
    rfl
  rw [window, Window.isSome_limit_clamp]
  obtain ⟨token, page, size, offset, limit⟩ := r
  cases token with
  | some token => exact hlimited 0
  | none =>
    cases page with
    | some page => exact hlimited _
    | none => rcases h with h | h <;> cases h

/-- The offset of a page counts the rows of the pages in front, as far as it can, and is left out if
there are none. -/
lemma offset_of_page (hs : s.Positive) {page : Int64} (htoken : r.token = none)
    (hpage : r.page = some page) :
    (r.window s).offset.map Int64.toInt =
      if min ((max page.toInt 1 - 1) * (r.pageSize s).toInt) maxInt64 = 0 then none
      else some (min ((max page.toInt 1 - 1) * (r.pageSize s).toInt) maxInt64) := by
  have honPage : r.window s = (r.onPage page).window s := by
    obtain ⟨token, page', size, offset, limit⟩ := r
    cases htoken
    cases hpage
    rfl
  have hone : (1 : Int64).toInt = 1 := rfl
  rw [(proper_window hs).offset_eq, honPage, start_onPage_max hs, toInt_max, hone]

/-- The cursor is there if the token is readable, and is the key of the token. -/
lemma after_iff {cursor : Cursor} :
    (r.window s).after = some cursor ↔ ∃ token lastId, r.token = some token ∧
      Token.decode? token = some lastId ∧ cursor = ⟨s.cursorField, lastId⟩ := by
  rw [window_after, lastId?, Option.map_eq_some_iff]
  constructor
  · rintro ⟨lastId, hlast, rfl⟩
    obtain ⟨token, htoken, hdecode⟩ := Option.bind_eq_some_iff.1 hlast
    exact ⟨token, lastId, htoken, hdecode, rfl⟩
  · rintro ⟨token, lastId, htoken, hdecode, rfl⟩
    exact ⟨lastId, Option.bind_eq_some_iff.2 ⟨token, htoken, hdecode⟩, rfl⟩

end Request

/-- What a request under some settings is promised of its window. -/
structure Request.Bounds (r : Request) (s : Settings) (w : Window) : Prop where
  limit : ∀ limit ∈ w.limit, 1 ≤ limit ∧ ∀ cap ∈ s.maxSize, limit ≤ cap
  offset : ∀ offset ∈ w.offset, 0 < offset ∧ w.limit.isSome = true ∧ w.after = none
  cursor : ∀ cursor, w.after = some cursor ↔ ∃ token lastId, r.token = some token ∧
    Token.decode? token = some lastId ∧ cursor = ⟨s.cursorField, lastId⟩
  hasLimit : r.token.isSome = true ∨ r.page.isSome = true → w.limit.isSome = true
  pageOffset : r.token = none → ∀ page ∈ r.page, w.offset.map Int64.toInt =
    if min ((max page.toInt 1 - 1) * (r.pageSize s).toInt) maxInt64 = 0 then none
    else some (min ((max page.toInt 1 - 1) * (r.pageSize s).toInt) maxInt64)

/-- The window of every request is found without leaving the range of 64 bits and keeps what is
promised of it. -/
theorem Request.window_bounds {s : Settings} (hs : s.Positive) (r : Request) :
    r.checkedWindow? s = some (r.window s) ∧ r.Bounds s (r.window s) := by
  have hproper := proper_window (r := r) hs
  refine ⟨r.checkedWindow?_eq s, ?_⟩
  constructor
  · intro limit hlimit
    have hpos := Int64.lt_iff_toInt_lt.1 (hproper.limit_pos limit hlimit)
    exact ⟨Int64.le_iff_toInt_le.2 hpos, limit_le hs hlimit⟩
  · intro offset hoffset
    have hsome : (r.window s).offset.isSome = true := Option.isSome_of_mem hoffset
    exact ⟨hproper.offset_pos offset hoffset, hproper.alone hsome⟩
  · intro cursor
    exact after_iff
  · exact isSome_limit hs
  · intro htoken page hpage
    exact offset_of_page hs htoken hpage

/-- A request for the page with the greatest number. -/
def lastPage : Request :=
  { largePages with page := some (Int64.ofInt maxInt64) }

/-- The rows in front of the last page cannot be counted, and its size is above the cap. -/
theorem Request.window_bounds_lastPage :
    cappedConfig.pageSettings.Positive ∧
      lastPage.checkedWindow? cappedConfig.pageSettings
        = some ⟨some 50, some (Int64.ofInt maxInt64), none⟩ ∧
      lastPage.Bounds cappedConfig.pageSettings ⟨some 50, some (Int64.ofInt maxInt64), none⟩ := by
  have hs : cappedConfig.pageSettings.Positive := positive_of_fault? (by decide)
  have hw : lastPage.window cappedConfig.pageSettings
      = ⟨some 50, some (Int64.ofInt maxInt64), none⟩ := by decide
  have hbounds := Request.window_bounds hs lastPage
  rw [hw] at hbounds
  exact ⟨hs, hbounds⟩

end ReadQuery.Page
