import Roster.Proofs.Store.Live
import Roster.Service.Basic
import Mathlib

/-!
Listing page by page. A limit or an offset that is too large for a signed number is cut to the
largest one, and no table has so many rows; so each page is the one that is asked for, and pages of
one size, one behind the other, are the whole listing.
-/

namespace Roster

variable {α : Type}

/-- The entries of a list at the places from `offset` on, at most `limit` of them. -/
def IsPage (xs : List α) (limit offset : Nat) (page : List α) : Prop :=
  ∀ i, page[i]? = if i < limit then xs[offset + i]? else none

theorem isPage_take_drop (xs : List α) (limit offset : Nat) :
    IsPage xs limit offset ((xs.drop offset).take limit) := by
  intro i
  rw [List.getElem?_take, List.getElem?_drop]

/-- So many pages of one size reach as far as one page of all their entries. -/
theorem flatMap_range_take_drop (xs : List α) (size n : Nat) :
    ((List.range n).flatMap fun k => (xs.drop (k * size)).take size) = xs.take (n * size) := by
  induction n with
  | zero => simp
  | succ n ih =>
    rw [List.range_succ, List.flatMap_append, ih, List.flatMap_singleton, Nat.succ_mul,
      List.take_add]

namespace Store

variable {s : Store} {xs : List α} {limit offset size : UInt64} {k : Nat}

/-! ## One page -/

theorem take_saturate (h : xs.length ≤ lastId) (n : UInt64) :
    xs.take (saturate n) = xs.take n.toNat := by
  rw [saturate]
  obtain hn | hn := Nat.le_total n.toNat lastId
  · rw [Nat.min_eq_left hn]
  · rw [Nat.min_eq_right hn, List.take_of_length_le h, List.take_of_length_le (Nat.le_trans h hn)]

theorem drop_saturate (h : xs.length ≤ lastId) (n : UInt64) :
    xs.drop (saturate n) = xs.drop n.toNat := by
  rw [saturate]
  obtain hn | hn := Nat.le_total n.toNat lastId
  · rw [Nat.min_eq_left hn]
  · rw [Nat.min_eq_right hn, List.drop_of_length_le h, List.drop_of_length_le (Nat.le_trans h hn)]

theorem length_live_le (h : s.table.rows.length ≤ lastId) : s.table.live.length ≤ lastId :=
  Nat.le_trans (List.length_filter_le ..) h

/-- A table that is not too large is listed as if numbers were not cut. -/
theorem list_eq (h : s.table.rows.length ≤ lastId) (limit offset : UInt64) :
    s.list limit offset =
      (((s.table.live.map Row.team).drop offset.toNat).take limit.toNat,
        (s.table.live.map Row.team).length) := by
  have hlive := length_live_le h
  have hdrop : (s.table.live.drop offset.toNat).length ≤ lastId := by
    rw [List.length_drop]
    omega
  rw [list, drop_saturate hlive, take_saturate hdrop, ← List.map_drop, ← List.map_take,
    List.length_map]

/-! ## Page after page -/

def page (s : Store) (size : UInt64) (k : Nat) : List Team × Nat :=
  s.list size (UInt64.ofNat (k * size.toNat))

theorem page_eq (h : s.table.rows.length ≤ lastId) (hk : k * size.toNat < 2 ^ 64) :
    s.page size k =
      (((s.table.live.map Row.team).drop (k * size.toNat)).take size.toNat,
        (s.table.live.map Row.team).length) := by
  have hoffset : (UInt64.ofNat (k * size.toNat)).toNat = k * size.toNat :=
    UInt64.toNat_ofNat_of_lt' hk
  rw [page, list_eq h, hoffset]

def pageCount (s : Store) (size : UInt64) : Nat :=
  (s.table.live.length + size.toNat - 1) / size.toNat

theorem lt_pageCount_iff (hsize : 0 < size.toNat) :
    k < s.pageCount size ↔ k * size.toNat < s.table.live.length := by
  rw [pageCount, Nat.lt_iff_add_one_le, Nat.le_div_iff_mul_le hsize, Nat.succ_mul]
  omega

theorem length_page (h : s.table.rows.length ≤ lastId) (hk : k * size.toNat < 2 ^ 64) :
    (s.page size k).1.length = min size.toNat (s.table.live.length - k * size.toNat) := by
  rw [page_eq h hk, List.length_take, List.length_drop, List.length_map]

/-- The pages that have something on them are the whole listing. -/
theorem flatMap_page (h : s.table.rows.length ≤ lastId) (hsize : 0 < size.toNat) :
    ((List.range (s.pageCount size)).flatMap fun k => (s.page size k).1) =
      s.table.live.map Row.team := by
  have hlive := length_live_le h
  have hpages : ∀ k ∈ List.range (s.pageCount size), (s.page size k).1 =
      ((s.table.live.map Row.team).drop (k * size.toNat)).take size.toNat := by
    intro k hk
    have hlt := (lt_pageCount_iff hsize).1 (List.mem_range.1 hk)
    rw [page_eq h (by simp only [lastId] at hlive; omega)]
  have hreach : (s.table.live.map Row.team).length ≤ s.pageCount size * size.toNat := by
    rw [List.length_map, ← Nat.not_lt, ← lt_pageCount_iff hsize]
    exact Nat.lt_irrefl _
  rw [List.flatMap_congr hpages, flatMap_range_take_drop, List.take_of_length_le hreach]

end Store

namespace Service

/-- A table has at most so many rows that a signed number counts them. Then a listing shows, of all
live teams in the order of their signed identifiers, those at the places that are asked for, and
says how many there are in all. Pages of one size, as many as have something on them, are all live
teams when they are put together, and all of them but the last are full. -/
theorem list_page_by_page (s : Service) (hrows : s.store.table.rows.length < 2 ^ 63) :
    let all := s.store.table.live.map Row.team
    Shows s.store.table.Holds all ∧
    (∀ limit offset, (s.list limit offset).result = .ok (s.store.list limit offset) ∧
      IsPage all limit.toNat offset.toNat (s.store.list limit offset).1 ∧
      (s.store.list limit offset).2 = all.length) ∧
    ∀ size : UInt64, 0 < size → ∃ n,
      (∀ k < n, k * size.toNat < 2 ^ 64) ∧
      ((List.range n).flatMap fun k => (s.store.page size k).1) = all ∧
      (∀ k, k + 1 < n → (s.store.page size k).1.length = size.toNat) ∧
      ∀ k, k * size.toNat < 2 ^ 64 →
        ((s.store.page size k).1 = [] ↔ n ≤ k) ∧ (s.store.page size k).2 = all.length := by
  intro all
  have hlast : s.store.table.rows.length ≤ lastId := by
    simp only [lastId]
    omega
  have hlive := Store.length_live_le hlast
  simp only [lastId] at hlive
  refine ⟨s.store.table.shows_live, ?_, ?_⟩
  · intro limit offset
    rw [Store.list_eq hlast]
    exact ⟨by rw [list, Store.list_eq hlast]; rfl, isPage_take_drop _ _ _, rfl⟩
  · intro size hsize
    have hsize : 0 < size.toNat := UInt64.lt_iff_toNat_lt.1 hsize
    have hreach : ∀ k < s.store.pageCount size, k * size.toNat < s.store.table.live.length :=
      fun k hk => (Store.lt_pageCount_iff hsize).1 hk
    have hoffset : ∀ k < s.store.pageCount size, k * size.toNat < 2 ^ 64 := by
      intro k hk
      have := hreach k hk
      omega
    refine ⟨s.store.pageCount size, hoffset, Store.flatMap_page hlast hsize, ?_, ?_⟩
    · -- the page behind it has something on it, so this one has taken all that it can
      intro k hk
      have hnext := hreach (k + 1) hk
      rw [Nat.succ_mul] at hnext
      rw [Store.length_page hlast (hoffset k (by omega))]
      omega
    · intro k hk
      refine ⟨?_, by rw [Store.page_eq hlast hk]⟩
      rw [← List.length_eq_zero_iff, Store.length_page hlast hk, ← Nat.not_lt,
        Store.lt_pageCount_iff hsize]
      omega

def fiveRows : Service :=
  ofStore
    { table := ((((Table.empty.insert ⟨-7, "a", "", 0⟩).insert ⟨1, "b", "", 1⟩).insert
        ⟨2, "c", "", 0⟩).insert ⟨3, "d", "", 2⟩).insert ⟨9, "e", "", 0⟩ }
    { reach := 1 } 1

/-- Limits and offsets that are too large, and pages of two. -/
theorem list_page_by_page_trial :
    fiveRows.store.table.rows.length < 2 ^ 63 ∧
    (fiveRows.list 0xFFFFFFFFFFFFFFFF 1).result =
      .ok ([⟨2, "c", "", false⟩, ⟨9, "e", "", false⟩], 3) ∧
    IsPage (fiveRows.store.table.live.map Row.team) 0xFFFFFFFFFFFFFFFF 1
      [⟨2, "c", "", false⟩, ⟨9, "e", "", false⟩] ∧
    ((List.range 2).flatMap fun k => (fiveRows.store.page 2 k).1) =
      [⟨0xFFFFFFFFFFFFFFF9, "a", "", false⟩, ⟨2, "c", "", false⟩, ⟨9, "e", "", false⟩] := by
  have hrows : fiveRows.store.table.rows.length < 2 ^ 63 := by decide +kernel
  have hlist : fiveRows.store.list 0xFFFFFFFFFFFFFFFF 1 =
      ([⟨2, "c", "", false⟩, ⟨9, "e", "", false⟩], 3) := by decide +kernel
  obtain ⟨-, hlists, hpages⟩ := list_page_by_page fiveRows hrows
  obtain ⟨hresult, hpage, -⟩ := hlists 0xFFFFFFFFFFFFFFFF 1
  obtain ⟨n, -, hall, -, hempty⟩ := hpages 2 (by decide)
  -- the second page has something on it and the third has not
  have hsecond : (fiveRows.store.page 2 1).1 ≠ [] := by decide +kernel
  have hthird : (fiveRows.store.page 2 2).1 = [] := by decide +kernel
  have hn : n = 2 := by
    have hle := (hempty 2 (by decide)).1.1 hthird
    have hgt := mt (hempty 1 (by decide)).1.2 hsecond
    omega
  rw [hlist] at hresult hpage
  rw [hn] at hall
  exact ⟨hrows, hresult, hpage, hall.trans (by decide +kernel)⟩

end Service

end Roster
