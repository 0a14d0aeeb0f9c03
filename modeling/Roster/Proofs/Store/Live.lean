import Roster.Store.Basic
import Mathlib.Data.List.Nodup

/-!
The live rows of a table. A row is known by its identifier, and lists of rows in the order of the
table are lists of teams in the order of the same identifiers.
-/

namespace Roster

/-- A list of exactly the teams with a property, each of them once, in the order of the signed
identifiers. -/
structure Shows (p : Team → Prop) (ts : List Team) : Prop where
  ordered : ts.Pairwise fun a b => a.id.toInt64 < b.id.toInt64
  mem_iff : ∀ t, t ∈ ts ↔ p t

theorem Shows.congr {p q : Team → Prop} {ts : List Team} (h : Shows p ts)
    (hpq : ∀ t, p t ↔ q t) : Shows q ts :=
  ⟨h.ordered, fun t => (h.mem_iff t).trans (hpq t)⟩

theorem Row.isLive_iff {r : Row} : r.isLive = true ↔ r.mark = 0 := by
  rw [Row.isLive, beq_iff_eq]

theorem Row.team_of_mark {r : Row} (h : r.mark = 0) :
    r.team = ⟨r.id.toUInt64, r.name, r.description, false⟩ := by
  rw [Row.team, Row.isLive_iff.2 h, Bool.not_true]

theorem Row.toUInt64_eq_iff {r : Row} {id : UInt64} : r.id.toUInt64 = id ↔ r.id = id.toInt64 := by
  constructor
  · rintro rfl
    rw [Int64.toInt64_toUInt64]
  · intro h
    rw [h, UInt64.toUInt64_toInt64]

namespace Table

def Holds (t : Table) (team : Team) : Prop :=
  ∃ r ∈ t.rows, r.mark = 0 ∧ r.team = team

theorem row_unique (t : Table) {a b : Row} (ha : a ∈ t.rows) (hb : b ∈ t.rows)
    (h : a.id = b.id) : a = b := by
  have hnodup : (t.rows.map Row.id).Nodup :=
    List.pairwise_map.2 (t.sorted.imp fun hlt => Int64.ne_of_lt hlt)
  exact List.inj_on_of_nodup_map hnodup ha hb h

theorem mem_live_iff {t : Table} {r : Row} : r ∈ t.live ↔ r ∈ t.rows ∧ r.mark = 0 := by
  rw [live, List.mem_filter, Row.isLive_iff]

theorem find?_eq_some_iff {t : Table} {id : UInt64} {r : Row} :
    t.find? id.toInt64 = some r ↔ r ∈ t.rows ∧ r.id.toUInt64 = id ∧ r.mark = 0 := by
  rw [Row.toUInt64_eq_iff]
  constructor
  · intro h
    have hr := List.find?_some h
    rw [Bool.and_eq_true, decide_eq_true_eq, Row.isLive_iff] at hr
    exact ⟨List.mem_of_find?_eq_some h, hr⟩
  · rintro ⟨hmem, hid, hmark⟩
    cases hfind : t.find? id.toInt64 with
    | none =>
      have hr := List.find?_eq_none.1 hfind r hmem
      rw [Bool.and_eq_true, decide_eq_true_eq, Row.isLive_iff] at hr
      exact absurd ⟨hid, hmark⟩ hr
    | some x =>
      have hx := List.find?_some hfind
      rw [Bool.and_eq_true, decide_eq_true_eq] at hx
      rw [t.row_unique (List.mem_of_find?_eq_some hfind) hmem (hx.1.trans hid.symm)]

/-- The teams of some rows, taken in the order of the table. -/
theorem shows_of_sublist {t : Table} {rows : List Row} (h : rows.Sublist t.rows) :
    Shows (fun team => ∃ r ∈ rows, r.team = team) (rows.map Row.team) where
  ordered := by
    rw [List.pairwise_map]
    refine (t.sorted.sublist h).imp ?_
    intro a b hlt
    simpa only [Row.team, Int64.toInt64_toUInt64] using hlt
  mem_iff team := List.mem_map

/-- The teams of the live rows that a test lets through. -/
theorem shows_filter (t : Table) (p : Row → Bool) {q : Team → Prop}
    (hpq : ∀ r, p r = true ↔ q r.team) :
    Shows (fun team => t.Holds team ∧ q team) ((t.live.filter p).map Row.team) := by
  have hsub : (t.live.filter p).Sublist t.rows := List.filter_sublist.trans List.filter_sublist
  refine (shows_of_sublist hsub).congr ?_
  intro team
  constructor
  · rintro ⟨r, hr, rfl⟩
    obtain ⟨hlive, hp⟩ := List.mem_filter.1 hr
    obtain ⟨hmem, hmark⟩ := mem_live_iff.1 hlive
    exact ⟨⟨r, hmem, hmark, rfl⟩, (hpq r).1 hp⟩
  · rintro ⟨⟨r, hmem, hmark, rfl⟩, hq⟩
    exact ⟨r, List.mem_filter.2 ⟨mem_live_iff.2 ⟨hmem, hmark⟩, (hpq r).2 hq⟩, rfl⟩

theorem shows_live (t : Table) : Shows t.Holds (t.live.map Row.team) := by
  have h := t.shows_filter (fun _ => true) (q := fun _ => True) fun _ => iff_of_true rfl trivial
  rw [List.filter_eq_self.2 fun _ _ => rfl] at h
  exact h.congr fun _ => and_iff_left trivial

end Table

end Roster
