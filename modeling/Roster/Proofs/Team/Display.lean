import Roster.Proofs.Text.Quoted
import Roster.Team.Basic

/-!
Teams on show. The line that shows a team can be taken apart in one way only, so two teams are shown
alike only if they agree in all that is shown.
-/

namespace Roster.Team

open Text

theorem toList_display (t : Team) :
    t.display.toList = "team#".toList ++ (Nat.toDigits 10 t.id.toNat ++
      ' ' :: (quoted t.name.toList ++ (if t.deleted then " (deleted)".toList else []))) := by
  cases hd : t.deleted <;> simp [display, hd]

/-- Two teams are shown alike only if they agree in all that is shown. -/
theorem display_tells_apart (s t : Team) :
    s.display = t.display ↔ s.id = t.id ∧ s.name = t.name ∧ s.deleted = t.deleted := by
  constructor
  · intro h
    have hlist := congrArg String.toList h
    rw [toList_display, toList_display] at hlist
    obtain ⟨hid, hrest⟩ := toDigits_append_inj (by decide) (by decide) (by decide)
      (List.append_cancel_left hlist)
    obtain ⟨hname, hend⟩ := quoted_append_inj hrest
    refine ⟨UInt64.toNat_inj.1 hid, String.toList_inj.1 hname, ?_⟩
    cases hs : s.deleted <;> cases ht : t.deleted <;> simp_all
  · rintro ⟨hid, hname, hdeleted⟩
    rw [display, display, hid, hname, hdeleted]

end Roster.Team
