import Mathlib.Order.WellFounded
import Roster.Proofs.Saver.Quiet

/-!
All the ways in which requests that are made at the same time can come to the owner of a saver. If
every call is answered at once, none of them gets stuck or goes on for ever, and they all end alike.
-/

namespace Roster.Saver

variable {σ : Type} {m : Setup σ} {P : σ → Prop}

/-- What requests that are made at the same time can have come to. -/
def Interleaving (m : Setup σ) (s : State σ) (rs : List Request) : Exchange σ → Prop :=
  Relation.ReflTransGen (Exchange.Step m) (s.exchanging rs)

namespace Exchange

open State

variable {x y : Exchange σ}

theorem saver_turnAway (x : Exchange σ) (c : Request × Nat) : (x.turnAway c).saver = x.saver := by
  obtain ⟨_ | _, n⟩ := c <;> rfl

theorem saver_enter (x : Exchange σ) (c : Request × Nat) : (x.enter c).saver = x.saver := by
  unfold enter
  split
  · rfl
  · split
    · exact saver_turnAway ..
    · split <;> rfl

theorem Move.steady (hq : Quiet m.repo P) (h : Move m x y) (hx : x.saver.Steady P) :
    y.saver.Steady P := by
  cases h with
  | enter _ =>
    rw [saver_enter]
    exact hx
  | moveUp _ _ _ => exact hx
  | leave _ _ =>
    rw [saver_turnAway]
    exact hx
  | @take c hp _ _ =>
    obtain ⟨t | _, n⟩ := c
    · exact hx.accept hq hp t
    · exact hx
  | shut hp _ => exact hx.beginFlush hq hp .shutdown
  | release _ _ => exact hx
  | give _ _ _ =>
    rw [saver_turnAway]
    exact hx
  | observe _ _ => exact hx

/-- No time passes, and so no tick is due. -/
theorem Step.cases_of_steady (h : Step m x y) (hx : x.saver.Steady P) :
    Move m x y ∨ ∃ w, x.saver.phase = .writing w ∧
      y = { x with saver := (x.saver.wake w.ends).takeAnswer m w } := by
  cases h with
  | move h => exact .inl h
  | answer hw => exact .inr ⟨_, hw, rfl⟩
  | tick hp _ hdue => exact absurd (hx.early (openness_of_waiting hp)) (Nat.not_lt.2 hdue)

/-- What stays true while the requests `rs` are made of the saver `s` at the same time. -/
structure Underway (m : Setup σ) (P : σ → Prop) (s : State σ) (rs : List Request)
    (x : Exchange σ) : Prop where
  sound : x.Sound
  steady : x.saver.Steady P
  state : (x.forecast m).1.await m = (s.submitAll m rs).1.await m
  told : (x.forecast m).2.Perm (s.submitAll m rs).2.zipIdx

variable {s : State σ} {rs : List Request}

theorem underway_exchanging (hs : s.Steady P) (rs : List Request) :
    Underway m P s rs (s.exchanging rs) where
  sound := sound_exchanging s rs
  steady := hs
  state := by rw [forecast_exchanging]
  told := by rw [forecast_exchanging]

theorem Underway.step (hq : Quiet m.repo P) (hx : Underway m P s rs x) (h : Step m x y) :
    Underway m P s rs y := by
  obtain hmove | ⟨w, hw, rfl⟩ := h.cases_of_steady hx.steady
  · obtain ⟨hstate, htold⟩ := hmove.agrees hx.sound
    exact ⟨hmove.sound hx.sound, hmove.steady hq hx.steady, hstate ▸ hx.state,
      htold.trans hx.told⟩
  · obtain ⟨hanswers, hstate, -⟩ :=
      submitAll_congr (m := m) (await_answer hw) (x.outstanding.map Prod.fst)
    refine ⟨sound_answer hx.sound hw, ?_, hstate.trans hx.state, ?_⟩
    · rw [hx.steady.wake_eq hw]
      exact hx.steady.takeAnswer hq hw
    · refine .trans (.of_eq ?_) hx.told
      exact congrArg (fun as => x.told ++ as.zip (x.outstanding.map Prod.snd)) hanswers

theorem Underway.of_interleaving (hq : Quiet m.repo P) (hs : s.Steady P)
    (h : Interleaving m s rs x) : Underway m P s rs x := by
  induction h with
  | refl => exact underway_exchanging hs rs
  | tail _ hstep ih => exact ih.step hq hstep

/-- Nobody gets stuck. -/
theorem Sound.exists_step (hx : x.Sound) (hover : ¬x.IsOver) : ∃ y, Step m x y := by
  cases hnext : x.next? m with
  | none => exact absurd (isOver_of_next? hx hnext) hover
  | some y =>
    obtain hmove | ⟨-, w, hw, rfl⟩ := next?_cases hnext
    · exact ⟨y, .move hmove⟩
    · exact ⟨_, .answer hw⟩

theorem Underway.lt (hx : Underway m P s rs x) (h : Step m x y) :
    Prod.Lex (· < ·) (Prod.Lex (· < ·) (· < ·))
      (y.work, y.saver.openness, y.saver.callsLeft)
      (x.work, x.saver.openness, x.saver.callsLeft) := by
  obtain hmove | ⟨w, hw, rfl⟩ := h.cases_of_steady hx.steady
  · exact hmove.lt
  · exact answer_lt hw

theorem Underway.of_over (hq : Quiet m.repo P) (hx : Underway m P s rs x) (hover : x.IsOver) :
    x.saver.settle m = (s.submitAll m rs).1.await m ∧ x.answers = (s.submitAll m rs).2 := by
  have hstate := hx.state
  have htold := hx.told
  rw [hover.forecast] at hstate htold
  rw [hx.steady.settle_eq hq]
  exact ⟨hstate, answers_of_perm htold⟩

end Exchange

open Exchange

variable {s : State σ} {rs : List Request}

/-- No way of taking requests goes on for ever. -/
theorem not_forever (hq : Quiet m.repo P) (hs : s.Steady P) {xs : Nat → Exchange σ}
    (hstart : xs 0 = s.exchanging rs) : ¬∀ n, Step m (xs n) (xs (n + 1)) := by
  intro hsteps
  have hreach : ∀ n, Interleaving m s rs (xs n) := by
    intro n
    induction n with
    | zero =>
      rw [hstart]
      exact .refl
    | succ n ih => exact ih.tail (hsteps n)
  let smaller : Nat × Nat × Nat → Nat × Nat × Nat → Prop :=
    Prod.Lex (· < ·) (Prod.Lex (· < ·) (· < ·))
  let left (n : Nat) : Nat × Nat × Nat :=
    ((xs n).work, (xs n).saver.openness, (xs n).saver.callsLeft)
  have hwf : WellFounded smaller :=
    WellFounded.prod_lex Nat.lt_wfRel.wf (WellFounded.prod_lex Nat.lt_wfRel.wf Nat.lt_wfRel.wf)
  have : IsWellFounded _ smaller := ⟨hwf⟩
  obtain ⟨n, hn⟩ := WellFounded.not_rel_apply_succ (r := smaller) left
  exact hn ((Underway.of_interleaving hq hs (hreach n)).lt (hsteps n))

end Roster.Saver
