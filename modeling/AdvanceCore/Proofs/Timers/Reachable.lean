import AdvanceCore.Proofs.Timers.Advance

/-!
# `AdvanceCore.Proofs.Timers.Reachable`: the states the timers can be in

The timers start blank. From there only two things happen to them: time passes, and their
registers are written. `Timers.Reachable` holds of every state these lead to, in any
order.

* `get_writeRegister`: what a register write makes of each timer.
* `Reachable.base_le_cycle`: no timer counts from a cycle that is still to come. The
  cycles since `base` are therefore a real difference, never one cut off at zero.
-/

set_option autoImplicit false

namespace AdvanceCore

/-- The cycles that a timer on its own clock has spent on the tick in progress. -/
def Timer.phase (t : Timer) (cycle : Nat) : Nat :=
  (cycle - t.base) % t.control.prescaler

/-- Handling a wrap by the target leaves every `base` at or before the target. -/
theorem TimerRun.base_handle_le {run : TimerRun} {w : Wrap} {target : Nat}
    (hw : w.cycle ≤ target) (h : ∀ i, (run.timers.get i).base ≤ target) (i : TimerId) :
    ((run.handle w).timers.get i).base ≤ target := by
  obtain ⟨⟨c, hc⟩, -⟩ := (run.rearm w).counted_overflow w.timer i
  rw [handle_eq, hc, get_rearm]
  split
  · exact hw
  · exact h i

/-- So does the whole way to the target. -/
theorem TimerRun.base_advance_le {run : TimerRun} {target : Nat}
    (h : ∀ i, (run.timers.get i).base ≤ target) (i : TimerId) :
    ((run.advance target).timers.get i).base ≤ target := by
  fun_induction advance run target with
  | case1 run w hw ih => exact ih (base_handle_le (Timers.deadline_of_nextWrap hw).2 h)
  | case2 run _ => exact h i

namespace Timers

/-! ### What a register write does -/

/-- What a write can make of a timer whose counter has been made exact: nothing, another
reload value, or another control register. -/
inductive Rewritten (cycle : Nat) (value mask : Half) (synced : Timer) : Timer → Prop where
  | kept : Rewritten cycle value mask synced synced
  | reload : Rewritten cycle value mask synced (synced.writeReload value mask)
  | control : Rewritten cycle value mask synced (synced.writeControl cycle value mask)

/-- A write where no timer has registers changes nothing. Any other write makes every
counter exact, rewrites at most one register, and derives every deadline again. -/
theorem get_writeRegister (t : Timers) (offset : Nat) (value mask : Half) :
    (t.writeRegister offset value mask).2 = t ∨
      ∀ i : TimerId, ∃ timer,
        Rewritten t.cycle value mask ((t.get i).sync (i.val == 0) t.cycle) timer ∧
          (t.writeRegister offset value mask).2.get i = timer.reschedule (i.val == 0) := by
  unfold writeRegister
  split
  · exact .inl rfl
  · -- A write first makes every timer exact, then sets one, then plans all again.
    next k _ =>
    refine .inr fun i => ?_
    have hsynced : t.syncAll.get i = (t.get i).sync (i.val == 0) t.cycle := get_mapTimers ..
    refine ⟨_, ?_, get_mapTimers ..⟩
    rw [get_set]
    split
    · next hki =>
      subst hki
      rw [hsynced]
      split
      · exact .reload
      · exact .control
    · -- The other timers are only made exact.
      rw [hsynced]
      exact .kept

/-- A write takes no time. -/
theorem cycle_writeRegister (t : Timers) (offset : Nat) (value mask : Half) :
    (t.writeRegister offset value mask).2.cycle = t.cycle := by
  unfold writeRegister
  split <;> rfl

/-- Time passes by the cycles of a step. -/
theorem cycle_step (t : Timers) (interrupts : InterruptController) (elapsed : Nat) :
    (t.step interrupts elapsed).timers.cycle = t.cycle + elapsed :=
  TimerRun.cycle_advance ..

/-! ### Reachable states -/

/-- The states that steps and register writes lead to from blank timers. -/
inductive Reachable : Timers → Prop where
  | blank : Reachable {}
  | step {t : Timers} (interrupts : InterruptController) (elapsed : Nat) :
      Reachable t → Reachable (t.step interrupts elapsed).timers
  | write {t : Timers} (offset : Nat) (value mask : Half) :
      Reachable t → Reachable (t.writeRegister offset value mask).2

/-- Making a counter exact moves `base` to the start of the tick in progress, which is not
past the clock. -/
theorem base_sync_le {timer : Timer} {isFirst : Bool} {cycle : Nat} (h : timer.base ≤ cycle) :
    (timer.sync isFirst cycle).base ≤ cycle := by
  unfold Timer.sync
  split
  · have := Nat.div_mul_le_self (cycle - timer.base) timer.control.prescaler
    simp only [Timer.ticksUntil]
    omega
  · exact h

/-- A rewritten timer counts from where it did, or from now. -/
theorem Rewritten.base_le {cycle : Nat} {value mask : Half} {synced timer : Timer}
    (h : Rewritten cycle value mask synced timer) (hle : synced.base ≤ cycle) :
    timer.base ≤ cycle := by
  cases h with
  | kept => exact hle
  | reload => exact hle
  | control =>
    simp only [Timer.writeControl]
    split
    · exact Nat.le_refl _
    · exact hle

/-- No timer counts from a cycle that is still to come. -/
theorem Reachable.base_le_cycle {t : Timers} (h : t.Reachable) (i : TimerId) :
    (t.get i).base ≤ t.cycle := by
  induction h generalizing i with
  | blank => decide +revert
  | @step t interrupts elapsed _ ih =>
    rw [cycle_step]
    -- A wrap may put `base` past the old clock, but not past the new one.
    refine TimerRun.base_advance_le (fun j => ?_) i
    exact Nat.le_trans (ih j) (Nat.le_add_right _ _)
  | @write t offset value mask _ ih =>
    rw [cycle_writeRegister]
    rcases t.get_writeRegister offset value mask with hkept | hall
    · rw [hkept]
      exact ih i
    · obtain ⟨timer, hwritten, hget⟩ := hall i
      rw [hget]
      exact hwritten.base_le (base_sync_le (ih i))

end Timers

end AdvanceCore
