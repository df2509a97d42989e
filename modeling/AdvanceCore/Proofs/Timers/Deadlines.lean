import AdvanceCore.Proofs.Timers.TickByTick
import AdvanceCore.Proofs.Timers.Reachable

/-!
# `AdvanceCore.Proofs.Timers.Deadlines`: no deadline is stale

The deadline of a timer is redundant: it follows from `base`, the counter and the control
register (`Timer.Scheduled`). Writes, wraps and the counting of wraps change these three in
different places, and the deadline has to follow each of them.

* `Counted.scheduled`: a counted wrap changes a counter and leaves the deadline alone. That
  is right because only a cascading timer counts wraps, and it has no deadline.
* `scheduled_handle`: a handled wrap leaves every timer scheduled, so that no round of
  `TimerRun.advance` starts from a stale deadline.
* `Reachable.scheduled`: so does every step and every register write.
* `deadline_eq_of_reachable`: what the deadlines of a reachable state are.
-/

set_option autoImplicit false

namespace AdvanceCore

namespace Timer

/-- The deadline is the one that the other fields give. -/
def Scheduled (t : Timer) (isFirst : Bool) : Prop :=
  t.deadline = if t.isFreeRunning isFirst then some t.nextWrap else none

instance (t : Timer) (isFirst : Bool) : Decidable (t.Scheduled isFirst) :=
  inferInstanceAs (Decidable (_ = _))

/-- A new deadline is the right one. -/
theorem scheduled_reschedule (t : Timer) (isFirst : Bool) :
    (t.reschedule isFirst).Scheduled isFirst := rfl

/-- Counting a wrap outdates no deadline. -/
theorem Counted.scheduled {isFirst : Bool} {before after : Timer}
    (h : before.Counted isFirst after) (hbefore : before.Scheduled isFirst) :
    after.Scheduled isFirst := by
  obtain ⟨⟨c, hc⟩, hkeep⟩ := h
  cases hcascading : before.isCascading isFirst with
  | false =>
    rw [hkeep hcascading]
    exact hbefore
  | true =>
    -- The counter is another one, but no deadline is derived from it.
    have hfree := isFreeRunning_of_isCascading hcascading
    subst hc
    rw [Scheduled, hfree] at hbefore
    show before.deadline = if before.isFreeRunning isFirst = true then _ else _
    rw [hfree]
    exact hbefore

/-- A timer is on its own clock if it is started and counts no other timer's wraps. -/
theorem isFreeRunning_iff (t : Timer) (i : TimerId) :
    t.isFreeRunning (i.val == 0) = true ↔
      t.control.started = true ∧ (0 < i.val → t.control.cascades = false) := by
  rw [isFreeRunning, Bool.and_eq_true, Bool.not_eq_true', Bool.and_eq_false_imp,
    Bool.not_eq_false', beq_iff_eq]
  refine and_congr_right fun _ => ⟨fun h hpos => ?_, fun h hcascades => ?_⟩
  · cases hcascades : t.control.cascades with
    | false => rfl
    | true => exact absurd (h hcascades) (Nat.ne_of_gt hpos)
  · rcases Nat.eq_zero_or_pos i.val with hzero | hpos
    · exact hzero
    · rw [h hpos] at hcascades
      cases hcascades

end Timer

namespace TimerRun

/-- A handled wrap leaves every timer scheduled: the one that wraps, those that count it,
and all others. -/
theorem scheduled_handle {run : TimerRun} (w : Wrap)
    (h : ∀ i, (run.timers.get i).Scheduled (i.val == 0)) (i : TimerId) :
    ((run.handle w).timers.get i).Scheduled (i.val == 0) := by
  have hcounted := (run.rearm w).counted_overflow w.timer i
  rw [handle_eq]
  refine hcounted.scheduled ?_
  rw [get_rearm]
  split
  · next hi =>
    subst hi
    exact Timer.scheduled_reschedule _ _
  · exact h i

/-- So does an advance, whatever wraps it handles. -/
theorem scheduled_advance {run : TimerRun} {target : Nat}
    (h : ∀ i, (run.timers.get i).Scheduled (i.val == 0)) (i : TimerId) :
    ((run.advance target).timers.get i).Scheduled (i.val == 0) := by
  fun_induction advance run target with
  | case1 run w _ ih => exact ih (scheduled_handle w h)
  | case2 run _ => exact h i

end TimerRun

namespace Timers

/-- The deadlines of a reachable state follow from its other fields. -/
theorem Reachable.scheduled {t : Timers} (h : t.Reachable) (i : TimerId) :
    (t.get i).Scheduled (i.val == 0) := by
  induction h generalizing i with
  | blank => decide +revert
  | step interrupts elapsed _ ih => exact TimerRun.scheduled_advance ih i
  | @write t offset value mask _ ih =>
    rcases t.get_writeRegister offset value mask with hkept | hall
    · rw [hkept]
      exact ih i
    · obtain ⟨timer, -, hget⟩ := hall i
      rw [hget]
      exact Timer.scheduled_reschedule _ _

/-- **No deadline is stale.** In every state that steps and register writes lead to, each
timer counts from a cycle that is not to come. It has a deadline exactly if it is started
and, unless it is the first, does not cascade. The deadline is then where the ticks that its
counter still lacks end. -/
theorem deadline_eq_of_reachable {t : Timers} (h : t.Reachable) (i : TimerId) :
    (t.get i).base ≤ t.cycle ∧
      (t.get i).deadline =
        if (t.get i).control.started = true ∧
            (0 < i.val → (t.get i).control.cascades = false) then
          some ((t.get i).base +
            (0x10000 - (t.get i).counter.toNat) * (t.get i).control.prescaler)
        else none := by
  refine ⟨h.base_le_cycle i, ?_⟩
  have hscheduled := h.scheduled i
  rw [Timer.Scheduled] at hscheduled
  rw [hscheduled]
  simp only [Timer.isFreeRunning_iff, Timer.nextWrap]

/-- Timer 0 wraps every second cycle. Timer 1 wraps with each of its wraps. -/
def paired : Timers :=
  ((((({} : Timers).writeRegister 0 0xFFFE 0xFFFF).2.writeRegister 2 0x0080 0xFFFF).2.writeRegister
    4 0xFFFF 0xFFFF).2.writeRegister 6 0x0084 0xFFFF).2

/-- A step handles the first wrap, at cycle 2. It starts timer 0 over, to wrap again at
cycle 4, and timer 1 still has no deadline of its own after it has wrapped with timer 0. -/
theorem deadline_eq_of_reachable_paired :
    (paired.step {} 3).timers.Reachable ∧
      ((paired.step {} 3).timers.get 0).deadline = some 4 ∧
      ((paired.step {} 3).timers.get 1).deadline = none := by
  have hreachable : (paired.step {} 3).timers.Reachable :=
    ((((Reachable.blank.write _ _ _).write _ _ _).write _ _ _).write _ _ _).step _ _
  refine ⟨hreachable, ?_, ?_⟩
  · rw [(deadline_eq_of_reachable hreachable 0).2]
    decide +kernel
  · rw [(deadline_eq_of_reachable hreachable 1).2]
    decide +kernel

end Timers

end AdvanceCore
