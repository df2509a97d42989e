import AdvanceCore.Proofs.Timers.Reachable

/-!
# `AdvanceCore.Proofs.Timers.RegisterWrites`: what a write does to a running counter

A register write makes every counter exact first, so that the ticks of the old rate stay
counted. What it leaves behind is the part of `base` that no tick accounts for
(`Timer.uncounted`): the tick in progress of a timer on its own clock, and all cycles since
its last start or wrap of a timer that cascaded. `base` keeps this part, and the new
control register reads it at the new rate.

* `counterAt_resumed`: a timer that goes on under other controls leaps by the uncounted
  cycles, divided by the new prescaler.
* `counter_writeRegister_eq_iff`: the exact condition under which a write that does not
  start a timer leaves its live counter alone. The timer is not on its own clock after
  the write, or the leap is a multiple of the counter's range.
* `not_writes_transparent`: the condition can fail. A faster prescaler and a cleared
  cascade bit both make a counter leap.
-/

set_option autoImplicit false

namespace AdvanceCore

namespace Timer

/-- The cycles since `base` that no counted tick accounts for. -/
def uncounted (t : Timer) (isFirst : Bool) (cycle : Nat) : Nat :=
  if t.isFreeRunning isFirst then t.phase cycle else cycle - t.base

/-- The ticks that are counted at once when a timer goes on as `after`. -/
def leap (before after : Timer) (isFirst : Bool) (cycle : Nat) : Nat :=
  if after.isFreeRunning isFirst then
    before.uncounted isFirst cycle / after.control.prescaler
  else 0

/-- Synchronising leaves the control register. -/
theorem control_sync (t : Timer) (isFirst : Bool) (cycle : Nat) :
    (t.sync isFirst cycle).control = t.control := by
  unfold sync
  split <;> rfl

/-- An exact counter shows what was live. -/
theorem counter_sync (t : Timer) (isFirst : Bool) (cycle : Nat) :
    (t.sync isFirst cycle).counter = t.counterAt isFirst cycle := by
  unfold sync
  split
  · rfl
  · next h => rw [counterAt, if_neg h]

/-- After it, the cycles since `base` are those that no tick accounts for. -/
theorem sub_base_sync (t : Timer) (isFirst : Bool) (cycle : Nat) :
    cycle - (t.sync isFirst cycle).base = t.uncounted isFirst cycle := by
  unfold sync uncounted
  split
  · -- Whole ticks have gone into the counter. The remainder is the tick in progress.
    show cycle - (t.base + (cycle - t.base) / t.control.prescaler * t.control.prescaler) = _
    rw [← Nat.sub_sub, phase, Nat.mod_eq_sub_div_mul]
  · rfl

/-- The tick in progress is not over at the same rate. -/
theorem phase_div_prescaler (t : Timer) (cycle : Nat) :
    t.phase cycle / t.control.prescaler = 0 :=
  Nat.div_eq_of_lt (Nat.mod_lt _ t.control.prescaler_pos)

/-- A timer leaps only if its rate or its clock changes. -/
theorem leap_of_control_eq {before after : Timer} (h : after.control = before.control)
    (isFirst : Bool) (cycle : Nat) : before.leap after isFirst cycle = 0 := by
  unfold leap uncounted isFreeRunning
  rw [h]
  split
  · exact before.phase_div_prescaler cycle
  · rfl

/-- A timer that goes on from an exact counter under other controls leaps. -/
theorem counterAt_resumed {before after : Timer} {isFirst : Bool} {cycle : Nat}
    (hcounter : after.counter = (before.sync isFirst cycle).counter)
    (hbase : after.base = (before.sync isFirst cycle).base) :
    after.counterAt isFirst cycle =
      before.counterAt isFirst cycle + BitVec.ofNat 16 (before.leap after isFirst cycle) := by
  rw [← counter_sync before, ← hcounter, counterAt, leap]
  split
  · rw [ticksUntil, hbase, sub_base_sync]
  · exact (BitVec.add_zero _).symm

/-- A control write that does not start a timer leaves its counter and `base` alone. -/
theorem writeControl_of_not_start {t : Timer} {cycle : Nat} {value mask : Half}
    (h : ¬ (t.control.started = false ∧ (t.writeControl cycle value mask).control.started = true)) :
    (t.writeControl cycle value mask).counter = t.counter ∧
      (t.writeControl cycle value mask).base = t.base := by
  simp only [writeControl] at h ⊢
  split
  · next hstart =>
    rw [if_pos hstart] at h
    rw [Bool.and_eq_true, Bool.not_eq_true'] at hstart
    exact absurd hstart h
  · exact ⟨rfl, rfl⟩

end Timer

namespace Timers

/-- A write that does not start a timer makes it leap. -/
theorem counter_writeRegister (t : Timers) (offset : Nat) (value mask : Half) (i : TimerId)
    (hstart : ¬ ((t.get i).control.started = false ∧
      ((t.writeRegister offset value mask).2.get i).control.started = true)) :
    (t.writeRegister offset value mask).2.counter i = t.counter i +
      BitVec.ofNat 16 ((t.get i).leap ((t.writeRegister offset value mask).2.get i)
        (i.val == 0) t.cycle) := by
  rcases t.get_writeRegister offset value mask with hkept | hall
  · rw [hkept, Timer.leap_of_control_eq rfl]
    exact (BitVec.add_zero _).symm
  · obtain ⟨timer, hwritten, hget⟩ := hall i
    rw [counter, counter, cycle_writeRegister]
    rw [hget] at hstart ⊢
    -- A deadline is no part of the live counter.
    show timer.counterAt (i.val == 0) t.cycle = _ + BitVec.ofNat 16 ((t.get i).leap timer _ _)
    cases hwritten with
    | kept => exact Timer.counterAt_resumed rfl rfl
    | reload => exact Timer.counterAt_resumed rfl rfl
    | control =>
      -- Making the counter exact kept the start bit, so this is no start either.
      rw [← Timer.control_sync (t.get i) (i.val == 0) t.cycle] at hstart
      obtain ⟨hcounter, hbase⟩ := Timer.writeControl_of_not_start hstart
      exact Timer.counterAt_resumed hcounter hbase

/-- Adding ticks to a counter changes nothing exactly if they go round. -/
theorem add_ofNat_eq_self_iff (counter : Half) (n : Nat) :
    counter + BitVec.ofNat 16 n = counter ↔ 0x10000 ∣ n := by
  rw [← BitVec.toNat_inj, BitVec.toNat_add, BitVec.toNat_ofNat]
  have := counter.isLt
  omega

/-- **What a write does to a live counter.** In every reachable state, and for every write
that does not start timer `i`, the counter of timer `i` shows the same before and after
the write exactly if the timer is not on its own clock after it, or the cycles that no tick
accounts for make a whole number of rounds of the counter at the new rate. A timer that
was on its own clock has less than one tick of its old rate uncounted, one that cascaded
has all the cycles since `base`. -/
theorem counter_writeRegister_eq_iff {t : Timers} (h : t.Reachable) (offset : Nat)
    (value mask : Half) (i : TimerId)
    (hstart : ¬ ((t.get i).control.started = false ∧
      ((t.writeRegister offset value mask).2.get i).control.started = true)) :
    (t.get i).base ≤ t.cycle ∧
      ((t.writeRegister offset value mask).2.counter i = t.counter i ↔
        (((t.writeRegister offset value mask).2.get i).isFreeRunning (i.val == 0) = true →
          0x10000 ∣ (if (t.get i).isFreeRunning (i.val == 0) then
              (t.cycle - (t.get i).base) % (t.get i).control.prescaler
            else t.cycle - (t.get i).base) /
              ((t.writeRegister offset value mask).2.get i).control.prescaler)) := by
  refine ⟨h.base_le_cycle i, ?_⟩
  rw [counter_writeRegister t offset value mask i hstart, add_ofNat_eq_self_iff, Timer.leap]
  constructor
  · intro hdvd hfree
    rw [if_pos hfree] at hdvd
    exact hdvd
  · intro hdvd
    split
    · next hfree => exact hdvd hfree
    · exact Nat.dvd_zero _

/-! ### A counter that leaps -/

/-- Timer 0 started at its slowest rate, and timer 1 started to cascade. -/
def slowAndCascading : Timers :=
  ((({} : Timers).writeRegister 2 0x0083 0xFFFF).2.writeRegister 6 0x0084 0xFFFF).2

/-- The same timers 1000 cycles later, within the first tick. -/
def midTick : Timers := { slowAndCascading with cycle := 1000 }

/-- Three writes and a step lead there. -/
theorem midTick_reachable : midTick.Reachable := by
  have hnext : slowAndCascading.nextWrap 1000 = none := by decide
  have hstep : (slowAndCascading.step {} 1000).timers = midTick := by
    rw [step]
    exact congrArg TimerRun.timers (TimerRun.advance_of_nextWrap_eq_none hnext)
  rw [← hstep]
  exact ((Reachable.blank.write _ _ _).write _ _ _).step _ _

/-- Clearing the cascade bit of timer 1 makes its counter leap by all the cycles since it
was started. -/
theorem counter_leaps_on_cleared_cascade :
    midTick.Reachable ∧
      ¬ ((midTick.get 1).control.started = false ∧
        ((midTick.writeRegister 6 0x0080 0xFFFF).2.get 1).control.started = true) ∧
      (midTick.writeRegister 6 0x0080 0xFFFF).2.counter 1 ≠ midTick.counter 1 := by
  have hstart : ¬ ((midTick.get 1).control.started = false ∧
      ((midTick.writeRegister 6 0x0080 0xFFFF).2.get 1).control.started = true) := by decide
  refine ⟨midTick_reachable, hstart, fun hsame => ?_⟩
  have hround := (counter_writeRegister_eq_iff midTick_reachable 6 0x0080 0xFFFF 1 hstart).2.mp
    hsame (by decide)
  revert hround
  decide

/-- Writes are not transparent to running counters. A faster prescaler reads the tick in
progress of timer 0 as a thousand ticks. -/
theorem not_writes_transparent :
    ¬ ∀ t : Timers, t.Reachable → ∀ offset, offset < 16 → ∀ (value mask : Half) (i : TimerId),
      ¬ ((t.get i).control.started = false ∧
        ((t.writeRegister offset value mask).2.get i).control.started = true) →
      (t.writeRegister offset value mask).2.counter i = t.counter i := by
  intro h
  have hsame := h midTick midTick_reachable 2 (by decide) 0x0080 0xFFFF 0 (by decide)
  revert hsame
  decide

end Timers

end AdvanceCore
