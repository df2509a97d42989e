import AdvanceCore.Proofs.Timers.Reachable

/-!
# `AdvanceCore.Proofs.Timers.TickByTick`: timers that are moved every cycle

The timers jump from wrap to wrap. The textbook timer does not: each cycle it advances the
phase of every timer on its own clock, ticks the counter when the phase reaches the
prescaler, and on a wrap starts over and lets the next timer count. This file defines the
textbook timers (`TickedRun`) and proves that the jumps come to the same.

* `WellFormed`: what the comparison asks of a state. Every timer on its own clock has its
  next wrap ahead of it, with the deadline to match, and no other timer has a deadline.
* `step_refines_ticks`: a step of `n` cycles from a well-formed state is `n` textbook
  cycles. Live counters, phases, interrupts and the order of the reports agree.

## The shape of the proof

An advance can be interrupted at every cycle (`TimerRun.advance_advance`), so one cycle is
enough. Within one cycle the loop visits the timers in order
(`TimerRun.advance_eq_foldl`), as the textbook does, but only those that wrap. The two are
compared timer by timer, so in the middle of a cycle some timers are read at the old cycle
and some at the new one: `TimerRun.ticked` takes the cycle to read each timer at.
-/

set_option autoImplicit false

namespace AdvanceCore

/-! ### The textbook timers -/

/-- A timer that is moved every cycle. -/
structure TickedTimer where
  reload : Half
  control : TimerControl
  counter : Half
  /-- The cycles spent on the tick in progress. -/
  phase : Nat

/-- Whether a timer counts on its own clock. -/
def TickedTimer.runs (t : TickedTimer) (isFirst : Bool) : Bool :=
  t.control.started && (isFirst || !t.control.cascades)

/-- Four timers that are moved every cycle, with what their wraps have brought about. -/
structure TickedRun where
  timers : TimerId → TickedTimer
  interrupts : InterruptController
  reports : Array SoundTimerId := #[]

namespace TickedRun

/-- Replaces one of the timers. -/
def set (run : TickedRun) (i : TimerId) (timer : TickedTimer) : TickedRun :=
  { run with timers := fun j => if i = j then timer else run.timers j }

/-- Requests the interrupt of a timer that wraps, and reports one of the first two. -/
def announce (run : TickedRun) (i : TimerId) : TickedRun :=
  let interrupts :=
    if (run.timers i).control.interrupts then run.interrupts.raise (.timer i)
    else run.interrupts
  { run with
    interrupts := interrupts
    reports := if h : i.val < 2 then run.reports.push ⟨i.val, h⟩ else run.reports }

/-- Ticks a timer. From its last value it starts over, and the next timer ticks if it is
started and cascades. -/
def tick (run : TickedRun) (i : TimerId) : TickedRun :=
  let timer := run.timers i
  if timer.counter = 0xFFFF then
    let run := (run.set i { timer with counter := timer.reload }).announce i
    if h : i.val + 1 < 4 then
      let next : TimerId := ⟨i.val + 1, h⟩
      if (run.timers next).control.started && (run.timers next).control.cascades then
        run.tick next
      else run
    else run
  else run.set i { timer with counter := timer.counter + 1 }
termination_by 3 - i.val

/-- Moves a timer by one cycle of its own clock. -/
def cycleTimer (run : TickedRun) (i : TimerId) : TickedRun :=
  let timer := run.timers i
  if timer.runs (i.val == 0) then
    if timer.phase + 1 = timer.control.prescaler then
      (run.set i { timer with phase := 0 }).tick i
    else run.set i { timer with phase := timer.phase + 1 }
  else run

/-- Moves the timers by one cycle, in order. -/
def cycle (run : TickedRun) : TickedRun :=
  (List.finRange 4).foldl cycleTimer run

/-- Moves the timers by a number of cycles. -/
def cycles (run : TickedRun) : Nat → TickedRun
  | 0 => run
  | n + 1 => (run.cycles n).cycle

/-- A timer that does not run lets the cycle pass. -/
theorem cycleTimer_of_not_runs {run : TickedRun} {i : TimerId}
    (h : (run.timers i).runs (i.val == 0) = false) : run.cycleTimer i = run := by
  rw [cycleTimer, h]
  rfl

/-- Between its ticks a timer only moves on in its phase. -/
theorem cycleTimer_of_phase_ne {run : TickedRun} {i : TimerId}
    (h : (run.timers i).runs (i.val == 0) = true)
    (hphase : (run.timers i).phase + 1 ≠ (run.timers i).control.prescaler) :
    run.cycleTimer i = run.set i { run.timers i with phase := (run.timers i).phase + 1 } := by
  rw [cycleTimer, if_pos h, if_neg hphase]

/-- At the end of its phase it ticks. -/
theorem cycleTimer_of_phase_eq {run : TickedRun} {i : TimerId}
    (h : (run.timers i).runs (i.val == 0) = true)
    (hphase : (run.timers i).phase + 1 = (run.timers i).control.prescaler) :
    run.cycleTimer i = (run.set i { run.timers i with phase := 0 }).tick i := by
  rw [cycleTimer, if_pos h, if_pos hphase]

/-- What follows when a timer has started over. -/
def afterWrap (run : TickedRun) (i : TimerId) : TickedRun :=
  let run := run.announce i
  if h : i.val + 1 < 4 then
    let next : TimerId := ⟨i.val + 1, h⟩
    if (run.timers next).control.started && (run.timers next).control.cascades then
      run.tick next
    else run
  else run

/-- The next timer ticks after a wrap if it is started and cascades. -/
theorem afterWrap_of_lt {run : TickedRun} {i : TimerId} (h : i.val + 1 < 4) :
    run.afterWrap i =
      if (run.timers ⟨i.val + 1, h⟩).control.started &&
          (run.timers ⟨i.val + 1, h⟩).control.cascades then
        (run.announce i).tick ⟨i.val + 1, h⟩
      else run.announce i :=
  dif_pos h

/-- Nobody counts the wraps of the last timer. -/
theorem afterWrap_of_not_lt {run : TickedRun} {i : TimerId} (h : ¬ i.val + 1 < 4) :
    run.afterWrap i = run.announce i :=
  dif_neg h

/-- A tick at the last value reloads the counter, and is a wrap. -/
theorem tick_of_counter_eq {run : TickedRun} {i : TimerId}
    (h : (run.timers i).counter = 0xFFFF) :
    run.tick i =
      (run.set i { run.timers i with counter := (run.timers i).reload }).afterWrap i := by
  rw [tick]
  exact if_pos h

/-- Any other tick counts. -/
theorem tick_of_counter_ne {run : TickedRun} {i : TimerId}
    (h : (run.timers i).counter ≠ 0xFFFF) :
    run.tick i = run.set i { run.timers i with counter := (run.timers i).counter + 1 } := by
  rw [tick]
  exact if_neg h

/-- Of two timers set in one place the second one stays. -/
theorem set_set (run : TickedRun) (i : TimerId) (first second : TickedTimer) :
    (run.set i first).set i second = run.set i second := by
  simp only [set]
  congr 1
  funext j
  split <;> rfl

/-- Setting a timer to itself changes nothing. -/
theorem set_timers_self (run : TickedRun) (i : TimerId) : run.set i (run.timers i) = run := by
  simp only [set]
  congr 1
  funext j
  split
  · next h => rw [h]
  · rfl

/-- A timer that is set is there. -/
theorem timers_set_self (run : TickedRun) (i : TimerId) (timer : TickedTimer) :
    (run.set i timer).timers i = timer :=
  if_pos rfl

end TickedRun

/-! ### Reading a timer as a textbook timer -/

namespace Timer

/-- A timer as it is at a cycle. -/
def ticked (t : Timer) (isFirst : Bool) (cycle : Nat) : TickedTimer where
  reload := t.reload
  control := t.control
  counter := t.counterAt isFirst cycle
  phase := if t.isFreeRunning isFirst then t.phase cycle else 0

/-- A timer on its own clock has its next wrap ahead of it and the deadline to match. Any
other timer has no deadline. -/
def WellFormed (t : Timer) (isFirst : Bool) (cycle : Nat) : Prop :=
  if t.isFreeRunning isFirst then
    t.base ≤ cycle ∧ cycle < t.nextWrap ∧ t.deadline = some t.nextWrap
  else t.deadline = none

/-- Reading a timer as a textbook timer keeps whether it runs. -/
theorem runs_ticked (t : Timer) (isFirst : Bool) (cycle : Nat) :
    (t.ticked isFirst cycle).runs isFirst = t.isFreeRunning isFirst := by
  rw [isFreeRunning, Bool.not_and, Bool.not_not, Bool.or_comm]
  rfl

instance (t : Timer) (isFirst : Bool) (cycle : Nat) : Decidable (t.WellFormed isFirst cycle) :=
  inferInstanceAs (Decidable (if t.isFreeRunning isFirst then
    t.base ≤ cycle ∧ cycle < t.nextWrap ∧ t.deadline = some t.nextWrap else t.deadline = none))

/-- The deadline of a well-formed timer lies ahead. -/
theorem WellFormed.lt_deadline {t : Timer} {isFirst : Bool} {cycle d : Nat}
    (h : t.WellFormed isFirst cycle) (hd : t.deadline = some d) : cycle < d := by
  rw [WellFormed] at h
  split at h
  · obtain ⟨-, hlt, hdeadline⟩ := h
    rw [hd] at hdeadline
    cases hdeadline
    exact hlt
  · rw [hd] at h
    cases h

/-- A timer that is not on its own clock stands still between wraps. -/
theorem ticked_of_not_isFreeRunning {t : Timer} {isFirst : Bool}
    (h : t.isFreeRunning isFirst = false) (cycle : Nat) :
    t.ticked isFirst cycle = ⟨t.reload, t.control, t.counter, 0⟩ := by
  simp [ticked, counterAt, h]

/-- Any timer but the first cascades if its control register says so. -/
theorem isCascading_false (t : Timer) :
    t.isCascading false = (t.control.started && t.control.cascades) := by
  rw [isCascading, Bool.not_false, Bool.and_true]

/-- A timer that cascades does not run freely. -/
theorem isFreeRunning_of_isCascading {t : Timer} {isFirst : Bool}
    (h : t.isCascading isFirst = true) : t.isFreeRunning isFirst = false := by
  unfold isCascading at h
  unfold isFreeRunning
  revert h
  cases t.control.started <;> cases t.control.cascades <;> cases isFirst <;> decide

/-- Counting wraps does not concern a timer on its own clock, and touches no deadline. -/
theorem Counted.wellFormed {isFirst : Bool} {before after : Timer} {cycle : Nat}
    (h : before.Counted isFirst after) (hwf : before.WellFormed isFirst cycle) :
    after.WellFormed isFirst cycle := by
  obtain ⟨⟨c, hc⟩, hkeep⟩ := h
  cases hcascading : before.isCascading isFirst with
  | false =>
    rw [hkeep hcascading]
    exact hwf
  | true =>
    have hfree := isFreeRunning_of_isCascading hcascading
    subst hc
    rw [WellFormed, hfree] at hwf
    show (if before.isFreeRunning isFirst = true then _ else _)
    rw [hfree]
    exact hwf

end Timer

/-- The run, with timer `i` as it is at the cycle `time i`. -/
def TimerRun.ticked (run : TimerRun) (time : TimerId → Nat) : TickedRun where
  timers := fun i => (run.timers.get i).ticked (i.val == 0) (time i)
  interrupts := run.interrupts
  reports := run.reports

namespace TimerRun

/-- Setting a timer sets its reading. -/
theorem ticked_set (run : TimerRun) (time : TimerId → Nat) (i : TimerId) (timer : Timer) :
    { run with timers := run.timers.set i timer : TimerRun }.ticked time =
      (run.ticked time).set i (timer.ticked (i.val == 0) (time i)) := by
  simp only [ticked, TickedRun.set]
  congr 1
  funext j
  rw [Timers.get_set]
  split
  · next h =>
    subst h
    rfl
  · rfl

/-- A wrap is announced in the same way on both sides. -/
theorem ticked_announce (run : TimerRun) (time : TimerId → Nat) (i : TimerId) :
    (run.announce i).ticked time = (run.ticked time).announce i := rfl

/-- A cascading timer, with any counter, reads the same at every cycle. -/
theorem ticked_of_isCascading {t : Timer} {i : TimerId} (hi : i.val ≠ 0)
    (h : t.isCascading false = true) {c : Half} {cycle : Nat} :
    ({ t with counter := c } : Timer).ticked (i.val == 0) cycle =
      ⟨t.reload, t.control, c, 0⟩ := by
  rw [beq_false_of_ne hi]
  have hfree : ({ t with counter := c } : Timer).isFreeRunning false = false :=
    Timer.isFreeRunning_of_isCascading h
  rw [Timer.ticked_of_not_isFreeRunning hfree]

/-- A cascading timer reads as it is, and has no phase. -/
theorem timers_ticked_of_isCascading (run : TimerRun) (time : TimerId → Nat) (i : TimerId)
    (hi : i.val ≠ 0) (h : (run.timers.get i).isCascading false = true) :
    (run.ticked time).timers i =
      ⟨(run.timers.get i).reload, (run.timers.get i).control, (run.timers.get i).counter, 0⟩ :=
  ticked_of_isCascading hi h

/-- The effects of a wrap are those of the textbook: they only move timers that are the
same at every cycle. -/
theorem ticked_overflow (run : TimerRun) (time : TimerId → Nat) (i : TimerId) :
    (run.overflow i).ticked time = (run.ticked time).afterWrap i := by
  -- One case for each way a wrap can end: the next timer wraps in turn, it only counts, it
  -- does not cascade, or there is none.
  fun_induction overflow run i with
  | case1 run i run' h next timer hcascading hwraps ih =>
    have hnext := timers_ticked_of_isCascading run' time next (Nat.succ_ne_zero _) hcascading
    rw [ih, ticked_set, ticked_of_isCascading (Nat.succ_ne_zero _) hcascading,
      TickedRun.afterWrap_of_lt h, if_pos (Timer.isCascading_false timer ▸ hcascading),
      ← ticked_announce, TickedRun.tick_of_counter_eq (by rw [hnext]; exact hwraps), hnext]
  | case2 run i run' h next timer hcascading hwraps =>
    have hnext := timers_ticked_of_isCascading run' time next (Nat.succ_ne_zero _) hcascading
    rw [ticked_set, ticked_of_isCascading (Nat.succ_ne_zero _) hcascading,
      TickedRun.afterWrap_of_lt h, if_pos (Timer.isCascading_false timer ▸ hcascading),
      ← ticked_announce, TickedRun.tick_of_counter_ne (by rw [hnext]; exact hwraps), hnext]
  | case3 run i run' h next timer hcascading =>
    rw [TickedRun.afterWrap_of_lt h, if_neg (Timer.isCascading_false timer ▸ hcascading)]
    rfl
  | case4 run i run' h =>
    rw [TickedRun.afterWrap_of_not_lt h]
    rfl

end TimerRun

/-! ### One cycle of one timer -/

namespace Timer

/-- A cycle that ends a tick counts it and begins the next one. -/
theorem ticksUntil_succ_of_phase_eq {t : Timer} {cycle : Nat} (hle : t.base ≤ cycle)
    (hphase : t.phase cycle + 1 = t.control.prescaler) :
    t.ticksUntil (cycle + 1) = t.ticksUntil cycle + 1 ∧ t.phase (cycle + 1) = 0 := by
  have hsplit := Nat.div_add_mod (cycle - t.base) t.control.prescaler
  have helapsed : cycle + 1 - t.base = t.control.prescaler * (t.ticksUntil cycle + 1) := by
    rw [phase] at hphase
    rw [ticksUntil, Nat.mul_add, Nat.mul_one]
    omega
  constructor
  · rw [ticksUntil, helapsed, Nat.mul_div_cancel_left _ t.control.prescaler_pos]
  · rw [phase, helapsed, Nat.mul_mod_right]

/-- Any other cycle goes on with the tick in progress. -/
theorem ticksUntil_succ_of_phase_ne {t : Timer} {cycle : Nat} (hle : t.base ≤ cycle)
    (hphase : t.phase cycle + 1 ≠ t.control.prescaler) :
    t.ticksUntil (cycle + 1) = t.ticksUntil cycle ∧
      t.phase (cycle + 1) = t.phase cycle + 1 := by
  have hsplit := Nat.div_add_mod (cycle - t.base) t.control.prescaler
  have hlt : t.phase cycle < t.control.prescaler := Nat.mod_lt _ t.control.prescaler_pos
  have hlt' : t.phase cycle + 1 < t.control.prescaler := by omega
  -- The phase has room for one more cycle, so quotient and remainder can be read off.
  have helapsed : cycle + 1 - t.base =
      t.control.prescaler * t.ticksUntil cycle + (t.phase cycle + 1) := by
    rw [ticksUntil, phase]
    omega
  constructor
  · rw [ticksUntil, helapsed, Nat.mul_add_div t.control.prescaler_pos, Nat.div_eq_of_lt hlt',
      Nat.add_zero]
  · rw [phase, helapsed, Nat.mul_add_mod, Nat.mod_eq_of_lt hlt']

/-- Before the next wrap a timer has fewer ticks behind it than its counter has left. -/
theorem ticksUntil_lt {t : Timer} {cycle : Nat} (hle : t.base ≤ cycle)
    (hlt : cycle < t.nextWrap) : t.ticksUntil cycle < 0x10000 - t.counter.toNat := by
  rw [nextWrap] at hlt
  rw [ticksUntil]
  refine Nat.div_lt_of_lt_mul ?_
  rw [Nat.mul_comm]
  omega

/-- So its live counter has not gone round. -/
theorem toNat_counterAt {t : Timer} {isFirst : Bool} {cycle : Nat}
    (hfree : t.isFreeRunning isFirst = true) (hle : t.base ≤ cycle) (hlt : cycle < t.nextWrap) :
    (t.counterAt isFirst cycle).toNat = t.counter.toNat + t.ticksUntil cycle := by
  have hticks := ticksUntil_lt hle hlt
  rw [counterAt, if_pos hfree, BitVec.toNat_add, BitVec.toNat_ofNat]
  omega

/-- A cycle within a tick only advances the phase. -/
theorem ticked_succ_of_phase_ne {t : Timer} {isFirst : Bool} {cycle : Nat}
    (hfree : t.isFreeRunning isFirst = true) (hle : t.base ≤ cycle)
    (hphase : t.phase cycle + 1 ≠ t.control.prescaler) :
    t.ticked isFirst (cycle + 1) =
      { t.ticked isFirst cycle with phase := (t.ticked isFirst cycle).phase + 1 } := by
  obtain ⟨hticks, hnext⟩ := ticksUntil_succ_of_phase_ne hle hphase
  simp only [ticked, counterAt, if_pos hfree, hticks, hnext]

/-- A cycle that ends a tick counts it. -/
theorem ticked_succ_of_phase_eq {t : Timer} {isFirst : Bool} {cycle : Nat}
    (hfree : t.isFreeRunning isFirst = true) (hle : t.base ≤ cycle)
    (hphase : t.phase cycle + 1 = t.control.prescaler) :
    t.ticked isFirst (cycle + 1) =
      { t.ticked isFirst cycle with
        counter := (t.ticked isFirst cycle).counter + 1, phase := 0 } := by
  obtain ⟨hticks, hnext⟩ := ticksUntil_succ_of_phase_eq hle hphase
  simp only [ticked, counterAt, if_pos hfree, hticks, hnext]
  rw [BitVec.ofNat_add, BitVec.add_assoc]
  rfl

/-- A tick that ends before the next wrap does not end at the last value. -/
theorem counterAt_ne_last {t : Timer} {isFirst : Bool} {cycle : Nat}
    (hfree : t.isFreeRunning isFirst = true) (hle : t.base ≤ cycle)
    (hphase : t.phase cycle + 1 = t.control.prescaler) (hlt : cycle + 1 < t.nextWrap) :
    t.counterAt isFirst cycle ≠ 0xFFFF := by
  have hticks := ticksUntil_lt (Nat.le_succ_of_le hle) hlt
  have hcounter := toNat_counterAt hfree hle (Nat.lt_of_succ_lt hlt)
  rw [(ticksUntil_succ_of_phase_eq hle hphase).1] at hticks
  intro hlast
  have hmax : (t.counterAt isFirst cycle).toNat = 0xFFFF := congrArg BitVec.toNat hlast
  omega

/-- The cycle of a wrap ends a tick, at the last value. -/
theorem of_nextWrap_eq_succ {t : Timer} {isFirst : Bool} {cycle : Nat}
    (hfree : t.isFreeRunning isFirst = true) (hle : t.base ≤ cycle)
    (hwrap : t.nextWrap = cycle + 1) :
    t.phase cycle + 1 = t.control.prescaler ∧ t.counterAt isFirst cycle = 0xFFFF := by
  have hpos := t.control.prescaler_pos
  have hcounter := toNat_counterAt hfree hle (by omega)
  -- Up to the wrap the elapsed cycles are whole ticks, so the phase is back at zero.
  have hwhole : cycle + 1 - t.base = (0x10000 - t.counter.toNat) * t.control.prescaler := by
    rw [nextWrap] at hwrap
    omega
  have hticks : t.ticksUntil (cycle + 1) = 0x10000 - t.counter.toNat := by
    rw [ticksUntil, hwhole, Nat.mul_div_cancel _ hpos]
  have hzero : t.phase (cycle + 1) = 0 := by
    rw [phase, hwhole, Nat.mul_mod_left]
  by_cases hphase : t.phase cycle + 1 = t.control.prescaler
  · refine ⟨hphase, BitVec.eq_of_toNat_eq ?_⟩
    rw [(ticksUntil_succ_of_phase_eq hle hphase).1] at hticks
    have := t.counter.isLt
    show _ = 0xFFFF
    omega
  · -- The phase would go on to a value above zero.
    rw [(ticksUntil_succ_of_phase_ne hle hphase).2] at hzero
    omega

end Timer

/-! ### One cycle of all timers -/

namespace TimerRun

/-- The run, with timer `i` read at the cycle `time i`, is a textbook run. -/
structure Tracks (run : TimerRun) (time : TimerId → Nat) (textbook : TickedRun) : Prop where
  wellFormed : ∀ i, (run.timers.get i).WellFormed (i.val == 0) (time i)
  ticked : run.ticked time = textbook

/-- Moves the cycle to read one timer at. -/
def moved (time : TimerId → Nat) (i : TimerId) (cycle : Nat) : TimerId → Nat :=
  fun j => if i = j then cycle else time j

/-- What is true of one timer at a new cycle, and of the others as before, is true of all
at the cycles moved. -/
theorem wellFormed_moved {t : Timers} {time : TimerId → Nat} {i : TimerId} {cycle : Nat}
    (hself : (t.get i).WellFormed (i.val == 0) cycle)
    (hother : ∀ j, i ≠ j → (t.get j).WellFormed (j.val == 0) (time j)) (j : TimerId) :
    (t.get j).WellFormed (j.val == 0) (moved time i cycle j) := by
  rw [moved]
  split
  · next h =>
    subst h
    exact hself
  · next h => exact hother j h

/-- Reading a timer at another cycle changes its textbook timer. -/
theorem ticked_moved (run : TimerRun) (time : TimerId → Nat) (i : TimerId) (cycle : Nat) :
    run.ticked (moved time i cycle) =
      (run.ticked time).set i ((run.timers.get i).ticked (i.val == 0) cycle) := by
  simp only [ticked, TickedRun.set, moved]
  congr 1
  funext j
  split
  · next h =>
    subst h
    rfl
  · rfl

/-- Reads a timer at a later cycle. -/
theorem Tracks.move {run : TimerRun} {time : TimerId → Nat} {textbook : TickedRun}
    (h : run.Tracks time textbook) {i : TimerId} {cycle : Nat}
    (hwf : (run.timers.get i).WellFormed (i.val == 0) cycle) :
    run.Tracks (moved time i cycle)
      (textbook.set i ((run.timers.get i).ticked (i.val == 0) cycle)) := by
  obtain ⟨hall, rfl⟩ := h
  exact ⟨wellFormed_moved hwf fun j _ => hall j, ticked_moved run time i cycle⟩

/-- The timer of a wrap, at the cycle of the wrap, has just started over. -/
theorem ticked_rearmed (run : TimerRun) (w : Wrap) :
    (run.rearmed w).ticked (w.timer.val == 0) w.cycle =
      { reload := (run.timers.get w.timer).reload
        control := (run.timers.get w.timer).control
        counter := (run.timers.get w.timer).reload
        phase := 0 } := by
  have hticks : (run.rearmed w).ticksUntil w.cycle = 0 := by
    show (w.cycle - w.cycle) / _ = 0
    rw [Nat.sub_self, Nat.zero_div]
  have hphase : (run.rearmed w).phase w.cycle = 0 := by
    show (w.cycle - w.cycle) % _ = 0
    rw [Nat.sub_self, Nat.zero_mod]
  have hcounter : (run.rearmed w).counter = (run.timers.get w.timer).reload := rfl
  simp only [Timer.ticked, Timer.counterAt, hticks, hphase, hcounter, ite_self]
  congr 1
  split
  · exact BitVec.add_zero _
  · rfl

/-- Handling a wrap is the textbook's: the timer starts over, and the effects follow. -/
theorem Tracks.handle {run : TimerRun} {time : TimerId → Nat} {textbook : TickedRun}
    (h : run.Tracks time textbook) {w : Wrap}
    (hfree : (run.timers.get w.timer).isFreeRunning (w.timer.val == 0) = true) :
    (run.handle w).Tracks (moved time w.timer w.cycle)
      ((textbook.set w.timer
        { reload := (run.timers.get w.timer).reload
          control := (run.timers.get w.timer).control
          counter := (run.timers.get w.timer).reload
          phase := 0 }).afterWrap w.timer) := by
  obtain ⟨hall, rfl⟩ := h
  constructor
  · intro j
    -- The effects of the wrap leave a well-formed timer so. It remains to look at the
    -- timers before them.
    refine ((run.rearm w).counted_overflow w.timer j).wellFormed ?_
    refine wellFormed_moved ?_ (fun k hk => ?_) j
    · rw [get_rearm, if_pos rfl]
      have hself : (run.rearmed w).isFreeRunning (w.timer.val == 0) = true := hfree
      rw [Timer.WellFormed, if_pos hself]
      refine ⟨Nat.le_refl _, (run.rearmed w).base_lt_nextWrap, ?_⟩
      exact if_pos hfree
    · rw [get_rearm, if_neg hk]
      exact hall k
  · rw [handle_eq, ticked_overflow, ticked_moved, get_rearm, if_pos rfl, ticked_rearmed,
      rearm, ticked_set, TickedRun.set_set]

/-- A timer that is not on its own clock lets the cycle pass. -/
theorem Tracks.cycleTimer_of_still {run : TimerRun} {time : TimerId → Nat}
    {textbook : TickedRun} (h : run.Tracks time textbook) {i : TimerId}
    (hfree : (run.timers.get i).isFreeRunning (i.val == 0) = false) :
    run.Tracks (moved time i (time i + 1)) (textbook.cycleTimer i) := by
  have hwf : (run.timers.get i).WellFormed (i.val == 0) (time i + 1) := by
    have hnow := h.wellFormed i
    rw [Timer.WellFormed, hfree] at hnow ⊢
    exact hnow
  have hstill : (run.timers.get i).ticked (i.val == 0) (time i + 1) =
      (run.timers.get i).ticked (i.val == 0) (time i) := by
    rw [Timer.ticked_of_not_isFreeRunning hfree, Timer.ticked_of_not_isFreeRunning hfree]
  -- Read at the next cycle, the timer is the same, so the textbook has to do nothing.
  have hmove := h.move hwf
  rw [hstill] at hmove
  obtain ⟨-, rfl⟩ := h
  have hset : (run.ticked time).set i ((run.timers.get i).ticked (i.val == 0) (time i)) =
      run.ticked time := (run.ticked time).set_timers_self i
  rw [hset] at hmove
  have hruns : ((run.ticked time).timers i).runs (i.val == 0) = false :=
    (Timer.runs_ticked ..).trans hfree
  rw [TickedRun.cycleTimer_of_not_runs hruns]
  exact hmove

/-- A timer whose wrap comes later goes on with its tick, or ends it before its last
value. -/
theorem Tracks.cycleTimer_of_wait {run : TimerRun} {time : TimerId → Nat}
    {textbook : TickedRun} (h : run.Tracks time textbook) {i : TimerId}
    (hfree : (run.timers.get i).isFreeRunning (i.val == 0) = true)
    (hlater : time i + 1 < (run.timers.get i).nextWrap) :
    run.Tracks (moved time i (time i + 1)) (textbook.cycleTimer i) := by
  have hnow := h.wellFormed i
  rw [Timer.WellFormed, if_pos hfree] at hnow
  obtain ⟨hle, -, hdeadline⟩ := hnow
  have hwf : (run.timers.get i).WellFormed (i.val == 0) (time i + 1) := by
    rw [Timer.WellFormed, if_pos hfree]
    exact ⟨Nat.le_succ_of_le hle, hlater, hdeadline⟩
  -- The deadline loop does nothing here. Only the time at which the timer is read moves on by one.
  have hmove := h.move hwf
  obtain ⟨-, rfl⟩ := h
  have hruns : ((run.ticked time).timers i).runs (i.val == 0) = true :=
    (Timer.runs_ticked ..).trans hfree
  have hphase : ((run.ticked time).timers i).phase = (run.timers.get i).phase (time i) :=
    if_pos hfree
  by_cases hends : (run.timers.get i).phase (time i) + 1 = (run.timers.get i).control.prescaler
  · -- The tick is counted, and the counter has room for it.
    rw [Timer.ticked_succ_of_phase_eq hfree hle hends] at hmove
    rw [← hphase] at hends
    rw [TickedRun.cycleTimer_of_phase_eq hruns hends, TickedRun.tick_of_counter_ne,
      TickedRun.timers_set_self, TickedRun.set_set]
    · exact hmove
    · rw [TickedRun.timers_set_self]
      rw [hphase] at hends
      exact Timer.counterAt_ne_last hfree hle hends hlater
  · rw [Timer.ticked_succ_of_phase_ne hfree hle hends] at hmove
    rw [← hphase] at hends
    rw [TickedRun.cycleTimer_of_phase_ne hruns hends]
    exact hmove

/-- A timer whose wrap falls on the next cycle ends its tick at the last value. -/
theorem Tracks.cycleTimer_of_wrap {run : TimerRun} {time : TimerId → Nat}
    {textbook : TickedRun} (h : run.Tracks time textbook) {i : TimerId}
    (hfree : (run.timers.get i).isFreeRunning (i.val == 0) = true)
    (hdue : (run.timers.get i).nextWrap = time i + 1) :
    (run.handle ⟨i, time i + 1⟩).Tracks (moved time i (time i + 1)) (textbook.cycleTimer i) := by
  have hnow := h.wellFormed i
  rw [Timer.WellFormed, if_pos hfree] at hnow
  -- The wrap is due on the next cycle: the tick ends now, and the counter is at its last value.
  obtain ⟨hends, hlast⟩ := Timer.of_nextWrap_eq_succ hfree hnow.1 hdue
  have hhandle := h.handle (w := ⟨i, time i + 1⟩) hfree
  obtain ⟨-, rfl⟩ := h
  have hruns : ((run.ticked time).timers i).runs (i.val == 0) = true :=
    (Timer.runs_ticked ..).trans hfree
  have hphase : ((run.ticked time).timers i).phase = (run.timers.get i).phase (time i) :=
    if_pos hfree
  rw [← hphase] at hends
  rw [TickedRun.cycleTimer_of_phase_eq hruns hends, TickedRun.tick_of_counter_eq,
    TickedRun.timers_set_self, TickedRun.set_set]
  · exact hhandle
  · rw [TickedRun.timers_set_self]
    exact hlast

/-- Handling a wrap that falls on the next cycle, or none, is the textbook cycle of a
timer. -/
theorem Tracks.cycleTimer {run : TimerRun} {time : TimerId → Nat} {textbook : TickedRun}
    (h : run.Tracks time textbook) (i : TimerId) :
    (handleAt (time i + 1) run i).Tracks (moved time i (time i + 1))
      (textbook.cycleTimer i) := by
  have hnow := h.wellFormed i
  rw [Timer.WellFormed] at hnow
  rw [handleAt]
  -- Three cases: the timer does not run, it wraps on this cycle, or it waits.
  cases hfree : (run.timers.get i).isFreeRunning (i.val == 0) with
  | false =>
    rw [hfree] at hnow
    have hnone : (run.timers.get i).deadline = none := hnow
    rw [hnone, if_neg (Option.some_ne_none _).symm]
    exact h.cycleTimer_of_still hfree
  | true =>
    rw [if_pos hfree] at hnow
    obtain ⟨-, hlt, hdeadline⟩ := hnow
    rw [hdeadline]
    split
    · next hdue => exact h.cycleTimer_of_wrap hfree (Option.some.inj hdue)
    · next hdue =>
      refine h.cycleTimer_of_wait hfree ?_
      have hne : (run.timers.get i).nextWrap ≠ time i + 1 := fun heq => hdue (congrArg some heq)
      omega

/-- The clock is no part of what the textbook compares. -/
theorem Tracks.withCycle {run : TimerRun} {time : TimerId → Nat} {textbook : TickedRun}
    (h : run.Tracks time textbook) (cycle : Nat) : (run.withCycle cycle).Tracks time textbook :=
  ⟨h.wellFormed, h.ticked⟩

/-- One after the other, the timers of a list pass the cycle. -/
theorem Tracks.foldl_cycleTimer {cycle : Nat} {later : TimerId → Nat} (l : List TimerId) :
    ∀ {run : TimerRun} {time : TimerId → Nat} {textbook : TickedRun},
      run.Tracks time textbook → l.Nodup → (∀ i ∈ l, time i = cycle ∧ later i = cycle + 1) →
      (∀ i, i ∉ l → later i = time i) →
      (l.foldl (handleAt (cycle + 1)) run).Tracks later
        (l.foldl TickedRun.cycleTimer textbook) := by
  -- The timers of the list are still to be visited. Each visit moves one of them on to the later
  -- cycle.
  induction l with
  | nil =>
    intro run time textbook h _ _ hothers
    have htime : later = time := funext fun i => hothers i List.not_mem_nil
    rw [htime]
    exact h
  | cons i rest ih =>
    intro run time textbook h hnodup hlisted hothers
    obtain ⟨hi, hrest⟩ := List.nodup_cons.mp hnodup
    obtain ⟨hnow, hnext⟩ := hlisted i List.mem_cons_self
    have hstep := h.cycleTimer i
    rw [hnow] at hstep
    refine ih hstep hrest (fun j hj => ?_) fun j hj => ?_
    · -- No timer occurs twice, so the rest are still to be read at the old cycle.
      have hij : i ≠ j := fun heq => hi (heq ▸ hj)
      rw [moved, if_neg hij]
      exact hlisted j (List.mem_cons_of_mem i hj)
    · by_cases hij : i = j
      · rw [moved, if_pos hij, ← hij, hnext]
      · have hnot : j ∉ i :: rest := fun hmem => (List.mem_cons.mp hmem).elim (Ne.symm hij) hj
        rw [moved, if_neg hij]
        exact hothers j hnot

/-- One cycle of a well-formed run is one textbook cycle. -/
theorem Tracks.cycle {run : TimerRun} {cycle : Nat} {textbook : TickedRun}
    (h : run.Tracks (fun _ => cycle) textbook) :
    (run.advance (cycle + 1)).Tracks (fun _ => cycle + 1) textbook.cycle := by
  rw [advance_eq_foldl fun i d hd => (h.wellFormed i).lt_deadline hd]
  have hall := Tracks.foldl_cycleTimer (List.finRange 4) h (by decide) (fun _ _ => ⟨rfl, rfl⟩)
    fun i hi => absurd (List.mem_finRange i) hi
  exact hall.withCycle _

/-- An advance by `n` cycles is `n` textbook cycles. -/
theorem Tracks.advance {run : TimerRun} {cycle : Nat} {textbook : TickedRun}
    (h : run.Tracks (fun _ => cycle) textbook) (n : Nat) :
    (run.advance (cycle + n)).Tracks (fun _ => cycle + n) (textbook.cycles n) := by
  induction n with
  | zero =>
    -- Well-formed timers have nothing to handle at the cycle they are at.
    have hnone : run.timers.nextWrap cycle = none :=
      Timers.nextWrap_eq_none_iff.mpr fun i d hd => (h.wellFormed i).lt_deadline hd
    rw [Nat.add_zero, advance_of_nextWrap_eq_none hnone]
    exact h.withCycle _
  | succ n ih =>
    -- Stop one cycle short of the end.
    rw [← Nat.add_assoc, ← advance_advance run (Nat.le_succ (cycle + n))]
    exact ih.cycle

end TimerRun

/-! ### The timers against the textbook -/

namespace Timers

/-- Every timer on its own clock has its next wrap ahead of it, with the deadline to match,
and no other timer has a deadline. -/
def WellFormed (t : Timers) : Prop :=
  ∀ i, (t.get i).WellFormed (i.val == 0) t.cycle

/-- The cycles that a timer has spent on the tick in progress. A timer that is not on its
own clock has none in progress. -/
def phase (t : Timers) (i : TimerId) : Nat :=
  if (t.get i).isFreeRunning (i.val == 0) then (t.get i).phase t.cycle else 0

/-- The textbook timers with the live counters and phases of a state. -/
def ticked (t : Timers) (interrupts : InterruptController) : TickedRun where
  timers := fun i =>
    { reload := (t.get i).reload
      control := (t.get i).control
      counter := t.counter i
      phase := t.phase i }
  interrupts := interrupts

/-- **A step is as many textbook cycles.** From a well-formed state, a step of `n` cycles
ends in a well-formed state, `n` cycles later, with the live counters, the phases, the
interrupts and the reports of `n` textbook cycles. -/
theorem step_refines_ticks (t : Timers) (interrupts : InterruptController) (n : Nat)
    (h : t.WellFormed) :
    (t.step interrupts n).timers.WellFormed ∧
      (t.step interrupts n).timers.cycle = t.cycle + n ∧
      (∀ i, (t.step interrupts n).timers.counter i =
        (((t.ticked interrupts).cycles n).timers i).counter) ∧
      (∀ i, (t.step interrupts n).timers.phase i =
        (((t.ticked interrupts).cycles n).timers i).phase) ∧
      (t.step interrupts n).interrupts = ((t.ticked interrupts).cycles n).interrupts ∧
      (t.step interrupts n).reports = ((t.ticked interrupts).cycles n).reports := by
  have hstart : TimerRun.Tracks { timers := t, interrupts := interrupts } (fun _ => t.cycle)
      (t.ticked interrupts) := ⟨h, rfl⟩
  have hcycle := cycle_step t interrupts n
  have hend : (t.step interrupts n).Tracks (fun _ => t.cycle + n)
      ((t.ticked interrupts).cycles n) := hstart.advance n
  rw [← hcycle] at hend
  obtain ⟨hwf, hticked⟩ := hend
  rw [← hticked]
  exact ⟨hwf, hcycle, fun _ => rfl, fun _ => rfl, rfl, rfl⟩

/-- Timers 0 and 1 overflow at once, and timers 2 and 3 count the wraps before them. -/
def chained : Timers where
  channels := #v[⟨0xFFFF, ⟨0x00C0⟩, 0xFFFF, 4, some 5⟩, ⟨0xFFFE, ⟨0x00C1⟩, 0xFFFF, 0, some 64⟩,
    ⟨0xFFFF, ⟨0x00C4⟩, 0xFFFF, 0, none⟩, ⟨0, ⟨0x0084⟩, 7, 0, none⟩]
  cycle := 4

/-- Sixty cycles later timer 0 has wrapped every cycle, and timer 1 once, at the last one. -/
theorem step_refines_ticks_chained :
    chained.WellFormed ∧
      (chained.step {} 60).interrupts = ((chained.ticked {}).cycles 60).interrupts ∧
      (chained.step {} 60).reports = ((chained.ticked {}).cycles 60).reports := by
  have hwf : chained.WellFormed := by
    unfold WellFormed
    decide
  obtain ⟨-, -, -, -, hinterrupts, hreports⟩ := step_refines_ticks chained {} 60 hwf
  exact ⟨hwf, hinterrupts, hreports⟩

end Timers

end AdvanceCore
