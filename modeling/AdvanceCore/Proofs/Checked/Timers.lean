import AdvanceCore.Proofs.Checked.Bus
import AdvanceCore.Proofs.Timers.Reachable

/-!
# `AdvanceCore.Proofs.Checked.Timers`: counters that are worked out

A timer works out its counter and its deadline from the cycles since `base`, which is a
difference of two numbers of sixty-four bits. It breaks if `base` lies after the clock, or if
the clock comes so close to the end of its range that a deadline does not fit any more.

* `Timers.Timely`: neither is the case. Register writes leave it so.
* `Timers.unbroken`: no access breaks timely timers.
* `TimerRun.advance?_eq`, `Timers.step?_of_lt`: no wrap does, and so no step.
-/

set_option autoImplicit false

namespace AdvanceCore

open Bits

/-! ### One timer -/

/-- The checked form of `TimerControl.prescaler`. -/
def TimerControl.prescaler? (c : TimerControl) : Option Nat := do
  return match ← slice? c.word 0 2 with
    | 0b00#2 => 1
    | 0b01#2 => 64
    | 0b10#2 => 256
    | _ => 1024

/-- Two bits select one of four prescalers. -/
@[simp] theorem TimerControl.prescaler?_eq (c : TimerControl) :
    c.prescaler? = some c.prescaler := by
  simp only [prescaler?, slice?_of_le, Nat.reduceLT, Nat.reduceAdd, Nat.reduceLeDiff,
    Option.bind_eq_bind, Option.bind_some]
  rfl

/-- The longest tick takes 1024 cycles. -/
theorem TimerControl.prescaler_le (c : TimerControl) : c.prescaler ≤ 2 ^ 10 := by
  unfold prescaler
  split <;> decide

namespace Timer

/-- The checked form of `isCascading`. -/
def isCascading? (t : Timer) (isFirst : Bool) : Option Bool :=
  return (← bit? t.control.word 7) && (← bit? t.control.word 2) && !isFirst

/-- The checked form of `isFreeRunning`. -/
def isFreeRunning? (t : Timer) (isFirst : Bool) : Option Bool :=
  return (← bit? t.control.word 7) && !((← bit? t.control.word 2) && !isFirst)

/-- The checked form of `ticksUntil`. -/
def ticksUntil? (t : Timer) (cycle : Nat) : Option Nat := do
  quotient? (← difference? cycle t.base) (← t.control.prescaler?)

/-- The checked form of `counterAt`. -/
def counterAt? (t : Timer) (isFirst : Bool) (cycle : Nat) : Option Half := do
  if ← t.isFreeRunning? isFirst then
    return t.counter + BitVec.ofNat 16 (← t.ticksUntil? cycle)
  else return t.counter

/-- The checked form of `sync`. -/
def sync? (t : Timer) (isFirst : Bool) (cycle : Nat) : Option Timer := do
  if ← t.isFreeRunning? isFirst then
    let ticks ← t.ticksUntil? cycle
    let elapsed ← product? 64 ticks (← t.control.prescaler?)
    return { t with
      counter := t.counter + BitVec.ofNat 16 ticks
      base := ← sum? 64 t.base elapsed }
  else return t

/-- The checked form of `nextWrap`. -/
def nextWrap? (t : Timer) : Option Nat := do
  let ticks ← difference? 0x10000 t.counter.toNat
  sum? 64 t.base (← product? 64 ticks (← t.control.prescaler?))

/-- The checked form of `reschedule`. -/
def reschedule? (t : Timer) (isFirst : Bool) : Option Timer := do
  if ← t.isFreeRunning? isFirst then return { t with deadline := some (← t.nextWrap?) }
  else return { t with deadline := none }

/-- The checked form of `writeControl`. -/
def writeControl? (t : Timer) (cycle : Nat) (value mask : Half) : Option Timer := do
  let control : TimerControl := ⟨Bits.merge t.control.word value mask &&& TimerControl.mask⟩
  let starts := !(← bit? t.control.word 7) && (← bit? control.word 7)
  let t := { t with control := control }
  return if starts then t.restart cycle else t

/-- Whether a timer cascades is read from two bits. -/
@[simp] theorem isCascading?_eq (t : Timer) (isFirst : Bool) :
    t.isCascading? isFirst = some (t.isCascading isFirst) := by
  simp [isCascading?, isCascading, TimerControl.started, TimerControl.cascades]

/-- Whether a timer runs freely is read from the same two bits. -/
@[simp] theorem isFreeRunning?_eq (t : Timer) (isFirst : Bool) :
    t.isFreeRunning? isFirst = some (t.isFreeRunning isFirst) := by
  simp [isFreeRunning?, isFreeRunning, TimerControl.started, TimerControl.cascades]

/-- The ticks since `base` need a `base` that is not later, and a prescaler that is not zero. -/
theorem ticksUntil?_of_le {t : Timer} {cycle : Nat} (h : t.base ≤ cycle) :
    t.ticksUntil? cycle = some (t.ticksUntil cycle) := by
  simp [ticksUntil?, ticksUntil, difference?_of_le h, quotient?_of_pos _ t.control.prescaler_pos]

/-- The counter needs no more than that. -/
theorem counterAt?_of_le {t : Timer} (isFirst : Bool) {cycle : Nat} (h : t.base ≤ cycle) :
    t.counterAt? isFirst cycle = some (t.counterAt isFirst cycle) := by
  simp [counterAt?, counterAt, ticksUntil?_of_le h, ← apply_ite some]

/-- A timer can be synchronised at every cycle that fits in sixty-four bits. -/
theorem sync?_of_le {t : Timer} (isFirst : Bool) {cycle : Nat} (h : t.base ≤ cycle)
    (hcycle : cycle < 2 ^ 64) : t.sync? isFirst cycle = some (t.sync isFirst cycle) := by
  -- Whole ticks do not add up to more than the cycles that have passed.
  have helapsed : t.ticksUntil cycle * t.control.prescaler ≤ cycle - t.base :=
    Nat.div_mul_le_self ..
  have hproduct : t.ticksUntil cycle * t.control.prescaler < 2 ^ 64 := by omega
  have hsum : t.base + t.ticksUntil cycle * t.control.prescaler < 2 ^ 64 := by omega
  simp only [sync?, sync, counterAt, isFreeRunning?_eq, ticksUntil?_of_le h,
    TimerControl.prescaler?_eq, product?_of_lt hproduct, sum?_of_lt hsum, Option.bind_eq_bind,
    Option.bind_some, Option.pure_def, ← apply_ite some]
  split <;> rfl

/-- A counter wraps within the longest time that it takes to count through all of its values. -/
theorem nextWrap_le (t : Timer) : t.nextWrap ≤ t.base + 2 ^ 26 := by
  have hticks : 0x10000 - t.counter.toNat ≤ 2 ^ 16 := Nat.sub_le ..
  have hcycles := Nat.mul_le_mul hticks t.control.prescaler_le
  simp only [nextWrap]
  omega

/-- A deadline can be worked out as long as the longest period from `base` fits. -/
theorem reschedule?_of_lt {t : Timer} (isFirst : Bool) (h : t.base + 2 ^ 26 < 2 ^ 64) :
    t.reschedule? isFirst = some (t.reschedule isFirst) := by
  have hcounter : t.counter.toNat ≤ 0x10000 := Nat.le_of_lt t.counter.isLt
  have hwrap := t.nextWrap_le
  simp only [nextWrap] at hwrap
  have hsum : t.base + (0x10000 - t.counter.toNat) * t.control.prescaler < 2 ^ 64 := by omega
  have hproduct : (0x10000 - t.counter.toNat) * t.control.prescaler < 2 ^ 64 := by omega
  simp only [reschedule?, reschedule, nextWrap?, isFreeRunning?_eq, difference?_of_le hcounter,
    TimerControl.prescaler?_eq, product?_of_lt hproduct, sum?_of_lt hsum, Option.bind_eq_bind,
    Option.bind_some, Option.pure_def]
  split <;> rfl

/-- A deadline that passes the checks is the one that was to be worked out. -/
theorem eq_of_reschedule? {t next : Timer} {isFirst : Bool}
    (h : t.reschedule? isFirst = some next) : next = t.reschedule isFirst := by
  simp only [reschedule?, nextWrap?, isFreeRunning?_eq, TimerControl.prescaler?_eq,
    Option.bind_eq_bind, Option.bind_some, Option.pure_def] at h
  -- A check that passes gives the value that was checked, so the four checks peel off one by one.
  split at h
  · next hfree =>
    obtain ⟨deadline, hdeadline, hnext⟩ := Option.bind_eq_some_iff.mp h
    obtain ⟨ticks, hticks, hsum⟩ := Option.bind_eq_some_iff.mp hdeadline
    obtain ⟨cycles, hcycles, hsum⟩ := Option.bind_eq_some_iff.mp hsum
    rw [← Option.some.inj hnext, eq_of_provided hsum, eq_of_provided hcycles,
      eq_of_provided hticks, reschedule, if_pos hfree]
    rfl
  · next hfree =>
    rw [← Option.some.inj h, reschedule, if_neg hfree]

/-- Writing the control register restarts a timer or leaves its counter. -/
@[simp] theorem writeControl?_eq (t : Timer) (cycle : Nat) (value mask : Half) :
    t.writeControl? cycle value mask = some (t.writeControl cycle value mask) := by
  simp [writeControl?, writeControl, TimerControl.started]

end Timer

/-! ### Registers -/

namespace Timers

/-- The checked form of `mapTimers`. -/
def mapTimers? (t : Timers) (f : Bool → Timer → Option Timer) : Option Timers := do
  return { t with
    channels := #v[← f true (t.get 0), ← f false (t.get 1), ← f false (t.get 2),
      ← f false (t.get 3)] }

/-- The checked form of `counter`. -/
def counter? (t : Timers) (i : TimerId) : Option Half :=
  (t.get i).counterAt? (i.val == 0) t.cycle

/-- The checked form of `syncAll`. -/
def syncAll? (t : Timers) : Option Timers :=
  t.mapTimers? fun isFirst timer => timer.sync? isFirst t.cycle

/-- The checked form of `rescheduleAll`. -/
def rescheduleAll? (t : Timers) : Option Timers :=
  t.mapTimers? fun isFirst timer => timer.reschedule? isFirst

instance : CheckedBlock Timers where
  readRegister? t offset := do
    match timerAt? offset with
    | none => return none
    | some i =>
      if offset % 4 = 0 then return some (← t.counter? i) else return some (t.get i).control.word
  writeRegister? t offset value mask := do
    match timerAt? offset with
    | none => return (false, t)
    | some i =>
      let t ← t.syncAll?
      let timer ←
        if offset % 4 = 0 then some ((t.get i).writeReload value mask)
        else (t.get i).writeControl? t.cycle value mask
      return (true, ← (t.set i timer).rescheduleAll?)

/-- No timer counts from a cycle that is still to come, and the clock is far from the end of
its range. -/
structure Timely (t : Timers) : Prop where
  base_le : ∀ i, (t.get i).base ≤ t.cycle
  cycle_lt : t.cycle < 2 ^ 63

/-- What breaks none of the four timers breaks none of them one after the other. -/
theorem mapTimers?_eq {t : Timers} {f : Bool → Timer → Option Timer} {g : Bool → Timer → Timer}
    (h : ∀ i : TimerId, f (i.val == 0) (t.get i) = some (g (i.val == 0) (t.get i))) :
    t.mapTimers? f = some (t.mapTimers g) := by
  have h₀ : f true (t.get 0) = _ := h 0
  have h₁ : f false (t.get 1) = _ := h 1
  have h₂ : f false (t.get 2) = _ := h 2
  have h₃ : f false (t.get 3) = _ := h 3
  simp only [mapTimers?, h₀, h₁, h₂, h₃, Option.bind_eq_bind, Option.bind_some]
  refine congrArg (fun channels => some { t with channels := channels }) (Vector.ext fun i hi => ?_)
  rw [Vector.getElem_mapFinIdx]
  match i, hi with
  | 0, _ | 1, _ | 2, _ | 3, _ => rfl

/-- Timely timers can all be synchronised. -/
theorem syncAll?_of_timely {t : Timers} (h : t.Timely) : t.syncAll? = some t.syncAll :=
  have hcycle : t.cycle < 2 ^ 64 := Nat.lt_trans h.cycle_lt (by decide)
  mapTimers?_eq fun i => Timer.sync?_of_le _ (h.base_le i) hcycle

/-- Timely timers can all be given a deadline. -/
theorem rescheduleAll?_of_timely {t : Timers} (h : t.Timely) :
    t.rescheduleAll? = some t.rescheduleAll := by
  refine mapTimers?_eq fun i => Timer.reschedule?_of_lt _ ?_
  have hbase := h.base_le i
  have hcycle := h.cycle_lt
  omega

/-- Synchronising leaves them timely: whole ticks do not lead past the clock. -/
theorem Timely.syncAll {t : Timers} (h : t.Timely) : t.syncAll.Timely where
  base_le i := by
    rw [Timers.syncAll, get_mapTimers]
    exact base_sync_le (h.base_le i)
  cycle_lt := h.cycle_lt

/-- A write to the register of a timer leaves it in time. -/
theorem Timely.set {t : Timers} (h : t.Timely) {i : TimerId} {timer : Timer}
    (hbase : timer.base ≤ t.cycle) : (t.set i timer).Timely where
  base_le j := by
    rw [get_set]
    split
    · exact hbase
    · exact h.base_le j
  cycle_lt := h.cycle_lt

/-- Deadlines do not move `base` either. -/
theorem Timely.rescheduleAll {t : Timers} (h : t.Timely) : t.rescheduleAll.Timely where
  base_le i := by
    rw [Timers.rescheduleAll, get_mapTimers]
    exact h.base_le i
  cycle_lt := h.cycle_lt

/-- No access breaks timely timers. -/
theorem unbroken : Unbroken Timely := by
  refine UnbrokenBlock.unbroken ⟨fun t h offset => ?_, fun t h offset value mask => ?_⟩
  · simp only [CheckedBlock.readRegister?, RegisterBlock.readRegister, register?]
    cases timerAt? offset with
    | none => rfl
    | some i =>
      have hcounter : t.counter? i = some (t.counter i) := Timer.counterAt?_of_le _ (h.base_le i)
      simp only [hcounter, Option.bind_eq_bind, Option.bind_some, Option.pure_def,
        Option.map_some, ← apply_ite some]
  · simp only [CheckedBlock.writeRegister?, RegisterBlock.writeRegister, writeRegister]
    cases timerAt? offset with
    | none => exact ⟨rfl, h⟩
    | some i =>
      -- The new reload value leaves the timer where it is, and the new control register may start
      -- it over now.
      have hwritten {timer : Timer} (hbase : timer.base ≤ t.cycle) :
          Succeeds Timely
            (do return (true, ← (t.syncAll.set i timer).rescheduleAll?))
            (true, (t.syncAll.set i timer).rescheduleAll) := by
        have hset : (t.syncAll.set i timer).Timely := h.syncAll.set hbase
        refine ⟨?_, hset.rescheduleAll⟩
        rw [rescheduleAll?_of_timely hset]
        rfl
      have hkept := h.syncAll.base_le i
      simp only [syncAll?_of_timely h, Timer.writeControl?_eq, Option.bind_eq_bind,
        Option.bind_some]
      split
      · exact hwritten hkept
      · exact hwritten (Rewritten.base_le .control hkept)

/-- To be timely is asked for: a started timer that counts from a later cycle breaks when it is
read. -/
example :
    CheckedBlock.readRegister? (set {} 0 { control := ⟨0x0080⟩, base := 1 }) 0 = none := by
  decide

end Timers

/-! ### Running -/

namespace TimerRun

/-- The checked form of `announce`. -/
def announce? (run : TimerRun) (i : TimerId) : Option TimerRun := do
  let reports := if h : i.val < 2 then run.reports.push ⟨i.val, h⟩ else run.reports
  if ← bit? (run.timers.get i).control.word 6 then
    return { run with interrupts := ← run.interrupts.raise? (.timer i), reports := reports }
  else return { run with reports := reports }

/-- The checked form of `overflow`. -/
def overflow? (run : TimerRun) (i : TimerId) : Option TimerRun := do
  let run ← run.announce? i
  if h : i.val + 1 < 4 then
    let next : TimerId := ⟨i.val + 1, h⟩
    let timer := run.timers.get next
    if ← timer.isCascading? false then
      if timer.counter = 0xFFFF then
        let timers := run.timers.set next { timer with counter := timer.reload }
        overflow? { run with timers := timers } next
      else
        let timers := run.timers.set next { timer with counter := timer.counter + 1 }
        return { run with timers := timers }
    else return run
  else return run
termination_by 3 - i.val

/-- The checked form of `handle`. -/
def handle? (run : TimerRun) (w : Wrap) : Option TimerRun := do
  let timer ← ((run.timers.get w.timer).restart w.cycle).reschedule? (w.timer.val == 0)
  { run with timers := run.timers.set w.timer timer }.overflow? w.timer

/-- A wrap raises the interrupt of its timer, and is reported for the first two. -/
@[simp] theorem announce?_eq (run : TimerRun) (i : TimerId) :
    run.announce? i = some (run.announce i) := by
  have hbit : bit? (run.timers.get i).control.word 6 =
      some (run.timers.get i).control.interrupts :=
    bit?_of_lt _ (by decide)
  simp only [announce?, announce, hbit, InterruptController.raise?_eq, Option.bind_eq_bind,
    Option.bind_some, Option.pure_def]
  cases (run.timers.get i).control.interrupts <;> rfl

/-- A wrap is handed on from timer to timer, which ends after the last one. -/
@[simp] theorem overflow?_eq (run : TimerRun) (i : TimerId) :
    run.overflow? i = some (run.overflow i) := by
  -- The checked loop makes the same two tests, so the cases are those of the unchecked one.
  fun_induction overflow run i with
  | case1 run i run' h next timer hcascading hwraps ih =>
    rw [overflow?, announce?_eq, ← ih]
    simp only [Timer.isCascading?_eq, Option.bind_eq_bind, Option.bind_some]
    exact (dif_pos h).trans ((if_pos hcascading).trans (if_pos hwraps))
  | case2 run i run' h next timer hcascading hwraps =>
    rw [overflow?, announce?_eq]
    simp only [Timer.isCascading?_eq, Option.bind_eq_bind, Option.bind_some]
    exact (dif_pos h).trans ((if_pos hcascading).trans (if_neg hwraps))
  | case3 run i run' h next timer hcascading =>
    rw [overflow?, announce?_eq]
    simp only [Timer.isCascading?_eq, Option.bind_eq_bind, Option.bind_some]
    exact (dif_pos h).trans (if_neg hcascading)
  | case4 run i run' h =>
    rw [overflow?, announce?_eq]
    exact dif_neg h

/-- A wrap that passes the checks is handled as it was to be. -/
theorem eq_of_handle? {run next : TimerRun} {w : Wrap} (h : run.handle? w = some next) :
    next = run.handle w := by
  obtain ⟨timer, htimer, hnext⟩ := Option.bind_eq_some_iff.mp h
  rw [overflow?_eq, Timer.eq_of_reschedule? htimer] at hnext
  exact (Option.some.inj hnext).symm

/-- The checked form of `advance`. -/
def advance? (run : TimerRun) (target : Nat) : Option TimerRun :=
  match _hw : run.timers.nextWrap target with
  | some w => (run.handle? w).pbind fun next _hnext => next.advance? target
  | none => some { run with timers := { run.timers with cycle := target } }
termination_by run.timers.backlog target
decreasing_by
  rw [eq_of_handle? _hnext]
  exact backlog_handle_lt _hw

/-- A wrap is handled if the next one of its timer still fits. -/
theorem handle?_of_lt {run : TimerRun} {w : Wrap} (h : w.cycle + 2 ^ 26 < 2 ^ 64) :
    run.handle? w = some (run.handle w) := by
  rw [handle?, Timer.reschedule?_of_lt (t := (run.timers.get w.timer).restart w.cycle) _ h]
  exact overflow?_eq ..

/-- No wrap breaks the timers before the clock comes close to the end of its range. -/
theorem advance?_eq (run : TimerRun) {target : Nat} (h : target + 2 ^ 26 < 2 ^ 64) :
    run.advance? target = some (run.advance target) := by
  -- Every wrap that is handled lies at or before the target, so no sum of cycles leaves 64 bits.
  fun_induction advance run target with
  | case1 run w hw ih =>
    have hle := (Timers.deadline_of_nextWrap hw).2
    have hhandle : run.handle? w = some (run.handle w) := handle?_of_lt (by omega)
    rw [advance?]
    split
    · next v hv =>
      rw [hw] at hv
      cases hv
      simp only [hhandle, Option.pbind_some, ih]
    · next hv =>
      rw [hw] at hv
      cases hv
  | case2 run hw =>
    rw [advance?]
    split
    · next v hv =>
      rw [hw] at hv
      cases hv
    · rfl

end TimerRun

namespace Timers

/-- The checked form of `step`. -/
def step? (t : Timers) (interrupts : InterruptController) (elapsed : Nat) : Option TimerRun := do
  TimerRun.advance? { timers := t, interrupts := interrupts } (← sum? 64 t.cycle elapsed)

/-- No step breaks the timers. -/
theorem step?_of_lt {t : Timers} (interrupts : InterruptController) {elapsed : Nat}
    (hcycle : t.cycle < 2 ^ 63) (helapsed : elapsed < 2 ^ 32) :
    t.step? interrupts elapsed = some (t.step interrupts elapsed) := by
  have htarget : t.cycle + elapsed < 2 ^ 64 := by omega
  rw [step?, sum?_of_lt htarget]
  exact TimerRun.advance?_eq _ (by omega)

end Timers

end AdvanceCore
