import AdvanceCore.Proofs.Timers.Requests
import AdvanceCore.Proofs.Timers.TickByTick
import Mathlib.Logic.Function.Iterate

/-!
# `AdvanceCore.Proofs.Timers.Cascades`: how often timers wrap in a step

However many wraps there are in a step, none is lost on the way down a cascade. The number of
wraps of a timer on its own clock follows from its deadline, and that of a cascading timer from
the number of the timer before it. Both are counted by `comesRound`, in cycles or in wraps.

* `Timer.roundsIn_eq`, `Timer.counter_iterate_counted`: a timer that counts wraps.
* `count_wraps_of_isFreeRunning`, `count_wraps_of_isCascading`: the same of the whole loop, by
  induction over its rounds.
* `cascade_loses_no_wrap`: the wraps of a step, and what they leave of the counters, the
  requests and the reports.
-/

set_option autoImplicit false

namespace AdvanceCore

/-- How often `n` events bring something round that comes round after `left` of them, and then
again after every `period`. -/
def comesRound (left period n : Nat) : Nat :=
  if n < left then 0 else 1 + (n - left) / period

/-- Too few events bring nothing round. -/
theorem comesRound_of_lt {left period n : Nat} (h : n < left) : comesRound left period n = 0 :=
  if_pos h

/-- After the first time it is a period until the next. -/
theorem comesRound_of_le {left period n : Nat} (hperiod : 0 < period) (hle : left ≤ n) :
    comesRound left period n = 1 + comesRound (left + period) period n := by
  rw [comesRound, if_neg (Nat.not_lt.mpr hle), comesRound]
  split
  · next hlt => rw [Nat.div_eq_of_lt (by omega)]
  · next hge =>
    rw [Nat.div_eq_sub_div hperiod (by omega), Nat.sub_sub, Nat.add_comm (_ / _)]

/-- The first event brings the rest one closer. -/
theorem comesRound_succ (left period n : Nat) :
    comesRound (left + 1) period (n + 1) = comesRound left period n := by
  simp only [comesRound, Nat.add_lt_add_iff_right, Nat.add_sub_add_right]

namespace Timer

/-- With how many of the next counted wraps a timer wraps. -/
def roundsIn (t : Timer) : Nat → Nat
  | 0 => 0
  | n + 1 => (if t.counter = 0xFFFF then 1 else 0) + t.counted.roundsIn n

/-- Counting does not change what a timer counts. -/
theorem isCascading_iterate_counted (t : Timer) (isFirst : Bool) (n : Nat) :
    (counted^[n] t).isCascading isFirst = t.isCascading isFirst := by
  induction n generalizing t with
  | zero => rfl
  | succ n ih => exact ih t.counted

/-- The rounds of several wraps add up. -/
theorem roundsIn_add (t : Timer) (m n : Nat) :
    t.roundsIn (m + n) = t.roundsIn m + (counted^[m] t).roundsIn n := by
  induction m generalizing t with
  | zero => rw [Nat.zero_add, roundsIn, Nat.zero_add]; rfl
  | succ m ih =>
    rw [Nat.succ_add, roundsIn, roundsIn, ih, Function.iterate_succ_apply, Nat.add_assoc]

/-- The value behind the last one, counted from the counter. -/
def left (t : Timer) : Nat := 0x10000 - t.counter.toNat

/-- The ticks from one wrap to the next. -/
def period (t : Timer) : Nat := 0x10000 - t.reload.toNat

/-- No period is empty. -/
theorem period_pos (t : Timer) : 0 < t.period := by
  have := t.reload.isLt
  unfold period
  omega

/-- A timer at its last value wraps with the next tick, and is then a period away from it. -/
theorem left_of_last {t : Timer} (h : t.counter = 0xFFFF) :
    t.left = 1 ∧ t.counted.left = t.period := by
  rw [counted_of_last h, left, h]
  exact ⟨rfl, rfl⟩

/-- Any other timer comes closer by one. -/
theorem left_of_not_last {t : Timer} (h : t.counter ≠ 0xFFFF) :
    t.left = t.counted.left + 1 ∧ t.counted.counter.toNat = t.counter.toNat + 1 := by
  have hlt := t.counter.isLt
  have hne : t.counter.toNat ≠ 0xFFFF := fun heq => h (BitVec.eq_of_toNat_eq heq)
  have hcounter : t.counted.counter.toNat = t.counter.toNat + 1 := by
    rw [counted_of_not_last h]
    show (t.counter + 1).toNat = _
    rw [BitVec.toNat_add]
    show (t.counter.toNat + 1) % 2 ^ 16 = _
    omega
  refine ⟨?_, hcounter⟩
  unfold left
  omega

/-- A timer comes round after what is left to its last value, and then once in every period. -/
theorem roundsIn_eq (t : Timer) (n : Nat) : t.roundsIn n = comesRound t.left t.period n := by
  induction n generalizing t with
  | zero =>
    have := t.counter.isLt
    exact (comesRound_of_lt (by unfold left; omega)).symm
  | succ n ih =>
    have hperiod : t.counted.period = t.period := rfl
    rw [roundsIn, ih, hperiod]
    -- An event comes round if the counter is at its last value. Then the next round is a whole
    -- period away.
    by_cases hlast : t.counter = 0xFFFF
    · obtain ⟨hleft, hnext⟩ := left_of_last hlast
      rw [if_pos hlast, hleft, hnext, comesRound_of_le t.period_pos (Nat.le_add_left 1 n),
        Nat.add_comm 1 t.period, comesRound_succ]
    · rw [if_neg hlast, (left_of_not_last hlast).1, comesRound_succ, Nat.zero_add]

/-- The counter after `n` counted wraps, of which those behind the first wrap are counted from
the reload value on. -/
theorem counter_iterate_counted (t : Timer) (n : Nat) :
    (counted^[n] t).counter.toNat =
      if n < t.left then t.counter.toNat + n else t.reload.toNat + (n - t.left) % t.period := by
  -- On the number of events. The timer changes under the induction, but not its period or its
  -- reload value.
  induction n generalizing t with
  | zero =>
    have := t.counter.isLt
    rw [if_pos (by unfold left; omega)]
    rfl
  | succ n ih =>
    have hperiod : t.counted.period = t.period := rfl
    have hreload : t.counted.reload = t.reload := rfl
    rw [Function.iterate_succ_apply, ih, hperiod, hreload]
    by_cases hlast : t.counter = 0xFFFF
    · obtain ⟨hleft, hnext⟩ := left_of_last hlast
      have hcounter : t.counted.counter = t.reload := by rw [counted_of_last hlast]
      rw [hleft, hnext, hcounter, if_neg (Nat.not_lt.mpr (Nat.le_add_left 1 n)),
        Nat.add_sub_cancel]
      split
      · next hlt => rw [Nat.mod_eq_of_lt hlt]
      · next hge => rw [← Nat.mod_eq_sub_mod (Nat.le_of_not_lt hge)]
    · obtain ⟨hleft, hcounter⟩ := left_of_not_last hlast
      rw [hleft, hcounter]
      simp only [Nat.add_lt_add_iff_right, Nat.add_sub_add_right, Nat.add_assoc, Nat.add_comm 1]

end Timer

namespace TimerRun

open Timers (mem_chain_iff_of_succ mem_chain_self nodup_chain isCascading_of_mem_chain
  deadline_of_nextWrap nextWrap_eq_none_iff)

variable {run : TimerRun} {target : Nat} {i j k : TimerId}

/-! ### Timers on their own clock -/

/-- A timer that does not cascade is not touched by the effects of a wrap. -/
theorem get_handle_of_not_isCascading {w : Wrap}
    (h : (run.timers.get i).isCascading (i.val == 0) = false) :
    (run.handle w).timers.get i =
      if w.timer = i then run.rearmed w else run.timers.get i := by
  have hrearm := get_rearm run w i
  have hstill : ((run.rearm w).timers.get i).isCascading (i.val == 0) = false := by
    rw [hrearm]
    split
    · next hi =>
      subst hi
      exact h
    · exact h
  rw [handle_eq, ((run.rearm w).counted_overflow w.timer i).2 hstill, hrearm]

/-- A timer that runs freely does not cascade. -/
theorem isCascading_of_isFreeRunning {t : Timer} {isFirst : Bool}
    (h : t.isFreeRunning isFirst = true) : t.isCascading isFirst = false := by
  cases hcascading : t.isCascading isFirst with
  | false => rfl
  | true =>
    rw [Timer.isFreeRunning_of_isCascading hcascading] at h
    cases h

/-- A timer that does not cascade wraps with no other timer. -/
theorem notMem_chain_of_not_isCascading {t : Timers}
    (h : (t.get j).isCascading (j.val == 0) = false) (hij : i ≠ j) : j ∉ t.chain i := by
  intro hmem
  have hle : i.val ≤ j.val := Timers.le_of_mem_chain hmem
  have hne : i.val ≠ j.val := fun heq => hij (Fin.ext heq)
  rw [beq_false_of_ne (show j.val ≠ 0 by omega), isCascading_of_mem_chain hmem hij] at h
  cases h

/-- A timer on its own clock wraps at its deadline, and again after every period. -/
theorem count_wraps_of_isFreeRunning {d : Nat}
    (hfree : (run.timers.get i).isFreeRunning (i.val == 0) = true)
    (hdeadline : (run.timers.get i).deadline = some d) :
    (run.wraps target).count i =
      comesRound d ((run.timers.get i).period * (run.timers.get i).control.prescaler) target := by
  have hnot := isCascading_of_isFreeRunning hfree
  fun_induction wraps run target generalizing d with
  | case1 run w h ih =>
    obtain ⟨hdue, hle⟩ := deadline_of_nextWrap h
    have hget := get_handle_of_not_isCascading (w := w) hnot
    rw [List.count_append]
    by_cases hi : w.timer = i
    · -- The wrap is the one of the deadline, and the next deadline is a period away.
      subst hi
      obtain rfl : w.cycle = d := Option.some.inj (hdue.symm.trans hdeadline)
      have hnext : (run.rearmed w).deadline = some (w.cycle + (run.timers.get w.timer).period *
          (run.timers.get w.timer).control.prescaler) := if_pos hfree
      rw [if_pos rfl] at hget
      rw [← hget] at hnext
      rw [(nodup_chain _ _).count, if_pos (mem_chain_self _ _), ih (by rw [hget]; exact hfree) hnext
        (by rw [hget]; exact hnot), hget]
      exact (comesRound_of_le (Nat.mul_pos (Timer.period_pos _) (TimerControl.prescaler_pos _))
        hle).symm
    · -- Another timer wraps: it carries into cascading timers only, so this one is not on the chain
      -- and keeps its deadline.
      rw [if_neg hi] at hget
      rw [List.count_eq_zero_of_not_mem (notMem_chain_of_not_isCascading hnot hi), Nat.zero_add,
        ih (by rw [hget]; exact hfree) (by rw [hget]; exact hdeadline) (by rw [hget]; exact hnot),
        hget]
  | case2 run h => exact (comesRound_of_lt (nextWrap_eq_none_iff.mp h i d hdeadline)).symm

/-! ### Cascading timers -/

/-- One wrap reaches a cascading timer if it reaches the timer before it. -/
theorem count_chain_of_isCascading {t : Timers} (hij : i ≠ j) (hsucc : k.val + 1 = j.val)
    (hcascading : (t.get j).isCascading false = true) :
    (t.chain i).count j = (t.get j).roundsIn ((t.chain i).count k) := by
  rw [(nodup_chain _ _).count, (nodup_chain _ _).count]
  -- A chain has no timer twice, so the counts are those of zero or one event.
  by_cases hk : k ∈ t.chain i
  · rw [if_pos hk]
    show _ = (if (t.get j).counter = 0xFFFF then 1 else 0) + 0
    by_cases hlast : (t.get j).counter = 0xFFFF
    · rw [if_pos hlast, if_pos ((mem_chain_iff_of_succ hij hsucc).mpr ⟨hk, hcascading, hlast⟩)]
    · rw [if_neg hlast,
        if_neg fun hj => hlast ((mem_chain_iff_of_succ hij hsucc).mp hj).2.2]
  · rw [if_neg hk, if_neg fun hj => hk ((mem_chain_iff_of_succ hij hsucc).mp hj).1]
    rfl

/-- A cascading timer counts every wrap of the timer before it, and wraps when it has counted
enough of them. -/
theorem count_wraps_of_isCascading (hsucc : k.val + 1 = j.val)
    (hcascading : (run.timers.get j).isCascading false = true)
    (hnone : (run.timers.get j).deadline = none) :
    (run.advance target).timers.get j =
        Timer.counted^[(run.wraps target).count k] (run.timers.get j) ∧
      (run.wraps target).count j =
        (run.timers.get j).roundsIn ((run.wraps target).count k) := by
  fun_induction wraps run target with
  | case1 run w h ih =>
    -- The timer has no deadline, so the wrap is that of another one.
    have hij : w.timer ≠ j := by
      intro hj
      rw [← hj, (deadline_of_nextWrap h).1] at hnone
      cases hnone
    have hrearm : (run.rearm w).timers.get j = run.timers.get j := by
      rw [get_rearm, if_neg hij]
    have hget : (run.handle w).timers.get j =
        Timer.counted^[(run.timers.chain w.timer).count k] (run.timers.get j) := by
      have hchain := get_overflow_of_isCascading hij hsucc (hrearm ▸ hcascading)
      rw [chain_rearm, hrearm] at hchain
      rw [handle_eq, hchain]
    have hdeadline : ((run.handle w).timers.get j).deadline = none := by
      rw [deadline_handle, if_neg hij]
      exact hnone
    have hstill : ((run.handle w).timers.get j).isCascading false = true := by
      rw [hget, Timer.isCascading_iterate_counted]
      exact hcascading
    obtain ⟨hend, hcount⟩ := ih hstill hdeadline
    rw [advance_of_nextWrap h, hend, List.count_append, List.count_append, hcount, hget,
      count_chain_of_isCascading hij hsucc hcascading, ← Timer.roundsIn_add,
      ← Function.iterate_add_apply, Nat.add_comm]
    exact ⟨rfl, rfl⟩
  | case2 run h =>
    rw [advance_of_nextWrap_eq_none h]
    exact ⟨rfl, rfl⟩

/-- A timer that neither has a deadline nor cascades does not wrap. -/
theorem count_wraps_of_still (hnot : (run.timers.get i).isCascading (i.val == 0) = false)
    (hnone : (run.timers.get i).deadline = none) : (run.wraps target).count i = 0 := by
  fun_induction wraps run target with
  | case1 run w h ih =>
    have hi : w.timer ≠ i := by
      intro hi
      rw [← hi, (deadline_of_nextWrap h).1] at hnone
      cases hnone
    have hget := get_handle_of_not_isCascading (w := w) hnot
    rw [if_neg hi] at hget
    rw [List.count_append, List.count_eq_zero_of_not_mem (notMem_chain_of_not_isCascading hnot hi),
      ih (by rw [hget]; exact hnot) (by rw [hget]; exact hnone)]
  | case2 => rfl

end TimerRun

/-- Among the sound timers, a timer occurs as often as among all. -/
theorem count_filterMap_soundTimer (l : List TimerId) (s : SoundTimerId) :
    (l.filterMap soundTimer?).count s = l.count (s.castLE (by decide)) := by
  induction l with
  | nil => rfl
  | cons i rest ih =>
    rw [List.filterMap_cons, List.count_cons, ← ih, soundTimer?]
    by_cases hsound : i.val < 2
    · rw [dif_pos hsound]
      simp only [List.count_cons, beq_iff_eq, Fin.ext_iff, Fin.val_castLE]
    · have hne : ¬ i.val = s.val := by omega
      rw [dif_neg hsound]
      simp only [beq_iff_eq, Fin.ext_iff, Fin.val_castLE, if_neg hne, Nat.add_zero]

namespace Timers

/-- The live counter of a cascading timer is the one it has. -/
theorem counter_of_isCascading {t : Timers} {i : TimerId} (hpos : i.val ≠ 0)
    (h : (t.get i).isCascading false = true) : t.counter i = (t.get i).counter := by
  rw [counter, Timer.counterAt, beq_false_of_ne hpos, Timer.isFreeRunning_of_isCascading h]
  rfl

/-- **No wrap is lost in a cascade.** `K i` is how often timer `i` wraps in a step of `n` cycles
from a well-formed state, as the reports and the requests of the step bear out. A timer on its
own clock wraps at its deadline and then after every period, as often as the step has room. A
cascading timer counts all wraps of the timer before it, and so wraps when it runs out of values
and then whenever it has counted a period of them. Its counter ends where it has counted to. A
timer that does not count does not wrap. A timer that wraps has its interrupt requested if its
control register says so, and the sound timers are reported as often as they wrap. -/
theorem cascade_loses_no_wrap (t : Timers) (c : InterruptController) (n : Nat)
    (h : t.WellFormed) :
    let run := t.step c n
    let K := fun i : TimerId => (t.wraps n).count i
    (run.reports.toList = (t.wraps n).filterMap soundTimer? ∧
      run.interrupts = c.raiseTimers ((t.wraps n).filter t.requests)) ∧
    (∀ i, (t.get i).isFreeRunning (i.val == 0) = true →
      ∃ d, (t.get i).deadline = some d ∧
        K i = if t.cycle + n < d then 0
          else 1 + (t.cycle + n - d) /
            ((0x10000 - (t.get i).reload.toNat) * (t.get i).control.prescaler)) ∧
    (∀ i j, i.val + 1 = j.val → (t.get j).isCascading false = true →
      K j = (if K i < 0x10000 - (t.counter j).toNat then 0
        else 1 + (K i - (0x10000 - (t.counter j).toNat)) / (0x10000 - (t.get j).reload.toNat)) ∧
      (run.timers.counter j).toNat =
        if K i < 0x10000 - (t.counter j).toNat then (t.counter j).toNat + K i
        else (t.get j).reload.toNat +
          (K i - (0x10000 - (t.counter j).toNat)) % (0x10000 - (t.get j).reload.toNat)) ∧
    (∀ i, (t.get i).control.started = false → K i = 0) ∧
    (∀ bit, run.interrupts.requested.getLsbD bit = true ↔
      c.requested.getLsbD bit = true ∨
        ∃ i, bit = (Interrupt.timer i).bit ∧ (t.get i).control.interrupts = true ∧ K i ≠ 0) ∧
    run.reports.count 0 = K 0 ∧ run.reports.count 1 = K 1 := by
  intro run K
  have hreports : run.reports.toList = (t.wraps n).filterMap soundTimer? := t.reports_step c n
  have hinterrupts : run.interrupts = c.raiseTimers ((t.wraps n).filter t.requests) :=
    t.interrupts_step c n
  have hcount (s : SoundTimerId) : run.reports.count s = K (s.castLE (by decide)) := by
    rw [← Array.count_toList, hreports, count_filterMap_soundTimer]
  -- The wraps of the run are counted on the timers alone. Controller and reports only list them.
  refine ⟨⟨hreports, hinterrupts⟩, fun i hfree => ?_, fun i j hsucc hcascading => ?_,
    fun i hstopped => ?_, fun bit => ?_, hcount 0, hcount 1⟩
  · -- A free-running timer wraps at its deadline and then once a period.
    have hnow := h i
    rw [Timer.WellFormed, if_pos hfree] at hnow
    exact ⟨_, hnow.2.2, TimerRun.count_wraps_of_isFreeRunning hfree hnow.2.2⟩
  · -- A cascading timer counts the wraps of the timer before it, and `Timer.counted` iterated is
    -- what that comes to.
    have hpos : j.val ≠ 0 := by omega
    have hfree : (t.get j).isFreeRunning (j.val == 0) = false := by
      rw [beq_false_of_ne hpos]
      exact Timer.isFreeRunning_of_isCascading hcascading
    have hnone := h j
    rw [Timer.WellFormed, hfree] at hnone
    obtain ⟨hend, hrounds⟩ :
        (t.step {} n).timers.get j = Timer.counted^[K i] (t.get j) ∧
          K j = (t.get j).roundsIn (K i) :=
      TimerRun.count_wraps_of_isCascading hsucc hcascading hnone
    have hsame : run.timers = (t.step {} n).timers := t.timers_step c n
    rw [← hsame] at hend
    have hstill : (run.timers.get j).isCascading false = true := by
      rw [hend, Timer.isCascading_iterate_counted]
      exact hcascading
    rw [counter_of_isCascading hpos hcascading, counter_of_isCascading hpos hstill, hend]
    exact ⟨hrounds.trans (Timer.roundsIn_eq _ _), Timer.counter_iterate_counted _ _⟩
  · -- A stopped timer neither has a deadline nor is on a chain.
    have hfree : (t.get i).isFreeRunning (i.val == 0) = false := by
      rw [Timer.isFreeRunning, hstopped, Bool.false_and]
    have hnone := h i
    rw [Timer.WellFormed, hfree] at hnone
    refine TimerRun.count_wraps_of_still ?_ hnone
    show (t.get i).isCascading (i.val == 0) = false
    rw [Timer.isCascading, hstopped, Bool.false_and, Bool.false_and]
  · rw [hinterrupts, InterruptController.getLsbD_requested_raiseTimers]
    refine or_congr_right (exists_congr fun i => ?_)
    have hwraps : i ∈ t.wraps n ↔ K i ≠ 0 := by
      rw [← List.count_pos_iff, Nat.pos_iff_ne_zero]
    rw [List.mem_filter, hwraps, and_comm, and_comm (a := K i ≠ 0)]
    exact Iff.rfl

/-- Timer 0 wraps with every cycle. Timers 1 and 2 count it down, with reload values of their
own, and timer 3 is about to wrap for the first time. -/
def rippling : Timers where
  channels := #v[⟨0xFFFF, ⟨0x0080⟩, 0xFFFF, 9, some 10⟩, ⟨0xFFFD, ⟨0x00C4⟩, 0xFFFE, 0, none⟩,
    ⟨0xFF00, ⟨0x0084⟩, 0xFFF0, 0, none⟩, ⟨0x0000, ⟨0x00C4⟩, 0xFFFF, 0, none⟩]
  cycle := 9

/-- The longest DMA block takes 131074 cycles. Timer 0 wraps in all of them, timer 1 with every
third, timer 2 with every 256th of these after the first 16, and timer 3 once. -/
theorem cascade_loses_no_wrap_rippling :
    rippling.WellFormed ∧ (rippling.wraps 131074).count 0 = 131074 ∧
      (rippling.wraps 131074).count 1 = 43691 ∧ (rippling.wraps 131074).count 2 = 171 ∧
      (rippling.wraps 131074).count 3 = 1 ∧
      (rippling.step {} 131074).timers.counter 3 = 170 := by
  have hwf : rippling.WellFormed := by
    unfold WellFormed
    decide
  obtain ⟨-, hfree, hcascading, -⟩ := cascade_loses_no_wrap rippling {} 131074 hwf
  obtain ⟨d, hd, h0⟩ := hfree 0 (by decide)
  cases hd
  obtain ⟨h1, -⟩ := hcascading 0 1 rfl (by decide)
  obtain ⟨h2, -⟩ := hcascading 1 2 rfl (by decide)
  obtain ⟨h3, hcounter⟩ := hcascading 2 3 rfl (by decide)
  -- Each count is the closed form at the count before it.
  have h0 : (rippling.wraps 131074).count 0 = 131074 := h0.trans (by decide)
  simp only [h0] at h1
  have h1 : (rippling.wraps 131074).count 1 = 43691 := h1.trans (by decide)
  simp only [h1] at h2
  have h2 : (rippling.wraps 131074).count 2 = 171 := h2.trans (by decide)
  simp only [h2] at h3 hcounter
  exact ⟨hwf, h0, h1, h2, h3.trans (by decide), BitVec.eq_of_toNat_eq (hcounter.trans (by decide))⟩

end Timers

end AdvanceCore
