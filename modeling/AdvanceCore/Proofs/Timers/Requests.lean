import AdvanceCore.Proofs.Interrupts.PowerStates
import AdvanceCore.Proofs.Timers.Wraps
import Mathlib.Data.List.Induction

/-!
# `AdvanceCore.Proofs.Timers.Requests`: the interrupts that timers request

The timers do not look at the interrupt controller, they only raise requests there. So which
timers wrap, and what that makes of the timers, is the same with any controller, and all that
happens to the controller is that it hears the wraps of the timers that request interrupts.

* `TimerRun.advance_withInterrupts`: an advance with another controller.
* `Timers.step_hears`: the same for a step, whose wraps are `Timers.wraps`.
* `Timers.interrupts_step`, `Timers.reports_step`: what is heard of these wraps.
* `Timers.requested_step`: the requests after a step.
-/

set_option autoImplicit false

namespace AdvanceCore

/-! ### Raising several interrupts -/

namespace InterruptController

/-- Raises the interrupts of timers, one after the other. -/
def raiseTimers (c : InterruptController) (timers : List TimerId) : InterruptController :=
  timers.foldl (fun c i => c.raise (.timer i)) c

/-- Two lists of interrupts are raised one after the other. -/
theorem raiseTimers_append (c : InterruptController) (first second : List TimerId) :
    c.raiseTimers (first ++ second) = (c.raiseTimers first).raiseTimers second :=
  List.foldl_append

/-- Raising an interrupt sets its bit. -/
theorem requested_raise (c : InterruptController) (source : Interrupt) :
    (c.raise source).requested = c.requested ||| source.mask := by
  unfold raise
  rw [checkWake_eq]

/-- What is requested in the end does not depend on what was requested before. -/
theorem requested_raiseTimers (c : InterruptController) (timers : List TimerId) :
    (c.raiseTimers timers).requested = c.requested ||| (raiseTimers {} timers).requested := by
  -- The list grows at its end, where both sides get the same bit.
  induction timers using List.reverseRecOn with
  | nil => exact (BitVec.or_zero).symm
  | append_singleton timers i ih =>
    rw [raiseTimers_append, raiseTimers_append]
    show ((c.raiseTimers timers).raise _).requested =
      _ ||| ((raiseTimers {} timers).raise _).requested
    rw [requested_raise, requested_raise, ih, BitVec.or_assoc]

/-- Each timer requests its own bit. -/
theorem getLsbD_requested_raiseTimers (c : InterruptController) (timers : List TimerId)
    (bit : Nat) :
    (c.raiseTimers timers).requested.getLsbD bit = true ↔
      c.requested.getLsbD bit = true ∨ ∃ i ∈ timers, bit = (Interrupt.timer i).bit := by
  -- On the timers, which are raised one after the other.
  induction timers generalizing c with
  | nil => simp [raiseTimers]
  | cons i rest ih =>
    have hmask : (Interrupt.timer i).mask.getLsbD bit = true ↔ bit = (Interrupt.timer i).bit := by
      have hlt := (Interrupt.timer i).bit_lt
      rw [Interrupt.mask, BitVec.getLsbD_twoPow]
      simp
      omega
    show ((c.raise (.timer i)).raiseTimers rest).requested.getLsbD bit = true ↔ _
    rw [ih, requested_raise, BitVec.getLsbD_or, Bool.or_eq_true, hmask]
    simp [or_assoc]

end InterruptController

/-! ### Another controller -/

/-- The timers whose wraps request interrupts. -/
def Timers.requests (t : Timers) (i : TimerId) : Bool := (t.get i).control.interrupts

/-- Which timers ask for interrupts is read from their control registers. -/
theorem Timers.requests_set {t : Timers} {i : TimerId} {timer : Timer}
    (h : timer.control = (t.get i).control) : (t.set i timer).requests = t.requests := by
  funext j
  unfold requests
  rw [get_set]
  split
  · next hij => rw [h, hij]
  · rfl

namespace TimerRun

open Timers (chain_of_wraps chain_of_ends chain_set)

/-- The run with another controller. -/
def withInterrupts (run : TimerRun) (c : InterruptController) : TimerRun :=
  { run with interrupts := c }

/-- A wrap raises its interrupt on any controller, and leaves the run otherwise alone. -/
theorem announce_withInterrupts (run : TimerRun) (c : InterruptController) (i : TimerId) :
    (run.withInterrupts c).announce i =
      (run.announce i).withInterrupts (c.raiseTimers ([i].filter run.timers.requests)) := by
  have hraised : (if (run.timers.get i).control.interrupts then c.raise (.timer i) else c) =
      c.raiseTimers ([i].filter run.timers.requests) := by
    rw [List.filter_cons]
    show _ = c.raiseTimers (if (run.timers.get i).control.interrupts = true then [i] else [])
    split <;> rfl
  exact congrArg (fun c => TimerRun.mk run.timers c (run.announce i).reports) hraised

/-- Counting wraps does not change which timers request interrupts. -/
theorem requests_overflow (run : TimerRun) (i : TimerId) :
    (run.overflow i).timers.requests = run.timers.requests := by
  funext j
  obtain ⟨⟨c, hc⟩, -⟩ := run.counted_overflow i j
  show ((run.overflow i).timers.get j).control.interrupts = _
  rw [hc]
  rfl

/-- Rearming leaves the control registers. -/
theorem requests_rearm (run : TimerRun) (w : Wrap) :
    (run.rearm w).timers.requests = run.timers.requests :=
  Timers.requests_set rfl

/-- Handling a wrap leaves the control registers. -/
theorem requests_handle (run : TimerRun) (w : Wrap) :
    (run.handle w).timers.requests = run.timers.requests := by
  rw [handle_eq, requests_overflow, requests_rearm]

/-- A wrap raises the interrupts of its chain, in the order of the timers. -/
theorem overflow_withInterrupts (run : TimerRun) (c : InterruptController) (i : TimerId) :
    (run.withInterrupts c).overflow i =
      (run.overflow i).withInterrupts
        (c.raiseTimers ((run.timers.chain i).filter run.timers.requests)) := by
  -- No guard of `overflow` reads the controller.
  fun_induction overflow run i generalizing c with
  | case1 run i run' h next timer hcascading hwraps ih =>
    have hchain : run.timers.chain i = [i] ++ run.timers.chain next :=
      chain_of_wraps h hcascading hwraps
    have hrequests : (run'.timers.set next { timer with counter := timer.reload }).requests =
        run.timers.requests := Timers.requests_set rfl
    rw [chain_set (Nat.le_refl _), hrequests] at ih
    rw [hchain, List.filter_append, InterruptController.raiseTimers_append, overflow,
      announce_withInterrupts]
    refine Eq.trans ?_ (ih _)
    exact (dif_pos h).trans ((if_pos hcascading).trans (if_pos hwraps))
  | case2 run i run' h next timer hcascading hwraps =>
    have hchain : run.timers.chain i = [i] := chain_of_ends fun _ hends => hwraps hends.2
    rw [overflow, announce_withInterrupts, hchain]
    exact (dif_pos h).trans ((if_pos hcascading).trans (if_neg hwraps))
  | case3 run i run' h next timer hcascading =>
    have hchain : run.timers.chain i = [i] := chain_of_ends fun _ hends => hcascading hends.1
    rw [overflow, announce_withInterrupts, hchain]
    exact (dif_pos h).trans (if_neg hcascading)
  | case4 run i run' h =>
    have hchain : run.timers.chain i = [i] := chain_of_ends fun hlt => absurd hlt h
    rw [overflow, announce_withInterrupts, hchain]
    exact dif_neg h

/-- A wrap that is handled raises the interrupts of its chain. -/
theorem handle_withInterrupts (run : TimerRun) (c : InterruptController) (w : Wrap) :
    (run.withInterrupts c).handle w =
      (run.handle w).withInterrupts
        (c.raiseTimers ((run.timers.chain w.timer).filter run.timers.requests)) := by
  have hoverflow := (run.rearm w).overflow_withInterrupts c w.timer
  rw [chain_rearm, requests_rearm] at hoverflow
  exact hoverflow

/-- The whole loop raises the interrupts of its wraps, whatever controller it began with. -/
theorem advance_withInterrupts (run : TimerRun) (c : InterruptController) (target : Nat) :
    (run.withInterrupts c).advance target =
      (run.advance target).withInterrupts
        (c.raiseTimers ((run.wraps target).filter run.timers.requests)) := by
  fun_induction advance run target generalizing c with
  | case1 run w h ih =>
    have hnext : (run.withInterrupts c).timers.nextWrap target = some w := h
    rw [advance_of_nextWrap hnext, handle_withInterrupts, ih, requests_handle,
      wraps_of_nextWrap h, List.filter_append, InterruptController.raiseTimers_append]
  | case2 run h =>
    have hnext : (run.withInterrupts c).timers.nextWrap target = none := h
    rw [wraps_of_nextWrap_eq_none h]
    exact advance_of_nextWrap_eq_none hnext

end TimerRun

namespace Timers

/-- The timers that wrap in the next cycles, in order. -/
def wraps (t : Timers) (elapsed : Nat) : List TimerId :=
  TimerRun.wraps { timers := t, interrupts := {} } (t.cycle + elapsed)

/-- With any controller, a step makes the same of the timers, and the controller hears those
that wrap and request interrupts. -/
theorem step_hears (t : Timers) (c : InterruptController) (elapsed : Nat) :
    t.step c elapsed =
      (t.step {} elapsed).withInterrupts
        (c.raiseTimers ((t.wraps elapsed).filter t.requests)) :=
  TimerRun.advance_withInterrupts { timers := t, interrupts := {} } c (t.cycle + elapsed)

/-- The timers do not hear what becomes of their interrupts. -/
theorem timers_step (t : Timers) (c : InterruptController) (elapsed : Nat) :
    (t.step c elapsed).timers = (t.step {} elapsed).timers := by
  rw [step_hears]
  rfl

/-- A step raises the interrupts of its wraps, and does nothing else to the controller. -/
theorem interrupts_step (t : Timers) (c : InterruptController) (elapsed : Nat) :
    (t.step c elapsed).interrupts = c.raiseTimers ((t.wraps elapsed).filter t.requests) := by
  rw [step_hears]
  rfl

/-- The sound timers among those that wrap are reported. -/
theorem reports_step (t : Timers) (c : InterruptController) (elapsed : Nat) :
    (t.step c elapsed).reports.toList = (t.wraps elapsed).filterMap soundTimer? := by
  rw [step_hears]
  exact TimerRun.reports_advance { timers := t, interrupts := {} } (t.cycle + elapsed)

/-- A step adds requests of timers, which do not depend on the controller. -/
theorem requested_step (t : Timers) (elapsed : Nat) :
    (∀ c, (t.step c elapsed).interrupts.requested =
      c.requested ||| (t.step {} elapsed).interrupts.requested) ∧
    ∀ bit, (t.step {} elapsed).interrupts.requested.getLsbD bit = true →
      ∃ i : TimerId, bit = (Interrupt.timer i).bit := by
  refine ⟨fun c => ?_, fun bit hbit => ?_⟩
  · rw [interrupts_step, interrupts_step]
    exact c.requested_raiseTimers _
  · rw [interrupts_step, InterruptController.getLsbD_requested_raiseTimers] at hbit
    obtain hblank | ⟨i, -, hi⟩ := hbit
    · simp at hblank
    · exact ⟨i, hi⟩

end Timers

end AdvanceCore
