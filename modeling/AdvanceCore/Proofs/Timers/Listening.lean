import AdvanceCore.Proofs.Timers.Requests

/-!
# `AdvanceCore.Proofs.Timers.Listening`: wraps that are heard at once

`TimerRun` writes the wraps of the sound timers down, and hardware reads the list when the timers
are done. A console would rather call its hardware at once, in the middle of the loop over the
wraps, and while the loop follows a chain of cascading timers. `ListenedRun` is the loop with such
a call in it. It does the same: what a listener can do does not reach the timers, and the list is
in the order of the calls.

* `ListenedRun`: the loop that calls a listener.
* `ListenedRun.told`: a run with a listener that has read what the run has written down.
* `announce_told`, `overflow_told`, `handle_told`, `advance_told`: each part of the loop leads from
  such a run to such a run.
* `Timers.stepListened_eq`: all of it, with the wraps of the step.
-/

set_option autoImplicit false

namespace AdvanceCore

/-- The timers in motion, with a listener who is called at every wrap of a sound timer. -/
structure ListenedRun (σ : Type) where
  timers : Timers
  interrupts : InterruptController
  listener : σ

namespace ListenedRun

variable {σ : Type} (hear : σ → SoundTimerId → σ)

/-! ### The loop -/

/-- Requests the interrupt of a timer that wraps, and calls the listener for a sound timer. -/
def announce (run : ListenedRun σ) (i : TimerId) : ListenedRun σ :=
  let interrupts :=
    if (run.timers.get i).control.interrupts then run.interrupts.raise (.timer i)
    else run.interrupts
  { run with
    interrupts := interrupts
    listener := if h : i.val < 2 then hear run.listener ⟨i.val, h⟩ else run.listener }

/-- The effects of a timer that wraps, on the next timer and on from there. -/
def overflow (run : ListenedRun σ) (i : TimerId) : ListenedRun σ :=
  let run := run.announce hear i
  if h : i.val + 1 < 4 then
    let next : TimerId := ⟨i.val + 1, h⟩
    let timer := run.timers.get next
    if timer.isCascading false then
      if timer.counter = 0xFFFF then
        overflow { run with timers := run.timers.set next { timer with counter := timer.reload } }
          next
      else
        { run with timers := run.timers.set next { timer with counter := timer.counter + 1 } }
    else run
  else run
termination_by 3 - i.val

/-- Handles the wrap of a timer on its own clock. -/
def handle (run : ListenedRun σ) (w : Wrap) : ListenedRun σ :=
  let timer := ((run.timers.get w.timer).restart w.cycle).reschedule (w.timer.val == 0)
  overflow hear { run with timers := run.timers.set w.timer timer } w.timer

/-! ### The list of wraps -/

/-- A run with a listener who has heard the wraps that it has written down. -/
def told (run : TimerRun) (listener : σ) : ListenedRun σ :=
  ⟨run.timers, run.interrupts, run.reports.foldl hear listener⟩

/-- A listener that hears a wrap when it is announced is told of it afterwards. -/
theorem announce_told (run : TimerRun) (listener : σ) (i : TimerId) :
    (told hear run listener).announce hear i = told hear (run.announce i) listener := by
  have hlistener :
      (if h : i.val < 2 then hear (run.reports.foldl hear listener) ⟨i.val, h⟩
        else run.reports.foldl hear listener) =
      (if h : i.val < 2 then run.reports.push ⟨i.val, h⟩ else run.reports).foldl hear listener := by
    split
    · exact Array.foldl_push.symm
    · rfl
  exact congrArg (ListenedRun.mk run.timers (run.announce i).interrupts) hlistener

/-- The calls along a chain come in the order in which the chain is written down. -/
theorem overflow_told (run : TimerRun) (listener : σ) (i : TimerId) :
    (told hear run listener).overflow hear i = told hear (run.overflow i) listener := by
  -- Both functions announce the wrap and make the same two tests. The cases are those of the run
  -- without a listener.
  fun_induction TimerRun.overflow run i with
  | case1 run i run' h next timer hcascading hwraps ih =>
    rw [overflow, announce_told]
    refine Eq.trans ?_ ih
    exact (dif_pos h).trans ((if_pos hcascading).trans (if_pos hwraps))
  | case2 run i run' h next timer hcascading hwraps =>
    rw [overflow, announce_told]
    exact (dif_pos h).trans ((if_pos hcascading).trans (if_neg hwraps))
  | case3 run i run' h next timer hcascading =>
    rw [overflow, announce_told]
    exact (dif_pos h).trans (if_neg hcascading)
  | case4 run i run' h =>
    rw [overflow, announce_told]
    exact dif_neg h

/-- A listener that hears a wrap as it is handled is told of it afterwards, with all timers that it
is handed on to. -/
theorem handle_told (run : TimerRun) (listener : σ) (w : Wrap) :
    (told hear run listener).handle hear w = told hear (run.handle w) listener :=
  overflow_told hear (run.rearm w) listener w.timer

/-- The listener does not hold up the timers. -/
theorem backlog_handle_lt {run : ListenedRun σ} {target : Nat} {w : Wrap}
    (h : run.timers.nextWrap target = some w) :
    (run.handle hear w).timers.backlog target < run.timers.backlog target := by
  let silent : TimerRun := { timers := run.timers, interrupts := run.interrupts }
  have hhandle : run.handle hear w = told hear (silent.handle w) run.listener :=
    handle_told hear silent run.listener w
  rw [hhandle]
  exact TimerRun.backlog_handle_lt h

/-- Advances the clock to `target` and handles every wrap on the way. -/
def advance (run : ListenedRun σ) (target : Nat) : ListenedRun σ :=
  match _h : run.timers.nextWrap target with
  | some w => (run.handle hear w).advance target
  | none => { run with timers := { run.timers with cycle := target } }
termination_by run.timers.backlog target
decreasing_by exact backlog_handle_lt hear _h

/-- The loop of a listened run handles the same wrap first. -/
theorem advance_of_nextWrap (run : ListenedRun σ) {target : Nat} {w : Wrap}
    (h : run.timers.nextWrap target = some w) :
    run.advance hear target = (run.handle hear w).advance hear target := by
  rw [advance]
  split
  · next v hv =>
    cases h.symm.trans hv
    rfl
  · next hv => cases h.symm.trans hv

/-- The loop of a listened run ends where the other one ends. -/
theorem advance_of_nextWrap_eq_none (run : ListenedRun σ) {target : Nat}
    (h : run.timers.nextWrap target = none) :
    run.advance hear target = { run with timers := { run.timers with cycle := target } } := by
  rw [advance]
  split
  · next v hv => cases h.symm.trans hv
  · rfl

/-- Over the whole way the listener hears what is written down. -/
theorem advance_told (run : TimerRun) (listener : σ) (target : Nat) :
    (told hear run listener).advance hear target = told hear (run.advance target) listener := by
  fun_induction TimerRun.advance run target with
  | case1 run w h ih =>
    rw [advance_of_nextWrap hear (told hear run listener) h, handle_told, ih]
  | case2 run h => exact advance_of_nextWrap_eq_none hear (told hear run listener) h

end ListenedRun

namespace Timers

variable {σ : Type} (hear : σ → SoundTimerId → σ)

/-- Advances the timers by a number of cycles, with a listener. -/
def stepListened (t : Timers) (interrupts : InterruptController) (listener : σ) (elapsed : Nat) :
    ListenedRun σ :=
  ListenedRun.advance hear ⟨t, interrupts, listener⟩ (t.cycle + elapsed)

/-- The timers and the controller are those after a step, and the listener has heard the wraps of
the sound timers in it, in order. -/
theorem stepListened_eq (t : Timers) (interrupts : InterruptController) (listener : σ)
    (elapsed : Nat) :
    t.stepListened hear interrupts listener elapsed =
      ⟨(t.step interrupts elapsed).timers, (t.step interrupts elapsed).interrupts,
        ((t.wraps elapsed).filterMap soundTimer?).foldl hear listener⟩ := by
  rw [← t.reports_step interrupts elapsed, Array.foldl_toList]
  exact ListenedRun.advance_told hear { timers := t, interrupts := interrupts } listener _

end Timers

end AdvanceCore
