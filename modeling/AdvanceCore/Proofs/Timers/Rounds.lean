import AdvanceCore.Proofs.Timers.Advance

/-!
# `AdvanceCore.Proofs.Timers.Rounds`: the loop ends, wherever it starts

`TimerRun.advance` is a loop without a bound of its own: it goes on as long as a wrap is due,
and each wrap it handles may make the next one due. `TimerRun.Loop` spells it out as a loop,
one round after the other. Nothing here asks for a sensible state. Deadlines may lie in the
past, or stand beside a timer that does not run, as they can after a state is restored.

* `exists_loop_advance`: the loop ends, in the state that `TimerRun.advance` gives, after at
  most as many rounds as cycles lie between the deadlines and the target.
* `Loop.unique`: it handles no other wraps and ends in no other state.
* `Loop.append`: a loop that is interrupted handles the same wraps, before and after.
* `step_add`: two steps handle the wraps of one step of their sum, and come to the same.
-/

set_option autoImplicit false

namespace AdvanceCore

namespace TimerRun

/-- The loop from `run` to `target` handles the wraps `ws`, in this order, and then finds none
that is due. The clock is moved in the end, which leaves `run'`. -/
inductive Loop (target : Nat) : (run : TimerRun) → (ws : List Wrap) → (run' : TimerRun) → Prop where
  | done {run : TimerRun} (h : run.timers.nextWrap target = none) :
      Loop target run [] (run.withCycle target)
  | round {run run' : TimerRun} {w : Wrap} {ws : List Wrap}
      (h : run.timers.nextWrap target = some w) (hrest : Loop target (run.handle w) ws run') :
      Loop target run (w :: ws) run'

variable {run run' run'' : TimerRun} {middle target : Nat} {ws ws' : List Wrap}

/-- Each round takes at least a cycle off the backlog. -/
theorem Loop.length_le (h : Loop target run ws run') :
    ws.length ≤ run.timers.backlog target := by
  induction h with
  | done => exact Nat.zero_le _
  | round h _ ih => exact Nat.lt_of_le_of_lt ih (backlog_handle_lt h)

/-- The loop ends where `advance` does. -/
theorem exists_loop_advance (run : TimerRun) (target : Nat) :
    ∃ ws, Loop target run ws (run.advance target) := by
  fun_induction advance run target with
  | case1 run w h ih =>
    obtain ⟨ws, hrest⟩ := ih
    exact ⟨w :: ws, .round h hrest⟩
  | case2 run h => exact ⟨[], .done h⟩

/-- There is one way for the loop to go. -/
theorem Loop.unique (h : Loop target run ws run') (h' : Loop target run ws' run'') :
    ws = ws' ∧ run' = run'' := by
  induction h generalizing ws' with
  | done hnone =>
    cases h' with
    | done => exact ⟨rfl, rfl⟩
    | round hsome => cases hnone.symm.trans hsome
  | round hsome _ ih =>
    cases h' with
    | done hnone => cases hnone.symm.trans hsome
    | round hsome' hrest' =>
      -- Both handle the same wrap first, and the rest goes on from the same state.
      cases hsome.symm.trans hsome'
      obtain ⟨rfl, rfl⟩ := ih hrest'
      exact ⟨rfl, rfl⟩

/-- What the loop handles does not depend on where the clock stood. -/
theorem Loop.of_withCycle {cycle : Nat} (h : Loop target (run.withCycle cycle) ws run') :
    Loop target run ws run' := by
  generalize hstart : run.withCycle cycle = start at h
  induction h generalizing run with
  | done hnone =>
    subst hstart
    have hnone : run.timers.nextWrap target = none := hnone
    exact .done hnone
  | round hsome _ ih =>
    subst hstart
    exact .round hsome (ih (handle_withCycle ..).symm)

/-- A loop that is interrupted at a cycle on the way goes on with the wraps that it would have
handled there. -/
theorem Loop.append (h : Loop middle run ws run') (h' : Loop target run' ws' run'')
    (hle : middle ≤ target) : Loop target run (ws ++ ws') run'' := by
  induction h with
  | done => exact h'.of_withCycle
  | round hsome _ ih => exact .round (Timers.nextWrap_mono hle hsome) (ih h')

/-- The loop does not look at the reports. -/
theorem Loop.after (earlier : Array SoundTimerId) (h : Loop target run ws run') :
    Loop target (TimerRun.after earlier run) ws (TimerRun.after earlier run') := by
  induction h with
  | @done run hnone =>
    have hnone : (run.after earlier).timers.nextWrap target = none := hnone
    exact .done hnone
  | @round run _ w _ hsome _ ih =>
    rw [← handle_after] at ih
    have hsome : (run.after earlier).timers.nextWrap target = some w := hsome
    exact .round hsome ih

end TimerRun

namespace Timers

open TimerRun (Loop)

/-- A step of the timers is a loop to its target. -/
theorem exists_loop_step (t : Timers) (c : InterruptController) (n : Nat) :
    ∃ ws, Loop (t.cycle + n) { timers := t, interrupts := c } ws (t.step c n) :=
  TimerRun.exists_loop_advance _ _

/-- **Stepping is additive and always ends.** From any timers whatsoever, the loop of a step
ends after at most as many rounds as its backlog counts. A step of `m` cycles and then one of
`n` cycles handle, one after the other, the wraps of a step of `m + n` cycles. They leave the
same timers and the same controller, and their reports in order are those of the one step. -/
theorem step_add (t : Timers) (c : InterruptController) (m n : Nat) :
    let first := t.step c m
    let second := first.timers.step first.interrupts n
    let whole := t.step c (m + n)
    (∃ ws ws' : List Wrap,
      Loop (t.cycle + m) { timers := t, interrupts := c } ws first ∧
      Loop (first.timers.cycle + n) { timers := first.timers, interrupts := first.interrupts }
        ws' second ∧
      Loop (t.cycle + (m + n)) { timers := t, interrupts := c } (ws ++ ws') whole ∧
      ws.length + ws'.length ≤ t.backlog (t.cycle + (m + n))) ∧
    second.timers = whole.timers ∧ second.interrupts = whole.interrupts ∧
      first.reports ++ second.reports = whole.reports := by
  intro first second whole
  have hsum : TimerRun.after first.reports second = whole := t.step_step c m n
  have htimers := congrArg TimerRun.timers hsum
  have hinterrupts := congrArg TimerRun.interrupts hsum
  have hreports := congrArg TimerRun.reports hsum
  refine ⟨?_, htimers, hinterrupts, hreports⟩
  obtain ⟨ws, hfirst⟩ := t.exists_loop_step c m
  obtain ⟨ws', hsecond⟩ := first.timers.exists_loop_step first.interrupts n
  have hcycle : first.timers.cycle + n = t.cycle + (m + n) := by
    have hmoved : first.timers.cycle = t.cycle + m := TimerRun.cycle_advance ..
    omega
  -- Seen from the start, the second loop goes on with the reports of the first.
  have hresumed := hsecond.after first.reports
  rw [hcycle, TimerRun.after_reports] at hresumed
  have hwhole : Loop (t.cycle + (m + n)) { timers := t, interrupts := c } (ws ++ ws')
      (TimerRun.after first.reports second) := hfirst.append hresumed (by omega)
  have hlength := hwhole.length_le
  rw [hsum] at hwhole
  rw [List.length_append] at hlength
  exact ⟨ws, ws', hfirst, hsecond, hwhole, hlength⟩

end Timers

end AdvanceCore
