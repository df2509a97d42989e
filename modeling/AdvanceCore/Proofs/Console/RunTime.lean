import AdvanceCore.Proofs.Checked.Dma
import AdvanceCore.Proofs.Console.Channels
import AdvanceCore.Proofs.Console.Clock
import AdvanceCore.Proofs.Console.HaltedSleep
import AdvanceCore.Proofs.Cpu.StepOutcomes
import Mathlib.Algebra.GroupWithZero.Nat

/-!
# `AdvanceCore.Proofs.Console.RunTime`: the host's time and the timers' time

The host counts the cycles that steps report, and the timers have a clock of their own. Both are
moved on by the same number in every step, whatever the console does in it, with one exception:
while everything is stopped the host goes on to count and the timers do not.

* `stepLengths`, `afterSteps`, `stops`: a number of steps, and what the host sees of them.
* `cycle_afterSteps`: the two clocks over any number of steps.
* `runFrom_eq`: a run is the shortest sequence of steps that is long enough.
* `runFor_in_step`: both together, with the numbers that a run stays below.
-/

set_option autoImplicit false

namespace AdvanceCore.Console

variable {π : Type} [Peripheral π]

/-! ### Steps in sequence -/

/-- The console after a number of steps. -/
def afterSteps (c : Console π) : Nat → Console π
  | 0 => c
  | k + 1 => c.step.2.afterSteps k

/-- What the first steps report. -/
def stepLengths (c : Console π) : Nat → List Nat
  | 0 => []
  | k + 1 => c.step.1 :: c.step.2.stepLengths k

/-- How many of the first steps wait with everything stopped. -/
def stops (c : Console π) : Nat → Nat
  | 0 => 0
  | k + 1 => (if c.activity = .stopped then 1 else 0) + c.step.2.stops k

/-- One more step adds its length at the end. -/
theorem stepLengths_succ (c : Console π) (k : Nat) :
    c.stepLengths (k + 1) = c.stepLengths k ++ [(c.afterSteps k).step.1] := by
  induction k generalizing c with
  | zero => rfl
  | succ k ih => exact congrArg (c.step.1 :: ·) (ih c.step.2)

/-- Every step takes time. -/
theorem one_le_of_mem_stepLengths {c : Console π} {k cycles : Nat}
    (h : cycles ∈ c.stepLengths k) : 1 ≤ cycles := by
  induction k generalizing c with
  | zero => cases h
  | succ k ih =>
    cases h with
    | head => exact c.one_le_step
    | tail _ hrest => exact ih hrest

/-! ### The two clocks -/

/-- A step moves both clocks by the same number, or is a chunk of the stopped console. -/
theorem cycle_step_add (c : Console π) :
    c.step.2.board.timers.cycle + idleChunk * (if c.activity = .stopped then 1 else 0) =
      c.board.timers.cycle + c.step.1 := by
  rw [cycle_step]
  -- A stopped console lets time pass without its timers.
  cases hactivity : c.activity with
  | transfer | execute | halted => rfl
  | stopped =>
    have hlength : c.step.1 = idleChunk := by
      show (c.perform c.activity).1 = idleChunk
      rw [hactivity]
      rfl
    rw [hlength]
    rfl

/-- Over several steps the clock of the timers goes as far as the steps are long, but for those in
Stop. -/
theorem cycle_afterSteps (c : Console π) (k : Nat) :
    (c.afterSteps k).board.timers.cycle + idleChunk * c.stops k =
      c.board.timers.cycle + (c.stepLengths k).sum := by
  induction k generalizing c with
  | zero => rfl
  | succ k ih =>
    have hstep := c.cycle_step_add
    have hrest := ih c.step.2
    rw [stops, stepLengths, List.sum_cons, Nat.mul_add]
    show (c.step.2.afterSteps k).board.timers.cycle + _ = _
    omega

/-! ### The length of a run -/

/-- The run takes the steps that lead past the target, and none after them. -/
theorem runFrom_eq (c : Console π) (elapsed target : Nat) :
    ∃ k ≤ target - elapsed,
      c.runFrom elapsed target = (elapsed + (c.stepLengths k).sum, c.afterSteps k) ∧
        target ≤ elapsed + (c.stepLengths k).sum ∧
        ∀ j < k, elapsed + (c.stepLengths j).sum < target := by
  fun_induction runFrom c elapsed target with
  | case1 c elapsed hlt cycles next hstep ih =>
    -- The first step takes a cycle at least, which pays for the step that the run is longer by.
    have hpos := c.one_le_step
    rw [hstep] at hpos
    obtain ⟨k, hk, hrun, hreached, hbefore⟩ := ih
    have hlengths (j : Nat) :
        elapsed + (c.stepLengths (j + 1)).sum = elapsed + cycles + (next.stepLengths j).sum := by
      rw [stepLengths, hstep, List.sum_cons, Nat.add_assoc]
    refine ⟨k + 1, ?_, ?_, ?_, ?_⟩
    · dsimp only at hpos
      omega
    · rw [hrun, hlengths, afterSteps, hstep]
    · rw [hlengths]
      exact hreached
    · rintro (_ | j) hj
      · exact hlt
      · rw [hlengths]
        exact hbefore j (Nat.lt_of_succ_lt_succ hj)
  | case2 c elapsed hge =>
    exact ⟨0, Nat.zero_le _, rfl, Nat.le_of_not_lt hge, fun j hj => absurd hj (Nat.not_lt_zero j)⟩

/-- The longest step is that of the longest block. -/
def longestStep : Nat := 2 + 2 * 0x10000

/-- No step is longer: neither a block, whose count is bounded, nor an instruction or a sleep. -/
theorem step_le_longestStep {c : Console π} (h : c.Reachable) : c.step.1 ≤ longestStep := by
  show (c.perform c.activity).1 ≤ longestStep
  cases hactivity : c.activity with
  | transfer t =>
    have hcount := Dma.count_le_of_begin h.dma (activity_eq_transfer_iff.mp hactivity)
    show 2 + 2 * t.count ≤ 2 + 2 * 0x10000
    omega
  | execute =>
    have hcycles := c.cpu.cycles_step_le c.board c.board.interrupts.lines
    exact Nat.le_trans hcycles (by decide)
  | halted => exact Nat.le_trans (haltCycles_le _) (by decide)
  | stopped =>
    show idleChunk ≤ longestStep
    decide

/-- No step of a run is longer than the longest one. -/
theorem le_longestStep_of_mem_stepLengths {c : Console π} {k cycles : Nat}
    (hreachable : c.Reachable) (h : cycles ∈ c.stepLengths k) : cycles ≤ longestStep := by
  induction k generalizing c with
  | zero => cases h
  | succ k ih =>
    cases h with
    | head => exact step_le_longestStep hreachable
    | tail _ hrest => exact ih (hreachable.occur .step) hrest

/-- Without its last step a run is short, and that step is no longer than the longest one. -/
theorem sum_stepLengths_le {c : Console π} {k n : Nat} (h : c.Reachable)
    (hbefore : ∀ j < k, (c.stepLengths j).sum < n) :
    (c.stepLengths k).sum ≤ n + longestStep := by
  -- Before the last step the sum falls short of `n`, and the last step is no longer than the
  -- longest one.
  cases k with
  | zero => exact Nat.zero_le _
  | succ j =>
    have hlengths := c.stepLengths_succ j
    have hshort := hbefore j (Nat.lt_succ_self j)
    have hlast : (c.afterSteps j).step.1 ∈ c.stepLengths (j + 1) := by
      rw [hlengths]
      exact List.mem_append_right _ (List.mem_singleton_self _)
    have hle := le_longestStep_of_mem_stepLengths h hlast
    rw [hlengths, List.sum_append, List.sum_singleton]
    omega

/-! ### Runs -/

/-- A run for a number of cycles ends after no more steps than that. It reports the sum of what
the steps report, which reaches the number, and falls short of it without the last step. The
timers have moved on by as much, less a chunk for every step with everything stopped. In a
console that has been used in any way all the numbers are below what their registers hold. -/
theorem runFor_in_step (c : Console π) (n : Nat) :
    ∃ k ≤ n,
      c.runFor n = ((c.stepLengths k).sum, c.afterSteps k) ∧
      n ≤ (c.runFor n).1 ∧
      (0 < n → ∃ before last, c.stepLengths k = before ++ [last] ∧ before.sum < n) ∧
      (c.runFor n).2.board.timers.cycle + idleChunk * c.stops k =
        c.board.timers.cycle + (c.runFor n).1 ∧
      (∀ cycles ∈ c.stepLengths k, 1 ≤ cycles) ∧
      (c.Reachable →
        (∀ cycles ∈ c.stepLengths k, cycles < 2 ^ 32) ∧
          (n < 2 ^ 63 → (c.runFor n).1 < 2 ^ 64)) := by
  -- The loop ends after some number of steps, and every sum of fewer steps falls short of `n`.
  obtain ⟨k, hk, hrun, hreached, hbefore⟩ := c.runFrom_eq 0 n
  simp only [Nat.zero_add] at hrun hreached hbefore
  have hrun : c.runFor n = ((c.stepLengths k).sum, c.afterSteps k) := hrun
  rw [hrun]
  refine ⟨k, hk, rfl, hreached, fun hpos => ?_, c.cycle_afterSteps k,
    fun cycles => one_le_of_mem_stepLengths,
    fun hreachable => ⟨fun cycles hmem => ?_, fun hn => ?_⟩⟩
  · cases k with
    | zero => exact absurd hreached (Nat.not_le_of_lt hpos)
    | succ j => exact ⟨_, _, c.stepLengths_succ j, hbefore j (Nat.lt_succ_self j)⟩
  · exact Nat.lt_of_le_of_lt (le_longestStep_of_mem_stepLengths hreachable hmem) (by decide)
  · have hlongest : longestStep < 2 ^ 63 := by decide
    have hle := sum_stepLengths_le hreachable hbefore
    show (c.stepLengths k).sum < 2 ^ 64
    omega

/-- A stopped console that is run for a cycle waits a whole chunk, and its timers stand still. -/
theorem bare_stopped_runs_in_step :
    bare.enterStop.Reachable ∧ bare.enterStop.activity = .stopped ∧
      bare.enterStop.runFor 1 = (idleChunk, bare.enterStop.step.2) ∧
      bare.enterStop.step.2.board.timers.cycle = 0 ∧ (bare.enterStop.runFor 1).1 < 2 ^ 64 := by
  have hreachable : bare.enterStop.Reachable := .occur (.host .enterStop) (.fresh ofImages_empty)
  obtain ⟨k, hk, hrun, hreached, -, hclock, -, hbounded⟩ := runFor_in_step bare.enterStop 1
  have hone : k = 1 := by
    cases k with
    | zero =>
      rw [hrun] at hreached
      cases hreached
    | succ j => omega
  subst hone
  rw [hrun] at hclock
  exact ⟨hreachable, by decide, hrun, Nat.add_right_cancel hclock,
    (hbounded hreachable).2 (by decide)⟩

end AdvanceCore.Console
