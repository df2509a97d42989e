import AdvanceCore.Console
import AdvanceCore.Proofs.Timers.Advance
import Mathlib.Logic.Function.Iterate

/-!
# `AdvanceCore.Proofs.Console.HaltedSleep`: waiting many cycles at once

A halted console does not wait cycle by cycle. It asks the timers for their next wrap, sleeps
until then, but no longer than a chunk, and lets the timers catch up afterwards. Only a wrap
can request an interrupt in the meantime, so the processor could not have woken up any earlier.

* `lt_deadline_of_lt_haltCycles`: no deadline falls inside a sleep. It may fall on its end.
* `idleCycle`, `iterate_idleCycle`: waiting a single cycle, and many of them.
* `catchUp_unattached`: without attached hardware only the timers have to catch up.
* `halted_step_eq_single_cycles`: a sleep of `n` cycles is `n` single ones, and the console is
  halted before each of them.

None of this asks anything of the timers. They may even have deadlines that have passed, as a
restored state can: the sleep is then a single cycle.
-/

set_option autoImplicit false

namespace AdvanceCore

/-! ### The length of a sleep -/

namespace Timers

/-- The earliest deadline is no later than any other. -/
theorem earliestDeadline_le {t : Timers} {i : TimerId} {d : Nat}
    (h : (t.get i).deadline = some d) : ∃ first, t.earliestDeadline = some first ∧ first ≤ d := by
  have hmem : d ∈ (List.finRange 4).filterMap fun i => (t.get i).deadline :=
    List.mem_filterMap.mpr ⟨i, List.mem_finRange i, h⟩
  unfold earliestDeadline
  -- A list with a member has a minimum, and the minimum is not above the member.
  generalize ((List.finRange 4).filterMap fun i => (t.get i).deadline) = deadlines at hmem ⊢
  cases hmin : deadlines.min? with
  | none =>
    rw [List.min?_eq_none_iff] at hmin
    rw [hmin] at hmem
    cases hmem
  | some first =>
    obtain ⟨-, hle⟩ := List.min?_eq_some_iff.mp hmin
    exact ⟨first, rfl, hle d hmem⟩

/-- Until a cycle before every deadline a step only moves the clock. -/
theorem step_of_lt_deadline {t : Timers} {n : Nat}
    (h : ∀ i d, (t.get i).deadline = some d → t.cycle + n < d) (interrupts : InterruptController) :
    t.step interrupts n = { timers := { t with cycle := t.cycle + n }, interrupts := interrupts } :=
  TimerRun.advance_of_nextWrap_eq_none (nextWrap_eq_none_iff.mpr h)

end Timers

/-- A halted console sleeps for a chunk at most. -/
theorem haltCycles_le (t : Timers) : haltCycles t ≤ idleChunk := by
  unfold haltCycles
  split
  · exact Nat.max_le.mpr ⟨by decide, Nat.min_le_right ..⟩
  · exact Nat.le_refl _

/-- No deadline falls inside a sleep. -/
theorem lt_deadline_of_lt_haltCycles {t : Timers} {n : Nat} (hpos : 0 < n)
    (hlt : n < haltCycles t) {i : TimerId} {d : Nat} (hd : (t.get i).deadline = some d) :
    t.cycle + n < d := by
  obtain ⟨first, hfirst, hle⟩ := Timers.earliestDeadline_le hd
  have hwake : t.cyclesUntilWake = some (first - t.cycle) := by
    rw [Timers.cyclesUntilWake, hfirst]
    rfl
  unfold haltCycles at hlt
  rw [hwake] at hlt
  -- A sleep of more than one cycle is at most as long as it takes to the first deadline.
  have hsleep : n < max 1 (min (first - t.cycle) idleChunk) := hlt
  have hfar : n < first - t.cycle := by omega
  omega

namespace Console

variable {π : Type}

/-! ### Single cycles -/

/-- Lets the timers pass a single cycle. -/
def idleCycle (c : Console π) : Console π :=
  { c with board := (c.board.stepTimers 1).2 }

/-- Two steps of the timers are one, also for the rest of the board. -/
theorem stepTimers_stepTimers (b : Board π) (m n : Nat) :
    ((b.stepTimers m).2.stepTimers n).2 = (b.stepTimers (m + n)).2 := by
  have hstep := b.timers.step_step b.interrupts m n
  have htimers := congrArg TimerRun.timers hstep
  have hinterrupts := congrArg TimerRun.interrupts hstep
  show { b with timers := _, interrupts := _ } = { b with timers := _, interrupts := _ }
  rw [← htimers, ← hinterrupts]
  rfl

/-- Waiting cycle by cycle, at least once. -/
theorem iterate_idleCycle (c : Console π) (n : Nat) :
    idleCycle^[n + 1] c = { c with board := (c.board.stepTimers (n + 1)).2 } := by
  -- No cycle at all is not a step of length zero, which would handle deadlines that have passed.
  induction n with
  | zero => rfl
  | succ n ih =>
    rw [Function.iterate_succ_apply', ih]
    show { c with board := ((c.board.stepTimers (n + 1)).2.stepTimers 1).2 } = _
    rw [stepTimers_stepTimers]

/-! ### A console on its own -/

/-- A halted console without a block to move sleeps. -/
theorem activity_of_halt {c : Console π} (hinactive : c.board.dma.isActive = false)
    (hhalt : c.board.interrupts.power = .halt) : c.activity = .halted := by
  have hidle : c.board.dma.begin? = none := by
    rw [Dma.begin?, Option.map_eq_none_iff]
    exact Option.not_isSome_iff_eq_none.mp (by rw [← Dma.isActive, hinactive]; decide)
  unfold activity
  rw [hidle, hhalt]

variable [Peripheral π]

/-- Without attached units nobody reports anything. -/
theorem stepAttachments_unattached {b : Board π} (h : b.attachments = [])
    (wraps : Array SoundTimerId) (elapsed : Nat) :
    b.stepAttachments wraps elapsed = (#[], b) := by
  obtain ⟨bootRom, externalRam, internalRam, cartridge, dma, timers, interrupts, attachments⟩ := b
  cases h
  let hear (heard : Array Signal × List (Attachment π)) (timer : SoundTimerId) :=
    Attachment.each (fun unit => Peripheral.timerWrapped unit timer) heard.1 heard.2
  -- Each wrap is announced to nobody.
  have hheard : wraps.foldl hear (#[], []) = (#[], []) := by
    rw [← Array.foldl_toList]
    induction wraps.toList with
    | nil => rfl
    | cons timer rest ih => exact ih
  unfold Board.stepAttachments
  dsimp only
  rw [hheard]
  rfl

/-- Only the timers catch up. -/
theorem catchUp_unattached {c : Console π} (h : c.board.attachments = []) (elapsed : Nat) :
    c.catchUp elapsed true = { c with board := (c.board.stepTimers elapsed).2 } := by
  have hstepped : (c.board.stepTimers elapsed).2.attachments = [] := h
  unfold catchUp
  simp only [if_true, stepAttachments_unattached hstepped]
  rfl

/-- A halted console with no active channel and no attached hardware sleeps for at least one
cycle and at most a chunk. Its timers, its interrupts and everything else end up as after that
many single cycles, before each of which it was still halted. -/
theorem halted_step_eq_single_cycles {c : Console π} (hattached : c.board.attachments = [])
    (hinactive : c.board.dma.isActive = false) (hhalt : c.board.interrupts.power = .halt) :
    1 ≤ c.step.1 ∧ c.step.1 ≤ idleChunk ∧
      c.step.2 = idleCycle^[c.step.1] c ∧
      ∀ n < c.step.1, (idleCycle^[n] c).board.interrupts.power = .halt := by
  have hactivity := activity_of_halt hinactive hhalt
  have helapsed : c.step.1 = haltCycles c.board.timers := by
    show (c.perform c.activity).1 = _
    rw [hactivity]
    rfl
  have hpos := c.one_le_step
  have hstep : c.step.2 = { c with board := (c.board.stepTimers c.step.1).2 } := by
    rw [← catchUp_unattached hattached]
    show (c.perform c.activity).2.catchUp _ c.activity.advancesTimers = _
    rw [hactivity]
    rw [helapsed]
    rfl
  refine ⟨hpos, ?_, ?_, ?_⟩
  · rw [helapsed]
    exact haltCycles_le c.board.timers
  · obtain ⟨n, hn⟩ : ∃ n, c.step.1 = n + 1 := ⟨c.step.1 - 1, by omega⟩
    rw [hstep, hn]
    exact (iterate_idleCycle c n).symm
  · intro n hn
    cases n with
    | zero => exact hhalt
    | succ n =>
      -- The deadlines all lie ahead, so no wrap has requested an interrupt yet.
      rw [helapsed] at hn
      have hquiet := Timers.step_of_lt_deadline
        (fun i d hd => lt_deadline_of_lt_haltCycles (Nat.succ_pos n) hn hd) c.board.interrupts
      rw [iterate_idleCycle]
      show (c.board.timers.step c.board.interrupts (n + 1)).interrupts.power = .halt
      rw [hquiet]
      exact hhalt

/-- A halted console. Timer 0 wraps in sixteen cycles, which ends the halt. -/
def dozing : Console NoPeripheral :=
  let timer : Timer := { control := ⟨0x00C0⟩, counter := 0xFFF0 }
  { cpu := .initial
    board :=
      { bootRom := ⟨.ofImage .empty (Nat.zero_le _)⟩
        timers := Timers.set {} 0 (timer.reschedule true)
        interrupts := { enabled := Interrupt.mask (.timer 0), power := .halt } } }

/-- It sleeps until the wrap. -/
theorem dozing_until_wrap :
    dozing.step.1 = 16 ∧ dozing.step.2 = idleCycle^[16] dozing ∧
      (idleCycle^[15] dozing).board.interrupts.power = .halt := by
  have hlong : dozing.step.1 = 16 := by decide
  obtain ⟨-, -, hsingle, hasleep⟩ := halted_step_eq_single_cycles (c := dozing) rfl rfl rfl
  rw [hlong] at hsingle hasleep
  exact ⟨hlong, hsingle, hasleep 15 (by decide)⟩

end Console

end AdvanceCore
