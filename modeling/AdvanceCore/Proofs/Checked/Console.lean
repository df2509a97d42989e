import AdvanceCore.Proofs.Checked.Board
import AdvanceCore.Proofs.Checked.Guarded
import AdvanceCore.Proofs.Checked.Instructions
import AdvanceCore.Proofs.Console.Channels
import AdvanceCore.Proofs.Console.Clock
import AdvanceCore.Proofs.Console.HaltedSleep

/-!
# `AdvanceCore.Proofs.Checked.Console`: no program breaks the console

A step of the console in checked form gives nothing as soon as anything on the way breaks: an
index, a bit number or a shift amount that is out of range, a sum that does not fit, or a
difference below zero. The processor and the blocks run over a guarded board, and what is left
of the board says whether an access has broken it.

Whether a step breaks depends on two parts of the console. A block takes a number of cycles
that fits, because a channel that is active has a block that it can count (`Dma.Reachable`).
The timers work out their differences, because no timer counts from a cycle that is still to
come (`Timers.Reachable`). Both hold of every console that events lead to, and neither depends
on what is in the memories.

* `Console.Standalone`: the consoles with nothing attached, whatever is in their memories.
* `Console.Intact`: the two parts are in states that they can be in.
* `Console.step_never_breaks`: no step breaks a console before its clock runs out.
-/

set_option autoImplicit false

namespace AdvanceCore

namespace Console

/-! ### The step -/

/-- The checked form of `activity`. -/
def activity? {π : Type} (c : Console π) : Option Activity := do
  match ← c.board.dma.nextBlock? with
  | some t => return .transfer t
  | none =>
    return match c.board.interrupts.power with
      | .run => .execute
      | .halt => .halted
      | .stop => .stopped

/-- The checked form of `moveBlock`. -/
def moveBlock? (c : Console NoPeripheral) (t : DmaTransfer) :
    Option (Nat × Console NoPeripheral) := do
  let (moved, bus) ← t.run? (Guarded.mk (some c.board))
  let board ← bus.bus?
  let (dma, interrupts) ← board.dma.finish? moved board.interrupts
  return (← t.cycles?, { c with board := { board with dma := dma, interrupts := interrupts } })

/-- The checked form of `stepCpu`. -/
def stepCpu? (c : Console NoPeripheral) : Option (Nat × Console NoPeripheral) := do
  let lines := c.board.interrupts.lines
  let (cycles, cpu, bus) ← c.cpu.step? (Guarded.mk (some c.board)) lines
  let c : Console NoPeripheral := { cpu := cpu, board := ← bus.bus? }
  return (cycles, if lines.reset then c.mapInterrupts .acknowledgeReset else c)

/-- The checked form of `perform`. -/
def perform? (c : Console NoPeripheral) : Activity → Option (Nat × Console NoPeripheral)
  | .transfer t => c.moveBlock? t
  | .execute => c.stepCpu?
  | .halted => some (haltCycles c.board.timers, c)
  | .stopped => some (idleChunk, c)

/-- The checked form of `catchUp`. Nothing is attached that would have to catch up. -/
def catchUp? (c : Console NoPeripheral) (elapsed : Nat) (advancesTimers : Bool) :
    Option (Console NoPeripheral) := do
  if advancesTimers then
    let run ← c.board.timers.step? c.board.interrupts elapsed
    return { c with board := { c.board with timers := run.timers, interrupts := run.interrupts } }
  else return c

/-- The checked form of `step`. -/
def step? (c : Console NoPeripheral) : Option (Nat × Console NoPeripheral) := do
  let activity ← c.activity?
  let (elapsed, c) ← c.perform? activity
  return (elapsed, ← c.catchUp? elapsed activity.advancesTimers)

/-! ### What does not break -/

/-- What a console does next depends on its channels and its power state alone. -/
theorem activity?_eq {π : Type} (c : Console π) : c.activity? = some c.activity := by
  simp only [activity?, activity, Dma.nextBlock?_eq, Option.bind_eq_bind, Option.bind_some]
  cases c.board.dma.begin? <;> rfl

/-- The parts of a console on which it depends whether a step breaks are in states that they
can be in. -/
structure Intact {π : Type} (c : Console π) : Prop where
  dma : c.board.dma.Reachable
  timers : c.board.timers.Reachable

/-- An intact console stays intact, whatever occurs. -/
theorem Intact.occur {π : Type} [Peripheral π] {c : Console π} (h : c.Intact) (e : Event) :
    (c.occur e).Intact :=
  ⟨reachable_occur h.dma e, timers_occur h.timers e⟩

/-- The checked form of an activity breaks nothing, takes as long as the activity, and leaves
what it leaves, with its timers timely. -/
structure Performs (checked : Option (Nat × Console NoPeripheral))
    (done : Nat × Console NoPeripheral) : Prop where
  eq : checked = some done
  timely : done.2.board.Timely
  cycles_le : done.1 ≤ 2 ^ 20

variable {c : Console NoPeripheral}

/-- Until its clock has run for half of its range, the timers of an intact console are timely. -/
theorem Intact.timely (h : c.Intact) (hclock : c.board.timers.cycle < 2 ^ 63) :
    c.board.Timely :=
  ⟨h.timers.base_le_cycle, hclock⟩

/-- A block does not break the board, and its cycles fit. -/
theorem moveBlock?_of_timely (h : c.board.Timely) {t : DmaTransfer} (hcount : t.count ≤ 0x10000) :
    Performs (c.moveBlock? t) (c.moveBlock t) := by
  obtain ⟨hrun, htimely⟩ := Board.unbroken.run_guarded h t
  have hcycles : t.cycles? = some t.cycles := DmaTransfer.cycles?_of_le (by omega)
  refine ⟨?_, htimely, ?_⟩
  · simp only [moveBlock?, DmaTransfer.run?_eq, hrun, Dma.finish?_eq, hcycles,
      Option.bind_eq_bind, Option.bind_some, Prod.map]
    rfl
  · show 2 + 2 * t.count ≤ 2 ^ 20
    omega

/-- A step of the processor does not either. It takes nineteen cycles at most. -/
theorem stepCpu?_of_timely (h : c.board.Timely) : Performs c.stepCpu? c.stepCpu := by
  obtain ⟨hstep, htimely⟩ := Board.unbroken.step_guarded h c.cpu c.board.interrupts.lines
  refine ⟨?_, ?_, ?_⟩
  · simp only [stepCpu?, Cpu.step?_eq, hstep, Option.bind_eq_bind, Option.bind_some, Prod.map]
    rfl
  · rw [Board.Timely, timers_stepCpu]
    exact htimely
  · have hcycles := c.cpu.cycles_step_le c.board c.board.interrupts.lines
    show (c.cpu.step c.board c.board.interrupts.lines).1 ≤ 2 ^ 20
    omega

/-- What an intact console does next does not break it. -/
theorem Intact.perform? (h : c.Intact) (hclock : c.board.timers.cycle < 2 ^ 63) :
    Performs (c.perform? c.activity) (c.perform c.activity) := by
  have htimely := h.timely hclock
  -- The cycles of the step are bounded along with it, since the timers have to be stepped over them
  -- next.
  cases hactivity : c.activity with
  | transfer t =>
    have hbegin := activity_eq_transfer_iff.mp hactivity
    exact moveBlock?_of_timely htimely (Dma.count_le_of_begin h.dma hbegin)
  | execute => exact stepCpu?_of_timely htimely
  | halted =>
    have hwait := haltCycles_le c.board.timers
    exact ⟨rfl, htimely, Nat.le_trans hwait (by decide)⟩
  | stopped =>
    have hwait : idleChunk ≤ 2 ^ 20 := by decide
    exact ⟨rfl, htimely, hwait⟩

/-- Catching up breaks nothing: no wrap on the way comes later than the clock with what has elapsed.
-/
theorem catchUp?_of_timely (h : c.board.Timely) {elapsed : Nat} (helapsed : elapsed ≤ 2 ^ 20)
    (advancesTimers : Bool) :
    c.catchUp? elapsed advancesTimers = some (c.catchUp elapsed advancesTimers) := by
  have hnobody := c.board.attachments_eq_nil
  cases advancesTimers with
  | true =>
    have hstep := Timers.step?_of_lt c.board.interrupts h.cycle_lt
      (Nat.lt_of_le_of_lt helapsed (show 2 ^ 20 < 2 ^ 32 by decide))
    rw [catchUp_unattached hnobody, catchUp?, if_pos rfl, hstep]
    rfl
  | false =>
    have hquiet := stepAttachments_unattached hnobody #[] elapsed
    -- With nobody attached there is nothing to tell, and the console stays as it is.
    have hkept : c.catchUp elapsed false = c := by
      show { c with
        board :=
          (c.board.stepAttachments #[] elapsed).1.foldl Board.apply
            (c.board.stepAttachments #[] elapsed).2 } = c
      rw [hquiet]
      rfl
    rw [hkept]
    rfl

/-! ### Consoles with nothing attached -/

/-- Replaces what is in the RAMs. -/
def withRam {π : Type} (c : Console π) (externalRam : WorkRam externalRamSize)
    (internalRam : WorkRam internalRamSize) : Console π :=
  { c with board := { c.board with externalRam := externalRam, internalRam := internalRam } }

/-- The consoles with nothing attached that events lead to from a new one, whatever is in its
memories. -/
inductive Standalone : Console NoPeripheral → Prop where
  | fresh {boot : ByteArray} {rom : Option ByteArray} {c : Console NoPeripheral}
      (h : ofImages boot rom [] = .ok c) (externalRam : WorkRam externalRamSize)
      (internalRam : WorkRam internalRamSize) : Standalone (c.withRam externalRam internalRam)
  | occur {c : Console NoPeripheral} (e : Event) (h : Standalone c) : Standalone (c.occur e)

/-- A console with nothing attached is intact. Filling its memories changes neither channels nor
timers. -/
theorem Standalone.intact (h : c.Standalone) : c.Intact := by
  induction h with
  | fresh hnew externalRam internalRam =>
    obtain ⟨bootRom, cartridge, rfl⟩ := exists_of_ofImages hnew
    exact ⟨.blank, .blank⟩
  | occur e _ ih => exact ih.occur e

/-- In a console that has been used in any way, with anything in its memories, nothing that a
step does breaks, as long as the clock is in the lower half of its range. No timer counts from
a cycle that is still to come. -/
theorem step_never_breaks (h : c.Standalone) (hclock : c.board.timers.cycle < 2 ^ 63) :
    c.step? = some c.step ∧ ∀ i, (c.board.timers.get i).base ≤ c.board.timers.cycle := by
  have hintact := h.intact
  have hperform := hintact.perform? hclock
  have hcatchUp := catchUp?_of_timely hperform.timely hperform.cycles_le c.activity.advancesTimers
  refine ⟨?_, hintact.timers.base_le_cycle⟩
  simp only [step?, activity?_eq, hperform.eq, hcatchUp, Option.bind_eq_bind, Option.bind_some]
  rfl

/-- The first timer is started, one tick before it wraps. -/
def aboutToWrap : Console NoPeripheral :=
  (bare.withRam (.zero _ externalRamSize_pos) (.zero _ internalRamSize_pos)).occur
    (.host (.access (.store32 0x04000100 0x0080FFFF)))

/-- The step that takes the timer over its wrap breaks nothing. -/
theorem step_over_wrap_never_breaks :
    aboutToWrap.Standalone ∧ aboutToWrap.board.timers.cycle = 0 ∧
      (aboutToWrap.board.timers.get 0).deadline = some 1 ∧
      aboutToWrap.step? = some aboutToWrap.step ∧
      ∀ i, (aboutToWrap.board.timers.get i).base ≤ 0 := by
  have hstandalone : aboutToWrap.Standalone := .occur _ (.fresh ofImages_empty _ _)
  have hclock : aboutToWrap.board.timers.cycle = 0 := by decide
  have hsafe := step_never_breaks hstandalone (by decide)
  rw [hclock] at hsafe
  exact ⟨hstandalone, hclock, by decide, hsafe⟩

end Console

end AdvanceCore
