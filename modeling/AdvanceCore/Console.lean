import AdvanceCore.Board
import AdvanceCore.Cpu.Step

/-!
# `AdvanceCore.Console`: the console as a whole

A step of the console does one thing: an active DMA channel moves its block, or the
processor executes, or a halted console waits for the next wrap of a timer, or a
stopped one waits with its timers frozen. The timers and the attached hardware then
catch up on the cycles it took, and the signals of that hardware take effect.

Every step takes at least one cycle, so that a run for a number of cycles ends.
-/

set_option autoImplicit false

namespace AdvanceCore

/-- A console. -/
structure Console (π : Type) where
  cpu : Cpu
  board : Board π

/-- What a console does in a step. -/
inductive Activity where
  /-- An active DMA channel moves its block. -/
  | transfer (t : DmaTransfer)
  /-- The processor executes an instruction or enters an exception. -/
  | execute
  /-- The processor waits. -/
  | halted
  /-- Everything but the attached hardware waits. -/
  | stopped
  deriving DecidableEq, Repr

/-- A stopped console has no clock. -/
def Activity.advancesTimers : Activity → Bool
  | .stopped => false
  | _ => true

/-- The longest wait of a step. -/
def idleChunk : Nat := 256

/-- How long a halted console waits: until the next wrap of a timer, but at least one
cycle and at most a chunk. -/
def haltCycles (timers : Timers) : Nat :=
  match timers.cyclesUntilWake with
  | some cycles => max 1 (min cycles idleChunk)
  | none => idleChunk

namespace Console

variable {π : Type}

/-- A console after reset, with the images of its boot ROM and of its cartridge. If
both are too large, the boot ROM is what is reported. -/
def ofImages (boot : ByteArray) (rom : Option ByteArray)
    (attachments : List (Attachment π)) : Except ImageError (Console π) := do
  let bootRom ← BootRom.ofImage boot
  let cartridge ← rom.mapM Cartridge.ofImage
  return {
    cpu := .initial
    board := { bootRom := bootRom, cartridge := cartridge, attachments := attachments } }

/-! ### The host -/

/-- Lets the host act on the interrupt controller. -/
def mapInterrupts (c : Console π) (f : InterruptController → InterruptController) : Console π :=
  { c with board := { c.board with interrupts := f c.board.interrupts } }

/-- Asserts the reset line until the processor takes the reset. -/
def requestReset (c : Console π) : Console π := c.mapInterrupts .requestReset

/-- Drives the line of fast interrupts. -/
def setFiqLine (c : Console π) (asserted : Bool) : Console π :=
  c.mapInterrupts fun i => i.setFiqLine asserted

/-- Halts the processor. -/
def enterHalt (c : Console π) : Console π := c.mapInterrupts .enterHalt

/-- Stops the console. -/
def enterStop (c : Console π) : Console π := c.mapInterrupts .enterStop

/-! ### Steps -/

/-- What the console does next. -/
def activity (c : Console π) : Activity :=
  match c.board.dma.begin? with
  | some t => .transfer t
  | none =>
    match c.board.interrupts.power with
    | .run => .execute
    | .halt => .halted
    | .stop => .stopped

variable [Peripheral π]

/-- Lets a signal take effect. -/
def signal (c : Console π) (s : Signal) : Console π :=
  { c with board := c.board.apply s }

/-- Moves a block and completes its channel. -/
def moveBlock (c : Console π) (t : DmaTransfer) : Nat × Console π :=
  let (moved, board) := t.run c.board
  let (dma, interrupts) := board.dma.finish moved board.interrupts
  (t.cycles, { c with board := { board with dma := dma, interrupts := interrupts } })

/-- Steps the processor. A reset that it takes is acknowledged. -/
def stepCpu (c : Console π) : Nat × Console π :=
  let lines := c.board.interrupts.lines
  let (cycles, cpu, board) := c.cpu.step c.board lines
  let c : Console π := { cpu := cpu, board := board }
  (cycles, if lines.reset then c.mapInterrupts .acknowledgeReset else c)

/-- Does something, and gives the cycles it takes. -/
def perform (c : Console π) : Activity → Nat × Console π
  | .transfer t => c.moveBlock t
  | .execute => c.stepCpu
  | .halted => (haltCycles c.board.timers, c)
  | .stopped => (idleChunk, c)

/-- Lets timers and attached hardware catch up, and their signals take effect. -/
def catchUp (c : Console π) (elapsed : Nat) (advancesTimers : Bool) : Console π :=
  let ⟨cpu, board⟩ := c
  let (wraps, board) := if advancesTimers then board.stepTimers elapsed else (#[], board)
  let (signals, board) := board.stepAttachments wraps elapsed
  ⟨cpu, signals.foldl Board.apply board⟩

/-- Does the next thing, and gives the cycles it took. -/
def step (c : Console π) : Nat × Console π :=
  let activity := c.activity
  let (elapsed, c) := c.perform activity
  (elapsed, c.catchUp elapsed activity.advancesTimers)

/-- Whatever a console does takes a cycle at least. -/
theorem one_le_perform (c : Console π) (a : Activity) : 1 ≤ (c.perform a).1 := by
  cases a with
  | transfer t => simp only [perform, moveBlock, DmaTransfer.cycles]; omega
  | execute => simp only [perform, stepCpu, Cpu.step, Cpu.stepCycles]; omega
  | halted =>
    simp only [perform, haltCycles]
    split
    · exact Nat.le_max_left ..
    · decide
  | stopped => simp only [perform]; decide

/-- A step takes a cycle at least. -/
theorem one_le_step (c : Console π) : 1 ≤ c.step.1 := c.one_le_perform c.activity

/-- Steps until `target` cycles have passed, of which `elapsed` already have. -/
def runFrom (c : Console π) (elapsed target : Nat) : Nat × Console π :=
  if elapsed < target then
    match _h : c.step with
    | (cycles, next) => next.runFrom (elapsed + cycles) target
  else (elapsed, c)
termination_by target - elapsed
decreasing_by
  have hpos := c.one_le_step
  rw [_h] at hpos
  dsimp only at hpos
  omega

/-- Steps until at least a number of cycles have passed, and gives how many have. -/
def runFor (c : Console π) (cycles : Nat) : Nat × Console π := c.runFrom 0 cycles

end Console

end AdvanceCore
