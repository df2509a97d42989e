import AdvanceCore.RegisterBank

/-!
# `AdvanceCore.Cpu.Basic`: the state of the processor

The processor fetches two codes ahead of the one it executes, so R15 reads as the
executing address plus twice the width of a code. That value stands in R15 for the
whole of a step: an instruction that redirects the program counter writes its target
there and marks the pipeline as flushed, and the end of the step refills it.

A step also counts the cycles it spends beyond its first. The count and the mark
belong to the step in progress and start over with the next one.
-/

set_option autoImplicit false

namespace AdvanceCore

/-- The processor. -/
structure Cpu where
  /-- The current status. -/
  cpsr : Psr
  /-- The saved status of the current mode. User and System do not use it. -/
  spsr : Psr
  registers : Registers
  bank : RegisterBank
  /-- Cycles that the step in progress has spent beyond its first. -/
  extraCycles : Nat := 0
  /-- The step in progress has redirected the program counter. -/
  flushed : Bool := false
  deriving DecidableEq, Repr

namespace Cpu

/-! ### Cycles and the pipeline -/

/-- Counts cycles spent by the step in progress. -/
def spend (cpu : Cpu) (cycles : Nat) : Cpu :=
  { cpu with extraCycles := cpu.extraCycles + cycles }

/-- Marks the program counter as redirected. -/
def flush (cpu : Cpu) : Cpu :=
  { cpu with flushed := true }

/-- The address of the executing instruction. -/
def currentInstruction (cpu : Cpu) : Word :=
  cpu.registers.pc - cpu.cpsr.state.pipelineOffset

/-- The address after the executing instruction. -/
def nextInstruction (cpu : Cpu) : Word :=
  cpu.registers.pc - cpu.cpsr.state.instructionWidth

/-- Clears the address bits that a code of the current state cannot have. -/
def codeAligned (cpu : Cpu) (address : Word) : Word :=
  address &&& ~~~(cpu.cpsr.state.instructionWidth - 1)

/-- The address of a code is aligned. -/
theorem codeAligned_of_dvd {cpu : Cpu} {address : Word}
    (h : cpu.cpsr.state.instructionWidth.toNat ∣ address.toNat) :
    cpu.codeAligned address = address := by
  unfold codeAligned
  cases hstate : cpu.cpsr.state with
  | arm =>
    rw [hstate] at h
    exact Bits.and_not_lowMask address 2 h
  | thumb =>
    rw [hstate] at h
    exact Bits.and_not_lowMask address 1 h

/-- Fetches again from the target in R15, which takes two cycles. -/
def refill (cpu : Cpu) : Cpu :=
  let target := cpu.codeAligned cpu.registers.pc + cpu.cpsr.state.pipelineOffset
  { cpu with registers := cpu.registers.set .pc target }.spend 2

/-! ### Registers -/

/-- The live value of a register. -/
def register (cpu : Cpu) (r : RegisterId) : Word :=
  cpu.registers.get r

/-- Replaces a register without touching the pipeline. -/
def setRegister (cpu : Cpu) (r : RegisterId) (value : Word) : Cpu :=
  { cpu with registers := cpu.registers.set r value }

/-- Writes the result of an instruction. Writing R15 redirects the program counter. -/
def writeRegister (cpu : Cpu) (r : RegisterId) (value : Word) : Cpu :=
  let cpu := cpu.setRegister r value
  if r = .pc then cpu.flush else cpu

/-- Redirects the program counter to `target`. -/
def jump (cpu : Cpu) (target : Word) : Cpu :=
  (cpu.setRegister .pc target).flush

/-- The value a store sees: R15 reads one word further ahead. -/
def storedRegister (cpu : Cpu) (r : RegisterId) : Word :=
  if r = .pc then cpu.register r + 4 else cpu.register r

/-! ### Status -/

/-- Replaces the flags and other bits of the status that do not move registers. -/
def setFlags (cpu : Cpu) (status : Psr) : Cpu :=
  { cpu with cpsr := status }

/-- Switches to `status`. When the bank changes, the registers of the old mode are
saved before those of the new mode are loaded. -/
def loadStatus (cpu : Cpu) (status : Psr) : Cpu :=
  let old := cpu.cpsr.mode
  let new := status.mode
  if old.bank = new.bank then { cpu with cpsr := status }
  else
    let bank := cpu.bank.store old cpu.registers cpu.spsr
    let (registers, spsr) := bank.restore new cpu.registers
    { cpu with cpsr := status, spsr := spsr, registers := registers, bank := bank }

/-- Returns to the saved status. User and System have none and keep their own. -/
def restoreSavedStatus (cpu : Cpu) : Cpu :=
  if cpu.cpsr.mode.hasSavedStatus then cpu.loadStatus cpu.spsr else cpu

end Cpu

end AdvanceCore
