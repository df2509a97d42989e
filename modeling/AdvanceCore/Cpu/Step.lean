import AdvanceCore.Arm.Decode
import AdvanceCore.Arm.Execute
import AdvanceCore.Thumb.Decode
import AdvanceCore.Thumb.Execute

/-!
# `AdvanceCore.Cpu.Step`: one instruction after the other

A step enters a pending exception or fetches and executes one code. R15 then moves to
the next code, or the pipeline is refilled from the target of a jump.
-/

set_option autoImplicit false

namespace AdvanceCore.Cpu

variable {β : Type} [MemoryBus β]

/-- Aligns R15 to the codes of the current state. -/
def alignPc (cpu : Cpu) : Cpu :=
  cpu.setRegister .pc (cpu.codeAligned cpu.registers.pc)

/-- Fetches the code at the current address and executes it. A failed fetch is a
prefetch abort. -/
def fetchAndExecute (cpu : Cpu) (bus : β) : Cpu × β :=
  let cpu := cpu.alignPc
  match cpu.cpsr.state with
  | .arm =>
    match MemoryBus.load32 bus cpu.currentInstruction with
    | (some code, bus) => cpu.executeArm bus (.decode code)
    | (none, bus) => (cpu.enter .prefetchAbort, bus)
  | .thumb =>
    match MemoryBus.load16 bus cpu.currentInstruction with
    | (some code, bus) => cpu.executeThumb bus (.decode code)
    | (none, bus) => (cpu.enter .prefetchAbort, bus)

/-- Moves R15 on at the end of a step. -/
def advance (cpu : Cpu) : Cpu :=
  if cpu.flushed then cpu.refill
  else cpu.setRegister .pc (cpu.registers.pc + cpu.cpsr.state.instructionWidth)

/-- The processor at the start of a step, with nothing counted yet. -/
def beginStep (cpu : Cpu) : Cpu :=
  { cpu with extraCycles := 0, flushed := false }

/-- The cycles of a finished step. -/
def stepCycles (cpu : Cpu) : Nat := 1 + cpu.extraCycles

/-- Takes a pending exception or executes one code. -/
def step (cpu : Cpu) (bus : β) (lines : InterruptLines) : Nat × Cpu × β :=
  let cpu := cpu.beginStep
  let (cpu, bus) := match cpu.pendingException lines with
    | some kind => (cpu.enter kind, bus)
    | none => cpu.fetchAndExecute bus
  let cpu := cpu.advance
  (cpu.stepCycles, cpu, bus)

end AdvanceCore.Cpu
