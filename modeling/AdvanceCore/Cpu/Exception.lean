import AdvanceCore.Cpu.Basic

/-!
# `AdvanceCore.Cpu.Exception`: exceptions and reset

Every exception is the same change of the registers with other constants: the
status goes to the saved status of the handler's mode, a return address to its link
register, and the program counter to the vector. Handlers run in ARM state with
interrupts masked.
-/

set_option autoImplicit false

namespace AdvanceCore

/-- The causes of an exception. -/
inductive Exception where
  | reset
  | undefined
  | softwareInterrupt
  | prefetchAbort
  | dataAbort
  | irq
  | fiq
  deriving DecidableEq, Repr

namespace Exception

/-- The address of the handler's first instruction. -/
def vector : Exception → Word
  | .reset => 0x00
  | .undefined => 0x04
  | .softwareInterrupt => 0x08
  | .prefetchAbort => 0x0C
  | .dataAbort => 0x10
  | .irq => 0x18
  | .fiq => 0x1C

/-- The mode the handler runs in. -/
def mode : Exception → Mode
  | .reset | .softwareInterrupt => .supervisor
  | .undefined => .undefined
  | .prefetchAbort | .dataAbort => .abort
  | .irq => .irq
  | .fiq => .fiq

/-- Reset and fast interrupts also mask fast interrupts. -/
def masksFiq : Exception → Bool
  | .reset | .fiq => true
  | _ => false

end Exception

/-- The lines that the processor samples before each fetch. -/
structure InterruptLines where
  reset : Bool := false
  fiq : Bool := false
  irq : Bool := false
  deriving DecidableEq, Repr

namespace Cpu

/-- What an exception leaves in the link register. A data abort returns to the
instruction that failed, a prefetch abort one code and an interrupt four bytes after
the current address, and the others to the next instruction. -/
def returnAddress (cpu : Cpu) : Exception → Word
  | .dataAbort => cpu.currentInstruction
  | .prefetchAbort => cpu.currentInstruction + cpu.cpsr.state.instructionWidth
  | .irq | .fiq => cpu.currentInstruction + 4
  | .reset | .undefined | .softwareInterrupt => cpu.nextInstruction

/-- The status a handler starts with. -/
def handlerStatus (cpu : Cpu) (kind : Exception) : Psr :=
  let status := ((cpu.cpsr.withMode kind.mode).withState .arm).withIrqDisable true
  if kind.masksFiq then status.withFiqDisable true else status

/-- Enters the handler of an exception. R15 is left on the vector itself: the end of
the step refills the pipeline from there. -/
def enter (cpu : Cpu) (kind : Exception) : Cpu :=
  -- Where to return and what to restore follow from the state that is left.
  let returnAddress := cpu.returnAddress kind
  let previous := cpu.cpsr
  let cpu := cpu.loadStatus (cpu.handlerStatus kind)
  ({ cpu with spsr := previous }.setRegister .lr returnAddress).jump kind.vector

/-- The exception to take before the next fetch. Reset wins over fast interrupts,
which win over interrupts, and the status may mask the last two. -/
def pendingException (cpu : Cpu) (lines : InterruptLines) : Option Exception :=
  if lines.reset then some .reset
  else if lines.fiq && !cpu.cpsr.fiqDisable then some .fiq
  else if lines.irq && !cpu.cpsr.irqDisable then some .irq
  else none

/-- The processor after reset: Supervisor mode, ARM state, both interrupts masked,
about to execute the instruction at address zero. -/
def initial : Cpu :=
  let blank : Cpu :=
    { cpsr := .ofMode .supervisor, spsr := ⟨0⟩, registers := .zero, bank := {} }
  { (blank.enter .reset).refill with extraCycles := 0, flushed := false }

end Cpu

end AdvanceCore
