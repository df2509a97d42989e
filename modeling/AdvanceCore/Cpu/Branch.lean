import AdvanceCore.Cpu.Basic

/-!
# `AdvanceCore.Cpu.Branch`: jumps of both instruction sets

A jump leaves its target in R15 and the end of the step refills the pipeline from
there, aligned to the codes of the state the processor is in by then.
-/

set_option autoImplicit false

namespace AdvanceCore.Cpu

/-- Jumps to the address in a register and selects the instruction set by its bit 0. -/
def branchExchange (cpu : Cpu) (r : RegisterId) : Cpu :=
  let target := cpu.register r
  (cpu.loadStatus (cpu.cpsr.withState (.ofBit (target.getLsbD 0)))).jump (target &&& ~~~1)

/-- Jumps relative to R15. A link keeps the address one word before it, which in ARM
state is the next instruction. -/
def branch (cpu : Cpu) (link : Bool) (offset : Word) : Cpu :=
  let pc := cpu.registers.pc
  let cpu := if link then cpu.setRegister .lr (pc - 4) else cpu
  cpu.jump (pc + offset)

end AdvanceCore.Cpu
