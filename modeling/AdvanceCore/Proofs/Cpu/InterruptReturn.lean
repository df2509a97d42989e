import AdvanceCore.Memory
import AdvanceCore.Proofs.Cpu.ExceptionEntry

/-!
# `AdvanceCore.Proofs.Cpu.InterruptReturn`: interrupts that return

A handler returns with `SUBS PC, LR, #4`. With R15 as destination the S bit takes back the
saved status, which brings back the mode and the instruction set that were interrupted,
and the link register of an interrupt stands four bytes after the current address in both
instruction sets.

* `step_returnCode`: the step that executes the return instruction.
* `PutBack`: a handler that has undone what it did to the registers.
* `Resumed`: what a handler that has returned leaves of the processor.
* `Entered.resumed_of_putBack`: an exception that links four bytes ahead leaves the interrupted
  program as it was, if its handler puts the registers back and returns.
* `interrupts_resume`: the two kinds of interrupts, from any state that does not mask them
  and is not their own mode, with a handler that returns at once.
-/

set_option autoImplicit false

namespace AdvanceCore

/-- `SUBS PC, LR, #4`. -/
def returnCode : Word := 0xE25EF004

/-- The code subtracts four from LR into R15, with the S bit. -/
theorem decode_returnCode :
    Arm.Opcode.decode returnCode =
      { condition := .al
        instruction := .dataProcessing ⟨.sub, true, .lr, .pc, .immediate 4 0⟩
        raw := returnCode } := by
  decide

namespace Cpu

/-! ### The return instruction -/

/-- Returning takes back the saved status and goes to the instruction LR points after. -/
theorem dataProcessing_return (cpu : Cpu) :
    cpu.dataProcessing ⟨.sub, true, .lr, .pc, .immediate 4 0⟩ =
      cpu.restoreSavedStatus.jump (cpu.register .lr - 4) := by
  have hsum : (subWithCarry (cpu.register .lr) 4 true).value = cpu.register .lr - 4 :=
    value_subWithCarry ..
  rw [← hsum]
  rfl

/-- R15 that is aligned stays as it is. -/
theorem alignPc_of_dvd {cpu : Cpu}
    (h : cpu.cpsr.state.instructionWidth.toNat ∣ cpu.registers.pc.toNat) :
    cpu.alignPc = cpu := by
  have hset : cpu.registers.set .pc cpu.registers.pc = cpu.registers :=
    cpu.registers.set_get .pc
  unfold alignPc
  rw [codeAligned_of_dvd h, setRegister, hset]

variable {β : Type} [MemoryBus β]

/-- Executing the code brings the saved status back and jumps. -/
theorem fetchAndExecute_returnCode (cpu : Cpu) {bus : β} (hstate : cpu.cpsr.state = .arm)
    (hpc : 4 ∣ cpu.registers.pc.toNat)
    (hcode : (MemoryBus.load32 bus cpu.currentInstruction).1 = some returnCode) :
    (cpu.fetchAndExecute bus).1 = cpu.restoreSavedStatus.jump (cpu.register .lr - 4) := by
  have halign : cpu.alignPc = cpu := by
    refine alignPc_of_dvd ?_
    rw [hstate]
    exact hpc
  have hload : MemoryBus.load32 bus cpu.currentInstruction =
      (some returnCode, (MemoryBus.load32 bus cpu.currentInstruction).2) := by
    rw [← hcode]
  unfold fetchAndExecute
  simp only [halign, hstate]
  rw [hload]
  show (cpu.executeArm _ (.decode returnCode)).1 = _
  rw [decode_returnCode]
  exact cpu.dataProcessing_return

/-- The step that executes the return instruction, with no interrupt pending. -/
theorem step_returnCode {cpu : Cpu} {bus : β} {lines : InterruptLines}
    (hquiet : cpu.pendingException lines = none) (hstate : cpu.cpsr.state = .arm)
    (hpc : 4 ∣ cpu.registers.pc.toNat)
    (hcode : (MemoryBus.load32 bus cpu.currentInstruction).1 = some returnCode) :
    (cpu.step bus lines).2.1 =
      (cpu.beginStep.restoreSavedStatus.jump (cpu.register .lr - 4)).refill := by
  have hexecute : (cpu.beginStep.fetchAndExecute bus).1 =
      cpu.beginStep.restoreSavedStatus.jump (cpu.register .lr - 4) :=
    cpu.beginStep.fetchAndExecute_returnCode hstate hpc hcode
  have hpending : cpu.beginStep.pendingException lines = none := hquiet
  unfold step
  simp only [hpending]
  rw [hexecute]
  exact if_pos rfl

/-! ### There and back -/

/-- The address of an instruction is as aligned as R15 is. -/
theorem dvd_currentInstruction {cpu : Cpu}
    (h : cpu.cpsr.state.instructionWidth.toNat ∣ cpu.registers.pc.toNat) :
    cpu.cpsr.state.instructionWidth.toNat ∣ cpu.currentInstruction.toNat := by
  unfold currentInstruction
  rw [BitVec.toNat_sub]
  generalize cpu.registers.pc.toNat = pc at h
  -- The counter is two widths ahead, and `2 ^ 32` is a multiple of both widths.
  cases hstate : cpu.cpsr.state with
  | arm =>
    rw [hstate] at h
    have hfour : 4 ∣ pc := h
    show 4 ∣ (2 ^ 32 - 8 + pc) % 2 ^ 32
    omega
  | thumb =>
    rw [hstate] at h
    have htwo : 2 ∣ pc := h
    show 2 ∣ (2 ^ 32 - 4 + pc) % 2 ^ 32
    omega

/-- Jumping to the instruction that was executing leaves R15 where it was. -/
theorem pc_of_currentInstruction {cpu cpu' : Cpu}
    (h : cpu.cpsr.state.instructionWidth.toNat ∣ cpu.registers.pc.toNat)
    (hcpsr : cpu'.cpsr = cpu.cpsr) :
    cpu'.codeAligned cpu.currentInstruction + cpu'.cpsr.state.pipelineOffset =
      cpu.registers.pc := by
  rw [codeAligned_of_dvd (by rw [hcpsr]; exact dvd_currentInstruction h), hcpsr]
  exact BitVec.sub_add_cancel ..

/-- `last` is where the code of a handler may return: it has put back every register that it
found in `entered` and then used, the return it was given among them. Its flags do not matter. -/
structure PutBack (entered last : Cpu) : Prop where
  mode : last.cpsr.mode = entered.cpsr.mode
  state : last.cpsr.state = .arm
  aligned : 4 ∣ last.registers.pc.toNat
  view : last.view = { entered.view with pc := last.registers.pc }

/-- A handler that has put everything back leaves its bank as it was on entry. -/
theorem PutBack.banks {entered last : Cpu} (h : PutBack entered last) :
    (⟨last.register .sp, last.register .lr, last.spsr⟩ : BankedRegisters) =
      ⟨entered.register .sp, entered.register .lr, entered.spsr⟩ := by
  rw [← banks_view last, ← banks_view entered, h.view, h.mode]

/-- `after` continues the program that the exception interrupted in `before`: every
register of every mode and both status words are back, except that the bank of the handler
holds the return it was given. -/
structure Resumed (kind : Exception) (before after : Cpu) : Prop where
  registers : after.registers = before.registers
  cpsr : after.cpsr = before.cpsr
  spsr : after.spsr = before.spsr
  view : after.view =
    before.view.setReturn kind.mode.bank (before.returnAddress kind) before.cpsr

/-- The registers and the saved status are part of the view. -/
theorem Resumed.of_view {kind : Exception} {before after : Cpu}
    (hbank : kind.mode.bank ≠ before.cpsr.mode.bank) (hcpsr : after.cpsr = before.cpsr)
    (hview : after.view =
      before.view.setReturn kind.mode.bank (before.returnAddress kind) before.cpsr) :
    Resumed kind before after where
  registers := by
    rw [← registers_view after, hview, hcpsr, RegisterView.registers_setReturn _ _ _ hbank,
      registers_view]
  cpsr := hcpsr
  spsr := by
    rw [← spsr_view after, hview, hcpsr, RegisterView.spsr_setReturn _ _ _ hbank, spsr_view]
  view := hview

variable {β : Type} [MemoryBus β] {kind : Exception} {cpu entered last : Cpu} {bus : β}
  {lines : InterruptLines}

/-- A handler has nothing to put back before its first instruction. -/
theorem Entered.putBack (h : Entered kind cpu entered) : PutBack entered entered where
  mode := rfl
  state := h.state
  aligned := by
    rw [h.pc]
    cases kind <;> decide
  view := rfl

/-- The step back. -/
theorem Entered.step_returnCode (h : Entered kind cpu entered) (hback : PutBack entered last)
    (hsaved : kind.mode.hasSavedStatus = true) (hquiet : last.pendingException lines = none)
    (hcode : (MemoryBus.load32 bus last.currentInstruction).1 = some returnCode) :
    (last.step bus lines).2.1 =
      ((last.beginStep.loadStatus cpu.cpsr).jump (cpu.returnAddress kind - 4)).refill := by
  have hlr : last.register .lr = cpu.returnAddress kind :=
    (congrArg BankedRegisters.lr hback.banks).trans h.lr
  have hspsr : last.spsr = cpu.cpsr := (congrArg BankedRegisters.spsr hback.banks).trans h.spsr
  have hrestore : last.beginStep.restoreSavedStatus = last.beginStep.loadStatus cpu.cpsr := by
    have hmode : last.beginStep.cpsr.mode.hasSavedStatus = true := by
      rw [← hsaved, ← h.mode, ← hback.mode]
      rfl
    have hsaved : last.beginStep.spsr = cpu.cpsr := hspsr
    unfold restoreSavedStatus
    rw [if_pos hmode, hsaved]
  rw [Cpu.step_returnCode hquiet hback.state hback.aligned hcode, hrestore, hlr]

/-- The return brings the interrupted program back if the handler was linked four bytes
after its current instruction, has a bank of its own and has put the registers back. -/
theorem Entered.resumed_of_putBack (h : Entered kind cpu entered) (hback : PutBack entered last)
    (hpc : cpu.cpsr.state.instructionWidth.toNat ∣ cpu.registers.pc.toNat)
    (hsaved : kind.mode.hasSavedStatus = true)
    (hlink : cpu.returnAddress kind = cpu.currentInstruction + 4)
    (hbank : kind.mode.bank ≠ cpu.cpsr.mode.bank)
    (hquiet : last.pendingException lines = none)
    (hcode : (MemoryBus.load32 bus last.currentInstruction).1 = some returnCode) :
    Resumed kind cpu (last.step bus lines).2.1 := by
  have htarget : cpu.returnAddress kind - 4 = cpu.currentInstruction := by
    rw [hlink]
    exact BitVec.add_sub_cancel ..
  rw [h.step_returnCode hback hsaved hquiet hcode, htarget]
  -- Of the processor before the refill only its status, its R15 and its view matter.
  generalize hjump : (last.beginStep.loadStatus cpu.cpsr).jump cpu.currentInstruction = jumped
  have hcpsr : jumped.cpsr = cpu.cpsr := by
    rw [← hjump]
    exact cpsr_loadStatus ..
  have hjumped : jumped.registers.pc = cpu.currentInstruction := by
    rw [← hjump]
    exact Registers.get_set_self ..
  have hview : jumped.view = { last.view with pc := cpu.currentInstruction } := by
    rw [← hjump, jump]
    show (setRegister _ .pc cpu.currentInstruction).view = _
    rw [view_setRegister_pc, view_loadStatus]
    rfl
  refine Resumed.of_view hbank hcpsr ?_
  -- R15 is written over, so what the handler made of it does not show.
  rw [view_refill, hjumped, pc_of_currentInstruction hpc hcpsr, hview, hback.view, h.view]
  rfl

/-- A handler may return with its first instruction, at the vector. -/
theorem Entered.resumed (h : Entered kind cpu entered)
    (hpc : cpu.cpsr.state.instructionWidth.toNat ∣ cpu.registers.pc.toNat)
    (hsaved : kind.mode.hasSavedStatus = true)
    (hlink : cpu.returnAddress kind = cpu.currentInstruction + 4)
    (hbank : kind.mode.bank ≠ cpu.cpsr.mode.bank)
    (hcode : (MemoryBus.load32 bus kind.vector).1 = some returnCode) :
    Resumed kind cpu (entered.step bus {}).2.1 := by
  rw [← h.currentInstruction] at hcode
  exact h.resumed_of_putBack h.putBack hpc hsaved hlink hbank rfl hcode

/-! ### Interrupts -/

/-- A program that is interrupted while its interrupts are enabled, by a handler that
returns with its first instruction, does not see that it was. This holds in both
instruction sets and in every mode except the handler's own, for interrupts and for fast
interrupts. The bus may change between the two steps. -/
theorem interrupts_resume (cpu : Cpu) (bus handlerBus : β)
    (hpc : cpu.cpsr.state.instructionWidth.toNat ∣ cpu.registers.pc.toNat) :
    (cpu.cpsr.irqDisable = false → cpu.cpsr.mode ≠ .irq →
      (MemoryBus.load32 handlerBus 0x18).1 = some returnCode →
        Resumed .irq cpu ((cpu.step bus { irq := true }).2.1.step handlerBus {}).2.1) ∧
    (cpu.cpsr.fiqDisable = false → cpu.cpsr.mode ≠ .fiq →
      (MemoryBus.load32 handlerBus 0x1C).1 = some returnCode →
        Resumed .fiq cpu ((cpu.step bus { fiq := true }).2.1.step handlerBus {}).2.1) := by
  constructor
  · intro henabled hmode hcode
    have hpending : cpu.pendingException { irq := true } = some .irq := by
      simp [pendingException, henabled]
    have hbank : Exception.irq.mode.bank ≠ cpu.cpsr.mode.bank :=
      fun h => hmode (cpu.cpsr.mode.bank_eq_irq_iff.1 h.symm)
    exact (step_enters bus hpending).resumed hpc rfl rfl hbank hcode
  · intro henabled hmode hcode
    have hpending : cpu.pendingException { fiq := true } = some .fiq := by
      simp [pendingException, henabled]
    have hbank : Exception.fiq.mode.bank ≠ cpu.cpsr.mode.bank :=
      fun h => hmode (cpu.cpsr.mode.bank_eq_fiq_iff.1 h.symm)
    exact (step_enters bus hpending).resumed hpc rfl rfl hbank hcode

/-- A User program in Thumb state. -/
def thumbProgram : Cpu :=
  { numbered.setRegister .pc 0x08000104 with cpsr := (Psr.ofMode .user).withState .thumb }

/-- A memory with the return instruction at the vectors of both interrupts. -/
def returningHandlers : WorkRam 0x20 :=
  ByteMemory.writeWord (ByteMemory.writeWord (.zero 0x20 (by decide)) 0x18 returnCode)
    0x1C returnCode

/-- A Thumb program is interrupted by an IRQ, and goes on behind it. -/
theorem interrupts_resume_thumb :
    Resumed .irq thumbProgram
        ((thumbProgram.step returningHandlers { irq := true }).2.1.step
          returningHandlers {}).2.1 ∧
      Resumed .fiq thumbProgram
        ((thumbProgram.step returningHandlers { fiq := true }).2.1.step
          returningHandlers {}).2.1 := by
  have hpc : thumbProgram.cpsr.state.instructionWidth.toNat ∣
      thumbProgram.registers.pc.toNat := by decide
  have hirq : (MemoryBus.load32 returningHandlers 0x18).1 = some returnCode := by decide
  have hfiq : (MemoryBus.load32 returningHandlers 0x1C).1 = some returnCode := by decide
  obtain ⟨irq, fiq⟩ :=
    interrupts_resume thumbProgram returningHandlers returningHandlers hpc
  exact ⟨irq (by decide) (by decide) hirq, fiq (by decide) (by decide) hfiq⟩

end Cpu

end AdvanceCore
