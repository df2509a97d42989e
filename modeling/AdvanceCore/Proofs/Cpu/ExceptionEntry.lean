import AdvanceCore.Cpu.Step
import AdvanceCore.Proofs.Cpu.RegisterView

/-!
# `AdvanceCore.Proofs.Cpu.ExceptionEntry`: the registers a handler starts with

Every exception changes the registers in one way. The mode that was left keeps all of its
registers, the handler's bank gets the return address and the old status, and R15 moves to
the handler.

* `view_enter`, `cpsr_enter`: entering a handler, on the view.
* `Entered`, `step_enters`: the whole step that takes an exception, with the pipeline
  refilled from the vector.
* `Entered.lr`, `Entered.spsr`: what the handler finds in its own registers.
-/

set_option autoImplicit false

namespace AdvanceCore

/-- Vectors are word addresses. -/
theorem Exception.four_dvd_vector (kind : Exception) : 4 ∣ kind.vector.toNat := by
  cases kind <;> decide

namespace Cpu

/-! ### Entering -/

/-- A handler has the mode of its exception. -/
theorem mode_handlerStatus (cpu : Cpu) (kind : Exception) :
    (cpu.handlerStatus kind).mode = kind.mode := by
  unfold handlerStatus
  dsimp only
  split
  · rw [Psr.mode_withFiqDisable, Psr.mode_withIrqDisable, Psr.mode_withState,
      Psr.mode_withMode]
  · rw [Psr.mode_withIrqDisable, Psr.mode_withState, Psr.mode_withMode]

/-- A handler runs in ARM state. -/
theorem state_handlerStatus (cpu : Cpu) (kind : Exception) :
    (cpu.handlerStatus kind).state = .arm := by
  unfold handlerStatus
  dsimp only
  split
  · rw [Psr.state_withFiqDisable, Psr.state_withIrqDisable, Psr.state_withState]
  · rw [Psr.state_withIrqDisable, Psr.state_withState]

/-- A handler cannot be interrupted by an IRQ. -/
theorem irqDisable_handlerStatus (cpu : Cpu) (kind : Exception) :
    (cpu.handlerStatus kind).irqDisable = true := by
  unfold handlerStatus
  dsimp only
  split
  · rw [Psr.irqDisable_withFiqDisable, Psr.irqDisable_withIrqDisable]
  · rw [Psr.irqDisable_withIrqDisable]

/-- Entering an exception switches to the status of its handler. -/
theorem cpsr_enter (cpu : Cpu) (kind : Exception) :
    (cpu.enter kind).cpsr = cpu.handlerStatus kind :=
  cpu.cpsr_loadStatus (cpu.handlerStatus kind)

/-- In the view of all registers, an exception writes the return address and the saved status of one
bank, and R15. -/
theorem view_enter (cpu : Cpu) (kind : Exception) :
    (cpu.enter kind).view =
      { cpu.view.setReturn kind.mode.bank (cpu.returnAddress kind) cpu.cpsr with
        pc := kind.vector } := by
  have hmode : (cpu.loadStatus (cpu.handlerStatus kind)).cpsr.mode = kind.mode := by
    rw [cpsr_loadStatus, mode_handlerStatus]
  -- The switch moves nothing. Only what is written after it shows.
  show (setRegister _ .pc kind.vector).view = _
  rw [view_setRegister_pc, view_setReturn, view_loadStatus, hmode]

/-! ### The step -/

/-- A refill moves R15 ahead of the code to be fetched. -/
theorem view_refill (cpu : Cpu) :
    cpu.refill.view =
      { cpu.view with
        pc := cpu.codeAligned cpu.registers.pc + cpu.cpsr.state.pipelineOffset } :=
  view_setRegister_pc ..

variable {β : Type} [MemoryBus β] {cpu : Cpu} {lines : InterruptLines} {kind : Exception}

/-- A step with a pending exception does nothing but enter it. -/
theorem step_of_pending (bus : β) (h : cpu.pendingException lines = some kind) :
    (cpu.step bus lines).2.1 = (cpu.beginStep.enter kind).refill := by
  have hpending : cpu.beginStep.pendingException lines = some kind := h
  unfold step
  simp only [hpending]
  exact if_pos rfl

/-- `after` is at the first instruction of the handler for an exception that `before` took.
R15 is two words after the vector, where an instruction at the vector expects it. -/
structure Entered (kind : Exception) (before after : Cpu) : Prop where
  cpsr : after.cpsr = before.handlerStatus kind
  view : after.view =
    { before.view.setReturn kind.mode.bank (before.returnAddress kind) before.cpsr with
      pc := kind.vector + 8 }

/-- Entering a handler, with the pipeline refilled from its vector. -/
theorem entered_refill (cpu : Cpu) (kind : Exception) :
    Entered kind cpu (cpu.enter kind).refill := by
  have hcpsr : (cpu.enter kind).cpsr = cpu.handlerStatus kind := cpu.cpsr_enter kind
  have hstate : (cpu.enter kind).cpsr.state = .arm := by
    rw [hcpsr, state_handlerStatus]
  have hpc : (cpu.enter kind).registers.pc = kind.vector :=
    congrArg RegisterView.pc (cpu.view_enter kind)
  have haligned : (cpu.enter kind).codeAligned kind.vector = kind.vector := by
    refine codeAligned_of_dvd ?_
    rw [hstate]
    exact kind.four_dvd_vector
  refine ⟨hcpsr, ?_⟩
  rw [view_refill, view_enter, hpc, haligned, hstate]
  rfl

/-- The end of a step refills the pipeline after an entry. -/
theorem entered_advance (cpu : Cpu) (kind : Exception) :
    Entered kind cpu (cpu.enter kind).advance := by
  have hrefill : (cpu.enter kind).advance = (cpu.enter kind).refill := if_pos rfl
  rw [hrefill]
  exact cpu.entered_refill kind

/-- A step with a pending exception ends in its handler. -/
theorem step_enters (bus : β) (h : cpu.pendingException lines = some kind) :
    Entered kind cpu (cpu.step bus lines).2.1 := by
  have hbegun := cpu.beginStep.entered_refill kind
  rw [step_of_pending bus h]
  exact ⟨hbegun.cpsr, hbegun.view⟩

namespace Entered

variable {before after : Cpu}

/-- The handler runs in the mode of its exception. -/
theorem mode (h : Entered kind before after) : after.cpsr.mode = kind.mode := by
  rw [h.cpsr, mode_handlerStatus]

/-- The handler runs in ARM state. -/
theorem state (h : Entered kind before after) : after.cpsr.state = .arm := by
  rw [h.cpsr, state_handlerStatus]

/-- IRQ is masked. -/
theorem irqDisable (h : Entered kind before after) : after.cpsr.irqDisable = true := by
  rw [h.cpsr, irqDisable_handlerStatus]

/-- R15 is two codes ahead of the vector. -/
theorem pc (h : Entered kind before after) : after.registers.pc = kind.vector + 8 :=
  congrArg RegisterView.pc h.view

/-- The vector is executed next. -/
theorem currentInstruction (h : Entered kind before after) :
    after.currentInstruction = kind.vector := by
  unfold Cpu.currentInstruction
  rw [h.state, h.pc]
  exact BitVec.add_sub_cancel ..

/-- The handler's own bank holds the return. -/
theorem banks (h : Entered kind before after) :
    after.view.banks after.cpsr.mode.bank =
      ⟨(before.view.banks kind.mode.bank).sp, before.returnAddress kind, before.cpsr⟩ := by
  rw [h.view, h.mode]
  exact if_pos rfl

/-- The link register holds the return address. -/
theorem lr (h : Entered kind before after) :
    after.register .lr = before.returnAddress kind := by
  have hbanks := h.banks
  rw [banks_view] at hbanks
  exact congrArg BankedRegisters.lr hbanks

/-- The saved status is that of the interrupted program. -/
theorem spsr (h : Entered kind before after) : after.spsr = before.cpsr := by
  have hbanks := h.banks
  rw [banks_view] at hbanks
  exact congrArg BankedRegisters.spsr hbanks

end Entered

end Cpu

end AdvanceCore
