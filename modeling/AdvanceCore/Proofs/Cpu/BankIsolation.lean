import AdvanceCore.Proofs.Cpu.StepOutcomes

/-!
# `AdvanceCore.Proofs.Cpu.BankIsolation`: the registers of the modes that take no part

A step moves registers between the register file and the banks, and a load of a register list
with the S bit writes into the bank of User. On the view, where every register shows its one
valid copy, little of that is left.

* `Works.banks`, `Works.fiqHigh`: work in one mode touches the bank of that mode and of User.
* `Outcome.isolates`: so do a switch and an exception, but for the link register and the saved
  status of the handler.
* `banks_isolated`: the statement for a whole step.
-/

set_option autoImplicit false

namespace AdvanceCore

/-- No exception is handled in the bank of User. -/
theorem Exception.bank_mode_ne_user (kind : Exception) : kind.mode.bank ≠ .user := by
  cases kind <;> decide

namespace Cpu

variable {n : Nat} {before after : Cpu}

/-- In one mode, only its own bank and that of User are within reach. -/
theorem Works.banks (h : Works n before after) {bank : Bank}
    (hbank : bank ≠ before.cpsr.mode.bank) (huser : bank ≠ .user) :
    after.view.banks bank = before.view.banks bank := by
  have hbank' : after.cpsr.mode.bank ≠ bank := by
    rw [h.mode]
    exact hbank.symm
  show (if after.cpsr.mode.bank = bank then _ else after.bank.get bank) =
    if before.cpsr.mode.bank = bank then _ else before.bank.get bank
  rw [if_neg hbank', if_neg hbank.symm, h.stored bank huser]

/-- The high registers of FIQ are in reach of FIQ only. -/
theorem Works.fiqHigh (h : Works n before after) (hmode : before.cpsr.mode ≠ .fiq) :
    after.view.fiqHigh = before.view.fiqHigh := by
  have hmode' : after.cpsr.mode ≠ .fiq := by
    rw [h.mode]
    exact hmode
  show (if after.cpsr.mode = .fiq then _ else after.bank.highFiq) =
    if before.cpsr.mode = .fiq then _ else before.bank.highFiq
  rw [if_neg hmode', if_neg hmode, h.highFiq]

/-- What a step leaves alone: the stack pointers of the modes that take no part, and of their
other private registers those that are not in the bank where it ends. -/
structure Isolates (before after : Cpu) : Prop where
  sp : ∀ bank, bank ≠ before.cpsr.mode.bank → bank ≠ .user →
    (after.view.banks bank).sp = (before.view.banks bank).sp
  banks : ∀ bank, bank ≠ before.cpsr.mode.bank → bank ≠ .user → bank ≠ after.cpsr.mode.bank →
    after.view.banks bank = before.view.banks bank
  fiqHigh : before.cpsr.mode ≠ .fiq → after.view.fiqHigh = before.view.fiqHigh

/-- None of the three ways of a step reaches the banks of a third mode. -/
theorem Outcome.isolates (h : Outcome n before after) : Isolates before after := by
  cases h with
  | goesOn works =>
    exact ⟨fun bank hbank huser => congrArg BankedRegisters.sp (works.banks hbank huser),
      fun bank hbank huser _ => works.banks hbank huser, works.fiqHigh⟩
  | @switches left works view spent =>
    -- A switch moves no register out of the view.
    have hbanks (bank : Bank) : after.view.banks bank = left.view.banks bank :=
      congrFun (congrArg RegisterView.banks view) bank
    refine ⟨fun bank hbank huser => ?_, fun bank hbank huser _ => ?_, fun hmode => ?_⟩
    · rw [hbanks, works.banks hbank huser]
    · rw [hbanks, works.banks hbank huser]
    · exact (congrArg RegisterView.fiqHigh view).trans (works.fiqHigh hmode)
  | @traps left kind lr spsr works mode view spent =>
    have hbanks (bank : Bank) : after.view.banks bank =
        if kind.mode.bank = bank then ⟨(left.view.banks kind.mode.bank).sp, lr, spsr⟩
        else left.view.banks bank :=
      congrFun (congrArg RegisterView.banks view) bank
    refine ⟨fun bank hbank huser => ?_, fun bank hbank huser hafter => ?_, fun hmode => ?_⟩
    · rw [← works.banks hbank huser, hbanks]
      split
      · next hkind => rw [hkind]
      · rfl
    · rw [mode] at hafter
      rw [hbanks, if_neg hafter.symm, works.banks hbank huser]
    · exact (congrArg RegisterView.fiqHigh view).trans (works.fiqHigh hmode)

variable {β : Type} [MemoryBus β]

/-- No step reaches the banks of a third mode, from any state and over any bus. -/
theorem isolates_step (cpu : Cpu) (bus : β) (lines : InterruptLines) :
    Isolates cpu (cpu.step bus lines).2.1 := by
  -- What starts over with a step is no register.
  have hbegun := (cpu.outcome_step bus lines).isolates
  exact ⟨hbegun.sp, hbegun.banks, hbegun.fiqHigh⟩

/-- **A step stays in its banks.** Whatever a step does, on any bus and with any interrupt
lines, every bank other than those of the two modes, before and after it, and of User keeps its
stack pointer, link register and saved status. If the step ends in the mode of an exception,
and that mode has another bank than the one the step began in, the stack pointer of this bank is
kept as well. The high registers of FIQ are kept unless the step began in FIQ. -/
theorem banks_isolated (cpu : Cpu) (bus : β) (lines : InterruptLines) :
    let mode := cpu.cpsr.mode
    let after := (cpu.step bus lines).2.1
    (∀ bank, bank ≠ mode.bank → bank ≠ after.cpsr.mode.bank → bank ≠ .user →
      after.view.banks bank = cpu.view.banks bank) ∧
    (∀ kind : Exception, after.cpsr.mode = kind.mode → kind.mode.bank ≠ mode.bank →
      (after.view.banks kind.mode.bank).sp = (cpu.view.banks kind.mode.bank).sp) ∧
    (mode ≠ .fiq → after.view.fiqHigh = cpu.view.fiqHigh) := by
  have hisolates := cpu.isolates_step bus lines
  refine ⟨fun bank hmode hafter huser => ?_, fun kind _ hmode => ?_, hisolates.fiqHigh⟩
  · exact hisolates.banks bank hmode huser hafter
  · exact hisolates.sp _ hmode kind.bank_mode_ne_user

/-- A handler of interrupts that is about to execute the code at address zero, with values in
every private register. -/
def interrupted : Cpu := withOtherBanks.loadStatus (.ofMode .irq)

/-- `SWI 0` in the handler leaves the banks of FIQ, Abort and Undefined alone, and the stack
pointer of the supervisor it calls. -/
theorem banks_isolated_in_handler :
    let after := (interrupted.step (programOf 0xEF000000) {}).2.1
    after.cpsr.mode = .supervisor ∧
      after.view.banks .fiq = interrupted.view.banks .fiq ∧
      after.view.banks .abort = interrupted.view.banks .abort ∧
      after.view.banks .undefined = interrupted.view.banks .undefined ∧
      (after.view.banks .supervisor).sp = (interrupted.view.banks .supervisor).sp ∧
      after.view.fiqHigh = interrupted.view.fiqHigh := by
  have hafter : (interrupted.step (programOf 0xEF000000) {}).2.1.cpsr.mode = .supervisor := by
    decide
  have hbefore : interrupted.cpsr.mode = .irq := by decide
  obtain ⟨hbanks, hsp, hfiq⟩ := banks_isolated interrupted (programOf 0xEF000000) {}
  rw [hafter, hbefore] at hbanks
  rw [hbefore] at hsp hfiq
  refine ⟨hafter, ?_, ?_, ?_, ?_, hfiq (by decide)⟩
  · exact hbanks .fiq (by decide) (by decide) (by decide)
  · exact hbanks .abort (by decide) (by decide) (by decide)
  · exact hbanks .undefined (by decide) (by decide) (by decide)
  · exact hsp .softwareInterrupt hafter (by decide)

end Cpu

end AdvanceCore
