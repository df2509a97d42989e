import AdvanceCore.Proofs.Cpu.InterruptReturn
import AdvanceCore.Proofs.Cpu.JumpTargets

/-!
# `AdvanceCore.Proofs.Cpu.Pipeline`: R15 as a counter of instructions

R15 is two codes ahead of the one that executes, and which address that is depends on the
instruction set. Behind it is a counter that knows nothing of this: the address of the next
code moves on by one code, or to the target of a jump.

* `fetchAddress`: the counter.
* `lands_carryOut`: the task of a step writes its target, or leaves R15 and the instruction
  set alone.
* `step_refines_counter`: R15 and the counter after any step.
-/

set_option autoImplicit false

namespace AdvanceCore

namespace Cpu

/-! ### Alignment -/

/-- An aligned address is a multiple of the width of a code. -/
theorem dvd_codeAligned (cpu : Cpu) (address : Word) :
    cpu.cpsr.state.instructionWidth.toNat ∣ (cpu.codeAligned address).toNat := by
  unfold codeAligned
  cases cpu.cpsr.state with
  | arm => exact Bits.dvd_and_not_lowMask address 2
  | thumb => exact Bits.dvd_and_not_lowMask address 1

/-- Addresses wrap around at a multiple of the width of a code. -/
theorem width_dvd_add {state : CpuState} {address distance : Word}
    (h : state.instructionWidth.toNat ∣ address.toNat)
    (h' : state.instructionWidth.toNat ∣ distance.toNat) :
    state.instructionWidth.toNat ∣ (address + distance).toNat := by
  have hwraps : state.instructionWidth.toNat ∣ 2 ^ 32 := by
    cases state <;> decide
  rw [BitVec.toNat_add, Nat.dvd_mod_iff hwraps]
  exact Nat.dvd_add h h'

/-- The distance of R15 is a multiple of the width of a code. -/
theorem dvd_pipelineOffset (state : CpuState) :
    state.instructionWidth.toNat ∣ state.pipelineOffset.toNat := by
  cases state <;> decide

/-- The address of the code that the next step fetches. -/
def fetchAddress (cpu : Cpu) : Word := cpu.alignPc.currentInstruction

/-- R15 holds what is set. -/
theorem pc_setRegister (cpu : Cpu) (value : Word) :
    (cpu.setRegister .pc value).registers.pc = value :=
  Registers.get_set_self ..

/-- Aligning R15 aligns its value. -/
theorem pc_alignPc (cpu : Cpu) : cpu.alignPc.registers.pc = cpu.codeAligned cpu.registers.pc :=
  cpu.pc_setRegister _

/-- The next code is always at an address that its instruction set can have. -/
theorem dvd_fetchAddress (cpu : Cpu) :
    cpu.cpsr.state.instructionWidth.toNat ∣ cpu.fetchAddress.toNat := by
  have haligned :
      cpu.alignPc.cpsr.state.instructionWidth.toNat ∣ cpu.alignPc.registers.pc.toNat := by
    rw [pc_alignPc]
    exact cpu.dvd_codeAligned _
  exact dvd_currentInstruction haligned

/-- With R15 aligned, the next code is two codes before it. -/
theorem fetchAddress_of_dvd {cpu : Cpu}
    (h : cpu.cpsr.state.instructionWidth.toNat ∣ cpu.registers.pc.toNat) :
    cpu.fetchAddress = cpu.registers.pc - cpu.cpsr.state.pipelineOffset := by
  unfold fetchAddress
  rw [alignPc_of_dvd h]
  rfl

/-! ### The end of a step -/

/-- Without a target R15 moves on by one code. -/
theorem Lands.advance_stay {before done : Cpu} (h : Lands before done none)
    (hmark : before.flushed = false) :
    done.advance.flushed = false ∧ done.advance.cpsr.state = before.cpsr.state ∧
      done.advance.registers.pc = before.registers.pc + before.cpsr.state.instructionWidth := by
  cases h with
  | stays flushed pc state =>
    have hunmarked : done.flushed = false := flushed.trans hmark
    unfold advance
    rw [hunmarked, ← pc, ← state]
    exact ⟨hunmarked, rfl, done.pc_setRegister _⟩

/-- With a target the pipeline is refilled from there. -/
theorem Lands.advance_jump {before done : Cpu} {target : Word}
    (h : Lands before done (some target)) :
    done.advance.flushed = true ∧
      done.advance.registers.pc =
        done.advance.codeAligned target + done.advance.cpsr.state.pipelineOffset := by
  cases h with
  | jumps flushed pc =>
    unfold advance
    rw [flushed, ← pc]
    exact ⟨flushed, done.pc_setRegister _⟩

/-! ### Steps -/

variable {β : Type} [MemoryBus β] (cpu : Cpu) (bus : β) (lines : InterruptLines)

/-- Taking an exception writes R15 without a look at what is in it, and everything else begins
with R15 aligned. -/
theorem lands_carryOut :
    Lands cpu.beginStep.alignPc
      (cpu.beginStep.carryOut (cpu.task bus lines).2 (cpu.task bus lines).1).1
      (cpu.target? bus lines) := by
  unfold target?
  obtain ⟨task, bus'⟩ := cpu.task bus lines
  cases task with
  | take kind => exact .enter _ _ kind
  | abort => exact .enter _ _ .prefetchAbort
  | arm code =>
    unfold carryOut executeArm
    dsimp only
    change Lands _ (if cpu.cpsr.satisfies code.condition = true then _ else _ : Cpu × β).1 _
    split
    · exact cpu.beginStep.alignPc.lands_performArm bus' code.instruction
    · exact .refl _
  | thumb code => exact cpu.beginStep.alignPc.lands_performThumb bus' code.instruction

/-- A step without a target moves on to the next code. -/
theorem step_of_stay (h : cpu.target? bus lines = none) :
    let after := (cpu.step bus lines).2.1
    after.flushed = false ∧ after.cpsr.state = cpu.cpsr.state ∧
      after.registers.pc = cpu.codeAligned cpu.registers.pc + cpu.cpsr.state.instructionWidth := by
  have hlands := cpu.lands_carryOut bus lines
  rw [h] at hlands
  obtain ⟨hmark, hstate, hpc⟩ := hlands.advance_stay rfl
  rw [pc_alignPc] at hpc
  rw [cpu.step_eq bus lines]
  exact ⟨hmark, hstate, hpc⟩

/-- A step with a target goes on there, in whatever instruction set is current by then. -/
theorem step_of_jump {target : Word} (h : cpu.target? bus lines = some target) :
    let after := (cpu.step bus lines).2.1
    after.flushed = true ∧
      after.registers.pc = after.codeAligned target + after.cpsr.state.pipelineOffset := by
  have hlands := cpu.lands_carryOut bus lines
  rw [h] at hlands
  rw [cpu.step_eq bus lines]
  exact hlands.advance_jump

/-- The counter and R15 are a fixed distance apart, so they move on alike. -/
theorem fetchAddress_add_width {cpu after : Cpu} (hstate : after.cpsr.state = cpu.cpsr.state)
    (haligned : after.cpsr.state.instructionWidth.toNat ∣ after.registers.pc.toNat)
    (hpc : after.registers.pc =
      cpu.codeAligned cpu.registers.pc + after.cpsr.state.instructionWidth) :
    after.fetchAddress = cpu.fetchAddress + after.cpsr.state.instructionWidth := by
  have hbefore : cpu.fetchAddress =
      cpu.codeAligned cpu.registers.pc - cpu.cpsr.state.pipelineOffset := by
    show cpu.alignPc.registers.pc - _ = _
    rw [pc_alignPc]
    rfl
  rw [fetchAddress_of_dvd haligned, hpc, hbefore, hstate, BitVec.sub_eq_add_neg,
    BitVec.sub_eq_add_neg, BitVec.add_assoc, BitVec.add_assoc]
  exact congrArg _ (BitVec.add_comm ..)

/-- R15 is always a multiple of the width of a code. A step that writes no target leaves the
instruction set alone and moves R15 from its aligned value to the next code, and one that does
leaves R15 two codes behind the target, aligned for the instruction set by then. The mark of the
pipeline tells the two apart. The next fetch is aligned, and its address moves on by one code or
to the target. -/
theorem step_refines_counter :
    let after := (cpu.step bus lines).2.1
    let width := after.cpsr.state.instructionWidth
    width.toNat ∣ after.registers.pc.toNat ∧
    after.flushed = (cpu.target? bus lines).isSome ∧
    (after.flushed = false →
      after.cpsr.state = cpu.cpsr.state ∧
      after.registers.pc = cpu.codeAligned cpu.registers.pc + width) ∧
    (after.flushed = true → ∃ target, cpu.target? bus lines = some target ∧
      after.registers.pc = after.codeAligned target + after.cpsr.state.pipelineOffset) ∧
    width.toNat ∣ after.fetchAddress.toNat ∧
    after.fetchAddress =
      (cpu.target? bus lines).elim (cpu.fetchAddress + width) after.codeAligned := by
  intro after width
  -- The pipeline goes on, or it is refilled at a target. In both cases the counter is aligned for
  -- the state after the step, so the next fetch does not move it.
  cases htarget : cpu.target? bus lines with
  | none =>
    obtain ⟨hmark, hstate, hpc⟩ := cpu.step_of_stay bus lines htarget
    rw [← hstate] at hpc
    have haligned : width.toNat ∣ after.registers.pc.toNat := by
      rw [hpc]
      refine width_dvd_add ?_ (Nat.dvd_refl _)
      rw [hstate]
      exact cpu.dvd_codeAligned _
    refine ⟨haligned, hmark, fun _ => ⟨hstate, hpc⟩, fun hjump => ?_, after.dvd_fetchAddress,
      fetchAddress_add_width hstate haligned hpc⟩
    rw [hmark] at hjump
    cases hjump
  | some target =>
    obtain ⟨hmark, hpc⟩ := cpu.step_of_jump bus lines htarget
    have haligned : width.toNat ∣ after.registers.pc.toNat := by
      rw [hpc]
      exact width_dvd_add (after.dvd_codeAligned target) (dvd_pipelineOffset _)
    refine ⟨haligned, hmark, fun hstay => ?_, fun _ => ⟨target, rfl, hpc⟩,
      after.dvd_fetchAddress, ?_⟩
    · rw [hmark] at hstay
      cases hstay
    · show _ = after.codeAligned target
      rw [fetchAddress_of_dvd haligned, hpc]
      exact BitVec.add_sub_cancel ..

end Cpu

end AdvanceCore
