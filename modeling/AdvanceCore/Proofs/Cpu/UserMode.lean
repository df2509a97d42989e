import AdvanceCore.Cpu.Step

/-!
# `AdvanceCore.Proofs.Cpu.UserMode`: what instructions can do in User mode

In User mode the banks and the saved status belong to somebody else. An instruction neither
reads nor writes them: replacing them before the instruction and replacing them after it is
the same. That one law says both that a User program cannot see what is hidden and that it
cannot disturb it, since nothing hidden changes when it is replaced by itself.

Nor does an instruction touch the mode and the interrupt masks. This module has the
instructions that stay inside the processor.

* `Psr.SamePrivilege`: two status words agree in the bits that only a privileged mode may
  change.
* `Cpu.Hidden`, `Cpu.withHidden`: what is hidden from User mode, and replacing it.
* `Confines`: what a function on the processor keeps to in User mode.
-/

set_option autoImplicit false

namespace AdvanceCore

/-! ### Privilege -/

namespace Psr

open Bits

/-- The mode field and both interrupt masks are the same. -/
structure SamePrivilege (p q : Psr) : Prop where
  modeBits : field q.word 0 4 = field p.word 0 4
  irqDisable : q.irqDisable = p.irqDisable
  fiqDisable : q.fiqDisable = p.fiqDisable

namespace SamePrivilege

variable {p q r : Psr}

/-- A status confers the privilege that it confers. -/
@[refl] theorem refl (p : Psr) : SamePrivilege p p := ⟨rfl, rfl, rfl⟩

/-- Equal privilege is passed on over a status in the middle. -/
theorem trans (h : SamePrivilege p q) (h' : SamePrivilege q r) : SamePrivilege p r where
  modeBits := h'.modeBits.trans h.modeBits
  irqDisable := h'.irqDisable.trans h.irqDisable
  fiqDisable := h'.fiqDisable.trans h.fiqDisable

/-- The mode is read from the five bits that are the same. -/
theorem mode (h : SamePrivilege p q) : q.mode = p.mode := by
  unfold Psr.mode
  rw [h.modeBits]

/-- The flags and the T bit confer no privilege. -/
theorem setBit (p : Psr) {i : Nat} (hi : 7 < i ∨ i = 5) (hlt : i < 32) (on : Bool) :
    SamePrivilege p ⟨Bits.setBit p.word i on⟩ where
  -- Bits 0 to 4 hold the mode, 6 and 7 the masks, and the bit that is set is none of them.
  modeBits := field_setBit _ _ (by decide) hlt (.inr (by omega))
  irqDisable := by
    show (Bits.setBit p.word i on).getLsbD 7 = p.word.getLsbD 7
    rw [getLsbD_setBit _ _ _ _ hlt, if_neg (by omega)]
  fiqDisable := by
    show (Bits.setBit p.word i on).getLsbD 6 = p.word.getLsbD 6
    rw [getLsbD_setBit _ _ _ _ hlt, if_neg (by omega)]

/-- The sign flag is bit 31. -/
theorem withSign (p : Psr) (on : Bool) : SamePrivilege p (p.withSign on) :=
  setBit p (by decide) (by decide) on

/-- The zero flag is bit 30. -/
theorem withZero (p : Psr) (on : Bool) : SamePrivilege p (p.withZero on) :=
  setBit p (by decide) (by decide) on

/-- The carry flag is bit 29. -/
theorem withCarry (p : Psr) (on : Bool) : SamePrivilege p (p.withCarry on) :=
  setBit p (by decide) (by decide) on

/-- The overflow flag is bit 28. -/
theorem withOverflow (p : Psr) (on : Bool) : SamePrivilege p (p.withOverflow on) :=
  setBit p (by decide) (by decide) on

/-- The T bit is the one bit of the low byte that a program in User mode may change. It does so by
`BX` alone. -/
theorem withState (p : Psr) (s : CpuState) : SamePrivilege p (p.withState s) :=
  setBit p (by decide) (by decide) s.bit

/-- The flags of a value confer no privilege. -/
theorem withSignAndZero (p : Psr) (value : Word) : SamePrivilege p (p.withSignAndZero value) :=
  (withSign p value.msb).trans (withZero _ _)

/-- The four flags of a sum confer no privilege. -/
theorem withFlags (p : Psr) (sum : AluResult) : SamePrivilege p (p.withFlags sum) :=
  (((withCarry p _).trans (withZero _ _)).trans (withSign _ _)).trans (withOverflow _ _)

/-- Taking over bits that are all in the flag byte. -/
theorem merge (p : Psr) (value : Word) {mask : Word} (hmask : ∀ i < 8, mask.getLsbD i = false) :
    SamePrivilege p (p.merge value mask) where
  modeBits := by
    -- The mode field is compared bit by bit, and each of its bits lies outside the mask.
    refine BitVec.eq_of_getLsbD_eq fun i _ => ?_
    rw [getLsbD_field, getLsbD_field]
    by_cases hi : i < 4 - 0 + 1
    · have hbit : (p.merge value mask).word.getLsbD (0 + i) = p.word.getLsbD (0 + i) := by
        unfold Psr.merge
        rw [getLsbD_merge, hmask (0 + i) (by omega)]
        rfl
      rw [hbit]
    · simp [hi]
  irqDisable := by
    show (Bits.merge p.word value mask).getLsbD 7 = _
    rw [getLsbD_merge, hmask 7 (by decide)]
    rfl
  fiqDisable := by
    show (Bits.merge p.word value mask).getLsbD 6 = _
    rw [getLsbD_merge, hmask 6 (by decide)]
    rfl

end SamePrivilege

end Psr

namespace Cpu

/-! ### What is hidden -/

/-- What User mode does not use: the saved status, and the stored registers of all modes. The
stored ones of User mode are stale while it is current. -/
structure Hidden where
  spsr : Psr
  bank : RegisterBank

/-- The hidden part of a processor. -/
def hidden (cpu : Cpu) : Hidden := ⟨cpu.spsr, cpu.bank⟩

/-- The processor with another hidden part. -/
def withHidden (cpu : Cpu) (h : Hidden) : Cpu := { cpu with spsr := h.spsr, bank := h.bank }

/-- Replacing what is hidden by itself changes nothing. -/
@[simp] theorem withHidden_hidden (cpu : Cpu) : cpu.withHidden cpu.hidden = cpu := rfl

/-- The current status is not hidden. -/
@[simp] theorem cpsr_withHidden (cpu : Cpu) (h : Hidden) : (cpu.withHidden h).cpsr = cpu.cpsr :=
  rfl

/-- No live register is hidden. -/
@[simp] theorem register_withHidden (cpu : Cpu) (h : Hidden) (r : RegisterId) :
    (cpu.withHidden h).register r = cpu.register r := rfl

/-- Spending cycles commutes with replacing what is hidden. -/
@[simp] theorem spend_withHidden (cpu : Cpu) (h : Hidden) (cycles : Nat) :
    (cpu.withHidden h).spend cycles = (cpu.spend cycles).withHidden h := rfl

/-- Setting the flags commutes with replacing what is hidden. -/
@[simp] theorem setFlags_withHidden (cpu : Cpu) (h : Hidden) (status : Psr) :
    (cpu.withHidden h).setFlags status = (cpu.setFlags status).withHidden h := rfl

/-- Writing a live register does so too, R15 included. -/
@[simp] theorem writeRegister_withHidden (cpu : Cpu) (h : Hidden) (r : RegisterId) (value : Word) :
    (cpu.withHidden h).writeRegister r value = (cpu.writeRegister r value).withHidden h := by
  unfold writeRegister
  split <;> rfl

/-- Writing a base back commutes with replacing what is hidden. -/
@[simp] theorem writeBase_withHidden (cpu : Cpu) (h : Hidden)
    (newBase : Option (RegisterId × Word)) :
    (cpu.withHidden h).writeBase newBase = (cpu.writeBase newBase).withHidden h := by
  cases newBase with
  | none => rfl
  | some base => exact writeRegister_withHidden ..

/-- Writing a register leaves the status. -/
@[simp] theorem cpsr_writeRegister (cpu : Cpu) (r : RegisterId) (value : Word) :
    (cpu.writeRegister r value).cpsr = cpu.cpsr := by
  unfold writeRegister
  split <;> rfl

/-- Writing a base back leaves the status. -/
@[simp] theorem cpsr_writeBase (cpu : Cpu) (newBase : Option (RegisterId × Word)) :
    (cpu.writeBase newBase).cpsr = cpu.cpsr := by
  cases newBase with
  | none => rfl
  | some base => exact cpsr_writeRegister ..

/-- An operand is computed from live registers and the carry. -/
@[simp] theorem secondOperand_withHidden (cpu : Cpu) (h : Hidden) (operand : Arm.Operand) :
    (cpu.withHidden h).secondOperand operand = cpu.secondOperand operand := rfl

/-- The first operand is a live register, or R15 further on. -/
@[simp] theorem operandRegister_withHidden (cpu : Cpu) (h : Hidden) (operand : Arm.Operand)
    (r : RegisterId) :
    (cpu.withHidden h).operandRegister operand r = cpu.operandRegister operand r := rfl

/-- The cycle of a shift by a register does not depend on what is hidden. -/
@[simp] theorem spendShift_withHidden (cpu : Cpu) (h : Hidden) (operand : Arm.Operand) :
    (cpu.withHidden h).spendShift operand = (cpu.spendShift operand).withHidden h := by
  unfold spendShift
  split <;> rfl

/-- The cycle of a shift leaves the status. -/
@[simp] theorem cpsr_spendShift (cpu : Cpu) (operand : Arm.Operand) :
    (cpu.spendShift operand).cpsr = cpu.cpsr := by
  unfold spendShift
  split <;> rfl

/-- The new flags are the status. -/
@[simp] theorem cpsr_setFlags (cpu : Cpu) (status : Psr) : (cpu.setFlags status).cpsr = status :=
  rfl

/-! ### The status in User mode -/

/-- A change of the status that keeps the mode moves no registers. -/
theorem loadStatus_of_samePrivilege {cpu : Cpu} {status : Psr}
    (h : Psr.SamePrivilege cpu.cpsr status) : cpu.loadStatus status = cpu.setFlags status := by
  unfold loadStatus
  dsimp only
  rw [h.mode, if_pos rfl]
  rfl

/-- There is no saved status to return to. -/
theorem restoreSavedStatus_of_user {cpu : Cpu} (huser : cpu.cpsr.mode = .user) :
    cpu.restoreSavedStatus = cpu := by
  -- User mode has no saved status, and the return is then left out.
  unfold restoreSavedStatus
  rw [huser]
  rfl

/-- Only the flags are writable. -/
theorem samePrivilege_writeStatus {cpu : Cpu} (huser : cpu.cpsr.mode = .user) (mask value : Word) :
    Psr.SamePrivilege cpu.cpsr (cpu.cpsr.merge value (cpu.writableStatus mask)) := by
  refine .merge _ _ fun i hi => ?_
  unfold writableStatus
  rw [huser]
  -- In User mode the mask is cut down to the flag byte.
  have hclear : (0xFF000000 : Word).getLsbD i = false := by
    have hlow : ∀ j : Fin 8, (0xFF000000 : Word).getLsbD j = false := by decide
    exact hlow ⟨i, hi⟩
  show (mask &&& (0xFF000000 : Word) &&& ~~~(1#32 <<< 5)).getLsbD i = false
  rw [BitVec.getLsbD_and, BitVec.getLsbD_and, hclear, Bool.and_false, Bool.false_and]

/-! ### Instructions that stay inside the processor -/

/-- `f` neither sees nor changes what is hidden from `cpu`, nor its privilege. -/
structure Confines (cpu : Cpu) (f : Cpu → Cpu) : Prop where
  blind : ∀ h, f (cpu.withHidden h) = (f cpu).withHidden h
  privilege : Psr.SamePrivilege cpu.cpsr (f cpu).cpsr

/-- Functions that are confined may follow one another. The second one has to be confined where the
first one leaves. -/
theorem Confines.comp {cpu : Cpu} {f g : Cpu → Cpu} (hf : Confines cpu f)
    (hg : Confines (f cpu) g) : Confines cpu fun c => g (f c) where
  blind h := by rw [hf.blind, hg.blind]
  privilege := hf.privilege.trans hg.privilege

section Internal

open Arm Thumb

variable {cpu : Cpu}

/-- Writing a live register is confined. -/
theorem confines_writeRegister (r : RegisterId) (value : Word) :
    Confines cpu fun c => c.writeRegister r value where
  blind h := writeRegister_withHidden ..
  privilege := by rw [cpsr_writeRegister]

/-- A jump is confined. -/
theorem confines_jump (target : Word) : Confines cpu fun c => c.jump target :=
  ⟨fun _ => rfl, .refl _⟩

/-- The cycle of a shift is confined. -/
theorem confines_spendShift (operand : Operand) : Confines cpu fun c => c.spendShift operand where
  blind h := spendShift_withHidden ..
  privilege := by rw [cpsr_spendShift]

/-- A switch to a status that confers the same privilege. -/
theorem confines_loadStatus {status : Psr} (h : Psr.SamePrivilege cpu.cpsr status) :
    Confines cpu fun c => c.loadStatus status where
  blind hidden := by
    have hload : (cpu.withHidden hidden).loadStatus status =
        (cpu.withHidden hidden).setFlags status := loadStatus_of_samePrivilege h
    rw [hload, loadStatus_of_samePrivilege h, setFlags_withHidden]
  privilege := by
    rw [loadStatus_of_samePrivilege h]
    exact h

/-- Data processing is confined, even with the S bit and R15 as destination. -/
theorem confines_dataProcessing (huser : cpu.cpsr.mode = .user) (i : DataProcessing) :
    Confines cpu fun c => c.dataProcessing i := by
  -- With R15 as destination the S bit would take the saved status, and there is none.
  have hrestore (h : Hidden) : ((cpu.spendShift i.operand).withHidden h).restoreSavedStatus =
      (cpu.spendShift i.operand).withHidden h := by
    refine restoreSavedStatus_of_user ?_
    rw [cpsr_withHidden, cpsr_spendShift, huser]
  have hrestore' : (cpu.spendShift i.operand).restoreSavedStatus = cpu.spendShift i.operand :=
    hrestore (cpu.spendShift i.operand).hidden
  constructor
  · intro h
    unfold dataProcessing
    simp only [secondOperand_withHidden, operandRegister_withHidden, cpsr_withHidden,
      spendShift_withHidden, setFlags_withHidden, hrestore, hrestore']
    split
    · split
      · rfl
      · split <;> rfl
    · split
      · exact writeRegister_withHidden ..
      · split <;> exact writeRegister_withHidden ..
  · unfold dataProcessing
    simp only [hrestore']
    split
    all_goals
      try rw [cpsr_writeRegister]
      split
      · rw [cpsr_spendShift]
      · split
        · rw [cpsr_setFlags]
          split
          · exact .withFlags ..
          · exact (Psr.SamePrivilege.withSignAndZero ..).trans (.withCarry ..)
        · rw [cpsr_spendShift]

/-- A multiplication reads and writes live registers, and sets flags. -/
theorem confines_multiply (i : Multiply) : Confines cpu fun c => c.multiply i := by
  constructor
  · intro h
    unfold multiply
    simp only [register_withHidden, spend_withHidden, cpsr_withHidden, setFlags_withHidden]
    generalize (if i.accumulates then _ else _ : Word) = value
    split
    · exact writeRegister_withHidden ..
    · exact writeRegister_withHidden ..
  · unfold multiply
    rw [cpsr_writeRegister]
    split
    · exact .withSignAndZero ..
    · exact .refl _

/-- A long multiplication does the same with two registers for its result. -/
theorem confines_multiplyLong (i : MultiplyLong) : Confines cpu fun c => c.multiplyLong i := by
  constructor
  · intro h
    unfold multiplyLong
    simp only [register_withHidden, spend_withHidden, cpsr_withHidden, setFlags_withHidden]
    generalize (if i.accumulates then _ else _ : BitVec 64) = value
    split
    · exact ((confines_writeRegister _ _).comp (confines_writeRegister _ _)).blind h
    · exact ((confines_writeRegister _ _).comp (confines_writeRegister _ _)).blind h
  · unfold multiplyLong
    rw [cpsr_writeRegister, cpsr_writeRegister]
    split
    · exact (Psr.SamePrivilege.withSign ..).trans (.withZero ..)
    · exact .refl _

/-- In User mode reading the saved status reads the current one. -/
theorem confines_readStatus (huser : cpu.cpsr.mode = .user) (source : StatusRegister)
    (rd : RegisterId) : Confines cpu fun c => c.readStatus source rd := by
  have hsource (c : Cpu) (hc : c.cpsr.mode = .user) :
      c.readStatus source rd = c.writeRegister rd c.cpsr.word := by
    unfold readStatus
    cases source with
    | cpsr => rfl
    | spsr => rw [hc]; rfl
  constructor
  · intro h
    rw [hsource _ huser, hsource (cpu.withHidden h) huser]
    exact writeRegister_withHidden ..
  · rw [hsource _ huser, cpsr_writeRegister]

/-- A write of the current status reaches the flags, and one of the saved status nothing. -/
theorem confines_writeStatus (huser : cpu.cpsr.mode = .user) (target : StatusRegister)
    (mask : Word) (operand : Operand) :
    Confines cpu fun c => c.writeStatus target mask operand := by
  have hspent : Confines cpu fun c => c.spendShift operand := confines_spendShift operand
  have huser' : (cpu.spendShift operand).cpsr.mode = .user := by rw [cpsr_spendShift, huser]
  cases target with
  | cpsr =>
    -- What the mask lets through is written by a switch that keeps the mode.
    have hwrite := confines_loadStatus
      (samePrivilege_writeStatus huser' mask (cpu.secondOperand operand).value)
    constructor
    · intro h
      have hmask : ((cpu.spendShift operand).withHidden h).writableStatus mask =
          (cpu.spendShift operand).writableStatus mask := rfl
      unfold writeStatus
      simp only [secondOperand_withHidden, spendShift_withHidden, cpsr_withHidden, hmask]
      exact hwrite.blind h
    · exact hspent.privilege.trans hwrite.privilege
  | spsr =>
    -- There is no saved status to write, only the time is spent.
    have hkept (h : Hidden) : (cpu.withHidden h).writeStatus .spsr mask operand =
        (cpu.withHidden h).spendShift operand := by
      unfold writeStatus
      dsimp only
      rw [spendShift_withHidden, cpsr_withHidden, huser']
      rfl
    have hkept' : cpu.writeStatus .spsr mask operand = cpu.spendShift operand := hkept cpu.hidden
    constructor
    · intro h
      rw [hkept, hkept']
      exact hspent.blind h
    · rw [hkept']
      exact hspent.privilege

/-- An exchange writes the T bit and jumps. -/
theorem confines_branchExchange (r : RegisterId) : Confines cpu fun c => c.branchExchange r := by
  have hload := confines_loadStatus (Psr.SamePrivilege.withState cpu.cpsr
    (.ofBit ((cpu.register r).getLsbD 0)))
  have hjump := hload.comp (confines_jump (cpu.register r &&& ~~~1))
  exact ⟨hjump.blind, hjump.privilege⟩

/-- A branch writes R15, and the link register on the way. -/
theorem confines_branch (link : Bool) (offset : Word) :
    Confines cpu fun c => c.branch link offset := by
  cases link with
  | true => exact ⟨fun _ => rfl, .refl _⟩
  | false => exact ⟨fun _ => rfl, .refl _⟩

/-- A shift keeps its result in a low register with its flags. -/
theorem confines_shift (kind : ShiftKind) (amount : Nat) (rs rd : LowRegister) :
    Confines cpu fun c =>
      c.keepShifted rd (shiftImmediate kind amount (c.register rs.id) c.cpsr.carry) where
  blind _ := rfl
  privilege := (Psr.SamePrivilege.withSignAndZero ..).trans (.withCarry ..)

/-- Additions and subtractions keep their result in a low register with its flags. -/
theorem confines_addSubtract (subtract : Bool) (addend : Addend) (rs rd : LowRegister) :
    Confines cpu fun c => c.addSubtract subtract addend rs rd where
  blind _ := by cases addend <;> rfl
  privilege := .withFlags ..

/-- Operations with an immediate keep their result, or only its flags. -/
theorem confines_immediateOperation (op : ImmediateOp) (rd : LowRegister) (value : Word) :
    Confines cpu fun c => c.immediateOperation op rd value where
  blind _ := by cases op <;> rfl
  privilege := by
    cases op with
    | mov => exact .withSignAndZero ..
    | _ => exact .withFlags ..

/-- Operations between low registers keep their result, or only its flags. -/
theorem confines_aluOperation (op : Thumb.AluOp) (rs rd : LowRegister) :
    Confines cpu fun c => c.aluOperation op rs rd where
  blind _ := by cases op <;> rfl
  privilege := by
    cases op with
    | lsl | lsr | asr | ror => exact (Psr.SamePrivilege.withSignAndZero ..).trans (.withCarry ..)
    | adc | sbc | neg | cmp | cmn => exact .withFlags ..
    | _ => exact .withSignAndZero ..

/-- The operations on high registers can reach R15 and select the instruction set. -/
theorem confines_highOperation (op : HighOp) (rs rd : RegisterId) :
    Confines cpu fun c => c.highOperation op rs rd := by
  cases op with
  | add => exact ⟨fun h => writeRegister_withHidden .., (confines_writeRegister ..).privilege⟩
  | cmp => exact ⟨fun _ => rfl, .withFlags ..⟩
  | mov => exact ⟨fun h => writeRegister_withHidden .., (confines_writeRegister ..).privilege⟩
  | bx => exact confines_branchExchange rs

/-- An address comes from a live register. -/
theorem confines_loadAddress (base : AddressBase) (rd : LowRegister) (offset : Word) :
    Confines cpu fun c => c.setRegister rd.id (c.addressBase base + offset) where
  blind _ := by cases base <;> rfl
  privilege := .refl _

/-- Conditions are read from the flags, which are not hidden. -/
theorem confines_conditionalBranch (condition : Condition) (offset : Word) :
    Confines cpu fun c => if c.cpsr.satisfies condition then c.branch false offset else c where
  blind h := by
    rw [cpsr_withHidden]
    split <;> rfl
  privilege := by split <;> exact .refl _

end Internal

end Cpu

end AdvanceCore
