import AdvanceCore.Proofs.Cpu.CycleCount
import AdvanceCore.Proofs.Cpu.JumpTargets

/-!
# `AdvanceCore.Proofs.Cpu.ExtensionSpace`: multiplications, swaps and what is left over

An ALU operation that shifts by a register has bit 7 clear. The codes with bits 7 and 4 set are
an extension space, which multiplications, swaps and halfword transfers share. They do not fill
it, and the codes that are left over should be undefined.

The decoder tries the formats in the space one after the other and then goes on to status
transfers and the ALU, without asking for bit 7 again. So a code that is left over is not
undefined. It executes as an ALU operation or a status transfer.

* `extension?`: the instruction that a code of the space is assigned to, by its fields alone.
* `strayOf`: what the decoder makes of the other codes.
* `decode_of_inExtensionSpace`: the order of the formats does not matter inside the space.
* `shiftsByRegister_decode`: which codes shift by a register.
* `unassigned_codes_reach_alu`: which codes the ALU gets, and what becomes of them.
-/

set_option autoImplicit false

namespace AdvanceCore

namespace Arm

/-! ### The space and its formats -/

/-- The code is in the extension space: bits 27 to 25 are clear, and bits 7 and 4 are set. -/
structure InExtensionSpace (code : Word) : Prop where
  top : code.extractLsb' 25 3 = 0b000#3
  bit7 : code.getLsbD 7 = true
  bit4 : code.getLsbD 4 = true

/-- The instruction of a code in the space. Bits 6 and 5 tell halfword transfers from the rest,
bits 24 and 23 the others from each other. -/
def extension? (code : Word) : Option Instruction :=
  if code.extractLsb' 5 2 ≠ 0b00#2 then some (.halfwordTransfer (halfwordTransferOf code))
  else if code.extractLsb' 23 2 = 0b00#2 then
    if code.getLsbD 22 then none else some (.multiply (multiplyOf code))
  else if code.extractLsb' 23 2 = 0b01#2 then some (.multiplyLong (multiplyLongOf code))
  else if code.extractLsb' 23 2 = 0b10#2 then
    if code.extractLsb' 20 2 = 0b00#2 ∧ code.extractLsb' 8 4 = 0b0000#4 then
      some (.swap (swapOf code))
    else none
  else none

/-- The code is in the space, but has no instruction there. -/
def Unassigned (code : Word) : Prop :=
  InExtensionSpace code ∧ extension? code = none

/-- Bits 24, 23 and 20 are those of a status transfer. -/
def HasStatusBits (code : Word) : Prop :=
  code.extractLsb' 23 2 = 0b10#2 ∧ code.getLsbD 20 = false

instance (code : Word) : Decidable (InExtensionSpace code) :=
  decidable_of_iff (code.extractLsb' 25 3 = 0b000#3 ∧ code.getLsbD 7 = true ∧
      code.getLsbD 4 = true)
    ⟨fun ⟨top, bit7, bit4⟩ => ⟨top, bit7, bit4⟩, fun ⟨top, bit7, bit4⟩ => ⟨top, bit7, bit4⟩⟩

instance (code : Word) : Decidable (Unassigned code) :=
  inferInstanceAs (Decidable (_ ∧ _))

instance (code : Word) : Decidable (HasStatusBits code) :=
  inferInstanceAs (Decidable (_ ∧ _))

/-- An instruction of the ALU or a status transfer. -/
def Instruction.IsAlu : Instruction → Bool
  | .dataProcessing _ | .readStatus .. | .writeStatus .. => true
  | _ => false

/-- An unassigned code as an ALU operation. It has bits 6 and 5 clear, so its operand is shifted
to the left. -/
def strayOperation (code : Word) : DataProcessing :=
  { dataProcessingOf code with
    operand := .register (registerAt code 0) .lsl (.register (registerAt code 8)) }

/-- What an unassigned code is taken for. Its status transfers are those between registers. -/
def strayOf (code : Word) : Instruction :=
  if HasStatusBits code then
    if code.getLsbD 21 then
      .writeStatus (.ofBit (code.getLsbD 22)) (statusMask code)
        (.register (registerAt code 0) .lsl (.immediate 0))
    else .readStatus (.ofBit (code.getLsbD 22)) (registerAt code 12)
  else .dataProcessing (strayOperation code)

/-- Whatever an unassigned code is taken for belongs to the ALU. -/
theorem isAlu_strayOf (code : Word) : (strayOf code).IsAlu = true := by
  unfold strayOf
  split
  · split <;> rfl
  · rfl

/-- No code of the space is assigned to the ALU. -/
theorem not_isAlu_of_extension? {code : Word} {i : Instruction} (h : extension? code = some i) :
    i.IsAlu = false := by
  unfold extension? at h
  repeat' split at h
  all_goals cases h
  all_goals rfl

/-! ### The patterns of the decoder inside the space -/

namespace InExtensionSpace

variable {code : Word}

/-- A pattern for the top five bits is one for bits 24 and 23. -/
theorem top_five (h : InExtensionSpace code) (pattern : BitVec 2) :
    code.extractLsb' 23 5 = 0b000#3 ++ pattern ↔ code.extractLsb' 23 2 = pattern := by
  rw [Bits.extractLsb'_eq_append code 23 0b000#3 pattern]
  exact and_iff_right h.top

/-- A pattern for the top six bits is one for bits 24 to 22. -/
theorem top_six (h : InExtensionSpace code) :
    code.extractLsb' 22 6 = 0b000000#6 ↔
      code.extractLsb' 23 2 = 0b00#2 ∧ code.getLsbD 22 = false := by
  rw [← Bits.extractLsb'_eq_zero, ← h.top_five 0b00#2]
  exact Bits.extractLsb'_eq_append code 22 0b00000#5 0#1

/-- Bits 27 and 26 are clear. -/
theorem top_two (h : InExtensionSpace code) : code.extractLsb' 26 2 = 0b00#2 :=
  ((Bits.extractLsb'_eq_append code 25 0b00#2 0#1).1 h.top).1

/-- Bit 25 is clear: no operand of the space is a constant. -/
theorem bit25 (h : InExtensionSpace code) : code.getLsbD 25 = false :=
  (Bits.extractLsb'_eq_zero code 25).1 ((Bits.extractLsb'_eq_append code 25 0b00#2 0#1).1 h.top).2

/-- The pattern for bits 7 to 4 leaves bits 6 and 5 to be looked at. -/
theorem low_four (h : InExtensionSpace code) :
    code.extractLsb' 4 4 = 0b1001#4 ↔ code.extractLsb' 5 2 = 0b00#2 := by
  have hsplit := Bits.extractLsb'_eq_append code 4 0b100#3 1#1
  have hmiddle := Bits.extractLsb'_eq_append code 5 1#1 0b00#2
  rw [Bits.extractLsb'_eq_one] at hsplit hmiddle
  -- The outer bits are set in the whole space.
  rw [and_iff_left h.bit4] at hsplit
  rw [and_iff_right h.bit7] at hmiddle
  exact hsplit.trans hmiddle

/-- The pattern of a swap asks for bits 11 to 8 too. -/
theorem low_eight (h : InExtensionSpace code) :
    code.extractLsb' 4 8 = 0b00001001#8 ↔
      code.extractLsb' 8 4 = 0b0000#4 ∧ code.extractLsb' 5 2 = 0b00#2 := by
  rw [← h.low_four]
  exact Bits.extractLsb'_eq_append code 4 0b0000#4 0b1001#4

/-- A branch to a register has bit 7 clear. -/
theorem not_branchExchange (h : InExtensionSpace code) :
    code.extractLsb' 4 24 ≠ 0x12FFF1#24 := by
  intro hcode
  have hlow := (Bits.extractLsb'_eq_append code 4 0x12FFF#20 0b0001#4).1 hcode
  have hseven := (Bits.extractLsb'_eq_append code 4 0#1 0b001#3).1 hlow.2
  rw [Bits.extractLsb'_eq_zero, h.bit7] at hseven
  cases hseven.1

/-- The patterns for long multiplications and swaps are told apart by bits 24 and 23. -/
theorem top_five_eq (h : InExtensionSpace code) :
    (code.extractLsb' 23 5 = 0b00001#5 ↔ code.extractLsb' 23 2 = 0b01#2) ∧
      (code.extractLsb' 23 5 = 0b00010#5 ↔ code.extractLsb' 23 2 = 0b10#2) :=
  ⟨h.top_five 0b01#2, h.top_five 0b10#2⟩

end InExtensionSpace

/-- With bits 6 and 5 clear the last two formats of the `00` space are the stray ones. -/
theorem strayOf_eq {code : Word} (h : InExtensionSpace code)
    (hlow : code.extractLsb' 5 2 = 0b00#2) :
    strayOf code =
      if HasStatusBits code then decodeStatusTransfer code
      else .dataProcessing (dataProcessingOf code) := by
  have hkind : shiftKindOf code = .lsl := congrArg ShiftKind.ofCode hlow
  have hoperand : operandOf code =
      .register (registerAt code 0) .lsl (.register (registerAt code 8)) := by
    unfold operandOf
    rw [h.bit25, h.bit4, hkind]
    rfl
  have hoperation : strayOperation code = dataProcessingOf code := by
    unfold strayOperation
    rw [← hoperand]
    rfl
  unfold strayOf decodeStatusTransfer
  rw [h.bit25, hoperation]
  rfl

/-- Inside the space the fields alone tell the formats apart, and the codes that no format claims
go on to status transfers and the ALU. -/
theorem decode_of_inExtensionSpace {code : Word} (h : InExtensionSpace code) :
    Instruction.decode code = (extension? code).getD (strayOf code) := by
  unfold Instruction.decode extension?
  -- The branch and exchange is tested first. It wants bit 7 clear.
  rw [if_neg h.not_branchExchange]
  simp only [h.top_six, h.top_five_eq, h.low_four, h.low_eight, h.top, h.top_two, h.bit7, h.bit4]
  by_cases hlow : code.extractLsb' 5 2 = 0b00#2
  · -- The other three formats need bits 6 and 5 clear. Bits 24 and 23 leave one of them at most.
    rw [strayOf_eq h hlow]
    have hfamily : ∀ family : BitVec 2,
        family = 0b00#2 ∨ family = 0b01#2 ∨ family = 0b10#2 ∨ family = 0b11#2 := by decide
    rcases hfamily (code.extractLsb' 23 2) with hfamily | hfamily | hfamily | hfamily
    · cases hlong : code.getLsbD 22 <;> simp [hlow, hfamily, HasStatusBits]
    · simp [hlow, hfamily]
    · by_cases hswap : code.extractLsb' 20 2 = 0b00#2 ∧ code.extractLsb' 8 4 = 0b0000#4
      · simp [hlow, hfamily, hswap]
      · simp [hlow, hfamily, hswap, HasStatusBits]
    · simp [hlow, hfamily, HasStatusBits]
  · simp [hlow]

/-! ### Shifts by a register -/

/-- An operand is shifted by a register if it is no constant and bit 4 is set. -/
theorem shiftsByRegister_operandOf (code : Word) :
    (operandOf code).shiftsByRegister = (!code.getLsbD 25 && code.getLsbD 4) := by
  unfold operandOf
  cases code.getLsbD 25 <;> cases code.getLsbD 4 <;> rfl

/-- A status transfer takes no register that is shifted. -/
theorem shiftsByRegister_decodeStatusTransfer (code : Word) :
    (decodeStatusTransfer code).shiftsByRegister = false := by
  have hoperand := shiftsByRegister_operandOf code
  unfold decodeStatusTransfer
  cases code.getLsbD 21 <;> cases hconstant : code.getLsbD 25
  · rfl
  · rfl
  · rfl
  · rw [hconstant] at hoperand
    exact hoperand

/-- Only the ALU shifts by a register. -/
theorem Instruction.isAlu_of_shiftsByRegister {i : Instruction}
    (h : i.shiftsByRegister = true) : i.IsAlu = true := by
  cases i <;> first | rfl | cases h

/-- The pattern of a format that shifts by no register may be passed over. -/
theorem shiftsByRegister_of_ite {pattern : Prop} [Decidable pattern] {i j : Instruction}
    (hi : i.shiftsByRegister = false)
    (h : (if pattern then i else j).shiftsByRegister = true) : j.shiftsByRegister = true := by
  split at h
  · rw [hi] at h
    cases h
  · exact h

/-- A code that shifts by a register has bits 27 to 25 clear and bit 4 set. -/
theorem format_of_shiftsByRegister {code : Word}
    (h : (Instruction.decode code).shiftsByRegister = true) :
    code.extractLsb' 25 3 = 0b000#3 ∧ code.getLsbD 4 = true := by
  unfold Instruction.decode at h
  -- The exceptional formats come before the ALU.
  have h := shiftsByRegister_of_ite rfl <| shiftsByRegister_of_ite rfl <|
    shiftsByRegister_of_ite rfl <| shiftsByRegister_of_ite rfl <| shiftsByRegister_of_ite rfl h
  have h := shiftsByRegister_of_ite (shiftsByRegister_decodeStatusTransfer code) h
  by_cases htop : code.extractLsb' 26 2 = 0b00#2
  · rw [if_pos htop] at h
    have hoperand := (shiftsByRegister_operandOf code).symm.trans h
    rw [Bool.and_eq_true, Bool.not_eq_true'] at hoperand
    refine ⟨?_, hoperand.2⟩
    exact (Bits.extractLsb'_eq_append code 25 0b00#2 0#1).2
      ⟨htop, (Bits.extractLsb'_eq_zero code 25).2 hoperand.1⟩
  · rw [if_neg htop] at h
    cases shiftsByRegister_of_ite rfl <| shiftsByRegister_of_ite rfl <|
      shiftsByRegister_of_ite rfl <| shiftsByRegister_of_ite rfl <| shiftsByRegister_of_ite rfl h

/-- A stray code shifts by a register unless it is taken for a status transfer. -/
theorem shiftsByRegister_strayOf (code : Word) :
    (strayOf code).shiftsByRegister = true ↔ ¬ HasStatusBits code := by
  unfold strayOf
  by_cases hstatus : HasStatusBits code
  · rw [if_pos hstatus]
    refine iff_of_false ?_ (not_not_intro hstatus)
    split <;> exact Bool.false_ne_true
  · rw [if_neg hstatus]
    exact iff_of_true rfl hstatus

/-- Among the codes with bit 7 set, those that shift by a register are the unassigned ones, less
those that are taken for a status transfer. -/
theorem shiftsByRegister_decode (code : Word) :
    (Instruction.decode code).shiftsByRegister = true ∧ code.getLsbD 7 = true ↔
      Unassigned code ∧ ¬ HasStatusBits code := by
  constructor
  · rintro ⟨hshifts, hbit7⟩
    obtain ⟨htop, hbit4⟩ := format_of_shiftsByRegister hshifts
    have hspace : InExtensionSpace code := ⟨htop, hbit7, hbit4⟩
    rw [decode_of_inExtensionSpace hspace] at hshifts
    cases hformat : extension? code with
    | some i =>
      -- The formats of the space shift nothing.
      rw [hformat] at hshifts
      have halu := Instruction.isAlu_of_shiftsByRegister hshifts
      rw [Option.getD_some, not_isAlu_of_extension? hformat] at halu
      cases halu
    | none =>
      rw [hformat] at hshifts
      exact ⟨⟨hspace, hformat⟩, (shiftsByRegister_strayOf code).1 hshifts⟩
  · rintro ⟨⟨hspace, hformat⟩, hstatus⟩
    rw [decode_of_inExtensionSpace hspace, hformat]
    exact ⟨(shiftsByRegister_strayOf code).2 hstatus, hspace.bit7⟩

end Arm

/-! ### Execution -/

namespace Cpu

open Arm

section Memory

variable {β : Type} [MemoryBus β] (cpu : Cpu) (bus : β) {code : Word}

/-- A stray instruction makes no access. -/
theorem bus_performArm_strayOf : (cpu.performArm bus (strayOf code)).2 = bus := by
  unfold strayOf
  split
  · split <;> rfl
  · rfl

/-- A stray instruction that has another destination than R15 goes on behind its code. -/
theorem lands_strayOf (hrd : registerAt code 12 ≠ .pc) :
    Lands cpu (cpu.performArm bus (strayOf code)).1 none := by
  unfold strayOf
  split
  · split
    · exact cpu.lands_writeStatus ..
    · have hread := cpu.lands_readStatus (.ofBit (code.getLsbD 22)) (registerAt code 12)
      rwa [written?, if_neg hrd] at hread
  · have hresult := cpu.lands_dataProcessing (strayOperation code)
    have hrd' : (strayOperation code).rd ≠ .pc := hrd
    rwa [written?, if_neg hrd', ite_self] at hresult

/-- An unassigned code whose condition holds does what it is taken for. -/
theorem executeArm_unassigned (h : Unassigned code)
    (hcondition : cpu.cpsr.satisfies (Opcode.decode code).condition = true) :
    cpu.executeArm bus (.decode code) = cpu.performArm bus (strayOf code) := by
  have hdecode : (Opcode.decode code).instruction = strayOf code := by
    show Instruction.decode code = strayOf code
    rw [decode_of_inExtensionSpace h.1, h.2]
    rfl
  rw [executeArm, if_pos hcondition, hdecode]

end Memory

/-- The codes of the extension space that no format claims are the ones there that are taken for an
ALU operation or a status transfer, and the reason why a shift by a register may have bit 7 set.
None of them is trapped: on any bus it does what the ALU does, makes no access, and goes on behind
its code unless R15 is its destination. -/
theorem unassigned_codes_reach_alu (code : Word) :
    (InExtensionSpace code →
      Instruction.decode code = (extension? code).getD (strayOf code) ∧
        ((Instruction.decode code).IsAlu = true ↔ Unassigned code)) ∧
      ((Instruction.decode code).shiftsByRegister = true ∧ code.getLsbD 7 = true ↔
        Unassigned code ∧ ¬ HasStatusBits code) ∧
      (Unassigned code → ∀ {β : Type} [MemoryBus β] (cpu : Cpu) (bus : β),
        cpu.cpsr.satisfies (Opcode.decode code).condition = true →
          cpu.executeArm bus (.decode code) = ((cpu.performArm bus (strayOf code)).1, bus) ∧
          (registerAt code 12 ≠ .pc →
            Lands cpu (cpu.executeArm bus (.decode code)).1 none)) := by
  refine ⟨fun hspace => ⟨decode_of_inExtensionSpace hspace, ?_⟩, shiftsByRegister_decode code, ?_⟩
  · rw [decode_of_inExtensionSpace hspace]
    cases hformat : extension? code with
    | some i =>
      refine iff_of_false ?_ fun h => Option.some_ne_none i (hformat.symm.trans h.2)
      rw [Option.getD_some, not_isAlu_of_extension? hformat]
      exact Bool.false_ne_true
    | none => exact iff_of_true (isAlu_strayOf code) ⟨hspace, hformat⟩
  · intro hunassigned β _ cpu bus hcondition
    rw [cpu.executeArm_unassigned bus hunassigned hcondition]
    exact ⟨Prod.ext rfl (cpu.bus_performArm_strayOf bus), cpu.lands_strayOf bus⟩

/-- `ORR R0, R1, R2, LSL R3`, but with bit 7 set. -/
def strayOr : Word := 0xE1810392

/-- The code sets a register to what the ALU makes of two others. -/
theorem strayOr_reaches_alu :
    Unassigned strayOr ∧ ¬ HasStatusBits strayOr ∧
      initial.cpsr.satisfies (Opcode.decode strayOr).condition = true ∧
      Instruction.decode strayOr =
        .dataProcessing ⟨.orr, false, 1, 0, .register 2 .lsl (.register 3)⟩ ∧
      initial.executeArm ({} : Dma) (.decode strayOr) =
        (initial.dataProcessing ⟨.orr, false, 1, 0, .register 2 .lsl (.register 3)⟩, {}) := by
  have hunassigned : Unassigned strayOr := by decide
  have hcondition : initial.cpsr.satisfies (Opcode.decode strayOr).condition = true := by decide
  obtain ⟨hdecode, -, hexecute⟩ := unassigned_codes_reach_alu strayOr
  exact ⟨hunassigned, by decide, hcondition, (hdecode hunassigned.1).1.trans (by decide),
    (hexecute hunassigned initial ({} : Dma) hcondition).1⟩

/-- The space is not closed off from the ALU, a shift by a register may have bit 7 set, and an
unassigned code need not be trapped. -/
theorem not_extension_space_trapped :
    ¬ (∀ code, InExtensionSpace code → (Instruction.decode code).IsAlu = false) ∧
      ¬ (∀ code, (Instruction.decode code).shiftsByRegister = true → code.getLsbD 7 = false) ∧
      ¬ (∀ (code : Word) (cpu : Cpu) (bus : Dma), Unassigned code →
        cpu.cpsr.satisfies (Opcode.decode code).condition = true →
          cpu.executeArm bus (.decode code) = (cpu.enter .undefined, bus)) := by
  refine ⟨fun h => ?_, fun h => ?_, fun h => ?_⟩
  · exact absurd (h strayOr (by decide)) (by decide)
  · exact absurd (h strayOr (by decide)) (by decide)
  · exact absurd (h strayOr initial {} (by decide) (by decide)) (by decide)

end Cpu

end AdvanceCore
