import AdvanceCore.Cpu.Step
import AdvanceCore.Memory

/-!
# `AdvanceCore.Proofs.Cpu.ThumbAsArm`: Thumb instructions as ARM instructions

Most Thumb instructions are short forms of ARM instructions: fewer registers, smaller
constants, and the S bit always set. The two instruction sets are executed apart from each
other, and do the same all the same. Only what has to do with the width of a code has no ARM
form: addresses and jumps relative to R15, and calls.

* `Thumb.Instruction.armForm?`: the ARM instruction that does the same, if there is one.
* `process_sum`, `process_logic` and so on: what the ALU of the ARM side does with operands that
  Thumb has.
* `performArm_single`, `performArm_halfword`: transfers at a sum, without write-back.
* `executeThumb_eq_executeArm`: both leave the same processor and the same bus.
-/

set_option autoImplicit false

namespace AdvanceCore

/-! ### ARM forms -/

namespace Thumb

open Arm (DataProcessing Multiply SingleTransfer HalfwordTransfer Operand)

/-- A register as a second operand, unshifted. -/
def plain (r : RegisterId) : Operand := .register r .lsl (.immediate 0)

/-- A constant as a second operand, unrotated. -/
def constant (value : Word) : Operand := .immediate value 0

/-- `op{S} rd, rn, operand`, where moves have no `rn` and tests have no `rd`. -/
def process (op : Arm.AluOp) (setFlags : Bool) (rd rn : RegisterId) (operand : Operand) :
    Arm.Instruction :=
  .dataProcessing { op := op, setFlags := setFlags, rn := rn, rd := rd, operand := operand }

/-- `LDR`, `STR`, `LDRB` or `STRB rd, [base, offset]`. -/
def single (direction : Direction) (quantity : Quantity) (rd base : RegisterId)
    (offset : Arm.SingleOffset) : Arm.Instruction :=
  .singleTransfer
    { indexing := .pre
      offsetting := .up
      writeBack := false
      direction := direction
      quantity := quantity
      rd := rd
      base := base
      offset := offset }

/-- `LDRH`, `STRH`, `LDRSB` or `LDRSH rd, [base, offset]`. -/
def halfword (direction : Direction) (kind : Arm.HalfwordKind) (rd base : RegisterId)
    (offset : Arm.HalfwordOffset) : Arm.Instruction :=
  .halfwordTransfer
    { indexing := .pre
      offsetting := .up
      writeBack := false
      direction := direction
      kind := kind
      rd := rd
      base := base
      offset := offset }

/-- `LDM` or `STM base!, {registers}`. -/
def multiple (direction : Direction) (indexing : Indexing) (offsetting : Offsetting)
    (base : RegisterId) (registers : Half) : Arm.Instruction :=
  .blockTransfer
    { indexing := indexing
      offsetting := offsetting
      statusBit := false
      writeBack := true
      direction := direction
      base := base
      registers := registers }

/-- The second operand of a three-address operation. -/
def Addend.operand : Addend → Operand
  | .immediate value => constant (value.setWidth 32)
  | .register r => plain r.id

/-- `ADD rd, #value`, with flags, and so on. -/
def ImmediateOp.armForm (rd : LowRegister) (value : Word) : ImmediateOp → Arm.Instruction
  | .mov => process .mov true rd.id 0 (constant value)
  | .cmp => process .cmp true 0 rd.id (constant value)
  | .add => process .add true rd.id rd.id (constant value)
  | .sub => process .sub true rd.id rd.id (constant value)

/-- `ANDS rd, rd, rs` and so on. A shift is a move of the shifted register, a negation is a
subtraction from zero. -/
def AluOp.armForm (rs rd : LowRegister) : AluOp → Arm.Instruction
  | .and => process .and true rd.id rd.id (plain rs.id)
  | .eor => process .eor true rd.id rd.id (plain rs.id)
  | .lsl => process .mov true rd.id 0 (.register rd.id .lsl (.register rs.id))
  | .lsr => process .mov true rd.id 0 (.register rd.id .lsr (.register rs.id))
  | .asr => process .mov true rd.id 0 (.register rd.id .asr (.register rs.id))
  | .adc => process .adc true rd.id rd.id (plain rs.id)
  | .sbc => process .sbc true rd.id rd.id (plain rs.id)
  | .ror => process .mov true rd.id 0 (.register rd.id .ror (.register rs.id))
  | .tst => process .tst true 0 rd.id (plain rs.id)
  | .neg => process .rsb true rd.id rs.id (constant 0)
  | .cmp => process .cmp true 0 rd.id (plain rs.id)
  | .cmn => process .cmn true 0 rd.id (plain rs.id)
  | .orr => process .orr true rd.id rd.id (plain rs.id)
  | .mul =>
    .multiply
      { accumulates := false
        setFlags := true
        rd := rd.id
        rn := 0
        rs := rd.id
        rm := rs.id }
  | .bic => process .bic true rd.id rd.id (plain rs.id)
  | .mvn => process .mvn true rd.id 0 (plain rs.id)

/-- `ADD rd, rd, rs`, without flags, and so on. -/
def HighOp.armForm (rs rd : RegisterId) : HighOp → Arm.Instruction
  | .add => process .add false rd rd (plain rs)
  | .cmp => process .cmp true 0 rd (plain rs)
  | .mov => process .mov false rd 0 (plain rs)
  | .bx => .branchExchange rs

/-- `STRH rd, [base, index]` and so on. -/
def SignedTransfer.armForm (rd base : RegisterId) (offset : Arm.HalfwordOffset) :
    SignedTransfer → Arm.Instruction
  | .storeHalf => halfword .store .unsignedHalf rd base offset
  | .loadHalf => halfword .load .unsignedHalf rd base offset
  | .loadSignedByte => halfword .load .signedByte rd base offset
  | .loadSignedHalf => halfword .load .signedHalf rd base offset

/-- The ARM instruction that does the same. -/
def Instruction.armForm? : Instruction → Option Arm.Instruction
  | .shift kind amount rs rd =>
    some (process .mov true rd.id 0 (.register rs.id kind (.immediate amount)))
  | .addSubtract subtract addend rs rd =>
    some (process (if subtract then .sub else .add) true rd.id rs.id addend.operand)
  | .immediate op rd value => some (op.armForm rd value)
  | .alu op rs rd => some (op.armForm rs rd)
  | .high op rs rd => some (op.armForm rs rd)
  | .transferIndexed direction quantity index base rd =>
    some (single direction quantity rd.id base.id (.register index.id .lsl 0))
  | .transferSigned transfer index base rd =>
    some (transfer.armForm rd.id base.id (.register index.id))
  | .transferOffset direction quantity offset base rd =>
    some (single direction quantity rd.id base.id (.immediate offset))
  | .transferHalf direction offset base rd =>
    some (halfword direction .unsignedHalf rd.id base.id (.immediate offset))
  | .transferStack direction rd offset =>
    some (single direction .word rd.id .sp (.immediate offset))
  | .loadAddress .sp rd offset => some (process .add false rd.id .sp (constant offset))
  | .moveStack .up offset => some (process .add false .sp .sp (constant offset))
  | .moveStack .down offset => some (process .sub false .sp .sp (constant offset))
  | .push registers link =>
    some (multiple .store .pre .down .sp (Bits.setBit (registers.setWidth 16) 14 link))
  | .pop registers pc =>
    some (multiple .load .post .up .sp (Bits.setBit (registers.setWidth 16) 15 pc))
  | .transferBlock direction base registers =>
    some (multiple direction .post .up base.id (registers.setWidth 16))
  | .loadLiteral .. | .loadAddress .pc .. | .conditionalBranch .. | .softwareInterrupt ..
  | .branch .. | .callUpper .. | .callLower .. | .undefined => none

/-- R15 is no low register. -/
theorem LowRegister.id_ne_pc (r : LowRegister) : r.id ≠ .pc := by
  intro h
  have hval : r.val = 15 := congrArg Fin.val h
  omega

end Thumb

namespace Cpu

open Thumb
open Arm (Operand arithmeticResult? logicalResult)

/-! ### The ALU -/

/-- A constant operand leaves the carry. -/
theorem secondOperand_constant (cpu : Cpu) (value : Word) :
    cpu.secondOperand (constant value) = ⟨value, cpu.cpsr.carry⟩ := by
  have hunrotated : value.rotateRight 0 = value := by
    show value >>> 0 ||| value <<< 32 = value
    rw [BitVec.ushiftRight_zero, BitVec.shiftLeft_eq_zero (Nat.le_refl 32), BitVec.or_zero]
  show (⟨value.rotateRight 0, cpu.cpsr.carry⟩ : Shifted) = _
  rw [hunrotated]

/-- A register that is not shifted leaves the carry. -/
theorem secondOperand_plain (cpu : Cpu) (r : RegisterId) :
    cpu.secondOperand (plain r) = ⟨cpu.register r, cpu.cpsr.carry⟩ := rfl

/-- Writing a low register is no jump. -/
theorem writeRegister_low (cpu : Cpu) (rd : LowRegister) (value : Word) :
    cpu.writeRegister rd.id value = cpu.setRegister rd.id value :=
  if_neg rd.id_ne_pc

/-- The flags of a value and a carry that stays are those of the value. -/
theorem flagShifted_carry (cpu : Cpu) (value : Word) :
    cpu.flagShifted ⟨value, cpu.cpsr.carry⟩ = cpu.flagValue value := by
  have hstatus : (cpu.cpsr.withSignAndZero value).withCarry cpu.cpsr.carry =
      cpu.cpsr.withSignAndZero value := by
    rw [← Psr.carry_withSignAndZero cpu.cpsr value, Psr.withCarry_carry]
  show cpu.setFlags _ = cpu.setFlags _
  rw [hstatus]

/-- A shift by a constant is done within the operation. -/
theorem operandRegister_of_not_shifts (cpu : Cpu) {operand : Operand}
    (h : operand.shiftsByRegister = false) (r : RegisterId) :
    cpu.operandRegister operand r = cpu.register r := by
  unfold operandRegister
  rw [h]
  exact if_neg fun hboth => absurd hboth.1 Bool.false_ne_true

/-- Without a shift by a register no cycle is spent. -/
theorem spendShift_of_not_shifts (cpu : Cpu) {operand : Operand}
    (h : operand.shiftsByRegister = false) : cpu.spendShift operand = cpu := by
  unfold spendShift
  rw [h]
  rfl

section Alu

variable {β : Type} [MemoryBus β] {cpu : Cpu} {operand : Operand} {second : Word} {carry : Bool}
  {sum : AluResult} {rn : RegisterId}

/-- An arithmetic operation that sets flags. -/
theorem process_sum (op : Arm.AluOp) (hshift : operand.shiftsByRegister = false)
    (hsecond : cpu.secondOperand operand = ⟨second, carry⟩)
    (hsum : arithmeticResult? op (cpu.register rn) second cpu.cpsr.carry = some sum)
    (htest : op.isTest = false) (rd : LowRegister) (bus : β) :
    cpu.performArm bus (process op true rd.id rn operand) = (cpu.keepSum rd sum, bus) := by
  refine Prod.ext ?_ rfl
  rw [← operandRegister_of_not_shifts cpu hshift rn] at hsum
  show cpu.dataProcessing ⟨op, true, rn, rd.id, operand⟩ = _
  rw [dataProcessing_sum cpu rd.id_ne_pc htest (by rw [hsecond, hsum]),
    spendShift_of_not_shifts _ hshift]
  rfl

/-- A comparison. -/
theorem process_compare (op : Arm.AluOp) (hshift : operand.shiftsByRegister = false)
    (hsecond : cpu.secondOperand operand = ⟨second, carry⟩)
    (hsum : arithmeticResult? op (cpu.register rn) second cpu.cpsr.carry = some sum)
    (htest : op.isTest = true) (rd : RegisterId) (bus : β) :
    cpu.performArm bus (process op true rd rn operand) = (cpu.flagSum sum, bus) := by
  refine Prod.ext ?_ rfl
  rw [← operandRegister_of_not_shifts cpu hshift rn] at hsum
  show cpu.dataProcessing ⟨op, true, rn, rd, operand⟩ = _
  rw [dataProcessing_compare cpu rd htest (by rw [hsecond, hsum]),
    spendShift_of_not_shifts _ hshift]
  rfl

/-- A logical operation that sets flags. -/
theorem process_logic (op : Arm.AluOp) {shifted : Shifted}
    (hsecond : cpu.secondOperand operand = shifted)
    (hsum : arithmeticResult? op (cpu.operandRegister operand rn) shifted.value cpu.cpsr.carry =
      none)
    (htest : op.isTest = false) (rd : LowRegister) (bus : β) :
    cpu.performArm bus (process op true rd.id rn operand) =
      ((cpu.spendShift operand).keepShifted rd
        ⟨logicalResult op (cpu.operandRegister operand rn) shifted.value, shifted.carry⟩, bus) := by
  have hreturns : (rd.id == RegisterId.pc) = false := beq_eq_false_iff_ne.mpr rd.id_ne_pc
  have hstatus : (cpu.spendShift operand).cpsr = cpu.cpsr := by
    unfold spendShift
    split <;> rfl
  refine Prod.ext ?_ rfl
  show cpu.dataProcessing _ = _
  unfold dataProcessing keepShifted flagShifted
  dsimp only
  rw [hsecond, hsum, htest, hreturns, hstatus]
  exact writeRegister_low ..

/-- A logical operation whose second operand comes with the carry as it is. -/
theorem process_value (op : Arm.AluOp) (hshift : operand.shiftsByRegister = false)
    (hsecond : cpu.secondOperand operand = ⟨second, cpu.cpsr.carry⟩)
    (hsum : arithmeticResult? op (cpu.register rn) second cpu.cpsr.carry = none)
    (htest : op.isTest = false) (rd : LowRegister) (bus : β) :
    cpu.performArm bus (process op true rd.id rn operand) =
      (cpu.keepValue rd (logicalResult op (cpu.register rn) second), bus) := by
  rw [← operandRegister_of_not_shifts cpu hshift rn] at hsum ⊢
  rw [process_logic op hsecond hsum htest, spendShift_of_not_shifts _ hshift]
  unfold keepShifted
  rw [flagShifted_carry]
  rfl

/-- A logical test. -/
theorem process_test (op : Arm.AluOp) (hshift : operand.shiftsByRegister = false)
    (hsecond : cpu.secondOperand operand = ⟨second, cpu.cpsr.carry⟩)
    (hsum : arithmeticResult? op (cpu.register rn) second cpu.cpsr.carry = none)
    (htest : op.isTest = true) (rd : RegisterId) (bus : β) :
    cpu.performArm bus (process op true rd rn operand) =
      (cpu.flagValue (logicalResult op (cpu.register rn) second), bus) := by
  refine Prod.ext ?_ rfl
  show cpu.dataProcessing _ = _
  unfold dataProcessing
  dsimp only
  rw [operandRegister_of_not_shifts _ hshift, spendShift_of_not_shifts _ hshift, hsecond, hsum,
    htest, Bool.not_true, Bool.and_false]
  exact flagShifted_carry ..

/-- An operation that leaves the flags alone. -/
theorem process_silent (op : Arm.AluOp) (hshift : operand.shiftsByRegister = false)
    (hsecond : cpu.secondOperand operand = ⟨second, carry⟩) (htest : op.isTest = false)
    (rd : RegisterId) (bus : β) :
    cpu.performArm bus (process op false rd rn operand) =
      (cpu.writeRegister rd
        (match arithmeticResult? op (cpu.register rn) second cpu.cpsr.carry with
          | some sum => sum.value
          | none => logicalResult op (cpu.register rn) second), bus) := by
  refine Prod.ext ?_ rfl
  show cpu.dataProcessing _ = _
  unfold dataProcessing
  dsimp only
  rw [operandRegister_of_not_shifts _ hshift, spendShift_of_not_shifts _ hshift, hsecond, htest]
  rfl

/-- A move of a shifted register. -/
theorem process_shifted {shifted : Shifted} (hsecond : cpu.secondOperand operand = shifted)
    (rd : LowRegister) (bus : β) :
    cpu.performArm bus (process .mov true rd.id 0 operand) =
      ((cpu.spendShift operand).keepShifted rd shifted, bus) :=
  process_logic .mov hsecond rfl rfl rd bus

/-- A shift is a move of a shifted register. -/
theorem performThumb_shift (kind : ShiftKind) (amount : Nat) (rs rd : LowRegister) (bus : β) :
    cpu.performThumb bus (.shift kind amount rs rd) =
      cpu.performArm bus
        (process .mov true rd.id 0 (.register rs.id kind (.immediate amount))) := by
  have hsecond : cpu.secondOperand (.register rs.id kind (.immediate amount)) =
      shiftImmediate kind amount (cpu.register rs.id) cpu.cpsr.carry := by
    let operand : Operand := .register rs.id kind (.immediate amount)
    have hregister : cpu.operandRegister operand rs.id = cpu.register rs.id :=
      operandRegister_of_not_shifts cpu rfl rs.id
    rw [← hregister]
    rfl
  rw [process_shifted hsecond]
  rfl

/-- A low register is not R15, which a shift by a register would see one word further. -/
theorem performThumb_shiftByRegister (kind : ShiftKind) (rs rd : LowRegister) (bus : β) :
    (cpu.shiftByRegister kind rs rd, bus) =
      cpu.performArm bus
        (process .mov true rd.id 0 (.register rd.id kind (.register rs.id))) := by
  let operand : Operand := .register rd.id kind (.register rs.id)
  have hlow : cpu.operandRegister operand rd.id = cpu.register rd.id :=
    if_neg fun h => rd.id_ne_pc h.2
  have hsecond : cpu.secondOperand operand =
      shift kind (Bits.byte (cpu.register rs.id) 0).toNat (cpu.register rd.id) cpu.cpsr.carry := by
    rw [← hlow]
    rfl
  rw [process_shifted hsecond]
  rfl

/-- An addition or subtraction has a register or a constant as its addend. -/
theorem performThumb_addSubtract (subtract : Bool) (addend : Addend) (rs rd : LowRegister)
    (bus : β) :
    cpu.performThumb bus (.addSubtract subtract addend rs rd) =
      cpu.performArm bus
        (process (if subtract then .sub else .add) true rd.id rs.id addend.operand) := by
  cases addend with
  | immediate value =>
    have hsecond := cpu.secondOperand_constant (value.setWidth 32)
    cases subtract with
    | true => exact (process_sum .sub rfl hsecond rfl rfl rd bus).symm
    | false => exact (process_sum .add rfl hsecond rfl rfl rd bus).symm
  | register r =>
    have hsecond := cpu.secondOperand_plain r.id
    cases subtract with
    | true => exact (process_sum .sub rfl hsecond rfl rfl rd bus).symm
    | false => exact (process_sum .add rfl hsecond rfl rfl rd bus).symm

/-- The operations with an immediate are those of the ALU with a constant. -/
theorem performThumb_immediate (op : ImmediateOp) (rd : LowRegister) (value : Word) (bus : β) :
    cpu.performThumb bus (.immediate op rd value) = cpu.performArm bus (op.armForm rd value) := by
  have hsecond := cpu.secondOperand_constant value
  cases op with
  | mov => exact (process_value .mov rfl hsecond rfl rfl rd bus).symm
  | cmp => exact (process_compare .cmp rfl hsecond rfl rfl 0 bus).symm
  | add => exact (process_sum .add rfl hsecond rfl rfl rd bus).symm
  | sub => exact (process_sum .sub rfl hsecond rfl rfl rd bus).symm

/-- The time a multiplication takes depends on the destination. -/
theorem performThumb_multiply (rs rd : LowRegister) (bus : β) :
    cpu.performThumb bus (.alu .mul rs rd) =
      cpu.performArm bus (AluOp.armForm rs rd .mul) := by
  refine Prod.ext ?_ rfl
  show (cpu.spend (multiplierCycles (cpu.register rd.id) true)).keepValue rd
      (cpu.register rd.id * cpu.register rs.id) =
    ((cpu.spend (multiplierCycles (cpu.register rd.id) true)).flagValue
      (cpu.register rs.id * cpu.register rd.id)).writeRegister rd.id
        (cpu.register rs.id * cpu.register rd.id)
  rw [BitVec.mul_comm (cpu.register rs.id), writeRegister_low]
  rfl

/-- The operations between low registers are those of the ALU, with shifts as moves and a negation
as a subtraction from zero. -/
theorem performThumb_alu (op : Thumb.AluOp) (rs rd : LowRegister) (bus : β) :
    cpu.performThumb bus (.alu op rs rd) = cpu.performArm bus (op.armForm rs rd) := by
  have hsecond := cpu.secondOperand_plain rs.id
  -- Values, sums, tests and comparisons each have one lemma. The shifts and the product spend
  -- cycles and are apart.
  cases op with
  | and => exact (process_value .and rfl hsecond rfl rfl rd bus).symm
  | eor => exact (process_value .eor rfl hsecond rfl rfl rd bus).symm
  | lsl => exact performThumb_shiftByRegister .lsl rs rd bus
  | lsr => exact performThumb_shiftByRegister .lsr rs rd bus
  | asr => exact performThumb_shiftByRegister .asr rs rd bus
  | adc => exact (process_sum .adc rfl hsecond rfl rfl rd bus).symm
  | sbc => exact (process_sum .sbc rfl hsecond rfl rfl rd bus).symm
  | ror => exact performThumb_shiftByRegister .ror rs rd bus
  | tst => exact (process_test .tst rfl hsecond rfl rfl 0 bus).symm
  | neg => exact (process_sum .rsb rfl (cpu.secondOperand_constant 0) rfl rfl rd bus).symm
  | cmp => exact (process_compare .cmp rfl hsecond rfl rfl 0 bus).symm
  | cmn => exact (process_compare .cmn rfl hsecond rfl rfl 0 bus).symm
  | orr => exact (process_value .orr rfl hsecond rfl rfl rd bus).symm
  | mul => exact performThumb_multiply rs rd bus
  | bic => exact (process_value .bic rfl hsecond rfl rfl rd bus).symm
  | mvn => exact (process_value .mvn rfl hsecond rfl rfl rd bus).symm

/-- The operations on high registers set no flags, unless they compare. -/
theorem performThumb_high (op : HighOp) (rs rd : RegisterId) (bus : β) :
    cpu.performThumb bus (.high op rs rd) = cpu.performArm bus (op.armForm rs rd) := by
  have hsecond := cpu.secondOperand_plain rs
  cases op with
  | add =>
    rw [HighOp.armForm, process_silent .add rfl hsecond rfl]
    show _ = (cpu.writeRegister rd (addWithCarry _ _ false).value, bus)
    rw [value_addWithCarry]
    rfl
  | cmp => exact (process_compare .cmp rfl hsecond rfl rfl 0 bus).symm
  | mov => exact (process_silent .mov rfl hsecond rfl rd bus).symm
  | bx => rfl

/-- The stack pointer is not R15. -/
theorem performThumb_moveStack (offsetting : Offsetting) (offset : Word) (bus : β) :
    cpu.performThumb bus (.moveStack offsetting offset) =
      cpu.performArm bus
        (process (match offsetting with | .up => .add | .down => .sub) false .sp .sp
          (constant offset)) := by
  have hsecond := cpu.secondOperand_constant offset
  cases offsetting with
  | up =>
    rw [process_silent .add rfl hsecond rfl]
    show _ = (cpu.writeRegister .sp (addWithCarry _ _ false).value, bus)
    rw [value_addWithCarry]
    rfl
  | down =>
    rw [process_silent .sub rfl hsecond rfl]
    show _ = (cpu.writeRegister .sp (subWithCarry _ _ true).value, bus)
    rw [value_subWithCarry]
    rfl

/-- An address from the stack pointer is a sum. -/
theorem performThumb_loadAddress (rd : LowRegister) (offset : Word) (bus : β) :
    cpu.performThumb bus (.loadAddress .sp rd offset) =
      cpu.performArm bus (process .add false rd.id .sp (constant offset)) := by
  rw [process_silent .add rfl (cpu.secondOperand_constant offset) rfl]
  show _ = (cpu.writeRegister rd.id (addWithCarry _ _ false).value, bus)
  rw [value_addWithCarry, writeRegister_low]
  rfl

end Alu

/-! ### Transfers -/

section Transfers

variable {β : Type} [MemoryBus β] (cpu : Cpu) (bus : β)

/-- A low register is stored as it is, without the offset of R15. -/
theorem storedRegister_low (rd : LowRegister) : cpu.storedRegister rd.id = cpu.register rd.id :=
  if_neg rd.id_ne_pc

/-- What a transfer adds to its base. -/
def singleIndex (cpu : Cpu) : Arm.SingleOffset → Word
  | .immediate offset => offset
  | .register r kind amount => (shiftImmediate kind amount (cpu.register r) cpu.cpsr.carry).value

/-- What a halfword transfer adds to its base. -/
def halfwordIndex (cpu : Cpu) : Arm.HalfwordOffset → Word
  | .immediate offset => offset
  | .register r => cpu.register r

/-- A single transfer with an offset, before the access and without write-back, is a transfer of a
low register. -/
theorem performArm_single (direction : Direction) (quantity : Quantity) (rd : LowRegister)
    (base : RegisterId) (offset : Arm.SingleOffset) :
    cpu.performArm bus (single direction quantity rd.id base offset) =
      cpu.transferLow bus direction quantity (cpu.register base + cpu.singleIndex offset) rd := by
  show cpu.singleTransfer bus _ = _
  unfold singleTransfer transferLow
  dsimp only
  rw [storedRegister_low]
  cases direction with
  | load => cases quantity <;> rfl
  | store => cases quantity <;> rfl

/-- A halfword transfer of that kind is a signed transfer of a low register. -/
theorem performArm_halfword (transfer : SignedTransfer) (rd : LowRegister) (base : RegisterId)
    (offset : Arm.HalfwordOffset) :
    cpu.performArm bus (transfer.armForm rd.id base offset) =
      cpu.transferLowSigned bus transfer (cpu.register base + cpu.halfwordIndex offset) rd := by
  cases transfer with
  | storeHalf =>
    show cpu.storeValue bus .half _ (cpu.storedRegister rd.id) none = _
    rw [storedRegister_low]
    rfl
  | loadHalf | loadSignedByte | loadSignedHalf => rfl

/-! ### Both instruction sets -/

/-- A Thumb instruction leaves the same processor and the same bus as its ARM form, whatever
the state and whatever the bus: registers, both statuses, the banks, the cycles that were spent
and the mark on the pipeline. A bus that keeps a record of its accesses has the same record. -/
theorem executeThumb_eq_executeArm {code : Thumb.Opcode} {i : Arm.Instruction}
    (h : code.instruction.armForm? = some i) (raw : Word) :
    cpu.executeThumb bus code =
      cpu.executeArm bus { condition := .al, instruction := i, raw := raw } := by
  obtain ⟨instruction, _⟩ := code
  -- The condition always holds.
  show cpu.performThumb bus instruction = cpu.performArm bus i
  change instruction.armForm? = some i at h
  cases instruction with
  | shift kind amount rs rd =>
    cases h
    exact performThumb_shift kind amount rs rd bus
  | addSubtract subtract addend rs rd =>
    cases h
    exact performThumb_addSubtract subtract addend rs rd bus
  | immediate op rd value =>
    cases h
    exact performThumb_immediate op rd value bus
  | alu op rs rd =>
    cases h
    exact performThumb_alu op rs rd bus
  | high op rs rd =>
    cases h
    exact performThumb_high op rs rd bus
  | transferIndexed direction quantity index base rd =>
    cases h
    exact (cpu.performArm_single bus direction quantity rd base.id (.register index.id .lsl 0)).symm
  | transferSigned transfer index base rd =>
    cases h
    exact (cpu.performArm_halfword bus transfer rd base.id (.register index.id)).symm
  | transferOffset direction quantity offset base rd =>
    cases h
    exact (cpu.performArm_single bus direction quantity rd base.id (.immediate offset)).symm
  | transferHalf direction offset base rd =>
    cases h
    cases direction with
    | load => exact (cpu.performArm_halfword bus .loadHalf rd base.id (.immediate offset)).symm
    | store => exact (cpu.performArm_halfword bus .storeHalf rd base.id (.immediate offset)).symm
  | transferStack direction rd offset =>
    cases h
    exact (cpu.performArm_single bus direction .word rd .sp (.immediate offset)).symm
  | loadAddress base rd offset =>
    cases base with
    | pc => cases h
    | sp =>
      cases h
      exact performThumb_loadAddress rd offset bus
  | moveStack offsetting offset =>
    cases offsetting with
    | up =>
      cases h
      exact performThumb_moveStack .up offset bus
    | down =>
      cases h
      exact performThumb_moveStack .down offset bus
  | push registers link | pop registers pc | transferBlock direction base registers =>
    cases h
    rfl
  | loadLiteral | conditionalBranch | softwareInterrupt | branch | callUpper | callLower
  | undefined => cases h

/-- `PUSH {R0, LR}` is `STMDB R13!, {R0, R14}`, and `MUL R1, R2` is `MULS R1, R2, R1`. -/
theorem executeThumb_push_and_multiply :
    let ram : WorkRam 0x20 := .zero 0x20 (by decide)
    initial.executeThumb ram (.decode 0xB501) = initial.executeArm ram (.decode 0xE92D4001) ∧
      initial.executeThumb ram (.decode 0x4351) = initial.executeArm ram (.decode 0xE0110192) := by
  intro ram
  exact ⟨initial.executeThumb_eq_executeArm ram (by decide) 0xE92D4001,
    initial.executeThumb_eq_executeArm ram (by decide) 0xE0110192⟩

end Transfers

end Cpu

end AdvanceCore
