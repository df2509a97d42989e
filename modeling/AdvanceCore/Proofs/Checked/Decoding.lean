import AdvanceCore.Arm.Decode
import AdvanceCore.Proofs.Checked.Words
import AdvanceCore.Thumb.Decode

/-!
# `AdvanceCore.Proofs.Checked.Decoding`: every code has fields in range

A decoder reads bits and fields of a code, works out masks and distances from them, and takes
four or three bits for the number of a register. In the checked form that number is compared
with the sixteen registers that there are. No code breaks a decoder, the undefined ones
included: `Arm.Opcode.decode?_eq` for all words and `Thumb.Opcode.decode?_eq` for all
halfwords.
-/

set_option autoImplicit false

namespace AdvanceCore

open Bits

/-- The register with a number, of which there are sixteen. -/
def RegisterId.ofNumber? (number : Nat) : Option RegisterId :=
  if h : number < 16 then some ⟨number, h⟩ else none

/-- Four bits are the number of one of them. -/
theorem RegisterId.ofNumber?_toNat {number : Nat} {bits : BitVec 4} (h : number = bits.toNat) :
    ofNumber? number = some (.ofField bits) := by
  subst h
  exact dif_pos bits.isLt

/-! ### Words -/

namespace Arm

/-- The checked form of `registerAt`. -/
def registerAt? (code : Word) (lowest : Nat) : Option RegisterId := do
  RegisterId.ofNumber? ((← shiftRight? code lowest) &&& 0xF).toNat

/-- The checked form of `shiftKindOf`. -/
def shiftKindOf? (code : Word) : Option ShiftKind := return .ofCode (← slice? code 5 2)

/-- The checked form of `operandOf`. -/
def operandOf? (code : Word) : Option Operand := do
  if ← bit? code 25 then
    return .immediate (← field? code 0 7) (← product? 32 2 (← slice? code 8 4).toNat)
  else if ← bit? code 4 then
    return .register (← registerAt? code 0) (← shiftKindOf? code) (.register (← registerAt? code 8))
  else
    return .register (← registerAt? code 0) (← shiftKindOf? code)
      (.immediate (← slice? code 7 5).toNat)

/-- Byte `n` of a status mask, shifted to its place. -/
def statusByte? (code : Word) (n : Nat) : Option Word := do
  if ← bit? code (16 + n) then shiftLeft? 0xFF (8 * n) else return 0

/-- The checked form of `statusMask`. -/
def statusMask? (code : Word) : Option Word := do
  return (← statusByte? code 3) ||| (← statusByte? code 2) ||| (← statusByte? code 1) |||
    (← statusByte? code 0)

/-- The operand of a status transfer, a constant or an unshifted register. -/
def statusOperand? (code : Word) : Option Operand := do
  if ← bit? code 25 then operandOf? code
  else return .register (← registerAt? code 0) .lsl (.immediate 0)

/-- The checked form of `decodeStatusTransfer`. -/
def decodeStatusTransfer? (code : Word) : Option Instruction := do
  let status := StatusRegister.ofBit (← bit? code 22)
  if ← bit? code 21 then
    return .writeStatus status (← statusMask? code) (← statusOperand? code)
  else if ← bit? code 25 then return .undefined
  else return .readStatus status (← registerAt? code 12)

/-- The checked form of `multiplyOf`. -/
def multiplyOf? (code : Word) : Option Multiply := do
  return {
    accumulates := ← bit? code 21
    setFlags := ← bit? code 20
    rd := ← registerAt? code 16
    rn := ← registerAt? code 12
    rs := ← registerAt? code 8
    rm := ← registerAt? code 0 }

/-- The checked form of `multiplyLongOf`. -/
def multiplyLongOf? (code : Word) : Option MultiplyLong := do
  return {
    isSigned := ← bit? code 22
    accumulates := ← bit? code 21
    setFlags := ← bit? code 20
    rdHigh := ← registerAt? code 16
    rdLow := ← registerAt? code 12
    rs := ← registerAt? code 8
    rm := ← registerAt? code 0 }

/-- The checked form of `swapOf`. -/
def swapOf? (code : Word) : Option Swap := do
  return {
    quantity := .ofBit (← bit? code 22)
    rn := ← registerAt? code 16
    rd := ← registerAt? code 12
    rm := ← registerAt? code 0 }

/-- The offset of a halfword transfer, of which the upper part is shifted to its place. -/
def halfwordOffset? (code : Word) : Option HalfwordOffset := do
  if ← bit? code 22 then
    return .immediate ((← shiftLeft? (← field? code 8 11) 4) ||| (← field? code 0 3))
  else return .register (← registerAt? code 0)

/-- The checked form of `halfwordTransferOf`. -/
def halfwordTransferOf? (code : Word) : Option HalfwordTransfer := do
  return {
    indexing := .ofBit (← bit? code 24)
    offsetting := .ofBit (← bit? code 23)
    writeBack := ← bit? code 21
    direction := .ofBit (← bit? code 20)
    kind := .ofCode (← slice? code 5 2)
    rd := ← registerAt? code 12
    base := ← registerAt? code 16
    offset := ← halfwordOffset? code }

/-- The checked form of `dataProcessingOf`. -/
def dataProcessingOf? (code : Word) : Option DataProcessing := do
  return {
    op := .ofCode (← slice? code 21 4)
    setFlags := ← bit? code 20
    rn := ← registerAt? code 16
    rd := ← registerAt? code 12
    operand := ← operandOf? code }

/-- The offset of a single transfer. -/
def singleOffset? (code : Word) : Option SingleOffset := do
  if ← bit? code 25 then
    return .register (← registerAt? code 0) (← shiftKindOf? code) (← slice? code 7 5).toNat
  else return .immediate (← field? code 0 11)

/-- The checked form of `singleTransferOf`. -/
def singleTransferOf? (code : Word) : Option SingleTransfer := do
  return {
    indexing := .ofBit (← bit? code 24)
    offsetting := .ofBit (← bit? code 23)
    writeBack := ← bit? code 21
    direction := .ofBit (← bit? code 20)
    quantity := .ofBit (← bit? code 22)
    rd := ← registerAt? code 12
    base := ← registerAt? code 16
    offset := ← singleOffset? code }

/-- The checked form of `blockTransferOf`. -/
def blockTransferOf? (code : Word) : Option BlockTransfer := do
  return {
    indexing := .ofBit (← bit? code 24)
    offsetting := .ofBit (← bit? code 23)
    statusBit := ← bit? code 22
    writeBack := ← bit? code 21
    direction := .ofBit (← bit? code 20)
    base := ← registerAt? code 16
    registers := ← slice? code 0 16 }

/-- The checked form of `branchOffsetOf`. -/
def branchOffsetOf? (code : Word) : Option Word := do
  signExtendLow? (← shiftLeft? (← field? code 0 23) 2) 26

/-- The checked form of `Instruction.decode`. -/
def Instruction.decode? (code : Word) : Option Instruction := do
  if (← slice? code 4 24) = 0x12FFF1#24 then
    return .branchExchange (← registerAt? code 0)
  else if (← slice? code 22 6) = 0b000000#6 ∧ (← slice? code 4 4) = 0b1001#4 then
    return .multiply (← multiplyOf? code)
  else if (← slice? code 23 5) = 0b00001#5 ∧ (← slice? code 4 4) = 0b1001#4 then
    return .multiplyLong (← multiplyLongOf? code)
  else if (← slice? code 23 5) = 0b00010#5 ∧ (← slice? code 20 2) = 0b00#2 ∧
      (← slice? code 4 8) = 0b00001001#8 then
    return .swap (← swapOf? code)
  else if (← slice? code 25 3) = 0b000#3 ∧ (← bit? code 7) ∧ (← bit? code 4) ∧
      (← slice? code 5 2) ≠ 0b00#2 then
    return .halfwordTransfer (← halfwordTransferOf? code)
  else if (← slice? code 26 2) = 0b00#2 ∧ (← slice? code 23 2) = 0b10#2 ∧
      ¬ (← bit? code 20) then
    decodeStatusTransfer? code
  else if (← slice? code 26 2) = 0b00#2 then
    return .dataProcessing (← dataProcessingOf? code)
  else if (← slice? code 25 3) = 0b011#3 ∧ (← bit? code 4) then
    return .undefined
  else if (← slice? code 26 2) = 0b01#2 then
    return .singleTransfer (← singleTransferOf? code)
  else if (← slice? code 25 3) = 0b100#3 then
    return .blockTransfer (← blockTransferOf? code)
  else if (← slice? code 25 3) = 0b101#3 then
    return .branch (← bit? code 24) (← branchOffsetOf? code)
  else if (← slice? code 24 4) = 0b1111#4 then
    return .softwareInterrupt (← field? code 0 23)
  else
    return .undefined

/-- The checked form of `Opcode.decode`. -/
def Opcode.decode? (code : Word) : Option Opcode := do
  return {
    condition := .ofCode (← slice? code 28 4)
    instruction := ← Instruction.decode? code
    raw := code }

/-- Four bits of a code are shifted down and number a register. -/
@[simp] theorem registerAt?_of_lt (code : Word) {lowest : Nat} (h : lowest < 32) :
    registerAt? code lowest = some (registerAt code lowest) := by
  simp only [registerAt?, shiftRight?_of_lt code h, Option.bind_eq_bind, Option.bind_some]
  exact RegisterId.ofNumber?_toNat (toNat_shiftRight_and code lowest rfl)

/-- The two bits of a shift are in a code. -/
@[simp] theorem shiftKindOf?_eq (code : Word) : shiftKindOf? code = some (shiftKindOf code) := by
  simp [shiftKindOf?, shiftKindOf]

/-- The operand of an ALU instruction: twice the four bits of a rotation fit in a word. -/
@[simp] theorem operandOf?_eq (code : Word) : operandOf? code = some (operandOf code) := by
  have hrotation : 2 * (code.extractLsb' 8 4).toNat < 2 ^ 32 := by
    have := (code.extractLsb' 8 4).isLt
    omega
  simp [operandOf?, operandOf, product?_of_lt hrotation, ← apply_ite some,
    -BitVec.extractLsb'_toNat]

/-- Bytes of ones that are moved to their places are the bytes of a mask. -/
theorem or_of_bytes (b₃ b₂ b₁ b₀ : Bool) :
    (if b₃ then (0xFF : Word) <<< (8 * 3) else 0) |||
        (if b₂ then (0xFF : Word) <<< (8 * 2) else 0) |||
        (if b₁ then (0xFF : Word) <<< (8 * 1) else 0) |||
        (if b₀ then (0xFF : Word) <<< (8 * 0) else 0) =
      (if b₃ then 0xFF else 0 : Byte) ++ (if b₂ then 0xFF else 0 : Byte) ++
        (if b₁ then 0xFF else 0 : Byte) ++ (if b₀ then 0xFF else 0 : Byte) := by
  decide +revert

/-- There are four bytes in a mask, so the last one is shifted by twenty-four. -/
@[simp] theorem statusByte?_of_lt (code : Word) {n : Nat} (h : n < 4) :
    statusByte? code n =
      some (if code.getLsbD (16 + n) then (0xFF : Word) <<< (8 * n) else 0) := by
  have hbit : 16 + n < 32 := by omega
  have hplace : 8 * n < 32 := by omega
  simp only [statusByte?, bit?_of_lt code hbit, shiftLeft?_of_lt 0xFF hplace,
    Option.bind_eq_bind, Option.bind_some, Option.pure_def, ← apply_ite some]

/-- The mask is put together from its four bytes. -/
@[simp] theorem statusMask?_eq (code : Word) : statusMask? code = some (statusMask code) := by
  simp only [statusMask?, statusByte?_of_lt, Nat.reduceLT, Option.bind_eq_bind,
    Option.bind_some, Option.pure_def]
  exact congrArg some (or_of_bytes (code.getLsbD 19) (code.getLsbD 18) (code.getLsbD 17)
    (code.getLsbD 16))

/-- The operand of a status write is decoded like any other, but without a shift. -/
@[simp] theorem statusOperand?_eq (code : Word) :
    statusOperand? code = some (if code.getLsbD 25 then operandOf code
      else .register (registerAt code 0) .lsl (.immediate 0)) := by
  simp [statusOperand?, ← apply_ite some]

/-- Status transfers are told apart by single bits. -/
@[simp] theorem decodeStatusTransfer?_eq (code : Word) :
    decodeStatusTransfer? code = some (decodeStatusTransfer code) := by
  simp [decodeStatusTransfer?, decodeStatusTransfer, ← apply_ite some]

/-- The fields of a multiplication are single bits and register numbers. -/
@[simp] theorem multiplyOf?_eq (code : Word) : multiplyOf? code = some (multiplyOf code) := by
  simp [multiplyOf?, multiplyOf]

/-- The fields of a long multiplication are single bits and register numbers. -/
@[simp] theorem multiplyLongOf?_eq (code : Word) :
    multiplyLongOf? code = some (multiplyLongOf code) := by
  simp [multiplyLongOf?, multiplyLongOf]

/-- The fields of a swap are a single bit and register numbers. -/
@[simp] theorem swapOf?_eq (code : Word) : swapOf? code = some (swapOf code) := by
  simp [swapOf?, swapOf]

/-- The two parts of an offset, one shifted over the other. -/
theorem or_of_fields (code : Word) :
    (field code 8 11 <<< 4) ||| field code 0 3 =
      (code.extractLsb' 8 4 ++ code.extractLsb' 0 4).setWidth 32 := by
  refine BitVec.eq_of_getLsbD_eq fun i hi => ?_
  rw [BitVec.getLsbD_or, BitVec.getLsbD_shiftLeft, getLsbD_field, getLsbD_field,
    BitVec.getLsbD_setWidth, BitVec.getLsbD_append, BitVec.getLsbD_extractLsb',
    BitVec.getLsbD_extractLsb']
  by_cases hlow : i < 4
  · simp [hi, hlow]
  · simp [hi, hlow, Bool.and_comm]

/-- The offset of a halfword transfer comes in two parts, the upper one shifted by four. -/
@[simp] theorem halfwordTransferOf?_eq (code : Word) :
    halfwordTransferOf? code = some (halfwordTransferOf code) := by
  simp [halfwordTransferOf?, halfwordTransferOf, halfwordOffset?, or_of_fields, ← apply_ite some]

/-- Four bits are enough for the sixteen operations. -/
@[simp] theorem dataProcessingOf?_eq (code : Word) :
    dataProcessingOf? code = some (dataProcessingOf code) := by
  simp [dataProcessingOf?, dataProcessingOf]

/-- The offset of a single transfer is twelve bits, or a register with a constant shift. -/
@[simp] theorem singleTransferOf?_eq (code : Word) :
    singleTransferOf? code = some (singleTransferOf code) := by
  simp [singleTransferOf?, singleTransferOf, singleOffset?, ← apply_ite some]

/-- The list of a block transfer is sixteen bits. -/
@[simp] theorem blockTransferOf?_eq (code : Word) :
    blockTransferOf? code = some (blockTransferOf code) := by
  simp [blockTransferOf?, blockTransferOf]

/-- The distance of a branch is shifted by two and extended from twenty-six bits. -/
@[simp] theorem branchOffsetOf?_eq (code : Word) :
    branchOffsetOf? code = some (branchOffsetOf code) := by
  simp [branchOffsetOf?, branchOffsetOf]

/-- No word breaks the decoder, whichever of its tests it passes. -/
@[simp] theorem Instruction.decode?_eq (code : Word) :
    Instruction.decode? code = some (.decode code) := by
  simp [decode?, decode, ← apply_ite some]

/-- No word breaks the decoder. -/
@[simp] theorem Opcode.decode?_eq (code : Word) : Opcode.decode? code = some (.decode code) := by
  simp [decode?, decode]

end Arm

/-! ### Halfwords -/

namespace Thumb

/-- The checked form of `lowRegisterAt`. Three bits are a number like any other, which has to
be that of a register. -/
def lowRegisterAt? (code : Half) (lowest : Nat) : Option LowRegister := do
  let number := ((← shiftRight? code lowest) &&& 0b111).toNat
  if h : number < 8 then some ⟨number, h⟩ else none

/-- The checked form of `unsignedAt`. -/
def unsignedAt? (code : Half) (lowest count : Nat) : Option Word := do
  return (← slice? code lowest count).setWidth 32

/-- The checked form of `distanceOf`. -/
def distanceOf? (code : Half) (count : Nat) : Option Word := do
  signExtendLow? (← shiftLeft? (← unsignedAt? code 0 count) 1) (count + 1)

/-- The checked form of `addSubtractOf`. -/
def addSubtractOf? (code : Half) : Option Instruction := do
  let subtract ← bit? code 9
  if ← bit? code 10 then
    return .addSubtract subtract (.immediate (← slice? code 6 3)) (← lowRegisterAt? code 3)
      (← lowRegisterAt? code 0)
  else
    return .addSubtract subtract (.register (← lowRegisterAt? code 6)) (← lowRegisterAt? code 3)
      (← lowRegisterAt? code 0)

/-- The destination of an operation on any two registers. Bit 7 is shifted over three more. -/
def highDestination? (code : Half) : Option RegisterId := do
  let low := ((← shiftRight? code 0) &&& 0b111).setWidth 32
  let high : Word ← shiftLeft? (if ← bit? code 7 then 1 else 0) 3
  RegisterId.ofNumber? (low ||| high).toNat

/-- The checked form of `highOf`. -/
def highOf? (code : Half) : Option Instruction := do
  return .high (.ofCode (← slice? code 8 2))
    (← RegisterId.ofNumber? (← field? code 3 6).toNat) (← highDestination? code)

/-- The checked form of `transferOffsetOf`. -/
def transferOffsetOf? (code : Half) : Option Instruction := do
  let direction := Direction.ofBit (← bit? code 11)
  let offset ← unsignedAt? code 6 5
  match Quantity.ofBit (← bit? code 12) with
  | .word =>
    return .transferOffset direction .word (← shiftLeft? offset 2) (← lowRegisterAt? code 3)
      (← lowRegisterAt? code 0)
  | .byte =>
    return .transferOffset direction .byte offset (← lowRegisterAt? code 3)
      (← lowRegisterAt? code 0)

/-- The checked form of `pushPopOf`. -/
def pushPopOf? (code : Half) : Option Instruction := do
  let registers ← slice? code 0 8
  if ← bit? code 11 then return .pop registers (← bit? code 8)
  else return .push registers (← bit? code 8)

/-- The checked form of `callOf`. -/
def callOf? (code : Half) : Option Instruction := do
  let offset ← slice? code 0 11
  if ← bit? code 11 then return .callLower offset else return .callUpper offset

/-- The checked form of `Instruction.decode`. -/
def Instruction.decode? (code : Half) : Option Instruction := do
  if (← slice? code 11 5) = 0b00011#5 then
    addSubtractOf? code
  else if (← slice? code 13 3) = 0b000#3 then
    return .shift (.ofCode (← slice? code 11 2)) (← slice? code 6 5).toNat
      (← lowRegisterAt? code 3) (← lowRegisterAt? code 0)
  else if (← slice? code 13 3) = 0b001#3 then
    return .immediate (.ofCode (← slice? code 11 2)) (← lowRegisterAt? code 8)
      (← unsignedAt? code 0 8)
  else if (← slice? code 10 6) = 0b010000#6 then
    return .alu (.ofCode (← slice? code 6 4)) (← lowRegisterAt? code 3) (← lowRegisterAt? code 0)
  else if (← slice? code 10 6) = 0b010001#6 then
    highOf? code
  else if (← slice? code 11 5) = 0b01001#5 then
    return .loadLiteral (← lowRegisterAt? code 8) (← shiftLeft? (← unsignedAt? code 0 8) 2)
  else if (← slice? code 12 4) = 0b0101#4 ∧ ¬ (← bit? code 9) then
    return .transferIndexed (.ofBit (← bit? code 11)) (.ofBit (← bit? code 10))
      (← lowRegisterAt? code 6) (← lowRegisterAt? code 3) (← lowRegisterAt? code 0)
  else if (← slice? code 12 4) = 0b0101#4 then
    return .transferSigned (.ofBits (← bit? code 10) (← bit? code 11))
      (← lowRegisterAt? code 6) (← lowRegisterAt? code 3) (← lowRegisterAt? code 0)
  else if (← slice? code 13 3) = 0b011#3 then
    transferOffsetOf? code
  else if (← slice? code 12 4) = 0b1000#4 then
    return .transferHalf (.ofBit (← bit? code 11)) (← shiftLeft? (← unsignedAt? code 6 5) 1)
      (← lowRegisterAt? code 3) (← lowRegisterAt? code 0)
  else if (← slice? code 12 4) = 0b1001#4 then
    return .transferStack (.ofBit (← bit? code 11)) (← lowRegisterAt? code 8)
      (← shiftLeft? (← unsignedAt? code 0 8) 2)
  else if (← slice? code 12 4) = 0b1010#4 then
    return .loadAddress (if ← bit? code 11 then .sp else .pc) (← lowRegisterAt? code 8)
      (← shiftLeft? (← unsignedAt? code 0 8) 2)
  else if (← slice? code 8 8) = 0b10110000#8 then
    return .moveStack (.ofBit !(← bit? code 7)) (← shiftLeft? (← unsignedAt? code 0 7) 2)
  else if (← slice? code 12 4) = 0b1011#4 ∧ (← slice? code 9 2) = 0b10#2 then
    pushPopOf? code
  else if (← slice? code 12 4) = 0b1100#4 then
    return .transferBlock (.ofBit (← bit? code 11)) (← lowRegisterAt? code 8) (← slice? code 0 8)
  else if (← slice? code 8 8) = 0b11011111#8 then
    return .softwareInterrupt (← slice? code 0 8)
  else if (← slice? code 12 4) = 0b1101#4 ∧ (← slice? code 8 4) ≠ 0b1110#4 then
    return .conditionalBranch (.ofCode (← slice? code 8 4)) (← distanceOf? code 8)
  else if (← slice? code 11 5) = 0b11100#5 then
    return .branch (← distanceOf? code 11)
  else if (← slice? code 12 4) = 0b1111#4 then
    callOf? code
  else
    return .undefined

/-- The checked form of `Opcode.decode`. -/
def Opcode.decode? (code : Half) : Option Opcode := do
  return { instruction := ← Instruction.decode? code, raw := code }

/-- Three bits of a code number one of the low registers. -/
@[simp] theorem lowRegisterAt?_of_lt (code : Half) {lowest : Nat} (h : lowest < 16) :
    lowRegisterAt? code lowest = some (lowRegisterAt code lowest) := by
  have hnumber : ((code >>> lowest) &&& 0b111).toNat = (code.extractLsb' lowest 3).toNat :=
    toNat_shiftRight_and code lowest rfl
  have hlt : ((code >>> lowest) &&& 0b111).toNat < 8 := by
    rw [hnumber]
    exact (code.extractLsb' lowest 3).isLt
  simp only [lowRegisterAt?, shiftRight?_of_lt code h, Option.bind_eq_bind, Option.bind_some,
    dif_pos hlt]
  exact congrArg some (Fin.ext hnumber)

/-- A number that lies within the code can be read from it. -/
@[simp] theorem unsignedAt?_of_le (code : Half) {lowest count : Nat} (hpos : 0 < count)
    (h : lowest + count ≤ 16) :
    unsignedAt? code lowest count = some (unsignedAt code lowest count) := by
  simp [unsignedAt?, unsignedAt, slice?_of_le code hpos h]

/-- A distance with a sign can be read if it lies within the code. -/
@[simp] theorem distanceOf?_of_le (code : Half) {count : Nat} (hpos : 0 < count)
    (h : count ≤ 16) : distanceOf? code count = some (distanceOf code count) := by
  have hle : 0 + count ≤ 16 := by omega
  have hwide : count + 1 ≤ 32 := by omega
  simp [distanceOf?, distanceOf, unsignedAt?_of_le code hpos hle, hwide]

/-- The three bits of an addend are a register or a number. -/
@[simp] theorem addSubtractOf?_eq (code : Half) :
    addSubtractOf? code = some (addSubtractOf code) := by
  simp only [addSubtractOf?, addSubtractOf, bit?_of_lt, Nat.reduceLT]
  cases code.getLsbD 10 <;> simp

/-- Three bits and a fourth one, shifted over them. -/
theorem ofNumber?_or (low : BitVec 3) (high : BitVec 1) :
    RegisterId.ofNumber?
        (low.setWidth 32 ||| (if high.getLsbD 0 then 1 else 0 : Word) <<< 3).toNat =
      some (.ofField (high ++ low)) := by
  decide +revert

/-- The fourth bit of a high register comes from another place of the code. -/
@[simp] theorem highDestination?_eq (code : Half) :
    highDestination? code =
      some (.ofField (code.extractLsb' 7 1 ++ code.extractLsb' 0 3)) := by
  have hlow : ((code >>> 0) &&& 0b111).setWidth 32 = (code.extractLsb' 0 3).setWidth 32 := by
    refine BitVec.eq_of_toNat_eq ?_
    rw [BitVec.toNat_setWidth, BitVec.toNat_setWidth]
    exact congrArg (· % 2 ^ 32) (toNat_shiftRight_and code 0 rfl)
  have hhigh : code.getLsbD 7 = (code.extractLsb' 7 1).getLsbD 0 := by simp
  simp only [highDestination?, shiftRight?_of_lt, shiftLeft?_of_lt, bit?_of_lt, Nat.reduceLT,
    Option.bind_eq_bind, Option.bind_some, hlow, hhigh]
  exact ofNumber?_or (code.extractLsb' 0 3) (code.extractLsb' 7 1)

/-- The operations on high registers take their four bits at once. -/
@[simp] theorem highOf?_eq (code : Half) : highOf? code = some (highOf code) := by
  have hsource : RegisterId.ofNumber? (field code 3 6).toNat =
      some (.ofField (code.extractLsb' 3 4)) :=
    RegisterId.ofNumber?_toNat (toNat_shiftRight_and code 3 rfl)
  simp [highOf?, highOf, hsource]

/-- The offset of a transfer is five bits, scaled by the size of what is moved. -/
@[simp] theorem transferOffsetOf?_eq (code : Half) :
    transferOffsetOf? code = some (transferOffsetOf code) := by
  simp only [transferOffsetOf?, transferOffsetOf, bit?_of_lt, Nat.reduceLT]
  cases code.getLsbD 12 <;> simp [Quantity.ofBit]

/-- The list of a push or a pop is the low byte of the code. -/
@[simp] theorem pushPopOf?_eq (code : Half) : pushPopOf? code = some (pushPopOf code) := by
  simp [pushPopOf?, pushPopOf, ← apply_ite some]

/-- Either half of a call has eleven bits of distance. -/
@[simp] theorem callOf?_eq (code : Half) : callOf? code = some (callOf code) := by
  simp [callOf?, callOf, ← apply_ite some]

/-- No halfword breaks the decoder either. -/
@[simp] theorem Instruction.decode?_eq (code : Half) :
    Instruction.decode? code = some (.decode code) := by
  simp [decode?, decode, ← apply_ite some]

/-- No halfword breaks the decoder. -/
@[simp] theorem Opcode.decode?_eq (code : Half) : Opcode.decode? code = some (.decode code) := by
  simp [decode?, decode]

end Thumb

end AdvanceCore
