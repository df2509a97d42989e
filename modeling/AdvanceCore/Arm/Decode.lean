import AdvanceCore.Arm.Instruction

/-!
# `AdvanceCore.Arm.Decode`: from words to instructions

The patterns of the formats overlap, so their order is part of the encoding. The
exceptional patterns of the `000` space come first (branch and exchange, the
multiplications, swap, halfword transfers), then status transfers and the ALU. The
rest follows the top bits. Words that match no format are undefined: no coprocessor
is attached.
-/

set_option autoImplicit false

namespace AdvanceCore.Arm

open Bits

/-- The register in the four bits from `lowest` up. -/
def registerAt (code : Word) (lowest : Nat) : RegisterId :=
  .ofField (code.extractLsb' lowest 4)

/-- The shift operation in bits 6 and 5. -/
def shiftKindOf (code : Word) : ShiftKind :=
  .ofCode (code.extractLsb' 5 2)

/-- The second operand. Bit 25 selects a constant, bit 4 a shift by a register. -/
def operandOf (code : Word) : Operand :=
  if code.getLsbD 25 then
    .immediate (field code 0 7) (2 * (code.extractLsb' 8 4).toNat)
  else if code.getLsbD 4 then
    .register (registerAt code 0) (shiftKindOf code) (.register (registerAt code 8))
  else
    .register (registerAt code 0) (shiftKindOf code) (.immediate (code.extractLsb' 7 5).toNat)

/-- The bytes of a status register that bits 16 to 19 select. -/
def statusMask (code : Word) : Word :=
  let part (n : Nat) : Byte := if code.getLsbD (16 + n) then 0xFF else 0
  part 3 ++ part 2 ++ part 1 ++ part 0

/-- Status transfers. Bit 21 selects writing, which takes a constant or an unshifted
register; reading has no constant form. -/
def decodeStatusTransfer (code : Word) : Instruction :=
  let status := StatusRegister.ofBit (code.getLsbD 22)
  if code.getLsbD 21 then
    .writeStatus status (statusMask code)
      (if code.getLsbD 25 then operandOf code
        else .register (registerAt code 0) .lsl (.immediate 0))
  else if code.getLsbD 25 then .undefined
  else .readStatus status (registerAt code 12)

/-- The fields of a multiplication. -/
def multiplyOf (code : Word) : Multiply :=
  { accumulates := code.getLsbD 21
    setFlags := code.getLsbD 20
    rd := registerAt code 16
    rn := registerAt code 12
    rs := registerAt code 8
    rm := registerAt code 0 }

/-- The fields of a long multiplication. -/
def multiplyLongOf (code : Word) : MultiplyLong :=
  { isSigned := code.getLsbD 22
    accumulates := code.getLsbD 21
    setFlags := code.getLsbD 20
    rdHigh := registerAt code 16
    rdLow := registerAt code 12
    rs := registerAt code 8
    rm := registerAt code 0 }

/-- The fields of a swap. -/
def swapOf (code : Word) : Swap :=
  { quantity := .ofBit (code.getLsbD 22)
    rn := registerAt code 16
    rd := registerAt code 12
    rm := registerAt code 0 }

/-- The fields of a halfword transfer. Its constant offset is split in two. -/
def halfwordTransferOf (code : Word) : HalfwordTransfer :=
  { indexing := .ofBit (code.getLsbD 24)
    offsetting := .ofBit (code.getLsbD 23)
    writeBack := code.getLsbD 21
    direction := .ofBit (code.getLsbD 20)
    kind := .ofCode (code.extractLsb' 5 2)
    rd := registerAt code 12
    base := registerAt code 16
    offset :=
      if code.getLsbD 22 then
        .immediate ((code.extractLsb' 8 4 ++ code.extractLsb' 0 4).setWidth 32)
      else .register (registerAt code 0) }

/-- The fields of an ALU operation. -/
def dataProcessingOf (code : Word) : DataProcessing :=
  { op := .ofCode (code.extractLsb' 21 4)
    setFlags := code.getLsbD 20
    rn := registerAt code 16
    rd := registerAt code 12
    operand := operandOf code }

/-- The fields of a single transfer. Here bit 25 selects a register offset. -/
def singleTransferOf (code : Word) : SingleTransfer :=
  { indexing := .ofBit (code.getLsbD 24)
    offsetting := .ofBit (code.getLsbD 23)
    writeBack := code.getLsbD 21
    direction := .ofBit (code.getLsbD 20)
    quantity := .ofBit (code.getLsbD 22)
    rd := registerAt code 12
    base := registerAt code 16
    offset :=
      if code.getLsbD 25 then
        .register (registerAt code 0) (shiftKindOf code) (code.extractLsb' 7 5).toNat
      else .immediate (field code 0 11) }

/-- The fields of a block transfer. -/
def blockTransferOf (code : Word) : BlockTransfer :=
  { indexing := .ofBit (code.getLsbD 24)
    offsetting := .ofBit (code.getLsbD 23)
    statusBit := code.getLsbD 22
    writeBack := code.getLsbD 21
    direction := .ofBit (code.getLsbD 20)
    base := registerAt code 16
    registers := code.extractLsb' 0 16 }

/-- The distance of a branch: 24 bits count words. -/
def branchOffsetOf (code : Word) : Word :=
  signExtendLow (field code 0 23 <<< 2) 26

/-- Decodes the instruction of a code. -/
def Instruction.decode (code : Word) : Instruction :=
  if code.extractLsb' 4 24 = 0x12FFF1#24 then
    .branchExchange (registerAt code 0)
  else if code.extractLsb' 22 6 = 0b000000#6 ∧ code.extractLsb' 4 4 = 0b1001#4 then
    .multiply (multiplyOf code)
  else if code.extractLsb' 23 5 = 0b00001#5 ∧ code.extractLsb' 4 4 = 0b1001#4 then
    .multiplyLong (multiplyLongOf code)
  else if code.extractLsb' 23 5 = 0b00010#5 ∧ code.extractLsb' 20 2 = 0b00#2 ∧
      code.extractLsb' 4 8 = 0b00001001#8 then
    .swap (swapOf code)
  else if code.extractLsb' 25 3 = 0b000#3 ∧ code.getLsbD 7 ∧ code.getLsbD 4 ∧
      code.extractLsb' 5 2 ≠ 0b00#2 then
    .halfwordTransfer (halfwordTransferOf code)
  else if code.extractLsb' 26 2 = 0b00#2 ∧ code.extractLsb' 23 2 = 0b10#2 ∧
      ¬ code.getLsbD 20 then
    decodeStatusTransfer code
  else if code.extractLsb' 26 2 = 0b00#2 then
    .dataProcessing (dataProcessingOf code)
  else if code.extractLsb' 25 3 = 0b011#3 ∧ code.getLsbD 4 then
    .undefined
  else if code.extractLsb' 26 2 = 0b01#2 then
    .singleTransfer (singleTransferOf code)
  else if code.extractLsb' 25 3 = 0b100#3 then
    .blockTransfer (blockTransferOf code)
  else if code.extractLsb' 25 3 = 0b101#3 then
    .branch (code.getLsbD 24) (branchOffsetOf code)
  else if code.extractLsb' 24 4 = 0b1111#4 then
    .softwareInterrupt (field code 0 23)
  else
    .undefined

/-- Decodes a code with its condition, which stands in the top four bits. -/
def Opcode.decode (code : Word) : Opcode :=
  { condition := .ofCode (code.extractLsb' 28 4)
    instruction := .decode code
    raw := code }

end AdvanceCore.Arm
