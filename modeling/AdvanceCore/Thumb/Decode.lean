import AdvanceCore.Thumb.Instruction

/-!
# `AdvanceCore.Thumb.Decode`: from halfwords to instructions

The high bits of a code name its format. Addition with three operands lies inside the
pattern of the shifts, and the software interrupt inside that of the conditional
branch, so each of them comes first. The condition that always holds makes no
conditional branch. Halfwords that match no format are undefined.
-/

set_option autoImplicit false

namespace AdvanceCore.Thumb

open Bits

/-- The low register in the three bits from `lowest` up. -/
def lowRegisterAt (code : Half) (lowest : Nat) : LowRegister :=
  (code.extractLsb' lowest 3).toFin

/-- The `count` bits from `lowest` up, as a word. -/
def unsignedAt (code : Half) (lowest count : Nat) : Word :=
  (code.extractLsb' lowest count).setWidth 32

/-- The `count` low bits, counting halfwords, as a signed number of bytes. -/
def distanceOf (code : Half) (count : Nat) : Word :=
  signExtendLow (unsignedAt code 0 count <<< 1) (count + 1)

/-- A three-address addition or subtraction. Bit 10 selects a constant. -/
def addSubtractOf (code : Half) : Instruction :=
  .addSubtract (code.getLsbD 9)
    (if code.getLsbD 10 then .immediate (code.extractLsb' 6 3)
      else .register (lowRegisterAt code 6))
    (lowRegisterAt code 3) (lowRegisterAt code 0)

/-- An operation on any two registers. Bit 7 extends the destination. -/
def highOf (code : Half) : Instruction :=
  .high (.ofCode (code.extractLsb' 8 2)) (.ofField (code.extractLsb' 3 4))
    (.ofField (code.extractLsb' 7 1 ++ code.extractLsb' 0 3))

/-- A transfer at a constant offset, which counts words or bytes. -/
def transferOffsetOf (code : Half) : Instruction :=
  let quantity := Quantity.ofBit (code.getLsbD 12)
  let offset := unsignedAt code 6 5
  .transferOffset (.ofBit (code.getLsbD 11)) quantity
    (match quantity with
      | .word => offset <<< 2
      | .byte => offset)
    (lowRegisterAt code 3) (lowRegisterAt code 0)

/-- A push or a pop. Bit 8 adds the link register or the program counter. -/
def pushPopOf (code : Half) : Instruction :=
  let registers := code.extractLsb' 0 8
  if code.getLsbD 11 then .pop registers (code.getLsbD 8)
  else .push registers (code.getLsbD 8)

/-- One half of a call. -/
def callOf (code : Half) : Instruction :=
  let offset := code.extractLsb' 0 11
  if code.getLsbD 11 then .callLower offset else .callUpper offset

/-- Decodes the instruction of a code. -/
def Instruction.decode (code : Half) : Instruction :=
  if code.extractLsb' 11 5 = 0b00011#5 then
    addSubtractOf code
  else if code.extractLsb' 13 3 = 0b000#3 then
    .shift (.ofCode (code.extractLsb' 11 2)) (code.extractLsb' 6 5).toNat
      (lowRegisterAt code 3) (lowRegisterAt code 0)
  else if code.extractLsb' 13 3 = 0b001#3 then
    .immediate (.ofCode (code.extractLsb' 11 2)) (lowRegisterAt code 8) (unsignedAt code 0 8)
  else if code.extractLsb' 10 6 = 0b010000#6 then
    .alu (.ofCode (code.extractLsb' 6 4)) (lowRegisterAt code 3) (lowRegisterAt code 0)
  else if code.extractLsb' 10 6 = 0b010001#6 then
    highOf code
  else if code.extractLsb' 11 5 = 0b01001#5 then
    .loadLiteral (lowRegisterAt code 8) (unsignedAt code 0 8 <<< 2)
  else if code.extractLsb' 12 4 = 0b0101#4 ∧ ¬ code.getLsbD 9 then
    .transferIndexed (.ofBit (code.getLsbD 11)) (.ofBit (code.getLsbD 10))
      (lowRegisterAt code 6) (lowRegisterAt code 3) (lowRegisterAt code 0)
  else if code.extractLsb' 12 4 = 0b0101#4 then
    .transferSigned (.ofBits (code.getLsbD 10) (code.getLsbD 11))
      (lowRegisterAt code 6) (lowRegisterAt code 3) (lowRegisterAt code 0)
  else if code.extractLsb' 13 3 = 0b011#3 then
    transferOffsetOf code
  else if code.extractLsb' 12 4 = 0b1000#4 then
    .transferHalf (.ofBit (code.getLsbD 11)) (unsignedAt code 6 5 <<< 1)
      (lowRegisterAt code 3) (lowRegisterAt code 0)
  else if code.extractLsb' 12 4 = 0b1001#4 then
    .transferStack (.ofBit (code.getLsbD 11)) (lowRegisterAt code 8) (unsignedAt code 0 8 <<< 2)
  else if code.extractLsb' 12 4 = 0b1010#4 then
    .loadAddress (if code.getLsbD 11 then .sp else .pc) (lowRegisterAt code 8)
      (unsignedAt code 0 8 <<< 2)
  else if code.extractLsb' 8 8 = 0b10110000#8 then
    .moveStack (.ofBit !(code.getLsbD 7)) (unsignedAt code 0 7 <<< 2)
  else if code.extractLsb' 12 4 = 0b1011#4 ∧ code.extractLsb' 9 2 = 0b10#2 then
    pushPopOf code
  else if code.extractLsb' 12 4 = 0b1100#4 then
    .transferBlock (.ofBit (code.getLsbD 11)) (lowRegisterAt code 8) (code.extractLsb' 0 8)
  else if code.extractLsb' 8 8 = 0b11011111#8 then
    .softwareInterrupt (code.extractLsb' 0 8)
  else if code.extractLsb' 12 4 = 0b1101#4 ∧ code.extractLsb' 8 4 ≠ 0b1110#4 then
    .conditionalBranch (.ofCode (code.extractLsb' 8 4)) (distanceOf code 8)
  else if code.extractLsb' 11 5 = 0b11100#5 then
    .branch (distanceOf code 11)
  else if code.extractLsb' 12 4 = 0b1111#4 then
    callOf code
  else
    .undefined

/-- Decodes a code. -/
def Opcode.decode (code : Half) : Opcode :=
  { instruction := .decode code, raw := code }

end AdvanceCore.Thumb
