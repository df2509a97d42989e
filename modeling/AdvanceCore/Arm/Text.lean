import AdvanceCore.Arm.Instruction
import AdvanceCore.Numeral

/-!
# `AdvanceCore.Arm.Text`: 32-bit instructions as assembly text

An opcode is written as its eight hexadecimal digits, the instruction, and the
condition in parentheses unless it always holds.
-/

set_option autoImplicit false

namespace AdvanceCore.Arm

open Numeral (hex)

/-- The mnemonic of an ALU operation. -/
def AluOp.mnemonic : AluOp → String
  | .and => "AND"
  | .eor => "EOR"
  | .sub => "SUB"
  | .rsb => "RSB"
  | .add => "ADD"
  | .adc => "ADC"
  | .sbc => "SBC"
  | .rsc => "RSC"
  | .tst => "TST"
  | .teq => "TEQ"
  | .cmp => "CMP"
  | .cmn => "CMN"
  | .orr => "ORR"
  | .mov => "MOV"
  | .bic => "BIC"
  | .mvn => "MVN"

/-- The name of a status register. -/
def StatusRegister.text : StatusRegister → String
  | .cpsr => "CPSR"
  | .spsr => "SPSR"

/-- A constant operand. -/
def constant (value : Word) : String :=
  "#0x" ++ hex 1 value.toNat

/-- A register shifted by a constant, where a left shift by zero is left out. -/
def shiftedRegister (r : RegisterId) (kind : ShiftKind) (amount : Nat) : String :=
  if kind = .lsl ∧ amount = 0 then r.text
  else r.text ++ ", " ++ kind.mnemonic ++ " #" ++ toString amount

/-- The second operand of the ALU. -/
def Operand.text : Operand → String
  | .immediate base rotation => constant (base.rotateRight rotation)
  | .register r kind (.immediate amount) => shiftedRegister r kind amount
  | .register r kind (.register rs) => r.text ++ ", " ++ kind.mnemonic ++ " " ++ rs.text

/-- The offset of a halfword transfer. -/
def HalfwordOffset.text : HalfwordOffset → String
  | .immediate offset => constant offset
  | .register r => r.text

/-- The offset of a single transfer. -/
def SingleOffset.text : SingleOffset → String
  | .immediate offset => constant offset
  | .register r kind amount => shiftedRegister r kind amount

/-- The suffix of an operation that sets the flags. -/
def flagSuffix (setFlags : Bool) : String :=
  if setFlags then "S" else ""

/-- The suffix of a byte transfer. -/
def quantitySuffix : Quantity → String
  | .byte => "B"
  | .word => ""

/-- An address with its offset. Offsets after the access stand outside the brackets,
and a written base before it is marked. -/
def addressText (base : RegisterId) (indexing : Indexing) (offsetting : Offsetting)
    (writeBack : Bool) (offset : String) : String :=
  let sign := match offsetting with
    | .up => ""
    | .down => "-"
  match indexing with
  | .pre => "[" ++ base.text ++ ", " ++ sign ++ offset ++ "]" ++ (if writeBack then "!" else "")
  | .post => "[" ++ base.text ++ "], " ++ sign ++ offset

/-- An ALU operation. Tests have no destination and moves no first operand. -/
def DataProcessing.text (i : DataProcessing) : String :=
  if i.op.isTest then i.op.mnemonic ++ " " ++ i.rn.text ++ ", " ++ i.operand.text
  else
    let head := i.op.mnemonic ++ flagSuffix i.setFlags ++ " " ++ i.rd.text ++ ", "
    if i.op = .mov ∨ i.op = .mvn then head ++ i.operand.text
    else head ++ i.rn.text ++ ", " ++ i.operand.text

/-- A multiplication. -/
def Multiply.text (i : Multiply) : String :=
  let factors := i.rd.text ++ ", " ++ i.rm.text ++ ", " ++ i.rs.text
  if i.accumulates then "MLA" ++ flagSuffix i.setFlags ++ " " ++ factors ++ ", " ++ i.rn.text
  else "MUL" ++ flagSuffix i.setFlags ++ " " ++ factors

/-- The mnemonic of a long multiplication. -/
def MultiplyLong.mnemonic (i : MultiplyLong) : String :=
  (if i.isSigned then "S" else "U") ++ (if i.accumulates then "MLAL" else "MULL")

/-- A long multiplication, the low half of the product first. -/
def MultiplyLong.text (i : MultiplyLong) : String :=
  i.mnemonic ++ flagSuffix i.setFlags ++ " " ++ i.rdLow.text ++ ", " ++ i.rdHigh.text ++ ", " ++
    i.rm.text ++ ", " ++ i.rs.text

/-- A swap. -/
def Swap.text (i : Swap) : String :=
  "SWP" ++ quantitySuffix i.quantity ++ " " ++ i.rd.text ++ ", " ++ i.rm.text ++
    ", [" ++ i.rn.text ++ "]"

/-- The mnemonic of a halfword transfer. Stores have only one kind. -/
def HalfwordTransfer.mnemonic (i : HalfwordTransfer) : String :=
  match i.direction, i.kind with
  | .store, _ => "STRH"
  | .load, .unsignedHalf => "LDRH"
  | .load, .signedByte => "LDRSB"
  | .load, .signedHalf => "LDRSH"

/-- A halfword transfer. -/
def HalfwordTransfer.text (i : HalfwordTransfer) : String :=
  i.mnemonic ++ " " ++ i.rd.text ++ ", " ++
    addressText i.base i.indexing i.offsetting i.writeBack i.offset.text

/-- A single transfer. -/
def SingleTransfer.text (i : SingleTransfer) : String :=
  let mnemonic := match i.direction with
    | .load => "LDR"
    | .store => "STR"
  mnemonic ++ quantitySuffix i.quantity ++ " " ++ i.rd.text ++ ", " ++
    addressText i.base i.indexing i.offsetting i.writeBack i.offset.text

/-- A list of names in braces. -/
def braced (names : List String) : String :=
  "\x7b" ++ ", ".intercalate names ++ "\x7d"

/-- A block transfer. The suffix says whether addresses go up or down, and whether
the base moves before or after each access. -/
def blockText (i : BlockTransfer) : String :=
  let mnemonic := match i.direction with
    | .load => "LDM"
    | .store => "STM"
  let mode := match i.offsetting, i.indexing with
    | .up, .post => "IA"
    | .up, .pre => "IB"
    | .down, .post => "DA"
    | .down, .pre => "DB"
  mnemonic ++ mode ++ " " ++ i.base.text ++ (if i.writeBack then "!" else "") ++ ", " ++
    braced ((RegisterId.ofList i.registers).map RegisterId.text) ++
    (if i.statusBit then "^" else "")

/-- An instruction. -/
def Instruction.text : Instruction → String
  | .dataProcessing i => i.text
  | .multiply i => i.text
  | .multiplyLong i => i.text
  | .readStatus source rd => "MRS " ++ rd.text ++ ", " ++ source.text
  | .writeStatus target mask operand =>
    "MSR " ++ target.text ++ " (mask 0x" ++ hex 8 mask.toNat ++ "), " ++ operand.text
  | .swap i => i.text
  | .branchExchange r => "BX " ++ r.text
  | .halfwordTransfer i => i.text
  | .singleTransfer i => i.text
  | .blockTransfer i => blockText i
  | .branch link offset => (if link then "BL #" else "B #") ++ Numeral.signed offset
  | .softwareInterrupt comment => "SWI 0x" ++ hex 6 comment.toNat
  | .undefined => "UNDEFINED"

/-- A code with its instruction and condition. -/
def Opcode.text (code : Opcode) : String :=
  hex 8 code.raw.toNat ++ "  " ++ code.instruction.text ++
    (if code.condition = .al then "" else " (" ++ code.condition.suffix ++ ")")

end AdvanceCore.Arm
