import AdvanceCore.Numeral
import AdvanceCore.Thumb.Instruction

/-!
# `AdvanceCore.Thumb.Text`: 16-bit instructions as assembly text

An opcode is written as its four hexadecimal digits and the instruction, which starts
in the same column as that of a 32-bit code. Constants are in decimal.
-/

set_option autoImplicit false

namespace AdvanceCore.Thumb

open Numeral (hex)

/-- The name of a low register. -/
def LowRegister.text (r : LowRegister) : String := r.id.text

/-- The mnemonic of an ALU operation. -/
def AluOp.mnemonic : AluOp → String
  | .and => "AND"
  | .eor => "EOR"
  | .lsl => "LSL"
  | .lsr => "LSR"
  | .asr => "ASR"
  | .adc => "ADC"
  | .sbc => "SBC"
  | .ror => "ROR"
  | .tst => "TST"
  | .neg => "NEG"
  | .cmp => "CMP"
  | .cmn => "CMN"
  | .orr => "ORR"
  | .mul => "MUL"
  | .bic => "BIC"
  | .mvn => "MVN"

/-- The mnemonic of an operation on any two registers. -/
def HighOp.mnemonic : HighOp → String
  | .add => "ADD"
  | .cmp => "CMP"
  | .mov => "MOV"
  | .bx => "BX"

/-- The mnemonic of an operation on a constant. -/
def ImmediateOp.mnemonic : ImmediateOp → String
  | .mov => "MOV"
  | .cmp => "CMP"
  | .add => "ADD"
  | .sub => "SUB"

/-- The mnemonic of a transfer of a halfword or a signed value. -/
def SignedTransfer.mnemonic : SignedTransfer → String
  | .storeHalf => "STRH"
  | .loadHalf => "LDRH"
  | .loadSignedByte => "LDSB"
  | .loadSignedHalf => "LDSH"

/-- The mnemonic of a transfer of a word or a byte. -/
def transferMnemonic : Direction → Quantity → String
  | .load, .byte => "LDRB"
  | .load, .word => "LDR"
  | .store, .byte => "STRB"
  | .store, .word => "STR"

/-- A constant. -/
def decimal (value : Word) : String :=
  "#" ++ toString value.toNat

/-- The second operand of a three-address addition. -/
def Addend.text : Addend → String
  | .immediate value => "#" ++ toString value.toNat
  | .register r => r.text

/-- A list of low registers in braces, with one further name at the end if given. -/
def listText (registers : Byte) (last : Option String) : String :=
  "\x7b" ++ ", ".intercalate
    ((RegisterId.ofList (registers.setWidth 16)).map RegisterId.text ++ last.toList) ++ "\x7d"

/-- A transfer between a register and a bracketed address. -/
def transferText (mnemonic : String) (rd : LowRegister) (base offset : String) : String :=
  mnemonic ++ " " ++ rd.text ++ ", [" ++ base ++ ", " ++ offset ++ "]"

/-- An instruction. -/
def Instruction.text : Instruction → String
  | .shift kind amount rs rd =>
    kind.mnemonic ++ " " ++ rd.text ++ ", " ++ rs.text ++ ", #" ++ toString amount
  | .addSubtract subtract addend rs rd =>
    (if subtract then "SUB " else "ADD ") ++ rd.text ++ ", " ++ rs.text ++ ", " ++ addend.text
  | .immediate op rd value => op.mnemonic ++ " " ++ rd.text ++ ", " ++ decimal value
  | .alu op rs rd => op.mnemonic ++ " " ++ rd.text ++ ", " ++ rs.text
  | .high .bx rs _ => "BX " ++ rs.text
  | .high op rs rd => op.mnemonic ++ " " ++ rd.text ++ ", " ++ rs.text
  | .loadLiteral rd offset => transferText "LDR" rd "PC" (decimal offset)
  | .transferIndexed direction quantity index base rd =>
    transferText (transferMnemonic direction quantity) rd base.text index.text
  | .transferSigned transfer index base rd =>
    transferText transfer.mnemonic rd base.text index.text
  | .transferOffset direction quantity offset base rd =>
    transferText (transferMnemonic direction quantity) rd base.text (decimal offset)
  | .transferHalf .load offset base rd => transferText "LDRH" rd base.text (decimal offset)
  | .transferHalf .store offset base rd => transferText "STRH" rd base.text (decimal offset)
  | .transferStack direction rd offset =>
    transferText (transferMnemonic direction .word) rd "SP" (decimal offset)
  | .loadAddress .sp rd offset => "ADD " ++ rd.text ++ ", SP, " ++ decimal offset
  | .loadAddress .pc rd offset => "ADD " ++ rd.text ++ ", PC, " ++ decimal offset
  | .moveStack .up offset => "ADD SP, #" ++ toString offset.toNat
  | .moveStack .down offset => "ADD SP, #-" ++ toString offset.toNat
  | .push registers link => "PUSH " ++ listText registers (if link then some "LR" else none)
  | .pop registers pc => "POP " ++ listText registers (if pc then some "PC" else none)
  | .transferBlock .load base registers =>
    "LDMIA " ++ base.text ++ "!, " ++ listText registers none
  | .transferBlock .store base registers =>
    "STMIA " ++ base.text ++ "!, " ++ listText registers none
  | .conditionalBranch condition offset =>
    "B" ++ condition.suffix ++ " #" ++ Numeral.signed offset
  | .softwareInterrupt comment => "SWI 0x" ++ hex 2 comment.toNat
  | .branch offset => "B #" ++ Numeral.signed offset
  | .callUpper offset => "BL hi #0x" ++ hex 3 offset.toNat
  | .callLower offset => "BL lo #0x" ++ hex 3 offset.toNat
  | .undefined => "UNDEFINED"

/-- A code with its instruction. -/
def Opcode.text (code : Opcode) : String :=
  hex 4 code.raw.toNat ++ "      " ++ code.instruction.text

end AdvanceCore.Thumb
