import AdvanceCore.Condition
import AdvanceCore.Shifter
import AdvanceCore.Transfer

/-!
# `AdvanceCore.Thumb.Instruction`: the 16-bit instruction set

Sixteen bits have little room: most formats name only R0 to R7, operate on their own
destination and always set the flags. Offsets are held in bytes, whatever unit the
code counts them in.
-/

set_option autoImplicit false

namespace AdvanceCore.Thumb

/-- One of R0 to R7, which most formats are limited to. -/
abbrev LowRegister := Fin 8

/-- A low register as one of all sixteen. -/
def LowRegister.id (r : LowRegister) : RegisterId := r.castLE (by decide)

/-- The operations of the ALU on two low registers. -/
inductive AluOp where
  | and
  | eor
  | lsl
  | lsr
  | asr
  | adc
  | sbc
  | ror
  | tst
  | neg
  | cmp
  | cmn
  | orr
  | mul
  | bic
  | mvn
  deriving DecidableEq, Repr

/-- The operation with a four-bit code. -/
def AluOp.ofCode (code : BitVec 4) : AluOp :=
  match code with
  | 0x0#4 => .and
  | 0x1#4 => .eor
  | 0x2#4 => .lsl
  | 0x3#4 => .lsr
  | 0x4#4 => .asr
  | 0x5#4 => .adc
  | 0x6#4 => .sbc
  | 0x7#4 => .ror
  | 0x8#4 => .tst
  | 0x9#4 => .neg
  | 0xA#4 => .cmp
  | 0xB#4 => .cmn
  | 0xC#4 => .orr
  | 0xD#4 => .mul
  | 0xE#4 => .bic
  | _ => .mvn

/-- The operations that reach all sixteen registers. -/
inductive HighOp where
  | add
  | cmp
  | mov
  | bx
  deriving DecidableEq, Repr

/-- The operation with a two-bit code. -/
def HighOp.ofCode (code : BitVec 2) : HighOp :=
  match code with
  | 0b00#2 => .add
  | 0b01#2 => .cmp
  | 0b10#2 => .mov
  | _ => .bx

/-- The operations on a register and an eight-bit constant. -/
inductive ImmediateOp where
  | mov
  | cmp
  | add
  | sub
  deriving DecidableEq, Repr

/-- The operation with a two-bit code. -/
def ImmediateOp.ofCode (code : BitVec 2) : ImmediateOp :=
  match code with
  | 0b00#2 => .mov
  | 0b01#2 => .cmp
  | 0b10#2 => .add
  | _ => .sub

/-- The transfers of halfwords and signed values. -/
inductive SignedTransfer where
  | storeHalf
  | loadHalf
  | loadSignedByte
  | loadSignedHalf
  deriving DecidableEq, Repr

/-- The transfer that the sign and halfword bits select. -/
def SignedTransfer.ofBits (isSigned half : Bool) : SignedTransfer :=
  match isSigned, half with
  | false, false => .storeHalf
  | false, true => .loadHalf
  | true, false => .loadSignedByte
  | true, true => .loadSignedHalf

/-- The second operand of a three-address addition or subtraction. -/
inductive Addend where
  /-- A three-bit constant. -/
  | immediate (value : BitVec 3)
  | register (r : LowRegister)
  deriving DecidableEq, Repr

/-- The register an address is computed from. -/
inductive AddressBase where
  /-- The program counter, with bit 1 cleared. -/
  | pc
  /-- The stack pointer. -/
  | sp
  deriving DecidableEq, Repr

/-- An instruction. -/
inductive Instruction where
  /-- Shifts by a constant. -/
  | shift (kind : ShiftKind) (amount : Nat) (rs rd : LowRegister)
  /-- Adds or subtracts with three operands. -/
  | addSubtract (subtract : Bool) (addend : Addend) (rs rd : LowRegister)
  /-- Operates on a register and an eight-bit constant. -/
  | immediate (op : ImmediateOp) (rd : LowRegister) (value : Word)
  | alu (op : AluOp) (rs rd : LowRegister)
  /-- Operates on any two registers, or jumps to one. -/
  | high (op : HighOp) (rs rd : RegisterId)
  /-- Loads a word from beyond the code. -/
  | loadLiteral (rd : LowRegister) (offset : Word)
  /-- Transfers a word or a byte at the sum of two registers. -/
  | transferIndexed (direction : Direction) (quantity : Quantity) (index base rd : LowRegister)
  /-- Transfers a halfword or a signed value at the sum of two registers. -/
  | transferSigned (transfer : SignedTransfer) (index base rd : LowRegister)
  /-- Transfers a word or a byte at a constant offset. -/
  | transferOffset (direction : Direction) (quantity : Quantity) (offset : Word)
      (base rd : LowRegister)
  /-- Transfers a halfword at a constant offset. -/
  | transferHalf (direction : Direction) (offset : Word) (base rd : LowRegister)
  /-- Transfers a word at a constant offset from the stack pointer. -/
  | transferStack (direction : Direction) (rd : LowRegister) (offset : Word)
  /-- Computes an address. -/
  | loadAddress (base : AddressBase) (rd : LowRegister) (offset : Word)
  /-- Moves the stack pointer by a constant. -/
  | moveStack (offsetting : Offsetting) (offset : Word)
  /-- Stores low registers below the stack pointer, and the link register if asked. -/
  | push (registers : Byte) (link : Bool)
  /-- Loads low registers from the stack, and the program counter if asked. -/
  | pop (registers : Byte) (pc : Bool)
  /-- Transfers low registers to or from ascending addresses. -/
  | transferBlock (direction : Direction) (base : LowRegister) (registers : Byte)
  /-- Jumps by a signed number of bytes from R15 if a condition holds. -/
  | conditionalBranch (condition : Condition) (offset : Word)
  /-- Calls the supervisor, which may look at the comment. -/
  | softwareInterrupt (comment : Byte)
  /-- Jumps by a signed number of bytes from R15. -/
  | branch (offset : Word)
  /-- The first half of a call: keeps the upper part of the distance in the link
  register. -/
  | callUpper (offset : BitVec 11)
  /-- The second half of a call: adds the lower part and jumps. -/
  | callLower (offset : BitVec 11)
  | undefined
  deriving DecidableEq, Repr

/-- A code with its instruction. -/
structure Opcode where
  instruction : Instruction
  raw : Half
  deriving DecidableEq, Repr

end AdvanceCore.Thumb
