import AdvanceCore.Condition
import AdvanceCore.Shifter
import AdvanceCore.Transfer

/-!
# `AdvanceCore.Arm.Instruction`: the 32-bit instruction set

One record for each format, and `Instruction` for the choice between them. Every code
carries a condition beside its instruction, which `Opcode` keeps apart.
-/

set_option autoImplicit false

namespace AdvanceCore.Arm

/-! ### Operands -/

/-- The operations of the ALU. -/
inductive AluOp where
  | and
  | eor
  | sub
  | rsb
  | add
  | adc
  | sbc
  | rsc
  | tst
  | teq
  | cmp
  | cmn
  | orr
  | mov
  | bic
  | mvn
  deriving DecidableEq, Repr

namespace AluOp

/-- The operation with a four-bit code. -/
def ofCode (code : BitVec 4) : AluOp :=
  match code with
  | 0x0#4 => .and
  | 0x1#4 => .eor
  | 0x2#4 => .sub
  | 0x3#4 => .rsb
  | 0x4#4 => .add
  | 0x5#4 => .adc
  | 0x6#4 => .sbc
  | 0x7#4 => .rsc
  | 0x8#4 => .tst
  | 0x9#4 => .teq
  | 0xA#4 => .cmp
  | 0xB#4 => .cmn
  | 0xC#4 => .orr
  | 0xD#4 => .mov
  | 0xE#4 => .bic
  | _ => .mvn

/-- Arithmetic operations go through the adder. The others are logical: their carry
comes from the shifter and they leave overflow alone. -/
def isArithmetic : AluOp → Bool
  | .sub | .rsb | .add | .adc | .sbc | .rsc | .cmp | .cmn => true
  | _ => false

/-- Tests only change the flags. -/
def isTest : AluOp → Bool
  | .tst | .teq | .cmp | .cmn => true
  | _ => false

end AluOp

/-- Where the amount of a shift comes from. -/
inductive ShiftAmount where
  /-- Five bits of the code. -/
  | immediate (amount : Nat)
  /-- The bottom byte of a register. -/
  | register (r : RegisterId)
  deriving DecidableEq, Repr

/-- The second operand of the ALU. -/
inductive Operand where
  /-- A constant rotated right. -/
  | immediate (base : Word) (rotation : Nat)
  /-- A register through the shifter. -/
  | register (r : RegisterId) (kind : ShiftKind) (amount : ShiftAmount)
  deriving DecidableEq, Repr

/-- Whether the shift amount comes from a register, which takes a cycle longer. -/
def Operand.shiftsByRegister : Operand → Bool
  | .register _ _ (.register _) => true
  | _ => false

/-- The status register of a status transfer. -/
inductive StatusRegister where
  | cpsr
  | spsr
  deriving DecidableEq, Repr

/-- The status register that an R bit selects. -/
def StatusRegister.ofBit (saved : Bool) : StatusRegister :=
  if saved then .spsr else .cpsr

/-- What a halfword transfer loads. -/
inductive HalfwordKind where
  | unsignedHalf
  | signedByte
  | signedHalf
  deriving DecidableEq, Repr

/-- The transfer with a two-bit code. Code zero belongs to other formats. -/
def HalfwordKind.ofCode (code : BitVec 2) : HalfwordKind :=
  match code with
  | 0b10#2 => .signedByte
  | 0b11#2 => .signedHalf
  | _ => .unsignedHalf

/-- The offset of a halfword transfer. -/
inductive HalfwordOffset where
  | immediate (offset : Word)
  | register (r : RegisterId)
  deriving DecidableEq, Repr

/-- The offset of a single transfer. -/
inductive SingleOffset where
  | immediate (offset : Word)
  /-- A register shifted by a constant. -/
  | register (r : RegisterId) (kind : ShiftKind) (amount : Nat)
  deriving DecidableEq, Repr

/-! ### Formats -/

/-- An ALU operation on a register and the second operand. -/
structure DataProcessing where
  op : AluOp
  setFlags : Bool
  rn : RegisterId
  rd : RegisterId
  operand : Operand
  deriving DecidableEq, Repr

/-- A multiplication with a 32-bit product. -/
structure Multiply where
  accumulates : Bool
  setFlags : Bool
  rd : RegisterId
  rn : RegisterId
  rs : RegisterId
  rm : RegisterId
  deriving DecidableEq, Repr

/-- A multiplication with a 64-bit product. -/
structure MultiplyLong where
  isSigned : Bool
  accumulates : Bool
  setFlags : Bool
  rdHigh : RegisterId
  rdLow : RegisterId
  rs : RegisterId
  rm : RegisterId
  deriving DecidableEq, Repr

/-- An exchange of a register with memory. -/
structure Swap where
  quantity : Quantity
  rn : RegisterId
  rd : RegisterId
  rm : RegisterId
  deriving DecidableEq, Repr

/-- A transfer of a halfword or a signed value. -/
structure HalfwordTransfer where
  indexing : Indexing
  offsetting : Offsetting
  writeBack : Bool
  direction : Direction
  kind : HalfwordKind
  rd : RegisterId
  base : RegisterId
  offset : HalfwordOffset
  deriving DecidableEq, Repr

/-- A transfer of a word or a byte. -/
structure SingleTransfer where
  indexing : Indexing
  offsetting : Offsetting
  writeBack : Bool
  direction : Direction
  quantity : Quantity
  rd : RegisterId
  base : RegisterId
  offset : SingleOffset
  deriving DecidableEq, Repr

/-- An instruction without its condition. -/
inductive Instruction where
  | dataProcessing (i : DataProcessing)
  | multiply (i : Multiply)
  | multiplyLong (i : MultiplyLong)
  /-- Copies a status register. -/
  | readStatus (source : StatusRegister) (rd : RegisterId)
  /-- Writes the bits of a status register that are under the mask. -/
  | writeStatus (target : StatusRegister) (mask : Word) (operand : Operand)
  | swap (i : Swap)
  /-- Jumps to the address in a register, whose bit 0 selects the instruction set. -/
  | branchExchange (r : RegisterId)
  | halfwordTransfer (i : HalfwordTransfer)
  | singleTransfer (i : SingleTransfer)
  | blockTransfer (i : BlockTransfer)
  /-- Jumps by a signed number of bytes from R15. -/
  | branch (link : Bool) (offset : Word)
  /-- Calls the supervisor, which may look at the comment. -/
  | softwareInterrupt (comment : Word)
  | undefined
  deriving DecidableEq, Repr

/-- A code with its instruction and condition. -/
structure Opcode where
  condition : Condition
  instruction : Instruction
  raw : Word
  deriving DecidableEq, Repr

end AdvanceCore.Arm
