import AdvanceCore.Cpu.Branch
import AdvanceCore.Cpu.Transfer
import AdvanceCore.Thumb.Instruction

/-!
# `AdvanceCore.Thumb.Execute`: executing 16-bit instructions

R15 reads as the executing address plus 4. Addresses relative to it clear bit 1
first, so that they are word aligned. Every operation on low registers sets the
flags; of those that reach all registers only the comparison does.
-/

set_option autoImplicit false

namespace AdvanceCore.Cpu

open Thumb

/-! ### Operations -/

/-- Sets N and Z from a value. -/
def flagValue (cpu : Cpu) (value : Word) : Cpu :=
  cpu.setFlags (cpu.cpsr.withSignAndZero value)

/-- Sets N and Z from a shifted value and C from the shifter. -/
def flagShifted (cpu : Cpu) (shifted : Shifted) : Cpu :=
  cpu.setFlags ((cpu.cpsr.withSignAndZero shifted.value).withCarry shifted.carry)

/-- Sets all four flags from a sum. -/
def flagSum (cpu : Cpu) (sum : AluResult) : Cpu :=
  cpu.setFlags (cpu.cpsr.withFlags sum)

/-- Leaves the result of a logical operation in a register. -/
def keepValue (cpu : Cpu) (rd : LowRegister) (value : Word) : Cpu :=
  (cpu.flagValue value).setRegister rd.id value

/-- Leaves a shifted value in a register. -/
def keepShifted (cpu : Cpu) (rd : LowRegister) (shifted : Shifted) : Cpu :=
  (cpu.flagShifted shifted).setRegister rd.id shifted.value

/-- Leaves a sum in a register. -/
def keepSum (cpu : Cpu) (rd : LowRegister) (sum : AluResult) : Cpu :=
  (cpu.flagSum sum).setRegister rd.id sum.value

/-- Adds or subtracts with three operands. -/
def addSubtract (cpu : Cpu) (subtract : Bool) (addend : Addend) (rs rd : LowRegister) : Cpu :=
  let first := cpu.register rs.id
  let second := match addend with
    | .immediate value => value.setWidth 32
    | .register r => cpu.register r.id
  cpu.keepSum rd
    (if subtract then subWithCarry first second true else addWithCarry first second false)

/-- Operates on a register and a constant. A move leaves C and V alone. -/
def immediateOperation (cpu : Cpu) (op : ImmediateOp) (rd : LowRegister) (value : Word) : Cpu :=
  let first := cpu.register rd.id
  match op with
  | .mov => cpu.keepValue rd value
  | .cmp => cpu.flagSum (subWithCarry first value true)
  | .add => cpu.keepSum rd (addWithCarry first value false)
  | .sub => cpu.keepSum rd (subWithCarry first value true)

/-- Shifts a register by the bottom byte of another, which takes a cycle longer. -/
def shiftByRegister (cpu : Cpu) (kind : ShiftKind) (rs rd : LowRegister) : Cpu :=
  let amount := (Bits.byte (cpu.register rs.id) 0).toNat
  (cpu.spend 1).keepShifted rd (shift kind amount (cpu.register rd.id) cpu.cpsr.carry)

/-- Performs an ALU operation on two low registers. -/
def aluOperation (cpu : Cpu) (op : Thumb.AluOp) (rs rd : LowRegister) : Cpu :=
  let first := cpu.register rd.id
  let second := cpu.register rs.id
  let carry := cpu.cpsr.carry
  match op with
  | .and => cpu.keepValue rd (first &&& second)
  | .eor => cpu.keepValue rd (first ^^^ second)
  | .lsl => cpu.shiftByRegister .lsl rs rd
  | .lsr => cpu.shiftByRegister .lsr rs rd
  | .asr => cpu.shiftByRegister .asr rs rd
  | .adc => cpu.keepSum rd (addWithCarry first second carry)
  | .sbc => cpu.keepSum rd (subWithCarry first second carry)
  | .ror => cpu.shiftByRegister .ror rs rd
  | .tst => cpu.flagValue (first &&& second)
  | .neg => cpu.keepSum rd (subWithCarry 0 second true)
  | .cmp => cpu.flagSum (subWithCarry first second true)
  | .cmn => cpu.flagSum (addWithCarry first second false)
  | .orr => cpu.keepValue rd (first ||| second)
  | .mul => (cpu.spend (multiplierCycles first true)).keepValue rd (first * second)
  | .bic => cpu.keepValue rd (first &&& ~~~second)
  | .mvn => cpu.keepValue rd (~~~second)

/-- Performs an operation on any two registers. Writing R15 jumps. -/
def highOperation (cpu : Cpu) (op : HighOp) (rs rd : RegisterId) : Cpu :=
  let first := cpu.register rd
  let second := cpu.register rs
  match op with
  | .add => cpu.writeRegister rd (first + second)
  | .cmp => cpu.flagSum (subWithCarry first second true)
  | .mov => cpu.writeRegister rd second
  | .bx => cpu.branchExchange rs

/-! ### Addresses and calls -/

/-- The value of an address base. -/
def addressBase (cpu : Cpu) : AddressBase → Word
  | .pc => cpu.registers.pc &&& ~~~2
  | .sp => cpu.register .sp

/-- Keeps the upper part of a call's distance, relative to R15, in the link
register. -/
def callUpper (cpu : Cpu) (offset : BitVec 11) : Cpu :=
  let distance := Bits.signExtendLow (offset.setWidth 32 <<< 12) 23
  cpu.setRegister .lr (cpu.registers.pc + distance)

/-- Adds the lower part of a call's distance and jumps. The link register then holds
the next address with bit 0 set, which marks it as Thumb code. -/
def callLower (cpu : Cpu) (offset : BitVec 11) : Cpu :=
  let target := cpu.register .lr + (offset.setWidth 32 <<< 1)
  (cpu.setRegister .lr (cpu.nextInstruction ||| 1)).jump target

/-! ### Transfers -/

/-- A push as a block transfer: the link register joins the list, and addresses go
down from the stack pointer. -/
def pushTransfer (registers : Byte) (link : Bool) : BlockTransfer :=
  { indexing := .pre
    offsetting := .down
    statusBit := false
    writeBack := true
    direction := .store
    base := .sp
    registers := Bits.setBit (registers.setWidth 16) 14 link }

/-- A pop as a block transfer: the program counter joins the list, and addresses go
up from the stack pointer. -/
def popTransfer (registers : Byte) (pc : Bool) : BlockTransfer :=
  { indexing := .post
    offsetting := .up
    statusBit := false
    writeBack := true
    direction := .load
    base := .sp
    registers := Bits.setBit (registers.setWidth 16) 15 pc }

/-- A transfer of low registers as a block transfer. -/
def lowBlockTransfer (direction : Direction) (base : LowRegister) (registers : Byte) :
    BlockTransfer :=
  { indexing := .post
    offsetting := .up
    statusBit := false
    writeBack := true
    direction := direction
    base := base.id
    registers := registers.setWidth 16 }

variable {β : Type} [MemoryBus β]

/-- Transfers a word or a byte. -/
def transferLow (cpu : Cpu) (bus : β) (direction : Direction) (quantity : Quantity)
    (address : Word) (rd : LowRegister) : Cpu × β :=
  match direction, quantity with
  | .load, .word => cpu.loadRegister bus .word address none rd.id
  | .load, .byte => cpu.loadRegister bus .byte address none rd.id
  | .store, .word => cpu.storeValue bus .word address (cpu.register rd.id) none
  | .store, .byte => cpu.storeValue bus .byte address (cpu.register rd.id) none

/-- Transfers a halfword or a signed value. -/
def transferLowSigned (cpu : Cpu) (bus : β) (transfer : SignedTransfer) (address : Word)
    (rd : LowRegister) : Cpu × β :=
  match transfer with
  | .storeHalf => cpu.storeValue bus .half address (cpu.register rd.id) none
  | .loadHalf => cpu.loadRegister bus .half address none rd.id
  | .loadSignedByte => cpu.loadRegister bus .signedByte address none rd.id
  | .loadSignedHalf => cpu.loadRegister bus .signedHalf address none rd.id

/-- Performs an instruction. -/
def performThumb (cpu : Cpu) (bus : β) : Thumb.Instruction → Cpu × β
  | .shift kind amount rs rd =>
    (cpu.keepShifted rd (shiftImmediate kind amount (cpu.register rs.id) cpu.cpsr.carry), bus)
  | .addSubtract subtract addend rs rd => (cpu.addSubtract subtract addend rs rd, bus)
  | .immediate op rd value => (cpu.immediateOperation op rd value, bus)
  | .alu op rs rd => (cpu.aluOperation op rs rd, bus)
  | .high op rs rd => (cpu.highOperation op rs rd, bus)
  | .loadLiteral rd offset =>
    cpu.loadRegister bus .word (cpu.addressBase .pc + offset) none rd.id
  | .transferIndexed direction quantity index base rd =>
    cpu.transferLow bus direction quantity (cpu.register base.id + cpu.register index.id) rd
  | .transferSigned transfer index base rd =>
    cpu.transferLowSigned bus transfer (cpu.register base.id + cpu.register index.id) rd
  | .transferOffset direction quantity offset base rd =>
    cpu.transferLow bus direction quantity (cpu.register base.id + offset) rd
  | .transferHalf .load offset base rd =>
    cpu.transferLowSigned bus .loadHalf (cpu.register base.id + offset) rd
  | .transferHalf .store offset base rd =>
    cpu.transferLowSigned bus .storeHalf (cpu.register base.id + offset) rd
  | .transferStack direction rd offset =>
    cpu.transferLow bus direction .word (cpu.addressBase .sp + offset) rd
  | .loadAddress base rd offset => (cpu.setRegister rd.id (cpu.addressBase base + offset), bus)
  | .moveStack offsetting offset =>
    (cpu.setRegister .sp (offsetting.apply (cpu.register .sp) offset), bus)
  | .push registers link => cpu.transferBlock bus (pushTransfer registers link)
  | .pop registers pc => cpu.transferBlock bus (popTransfer registers pc)
  | .transferBlock direction base registers =>
    cpu.transferBlock bus (lowBlockTransfer direction base registers)
  | .conditionalBranch condition offset =>
    (if cpu.cpsr.satisfies condition then cpu.branch false offset else cpu, bus)
  | .softwareInterrupt _ => (cpu.enter .softwareInterrupt, bus)
  | .branch offset => (cpu.branch false offset, bus)
  | .callUpper offset => (cpu.callUpper offset, bus)
  | .callLower offset => (cpu.callLower offset, bus)
  | .undefined => (cpu.enter .undefined, bus)

/-- Executes a code. -/
def executeThumb (cpu : Cpu) (bus : β) (code : Thumb.Opcode) : Cpu × β :=
  cpu.performThumb bus code.instruction

end AdvanceCore.Cpu
