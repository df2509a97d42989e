import AdvanceCore.Arm.Instruction
import AdvanceCore.Cpu.Branch
import AdvanceCore.Cpu.Transfer

/-!
# `AdvanceCore.Arm.Execute`: executing 32-bit instructions

R15 reads as the executing address plus 8, except that a shift by a register and a
stored R15 see 12. An instruction whose condition fails does nothing.
-/

set_option autoImplicit false

namespace AdvanceCore

namespace Arm

/-- The result of a logical operation. Arithmetic operations are not logical and give
the second operand. -/
def logicalResult (op : AluOp) (first second : Word) : Word :=
  match op with
  | .and | .tst => first &&& second
  | .eor | .teq => first ^^^ second
  | .orr => first ||| second
  | .bic => first &&& ~~~second
  | .mvn => ~~~second
  | _ => second

/-- The sum of an arithmetic operation, for the others nothing. -/
def arithmeticResult? (op : AluOp) (first second : Word) (carry : Bool) : Option AluResult :=
  match op with
  | .sub | .cmp => some (subWithCarry first second true)
  | .rsb => some (subWithCarry second first true)
  | .add | .cmn => some (addWithCarry first second false)
  | .adc => some (addWithCarry first second carry)
  | .sbc => some (subWithCarry first second carry)
  | .rsc => some (subWithCarry second first carry)
  | _ => none

end Arm

namespace Cpu

open Arm

/-! ### The ALU -/

/-- The value of a register as an operand. Shifting by a register takes long enough
for R15 to move one word further. -/
def operandRegister (cpu : Cpu) (operand : Operand) (r : RegisterId) : Word :=
  if operand.shiftsByRegister ∧ r = .pc then cpu.register r + 4 else cpu.register r

/-- The second operand after the shifter, with the carry that logical operations
take from it. -/
def secondOperand (cpu : Cpu) (operand : Operand) : Shifted :=
  let carry := cpu.cpsr.carry
  match operand with
  | .immediate base rotation =>
    let value := base.rotateRight rotation
    ⟨value, if rotation = 0 then carry else value.msb⟩
  | .register r kind (.immediate amount) =>
    shiftImmediate kind amount (cpu.operandRegister operand r) carry
  | .register r kind (.register rs) =>
    let amount := (Bits.byte (cpu.register rs) 0).toNat
    shift kind amount (cpu.operandRegister operand r) carry

/-- The extra cycle of a shift by a register. -/
def spendShift (cpu : Cpu) (operand : Operand) : Cpu :=
  if operand.shiftsByRegister then cpu.spend 1 else cpu

/-- Performs an ALU operation. With R15 as destination the S bit returns to the saved
status instead of setting flags. -/
def dataProcessing (cpu : Cpu) (i : DataProcessing) : Cpu :=
  -- Operands, value and flags all come from the state before the instruction.
  let second := cpu.secondOperand i.operand
  let first := cpu.operandRegister i.operand i.rn
  let sum? := arithmeticResult? i.op first second.value cpu.cpsr.carry
  let value := match sum? with
    | some sum => sum.value
    | none => logicalResult i.op first second.value
  let status := match sum? with
    | some sum => cpu.cpsr.withFlags sum
    | none => (cpu.cpsr.withSignAndZero value).withCarry second.carry
  let returns := i.setFlags && i.rd == .pc && !i.op.isTest
  let cpu := cpu.spendShift i.operand
  let cpu :=
    if returns then cpu.restoreSavedStatus
    else if i.setFlags then cpu.setFlags status
    else cpu
  if i.op.isTest then cpu else cpu.writeRegister i.rd value

/-- An arithmetic operation with the S bit leaves the flags of its sum, and the sum itself in
a register that is not R15. -/
theorem dataProcessing_sum (cpu : Cpu) {op : AluOp} {rn rd : RegisterId} {operand : Operand}
    {sum : AluResult} (hrd : rd ≠ .pc) (htest : op.isTest = false)
    (hsum : arithmeticResult? op (cpu.operandRegister operand rn)
      (cpu.secondOperand operand).value cpu.cpsr.carry = some sum) :
    cpu.dataProcessing ⟨op, true, rn, rd, operand⟩ =
      ((cpu.spendShift operand).setFlags (cpu.cpsr.withFlags sum)).setRegister rd sum.value := by
  -- With R15 as destination the saved status would come back instead.
  have hreturns : (rd == RegisterId.pc) = false := beq_eq_false_iff_ne.2 hrd
  unfold dataProcessing writeRegister
  simp only [hsum, htest, hreturns, if_neg hrd, Bool.and_false, Bool.false_and, Bool.false_eq_true,
    if_false, if_true]

/-- A comparison leaves nothing but the flags. It looks at no destination, so R15 there does not
bring back the saved status. -/
theorem dataProcessing_compare (cpu : Cpu) {op : AluOp} {rn : RegisterId} (rd : RegisterId)
    {operand : Operand} {sum : AluResult} (htest : op.isTest = true)
    (hsum : arithmeticResult? op (cpu.operandRegister operand rn)
      (cpu.secondOperand operand).value cpu.cpsr.carry = some sum) :
    cpu.dataProcessing ⟨op, true, rn, rd, operand⟩ =
      (cpu.spendShift operand).setFlags (cpu.cpsr.withFlags sum) := by
  unfold dataProcessing
  simp only [hsum, htest, Bool.not_true, Bool.and_false, Bool.false_eq_true, if_false, if_true]

/-- Multiplies two registers and may add a third. -/
def multiply (cpu : Cpu) (i : Multiply) : Cpu :=
  let operand := cpu.register i.rs
  let product := cpu.register i.rm * operand
  let value := if i.accumulates then product + cpu.register i.rn else product
  let cycles := multiplierCycles operand true + (if i.accumulates then 1 else 0)
  let cpu := cpu.spend cycles
  let cpu := if i.setFlags then cpu.setFlags (cpu.cpsr.withSignAndZero value) else cpu
  cpu.writeRegister i.rd value

/-- Multiplies two registers to 64 bits and may add the destination. -/
def multiplyLong (cpu : Cpu) (i : MultiplyLong) : Cpu :=
  let first := cpu.register i.rm
  let second := cpu.register i.rs
  let product : BitVec 64 :=
    if i.isSigned then first.signExtend 64 * second.signExtend 64
    else first.setWidth 64 * second.setWidth 64
  let value : BitVec 64 :=
    if i.accumulates then product + (cpu.register i.rdHigh ++ cpu.register i.rdLow : BitVec 64)
    else product
  let cycles := 1 + multiplierCycles second i.isSigned + (if i.accumulates then 1 else 0)
  let cpu := cpu.spend cycles
  let cpu :=
    if i.setFlags then cpu.setFlags ((cpu.cpsr.withSign value.msb).withZero (value == 0)) else cpu
  (cpu.writeRegister i.rdLow (value.extractLsb' 0 32)).writeRegister i.rdHigh
    (value.extractLsb' 32 32)

/-! ### Status registers -/

/-- Copies a status register. Modes without a saved status read the current one. -/
def readStatus (cpu : Cpu) (source : StatusRegister) (rd : RegisterId) : Cpu :=
  let status := match source with
    | .spsr => if cpu.cpsr.mode.hasSavedStatus then cpu.spsr else cpu.cpsr
    | .cpsr => cpu.cpsr
  cpu.writeRegister rd status.word

/-- The bits of the current status that an instruction may write. User mode reaches
only the flags, and the T bit changes only with a jump. -/
def writableStatus (cpu : Cpu) (mask : Word) : Word :=
  (if cpu.cpsr.mode.isPrivileged then mask else mask &&& 0xFF000000) &&& ~~~(1#32 <<< 5)

/-- Writes a status register. Modes without a saved status ignore writes to it. -/
def writeStatus (cpu : Cpu) (target : StatusRegister) (mask : Word) (operand : Operand) : Cpu :=
  let value := (cpu.secondOperand operand).value
  let cpu := cpu.spendShift operand
  match target with
  | .cpsr => cpu.loadStatus (cpu.cpsr.merge value (cpu.writableStatus mask))
  | .spsr =>
    if cpu.cpsr.mode.hasSavedStatus then { cpu with spsr := cpu.spsr.merge value mask } else cpu

/-! ### Transfers -/

section Memory

variable {β : Type} [MemoryBus β]

/-- Exchanges a register with memory: loads the old value, then stores the new one. -/
def swap (cpu : Cpu) (bus : β) (i : Swap) : Cpu × β :=
  let address := cpu.register i.rn
  let source := cpu.register i.rm
  let (load, store) := match i.quantity with
    | .byte => (Load.byte, Store.byte)
    | .word => (Load.word, Store.word)
  match load.run bus address with
  | (none, bus) => ((cpu.spend 1).enter .dataAbort, bus)
  | (some old, bus) =>
    match store.run bus address source with
    | (false, bus) => ((cpu.spend 2).enter .dataAbort, bus)
    | (true, bus) => ((cpu.spend 2).writeRegister i.rd old, bus)

/-- The address of a transfer and the base it leaves behind, if it writes one. An
offset applied after the access always moves the base. -/
def transferAddress (cpu : Cpu) (base : RegisterId) (indexing : Indexing)
    (offsetting : Offsetting) (writeBack : Bool) (offset : Word) :
    Word × Option (RegisterId × Word) :=
  let old := cpu.register base
  let new := offsetting.apply old offset
  match indexing with
  | .pre => (new, if writeBack then some (base, new) else none)
  | .post => (old, some (base, new))

/-- The load that a halfword transfer makes. -/
def halfwordLoad : HalfwordKind → Load
  | .unsignedHalf => .half
  | .signedByte => .signedByte
  | .signedHalf => .signedHalf

/-- Transfers a halfword or loads a signed value. -/
def halfwordTransfer (cpu : Cpu) (bus : β) (i : HalfwordTransfer) : Cpu × β :=
  let offset := match i.offset with
    | .immediate offset => offset
    | .register r => cpu.register r
  let (address, newBase) :=
    cpu.transferAddress i.base i.indexing i.offsetting i.writeBack offset
  match i.direction with
  | .load => cpu.loadRegister bus (halfwordLoad i.kind) address newBase i.rd
  | .store => cpu.storeValue bus .half address (cpu.storedRegister i.rd) newBase

/-- Transfers a word or a byte. -/
def singleTransfer (cpu : Cpu) (bus : β) (i : SingleTransfer) : Cpu × β :=
  let offset := match i.offset with
    | .immediate offset => offset
    | .register r kind amount =>
      (shiftImmediate kind amount (cpu.register r) cpu.cpsr.carry).value
  let (address, newBase) :=
    cpu.transferAddress i.base i.indexing i.offsetting i.writeBack offset
  match i.direction, i.quantity with
  | .load, .word => cpu.loadRegister bus .word address newBase i.rd
  | .load, .byte => cpu.loadRegister bus .byte address newBase i.rd
  | .store, .word => cpu.storeValue bus .word address (cpu.storedRegister i.rd) newBase
  | .store, .byte => cpu.storeValue bus .byte address (cpu.storedRegister i.rd) newBase

/-- Executes an instruction whose condition holds. -/
def performArm (cpu : Cpu) (bus : β) : Instruction → Cpu × β
  | .dataProcessing i => (cpu.dataProcessing i, bus)
  | .multiply i => (cpu.multiply i, bus)
  | .multiplyLong i => (cpu.multiplyLong i, bus)
  | .readStatus source rd => (cpu.readStatus source rd, bus)
  | .writeStatus target mask operand => (cpu.writeStatus target mask operand, bus)
  | .swap i => cpu.swap bus i
  | .branchExchange r => (cpu.branchExchange r, bus)
  | .halfwordTransfer i => cpu.halfwordTransfer bus i
  | .singleTransfer i => cpu.singleTransfer bus i
  | .blockTransfer i => cpu.transferBlock bus i
  | .branch link offset => (cpu.branch link offset, bus)
  | .softwareInterrupt _ => (cpu.enter .softwareInterrupt, bus)
  | .undefined => (cpu.enter .undefined, bus)

/-- Executes a code if its condition holds. -/
def executeArm (cpu : Cpu) (bus : β) (code : Opcode) : Cpu × β :=
  if cpu.cpsr.satisfies code.condition then cpu.performArm bus code.instruction
  else (cpu, bus)

end Memory

end Cpu

end AdvanceCore
