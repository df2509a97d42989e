import AdvanceCore.Proofs.Checked.Decoding
import AdvanceCore.Proofs.Checked.Processor

/-!
# `AdvanceCore.Proofs.Checked.Instructions`: the processor never breaks

Every instruction of both sets in checked form, and the step that fetches, decodes and executes
one. There is no code, state or bus that breaks the processor (`Cpu.step?_eq`): whatever the
registers hold, the bits that an instruction looks at and the amounts by which it shifts are in
range, and the cycles of the step fit in their counter.

The instructions begin with room in the counter, since a step starts it over. `outcome_carryOut`
bounds what they leave to the end of the step, where a refill of the pipeline adds to it.
-/

set_option autoImplicit false

namespace AdvanceCore

open Bits

/-! ### Wide products -/

/-- The product of two signed numbers, in `w` bits. -/
def signedProduct? (w : Nat) (a b : Int) : Option Int :=
  provided (-2 ^ (w - 1) ≤ a * b ∧ a * b < 2 ^ (w - 1)) (a * b)

/-- The product of two words as signed or as unsigned numbers of sixty-four bits. -/
def wideProduct? (isSigned : Bool) (first second : Word) : Option (BitVec 64) := do
  if isSigned then return BitVec.ofInt 64 (← signedProduct? 64 first.toInt second.toInt)
  else return BitVec.ofNat 64 (← product? 64 first.toNat second.toNat)

/-- Two words always have a product: not even the square of the least signed one is too
large. -/
@[simp] theorem wideProduct?_eq (isSigned : Bool) (first second : Word) :
    wideProduct? isSigned first second = some (if isSigned then
      first.signExtend 64 * second.signExtend 64
      else first.setWidth 64 * second.setWidth 64) := by
  cases isSigned with
  | false =>
    -- The product of two 32-bit values fits 64 bits, and so the check passes and nothing is lost.
    have hproduct : first.toNat * second.toNat < 2 ^ 64 :=
      Nat.mul_lt_mul'' (c := 2 ^ 32) (d := 2 ^ 32) first.isLt second.isLt
    have hvalue : BitVec.ofNat 64 (first.toNat * second.toNat) =
        first.setWidth 64 * second.setWidth 64 := BitVec.eq_of_toNat_eq (by simp)
    simp [wideProduct?, product?_of_lt hproduct, hvalue]
  | true =>
    have hlow : -2 ^ 62 ≤ first.toInt * second.toInt := BitVec.le_toInt_mul_toInt
    have hhigh : first.toInt * second.toInt ≤ 2 ^ 62 := BitVec.toInt_mul_toInt_le
    have hproduct : signedProduct? 64 first.toInt second.toInt =
        some (first.toInt * second.toInt) := provided_of _ (by omega)
    have hvalue : BitVec.ofInt 64 (first.toInt * second.toInt) =
        first.signExtend 64 * second.signExtend 64 := BitVec.ofInt_mul ..
    simp [wideProduct?, hproduct, hvalue]

namespace Cpu

/-! ### ARM instructions -/

section Arm

open Arm

/-- The checked form of `secondOperand`. -/
def secondOperand? (cpu : Cpu) (operand : Operand) : Option Shifted := do
  let carry ← cpu.cpsr.flag? 29
  match operand with
  | .immediate base rotation =>
    let value := base.rotateRight rotation
    let last ← bit? value 31
    return ⟨value, if rotation = 0 then carry else last⟩
  | .register r kind (.immediate amount) =>
    shiftImmediate? kind amount (cpu.operandRegister operand r) carry
  | .register r kind (.register rs) =>
    let amount := (← byte? (cpu.register rs) 0).toNat
    shift? kind amount (cpu.operandRegister operand r) carry

/-- The checked form of `spendShift`. -/
def spendShift? (cpu : Cpu) (operand : Operand) : Option Cpu :=
  if operand.shiftsByRegister then cpu.spend? 1 else return cpu

/-- The checked form of `arithmeticResult?`, which gives the sum if there is one. -/
def sumOf? (op : AluOp) (first second : Word) (carry : Bool) : Option (Option AluResult) := do
  match op with
  | .sub | .cmp => return some (← subWithCarry? first second true)
  | .rsb => return some (← subWithCarry? second first true)
  | .add | .cmn => return some (← addWithCarry? first second false)
  | .adc => return some (← addWithCarry? first second carry)
  | .sbc => return some (← subWithCarry? first second carry)
  | .rsc => return some (← subWithCarry? second first carry)
  | _ => return none

/-- The status with the flags of a result, of an arithmetic or of a logical operation. -/
def resultStatus? (status : Psr) (sum : Option AluResult) (value : Word) (carry : Bool) :
    Option Psr := do
  match sum with
  | some sum => status.withFlags? sum
  | none => (← status.withSignAndZero? value).withFlag? 29 carry

/-- Returns to the saved status or sets the flags, whichever an operation asks for. -/
def takeStatus? (cpu : Cpu) (i : DataProcessing) (status : Psr) : Option Cpu :=
  if i.setFlags && i.rd == .pc && !i.op.isTest then cpu.restoreSavedStatus?
  else if i.setFlags then return cpu.setFlags status
  else return cpu

/-- The checked form of `dataProcessing`. -/
def dataProcessing? (cpu : Cpu) (i : DataProcessing) : Option Cpu := do
  let second ← cpu.secondOperand? i.operand
  let first := cpu.operandRegister i.operand i.rn
  let sum ← sumOf? i.op first second.value (← cpu.cpsr.flag? 29)
  let value := match sum with
    | some sum => sum.value
    | none => logicalResult i.op first second.value
  let status ← resultStatus? cpu.cpsr sum value second.carry
  let cpu ← (← cpu.spendShift? i.operand).takeStatus? i status
  return if i.op.isTest then cpu else cpu.writeRegister i.rd value

/-- The checked form of `multiply`. -/
def multiply? (cpu : Cpu) (i : Multiply) : Option Cpu := do
  let operand := cpu.register i.rs
  let product := cpu.register i.rm * operand
  let value := if i.accumulates then product + cpu.register i.rn else product
  let cycles ← sum? 32 (← multiplierCycles? operand true) (if i.accumulates then 1 else 0)
  let cpu ← cpu.spend? cycles
  let status ← cpu.cpsr.withSignAndZero? value
  let cpu := if i.setFlags then cpu.setFlags status else cpu
  return cpu.writeRegister i.rd value

/-- The checked form of `multiplyLong`. -/
def multiplyLong? (cpu : Cpu) (i : MultiplyLong) : Option Cpu := do
  let first := cpu.register i.rm
  let second := cpu.register i.rs
  let product ← wideProduct? i.isSigned first second
  let high ← shiftLeft? ((cpu.register i.rdHigh).setWidth 64) 32
  let value : BitVec 64 :=
    if i.accumulates then product + (high ||| (cpu.register i.rdLow).setWidth 64) else product
  let cycles ← sum? 32 1 (← multiplierCycles? second i.isSigned)
  let cycles ← sum? 32 cycles (if i.accumulates then 1 else 0)
  let cpu ← cpu.spend? cycles
  let status ← cpu.cpsr.withFlag? 31 (← bit? value 63)
  let status ← status.withFlag? 30 (value == 0)
  let cpu := if i.setFlags then cpu.setFlags status else cpu
  return (cpu.writeRegister i.rdLow (value.setWidth 32)).writeRegister i.rdHigh
    ((← shiftRight? value 32).setWidth 32)

/-- The checked form of `readStatus`. -/
def readStatus? (cpu : Cpu) (source : StatusRegister) (rd : RegisterId) : Option Cpu := do
  let saved := (← cpu.cpsr.mode?).hasSavedStatus
  let status := match source with
    | .spsr => if saved then cpu.spsr else cpu.cpsr
    | .cpsr => cpu.cpsr
  return cpu.writeRegister rd status.word

/-- The checked form of `writableStatus`. -/
def writableStatus? (cpu : Cpu) (mask : Word) : Option Word := do
  let reachable := if (← cpu.cpsr.mode?).isPrivileged then mask else mask &&& 0xFF000000
  return reachable &&& ~~~(← shiftLeft? (1 : Word) 5)

/-- The checked form of `writeStatus`. -/
def writeStatus? (cpu : Cpu) (target : StatusRegister) (mask : Word) (operand : Operand) :
    Option Cpu := do
  let value := (← cpu.secondOperand? operand).value
  let cpu ← cpu.spendShift? operand
  match target with
  | .cpsr => cpu.loadStatus? (cpu.cpsr.merge value (← cpu.writableStatus? mask))
  | .spsr =>
    if (← cpu.cpsr.mode?).hasSavedStatus then
      return { cpu with spsr := cpu.spsr.merge value mask }
    else return cpu

variable {β : Type} [MemoryBus β]

/-- The checked form of `swap`. -/
def swap? (cpu : Cpu) (bus : β) (i : Swap) : Option (Cpu × β) := do
  let address := cpu.register i.rn
  let source := cpu.register i.rm
  let (load, store) := match i.quantity with
    | .byte => (Load.byte, Store.byte)
    | .word => (Load.word, Store.word)
  match ← load.run? bus address with
  | (none, bus) => return (← (← cpu.spend? 1).enter? .dataAbort, bus)
  | (some old, bus) =>
    match store.run bus address source with
    | (false, bus) => return (← (← cpu.spend? 2).enter? .dataAbort, bus)
    | (true, bus) => return ((← cpu.spend? 2).writeRegister i.rd old, bus)

/-- The checked form of `halfwordTransfer`. -/
def halfwordTransfer? (cpu : Cpu) (bus : β) (i : HalfwordTransfer) : Option (Cpu × β) :=
  let offset := match i.offset with
    | .immediate offset => offset
    | .register r => cpu.register r
  let (address, newBase) :=
    cpu.transferAddress i.base i.indexing i.offsetting i.writeBack offset
  match i.direction with
  | .load => cpu.loadRegister? bus (halfwordLoad i.kind) address newBase i.rd
  | .store => cpu.storeValue? bus .half address (cpu.storedRegister i.rd) newBase

/-- The offset of a single transfer. -/
def singleOffset? (cpu : Cpu) : SingleOffset → Option Word
  | .immediate offset => return offset
  | .register r kind amount =>
    return (← shiftImmediate? kind amount (cpu.register r) (← cpu.cpsr.flag? 29)).value

/-- The checked form of `singleTransfer`. -/
def singleTransfer? (cpu : Cpu) (bus : β) (i : SingleTransfer) : Option (Cpu × β) := do
  let (address, newBase) :=
    cpu.transferAddress i.base i.indexing i.offsetting i.writeBack (← cpu.singleOffset? i.offset)
  match i.direction, i.quantity with
  | .load, .word => cpu.loadRegister? bus .word address newBase i.rd
  | .load, .byte => cpu.loadRegister? bus .byte address newBase i.rd
  | .store, .word => cpu.storeValue? bus .word address (cpu.storedRegister i.rd) newBase
  | .store, .byte => cpu.storeValue? bus .byte address (cpu.storedRegister i.rd) newBase

/-- The checked form of `performArm`. -/
def performArm? (cpu : Cpu) (bus : β) : Instruction → Option (Cpu × β)
  | .dataProcessing i => return (← cpu.dataProcessing? i, bus)
  | .multiply i => return (← cpu.multiply? i, bus)
  | .multiplyLong i => return (← cpu.multiplyLong? i, bus)
  | .readStatus source rd => return (← cpu.readStatus? source rd, bus)
  | .writeStatus target mask operand => return (← cpu.writeStatus? target mask operand, bus)
  | .swap i => cpu.swap? bus i
  | .branchExchange r => return (← cpu.branchExchange? r, bus)
  | .halfwordTransfer i => cpu.halfwordTransfer? bus i
  | .singleTransfer i => cpu.singleTransfer? bus i
  | .blockTransfer i => cpu.transferBlock? bus i
  | .branch link offset => return (cpu.branch link offset, bus)
  | .softwareInterrupt _ => return (← cpu.enter? .softwareInterrupt, bus)
  | .undefined => return (← cpu.enter? .undefined, bus)

/-- The checked form of `executeArm`. -/
def executeArm? (cpu : Cpu) (bus : β) (code : Opcode) : Option (Cpu × β) := do
  if ← cpu.cpsr.satisfies? code.condition then cpu.performArm? bus code.instruction
  else return (cpu, bus)

/-- The second operand never breaks: a constant is rotated, and a register is shifted by the case
table of the shifter, which is in range for every amount. -/
@[simp] theorem secondOperand?_eq (cpu : Cpu) (operand : Operand) :
    cpu.secondOperand? operand = some (cpu.secondOperand operand) := by
  cases operand with
  | immediate base rotation =>
    simp only [secondOperand?, Psr.flag?_of_lt, Nat.reduceLT, bit?_last, Option.bind_eq_bind,
      Option.bind_some]
    rfl
  | register r kind amount =>
    cases amount <;> simp [secondOperand?, secondOperand, Psr.carry]

/-- The sums of the arithmetic operations are carried out in sixty-four bits, where they fit. -/
@[simp] theorem sumOf?_eq (op : AluOp) (first second : Word) (carry : Bool) :
    sumOf? op first second carry = some (arithmeticResult? op first second carry) := by
  cases op <;> simp [sumOf?, arithmeticResult?]

/-- The flags are single bits of the status, all within its word. -/
@[simp] theorem resultStatus?_eq (status : Psr) (sum : Option AluResult) (value : Word)
    (carry : Bool) :
    resultStatus? status sum value carry = some (match sum with
      | some sum => status.withFlags sum
      | none => (status.withSignAndZero value).withCarry carry) := by
  cases sum <;> simp [resultStatus?, Psr.withCarry]

/-- Every value of the mode field is taken for a mode, so a status can always be read. -/
@[simp] theorem readStatus?_eq (cpu : Cpu) (source : StatusRegister) (rd : RegisterId) :
    cpu.readStatus? source rd = some (cpu.readStatus source rd) := by
  cases source <;> simp [readStatus?, readStatus]

/-- The mask of a status write is found in every mode. -/
@[simp] theorem writableStatus?_eq (cpu : Cpu) (mask : Word) :
    cpu.writableStatus? mask = some (cpu.writableStatus mask) := by
  simp [writableStatus?, writableStatus]

/-- The offset of a single transfer is a constant or a shifted register. -/
@[simp] theorem singleOffset?_eq (cpu : Cpu) (offset : SingleOffset) :
    cpu.singleOffset? offset = some (match offset with
      | .immediate offset => offset
      | .register r kind amount =>
        (shiftImmediate kind amount (cpu.register r) cpu.cpsr.carry).value) := by
  cases offset <;> simp [singleOffset?, Psr.carry]

section Room

variable {cpu : Cpu} (h : cpu.HasRoom) (bus : β)
include h

omit [MemoryBus β] bus in
/-- The cycle of a shift fits in the counter. -/
@[simp] theorem spendShift?_of_room (operand : Operand) :
    cpu.spendShift? operand = some (cpu.spendShift operand) := by
  simp [spendShift?, spendShift, spend?_of_room h, ← apply_ite some]

omit [MemoryBus β] bus in
/-- Data processing never breaks as long as its cycle fits. -/
@[simp] theorem dataProcessing?_of_room (i : DataProcessing) :
    cpu.dataProcessing? i = some (cpu.dataProcessing i) := by
  simp only [dataProcessing?, takeStatus?, secondOperand?_eq, sumOf?_eq, Psr.flag?_of_lt,
    Nat.reduceLT, resultStatus?_eq, spendShift?_of_room h, restoreSavedStatus?_eq,
    Option.bind_eq_bind, Option.bind_some, Option.pure_def, ← apply_ite some]
  rfl

omit [MemoryBus β] bus in
/-- A multiplication never breaks: it takes five cycles at most. -/
@[simp] theorem multiply?_of_room (i : Multiply) :
    cpu.multiply? i = some (cpu.multiply i) := by
  have hcycles := multiplierCycles_le (cpu.register i.rs) true
  have hmore : (if i.accumulates then 1 else 0) ≤ 1 := by split <;> decide
  simp only [multiply?, multiplierCycles?_eq, Option.bind_eq_bind, Option.bind_some]
  rw [sum?_of_lt (by omega), Option.bind_some, spend?_of_room h (by omega)]
  simp only [Option.bind_some, Psr.withSignAndZero?_eq]
  rfl

omit [MemoryBus β] bus in
/-- A long multiplication never breaks: the product of two words always fits in sixty-four bits, and
it takes six cycles at most. -/
@[simp] theorem multiplyLong?_of_room (i : MultiplyLong) :
    cpu.multiplyLong? i = some (cpu.multiplyLong i) := by
  have hcycles := multiplierCycles_le (cpu.register i.rs) i.isSigned
  have hmore : (if i.accumulates then 1 else 0) ≤ 1 := by split <;> decide
  simp only [multiplyLong?, multiplierCycles?_eq, wideProduct?_eq, shiftLeft?_of_lt,
    shiftRight?_of_lt, bit?_of_lt, Nat.reduceLT, Option.bind_eq_bind, Option.bind_some]
  have hwords := shiftLeft_or_setWidth (cpu.register i.rdHigh) (cpu.register i.rdLow)
  simp only [Nat.reduceAdd] at hwords
  simp only [hwords]
  rw [sum?_of_lt (by omega), Option.bind_some, sum?_of_lt (by omega), Option.bind_some,
    spend?_of_room h (by omega)]
  simp only [Option.bind_some, Psr.withFlag?_of_lt, Nat.reduceLT,
    BitVec.setWidth_ushiftRight_eq_extractLsb]
  rfl

omit [MemoryBus β] bus in
/-- A status write never breaks: whatever it writes into the mode field is taken for a mode. -/
@[simp] theorem writeStatus?_of_room (target : StatusRegister) (mask : Word) (operand : Operand) :
    cpu.writeStatus? target mask operand = some (cpu.writeStatus target mask operand) := by
  cases target <;>
    simp [writeStatus?, writeStatus, spendShift?_of_room h, ← apply_ite some]

/-- A swap never breaks: it takes two cycles. -/
@[simp] theorem swap?_of_room (i : Swap) : cpu.swap? bus i = some (cpu.swap bus i) := by
  have hspent {n : Nat} (hn : n ≤ 2) : cpu.spend? n = some (cpu.spend n) :=
    spend?_of_room h (by omega)
  unfold swap? swap
  cases i.quantity
  all_goals
    simp only [Load.run?_eq, hspent, Nat.reduceLeDiff, Option.bind_eq_bind, Option.bind_some,
      enter?_eq]
    obtain ⟨_ | old, bus'⟩ := Load.run _ bus (cpu.register i.rn)
    · rfl
    · dsimp only
      obtain ⟨_ | _, bus''⟩ := Store.run _ bus' (cpu.register i.rn) (cpu.register i.rm)
      · rfl
      · rfl

/-- A halfword transfer never breaks: it takes one cycle. -/
@[simp] theorem halfwordTransfer?_of_room (i : HalfwordTransfer) :
    cpu.halfwordTransfer? bus i = some (cpu.halfwordTransfer bus i) := by
  unfold halfwordTransfer? halfwordTransfer
  dsimp only
  cases i.direction with
  | load => exact loadRegister?_of_room h ..
  | store => exact storeValue?_of_room h ..

/-- A single transfer never breaks: it takes one cycle. -/
@[simp] theorem singleTransfer?_of_room (i : SingleTransfer) :
    cpu.singleTransfer? bus i = some (cpu.singleTransfer bus i) := by
  unfold singleTransfer? singleTransfer
  rw [singleOffset?_eq]
  dsimp only [Option.bind_eq_bind, Option.bind_some]
  cases i.direction with
  | load => cases i.quantity <;> exact loadRegister?_of_room h ..
  | store => cases i.quantity <;> exact storeValue?_of_room h ..

/-- No ARM instruction breaks the processor. -/
@[simp] theorem performArm?_of_room (i : Instruction) :
    cpu.performArm? bus i = some (cpu.performArm bus i) := by
  cases i <;> simp [performArm?, performArm, h]

/-- No ARM code breaks the processor. Its condition is one of fifteen, and the sixteenth encoding
holds never. -/
@[simp] theorem executeArm?_of_room (code : Opcode) :
    cpu.executeArm? bus code = some (cpu.executeArm bus code) := by
  simp [executeArm?, executeArm, h, ← apply_ite some]

end Room

end Arm

/-! ### Thumb instructions -/

section Low

open Thumb

/-- The checked form of `keepValue`. -/
def keepValue? (cpu : Cpu) (rd : LowRegister) (value : Word) : Option Cpu :=
  return (cpu.setFlags (← cpu.cpsr.withSignAndZero? value)).setRegister rd.id value

/-- The checked form of `flagShifted`. -/
def flagShifted? (cpu : Cpu) (shifted : Shifted) : Option Cpu := do
  let status ← cpu.cpsr.withSignAndZero? shifted.value
  return cpu.setFlags (← status.withFlag? 29 shifted.carry)

/-- The checked form of `keepShifted`. -/
def keepShifted? (cpu : Cpu) (rd : LowRegister) (shifted : Shifted) : Option Cpu :=
  return (← cpu.flagShifted? shifted).setRegister rd.id shifted.value

/-- The checked form of `flagSum`. -/
def flagSum? (cpu : Cpu) (sum : AluResult) : Option Cpu :=
  return cpu.setFlags (← cpu.cpsr.withFlags? sum)

/-- The checked form of `keepSum`. -/
def keepSum? (cpu : Cpu) (rd : LowRegister) (sum : AluResult) : Option Cpu :=
  return (← cpu.flagSum? sum).setRegister rd.id sum.value

/-- The checked form of `addSubtract`. -/
def addSubtract? (cpu : Cpu) (subtract : Bool) (addend : Addend) (rs rd : LowRegister) :
    Option Cpu := do
  let first := cpu.register rs.id
  let second := match addend with
    | .immediate value => value.setWidth 32
    | .register r => cpu.register r.id
  if subtract then cpu.keepSum? rd (← subWithCarry? first second true)
  else cpu.keepSum? rd (← addWithCarry? first second false)

/-- The checked form of `immediateOperation`. -/
def immediateOperation? (cpu : Cpu) (op : ImmediateOp) (rd : LowRegister) (value : Word) :
    Option Cpu := do
  let first := cpu.register rd.id
  match op with
  | .mov => cpu.keepValue? rd value
  | .cmp => cpu.flagSum? (← subWithCarry? first value true)
  | .add => cpu.keepSum? rd (← addWithCarry? first value false)
  | .sub => cpu.keepSum? rd (← subWithCarry? first value true)

/-- The checked form of `shiftByRegister`. -/
def shiftByRegister? (cpu : Cpu) (kind : ShiftKind) (rs rd : LowRegister) : Option Cpu := do
  let amount := (← byte? (cpu.register rs.id) 0).toNat
  let shifted ← shift? kind amount (cpu.register rd.id) (← cpu.cpsr.flag? 29)
  (← cpu.spend? 1).keepShifted? rd shifted

/-- The checked form of `aluOperation`. -/
def aluOperation? (cpu : Cpu) (op : Thumb.AluOp) (rs rd : LowRegister) : Option Cpu := do
  let first := cpu.register rd.id
  let second := cpu.register rs.id
  let carry ← cpu.cpsr.flag? 29
  match op with
  | .and => cpu.keepValue? rd (first &&& second)
  | .eor => cpu.keepValue? rd (first ^^^ second)
  | .lsl => cpu.shiftByRegister? .lsl rs rd
  | .lsr => cpu.shiftByRegister? .lsr rs rd
  | .asr => cpu.shiftByRegister? .asr rs rd
  | .adc => cpu.keepSum? rd (← addWithCarry? first second carry)
  | .sbc => cpu.keepSum? rd (← subWithCarry? first second carry)
  | .ror => cpu.shiftByRegister? .ror rs rd
  | .tst => return cpu.setFlags (← cpu.cpsr.withSignAndZero? (first &&& second))
  | .neg => cpu.keepSum? rd (← subWithCarry? 0 second true)
  | .cmp => cpu.flagSum? (← subWithCarry? first second true)
  | .cmn => cpu.flagSum? (← addWithCarry? first second false)
  | .orr => cpu.keepValue? rd (first ||| second)
  | .mul => (← cpu.spend? (← multiplierCycles? first true)).keepValue? rd (first * second)
  | .bic => cpu.keepValue? rd (first &&& ~~~second)
  | .mvn => cpu.keepValue? rd (~~~second)

/-- The checked form of `highOperation`. -/
def highOperation? (cpu : Cpu) (op : HighOp) (rs rd : RegisterId) : Option Cpu := do
  let first := cpu.register rd
  let second := cpu.register rs
  match op with
  | .add => return cpu.writeRegister rd (first + second)
  | .cmp => cpu.flagSum? (← subWithCarry? first second true)
  | .mov => return cpu.writeRegister rd second
  | .bx => cpu.branchExchange? rs

/-- The checked form of `callUpper`. -/
def callUpper? (cpu : Cpu) (offset : BitVec 11) : Option Cpu := do
  let distance ← signExtendLow? (← shiftLeft? (offset.setWidth 32) 12) 23
  return cpu.setRegister .lr (cpu.registers.pc + distance)

/-- The checked form of `callLower`. -/
def callLower? (cpu : Cpu) (offset : BitVec 11) : Option Cpu := do
  let target := cpu.register .lr + (← shiftLeft? (offset.setWidth 32) 1)
  return (cpu.setRegister .lr ((← cpu.nextInstruction?) ||| 1)).jump target

/-- The checked form of `pushTransfer`. -/
def pushTransfer? (registers : Byte) (link : Bool) : Option BlockTransfer :=
  return { pushTransfer registers link with
    registers := ← setBit? (registers.setWidth 16) 14 link }

/-- The checked form of `popTransfer`. -/
def popTransfer? (registers : Byte) (pc : Bool) : Option BlockTransfer :=
  return { popTransfer registers pc with registers := ← setBit? (registers.setWidth 16) 15 pc }

variable {β : Type} [MemoryBus β]

/-- The checked form of `transferLow`. -/
def transferLow? (cpu : Cpu) (bus : β) (direction : Direction) (quantity : Quantity)
    (address : Word) (rd : LowRegister) : Option (Cpu × β) :=
  match direction, quantity with
  | .load, .word => cpu.loadRegister? bus .word address none rd.id
  | .load, .byte => cpu.loadRegister? bus .byte address none rd.id
  | .store, .word => cpu.storeValue? bus .word address (cpu.register rd.id) none
  | .store, .byte => cpu.storeValue? bus .byte address (cpu.register rd.id) none

/-- The checked form of `transferLowSigned`. -/
def transferLowSigned? (cpu : Cpu) (bus : β) (transfer : SignedTransfer) (address : Word)
    (rd : LowRegister) : Option (Cpu × β) :=
  match transfer with
  | .storeHalf => cpu.storeValue? bus .half address (cpu.register rd.id) none
  | .loadHalf => cpu.loadRegister? bus .half address none rd.id
  | .loadSignedByte => cpu.loadRegister? bus .signedByte address none rd.id
  | .loadSignedHalf => cpu.loadRegister? bus .signedHalf address none rd.id

/-- The checked form of `performThumb`. -/
def performThumb? (cpu : Cpu) (bus : β) : Thumb.Instruction → Option (Cpu × β)
  | .shift kind amount rs rd => do
    let shifted ← shiftImmediate? kind amount (cpu.register rs.id) (← cpu.cpsr.flag? 29)
    return (← cpu.keepShifted? rd shifted, bus)
  | .addSubtract subtract addend rs rd => return (← cpu.addSubtract? subtract addend rs rd, bus)
  | .immediate op rd value => return (← cpu.immediateOperation? op rd value, bus)
  | .alu op rs rd => return (← cpu.aluOperation? op rs rd, bus)
  | .high op rs rd => return (← cpu.highOperation? op rs rd, bus)
  | .loadLiteral rd offset =>
    cpu.loadRegister? bus .word (cpu.addressBase .pc + offset) none rd.id
  | .transferIndexed direction quantity index base rd =>
    cpu.transferLow? bus direction quantity (cpu.register base.id + cpu.register index.id) rd
  | .transferSigned transfer index base rd =>
    cpu.transferLowSigned? bus transfer (cpu.register base.id + cpu.register index.id) rd
  | .transferOffset direction quantity offset base rd =>
    cpu.transferLow? bus direction quantity (cpu.register base.id + offset) rd
  | .transferHalf .load offset base rd =>
    cpu.transferLowSigned? bus .loadHalf (cpu.register base.id + offset) rd
  | .transferHalf .store offset base rd =>
    cpu.transferLowSigned? bus .storeHalf (cpu.register base.id + offset) rd
  | .transferStack direction rd offset =>
    cpu.transferLow? bus direction .word (cpu.addressBase .sp + offset) rd
  | .loadAddress base rd offset =>
    return (cpu.setRegister rd.id (cpu.addressBase base + offset), bus)
  | .moveStack offsetting offset =>
    return (cpu.setRegister .sp (offsetting.apply (cpu.register .sp) offset), bus)
  | .push registers link => do cpu.transferBlock? bus (← pushTransfer? registers link)
  | .pop registers pc => do cpu.transferBlock? bus (← popTransfer? registers pc)
  | .transferBlock direction base registers =>
    cpu.transferBlock? bus (lowBlockTransfer direction base registers)
  | .conditionalBranch condition offset =>
    return (if ← cpu.cpsr.satisfies? condition then cpu.branch false offset else cpu, bus)
  | .softwareInterrupt _ => return (← cpu.enter? .softwareInterrupt, bus)
  | .branch offset => return (cpu.branch false offset, bus)
  | .callUpper offset => return (← cpu.callUpper? offset, bus)
  | .callLower offset => return (← cpu.callLower? offset, bus)
  | .undefined => return (← cpu.enter? .undefined, bus)

/-- The checked form of `executeThumb`. -/
def executeThumb? (cpu : Cpu) (bus : β) (code : Thumb.Opcode) : Option (Cpu × β) :=
  cpu.performThumb? bus code.instruction

/-- A kept value sets two flags, which are bits of the status. -/
@[simp] theorem keepValue?_eq (cpu : Cpu) (rd : LowRegister) (value : Word) :
    cpu.keepValue? rd value = some (cpu.keepValue rd value) := by
  simp [keepValue?, keepValue, flagValue]

/-- The flags of a shifted value are three. -/
@[simp] theorem flagShifted?_eq (cpu : Cpu) (shifted : Shifted) :
    cpu.flagShifted? shifted = some (cpu.flagShifted shifted) := by
  simp [flagShifted?, flagShifted, Psr.withCarry]

/-- A shifted value that is kept sets three flags. -/
@[simp] theorem keepShifted?_eq (cpu : Cpu) (rd : LowRegister) (shifted : Shifted) :
    cpu.keepShifted? rd shifted = some (cpu.keepShifted rd shifted) := by
  simp [keepShifted?, keepShifted]

/-- The flags of a sum are four. -/
@[simp] theorem flagSum?_eq (cpu : Cpu) (sum : AluResult) :
    cpu.flagSum? sum = some (cpu.flagSum sum) := by
  simp [flagSum?, flagSum]

/-- A sum that is kept sets four flags. -/
@[simp] theorem keepSum?_eq (cpu : Cpu) (rd : LowRegister) (sum : AluResult) :
    cpu.keepSum? rd sum = some (cpu.keepSum rd sum) := by
  simp [keepSum?, keepSum]

/-- Additions and subtractions of low registers never break. -/
@[simp] theorem addSubtract?_eq (cpu : Cpu) (subtract : Bool) (addend : Addend)
    (rs rd : LowRegister) :
    cpu.addSubtract? subtract addend rs rd = some (cpu.addSubtract subtract addend rs rd) := by
  cases subtract <;> cases addend <;> simp [addSubtract?, addSubtract]

/-- The operations with an immediate never break. -/
@[simp] theorem immediateOperation?_eq (cpu : Cpu) (op : ImmediateOp) (rd : LowRegister)
    (value : Word) :
    cpu.immediateOperation? op rd value = some (cpu.immediateOperation op rd value) := by
  cases op <;> simp [immediateOperation?, immediateOperation]

/-- The operations on high registers never break, the exchange included. -/
@[simp] theorem highOperation?_eq (cpu : Cpu) (op : HighOp) (rs rd : RegisterId) :
    cpu.highOperation? op rs rd = some (cpu.highOperation op rs rd) := by
  cases op <;> simp [highOperation?, highOperation]

/-- The distance of the first half of a call is extended and shifted by twelve. -/
@[simp] theorem callUpper?_eq (cpu : Cpu) (offset : BitVec 11) :
    cpu.callUpper? offset = some (cpu.callUpper offset) := by
  simp [callUpper?, callUpper]

/-- The distance of the second half is shifted by one. -/
@[simp] theorem callLower?_eq (cpu : Cpu) (offset : BitVec 11) :
    cpu.callLower? offset = some (cpu.callLower offset) := by
  simp [callLower?, callLower]

/-- The list of a push is eight bits and one for the link register. -/
@[simp] theorem pushTransfer?_eq (registers : Byte) (link : Bool) :
    pushTransfer? registers link = some (pushTransfer registers link) := by
  simp [pushTransfer?, pushTransfer]

/-- The list of a pop is eight bits and one for R15. -/
@[simp] theorem popTransfer?_eq (registers : Byte) (pc : Bool) :
    popTransfer? registers pc = some (popTransfer registers pc) := by
  simp [popTransfer?, popTransfer]

section Room

variable {cpu : Cpu} (h : cpu.HasRoom) (bus : β)
include h

omit [MemoryBus β] bus in
/-- A shift by a register takes one cycle, and its amount is a byte. -/
@[simp] theorem shiftByRegister?_of_room (kind : ShiftKind) (rs rd : LowRegister) :
    cpu.shiftByRegister? kind rs rd = some (cpu.shiftByRegister kind rs rd) := by
  simp [shiftByRegister?, shiftByRegister, spend?_of_room h, Psr.carry]

omit [MemoryBus β] bus in
/-- The operations between low registers take four cycles at most. -/
@[simp] theorem aluOperation?_of_room (op : Thumb.AluOp) (rs rd : LowRegister) :
    cpu.aluOperation? op rs rd = some (cpu.aluOperation op rs rd) := by
  have hcycles := multiplierCycles_le (cpu.register rd.id) true
  have hspent : cpu.spend? (multiplierCycles (cpu.register rd.id) true) = some _ :=
    spend?_of_room h (by omega)
  cases op <;>
    simp [aluOperation?, aluOperation, flagValue, Psr.carry, shiftByRegister?_of_room h, hspent]

/-- The transfers of low registers take one cycle. -/
@[simp] theorem transferLow?_of_room (direction : Direction) (quantity : Quantity)
    (address : Word) (rd : LowRegister) :
    cpu.transferLow? bus direction quantity address rd =
      some (cpu.transferLow bus direction quantity address rd) := by
  cases direction with
  | load => cases quantity <;> exact loadRegister?_of_room h ..
  | store => cases quantity <;> exact storeValue?_of_room h ..

/-- The transfers of halfwords and signed values take one cycle. -/
@[simp] theorem transferLowSigned?_of_room (transfer : SignedTransfer) (address : Word)
    (rd : LowRegister) :
    cpu.transferLowSigned? bus transfer address rd =
      some (cpu.transferLowSigned bus transfer address rd) := by
  cases transfer with
  | storeHalf => exact storeValue?_of_room h ..
  | _ => exact loadRegister?_of_room h ..

/-- No Thumb instruction breaks the processor. -/
@[simp] theorem performThumb?_of_room (i : Thumb.Instruction) :
    cpu.performThumb? bus i = some (cpu.performThumb bus i) := by
  cases i with
  | transferHalf direction offset base rd =>
    cases direction with
    | load => exact transferLowSigned?_of_room h bus .loadHalf _ rd
    | store => exact transferLowSigned?_of_room h bus .storeHalf _ rd
  | _ => simp [performThumb?, performThumb, h, Psr.carry]

/-- No Thumb code breaks the processor. -/
@[simp] theorem executeThumb?_of_room (code : Thumb.Opcode) :
    cpu.executeThumb? bus code = some (cpu.executeThumb bus code) :=
  performThumb?_of_room h bus code.instruction

end Room

end Low

/-! ### The step -/

section Step

variable {β : Type} [MemoryBus β]

/-- The checked form of `alignPc`. -/
def alignPc? (cpu : Cpu) : Option Cpu :=
  return cpu.setRegister .pc (← cpu.codeAligned? cpu.registers.pc)

/-- The checked form of `fetchAndExecute`. -/
def fetchAndExecute? (cpu : Cpu) (bus : β) : Option (Cpu × β) := do
  let cpu ← cpu.alignPc?
  let address ← cpu.currentInstruction?
  match ← cpu.cpsr.state? with
  | .arm =>
    match MemoryBus.load32 bus address with
    | (some code, bus) => cpu.executeArm? bus (← Arm.Opcode.decode? code)
    | (none, bus) => return (← cpu.enter? .prefetchAbort, bus)
  | .thumb =>
    match MemoryBus.load16 bus address with
    | (some code, bus) => cpu.executeThumb? bus (← Thumb.Opcode.decode? code)
    | (none, bus) => return (← cpu.enter? .prefetchAbort, bus)

/-- The checked form of `advance`. -/
def advance? (cpu : Cpu) : Option Cpu := do
  if cpu.flushed then cpu.refill?
  else return cpu.setRegister .pc (cpu.registers.pc + (← cpu.cpsr.state?).instructionWidth)

/-- Takes a pending exception or executes one code. -/
def attend? (cpu : Cpu) (bus : β) (lines : InterruptLines) : Option (Cpu × β) := do
  match ← cpu.pendingCheck? lines with
  | some kind => return (← cpu.enter? kind, bus)
  | none => cpu.fetchAndExecute? bus

/-- The checked form of `step`. -/
def step? (cpu : Cpu) (bus : β) (lines : InterruptLines) : Option (Nat × Cpu × β) := do
  let (cpu, bus) ← cpu.beginStep.attend? bus lines
  let cpu ← cpu.advance?
  return (← sum? 32 1 cpu.extraCycles, cpu, bus)

/-- R15 is aligned with the mask of the instruction set. -/
@[simp] theorem alignPc?_eq (cpu : Cpu) : cpu.alignPc? = some cpu.alignPc := by
  simp [alignPc?, alignPc]

/-- A fetch that nothing answers enters the prefetch abort handler, and any code that arrives is
decoded and executed. -/
@[simp] theorem fetchAndExecute?_of_room {cpu : Cpu} (h : cpu.HasRoom) (bus : β) :
    cpu.fetchAndExecute? bus = some (cpu.fetchAndExecute bus) := by
  have haligned : cpu.alignPc.HasRoom := h
  simp only [fetchAndExecute?, fetchAndExecute, alignPc?_eq, currentInstruction?_eq, Psr.state?_eq,
    Arm.Opcode.decode?_eq, Thumb.Opcode.decode?_eq, enter?_eq, Option.bind_eq_bind,
    Option.bind_some]
  cases cpu.alignPc.cpsr.state with
  | arm =>
    dsimp only
    obtain ⟨_ | code, bus'⟩ := MemoryBus.load32 bus cpu.alignPc.currentInstruction
    · rfl
    · exact executeArm?_of_room haligned bus' (.decode code)
  | thumb =>
    dsimp only
    obtain ⟨_ | code, bus'⟩ := MemoryBus.load16 bus cpu.alignPc.currentInstruction
    · rfl
    · exact executeThumb?_of_room haligned bus' (.decode code)

/-- The end of a step has room for the two cycles of a refill. -/
@[simp] theorem advance?_of_room {cpu : Cpu} (h : cpu.HasRoom) :
    cpu.advance? = some cpu.advance := by
  simp [advance?, advance, refill?_of_room h, ← apply_ite some]

/-- The end of a step takes no cycles back. -/
theorem le_extraCycles_advance (cpu : Cpu) : cpu.extraCycles ≤ cpu.advance.extraCycles := by
  unfold advance
  split
  · exact Nat.le_add_right cpu.extraCycles 2
  · exact Nat.le_refl _

/-- No code, no state of the processor and no bus behind it break a step. -/
theorem step?_eq (cpu : Cpu) (bus : β) (lines : InterruptLines) :
    cpu.step? bus lines = some (cpu.step bus lines) := by
  let attended := match cpu.beginStep.pendingException lines with
    | some kind => (cpu.beginStep.enter kind, bus)
    | none => cpu.beginStep.fetchAndExecute bus
  have hattend : cpu.beginStep.attend? bus lines = some attended := by
    have hroom : cpu.beginStep.HasRoom := show 0 < 0x80000000 by decide
    simp only [attend?, pendingCheck?_eq, enter?_eq, fetchAndExecute?_of_room hroom,
      Option.bind_eq_bind, Option.bind_some, attended]
    cases cpu.beginStep.pendingException lines <;> rfl
  -- The end of the step only adds to the cycles that it finds.
  have hspent : attended.1.advance.extraCycles ≤ 18 := by
    have hle := (cpu.outcome_step bus lines).spent
    rwa [show cpu.beginStep.extraCycles = 0 from rfl, Nat.zero_add] at hle
  have hle := attended.1.le_extraCycles_advance
  have hcycles : sum? 32 1 attended.1.advance.extraCycles =
      some (1 + attended.1.advance.extraCycles) := sum?_of_lt (by omega)
  have hroom : attended.1.HasRoom := show attended.1.extraCycles < 0x80000000 by omega
  simp only [step?, hattend, Option.bind_eq_bind, Option.bind_some, advance?_of_room hroom, hcycles]
  rfl

end Step

end Cpu

end AdvanceCore
