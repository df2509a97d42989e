import AdvanceCore.Proofs.Cpu.DataAbort
import AdvanceCore.Proofs.Cpu.ThumbAsArm

/-!
# `AdvanceCore.Proofs.Cpu.JumpTargets`: where an instruction jumps

Most instructions of both sets can write R15: as their result, as a loaded register, as the
base of a transfer, or on entering a handler. What they write there is fixed before they
begin, by the registers and by what the bus answers.

* `armTarget?`, `thumbTarget?`, `Cpu.target?`: the address that an instruction or a step jumps
  to, if it does.
* `Lands`: R15 is kept, and the instruction set with it, or it holds the target and the
  pipeline is marked.
* `lands_performArm`, `lands_performThumb`: every instruction of both sets.
-/

set_option autoImplicit false

namespace AdvanceCore

namespace Cpu

/-! ### Targets -/

/-- A register is a target if it is R15. -/
def written? (r : RegisterId) (value : Word) : Option Word := if r = .pc then some value else none

/-- A base is a target if it is written and is R15. -/
def writtenBase? (newBase : Option (RegisterId × Word)) : Option Word :=
  newBase.bind fun base => written? base.1 base.2

section Values

open Arm

/-- The result of an ALU operation. -/
def aluValue (cpu : Cpu) (i : DataProcessing) : Word :=
  let second := (cpu.secondOperand i.operand).value
  let first := cpu.operandRegister i.operand i.rn
  match arithmeticResult? i.op first second cpu.cpsr.carry with
  | some sum => sum.value
  | none => logicalResult i.op first second

/-- The result of a multiplication. -/
def product (cpu : Cpu) (i : Multiply) : Word :=
  let product := cpu.register i.rm * cpu.register i.rs
  if i.accumulates then product + cpu.register i.rn else product

/-- The result of a long multiplication. -/
def longProduct (cpu : Cpu) (i : MultiplyLong) : BitVec 64 :=
  let product : BitVec 64 :=
    if i.isSigned then (cpu.register i.rm).signExtend 64 * (cpu.register i.rs).signExtend 64
    else (cpu.register i.rm).setWidth 64 * (cpu.register i.rs).setWidth 64
  if i.accumulates then product + (cpu.register i.rdHigh ++ cpu.register i.rdLow : BitVec 64)
  else product

/-- The status register that an instruction reads. -/
def readableStatus (cpu : Cpu) (source : StatusRegister) : Psr :=
  match source with
  | .spsr => if cpu.cpsr.mode.hasSavedStatus then cpu.spsr else cpu.cpsr
  | .cpsr => cpu.cpsr

/-- The address and the new base of a halfword transfer. -/
def halfwordAddress (cpu : Cpu) (i : HalfwordTransfer) : Word × Option (RegisterId × Word) :=
  cpu.transferAddress i.base i.indexing i.offsetting i.writeBack (cpu.halfwordIndex i.offset)

/-- The address and the new base of a single transfer. -/
def singleAddress (cpu : Cpu) (i : SingleTransfer) : Word × Option (RegisterId × Word) :=
  cpu.transferAddress i.base i.indexing i.offsetting i.writeBack (cpu.singleIndex i.offset)

end Values

variable {β : Type} [MemoryBus β]

/-- The target of a load into a register: the handler if it fails, else the loaded register or
the base. -/
def loadTarget? (bus : β) (kind : Load) (address : Word) (newBase : Option (RegisterId × Word))
    (r : RegisterId) : Option Word :=
  match (kind.run bus address).1 with
  | none => some Exception.dataAbort.vector
  | some value => (written? r value).or (writtenBase? newBase)

/-- The target of a store: the handler if it fails, else the base. -/
def storeTarget? (bus : β) (kind : Store) (address value : Word)
    (newBase : Option (RegisterId × Word)) : Option Word :=
  if (kind.run bus address value).1 then writtenBase? newBase
  else some Exception.dataAbort.vector

/-- The value that a register list stores for one of its registers. -/
def listedValue (cpu : Cpu) (t : BlockTransfer) (r : RegisterId) : Word :=
  if r = t.base ∧ t.writeBack ∧ (blockRegisters t).head? ≠ some r then
    t.offsetting.apply (cpu.register t.base) (blockSize t)
  else if t.statusBit then cpu.userStoredRegister r
  else cpu.storedRegister r

/-- The target of a register list: the handler if an access fails, else the last word of a list
with R15, or the base. -/
def blockTarget? (cpu : Cpu) (bus : β) (t : BlockTransfer) : Option Word :=
  let start := blockStart t (cpu.register t.base)
  let registers := blockRegisters t
  match t.direction with
  | .store =>
    if (storeWords bus start (registers.map (cpu.listedValue t))).1.outcome then
      writtenBase? (cpu.blockBase? t)
    else some Exception.dataAbort.vector
  | .load =>
    let words := (loadWords bus start registers.length).1.outcome
    if words.length < registers.length then some Exception.dataAbort.vector
    else if registers.contains .pc then words.getLast?
    else writtenBase? (cpu.blockBase? t)

/-- The target of an exchange. -/
def swapTarget? (cpu : Cpu) (bus : β) (i : Arm.Swap) : Option Word :=
  match i.quantity.load.run bus (cpu.register i.rn) with
  | (none, _) => some Exception.dataAbort.vector
  | (some old, bus) =>
    if (i.quantity.store.run bus (cpu.register i.rn) (cpu.register i.rm)).1 then written? i.rd old
    else some Exception.dataAbort.vector

/-- The target of an ARM instruction whose condition holds. Of two registers that are written
the second one wins. -/
def armTarget? (cpu : Cpu) (bus : β) : Arm.Instruction → Option Word
  | .dataProcessing i => if i.op.isTest then none else written? i.rd (cpu.aluValue i)
  | .multiply i => written? i.rd (cpu.product i)
  | .multiplyLong i =>
    (written? i.rdHigh ((cpu.longProduct i).extractLsb' 32 32)).or
      (written? i.rdLow ((cpu.longProduct i).extractLsb' 0 32))
  | .readStatus source rd => written? rd (cpu.readableStatus source).word
  | .writeStatus .. => none
  | .swap i => cpu.swapTarget? bus i
  | .branchExchange r => some (cpu.register r &&& ~~~1)
  | .halfwordTransfer i =>
    let (address, newBase) := cpu.halfwordAddress i
    match i.direction with
    | .load => loadTarget? bus (halfwordLoad i.kind) address newBase i.rd
    | .store => storeTarget? bus .half address (cpu.storedRegister i.rd) newBase
  | .singleTransfer i =>
    let (address, newBase) := cpu.singleAddress i
    match i.direction with
    | .load => loadTarget? bus i.quantity.load address newBase i.rd
    | .store => storeTarget? bus i.quantity.store address (cpu.storedRegister i.rd) newBase
  | .blockTransfer t => cpu.blockTarget? bus t
  | .branch _ offset => some (cpu.registers.pc + offset)
  | .softwareInterrupt _ => some Exception.softwareInterrupt.vector
  | .undefined => some Exception.undefined.vector

/-- The target of a transfer of a low register. -/
def lowTarget? (cpu : Cpu) (bus : β) (direction : Direction) (quantity : Quantity) (address : Word)
    (rd : Thumb.LowRegister) : Option Word :=
  match direction with
  | .load => loadTarget? bus quantity.load address none rd.id
  | .store => storeTarget? bus quantity.store address (cpu.register rd.id) none

/-- The target of a transfer of a halfword or a signed value. -/
def lowSignedTarget? (cpu : Cpu) (bus : β) (transfer : Thumb.SignedTransfer) (address : Word)
    (rd : Thumb.LowRegister) : Option Word :=
  match transfer with
  | .storeHalf => storeTarget? bus .half address (cpu.register rd.id) none
  | .loadHalf => loadTarget? bus .half address none rd.id
  | .loadSignedByte => loadTarget? bus .signedByte address none rd.id
  | .loadSignedHalf => loadTarget? bus .signedHalf address none rd.id

/-- The target of a Thumb instruction. -/
def thumbTarget? (cpu : Cpu) (bus : β) : Thumb.Instruction → Option Word
  | .shift .. | .addSubtract .. | .immediate .. | .alu .. | .high .cmp _ _ | .loadAddress ..
  | .moveStack .. | .callUpper _ => none
  | .high .add rs rd => written? rd (cpu.register rd + cpu.register rs)
  | .high .mov rs rd => written? rd (cpu.register rs)
  | .high .bx rs _ => some (cpu.register rs &&& ~~~1)
  | .loadLiteral rd offset => loadTarget? bus .word (cpu.addressBase .pc + offset) none rd.id
  | .transferIndexed direction quantity index base rd =>
    cpu.lowTarget? bus direction quantity (cpu.register base.id + cpu.register index.id) rd
  | .transferSigned transfer index base rd =>
    cpu.lowSignedTarget? bus transfer (cpu.register base.id + cpu.register index.id) rd
  | .transferOffset direction quantity offset base rd =>
    cpu.lowTarget? bus direction quantity (cpu.register base.id + offset) rd
  | .transferHalf .load offset base rd =>
    cpu.lowSignedTarget? bus .loadHalf (cpu.register base.id + offset) rd
  | .transferHalf .store offset base rd =>
    cpu.lowSignedTarget? bus .storeHalf (cpu.register base.id + offset) rd
  | .transferStack direction rd offset =>
    cpu.lowTarget? bus direction .word (cpu.addressBase .sp + offset) rd
  | .push registers link => cpu.blockTarget? bus (pushTransfer registers link)
  | .pop registers pc => cpu.blockTarget? bus (popTransfer registers pc)
  | .transferBlock direction base registers =>
    cpu.blockTarget? bus (lowBlockTransfer direction base registers)
  | .conditionalBranch condition offset =>
    if cpu.cpsr.satisfies condition then some (cpu.registers.pc + offset) else none
  | .branch offset => some (cpu.registers.pc + offset)
  | .callLower offset => some (cpu.register .lr + (offset.setWidth 32 <<< 1))
  | .softwareInterrupt _ => some Exception.softwareInterrupt.vector
  | .undefined => some Exception.undefined.vector

/-- The target of a step. An ARM instruction whose condition fails has none. -/
def target? (cpu : Cpu) (bus : β) (lines : InterruptLines) : Option Word :=
  match cpu.task bus lines with
  | (.take kind, _) => some kind.vector
  | (.abort, _) => some Exception.prefetchAbort.vector
  | (.arm code, bus) =>
    if cpu.cpsr.satisfies code.condition then cpu.alignPc.armTarget? bus code.instruction else none
  | (.thumb code, bus) => cpu.alignPc.thumbTarget? bus code.instruction

/-! ### Landing -/

/-- What `before` has become with R15 in `after`: it is as it was, and so are the instruction
set and the mark of the pipeline, or it holds the target, and the pipeline is marked. -/
inductive Lands (before after : Cpu) : Option Word → Prop where
  | stays (flushed : after.flushed = before.flushed) (pc : after.registers.pc = before.registers.pc)
      (state : after.cpsr.state = before.cpsr.state) : Lands before after none
  | jumps {target : Word} (flushed : after.flushed = true) (pc : after.registers.pc = target) :
      Lands before after (some target)

namespace Lands

variable {before middle after : Cpu} {first second : Option Word}

/-- Without a target everything stays. -/
theorem refl (cpu : Cpu) : Lands cpu cpu none := .stays rfl rfl rfl

/-- The later of two targets counts. -/
theorem trans (h : Lands before middle first) (h' : Lands middle after second) :
    Lands before after (second.or first) := by
  cases h' with
  | jumps flushed pc => exact .jumps flushed pc
  | stays flushed pc state =>
    cases h with
    | stays flushed' pc' state' =>
      exact .stays (flushed.trans flushed') (pc.trans pc') (state.trans state')
    | jumps flushed' pc' => exact .jumps (flushed.trans flushed') (pc.trans pc')

/-- What comes before a target is written does not count. -/
theorem after_stay (h : Lands before middle none) (h' : Lands middle after second) :
    Lands before after second := by
  rw [← Option.or_none (o := second)]
  exact h.trans h'

/-- A jump lands on its target wherever it has come from. -/
theorem jump (before cpu : Cpu) (target : Word) : Lands before (cpu.jump target) (some target) :=
  .jumps rfl (Registers.get_set_self ..)

/-- An exception lands on its vector, because it ends with a jump there. -/
theorem enter (before cpu : Cpu) (kind : Exception) :
    Lands before (cpu.enter kind) (some kind.vector) :=
  .jump before _ kind.vector

end Lands

/-- A register other than R15 may be set. -/
theorem lands_setRegister (cpu : Cpu) {r : RegisterId} (value : Word) (h : r ≠ .pc) :
    Lands cpu (cpu.setRegister r value) none :=
  .stays rfl (Registers.get_set_of_ne _ _ h) rfl

/-- A write lands if it is one to R15. -/
theorem lands_writeRegister (cpu : Cpu) (r : RegisterId) (value : Word) :
    Lands cpu (cpu.writeRegister r value) (written? r value) := by
  unfold writeRegister written?
  by_cases h : r = .pc
  · subst h
    exact .jump cpu cpu value
  · rw [if_neg h, if_neg h]
    exact cpu.lands_setRegister value h

/-- Spending cycles moves nothing. -/
theorem lands_spend (cpu : Cpu) (cycles : Nat) : Lands cpu (cpu.spend cycles) none :=
  .stays rfl rfl rfl

/-- A base lands if it is R15. -/
theorem lands_writeBase (cpu : Cpu) (newBase : Option (RegisterId × Word)) :
    Lands cpu (cpu.writeBase newBase) (writtenBase? newBase) := by
  cases newBase with
  | none => exact .refl cpu
  | some base => exact cpu.lands_writeRegister base.1 base.2

/-- Flags leave R15, and the instruction set as long as their status does. -/
theorem lands_setFlags (cpu : Cpu) {status : Psr} (h : status.state = cpu.cpsr.state) :
    Lands cpu (cpu.setFlags status) none :=
  .stays rfl rfl h

/-- The cycle of a shift moves nothing either. -/
theorem lands_spendShift (cpu : Cpu) (operand : Arm.Operand) :
    Lands cpu (cpu.spendShift operand) none := by
  unfold spendShift
  split
  · exact cpu.lands_spend 1
  · exact .refl cpu

/-- A switch of the status marks no pipeline. -/
theorem flushed_loadStatus (cpu : Cpu) (status : Psr) :
    (cpu.loadStatus status).flushed = cpu.flushed := by
  unfold loadStatus
  dsimp only
  split <;> rfl

/-- R15 is in no bank, so a switch leaves it as it is. -/
theorem pc_loadStatus (cpu : Cpu) (status : Psr) :
    (cpu.loadStatus status).registers.pc = cpu.registers.pc := by
  unfold loadStatus
  dsimp only
  split
  · rfl
  · exact RegisterBank.get_restore _ _ _ (.inr rfl)

/-- A switch to a status with the same T bit stays. -/
theorem lands_loadStatus (cpu : Cpu) {status : Psr} (h : status.state = cpu.cpsr.state) :
    Lands cpu (cpu.loadStatus status) none :=
  .stays (cpu.flushed_loadStatus status) (cpu.pc_loadStatus status)
    ((congrArg Psr.state (cpu.cpsr_loadStatus status)).trans h)

/-- A status may select another instruction set after a jump. -/
theorem Lands.restoreSavedStatus {before after : Cpu} {target : Word}
    (h : Lands before after (some target)) :
    Lands before after.restoreSavedStatus (some target) := by
  cases h with
  | jumps flushed pc =>
    unfold Cpu.restoreSavedStatus
    split
    · exact .jumps ((after.flushed_loadStatus _).trans flushed) ((after.pc_loadStatus _).trans pc)
    · exact .jumps flushed pc

/-! ### Instructions inside the processor -/

section Registers

open Arm

variable (cpu : Cpu)

/-- The status with the flags of an ALU operation. -/
def aluStatus (i : DataProcessing) : Psr :=
  let second := cpu.secondOperand i.operand
  match arithmeticResult? i.op (cpu.operandRegister i.operand i.rn) second.value
    cpu.cpsr.carry with
  | some sum => cpu.cpsr.withFlags sum
  | none => (cpu.cpsr.withSignAndZero (cpu.aluValue i)).withCarry second.carry

/-- The flags of a result leave the instruction set. -/
@[simp] theorem state_aluStatus (i : DataProcessing) :
    (cpu.aluStatus i).state = cpu.cpsr.state := by
  unfold aluStatus
  dsimp only
  split <;> simp

/-- Before the result is written, a return takes the saved status back, and an instruction that
sets the flags leaves those of the result. -/
def beforeResult (i : DataProcessing) : Cpu :=
  let spent := cpu.spendShift i.operand
  if i.setFlags && i.rd == .pc && !i.op.isTest then spent.restoreSavedStatus
  else if i.setFlags then spent.setFlags (cpu.aluStatus i)
  else spent

/-- An ALU instruction prepares its result and then writes it, unless it is a test. -/
theorem dataProcessing_eq (i : DataProcessing) :
    cpu.dataProcessing i =
      if i.op.isTest then cpu.beforeResult i
      else (cpu.beforeResult i).writeRegister i.rd (cpu.aluValue i) :=
  rfl

/-- With R15 as the destination the saved status may come back first, which the jump makes up
for. -/
theorem lands_dataProcessing (i : DataProcessing) :
    Lands cpu (cpu.dataProcessing i)
      (if i.op.isTest then none else written? i.rd (cpu.aluValue i)) := by
  rw [dataProcessing_eq]
  -- A result in the program counter that restores the saved status jumps in the state that this
  -- brings.
  by_cases hreturns : (i.setFlags && i.rd == .pc && !i.op.isTest) = true
  · obtain ⟨⟨-, hpc⟩, hresult⟩ : (i.setFlags = true ∧ i.rd = .pc) ∧ i.op.isTest = false := by
      simpa using hreturns
    rw [hresult, hpc]
    exact .jump cpu (cpu.beforeResult i) (cpu.aluValue i)
  · have hspent : Lands cpu (cpu.spendShift i.operand) none := cpu.lands_spendShift i.operand
    have hbefore : Lands cpu (cpu.beforeResult i) none := by
      unfold beforeResult
      dsimp only
      rw [if_neg hreturns]
      split
      · exact hspent.after_stay (lands_setFlags _ (by simp))
      · exact hspent
    split
    · exact hbefore
    · exact hbefore.after_stay (lands_writeRegister _ i.rd _)

/-- A product lands if it is written to R15. The flags come before it. -/
theorem lands_multiply (i : Multiply) :
    Lands cpu (cpu.multiply i) (written? i.rd (cpu.product i)) := by
  have hflags (spent : Cpu) : Lands spent
      (if i.setFlags then spent.setFlags (spent.cpsr.withSignAndZero (cpu.product i)) else spent)
      none := by
    split
    · exact spent.lands_setFlags (Psr.state_withSignAndZero ..)
    · exact .refl spent
  exact ((cpu.lands_spend _).after_stay (hflags _)).after_stay (lands_writeRegister ..)

/-- Of a long product the high word is written last, so it wins if both go to R15. -/
theorem lands_multiplyLong (i : MultiplyLong) :
    Lands cpu (cpu.multiplyLong i)
      ((written? i.rdHigh ((cpu.longProduct i).extractLsb' 32 32)).or
        (written? i.rdLow ((cpu.longProduct i).extractLsb' 0 32))) := by
  let value := cpu.longProduct i
  have hflags (spent : Cpu) : Lands spent
      (if i.setFlags then spent.setFlags ((spent.cpsr.withSign value.msb).withZero (value == 0))
        else spent) none := by
    split
    · exact spent.lands_setFlags (by simp)
    · exact .refl spent
  have hlow (cycles : Nat) := ((cpu.lands_spend cycles).after_stay (hflags _)).after_stay
    (lands_writeRegister _ i.rdLow (value.extractLsb' 0 32))
  exact (hlow _).trans (lands_writeRegister _ i.rdHigh (value.extractLsb' 32 32))

/-- A status can be read into R15 as into any other register. -/
theorem lands_readStatus (source : StatusRegister) (rd : RegisterId) :
    Lands cpu (cpu.readStatus source rd) (written? rd (cpu.readableStatus source).word) :=
  cpu.lands_writeRegister rd _

/-- The T bit is not among those that an instruction writes. -/
theorem lands_writeStatus (target : StatusRegister) (mask : Word) (operand : Operand) :
    Lands cpu (cpu.writeStatus target mask operand) none := by
  have hspent := cpu.lands_spendShift operand
  have hmask : ((cpu.spendShift operand).writableStatus mask).getLsbD 5 = false := by
    unfold writableStatus
    rw [BitVec.getLsbD_and]
    simp
  unfold writeStatus
  cases target with
  | cpsr => exact hspent.after_stay (lands_loadStatus _ (Psr.state_merge _ _ hmask))
  | spsr =>
    dsimp only
    split
    · exact hspent.after_stay (.stays rfl rfl rfl)
    · exact hspent

/-- An exchange lands on the address without its lowest bit. -/
theorem lands_branchExchange (r : RegisterId) :
    Lands cpu (cpu.branchExchange r) (some (cpu.register r &&& ~~~1)) :=
  .jump cpu _ _

/-- A branch lands at its distance from R15. -/
theorem lands_branch (link : Bool) (offset : Word) :
    Lands cpu (cpu.branch link offset) (some (cpu.registers.pc + offset)) :=
  .jump cpu _ _

end Registers

section Low

open Thumb

variable (cpu : Cpu)

/-- A result in a low register does not reach R15, nor do its flags reach the instruction set. -/
theorem lands_keep (rd : LowRegister) (value : Word) {status : Psr}
    (h : status.state = cpu.cpsr.state) :
    Lands cpu ((cpu.setFlags status).setRegister rd.id value) none :=
  (cpu.lands_setFlags h).after_stay (lands_setRegister _ value (LowRegister.id_ne_pc rd))

/-- A kept value stays. -/
theorem lands_keepValue (rd : LowRegister) (value : Word) :
    Lands cpu (cpu.keepValue rd value) none :=
  cpu.lands_keep rd value (Psr.state_withSignAndZero ..)

/-- A kept shift stays. -/
theorem lands_keepShifted (rd : LowRegister) (shifted : Shifted) :
    Lands cpu (cpu.keepShifted rd shifted) none :=
  cpu.lands_keep rd shifted.value (by simp)

/-- A kept sum stays. -/
theorem lands_keepSum (rd : LowRegister) (sum : AluResult) : Lands cpu (cpu.keepSum rd sum) none :=
  cpu.lands_keep rd sum.value (Psr.state_withFlags ..)

/-- A test stays. -/
theorem lands_flagValue (value : Word) : Lands cpu (cpu.flagValue value) none :=
  cpu.lands_setFlags (Psr.state_withSignAndZero ..)

/-- A comparison stays. -/
theorem lands_flagSum (sum : AluResult) : Lands cpu (cpu.flagSum sum) none :=
  cpu.lands_setFlags (Psr.state_withFlags ..)

/-- Operations with an immediate stay. -/
theorem lands_immediateOperation (op : ImmediateOp) (rd : LowRegister) (value : Word) :
    Lands cpu (cpu.immediateOperation op rd value) none := by
  cases op with
  | mov => exact cpu.lands_keepValue rd value
  | cmp => exact cpu.lands_flagSum _
  | add | sub => exact cpu.lands_keepSum rd _

/-- Shifts by a register stay. -/
theorem lands_shiftByRegister (kind : ShiftKind) (rs rd : LowRegister) :
    Lands cpu (cpu.shiftByRegister kind rs rd) none :=
  (cpu.lands_spend 1).after_stay (lands_keepShifted ..)

/-- All operations between low registers stay. -/
theorem lands_aluOperation (op : Thumb.AluOp) (rs rd : LowRegister) :
    Lands cpu (cpu.aluOperation op rs rd) none := by
  cases op with
  | and | eor | orr | bic | mvn => exact cpu.lands_keepValue rd _
  | lsl | lsr | asr | ror => exact cpu.lands_shiftByRegister _ rs rd
  | adc | sbc | neg => exact cpu.lands_keepSum rd _
  | tst => exact cpu.lands_flagValue _
  | cmp | cmn => exact cpu.lands_flagSum _
  | mul => exact (cpu.lands_spend _).after_stay (lands_keepValue ..)

end Low

/-! ### Transfers -/

section Memory

variable {β : Type} [MemoryBus β] (cpu : Cpu) (bus : β)

/-- A load lands as its target says. The loaded register is written after the base, so it wins if
both are R15. -/
theorem lands_loadRegister (kind : Load) (address : Word) (newBase : Option (RegisterId × Word))
    (r : RegisterId) :
    Lands cpu (cpu.loadRegister bus kind address newBase r).1
      (loadTarget? bus kind address newBase r) := by
  unfold loadRegister loadTarget?
  obtain ⟨answer, bus'⟩ := kind.run bus address
  cases answer with
  | none => exact .enter cpu _ .dataAbort
  | some value =>
    have hbase := (cpu.lands_spend 1).after_stay (lands_writeBase _ newBase)
    exact hbase.trans (lands_writeRegister _ r value)

/-- A store lands on its base, or on the vector of the handler. -/
theorem lands_storeValue (kind : Store) (address value : Word)
    (newBase : Option (RegisterId × Word)) :
    Lands cpu (cpu.storeValue bus kind address value newBase).1
      (storeTarget? bus kind address value newBase) := by
  unfold storeValue storeTarget?
  obtain ⟨accepted, bus'⟩ := kind.run bus address value
  cases accepted with
  | false => exact .enter cpu _ .dataAbort
  | true => exact (cpu.lands_spend 1).after_stay (lands_writeBase _ newBase)

/-- A swap loads before it stores, and either can fail. -/
theorem lands_swap (i : Arm.Swap) : Lands cpu (cpu.swap bus i).1 (cpu.swapTarget? bus i) := by
  rw [swap_eq]
  unfold swapTarget?
  obtain ⟨answer, bus'⟩ := i.quantity.load.run bus (cpu.register i.rn)
  cases answer with
  | none => exact .enter cpu _ .dataAbort
  | some old =>
    dsimp only
    obtain ⟨accepted, bus''⟩ := i.quantity.store.run bus' (cpu.register i.rn) (cpu.register i.rm)
    cases accepted with
    | false => exact .enter cpu _ .dataAbort
    | true => exact (cpu.lands_spend 2).after_stay (lands_writeRegister _ i.rd old)

/-- A list store stores the listed values and writes the base if all are accepted. -/
theorem storeBlock_eq (t : BlockTransfer) :
    cpu.storeBlock bus t =
      let words := storeWords bus (blockStart t (cpu.register t.base))
        ((blockRegisters t).map (cpu.listedValue t))
      let stored := cpu.spend words.1.accesses
      if words.1.outcome then (stored.writeBase (cpu.blockBase? t), words.2)
      else (stored.enter .dataAbort, words.2) := by
  unfold storeBlock
  simp only [ite_writeBack]
  rfl

/-- A list store lands on its base, or on the vector of the handler. -/
theorem lands_storeBlock (t : BlockTransfer) (h : t.direction = .store) :
    Lands cpu (cpu.storeBlock bus t).1 (cpu.blockTarget? bus t) := by
  unfold blockTarget?
  rw [storeBlock_eq, h]
  dsimp only
  split
  · exact (cpu.lands_spend _).after_stay (lands_writeBase ..)
  · exact .enter cpu _ .dataAbort

/-- A word for another register leaves R15 alone, whichever copy of that register it goes to. -/
theorem lands_takeWord {toUser : Bool} {mode : Mode} {word : RegisterId × Word}
    (h : word.1 ≠ .pc) : Lands cpu (takeWord toUser mode cpu word) none := by
  have hwrite : Lands cpu (cpu.writeRegister word.1 word.2) none := by
    have hlands := cpu.lands_writeRegister word.1 word.2
    rw [written?, if_neg h] at hlands
    exact hlands
  unfold takeWord
  split
  · unfold writeUserRegister
    split
    · exact .stays rfl rfl rfl
    · exact hwrite
  · exact hwrite

/-- The words of a list without R15 leave R15 alone. -/
theorem lands_foldl_takeWord {toUser : Bool} {mode : Mode} {words : List (RegisterId × Word)}
    (h : ∀ word ∈ words, word.1 ≠ .pc) :
    Lands cpu (words.foldl (takeWord toUser mode) cpu) none := by
  induction words generalizing cpu with
  | nil => exact .refl cpu
  | cons word rest ih =>
    have hfirst : Lands cpu (takeWord toUser mode cpu word) none :=
      cpu.lands_takeWord (h word List.mem_cons_self)
    exact hfirst.after_stay (ih _ fun w hw => h w (List.mem_cons_of_mem word hw))

/-- There are never more words than were asked for. -/
theorem length_loadWords_le (address : Word) (count : Nat) :
    (loadWords bus address count).1.outcome.length ≤ count := by
  induction count generalizing bus address with
  | zero => exact Nat.le_refl 0
  | succ count ih =>
    unfold loadWords
    obtain ⟨answer, bus'⟩ := MemoryBus.load32 bus (wordAligned address)
    cases answer with
    | none => exact Nat.zero_le _
    | some value => exact Nat.succ_le_succ (ih bus' (address + 4))

/-- R15 is the last register of a list. -/
theorem blockRegisters_of_pc {t : BlockTransfer} (h : .pc ∈ blockRegisters t) :
    ∃ others, blockRegisters t = others ++ [.pc] := by
  obtain ⟨before, after, hsplit⟩ := List.append_of_mem h
  have hascending := pairwise_blockRegisters t
  rw [hsplit, List.pairwise_append] at hascending
  obtain ⟨-, hafter, -⟩ := hascending
  -- Nothing is above R15.
  have hlast : after = [] := by
    cases after with
    | nil => rfl
    | cons r rest =>
      have hlt : RegisterId.pc < r := List.rel_of_pairwise_cons hafter List.mem_cons_self
      have hmax : r.val < 16 := r.isLt
      have hval : 15 < r.val := hlt
      omega
  exact ⟨before, by rw [hsplit, hlast]⟩

/-- The last word of a list with R15 is the one for it. -/
theorem lands_foldl_of_pc {before based : Cpu} {mode : Mode} {t : BlockTransfer}
    {words : List Word} (hpc : .pc ∈ blockRegisters t)
    (hall : words.length = (blockRegisters t).length) :
    ∃ target, words.getLast? = some target ∧
      Lands before (((blockRegisters t).zip words).foldl (takeWord false mode) based)
        (some target) := by
  obtain ⟨others, hregisters⟩ := blockRegisters_of_pc hpc
  have hnonempty : words ≠ [] := by
    rintro rfl
    rw [hregisters, List.length_append] at hall
    cases hall
  -- The list is split in front of R15, and the words in front of the last one.
  have hwords := List.dropLast_concat_getLast hnonempty
  have hlength : others.length = words.dropLast.length := by
    rw [List.length_dropLast, hall, hregisters, List.length_append]
    rfl
  refine ⟨words.getLast hnonempty, List.getLast?_eq_some_getLast hnonempty, ?_⟩
  generalize words.getLast hnonempty = target at hwords ⊢
  rw [hregisters, ← hwords, List.zip_append hlength, List.foldl_append]
  exact .jump before _ target

/-- A list load lands on its last word if R15 is in the list, and on its base otherwise. -/
theorem lands_loadBlock (t : BlockTransfer) (h : t.direction = .load) :
    Lands cpu (cpu.loadBlock bus t).1 (cpu.blockTarget? bus t) := by
  let words := loadWords bus (blockStart t (cpu.register t.base)) (blockRegisters t).length
  let based := (cpu.writeBase (cpu.blockBase? t)).spend words.1.accesses
  let done := ((blockRegisters t).zip words.1.outcome).foldl
    (takeWord (loadsUser t) cpu.cpsr.mode) based
  have htarget : cpu.blockTarget? bus t =
      if words.1.outcome.length < (blockRegisters t).length then some Exception.dataAbort.vector
      else if (blockRegisters t).contains .pc then words.1.outcome.getLast?
      else writtenBase? (cpu.blockBase? t) := by
    unfold blockTarget?
    rw [h]
  rw [loadBlock_eq, htarget]
  have hbased : Lands cpu based (writtenBase? (cpu.blockBase? t)) :=
    (cpu.lands_writeBase _).trans (lands_spend ..)
  by_cases hshort : words.1.outcome.length < (blockRegisters t).length
  · rw [if_pos hshort, if_pos hshort]
    exact .enter cpu done .dataAbort
  · rw [if_neg hshort, if_neg hshort]
    have hall : words.1.outcome.length = (blockRegisters t).length :=
      Nat.le_antisymm (length_loadWords_le ..) (Nat.le_of_not_lt hshort)
    by_cases hpc : .pc ∈ blockRegisters t
    · have hcontains : (blockRegisters t).contains .pc = true := List.contains_iff_mem.mpr hpc
      -- With R15 in the list the S bit asks for the saved status and not for User registers.
      have hlive : loadsUser t = false := by
        unfold loadsUser
        rw [hcontains]
        exact Bool.and_false _
      obtain ⟨target, hlast, hdone⟩ : ∃ target, words.1.outcome.getLast? = some target ∧
          Lands cpu done (some target) := by
        show ∃ target, _ ∧ Lands cpu (List.foldl (takeWord (loadsUser t) _) _ _) _
        rw [hlive]
        exact lands_foldl_of_pc hpc hall
      rw [hcontains, if_pos rfl, hlast]
      split
      · exact hdone.restoreSavedStatus
      · exact hdone
    · have hcontains : (blockRegisters t).contains .pc = false :=
        Bool.eq_false_iff.mpr fun h => hpc (List.contains_iff_mem.mp h)
      have hdone : Lands based done none := by
        refine based.lands_foldl_takeWord fun word hword hword_pc => hpc ?_
        rw [← hword_pc]
        exact (List.of_mem_zip hword).1
      rw [hcontains, Bool.and_false, if_neg Bool.false_ne_true, if_neg Bool.false_ne_true]
      exact hbased.trans hdone

/-- A list transfer lands as its target says, in either direction. -/
theorem lands_transferBlock (t : BlockTransfer) :
    Lands cpu (cpu.transferBlock bus t).1 (cpu.blockTarget? bus t) := by
  unfold transferBlock
  cases h : t.direction with
  | store => exact cpu.lands_storeBlock bus t h
  | load => exact cpu.lands_loadBlock bus t h

/-! ### Both instruction sets -/

/-- Every ARM instruction lands on its target. -/
theorem lands_performArm (i : Arm.Instruction) :
    Lands cpu (cpu.performArm bus i).1 (cpu.armTarget? bus i) := by
  -- Every instruction has its own lemma, with the target that `armTarget?` gives for it.
  cases i with
  | dataProcessing i => exact cpu.lands_dataProcessing i
  | multiply i => exact cpu.lands_multiply i
  | multiplyLong i => exact cpu.lands_multiplyLong i
  | readStatus source rd => exact cpu.lands_readStatus source rd
  | writeStatus target mask operand => exact cpu.lands_writeStatus target mask operand
  | swap i => exact cpu.lands_swap bus i
  | branchExchange r => exact cpu.lands_branchExchange r
  | halfwordTransfer i =>
    unfold performArm halfwordTransfer armTarget?
    dsimp only
    cases i.direction with
    | load => exact cpu.lands_loadRegister ..
    | store => exact cpu.lands_storeValue ..
  | singleTransfer i =>
    unfold performArm singleTransfer armTarget?
    dsimp only
    cases i.direction with
    | load => cases i.quantity <;> exact cpu.lands_loadRegister ..
    | store => cases i.quantity <;> exact cpu.lands_storeValue ..
  | blockTransfer t => exact cpu.lands_transferBlock bus t
  | branch link offset => exact cpu.lands_branch link offset
  | softwareInterrupt comment => exact .enter cpu cpu .softwareInterrupt
  | undefined => exact .enter cpu cpu .undefined

/-- The transfers of low registers land on the handler or nowhere. -/
theorem lands_transferLow (direction : Direction) (quantity : Quantity) (address : Word)
    (rd : Thumb.LowRegister) :
    Lands cpu (cpu.transferLow bus direction quantity address rd).1
      (cpu.lowTarget? bus direction quantity address rd) := by
  cases direction with
  | load => cases quantity <;> exact cpu.lands_loadRegister ..
  | store => cases quantity <;> exact cpu.lands_storeValue ..

/-- The transfers of halfwords and signed values land on the handler or nowhere. -/
theorem lands_transferLowSigned (transfer : Thumb.SignedTransfer) (address : Word)
    (rd : Thumb.LowRegister) :
    Lands cpu (cpu.transferLowSigned bus transfer address rd).1
      (cpu.lowSignedTarget? bus transfer address rd) := by
  cases transfer with
  | storeHalf => exact cpu.lands_storeValue ..
  | loadHalf | loadSignedByte | loadSignedHalf => exact cpu.lands_loadRegister ..

/-- Every Thumb instruction lands on its target. -/
theorem lands_performThumb (i : Thumb.Instruction) :
    Lands cpu (cpu.performThumb bus i).1 (cpu.thumbTarget? bus i) := by
  cases i with
  | shift kind amount rs rd => exact cpu.lands_keepShifted rd _
  | addSubtract subtract addend rs rd => exact cpu.lands_keepSum rd _
  | immediate op rd value => exact cpu.lands_immediateOperation op rd value
  | alu op rs rd => exact cpu.lands_aluOperation op rs rd
  | high op rs rd =>
    cases op with
    | add | mov => exact cpu.lands_writeRegister rd _
    | cmp => exact cpu.lands_flagSum _
    | bx => exact cpu.lands_branchExchange rs
  | loadLiteral rd offset => exact cpu.lands_loadRegister ..
  | transferIndexed direction quantity index base rd => exact cpu.lands_transferLow ..
  | transferSigned transfer index base rd => exact cpu.lands_transferLowSigned ..
  | transferOffset direction quantity offset base rd => exact cpu.lands_transferLow ..
  | transferHalf direction offset base rd =>
    cases direction with
    | load | store => exact cpu.lands_transferLowSigned ..
  | transferStack direction rd offset => exact cpu.lands_transferLow ..
  | loadAddress base rd offset => exact cpu.lands_setRegister _ rd.id_ne_pc
  | moveStack offsetting offset => exact cpu.lands_setRegister _ (by decide)
  | push registers link => exact cpu.lands_transferBlock bus _
  | pop registers pc => exact cpu.lands_transferBlock bus _
  | transferBlock direction base registers => exact cpu.lands_transferBlock bus _
  | conditionalBranch condition offset =>
    unfold performThumb thumbTarget?
    dsimp only
    split
    · exact cpu.lands_branch false offset
    · exact .refl cpu
  | softwareInterrupt comment => exact .enter cpu cpu .softwareInterrupt
  | branch offset => exact cpu.lands_branch false offset
  | callUpper offset => exact cpu.lands_setRegister _ (by decide)
  | callLower offset => exact .jump cpu _ _
  | undefined => exact .enter cpu cpu .undefined

end Memory

end Cpu

end AdvanceCore
