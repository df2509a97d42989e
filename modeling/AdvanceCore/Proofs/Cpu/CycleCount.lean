import AdvanceCore.Proofs.Bus.WordRuns
import AdvanceCore.Proofs.Cpu.Pipeline
import AdvanceCore.Proofs.Cpu.StepOutcomes

/-!
# `AdvanceCore.Proofs.Cpu.CycleCount`: what a step costs

A step reports its length in cycles, and everything that runs beside the processor is moved on
by that number. It is counted up in many places: each access to the bus adds one where it is
made, the refill adds two, and a few instructions take time inside the processor. This file says
what the sum is.

`StepOutcomes` bounds the count. Here it is exact, and for that the accesses have to be counted
as well, which `Recorded` does: an instruction that is run on a recording bus leaves a longer
record, and `Takes n` says that it has spent a cycle for each entry it added and `n` more.

* `Task.shifts`, `Cpu.multiplyCycles`: the time a task takes inside the processor.
* `takes_performArm`, `takes_performThumb`: every instruction of both sets.
* `fetch?`, `accesses_task`: the access that is not counted, since the first cycle is its.
* `cycles_step`: the length of any step.
-/

set_option autoImplicit false

namespace AdvanceCore

/-! ### Time inside the processor -/

/-- The second operand is shifted by a register. -/
def Arm.Instruction.shiftsByRegister : Arm.Instruction → Bool
  | .dataProcessing i => i.operand.shiftsByRegister
  | .writeStatus _ _ operand => operand.shiftsByRegister
  | _ => false

/-- The operation is a shift by a register. -/
def Thumb.Instruction.shiftsByRegister : Thumb.Instruction → Bool
  | .alu .lsl _ _ | .alu .lsr _ _ | .alu .asr _ _ | .alu .ror _ _ => true
  | _ => false

/-- The task executes a shift by a register. An ARM instruction whose condition fails is not
executed. -/
def Task.shifts (cpu : Cpu) : Task → Bool
  | .take _ | .abort => false
  | .arm code => cpu.cpsr.satisfies code.condition && code.instruction.shiftsByRegister
  | .thumb code => code.instruction.shiftsByRegister

/-- The task of a step is found alike on both sides of a map that goes through every access. -/
theorem BusMap.task {β γ : Type} [MemoryBus β] [MemoryBus γ] {f : γ → β} (hf : BusMap f)
    (cpu : Cpu) (bus : γ) (lines : InterruptLines) :
    cpu.task (f bus) lines = (cpu.task bus lines).map id f := by
  unfold Cpu.task
  -- A pending exception reads nothing. Otherwise the fetch is the one access, and the task depends
  -- on its answer only.
  cases cpu.pendingException lines with
  | some kind => rfl
  | none =>
    dsimp only
    cases cpu.cpsr.state with
    | arm =>
      dsimp only
      rw [hf.load32]
      obtain ⟨_ | code, bus'⟩ := MemoryBus.load32 bus cpu.alignPc.currentInstruction <;> rfl
    | thumb =>
      dsimp only
      rw [hf.load16]
      obtain ⟨_ | code, bus'⟩ := MemoryBus.load16 bus cpu.alignPc.currentInstruction <;> rfl

namespace Cpu

/-- The cycles of a multiplication: those of the multiplier, one for an addition and one for a
product of 64 bits. -/
def armMultiplyCycles (cpu : Cpu) : Arm.Instruction → Nat
  | .multiply i => multiplierCycles (cpu.register i.rs) true + i.accumulates.toNat
  | .multiplyLong i => multiplierCycles (cpu.register i.rs) i.isSigned + i.accumulates.toNat + 1
  | _ => 0

/-- The multiplier of a Thumb multiplication is its destination. -/
def thumbMultiplyCycles (cpu : Cpu) : Thumb.Instruction → Nat
  | .alu .mul _ rd => multiplierCycles (cpu.register rd.id) true
  | _ => 0

/-- The cycles of the multiplication that a task executes, if it does. -/
def multiplyCycles (cpu : Cpu) : Task → Nat
  | .take _ | .abort => 0
  | .arm code =>
    if cpu.cpsr.satisfies code.condition then cpu.armMultiplyCycles code.instruction else 0
  | .thumb code => cpu.thumbMultiplyCycles code.instruction

/-! ### What takes no time -/

section Free

variable (cpu : Cpu)

/-- Writing a register takes no time. -/
@[simp] theorem extraCycles_writeRegister (r : RegisterId) (value : Word) :
    (cpu.writeRegister r value).extraCycles = cpu.extraCycles := by
  unfold writeRegister
  dsimp only
  split <;> rfl

/-- Writing a base back takes no time. -/
@[simp] theorem extraCycles_writeBase (newBase : Option (RegisterId × Word)) :
    (cpu.writeBase newBase).extraCycles = cpu.extraCycles := by
  cases newBase with
  | none => rfl
  | some base => exact cpu.extraCycles_writeRegister base.1 base.2

/-- A return to the saved status takes no time. -/
@[simp] theorem extraCycles_restoreSavedStatus :
    cpu.restoreSavedStatus.extraCycles = cpu.extraCycles := by
  obtain ⟨status, hstatus⟩ := cpu.exists_restoreSavedStatus
  rw [hstatus]
  exact cpu.extraCycles_loadStatus status

/-- Entering a handler takes no time but that of the refill. -/
@[simp] theorem extraCycles_enter (kind : Exception) :
    (cpu.enter kind).extraCycles = cpu.extraCycles :=
  cpu.extraCycles_loadStatus (cpu.handlerStatus kind)

/-- An exchange takes no time. The refill that it asks for is counted at the end of the step. -/
@[simp] theorem extraCycles_branchExchange (r : RegisterId) :
    (cpu.branchExchange r).extraCycles = cpu.extraCycles :=
  cpu.extraCycles_loadStatus _

/-- A branch takes no time before its refill. -/
@[simp] theorem extraCycles_branch (link : Bool) (offset : Word) :
    (cpu.branch link offset).extraCycles = cpu.extraCycles := by
  cases link <;> rfl

/-- Taking the words of a list takes no time: their cycles are those of the accesses. -/
@[simp] theorem extraCycles_foldl_takeWord (toUser : Bool) (mode : Mode)
    (words : List (RegisterId × Word)) :
    (words.foldl (takeWord toUser mode) cpu).extraCycles = cpu.extraCycles := by
  induction words generalizing cpu with
  | nil => rfl
  | cons word rest ih =>
    have hfirst : (takeWord toUser mode cpu word).extraCycles = cpu.extraCycles := by
      unfold takeWord writeUserRegister
      split
      · split
        · rfl
        · exact cpu.extraCycles_writeRegister word.1 word.2
      · exact cpu.extraCycles_writeRegister word.1 word.2
    exact (ih _).trans hfirst

end Free

/-! ### Instructions inside the processor -/

section Inside

open Arm Thumb

variable (cpu : Cpu)

/-- A shift by a register takes one cycle. -/
@[simp] theorem extraCycles_spendShift (operand : Operand) :
    (cpu.spendShift operand).extraCycles =
      cpu.extraCycles + operand.shiftsByRegister.toNat := by
  unfold spendShift
  split
  · next h => rw [h]; rfl
  · next h => rw [Bool.eq_false_iff.mpr h]; rfl

/-- Data processing takes no other cycle, whether it returns or not. -/
theorem extraCycles_dataProcessing (i : DataProcessing) :
    (cpu.dataProcessing i).extraCycles =
      cpu.extraCycles + i.operand.shiftsByRegister.toNat := by
  have hbefore : (cpu.beforeResult i).extraCycles =
      cpu.extraCycles + i.operand.shiftsByRegister.toNat := by
    rw [← extraCycles_spendShift]
    unfold beforeResult
    dsimp only
    split
    · exact extraCycles_restoreSavedStatus _
    · split <;> rfl
  rw [dataProcessing_eq]
  split
  · exact hbefore
  · rw [extraCycles_writeRegister]
    exact hbefore

/-- A multiplication takes the cycles of the multiplier. -/
theorem extraCycles_multiply (i : Multiply) :
    (cpu.multiply i).extraCycles =
      cpu.extraCycles + cpu.armMultiplyCycles (.multiply i) := by
  unfold multiply
  dsimp only
  rw [extraCycles_writeRegister]
  show _ = cpu.extraCycles + (multiplierCycles (cpu.register i.rs) true + i.accumulates.toNat)
  cases i.accumulates <;> cases i.setFlags <;> rfl

/-- A long multiplication takes the cycles of the multiplier. -/
theorem extraCycles_multiplyLong (i : MultiplyLong) :
    (cpu.multiplyLong i).extraCycles =
      cpu.extraCycles + cpu.armMultiplyCycles (.multiplyLong i) := by
  unfold multiplyLong
  dsimp only
  rw [extraCycles_writeRegister, extraCycles_writeRegister]
  -- The execution counts the long form first.
  have hsum : 1 + multiplierCycles (cpu.register i.rs) i.isSigned + i.accumulates.toNat =
      multiplierCycles (cpu.register i.rs) i.isSigned + i.accumulates.toNat + 1 := by omega
  show _ = cpu.extraCycles +
    (multiplierCycles (cpu.register i.rs) i.isSigned + i.accumulates.toNat + 1)
  rw [← hsum]
  cases i.accumulates <;> cases i.setFlags <;> rfl

/-- A status write takes a cycle for its shift at most. -/
theorem extraCycles_writeStatus (target : StatusRegister) (mask : Word) (operand : Operand) :
    (cpu.writeStatus target mask operand).extraCycles =
      cpu.extraCycles + operand.shiftsByRegister.toNat := by
  rw [← extraCycles_spendShift]
  unfold writeStatus
  cases target with
  | cpsr => exact extraCycles_loadStatus ..
  | spsr =>
    dsimp only
    split <;> rfl

/-- Of the Thumb operations between low registers, shifts and multiplications take time. -/
theorem extraCycles_aluOperation (op : Thumb.AluOp) (rs rd : LowRegister) :
    (cpu.aluOperation op rs rd).extraCycles =
      cpu.extraCycles + (Thumb.Instruction.alu op rs rd).shiftsByRegister.toNat +
        cpu.thumbMultiplyCycles (.alu op rs rd) := by
  cases op <;> rfl

end Inside

/-! ### Instructions with accesses -/

section Memory

variable {β : Type} [MemoryBus β] {start : β}

/-- A run of `cpu` over the recorded bus `r` takes a cycle for each access that it adds to the
record, and `internal` more. -/
def Takes (internal : Nat) (cpu : Cpu) (r : Recorded start) (done : Cpu × Recorded start) : Prop :=
  ∃ made, done.2.accesses = r.accesses ++ made ∧
    done.1.extraCycles = cpu.extraCycles + made.length + internal

variable {cpu : Cpu} {r : Recorded start}

/-- What stays inside the processor adds nothing to the record. -/
theorem Takes.inside {internal : Nat} {after : Cpu}
    (h : after.extraCycles = cpu.extraCycles + internal) : Takes internal cpu r (after, r) :=
  ⟨[], (List.append_nil _).symm, h⟩

/-- As many accesses are paid for as have been added. -/
theorem Takes.of_made {made : List BusAccess} {after : Cpu} {r' : Recorded start}
    (hmade : r'.accesses = r.accesses ++ made)
    (h : after.extraCycles = cpu.extraCycles + made.length) : Takes 0 cpu r (after, r') :=
  ⟨made, hmade, h⟩

/-- Whatever a load does to its address, it makes one access. -/
theorem exists_access_load (kind : Load) (r : Recorded start) (address : Word) :
    ∃ access, (kind.run r address).2.accesses = r.accesses ++ [access] := by
  cases kind with
  | word | half | byte | signedByte => exact ⟨_, rfl⟩
  | signedHalf =>
    unfold Load.run
    dsimp only
    split
    · exact ⟨.load8 address, rfl⟩
    · exact ⟨.load16 address, rfl⟩

/-- A store makes exactly one access. -/
theorem exists_access_store (kind : Store) (r : Recorded start) (address value : Word) :
    ∃ access, (kind.run r address value).2.accesses = r.accesses ++ [access] := by
  cases kind <;> exact ⟨_, rfl⟩

/-- A load takes one cycle for its access, and no other. -/
theorem takes_loadRegister (kind : Load) (address : Word)
    (newBase : Option (RegisterId × Word)) (rd : RegisterId) :
    Takes 0 cpu r (cpu.loadRegister r kind address newBase rd) := by
  obtain ⟨access, haccess⟩ := exists_access_load kind r address
  unfold loadRegister
  generalize kind.run r address = answer at haccess ⊢
  obtain ⟨_ | value, r'⟩ := answer
  · exact .of_made haccess (extraCycles_enter ..)
  · refine .of_made haccess ?_
    rw [extraCycles_writeRegister, extraCycles_writeBase]
    rfl

/-- A store takes one cycle for its access, and no other. -/
theorem takes_storeValue (kind : Store) (address value : Word)
    (newBase : Option (RegisterId × Word)) :
    Takes 0 cpu r (cpu.storeValue r kind address value newBase) := by
  obtain ⟨access, haccess⟩ := exists_access_store kind r address value
  unfold storeValue
  generalize kind.run r address value = answer at haccess ⊢
  obtain ⟨_ | _, r'⟩ := answer
  · exact .of_made haccess (extraCycles_enter ..)
  · exact .of_made haccess (extraCycles_writeBase ..)

/-- A swap whose load fails is one access short. -/
theorem takes_swap (i : Arm.Swap) : Takes 0 cpu r (cpu.swap r i) := by
  obtain ⟨first, hfirst⟩ := exists_access_load i.quantity.load r (cpu.register i.rn)
  rw [swap_eq]
  -- Refused at the load, refused at the store, or done: one access or two.
  generalize i.quantity.load.run r (cpu.register i.rn) = loaded at hfirst ⊢
  obtain ⟨_ | old, r'⟩ := loaded
  · exact .of_made hfirst (extraCycles_enter ..)
  · dsimp only
    obtain ⟨second, hsecond⟩ :=
      exists_access_store i.quantity.store r' (cpu.register i.rn) (cpu.register i.rm)
    generalize i.quantity.store.run r' (cpu.register i.rn) (cpu.register i.rm) = stored
      at hsecond ⊢
    have hboth : stored.2.accesses = r.accesses ++ [first, second] := by
      rw [hsecond, show r'.accesses = r.accesses ++ [first] from hfirst, List.append_assoc]
      rfl
    obtain ⟨_ | _, r''⟩ := stored
    · exact .of_made hboth (extraCycles_enter ..)
    · exact .of_made hboth (extraCycles_writeRegister ..)

/-- A list that is given up has paid for the accesses it has made, the failing one included. -/
theorem takes_storeBlock (t : BlockTransfer) : Takes 0 cpu r (cpu.storeBlock r t) := by
  let address := blockStart t (cpu.register t.base)
  let values := (blockRegisters t).map (cpu.listedValue t)
  obtain ⟨hmade, hle⟩ := accesses_storeWords r address values
  have hlength :
      ((wordStores address values).take (storeWords r address values).1.accesses).length =
        (storeWords r address values).1.accesses := by
    rw [List.length_take, length_wordStores]
    exact Nat.min_eq_left hle
  rw [storeBlock_eq]
  dsimp only
  split
  · refine .of_made hmade ?_
    rw [extraCycles_writeBase, hlength]
    rfl
  · refine .of_made hmade ?_
    rw [extraCycles_enter, hlength]
    rfl

/-- A list load takes a cycle for each access that it makes, also when it is given up. -/
theorem takes_loadBlock (t : BlockTransfer) : Takes 0 cpu r (cpu.loadBlock r t) := by
  let address := blockStart t (cpu.register t.base)
  let words := loadWords r address (blockRegisters t).length
  let based := (cpu.writeBase (cpu.blockBase? t)).spend words.1.accesses
  let done := ((blockRegisters t).zip words.1.outcome).foldl
    (takeWord (loadsUser t) cpu.cpsr.mode) based
  obtain ⟨hmade, hle⟩ := accesses_loadWords r address (blockRegisters t).length
  -- The words that are taken and the new base are free. What is counted is the accesses.
  have hdone : done.extraCycles = cpu.extraCycles +
      ((wordLoads address (blockRegisters t).length).take words.1.accesses).length := by
    rw [List.length_take, length_wordLoads, Nat.min_eq_left hle]
    show (List.foldl _ based _).extraCycles = _
    rw [extraCycles_foldl_takeWord]
    show (cpu.writeBase (cpu.blockBase? t)).extraCycles + _ = _
    rw [extraCycles_writeBase]
  rw [loadBlock_eq]
  dsimp only
  split
  · refine .of_made hmade ?_
    rw [extraCycles_enter]
    exact hdone
  split
  · refine .of_made hmade ?_
    rw [extraCycles_restoreSavedStatus]
    exact hdone
  · exact .of_made hmade hdone

/-- A list transfer takes a cycle for each access in either direction. -/
theorem takes_transferBlock (t : BlockTransfer) : Takes 0 cpu r (cpu.transferBlock r t) := by
  unfold transferBlock
  cases t.direction with
  | store => exact takes_storeBlock t
  | load => exact takes_loadBlock t

/-- The transfers of low registers take the cycle of their access. -/
theorem takes_transferLow (direction : Direction) (quantity : Quantity) (address : Word)
    (rd : Thumb.LowRegister) : Takes 0 cpu r (cpu.transferLow r direction quantity address rd) := by
  cases direction with
  | load => cases quantity <;> exact takes_loadRegister ..
  | store => cases quantity <;> exact takes_storeValue ..

/-- The transfers of halfwords and signed values take the cycle of their access. -/
theorem takes_transferLowSigned (transfer : Thumb.SignedTransfer) (address : Word)
    (rd : Thumb.LowRegister) : Takes 0 cpu r (cpu.transferLowSigned r transfer address rd) := by
  cases transfer with
  | storeHalf => exact takes_storeValue ..
  | loadHalf | loadSignedByte | loadSignedHalf => exact takes_loadRegister ..

/-! ### Both instruction sets -/

variable (cpu r)

/-- An ARM instruction takes its accesses, its shift and its multiplication. -/
theorem takes_performArm (i : Arm.Instruction) :
    Takes (i.shiftsByRegister.toNat + cpu.armMultiplyCycles i) cpu r (cpu.performArm r i) := by
  cases i with
  | dataProcessing i => exact .inside (cpu.extraCycles_dataProcessing i)
  | multiply i =>
    refine .inside ((cpu.extraCycles_multiply i).trans ?_)
    exact congrArg _ (Nat.zero_add _).symm
  | multiplyLong i =>
    refine .inside ((cpu.extraCycles_multiplyLong i).trans ?_)
    exact congrArg _ (Nat.zero_add _).symm
  | readStatus source rd => exact .inside (cpu.extraCycles_writeRegister rd _)
  | writeStatus target mask operand =>
    exact .inside (cpu.extraCycles_writeStatus target mask operand)
  | swap i => exact takes_swap i
  | branchExchange rs => exact .inside (cpu.extraCycles_branchExchange rs)
  | halfwordTransfer i =>
    unfold performArm halfwordTransfer
    dsimp only
    cases i.direction with
    | load => exact takes_loadRegister ..
    | store => exact takes_storeValue ..
  | singleTransfer i =>
    unfold performArm singleTransfer
    dsimp only
    cases i.direction with
    | load => cases i.quantity <;> exact takes_loadRegister ..
    | store => cases i.quantity <;> exact takes_storeValue ..
  | blockTransfer t => exact takes_transferBlock t
  | branch link offset => exact .inside (cpu.extraCycles_branch link offset)
  | softwareInterrupt comment => exact .inside (cpu.extraCycles_enter .softwareInterrupt)
  | undefined => exact .inside (cpu.extraCycles_enter .undefined)

/-- A Thumb instruction takes its accesses, its shift and its multiplication. -/
theorem takes_performThumb (i : Thumb.Instruction) :
    Takes (i.shiftsByRegister.toNat + cpu.thumbMultiplyCycles i) cpu r
      (cpu.performThumb r i) := by
  cases i with
  | shift kind amount rs rd => exact .inside rfl
  | addSubtract subtract addend rs rd => exact .inside rfl
  | immediate op rd value => cases op <;> exact .inside rfl
  | alu op rs rd =>
    exact .inside ((cpu.extraCycles_aluOperation op rs rd).trans (Nat.add_assoc ..))
  | high op rs rd =>
    cases op with
    | add | mov => exact .inside (cpu.extraCycles_writeRegister rd _)
    | cmp => exact .inside rfl
    | bx => exact .inside (cpu.extraCycles_branchExchange rs)
  | loadLiteral rd offset => exact takes_loadRegister ..
  | transferIndexed direction quantity index base rd => exact takes_transferLow ..
  | transferSigned transfer index base rd => exact takes_transferLowSigned ..
  | transferOffset direction quantity offset base rd => exact takes_transferLow ..
  | transferHalf direction offset base rd =>
    cases direction with
    | load | store => exact takes_transferLowSigned ..
  | transferStack direction rd offset => exact takes_transferLow ..
  | loadAddress base rd offset => exact .inside rfl
  | moveStack offsetting offset => exact .inside rfl
  | push registers link => exact takes_transferBlock _
  | pop registers pc => exact takes_transferBlock _
  | transferBlock direction base registers => exact takes_transferBlock _
  | conditionalBranch condition offset =>
    unfold performThumb
    dsimp only
    split
    · exact .inside (cpu.extraCycles_branch false offset)
    · exact .inside rfl
  | softwareInterrupt comment => exact .inside (cpu.extraCycles_enter .softwareInterrupt)
  | branch offset => exact .inside (cpu.extraCycles_branch false offset)
  | callUpper offset => exact .inside rfl
  | callLower offset => exact .inside rfl
  | undefined => exact .inside (cpu.extraCycles_enter .undefined)

/-! ### The step -/

/-- A task takes the time of the instruction that it executes, if any. -/
theorem takes_carryOut (task : Task) :
    Takes ((task.shifts cpu.alignPc).toNat + cpu.alignPc.multiplyCycles task) cpu r
      (cpu.carryOut r task) := by
  cases task with
  | take kind => exact .inside (cpu.extraCycles_enter kind)
  | abort => exact .inside (extraCycles_enter cpu.alignPc .prefetchAbort)
  | arm code =>
    show Takes ((_ && _ : Bool).toNat + ite _ _ _) cpu r (cpu.alignPc.executeArm r code)
    unfold executeArm
    split
    · next h =>
      rw [h, Bool.true_and]
      exact takes_performArm cpu.alignPc r code.instruction
    · next h =>
      rw [Bool.eq_false_iff.mpr h]
      exact .inside rfl
  | thumb code => exact takes_performThumb cpu.alignPc r code.instruction

end Memory

/-- The access that fetches the code of a step. A step that takes a pending exception makes
none. -/
def fetch? (cpu : Cpu) (lines : InterruptLines) : Option BusAccess :=
  match cpu.pendingException lines with
  | some _ => none
  | none =>
    match cpu.cpsr.state with
    | .arm => some (.load32 cpu.fetchAddress)
    | .thumb => some (.load16 cpu.fetchAddress)

section Step

variable {β : Type} [MemoryBus β] (cpu : Cpu) (bus : β) (lines : InterruptLines)

/-- Before the fetch nothing is on the record, and after it nothing else. -/
theorem accesses_task :
    (cpu.task (Recorded.blank bus) lines).2.accesses = (cpu.fetch? lines).toList := by
  unfold task fetch?
  -- The fetch is recorded whether or not it is answered.
  cases cpu.pendingException lines with
  | some kind => rfl
  | none =>
    dsimp only
    cases cpu.cpsr.state with
    | arm =>
      dsimp only
      generalize hfetched : MemoryBus.load32 (Recorded.blank bus) _ = fetched
      have hnoted : fetched.2.accesses = [.load32 cpu.fetchAddress] := by
        rw [← hfetched]
        rfl
      obtain ⟨_ | code, r⟩ := fetched <;> exact hnoted
    | thumb =>
      dsimp only
      generalize hfetched : MemoryBus.load16 (Recorded.blank bus) _ = fetched
      have hnoted : fetched.2.accesses = [.load16 cpu.fetchAddress] := by
        rw [← hfetched]
        rfl
      obtain ⟨_ | code, r⟩ := fetched <;> exact hnoted

/-- The refill of the pipeline takes two cycles. -/
theorem extraCycles_advance (cpu : Cpu) :
    cpu.advance.extraCycles = cpu.extraCycles + 2 * cpu.advance.flushed.toNat := by
  -- The mark stays set until the next step begins.
  unfold advance
  cases h : cpu.flushed with
  | true =>
    rw [if_pos rfl]
    show cpu.extraCycles + 2 = cpu.extraCycles + 2 * cpu.flushed.toNat
    rw [h]
    rfl
  | false =>
    rw [if_neg Bool.false_ne_true]
    show cpu.extraCycles = cpu.extraCycles + 2 * cpu.flushed.toNat
    rw [h]
    rfl

/-- The mark of the pipeline at the end of a step says whether it has redirected R15. -/
theorem flushed_step :
    (cpu.step bus lines).2.1.flushed = (cpu.target? bus lines).isSome := by
  cases htarget : cpu.target? bus lines with
  | none => exact (cpu.step_of_stay bus lines htarget).1
  | some target => exact (cpu.step_of_jump bus lines htarget).1

/-- The step over a recording bus begins with the task of the step over the bus itself, and a run
of the task that is on the record. -/
theorem step_blank :
    let task := (cpu.task bus lines).1
    let done := cpu.beginStep.carryOut (cpu.task (Recorded.blank bus) lines).2 task
    cpu.accesses bus lines = done.2.accesses ∧
      (cpu.step bus lines).1 = 1 + done.1.advance.extraCycles ∧
      (cpu.step bus lines).2.1 = done.1.advance := by
  intro task done
  -- Recording changes no answer, so the step over the recording bus is the step itself with its
  -- accesses noted.
  have htask : (cpu.task (Recorded.blank bus) lines).1 = task :=
    (congrArg Prod.fst ((Recorded.busMap bus).task cpu (Recorded.blank bus) lines)).symm
  have hblank : cpu.step (Recorded.blank bus) lines =
      (done.1.advance.stepCycles, done.1.advance, done.2) := by
    rw [step_eq, htask]
  have hstep : cpu.step bus lines =
      (cpu.step (Recorded.blank bus) lines).map id (Prod.map id Recorded.bus) :=
    (Recorded.busMap bus).step cpu (Recorded.blank bus) lines
  rw [hblank] at hstep
  refine ⟨?_, ?_, ?_⟩
  · unfold accesses
    rw [hblank]
  · rw [hstep]
    rfl
  · rw [hstep]
    rfl

/-- The length of a step by what it has done. -/
theorem exists_cycles_step :
    ∃ made,
      cpu.accesses bus lines = (cpu.fetch? lines).toList ++ made ∧
      (cpu.step bus lines).1 =
        1 + made.length + 2 * (cpu.target? bus lines).isSome.toNat +
          ((cpu.task bus lines).1.shifts cpu.alignPc).toNat +
          cpu.alignPc.multiplyCycles (cpu.task bus lines).1 := by
  let task := (cpu.task bus lines).1
  let fetched := (cpu.task (Recorded.blank bus) lines).2
  -- The fetch is recorded before the task, so `made` is what the task itself is charged for.
  obtain ⟨haccesses, hcycles, hafter⟩ := cpu.step_blank bus lines
  obtain ⟨made, hmade, hspent⟩ := takes_carryOut cpu.beginStep fetched task
  have hflushed : (cpu.beginStep.carryOut fetched task).1.advance.flushed =
      (cpu.target? bus lines).isSome := by
    rw [← flushed_step, hafter]
  refine ⟨made, ?_, ?_⟩
  · rw [haccesses, hmade]
    exact congrArg (· ++ made) (cpu.accesses_task bus lines)
  · -- The counts of the step before are cleared, which no task looks at.
    have hinternal : (task.shifts cpu.beginStep.alignPc).toNat +
        cpu.beginStep.alignPc.multiplyCycles task =
        ((cpu.task bus lines).1.shifts cpu.alignPc).toNat +
          cpu.alignPc.multiplyCycles (cpu.task bus lines).1 := rfl
    have hbegin : cpu.beginStep.extraCycles = 0 := rfl
    rw [hcycles, extraCycles_advance, hspent, hbegin, hinternal, hflushed]
    omega

/-- An instruction whose condition fails does nothing that takes time, and leaves the record as
the fetch has left it. -/
theorem skipped_of_not_satisfied {code : Arm.Opcode}
    (htask : (cpu.task bus lines).1 = .arm code)
    (hfails : cpu.cpsr.satisfies code.condition = false) :
    cpu.accesses bus lines = (cpu.fetch? lines).toList ∧ cpu.target? bus lines = none ∧
      (cpu.task bus lines).1.shifts cpu.alignPc = false ∧
      cpu.alignPc.multiplyCycles (cpu.task bus lines).1 = 0 := by
  -- A code whose condition fails is fetched, and then it does nothing.
  have hskips : ¬ cpu.cpsr.satisfies code.condition = true := Bool.eq_false_iff.mp hfails
  refine ⟨?_, ?_, ?_, ?_⟩
  · have hkept : (cpu.beginStep.carryOut (cpu.task (Recorded.blank bus) lines).2
        (.arm code)).2 = (cpu.task (Recorded.blank bus) lines).2 :=
      congrArg Prod.snd (if_neg hskips)
    rw [(cpu.step_blank bus lines).1, htask, hkept]
    exact cpu.accesses_task bus lines
  · unfold target?
    rw [show cpu.task bus lines = (.arm code, _) from Prod.ext htask rfl]
    exact if_neg hskips
  · rw [htask]
    show (cpu.cpsr.satisfies code.condition && _) = false
    rw [hfails, Bool.false_and]
  · rw [htask]
    exact if_neg hskips

/-- A step takes one cycle for its fetch, one for each other access that it makes, failing ones
included, two for the refill of the pipeline if it redirects R15 or enters an exception, one for
a shift by a register, and the time of its multiplication. -/
theorem cycles_step :
    ∃ made,
      cpu.accesses bus lines = (cpu.fetch? lines).toList ++ made ∧
      (cpu.step bus lines).1 =
        1 + made.length + 2 * (cpu.target? bus lines).isSome.toNat +
          ((cpu.task bus lines).1.shifts cpu.alignPc).toNat +
          cpu.alignPc.multiplyCycles (cpu.task bus lines).1 ∧
      ∀ code, (cpu.task bus lines).1 = .arm code → cpu.cpsr.satisfies code.condition = false →
        made = [] ∧ (cpu.step bus lines).1 = 1 := by
  obtain ⟨made, haccesses, hcycles⟩ := cpu.exists_cycles_step bus lines
  refine ⟨made, haccesses, hcycles, fun code htask hfails => ?_⟩
  obtain ⟨hfetch, htarget, hshifts, hmultiplies⟩ :=
    cpu.skipped_of_not_satisfied bus lines htask hfails
  have hnone : made = [] := by
    rw [hfetch] at haccesses
    exact List.append_cancel_left (haccesses.symm.trans (List.append_nil _).symm)
  rw [hcycles, hnone, hshifts, hmultiplies, htarget]
  exact ⟨rfl, rfl⟩

/-- In `LDMIA R2, {R1, R3}` the second load fails, so there are two accesses and the refill for
the handler. -/
example : ((atZero.setRegister 2 0x3FFC).step (romOf 0xE892000A) {}).1 = 1 + 2 + 2 := by
  decide

end Step

end Cpu

end AdvanceCore
