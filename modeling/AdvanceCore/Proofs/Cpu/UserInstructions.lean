import AdvanceCore.Proofs.Cpu.ThumbAsArm
import AdvanceCore.Proofs.Cpu.UserMode

/-!
# `AdvanceCore.Proofs.Cpu.UserInstructions`: how instructions end in User mode

An instruction either goes on, which leaves the privilege and what is hidden alone, or enters
an exception. Which exception that can be is fixed by its kind: accesses to memory may fail,
two instructions trap always, and the others never do.

* `Arm.Instruction.trap?`, `Thumb.Instruction.trap?`: the exception an instruction may enter.
* `Confined`: the two ways to end, whatever is hidden.
* `confined_performArm`, `confined_performThumb`: every instruction of both sets.
* `LoadsAll`, `confined_loadBlock`: a load of a register list goes on if its words all arrive.
-/

set_option autoImplicit false

namespace AdvanceCore

/-! ### Which exception an instruction may enter -/

/-- An instruction that stays inside the processor enters none. -/
def Arm.Instruction.trap? : Arm.Instruction → Option Exception
  | .dataProcessing _ | .multiply _ | .multiplyLong _ | .readStatus .. | .writeStatus ..
  | .branchExchange _ | .branch .. => none
  | .swap _ | .halfwordTransfer _ | .singleTransfer _ | .blockTransfer _ => some .dataAbort
  | .softwareInterrupt _ => some .softwareInterrupt
  | .undefined => some .undefined

/-- An instruction that stays inside the processor enters none. -/
def Thumb.Instruction.trap? : Thumb.Instruction → Option Exception
  | .shift .. | .addSubtract .. | .immediate .. | .alu .. | .high .. | .loadAddress ..
  | .moveStack .. | .conditionalBranch .. | .branch _ | .callUpper _ | .callLower _ => none
  | .loadLiteral .. | .transferIndexed .. | .transferSigned .. | .transferOffset ..
  | .transferHalf .. | .transferStack .. | .push .. | .pop .. | .transferBlock .. =>
    some .dataAbort
  | .softwareInterrupt _ => some .softwareInterrupt
  | .undefined => some .undefined

/-- The load that moves a quantity. -/
def Quantity.load : Quantity → Load
  | .word => .word
  | .byte => .byte

/-- The store that moves a quantity. -/
def Quantity.store : Quantity → Store
  | .word => .word
  | .byte => .byte

namespace Cpu

variable {β : Type}

/-- `run` goes on from `cpu` or enters the exception in `trap?`. It does the same, on the
processor and on the bus, whatever is hidden, and what is hidden is kept until the exception
is entered. -/
inductive Confined (trap? : Option Exception) (cpu : Cpu) (run : Cpu → Cpu × β) : Prop where
  | goesOn (next : Cpu) (bus : β) (privilege : Psr.SamePrivilege cpu.cpsr next.cpsr)
      (same : ∀ h, run (cpu.withHidden h) = (next.withHidden h, bus))
  | traps (stopped : Cpu) (bus : β) (kind : Exception) (cause : trap? = some kind)
      (status : stopped.cpsr = cpu.cpsr)
      (same : ∀ h, run (cpu.withHidden h) = ((stopped.withHidden h).enter kind, bus))

namespace Confined

variable {trap? : Option Exception} {cpu : Cpu} {run run' : Cpu → Cpu × β}

/-- Only the runs from `cpu` count. -/
theorem congr (hrun : Confined trap? cpu run)
    (heq : ∀ h, run' (cpu.withHidden h) = run (cpu.withHidden h)) : Confined trap? cpu run' := by
  cases hrun with
  | goesOn next bus privilege same =>
    exact .goesOn next bus privilege fun h => (heq h).trans (same h)
  | traps stopped bus kind cause status same =>
    exact .traps stopped bus kind cause status fun h => (heq h).trans (same h)

/-- A preparation that does not touch the status or what is hidden may come first. -/
theorem of_prepared {prepare : Cpu → Cpu} (hrun : Confined trap? (prepare cpu) run)
    (hstatus : (prepare cpu).cpsr = cpu.cpsr)
    (hprepare : ∀ h, prepare (cpu.withHidden h) = (prepare cpu).withHidden h) :
    Confined trap? cpu fun c => run (prepare c) := by
  cases hrun with
  | goesOn next bus privilege same =>
    rw [hstatus] at privilege
    exact .goesOn next bus privilege fun h => by rw [hprepare, same]
  | traps stopped bus kind cause status same =>
    exact .traps stopped bus kind cause (status.trans hstatus) fun h => by rw [hprepare, same]

/-- A function that stays inside the processor goes on. -/
theorem of_confines {f : Cpu → Cpu} (hf : Confines cpu f) (bus : β) :
    Confined trap? cpu fun c => (f c, bus) :=
  .goesOn (f cpu) bus hf.privilege fun h => by rw [hf.blind]

/-- An instruction that always traps enters its exception at once. -/
theorem of_enter (kind : Exception) (bus : β) :
    Confined (some kind) cpu fun c => (c.enter kind, bus) :=
  .traps cpu bus kind rfl rfl fun _ => rfl

end Confined

variable [MemoryBus β] {cpu : Cpu}

/-! ### Single transfers -/

/-- A load goes on with its value, or enters the data abort handler. -/
theorem confined_loadRegister (bus : β) (load : Load) (address : Word)
    (newBase : Option (RegisterId × Word)) (r : RegisterId) :
    Confined (some .dataAbort) cpu fun c => c.loadRegister bus load address newBase r := by
  -- The bus answers by the address alone, whatever is hidden.
  obtain ⟨answer, bus', hload⟩ : ∃ answer bus', load.run bus address = (answer, bus') :=
    ⟨_, _, rfl⟩
  cases answer with
  | none =>
    refine .traps (cpu.spend 1) bus' .dataAbort rfl rfl fun h => ?_
    unfold loadRegister
    rw [hload]
    rfl
  | some value =>
    refine .goesOn (((cpu.spend 1).writeBase newBase).writeRegister r value) bus' ?_ fun h => ?_
    · rw [cpsr_writeRegister, cpsr_writeBase]
      exact .refl _
    · unfold loadRegister
      rw [hload]
      simp only [spend_withHidden, writeBase_withHidden, writeRegister_withHidden]

/-- A store goes on, or enters the data abort handler. -/
theorem confined_storeValue (bus : β) (store : Store) (address value : Word)
    (newBase : Option (RegisterId × Word)) :
    Confined (some .dataAbort) cpu fun c => c.storeValue bus store address value newBase := by
  obtain ⟨accepted, bus', hstore⟩ :
      ∃ accepted bus', store.run bus address value = (accepted, bus') := ⟨_, _, rfl⟩
  -- The answer of the bus does not depend on the hidden registers, so both runs take the same case.
  cases accepted with
  | false =>
    refine .traps (cpu.spend 1) bus' .dataAbort rfl rfl fun h => ?_
    unfold storeValue
    rw [hstore]
    rfl
  | true =>
    refine .goesOn ((cpu.spend 1).writeBase newBase) bus' ?_ fun h => ?_
    · rw [cpsr_writeBase]
      exact .refl _
    · unfold storeValue
      rw [hstore]
      simp only [spend_withHidden, writeBase_withHidden]

/-- A swap loads and stores one quantity. -/
theorem swap_eq (cpu : Cpu) (bus : β) (i : Arm.Swap) :
    cpu.swap bus i =
      match i.quantity.load.run bus (cpu.register i.rn) with
      | (none, bus) => ((cpu.spend 1).enter .dataAbort, bus)
      | (some old, bus) =>
        match i.quantity.store.run bus (cpu.register i.rn) (cpu.register i.rm) with
        | (false, bus) => ((cpu.spend 2).enter .dataAbort, bus)
        | (true, bus) => ((cpu.spend 2).writeRegister i.rd old, bus) := by
  unfold swap
  cases i.quantity with
  | word => rfl
  | byte => rfl

/-- A swap goes on if both accesses succeed. -/
theorem confined_swap (bus : β) (i : Arm.Swap) :
    Confined (some .dataAbort) cpu fun c => c.swap bus i := by
  simp only [swap_eq]
  -- Both accesses see registers only, so every run makes the same ones.
  obtain ⟨answer, bus', hload⟩ :
      ∃ answer bus', i.quantity.load.run bus (cpu.register i.rn) = (answer, bus') := ⟨_, _, rfl⟩
  cases answer with
  | none =>
    refine .traps (cpu.spend 1) bus' .dataAbort rfl rfl fun h => ?_
    simp only [register_withHidden, hload, spend_withHidden]
  | some old =>
    obtain ⟨accepted, bus'', hstore⟩ : ∃ accepted bus'',
        i.quantity.store.run bus' (cpu.register i.rn) (cpu.register i.rm) = (accepted, bus'') :=
      ⟨_, _, rfl⟩
    cases accepted with
    | false =>
      refine .traps (cpu.spend 2) bus'' .dataAbort rfl rfl fun h => ?_
      simp only [register_withHidden, hload, hstore, spend_withHidden]
    | true =>
      refine .goesOn ((cpu.spend 2).writeRegister i.rd old) bus'' ?_ fun h => ?_
      · rw [cpsr_writeRegister]
        exact .refl _
      · simp only [register_withHidden, hload, hstore, spend_withHidden,
          writeRegister_withHidden]

/-- A halfword transfer is a load or a store at an address from live registers. -/
theorem confined_halfwordTransfer (bus : β) (i : Arm.HalfwordTransfer) :
    Confined (some .dataAbort) cpu fun c => c.halfwordTransfer bus i := by
  let transfer := cpu.transferAddress i.base i.indexing i.offsetting i.writeBack
    (cpu.halfwordIndex i.offset)
  cases hdirection : i.direction with
  | load =>
    refine (confined_loadRegister bus (halfwordLoad i.kind) transfer.1 transfer.2 i.rd).congr
      fun h => ?_
    unfold halfwordTransfer
    rw [hdirection]
    rfl
  | store =>
    refine (confined_storeValue bus .half transfer.1 (cpu.storedRegister i.rd) transfer.2).congr
      fun h => ?_
    unfold halfwordTransfer
    rw [hdirection]
    rfl

/-- A single transfer is a load or a store at an address from live registers. -/
theorem confined_singleTransfer (bus : β) (i : Arm.SingleTransfer) :
    Confined (some .dataAbort) cpu fun c => c.singleTransfer bus i := by
  let transfer := cpu.transferAddress i.base i.indexing i.offsetting i.writeBack
    (cpu.singleIndex i.offset)
  cases hdirection : i.direction with
  | load =>
    refine (confined_loadRegister bus i.quantity.load transfer.1 transfer.2 i.rd).congr fun h => ?_
    unfold singleTransfer
    rw [hdirection]
    cases i.quantity <;> rfl
  | store =>
    refine (confined_storeValue bus i.quantity.store transfer.1 (cpu.storedRegister i.rd)
      transfer.2).congr fun h => ?_
    unfold singleTransfer
    rw [hdirection]
    cases i.quantity <;> rfl

/-! ### Register lists

In User mode the User registers are the live ones, so the S bit changes nothing. -/

/-- No User register is stored while User mode is current. -/
theorem userRegister?_user (bank : RegisterBank) (r : RegisterId) :
    bank.userRegister? .user r = none := by
  unfold RegisterBank.userRegister?
  split
  · rfl
  · exact if_pos rfl

/-- No User register can be written to the bank while User mode is current. -/
theorem setUserRegister?_user (bank : RegisterBank) (r : RegisterId) (value : Word) :
    bank.setUserRegister? .user r value = none := by
  unfold RegisterBank.setUserRegister?
  split
  · rfl
  · exact if_pos rfl

/-- The User copy of a register is the live one. -/
theorem userStoredRegister_of_user (huser : cpu.cpsr.mode = .user) (r : RegisterId) :
    cpu.userStoredRegister r = cpu.storedRegister r := by
  unfold userStoredRegister
  rw [huser, userRegister?_user]
  rfl

/-- Writing it writes the live one. -/
theorem writeUserRegister_user (cpu : Cpu) (r : RegisterId) (value : Word) :
    cpu.writeUserRegister .user r value = cpu.writeRegister r value := by
  unfold writeUserRegister
  rw [setUserRegister?_user]

/-- The writes of a register list, one after the other. -/
def writeAll (cpu : Cpu) (loaded : List (RegisterId × Word)) : Cpu :=
  loaded.foldl (fun c l => c.writeRegister l.1 l.2) cpu

/-- Writing several live registers commutes with replacing what is hidden. -/
theorem writeAll_withHidden (cpu : Cpu) (h : Hidden) (loaded : List (RegisterId × Word)) :
    (cpu.withHidden h).writeAll loaded = (cpu.writeAll loaded).withHidden h := by
  induction loaded generalizing cpu with
  | nil => rfl
  | cons l rest ih =>
    show writeAll ((cpu.withHidden h).writeRegister l.1 l.2) rest = _
    rw [writeRegister_withHidden, ih]
    rfl

/-- Writing several live registers leaves the status. -/
theorem cpsr_writeAll (cpu : Cpu) (loaded : List (RegisterId × Word)) :
    (cpu.writeAll loaded).cpsr = cpu.cpsr := by
  induction loaded generalizing cpu with
  | nil => rfl
  | cons l rest ih => exact (ih (cpu.writeRegister l.1 l.2)).trans (cpsr_writeRegister ..)

/-- The new base of a register list, if it is written. -/
def blockBase? (cpu : Cpu) (t : BlockTransfer) : Option (RegisterId × Word) :=
  if t.writeBack then some (t.base, t.offsetting.apply (cpu.register t.base) (blockSize t))
  else none

/-- The write-back of a list is the write of a base. -/
theorem ite_writeBack (cpu next : Cpu) (t : BlockTransfer) :
    (if t.writeBack then
        next.writeRegister t.base (t.offsetting.apply (cpu.register t.base) (blockSize t))
      else next) = next.writeBase (cpu.blockBase? t) := by
  unfold blockBase?
  split <;> rfl

/-- The value of a register in a list to store. -/
def blockValue (cpu : Cpu) (t : BlockTransfer) (r : RegisterId) : Word :=
  if r = t.base ∧ t.writeBack ∧ (blockRegisters t).head? ≠ some r then
    t.offsetting.apply (cpu.register t.base) (blockSize t)
  else cpu.storedRegister r

/-- In User mode a list store stores the live registers, with or without the S bit. -/
theorem storeBlock_of_user (huser : cpu.cpsr.mode = .user) (bus : β) (t : BlockTransfer) :
    cpu.storeBlock bus t =
      let words := storeWords bus (blockStart t (cpu.register t.base))
        ((blockRegisters t).map (cpu.blockValue t))
      let next := cpu.spend words.1.accesses
      if words.1.outcome then (next.writeBase (cpu.blockBase? t), words.2)
      else (next.enter .dataAbort, words.2) := by
  have hstored (r : RegisterId) :
      (if t.statusBit then cpu.userStoredRegister r else cpu.storedRegister r) =
        cpu.storedRegister r := by
    rw [userStoredRegister_of_user huser, ite_self]
  unfold storeBlock
  simp only [hstored, ite_writeBack]
  rfl

/-- In User mode a list load writes the live registers, with or without the S bit. -/
theorem loadBlock_of_user (huser : cpu.cpsr.mode = .user) (bus : β) (t : BlockTransfer) :
    cpu.loadBlock bus t =
      let words := loadWords bus (blockStart t (cpu.register t.base)) (blockRegisters t).length
      let next := ((cpu.writeBase (cpu.blockBase? t)).spend words.1.accesses).writeAll
        ((blockRegisters t).zip words.1.outcome)
      if words.1.outcome.length < (blockRegisters t).length then
        (next.enter .dataAbort, words.2)
      else (next, words.2) := by
  -- The S bit asks for the User registers or for the saved status, by whether the list has R15.
  have hwrite (c : Cpu) (r : RegisterId) (value : Word) (stored : Bool) :
      (if stored then c.writeUserRegister cpu.cpsr.mode r value else c.writeRegister r value) =
        c.writeRegister r value := by
    rw [huser, writeUserRegister_user, ite_self]
  have hfold (c : Cpu) (loaded : List (RegisterId × Word)) :
      loaded.foldl (fun c l => c.writeRegister l.1 l.2) c = c.writeAll loaded := rfl
  have hrestore (cycles : Nat) (loaded : List (RegisterId × Word)) :
      (((cpu.writeBase (cpu.blockBase? t)).spend cycles).writeAll loaded).restoreSavedStatus =
        ((cpu.writeBase (cpu.blockBase? t)).spend cycles).writeAll loaded := by
    refine restoreSavedStatus_of_user ?_
    rw [cpsr_writeAll]
    show (cpu.writeBase _).cpsr.mode = _
    rw [cpsr_writeBase, huser]
  unfold loadBlock
  simp only [ite_writeBack, hwrite, hfold, hrestore, ite_self]

/-- A list store goes on if every word is accepted. -/
theorem confined_storeBlock (huser : cpu.cpsr.mode = .user) (bus : β) (t : BlockTransfer) :
    Confined (some .dataAbort) cpu fun c => c.storeBlock bus t := by
  let words := storeWords bus (blockStart t (cpu.register t.base))
    ((blockRegisters t).map (cpu.blockValue t))
  let stored := cpu.spend words.1.accesses
  -- Every run stores the same words, since they come from live registers.
  have hrun (h : Hidden) : (cpu.withHidden h).storeBlock bus t =
      if words.1.outcome then ((stored.withHidden h).writeBase (cpu.blockBase? t), words.2)
      else ((stored.withHidden h).enter .dataAbort, words.2) := by
    have huser' : (cpu.withHidden h).cpsr.mode = .user := huser
    exact storeBlock_of_user huser' bus t
  cases houtcome : words.1.outcome with
  | true =>
    refine .goesOn (stored.writeBase (cpu.blockBase? t)) words.2 ?_ fun h => ?_
    · rw [cpsr_writeBase]
      exact .refl _
    · rw [hrun, if_pos houtcome, writeBase_withHidden]
  | false =>
    refine .traps stored words.2 .dataAbort rfl rfl fun h => ?_
    rw [hrun, houtcome]
    rfl

/-- The words of a list to load all arrive. -/
def LoadsAll (cpu : Cpu) (bus : β) (t : BlockTransfer) : Prop :=
  (loadWords bus (blockStart t (cpu.register t.base)) (blockRegisters t).length).1.outcome.length =
    (blockRegisters t).length

instance (cpu : Cpu) (bus : β) (t : BlockTransfer) : Decidable (cpu.LoadsAll bus t) :=
  inferInstanceAs (Decidable (_ = _))

/-- A list load goes on if all its words arrive. Otherwise it enters the data abort handler with the
words that did arrive written, which are live registers too. -/
theorem confined_loadBlock (huser : cpu.cpsr.mode = .user) (bus : β) (t : BlockTransfer)
    {trap? : Option Exception} (htrap : ¬ cpu.LoadsAll bus t → trap? = some .dataAbort) :
    Confined trap? cpu fun c => c.loadBlock bus t := by
  let words := loadWords bus (blockStart t (cpu.register t.base)) (blockRegisters t).length
  let loaded := (blockRegisters t).zip words.1.outcome
  let based := (cpu.writeBase (cpu.blockBase? t)).spend words.1.accesses
  have hstatus : (based.writeAll loaded).cpsr = cpu.cpsr := by
    rw [cpsr_writeAll]
    exact cpsr_writeBase ..
  -- With any hidden registers the transfer ends in the same state, and hides the same registers.
  have hrun (h : Hidden) : (cpu.withHidden h).loadBlock bus t =
      if words.1.outcome.length < (blockRegisters t).length then
        (((based.writeAll loaded).withHidden h).enter .dataAbort, words.2)
      else ((based.writeAll loaded).withHidden h, words.2) := by
    have huser' : (cpu.withHidden h).cpsr.mode = .user := huser
    have hbased : (((cpu.withHidden h).writeBase (cpu.blockBase? t)).spend
        words.1.accesses).writeAll loaded = (based.writeAll loaded).withHidden h := by
      rw [writeBase_withHidden, spend_withHidden, writeAll_withHidden]
    rw [← hbased]
    exact loadBlock_of_user huser' bus t
  by_cases hall : words.1.outcome.length < (blockRegisters t).length
  · refine .traps (based.writeAll loaded) words.2 .dataAbort (htrap fun h => ?_) hstatus
      fun h => ?_
    · exact absurd h (Nat.ne_of_lt hall)
    · rw [hrun, if_pos hall]
  · refine .goesOn (based.writeAll loaded) words.2 ?_ fun h => ?_
    · rw [hstatus]
    · rw [hrun, if_neg hall]

/-- A list transfer in either direction. -/
theorem confined_transferBlock (huser : cpu.cpsr.mode = .user) (bus : β) (t : BlockTransfer) :
    Confined (some .dataAbort) cpu fun c => c.transferBlock bus t := by
  unfold transferBlock
  cases t.direction with
  | store => exact confined_storeBlock huser bus t
  | load => exact confined_loadBlock huser bus t fun _ => rfl

/-! ### Both instruction sets -/

/-- Every ARM instruction ends in one of the two ways in User mode, and enters no exception but its
own. -/
theorem confined_performArm (huser : cpu.cpsr.mode = .user) (bus : β) (i : Arm.Instruction) :
    Confined i.trap? cpu fun c => c.performArm bus i := by
  cases i with
  | dataProcessing i => exact .of_confines (confines_dataProcessing huser i) bus
  | multiply i => exact .of_confines (confines_multiply i) bus
  | multiplyLong i => exact .of_confines (confines_multiplyLong i) bus
  | readStatus source rd => exact .of_confines (confines_readStatus huser source rd) bus
  | writeStatus target mask operand =>
    exact .of_confines (confines_writeStatus huser target mask operand) bus
  | swap i => exact confined_swap bus i
  | branchExchange r => exact .of_confines (confines_branchExchange r) bus
  | halfwordTransfer i => exact confined_halfwordTransfer bus i
  | singleTransfer i => exact confined_singleTransfer bus i
  | blockTransfer t => exact confined_transferBlock huser bus t
  | branch link offset => exact .of_confines (confines_branch link offset) bus
  | softwareInterrupt comment => exact .of_enter .softwareInterrupt bus
  | undefined => exact .of_enter .undefined bus

/-- An instruction whose condition fails does nothing. -/
theorem confined_executeArm {trap? : Option Exception} {bus : β} {code : Arm.Opcode}
    (hperform : Confined trap? cpu fun c => c.performArm bus code.instruction) :
    Confined trap? cpu fun c => c.executeArm bus code := by
  by_cases hholds : cpu.cpsr.satisfies code.condition
  · exact hperform.congr fun h => if_pos hholds
  · exact .goesOn cpu bus (.refl _) fun h => if_neg hholds

/-- A transfer of a low register is a load or a store of one value. -/
theorem confined_transferLow (bus : β) (direction : Direction) (quantity : Quantity)
    (address : Word) (rd : Thumb.LowRegister) :
    Confined (some .dataAbort) cpu fun c => c.transferLow bus direction quantity address rd := by
  cases direction with
  | load =>
    refine (confined_loadRegister bus quantity.load address none rd.id).congr fun h => ?_
    cases quantity <;> rfl
  | store =>
    refine (confined_storeValue bus quantity.store address (cpu.register rd.id) none).congr
      fun h => ?_
    cases quantity <;> rfl

/-- A transfer of a halfword or a signed value is a load or a store of one value. -/
theorem confined_transferLowSigned (bus : β) (transfer : Thumb.SignedTransfer) (address : Word)
    (rd : Thumb.LowRegister) :
    Confined (some .dataAbort) cpu fun c => c.transferLowSigned bus transfer address rd := by
  cases transfer with
  | storeHalf =>
    exact (confined_storeValue bus .half address (cpu.register rd.id) none).congr fun _ => rfl
  | loadHalf => exact confined_loadRegister bus .half address none rd.id
  | loadSignedByte => exact confined_loadRegister bus .signedByte address none rd.id
  | loadSignedHalf => exact confined_loadRegister bus .signedHalf address none rd.id

/-- Every Thumb instruction ends in one of the two ways in User mode. -/
theorem confined_performThumb (huser : cpu.cpsr.mode = .user) (bus : β) (i : Thumb.Instruction) :
    Confined i.trap? cpu fun c => c.performThumb bus i := by
  cases i with
  | shift kind amount rs rd => exact .of_confines (confines_shift kind amount rs rd) bus
  | addSubtract subtract addend rs rd =>
    exact .of_confines (confines_addSubtract subtract addend rs rd) bus
  | immediate op rd value => exact .of_confines (confines_immediateOperation op rd value) bus
  | alu op rs rd => exact .of_confines (confines_aluOperation op rs rd) bus
  | high op rs rd => exact .of_confines (confines_highOperation op rs rd) bus
  | loadLiteral rd offset =>
    exact (confined_loadRegister bus .word (cpu.addressBase .pc + offset) none rd.id).congr
      fun _ => rfl
  | transferIndexed direction quantity index base rd =>
    exact (confined_transferLow bus direction quantity
      (cpu.register base.id + cpu.register index.id) rd).congr fun _ => rfl
  | transferSigned transfer index base rd =>
    exact (confined_transferLowSigned bus transfer
      (cpu.register base.id + cpu.register index.id) rd).congr fun _ => rfl
  | transferOffset direction quantity offset base rd =>
    exact (confined_transferLow bus direction quantity
      (cpu.register base.id + offset) rd).congr fun _ => rfl
  | transferHalf direction offset base rd =>
    cases direction with
    | load =>
      exact (confined_transferLowSigned bus .loadHalf (cpu.register base.id + offset) rd).congr
        fun _ => rfl
    | store =>
      exact (confined_transferLowSigned bus .storeHalf (cpu.register base.id + offset) rd).congr
        fun _ => rfl
  | transferStack direction rd offset =>
    exact (confined_transferLow bus direction .word (cpu.addressBase .sp + offset) rd).congr
      fun _ => rfl
  | loadAddress base rd offset => exact .of_confines (confines_loadAddress base rd offset) bus
  | moveStack offsetting offset =>
    exact .goesOn (cpu.setRegister .sp (offsetting.apply (cpu.register .sp) offset)) bus
      (.refl _) fun _ => rfl
  | push registers link => exact confined_transferBlock huser bus (pushTransfer registers link)
  | pop registers pc => exact confined_transferBlock huser bus (popTransfer registers pc)
  | transferBlock direction base registers =>
    exact confined_transferBlock huser bus (lowBlockTransfer direction base registers)
  | conditionalBranch condition offset =>
    exact .of_confines (confines_conditionalBranch condition offset) bus
  | softwareInterrupt comment => exact .of_enter .softwareInterrupt bus
  | branch offset => exact .of_confines (confines_branch false offset) bus
  | callUpper offset => exact .goesOn (cpu.callUpper offset) bus (.refl _) fun _ => rfl
  | callLower offset => exact .goesOn (cpu.callLower offset) bus (.refl _) fun _ => rfl
  | undefined => exact .of_enter .undefined bus

end Cpu

end AdvanceCore
