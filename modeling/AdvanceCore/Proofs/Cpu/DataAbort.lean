import AdvanceCore.Proofs.Bus.Watched
import AdvanceCore.Proofs.Cpu.UserStep

/-!
# `AdvanceCore.Proofs.Cpu.DataAbort`: instructions that are given up

An instruction whose access to memory fails is given up, and the data abort handler starts with
the address of the instruction in its link register. To try again from there, the handler has to
find the base register as it was.

Single transfers and swaps write their registers after their last access, and a list store its
base. A list load writes its base before its first access, and every other register as soon as
its word has arrived. R15 is the last of a list, so the address to return to is right even then.
In Abort mode the link register of the handler is that of the interrupted program.

* `Task.base?`, `Task.block?`: the base of a transfer, and its list.
* `WrittenEarly`: what a list load has written when it is given up.
* `GivenUp`, `givesUp_carryOut`: after a failing access the handler has been entered from a
  state in which the other registers are as before.
* `FoundByHandler`: what the handler finds after a step, whatever the instruction was.
* `data_abort_keeps_base`: and what it finds in the base register.
* `not_keepsBase`: what it does not find.
-/

set_option autoImplicit false

namespace AdvanceCore

/-! ### Bases and lists -/

/-- The register that the addresses of a transfer are computed from. -/
def Arm.Instruction.base? : Arm.Instruction → Option RegisterId
  | .swap i => some i.rn
  | .halfwordTransfer i => some i.base
  | .singleTransfer i => some i.base
  | .blockTransfer t => some t.base
  | _ => none

/-- The transfer of a register list. -/
def Arm.Instruction.block? : Arm.Instruction → Option BlockTransfer
  | .blockTransfer t => some t
  | _ => none

/-- The transfer of a register list. -/
def Thumb.Instruction.block? : Thumb.Instruction → Option BlockTransfer
  | .push registers link => some (Cpu.pushTransfer registers link)
  | .pop registers pc => some (Cpu.popTransfer registers pc)
  | .transferBlock direction base registers =>
    some (Cpu.lowBlockTransfer direction base registers)
  | _ => none

/-- The register that the addresses of a transfer are computed from. -/
def Thumb.Instruction.base? : Thumb.Instruction → Option RegisterId
  | .loadLiteral .. => some .pc
  | .transferIndexed _ _ _ base _ | .transferSigned _ _ base _ | .transferOffset _ _ _ base _
  | .transferHalf _ _ base _ | .transferBlock _ base _ => some base.id
  | .transferStack .. | .push .. | .pop .. => some .sp
  | _ => none

namespace Task

/-- The base of the instruction that a step carries out, if there is one. -/
def base? : Task → Option RegisterId
  | .arm code => code.instruction.base?
  | .thumb code => code.instruction.base?
  | _ => none

/-- The register list of the instruction that a step carries out. -/
def block? : Task → Option BlockTransfer
  | .arm code => code.instruction.block?
  | .thumb code => code.instruction.block?
  | _ => none

/-- The base of a list is the base of its instruction. -/
theorem base?_of_block? {task : Task} {t : BlockTransfer} (h : task.block? = some t) :
    task.base? = some t.base := by
  cases task with
  | take | abort => cases h
  | arm code =>
    obtain ⟨condition, i, raw⟩ := code
    change i.block? = some t at h
    cases i <;> cases h
    rfl
  | thumb code =>
    obtain ⟨i, raw⟩ := code
    change i.block? = some t at h
    cases i <;> cases h <;> rfl

end Task

/-! ### Registers of a mode -/

/-- An exception shows in the registers of the mode that it interrupts only if it is the mode of
the handler, and then only in LR. -/
theorem RegisterView.get_registers_setReturn (v : RegisterView) {mode : Mode} {bank : Bank}
    {r : RegisterId} (lr pc : Word) (spsr : Psr) (hpc : r ≠ .pc)
    (hlr : mode.bank = bank → r ≠ .lr) :
    (RegisterView.registers { v.setReturn bank lr spsr with pc := pc } mode).get r =
      (v.registers mode).get r := by
  rw [get_registers, get_registers]
  -- The live registers are picked by number: R0 to R7, R8 to R12, SP, LR and R15.
  by_cases hlow : r.val < 8
  · rw [dif_pos hlow, dif_pos hlow]
    rfl
  rw [dif_neg hlow, dif_neg hlow]
  by_cases hhigh : r.val - 8 < 5
  · rw [dif_pos hhigh, dif_pos hhigh]
    rfl
  rw [dif_neg hhigh, dif_neg hhigh]
  by_cases hsp : r = .sp
  · rw [if_pos hsp, if_pos hsp]
    show (if bank = mode.bank then _ else _ : BankedRegisters).sp = _
    split
    · next hbank => rw [← hbank]
    · rfl
  rw [if_neg hsp, if_neg hsp]
  by_cases hlink : r = .lr
  · have hbank : bank ≠ mode.bank := fun h => hlr h.symm hlink
    rw [if_pos hlink, if_pos hlink]
    show (if bank = mode.bank then _ else _ : BankedRegisters).lr = _
    rw [if_neg hbank]
  · exact absurd (RegisterId.eq_pc hlow hhigh hsp hlink) hpc

/-- Whether the User copy of a register is in the bank while a mode is live. -/
def Mode.StoresUser (mode : Mode) (r : RegisterId) : Prop :=
  (mode = .fiq ∧ 8 ≤ r.val ∧ r.val ≤ 12) ∨ (mode.bank ≠ .user ∧ (r = .sp ∨ r = .lr))

instance (mode : Mode) (r : RegisterId) : Decidable (mode.StoresUser r) :=
  inferInstanceAs (Decidable
    ((mode = .fiq ∧ 8 ≤ r.val ∧ r.val ≤ 12) ∨ (mode.bank ≠ .user ∧ (r = .sp ∨ r = .lr))))

/-- A stored User copy can be written. -/
theorem RegisterBank.exists_setUserRegister? (b : RegisterBank) {mode : Mode} {r : RegisterId}
    (h : mode.StoresUser r) (value : Word) : ∃ b', b.setUserRegister? mode r value = some b' := by
  unfold setUserRegister?
  rcases h with ⟨hfiq, hle, hle'⟩ | ⟨hbank, rfl | rfl⟩
  · rw [dif_pos ⟨hle, by omega⟩, if_pos hfiq]
    exact ⟨_, rfl⟩
  · rw [dif_neg (by decide), if_neg hbank, if_pos rfl]
    exact ⟨_, rfl⟩
  · rw [dif_neg (by decide), if_neg hbank, if_neg (by decide), if_pos rfl]
    exact ⟨_, rfl⟩

/-- A map that goes through every access goes through a task. -/
theorem BusMap.carryOut {β γ : Type} [MemoryBus β] [MemoryBus γ] {f : γ → β} (hf : BusMap f)
    (cpu : Cpu) (bus : γ) (task : Task) :
    cpu.carryOut (f bus) task = (cpu.carryOut bus task).map id f := by
  cases task with
  | take | abort => rfl
  | arm code => exact hf.executeArm ..
  | thumb code => exact hf.performThumb ..

namespace Cpu

/-! ### What a list load has written -/

/-- The registers of a list ascend. -/
theorem pairwise_blockRegisters (t : BlockTransfer) : (blockRegisters t).Pairwise (· < ·) := by
  have hall : (List.finRange 16).Pairwise (· < ·) := by decide
  unfold blockRegisters
  split
  · exact List.pairwise_singleton ..
  · exact hall.filter _

/-- R15 is the last register of a list. -/
theorem pc_notMem_take {t : BlockTransfer} {count : Nat} (h : count < (blockRegisters t).length) :
    .pc ∉ (blockRegisters t).take count := by
  intro hpc
  have hascending := pairwise_blockRegisters t
  -- Whatever comes after R15 in the list would have to be above it.
  rw [← List.take_append_drop count (blockRegisters t), List.pairwise_append] at hascending
  obtain ⟨-, -, hbefore⟩ := hascending
  have hnext : (blockRegisters t)[count] ∈ (blockRegisters t).drop count := by
    rw [List.drop_eq_getElem_cons h]
    exact List.mem_cons_self
  have hlt : RegisterId.pc < (blockRegisters t)[count] := hbefore _ hpc _ hnext
  have hmax : (blockRegisters t)[count].val < 16 := ((blockRegisters t)[count]).isLt
  have hval : 15 < ((blockRegisters t)[count]).val := hlt
  omega

variable {β : Type} [MemoryBus β]

/-- The registers whose words arrive before an access fails. -/
def arrived (cpu : Cpu) (bus : β) (t : BlockTransfer) : List RegisterId :=
  let words := (loadWords bus (blockStart t (cpu.register t.base)) (blockRegisters t).length).1
  (blockRegisters t).take words.outcome.length

/-- The S bit of a list without R15 asks for the User registers. -/
def loadsUser (t : BlockTransfer) : Bool := t.statusBit && !(blockRegisters t).contains .pc

/-- A list load has written a register by the time it is given up: as its base, or because the
word for it has arrived. A word for a User register in the bank leaves the live one alone. -/
def WrittenEarly (cpu : Cpu) (bus : β) (t : BlockTransfer) (r : RegisterId) : Prop :=
  (t.writeBack = true ∧ r = t.base) ∨
    (r ∈ cpu.arrived bus t ∧ ¬ (loadsUser t = true ∧ cpu.cpsr.mode.StoresUser r))

instance (cpu : Cpu) (bus : β) (t : BlockTransfer) (r : RegisterId) :
    Decidable (cpu.WrittenEarly bus t r) :=
  inferInstanceAs (Decidable ((t.writeBack = true ∧ r = t.base) ∨
    (r ∈ cpu.arrived bus t ∧ ¬ (loadsUser t = true ∧ cpu.cpsr.mode.StoresUser r))))

/-! ### Giving up -/

/-- An instruction of `before` was given up in `stopped`. Nothing has happened to the status and
to R15, and to the other registers nothing but to those that were written early. -/
structure GivenUp (early : RegisterId → Prop) (before stopped : Cpu) : Prop where
  cpsr : stopped.cpsr = before.cpsr
  pc : stopped.registers.pc = before.registers.pc
  kept : ∀ r, ¬ early r → stopped.register r = before.register r

/-- An instruction that has run into a failing access has been given up, and the data abort
handler entered. -/
structure GivesUp (early : RegisterId → Prop) (before : Cpu) (done : Cpu × Watched β) : Prop where
  entered : done.2.failed = true →
    ∃ stopped, GivenUp early before stopped ∧ done.1 = stopped.enter .dataAbort

section

variable {cpu : Cpu} {w : Watched β} {early : RegisterId → Prop}

omit [MemoryBus β] in
/-- An instruction that runs into no failing access need not give up. -/
theorem GivesUp.of_not_failed {done : Cpu × Watched β} (h : done.2.failed = false) :
    GivesUp early cpu done := by
  refine ⟨fun hfault => ?_⟩
  rw [h] at hfault
  cases hfault

/-- The cycles of an access change no register. -/
theorem GivenUp.spend (cpu : Cpu) (cycles : Nat) : GivenUp early cpu (cpu.spend cycles) :=
  ⟨rfl, rfl, fun _ _ => rfl⟩

omit [MemoryBus β] in
/-- An instruction whose first failing access comes before any write is given up as it was. -/
theorem GivesUp.spend (cpu : Cpu) (cycles : Nat) :
    GivesUp early cpu ((cpu.spend cycles).enter .dataAbort, w) :=
  ⟨fun _ => ⟨cpu.spend cycles, .spend cpu cycles, rfl⟩⟩

/-- A load writes its registers after its access. -/
theorem givesUp_loadRegister (hw : w.failed = false) (kind : Load) (address : Word)
    (newBase : Option (RegisterId × Word)) (r : RegisterId) :
    GivesUp early cpu (cpu.loadRegister w kind address newBase r) := by
  have hfailed := Watched.failed_load kind w address
  unfold loadRegister
  generalize kind.run w address = answer at hfailed ⊢
  obtain ⟨_ | value, w'⟩ := answer
  · exact .spend cpu 1
  · exact .of_not_failed (hfailed.trans (by rw [hw]; rfl))

/-- A store writes its base after its access. -/
theorem givesUp_storeValue (hw : w.failed = false) (kind : Store) (address value : Word)
    (newBase : Option (RegisterId × Word)) :
    GivesUp early cpu (cpu.storeValue w kind address value newBase) := by
  have hfailed := Watched.failed_store kind w address value
  unfold storeValue
  generalize kind.run w address value = answer at hfailed ⊢
  obtain ⟨_ | _, w'⟩ := answer
  · exact .spend cpu 1
  · exact .of_not_failed (hfailed.trans (by rw [hw]; rfl))

/-- A swap makes two accesses, and writes its register after both. -/
theorem givesUp_swap (hw : w.failed = false) (i : Arm.Swap) :
    GivesUp early cpu (cpu.swap w i) := by
  unfold swap
  cases i.quantity
  all_goals
    dsimp only
    generalize hloaded : Load.run _ w (cpu.register i.rn) = loaded
    have hload : loaded.2.failed = (w.failed || loaded.1.isNone) := by
      rw [← hloaded]
      exact Watched.failed_load ..
    obtain ⟨_ | old, w'⟩ := loaded
    · exact .spend cpu 1
    -- The load went well, so a failure is one of the store, and the register is not written yet.
    · dsimp only
      generalize hstored : Store.run _ w' (cpu.register i.rn) (cpu.register i.rm) = stored
      have hstore : stored.2.failed = (w'.failed || !stored.1) := by
        rw [← hstored]
        exact Watched.failed_store ..
      have hw' : w'.failed = false := hload.trans (by rw [hw]; rfl)
      obtain ⟨_ | _, w''⟩ := stored
      · exact .spend cpu 2
      · exact .of_not_failed (hstore.trans (by rw [hw']; rfl))

/-- A list store writes its base after the last of its accesses. -/
theorem givesUp_storeBlock (hw : w.failed = false) (t : BlockTransfer) :
    GivesUp early cpu (cpu.storeBlock w t) := by
  unfold storeBlock
  dsimp only
  generalize hwords : storeWords w _ _ = words
  have hfailed : words.2.failed = (w.failed || !words.1.outcome) := by
    rw [← hwords]
    exact Watched.failed_storeWords ..
  split
  · next hall =>
    refine .of_not_failed (hfailed.trans ?_)
    rw [hw, hall]
    rfl
  · exact .spend cpu _

/-! ### List loads -/

/-- Takes a word for a register. -/
def takeWord (toUser : Bool) (mode : Mode) (cpu : Cpu) (word : RegisterId × Word) : Cpu :=
  if toUser then cpu.writeUserRegister mode word.1 word.2 else cpu.writeRegister word.1 word.2

/-- A list load writes the base, takes the words that arrive and is given up if there are too
few. -/
theorem loadBlock_eq (cpu : Cpu) (bus : β) (t : BlockTransfer) :
    cpu.loadBlock bus t =
      let words := loadWords bus (blockStart t (cpu.register t.base)) (blockRegisters t).length
      let done := ((blockRegisters t).zip words.1.outcome).foldl
        (takeWord (loadsUser t) cpu.cpsr.mode)
        ((cpu.writeBase (cpu.blockBase? t)).spend words.1.accesses)
      if words.1.outcome.length < (blockRegisters t).length then (done.enter .dataAbort, words.2)
      else if t.statusBit && (blockRegisters t).contains .pc then
        (done.restoreSavedStatus, words.2)
      else (done, words.2) := by
  unfold loadBlock
  simp only [ite_writeBack]
  rfl

/-- Writing a register leaves the others. -/
theorem register_writeRegister (cpu : Cpu) {r r' : RegisterId} (value : Word) (h : r' ≠ r) :
    (cpu.writeRegister r' value).register r = cpu.register r := by
  have hset : (cpu.setRegister r' value).register r = cpu.register r :=
    cpu.registers.get_set_of_ne value h
  unfold writeRegister
  dsimp only
  split
  · exact hset
  · exact hset

/-- Writing a User register leaves the status. -/
theorem cpsr_writeUserRegister (cpu : Cpu) (mode : Mode) (r : RegisterId) (value : Word) :
    (cpu.writeUserRegister mode r value).cpsr = cpu.cpsr := by
  unfold writeUserRegister
  split
  · rfl
  · exact cpsr_writeRegister ..

/-- A register keeps its value if the word is for another one, or for a User register in the
bank. -/
theorem register_takeWord {toUser : Bool} {mode : Mode} {r : RegisterId} (cpu : Cpu)
    {word : RegisterId × Word} (h : word.1 = r → toUser = true ∧ mode.StoresUser r) :
    (takeWord toUser mode cpu word).register r = cpu.register r := by
  -- A word listed for `r` goes to the User copy that the mode does not see.
  by_cases hr : word.1 = r
  · obtain ⟨hto, hstores⟩ := h hr
    rw [← hr] at hstores
    obtain ⟨bank, hbank⟩ := cpu.bank.exists_setUserRegister? hstores word.2
    unfold takeWord writeUserRegister
    rw [if_pos hto, hbank]
    rfl
  · unfold takeWord
    split
    · unfold writeUserRegister
      split
      · rfl
      · exact cpu.register_writeRegister word.2 hr
    · exact cpu.register_writeRegister word.2 hr

/-- A register keeps its value over all words of a list that are not for it, or for its copy in the
bank. -/
theorem register_foldl_takeWord {toUser : Bool} {mode : Mode} {r : RegisterId}
    {words : List (RegisterId × Word)}
    (h : ∀ word ∈ words, word.1 = r → toUser = true ∧ mode.StoresUser r) (cpu : Cpu) :
    (words.foldl (takeWord toUser mode) cpu).register r = cpu.register r := by
  induction words generalizing cpu with
  | nil => rfl
  | cons word rest ih =>
    have hrest := ih (fun word' hword' => h word' (List.mem_cons_of_mem word hword'))
      (takeWord toUser mode cpu word)
    exact hrest.trans (cpu.register_takeWord (h word List.mem_cons_self))

/-- Taking words leaves the status. -/
theorem cpsr_foldl_takeWord (toUser : Bool) (mode : Mode) (words : List (RegisterId × Word))
    (cpu : Cpu) : (words.foldl (takeWord toUser mode) cpu).cpsr = cpu.cpsr := by
  induction words generalizing cpu with
  | nil => rfl
  | cons word rest ih =>
    refine (ih (takeWord toUser mode cpu word)).trans ?_
    unfold takeWord
    split
    · exact cpsr_writeUserRegister ..
    · exact cpsr_writeRegister ..

/-- What is paired with a word is among the first registers, as many as there are words. -/
theorem fst_mem_take_of_mem_zip {α γ : Type} {as : List α} {bs : List γ} {pair : α × γ}
    (h : pair ∈ as.zip bs) : pair.1 ∈ as.take bs.length := by
  induction as generalizing bs with
  | nil => cases h
  | cons a as ih =>
    cases bs with
    | nil => cases h
    | cons b bs =>
      rcases List.mem_cons.mp h with rfl | hrest
      · exact List.mem_cons_self
      · exact List.mem_cons_of_mem a (ih hrest)

/-- R15 is not written early: it is the last of the words that are to arrive. -/
theorem not_writtenEarly_pc {bus : β} {t : BlockTransfer} (hbase : t.base ≠ .pc)
    (hshort : (loadWords bus (blockStart t (cpu.register t.base))
      (blockRegisters t).length).1.outcome.length < (blockRegisters t).length) :
    ¬ cpu.WrittenEarly bus t .pc := by
  rintro (⟨-, hpc⟩ | ⟨hpc, -⟩)
  · exact hbase hpc.symm
  · exact pc_notMem_take hshort hpc

/-- The new base and the words that have arrived change no register but those that are written
early. -/
theorem register_of_not_writtenEarly {bus : β} {t : BlockTransfer} {r : RegisterId}
    (hr : ¬ cpu.WrittenEarly bus t r) :
    let words := (loadWords bus (blockStart t (cpu.register t.base)) (blockRegisters t).length).1
    (((blockRegisters t).zip words.outcome).foldl (takeWord (loadsUser t) cpu.cpsr.mode)
      ((cpu.writeBase (cpu.blockBase? t)).spend words.accesses)).register r = cpu.register r := by
  intro words
  have hbased : ((cpu.writeBase (cpu.blockBase? t)).spend words.accesses).register r =
      cpu.register r := by
    show (cpu.writeBase (cpu.blockBase? t)).register r = _
    unfold blockBase?
    split
    · next hback => exact cpu.register_writeRegister _ fun h => hr (.inl ⟨hback, h.symm⟩)
    · rfl
  refine Eq.trans (register_foldl_takeWord (fun word hword hfor => ?_) _) hbased
  -- A word for the register is one of those that arrived, so it has gone to the User bank.
  have harrived : r ∈ cpu.arrived bus t := by
    rw [← hfor]
    exact fst_mem_take_of_mem_zip hword
  exact Classical.byContradiction fun hlive => hr (.inr ⟨harrived, hlive⟩)

/-- A list load that is given up has written its base and the words that arrived, and nothing else.
-/
theorem givesUp_loadBlock (hw : w.failed = false) {t : BlockTransfer} (hbase : t.base ≠ .pc) :
    GivesUp (cpu.WrittenEarly w.bus t) cpu (cpu.loadBlock w t) := by
  let words := loadWords w (blockStart t (cpu.register t.base)) (blockRegisters t).length
  let stopped := ((blockRegisters t).zip words.1.outcome).foldl
    (takeWord (loadsUser t) cpu.cpsr.mode)
    ((cpu.writeBase (cpu.blockBase? t)).spend words.1.accesses)
  have hsame : (loadWords w.bus (blockStart t (cpu.register t.base))
      (blockRegisters t).length).1 = words.1 :=
    congrArg Prod.fst (Watched.busMap.loadWords w _ _)
  have hkept (r : RegisterId) (hr : ¬ cpu.WrittenEarly w.bus t r) :
      stopped.register r = cpu.register r := by
    have hregister := register_of_not_writtenEarly hr
    rw [hsame] at hregister
    exact hregister
  have hfailed : words.2.failed =
      (w.failed || decide (words.1.outcome.length < (blockRegisters t).length)) :=
    Watched.failed_loadWords ..
  rw [loadBlock_eq]
  dsimp only
  -- The load is given up exactly if there are fewer words than registers.
  by_cases hshort : words.1.outcome.length < (blockRegisters t).length
  · rw [if_pos hshort]
    have hpc : ¬ cpu.WrittenEarly w.bus t .pc := by
      refine not_writtenEarly_pc hbase ?_
      rw [hsame]
      exact hshort
    have hcpsr : stopped.cpsr = cpu.cpsr := (cpsr_foldl_takeWord ..).trans (cpsr_writeBase ..)
    exact ⟨fun _ => ⟨stopped, ⟨hcpsr, hkept .pc hpc, hkept⟩, rfl⟩⟩
  · have hall : words.2.failed = false := by
      rw [hfailed, hw, decide_eq_false hshort]
      rfl
    rw [if_neg hshort]
    split
    · exact .of_not_failed hall
    · exact .of_not_failed hall

/-! ### Instructions and tasks -/

/-- A list load has written a register early. No other instruction does. -/
def Overwrites (cpu : Cpu) (bus : β) (block? : Option BlockTransfer) (r : RegisterId) : Prop :=
  ∃ t, block? = some t ∧ t.direction = .load ∧ cpu.WrittenEarly bus t r

/-- A list transfer gives up with the registers of a list load written, if it is one. -/
theorem givesUp_transferBlock (hw : w.failed = false) {t : BlockTransfer} (hbase : t.base ≠ .pc) :
    GivesUp (cpu.Overwrites w.bus (some t)) cpu (cpu.transferBlock w t) := by
  unfold transferBlock
  cases hdirection : t.direction with
  | store => exact givesUp_storeBlock hw t
  | load =>
    refine ⟨fun hfault => ?_⟩
    obtain ⟨stopped, hgiven, hrun⟩ := (givesUp_loadBlock hw hbase).entered hfault
    refine ⟨stopped, ⟨hgiven.cpsr, hgiven.pc, fun r hr => hgiven.kept r fun hearly => ?_⟩, hrun⟩
    exact hr ⟨t, rfl, hdirection, hearly⟩

/-- An ARM instruction that runs into a failing access is given up. -/
theorem givesUp_performArm (hw : w.failed = false) {i : Arm.Instruction}
    (hbase : ∀ t, i.block? = some t → t.base ≠ .pc) :
    GivesUp (cpu.Overwrites w.bus i.block?) cpu (cpu.performArm w i) := by
  cases i with
  | swap i => exact givesUp_swap hw i
  | halfwordTransfer i =>
    unfold performArm halfwordTransfer
    dsimp only
    cases i.direction with
    | load => exact givesUp_loadRegister hw ..
    | store => exact givesUp_storeValue hw ..
  | singleTransfer i =>
    unfold performArm singleTransfer
    dsimp only
    cases i.direction with
    | load => cases i.quantity <;> exact givesUp_loadRegister hw ..
    | store => cases i.quantity <;> exact givesUp_storeValue hw ..
  | blockTransfer t => exact givesUp_transferBlock hw (hbase t rfl)
  -- The others stay inside the processor.
  | _ => exact .of_not_failed hw

/-- A transfer of a low register that fails is given up. -/
theorem givesUp_transferLow (hw : w.failed = false) (direction : Direction) (quantity : Quantity)
    (address : Word) (rd : Thumb.LowRegister) :
    GivesUp early cpu (cpu.transferLow w direction quantity address rd) := by
  cases direction with
  | load => cases quantity <;> exact givesUp_loadRegister hw ..
  | store => cases quantity <;> exact givesUp_storeValue hw ..

/-- A transfer of a halfword or a signed value that fails is given up. -/
theorem givesUp_transferLowSigned (hw : w.failed = false) (transfer : Thumb.SignedTransfer)
    (address : Word) (rd : Thumb.LowRegister) :
    GivesUp early cpu (cpu.transferLowSigned w transfer address rd) := by
  cases transfer with
  | storeHalf => exact givesUp_storeValue hw ..
  | _ => exact givesUp_loadRegister hw ..

/-- A Thumb instruction that runs into a failing access is given up. -/
theorem givesUp_performThumb (hw : w.failed = false) {i : Thumb.Instruction}
    (hbase : ∀ t, i.block? = some t → t.base ≠ .pc) :
    GivesUp (cpu.Overwrites w.bus i.block?) cpu (cpu.performThumb w i) := by
  cases i with
  | loadLiteral => exact givesUp_loadRegister hw ..
  | transferIndexed | transferOffset | transferStack => exact givesUp_transferLow hw ..
  | transferSigned => exact givesUp_transferLowSigned hw ..
  | transferHalf direction offset base rd =>
    cases direction with
    | load => exact givesUp_transferLowSigned hw .loadHalf _ rd
    | store => exact givesUp_transferLowSigned hw .storeHalf _ rd
  | push registers link => exact givesUp_transferBlock hw (hbase (pushTransfer registers link) rfl)
  | pop registers pc => exact givesUp_transferBlock hw (hbase (popTransfer registers pc) rfl)
  | transferBlock direction base registers =>
    exact givesUp_transferBlock hw (hbase (lowBlockTransfer direction base registers) rfl)
  | _ => exact .of_not_failed hw

/-- Whatever a step sets out to do is given up when an access fails. An exception makes no access,
and an instruction whose condition fails makes none either. -/
theorem givesUp_carryOut (hw : w.failed = false) {task : Task}
    (hbase : ∀ t, task.block? = some t → t.base ≠ .pc) :
    GivesUp (cpu.alignPc.Overwrites w.bus task.block?) cpu.alignPc (cpu.carryOut w task) := by
  cases task with
  | take | abort => exact .of_not_failed hw
  | arm code =>
    show GivesUp _ _ (if cpu.alignPc.cpsr.satisfies code.condition then _ else _)
    split
    · exact givesUp_performArm hw hbase
    · exact .of_not_failed hw
  | thumb code => exact givesUp_performThumb hw hbase

end

/-! ### The step -/

/-- One of the data accesses of a step fails. The fetch is none of them. -/
def DataFault (cpu : Cpu) (bus : β) (lines : InterruptLines) : Prop :=
  let (task, fetched) := cpu.task bus lines
  (cpu.beginStep.carryOut (Watched.mk fetched false) task).2.failed = true

instance (cpu : Cpu) (bus : β) (lines : InterruptLines) : Decidable (cpu.DataFault bus lines) :=
  inferInstanceAs (Decidable ((cpu.beginStep.carryOut
    (Watched.mk (cpu.task bus lines).2 false) (cpu.task bus lines).1).2.failed = true))

section

variable {cpu : Cpu} {bus : β} {lines : InterruptLines} {base : RegisterId}

/-- A step with a failing access ends in the handler, and what was not written early is still
there. -/
theorem exists_givenUp (hbase : ∀ t, (cpu.task bus lines).1.block? = some t → t.base ≠ .pc)
    (hfault : cpu.DataFault bus lines) :
    ∃ stopped, GivenUp (cpu.alignPc.Overwrites (cpu.task bus lines).2 (cpu.task bus lines).1.block?)
        cpu.alignPc stopped ∧
      (cpu.step bus lines).2.1 = (stopped.enter .dataAbort).advance := by
  let w : Watched β := ⟨(cpu.task bus lines).2, false⟩
  have hgives : GivesUp (cpu.beginStep.alignPc.Overwrites w.bus (cpu.task bus lines).1.block?)
      cpu.beginStep.alignPc (cpu.beginStep.carryOut w (cpu.task bus lines).1) :=
    givesUp_carryOut rfl hbase
  obtain ⟨stopped, hgiven, hrun⟩ := hgives.entered hfault
  have hstep : (cpu.step bus lines).2.1 =
      (cpu.beginStep.carryOut w.bus (cpu.task bus lines).1).1.advance := by
    rw [step_eq]
  -- Starting a step resets its counters, which no register depends on.
  refine ⟨stopped, ⟨hgiven.cpsr, hgiven.pc, hgiven.kept⟩, ?_⟩
  rw [hstep, Watched.busMap.carryOut, ← hrun]
  rfl

/-- Registers of the interrupted mode that are still there when an instruction is given up can be
found in its bank from the handler. -/
theorem GivenUp.get_registers {early : RegisterId → Prop} {stopped : Cpu} {r : RegisterId}
    (h : GivenUp early cpu.alignPc stopped) (hpc : r ≠ .pc)
    (hlr : cpu.cpsr.mode = .abort → r ≠ .lr) (hearly : ¬ early r) :
    ((stopped.enter .dataAbort).advance.view.registers cpu.cpsr.mode).get r = cpu.register r := by
  have hcpsr : stopped.cpsr = cpu.cpsr := h.cpsr
  have hbank : cpu.cpsr.mode.bank = .abort → r ≠ .lr := fun hbank =>
    hlr ((Mode.bank_eq_abort_iff _).mp hbank)
  rw [(stopped.entered_advance .dataAbort).view]
  calc
    _ = (stopped.view.registers cpu.cpsr.mode).get r :=
      RegisterView.get_registers_setReturn _ _ _ _ hpc hbank
    _ = stopped.register r := by
      rw [← hcpsr, registers_view]
      rfl
    _ = cpu.alignPc.register r := h.kept r hearly
    _ = cpu.register r := cpu.registers.get_set_of_ne _ hpc.symm

/-- What the data abort handler finds. It has the status that was left, and the address of the
instruction in its link register. In the bank of the interrupted mode are the registers as they
were before the instruction, but for R15 and those that were written `early`. If the interrupted
mode is its own, its link register is in place of the one of the program. -/
structure FoundByHandler (before : Cpu) (early : RegisterId → Prop) (after : Cpu) : Prop where
  handling : Handling .dataAbort before.cpsr after
  link : after.register .lr = before.alignPc.currentInstruction
  kept : ∀ r, r ≠ .pc → (before.cpsr.mode = .abort → r ≠ .lr) → ¬ early r →
    (after.view.registers before.cpsr.mode).get r = before.register r
  replaced : before.cpsr.mode = .abort →
    (after.view.registers before.cpsr.mode).get .lr = before.alignPc.currentInstruction

/-- An instruction that is given up leaves the handler all of this. -/
theorem GivenUp.foundByHandler {early : RegisterId → Prop} {stopped : Cpu}
    (h : GivenUp early cpu.alignPc stopped) :
    FoundByHandler cpu early (stopped.enter .dataAbort).advance := by
  have hcpsr : stopped.cpsr = cpu.cpsr := h.cpsr
  have hhandling : Handling .dataAbort cpu.cpsr (stopped.enter .dataAbort).advance := by
    rw [← hcpsr]
    exact stopped.handling_advance_enter .dataAbort
  have hlink : (stopped.enter .dataAbort).advance.register .lr =
      cpu.alignPc.currentInstruction := by
    rw [(stopped.entered_advance .dataAbort).lr]
    show stopped.registers.pc - stopped.cpsr.state.pipelineOffset = _
    rw [h.pc, h.cpsr]
    rfl
  refine ⟨hhandling, hlink, fun r hpc hlr hearly => h.get_registers hpc hlr hearly, ?_⟩
  intro habort
  -- The bank of the handler is the live one.
  have hmode : (stopped.enter .dataAbort).advance.cpsr.mode = cpu.cpsr.mode :=
    hhandling.mode.trans habort.symm
  rw [← hmode, registers_view]
  exact hlink

/-- When a data access fails, whatever the instruction and the mode, the data abort handler starts
and finds every register that was not written early. So the base is in the bank of the interrupted
mode as it was before the instruction, unless it is the link register of Abort mode, or a list load
has written it early. An instruction that is no list load writes no register early, so that the
addresses it computes are the same again. -/
theorem data_abort_keeps_base (hbase : (cpu.task bus lines).1.base? = some base)
    (hpc : base ≠ .pc) (hfault : cpu.DataFault bus lines) :
    let after := (cpu.step bus lines).2.1
    FoundByHandler cpu
        (cpu.alignPc.Overwrites (cpu.task bus lines).2 (cpu.task bus lines).1.block?) after ∧
      ((cpu.cpsr.mode = .abort → base ≠ .lr) →
        (∀ t, (cpu.task bus lines).1.block? = some t → t.direction = .load →
          ¬ cpu.alignPc.WrittenEarly (cpu.task bus lines).2 t base) →
        (after.view.registers cpu.cpsr.mode).get base = cpu.register base) ∧
      ((∀ t, (cpu.task bus lines).1.block? = some t → t.direction = .store) →
        ∀ r, r ≠ .pc → (cpu.cpsr.mode = .abort → r ≠ .lr) →
          (after.view.registers cpu.cpsr.mode).get r = cpu.register r) := by
  have hblock (t : BlockTransfer) (ht : (cpu.task bus lines).1.block? = some t) :
      t.base ≠ .pc := by
    rw [Task.base?_of_block? ht] at hbase
    cases hbase
    exact hpc
  -- The handler is entered from `stopped`, which is the instruction given up half way. It is the
  -- same for every kind of transfer.
  obtain ⟨stopped, hgiven, hstep⟩ := exists_givenUp hblock hfault
  intro after
  have hfound : FoundByHandler cpu
      (cpu.alignPc.Overwrites (cpu.task bus lines).2 (cpu.task bus lines).1.block?) after := by
    show FoundByHandler cpu _ (cpu.step bus lines).2.1
    rw [hstep]
    exact hgiven.foundByHandler
  refine ⟨hfound, ?_, ?_⟩
  · intro hlr hlist
    refine hfound.kept base hpc hlr ?_
    rintro ⟨t, ht, hload, hearly⟩
    exact hlist t ht hload hearly
  · -- A store writes no register before its accesses, so nothing is overwritten at all.
    intro hstore r hrpc hrlr
    refine hfound.kept r hrpc hrlr ?_
    rintro ⟨t, ht, hload, -⟩
    rw [hstore t ht] at hload
    cases hload

end

/-- A ROM with a code at address zero. Loads past its end fail. -/
def romOf (code : Word) : BootRom :=
  let byte (n : Nat) : Byte := Bits.byte code n
  ⟨((((ByteStore.zero _).set 0 (byte 0)).set 1 (byte 1)).set 2 (byte 2)).set 3 (byte 3)⟩

/-- In `LDR R1, [R0, #4]!` the first load fails. In `LDMIA R2, {R1, R3}` the second one does,
after R1 has been loaded. In `LDMIA R0!, {R1}` the base has moved by then, and in `LDR R0, [R14]`
in Abort mode it is lost, but the handler is entered all the same. -/
theorem data_abort_keeps_base_of_loads :
    let single := (atZero.setRegister 0 0x4000).step (romOf 0xE5B01004) {}
    let list := (atZero.setRegister 2 0x3FFC).step (romOf 0xE892000A) {}
    let moving := (atZero.setRegister 0 0x4000).step (romOf 0xE8B00002) {}
    let nested : Cpu := { atZero.setRegister .lr 0x4000 with cpsr := .ofMode .abort }
    (single.2.1.view.registers .user).get 0 = 0x4000 ∧
      (list.2.1.view.registers .user).get 2 = 0x3FFC ∧ list.2.1.register .lr = 0 ∧
      Handling .dataAbort atZero.cpsr moving.2.1 ∧ moving.2.1.register .lr = 0 ∧
      ((nested.step (romOf 0xE59E0000) {}).2.1.view.registers .abort).get .lr = 0 := by
  intro single list moving nested
  have hsingle : ((atZero.setRegister 0 0x4000).task (romOf 0xE5B01004) {}).1.base? = some 0 := by
    decide
  have hlist : ((atZero.setRegister 2 0x3FFC).task (romOf 0xE892000A) {}).1.base? = some 2 := by
    decide
  have hmoving : ((atZero.setRegister 0 0x4000).task (romOf 0xE8B00002) {}).1.base? = some 0 := by
    decide
  have hnested : (nested.task (romOf 0xE59E0000) {}).1.base? = some .lr := by
    decide
  obtain ⟨-, hkept, -⟩ := data_abort_keeps_base hsingle (by decide) (by decide)
  obtain ⟨hfound, hkept', -⟩ := data_abort_keeps_base hlist (by decide) (by decide)
  obtain ⟨hfound', -, -⟩ := data_abort_keeps_base hmoving (by decide) (by decide)
  obtain ⟨hfound'', -, -⟩ := data_abort_keeps_base hnested (by decide) (by decide)
  have hmode : nested.cpsr.mode = .abort := by decide
  have hlost := hfound''.replaced hmode
  rw [hmode] at hlost
  have hstart : nested.alignPc.currentInstruction = 0 := by decide
  exact ⟨hkept (by decide) (by decide), hkept' (by decide) (by decide), hfound.link,
    hfound'.handling, hfound'.link, hlost.trans hstart⟩

/-- After a failing access the base is as it was. -/
def KeepsBase (cpu : Cpu) (bus : β) (lines : InterruptLines) : Prop :=
  ∀ base, (cpu.task bus lines).1.base? = some base → base ≠ .pc → cpu.DataFault bus lines →
    ((cpu.step bus lines).2.1.view.registers cpu.cpsr.mode).get base = cpu.register base

/-- This is not so for `LDR R0, [R14]` in Abort mode, where the handler gets R14, and for
`LDMIA R0!, {R1}`, which has moved its base. -/
theorem not_keepsBase :
    ¬ KeepsBase { atZero.setRegister .lr 0x4000 with cpsr := .ofMode .abort }
        (romOf 0xE59E0000) {} ∧
      ¬ KeepsBase (atZero.setRegister 0 0x4000) (romOf 0xE8B00002) {} := by
  constructor
  · intro hkeeps
    have hkept := hkeeps .lr (by decide) (by decide) (by decide)
    revert hkept
    decide
  · intro hkeeps
    have hkept := hkeeps 0 (by decide) (by decide) (by decide)
    revert hkept
    decide

end Cpu

end AdvanceCore
