import AdvanceCore.Proofs.Cpu.JumpTargets

/-!
# `AdvanceCore.Proofs.Cpu.StepOutcomes`: the three ways a step can end

Whatever an instruction does, it works in the mode that it began in (`Works`): it writes live
registers, flags, the saved status and User registers in the bank, and spends cycles. It then
goes on in that mode, switches to another status word, or enters a handler (`Outcome`). The
switch and the entry come last, and only R15 moves after them.

* `Works`: what stays as it was while a mode is at work, with a bound on the cycles.
* `Outcome`: the three ways.
* `outcome_performArm`, `outcome_performThumb`: every instruction of both sets.
* `outcome_step`: a step, with the pipeline refilled or moved on.
-/

set_option autoImplicit false

namespace AdvanceCore

namespace Cpu

/-! ### Work in one mode -/

/-- `after` has come from `before` by work in one mode, in at most so many cycles. The stored
registers of the other modes are as they were, but for those of User. -/
structure Works (cycles : Nat) (before after : Cpu) : Prop where
  mode : after.cpsr.mode = before.cpsr.mode
  stored : ∀ bank, bank ≠ .user → after.bank.get bank = before.bank.get bank
  highFiq : after.bank.highFiq = before.bank.highFiq
  spent : after.extraCycles ≤ before.extraCycles + cycles

namespace Works

variable {m n : Nat} {before middle after : Cpu}

/-- Doing nothing is work without cycles. -/
theorem refl (cpu : Cpu) : Works 0 cpu cpu := ⟨rfl, fun _ _ => rfl, rfl, Nat.le_refl _⟩

/-- Work after work is work, in the cycles of both. The stored registers are compared over the state
in the middle. -/
theorem trans (h : Works m before middle) (h' : Works n middle after) :
    Works (m + n) before after where
  mode := h'.mode.trans h.mode
  stored := fun bank hbank => (h'.stored bank hbank).trans (h.stored bank hbank)
  highFiq := h'.highFiq.trans h.highFiq
  spent := by
    have hfirst := h.spent
    have hsecond := h'.spent
    omega

/-- A bound on the cycles can be loosened. -/
theorem mono (h : Works m before after) (hle : m ≤ n) : Works n before after :=
  ⟨h.mode, h.stored, h.highFiq, Nat.le_trans h.spent (Nat.add_le_add_left hle _)⟩

/-- Work that takes no cycles leaves a bound as it is. -/
theorem free (h : Works n before middle) (h' : Works 0 middle after) : Works n before after :=
  h.trans h'

end Works

/-- Spending cycles touches nothing but their count. -/
theorem works_spend (cpu : Cpu) (cycles : Nat) : Works cycles cpu (cpu.spend cycles) :=
  ⟨rfl, fun _ _ => rfl, rfl, Nat.le_refl _⟩

/-- A live register is no stored one, so writing it is work. -/
theorem works_setRegister (cpu : Cpu) (r : RegisterId) (value : Word) :
    Works 0 cpu (cpu.setRegister r value) :=
  ⟨rfl, fun _ _ => rfl, rfl, Nat.le_refl _⟩

/-- A jump writes R15 and asks for a refill. The refill takes its cycles at the end of the step and
not here. -/
theorem works_jump (cpu : Cpu) (target : Word) : Works 0 cpu (cpu.jump target) :=
  ⟨rfl, fun _ _ => rfl, rfl, Nat.le_refl _⟩

/-- A write to R15 is a jump, and one to any other register only sets it. -/
theorem works_writeRegister (cpu : Cpu) (r : RegisterId) (value : Word) :
    Works 0 cpu (cpu.writeRegister r value) := by
  unfold writeRegister
  dsimp only
  split
  · exact ⟨rfl, fun _ _ => rfl, rfl, Nat.le_refl _⟩
  · exact cpu.works_setRegister r value

/-- Writing a base back is one write of a register, or none. -/
theorem works_writeBase (cpu : Cpu) (newBase : Option (RegisterId × Word)) :
    Works 0 cpu (cpu.writeBase newBase) := by
  cases newBase with
  | none => exact .refl cpu
  | some base => exact cpu.works_writeRegister base.1 base.2

/-- New flags are work as long as mode and interrupt masks stay, which is what `Psr.SamePrivilege`
says of a status. -/
theorem works_setFlags (cpu : Cpu) {status : Psr} (h : Psr.SamePrivilege cpu.cpsr status) :
    Works 0 cpu (cpu.setFlags status) :=
  ⟨h.mode, fun _ _ => rfl, rfl, Nat.le_refl _⟩

/-- A shift by a register takes one cycle, every other operand none. -/
theorem works_spendShift (cpu : Cpu) (operand : Arm.Operand) :
    Works 1 cpu (cpu.spendShift operand) := by
  unfold spendShift
  split
  · exact cpu.works_spend 1
  · exact (Works.refl cpu).mono (Nat.zero_le 1)

/-- The User copy of a register is live, or it is stored with the User registers or with the
high registers that FIQ has left. -/
theorem works_writeUserRegister (cpu : Cpu) (mode : Mode) (r : RegisterId) (value : Word) :
    Works 0 cpu (cpu.writeUserRegister mode r value) := by
  unfold writeUserRegister
  split
  · -- The copy is stored. Only two places of the bank can hold it, and neither is that of another
    -- mode.
    next bank hbank =>
    have hkept : (∀ b, b ≠ .user → bank.get b = cpu.bank.get b) ∧
        bank.highFiq = cpu.bank.highFiq := by
      unfold RegisterBank.setUserRegister? at hbank
      split at hbank
      · split at hbank
        · cases hbank
          exact ⟨fun b _ => by cases b <;> rfl, rfl⟩
        · cases hbank
      split at hbank
      · cases hbank
      split at hbank
      · cases hbank
        exact ⟨fun b hb => by cases b <;> first | rfl | exact absurd rfl hb, rfl⟩
      split at hbank
      · cases hbank
        exact ⟨fun b hb => by cases b <;> first | rfl | exact absurd rfl hb, rfl⟩
      · cases hbank
    exact ⟨rfl, hkept.1, hkept.2, Nat.le_refl _⟩
  · exact cpu.works_writeRegister r value

/-- The words of a list arrive one by one, each in a live register or in a User copy, and no word
takes a cycle of its own. -/
theorem works_foldl_takeWord (cpu : Cpu) (toUser : Bool) (mode : Mode)
    (words : List (RegisterId × Word)) :
    Works 0 cpu (words.foldl (takeWord toUser mode) cpu) := by
  induction words generalizing cpu with
  | nil => exact .refl cpu
  | cons word rest ih =>
    have hfirst : Works 0 cpu (takeWord toUser mode cpu word) := by
      unfold takeWord
      split
      · exact cpu.works_writeUserRegister mode word.1 word.2
      · exact cpu.works_writeRegister word.1 word.2
    exact hfirst.free (ih _)

/-- An exchange of the instruction set stays in the mode. -/
theorem works_branchExchange (cpu : Cpu) (r : RegisterId) :
    Works 0 cpu (cpu.branchExchange r) := by
  have hsame := Psr.SamePrivilege.withState cpu.cpsr (.ofBit ((cpu.register r).getLsbD 0))
  unfold branchExchange
  dsimp only
  rw [loadStatus_of_bank_eq (congrArg Mode.bank hsame.mode.symm)]
  exact (cpu.works_setFlags hsame).free (works_jump _ _)

/-- A branch writes the link register, or nothing, and then R15. -/
theorem works_branch (cpu : Cpu) (link : Bool) (offset : Word) :
    Works 0 cpu (cpu.branch link offset) := by
  unfold branch
  dsimp only
  split
  · exact (cpu.works_setRegister _ _).free (works_jump _ _)
  · exact works_jump _ _

/-! ### Outcomes -/

/-- The ways an instruction or a step can end, in at most so many cycles. After a switch every
mode sees its registers as the work has left them, and after an exception only the handler
sees others: its return address and the status it returns to. -/
inductive Outcome (cycles : Nat) (before after : Cpu) : Prop where
  | goesOn (works : Works cycles before after)
  | switches {left : Cpu} (works : Works cycles before left)
      (view : after.view = { left.view with pc := after.registers.pc })
      (spent : after.extraCycles ≤ before.extraCycles + cycles)
  | traps {left : Cpu} (kind : Exception) (lr : Word) (spsr : Psr)
      (works : Works cycles before left) (mode : after.cpsr.mode = kind.mode)
      (view : after.view =
        { left.view.setReturn kind.mode.bank lr spsr with pc := after.registers.pc })
      (spent : after.extraCycles ≤ before.extraCycles + cycles)

/-- A switch of the status takes no cycles, whether it changes the bank or not. -/
theorem extraCycles_loadStatus (cpu : Cpu) (status : Psr) :
    (cpu.loadStatus status).extraCycles = cpu.extraCycles := by
  unfold loadStatus
  dsimp only
  split <;> rfl

/-- A return to the saved status is a switch, if only to the status that is current. -/
theorem exists_restoreSavedStatus (cpu : Cpu) :
    ∃ status, cpu.restoreSavedStatus = cpu.loadStatus status := by
  unfold restoreSavedStatus
  split
  · exact ⟨_, rfl⟩
  · exact ⟨cpu.cpsr, (loadStatus_of_bank_eq rfl).symm⟩

namespace Outcome

variable {m n : Nat} {before middle after left : Cpu}

/-- A bound on the cycles of an outcome can be loosened as well. -/
theorem mono (h : Outcome m before after) (hle : m ≤ n) : Outcome n before after := by
  have hspent {a b : Nat} (h : a ≤ b + m) : a ≤ b + n :=
    Nat.le_trans h (Nat.add_le_add_left hle b)
  cases h with
  | goesOn works => exact .goesOn (works.mono hle)
  | switches works view spent => exact .switches (works.mono hle) view (hspent spent)
  | traps kind lr spsr works mode view spent =>
    exact .traps kind lr spsr (works.mono hle) mode view (hspent spent)

/-- Each of the three ways keeps to the bound. -/
theorem spent (h : Outcome n before after) : after.extraCycles ≤ before.extraCycles + n := by
  cases h with
  | goesOn works => exact works.spent
  | switches works view spent => exact spent
  | traps kind lr spsr works mode view spent => exact spent

/-- What is done before an instruction, at no cost, belongs to its work. -/
theorem after_works (h : Works 0 before middle) (h' : Outcome n middle after) :
    Outcome n before after := by
  have hworks {left : Cpu} (works : Works n middle left) : Works n before left :=
    (h.trans works).mono (by omega)
  have hspent : after.extraCycles ≤ before.extraCycles + n :=
    Nat.le_trans h'.spent (Nat.add_le_add_right h.spent n)
  cases h' with
  | goesOn works => exact .goesOn (hworks works)
  | switches works view _ => exact .switches (hworks works) view hspent
  | traps kind lr spsr works mode view _ =>
    exact .traps kind lr spsr (hworks works) mode view hspent

/-- Work followed by a switch of the status is the second way. The switch preserves the view, which
is what makes it harmless for the registers of all modes. -/
theorem of_loadStatus (h : Works n before left) (status : Psr) :
    Outcome n before (left.loadStatus status) := by
  refine .switches h ?_ ?_
  · rw [view_loadStatus, pc_loadStatus]
    rfl
  · rw [extraCycles_loadStatus]
    exact h.spent

/-- Work followed by a return to the saved status is the second way as well. -/
theorem of_restoreSavedStatus (h : Works n before left) :
    Outcome n before left.restoreSavedStatus := by
  obtain ⟨status, hstatus⟩ := left.exists_restoreSavedStatus
  rw [hstatus]
  exact .of_loadStatus h status

/-- Work followed by an exception is the third way. The handler sees its return address and the
status that the work has left. -/
theorem of_enter (h : Works n before left) (kind : Exception) :
    Outcome n before (left.enter kind) := by
  refine .traps kind (left.returnAddress kind) left.cpsr h ?_ ?_ ?_
  · rw [cpsr_enter, mode_handlerStatus]
  · have hpc : (left.enter kind).registers.pc = kind.vector :=
      congrArg RegisterView.pc (left.view_enter kind)
    rw [view_enter, hpc]
  · show (left.loadStatus (left.handlerStatus kind)).extraCycles ≤ _
    rw [extraCycles_loadStatus]
    exact h.spent

/-- What moves R15 alone, and takes some cycles, may follow any outcome. -/
theorem moved (h : Outcome m before middle) (works : Works n middle after)
    (cpsr : after.cpsr = middle.cpsr)
    (view : after.view = { middle.view with pc := after.registers.pc }) :
    Outcome (m + n) before after := by
  have hspent := h.spent
  have hmoved := works.spent
  cases h with
  | goesOn works' => exact .goesOn (works'.trans works)
  | switches works' view' _ =>
    refine .switches (works'.mono (Nat.le_add_right m n)) ?_ (by omega)
    rw [view, view']
  | traps kind lr spsr works' mode view' _ =>
    refine .traps kind lr spsr (works'.mono (Nat.le_add_right m n)) ?_ ?_ (by omega)
    · rw [cpsr]
      exact mode
    · rw [view, view']

/-- A jump after an outcome moves R15 alone. -/
theorem jump (h : Outcome n before middle) (target : Word) :
    Outcome n before (middle.jump target) := by
  refine h.moved (middle.works_jump target) rfl ?_
  have hpc : (middle.jump target).registers.pc = target := Registers.get_set_self ..
  rw [hpc]
  exact middle.view_setRegister_pc target

end Outcome

/-! ### ARM instructions -/

section Arm

open Arm

variable (cpu : Cpu)

/-- A data processing instruction changes nothing of the status but its four flags. -/
theorem samePrivilege_aluStatus (i : DataProcessing) :
    Psr.SamePrivilege cpu.cpsr (cpu.aluStatus i) := by
  unfold aluStatus
  dsimp only
  split
  · exact .withFlags ..
  · exact (Psr.SamePrivilege.withSignAndZero ..).trans (.withCarry ..)

/-- Data processing goes on in its mode, with one exception: with the S bit and R15 as its
destination it returns to the saved status. -/
theorem outcome_dataProcessing (i : DataProcessing) : Outcome 1 cpu (cpu.dataProcessing i) := by
  have hspent : Works 1 cpu (cpu.spendShift i.operand) := cpu.works_spendShift i.operand
  rw [dataProcessing_eq]
  -- The saved status is put back before R15 is written, so the jump comes last in both cases.
  by_cases hreturns : (i.setFlags && i.rd == .pc && !i.op.isTest) = true
  · obtain ⟨⟨-, hpc⟩, hresult⟩ : (i.setFlags = true ∧ i.rd = .pc) ∧ i.op.isTest = false := by
      simpa using hreturns
    have hbefore : cpu.beforeResult i = (cpu.spendShift i.operand).restoreSavedStatus :=
      if_pos hreturns
    rw [hresult, hpc, hbefore]
    exact (Outcome.of_restoreSavedStatus hspent).jump (cpu.aluValue i)
  · have hbefore : Works 1 cpu (cpu.beforeResult i) := by
      unfold beforeResult
      dsimp only
      rw [if_neg hreturns]
      split
      · refine hspent.free (works_setFlags _ ?_)
        rw [cpsr_spendShift]
        exact cpu.samePrivilege_aluStatus i
      · exact hspent
    split
    · exact .goesOn hbefore
    · exact .goesOn (hbefore.free (works_writeRegister _ i.rd _))

/-- The multiplier needs a cycle for each byte of its operand at most. -/
theorem multiplierCycles_le (operand : Word) (isSigned : Bool) :
    multiplierCycles operand isSigned ≤ 4 := by
  unfold multiplierCycles
  dsimp only
  split
  · decide
  split
  · decide
  split
  · decide
  · decide

/-- A multiplication takes the cycles of the multiplier, and one more to accumulate. -/
theorem works_multiply (i : Multiply) : Works 5 cpu (cpu.multiply i) := by
  have hflags (spent : Cpu) : Works 0 spent
      (if i.setFlags then spent.setFlags (spent.cpsr.withSignAndZero (cpu.product i))
        else spent) := by
    split
    · exact spent.works_setFlags (.withSignAndZero ..)
    · exact .refl spent
  have hcycles :
      multiplierCycles (cpu.register i.rs) true + (if i.accumulates then 1 else 0) ≤ 5 := by
    have hle := multiplierCycles_le (cpu.register i.rs) true
    split <;> omega
  exact (((cpu.works_spend _).mono hcycles).free (hflags _)).free (works_writeRegister ..)

/-- A long multiplication takes one cycle more for its second word. -/
theorem works_multiplyLong (i : MultiplyLong) : Works 6 cpu (cpu.multiplyLong i) := by
  let value := cpu.longProduct i
  have hflags (spent : Cpu) : Works 0 spent
      (if i.setFlags then spent.setFlags ((spent.cpsr.withSign value.msb).withZero (value == 0))
        else spent) := by
    split
    · exact spent.works_setFlags ((Psr.SamePrivilege.withSign ..).trans (.withZero ..))
    · exact .refl spent
  have hcycles : 1 + multiplierCycles (cpu.register i.rs) i.isSigned +
      (if i.accumulates then 1 else 0) ≤ 6 := by
    have hle := multiplierCycles_le (cpu.register i.rs) i.isSigned
    split <;> omega
  exact ((((cpu.works_spend _).mono hcycles).free (hflags _)).free
    (works_writeRegister ..)).free (works_writeRegister ..)

/-- A write of the current status may switch to any mode. -/
theorem outcome_writeStatus (target : StatusRegister) (mask : Word) (operand : Operand) :
    Outcome 1 cpu (cpu.writeStatus target mask operand) := by
  have hspent := cpu.works_spendShift operand
  unfold writeStatus
  cases target with
  | cpsr => exact .of_loadStatus hspent _
  | spsr =>
    dsimp only
    split
    · exact .goesOn (hspent.free ⟨rfl, fun _ _ => rfl, rfl, Nat.le_refl _⟩)
    · exact .goesOn hspent

end Arm

/-! ### Thumb instructions -/

section Low

open Thumb

variable (cpu : Cpu)

/-- Thumb instructions keep a result by setting flags and one low register. -/
theorem works_keep (rd : LowRegister) (value : Word) {status : Psr}
    (h : Psr.SamePrivilege cpu.cpsr status) :
    Works 0 cpu ((cpu.setFlags status).setRegister rd.id value) :=
  (cpu.works_setFlags h).free (works_setRegister ..)

/-- A value is kept with its sign and whether it is zero. -/
theorem works_keepValue (rd : LowRegister) (value : Word) : Works 0 cpu (cpu.keepValue rd value) :=
  cpu.works_keep rd value (.withSignAndZero ..)

/-- A shifted value is kept with the carry of the shifter as well. -/
theorem works_keepShifted (rd : LowRegister) (shifted : Shifted) :
    Works 0 cpu (cpu.keepShifted rd shifted) :=
  cpu.works_keep rd shifted.value ((Psr.SamePrivilege.withSignAndZero ..).trans (.withCarry ..))

/-- A sum is kept with all four flags. -/
theorem works_keepSum (rd : LowRegister) (sum : AluResult) : Works 0 cpu (cpu.keepSum rd sum) :=
  cpu.works_keep rd sum.value (.withFlags ..)

/-- A comparison sets the flags of a sum and keeps nothing. -/
theorem works_flagSum (sum : AluResult) : Works 0 cpu (cpu.flagSum sum) :=
  cpu.works_setFlags (.withFlags ..)

/-- A test sets the flags of a value and keeps nothing. -/
theorem works_flagValue (value : Word) : Works 0 cpu (cpu.flagValue value) :=
  cpu.works_setFlags (.withSignAndZero ..)

/-- Operations with an immediate keep their result, or only compare. -/
theorem works_immediateOperation (op : ImmediateOp) (rd : LowRegister) (value : Word) :
    Works 0 cpu (cpu.immediateOperation op rd value) := by
  cases op with
  | mov => exact cpu.works_keepValue rd value
  | cmp => exact cpu.works_flagSum _
  | add | sub => exact cpu.works_keepSum rd _

/-- Of the operations between low registers, only shifts and multiplications take cycles, and none
more than the four of the multiplier. -/
theorem works_aluOperation (op : Thumb.AluOp) (rs rd : LowRegister) :
    Works 4 cpu (cpu.aluOperation op rs rd) := by
  have hfree {after : Cpu} (h : Works 0 cpu after) : Works 4 cpu after := h.mono (Nat.zero_le 4)
  have hshift (kind : ShiftKind) : Works 4 cpu (cpu.shiftByRegister kind rs rd) :=
    ((cpu.works_spend 1).free (works_keepShifted ..)).mono (by decide)
  cases op with
  | and | eor | orr | bic | mvn => exact hfree (cpu.works_keepValue rd _)
  | lsl | lsr | asr | ror => exact hshift _
  | adc | sbc | neg => exact hfree (cpu.works_keepSum rd _)
  | tst => exact hfree (cpu.works_flagValue _)
  | cmp | cmn => exact hfree (cpu.works_flagSum _)
  | mul =>
    exact ((cpu.works_spend _).mono (multiplierCycles_le _ _)).free (works_keepValue ..)

end Low

/-! ### Transfers -/

section Memory

variable {β : Type} [MemoryBus β] (cpu : Cpu) (bus : β)

/-- A load makes one access. If nothing answers, the instruction is given up and the data abort
handler starts. -/
theorem outcome_loadRegister (kind : Load) (address : Word) (newBase : Option (RegisterId × Word))
    (r : RegisterId) : Outcome 1 cpu (cpu.loadRegister bus kind address newBase r).1 := by
  unfold loadRegister
  obtain ⟨answer, bus'⟩ := kind.run bus address
  cases answer with
  | none => exact .of_enter (cpu.works_spend 1) .dataAbort
  | some value =>
    exact .goesOn (((cpu.works_spend 1).free (works_writeBase _ newBase)).free
      (works_writeRegister _ r value))

/-- A store makes one access, and is given up in the same way. -/
theorem outcome_storeValue (kind : Store) (address value : Word)
    (newBase : Option (RegisterId × Word)) :
    Outcome 1 cpu (cpu.storeValue bus kind address value newBase).1 := by
  unfold storeValue
  obtain ⟨accepted, bus'⟩ := kind.run bus address value
  cases accepted with
  | false => exact .of_enter (cpu.works_spend 1) .dataAbort
  | true => exact .goesOn ((cpu.works_spend 1).free (works_writeBase _ newBase))

/-- A swap loads and then stores, and can be given up at either. -/
theorem outcome_swap (i : Arm.Swap) : Outcome 2 cpu (cpu.swap bus i).1 := by
  rw [swap_eq]
  obtain ⟨answer, bus'⟩ := i.quantity.load.run bus (cpu.register i.rn)
  cases answer with
  | none => exact .of_enter ((cpu.works_spend 1).mono (by decide)) .dataAbort
  | some old =>
    dsimp only
    obtain ⟨accepted, bus''⟩ := i.quantity.store.run bus' (cpu.register i.rn) (cpu.register i.rm)
    cases accepted with
    | false => exact .of_enter (cpu.works_spend 2) .dataAbort
    | true => exact .goesOn ((cpu.works_spend 2).free (works_writeRegister _ i.rd old))

/-- A list has sixteen registers at most. An empty one stands for R15 alone. -/
theorem length_blockRegisters_le (t : BlockTransfer) : (blockRegisters t).length ≤ 16 := by
  unfold blockRegisters
  split
  · decide
  · exact Nat.le_trans (List.length_filter_le ..) (by decide)

omit bus in
/-- A run of stores makes no more accesses than there are words. -/
theorem accesses_storeWords_le (bus : β) (address : Word) (values : List Word) :
    (storeWords bus address values).1.accesses ≤ values.length := by
  induction values generalizing bus address with
  | nil => exact Nat.le_refl 0
  | cons value rest ih =>
    unfold storeWords
    obtain ⟨accepted, bus'⟩ := MemoryBus.store32 bus (wordAligned address) value
    cases accepted with
    | false => exact Nat.succ_le_succ (Nat.zero_le _)
    | true => exact Nat.succ_le_succ (ih bus' (address + 4))

omit bus in
/-- A run of loads makes no more accesses than it is to make. -/
theorem accesses_loadWords_le (bus : β) (address : Word) (count : Nat) :
    (loadWords bus address count).1.accesses ≤ count := by
  induction count generalizing bus address with
  | zero => exact Nat.le_refl 0
  | succ count ih =>
    unfold loadWords
    obtain ⟨answer, bus'⟩ := MemoryBus.load32 bus (wordAligned address)
    cases answer with
    | none => exact Nat.succ_le_succ (Nat.zero_le _)
    | some value => exact Nat.succ_le_succ (ih bus' (address + 4))

omit bus in
/-- A register list makes at most as many accesses as there are registers. -/
theorem accesses_storedList_le (bus : β) (address : Word) (t : BlockTransfer)
    (value : RegisterId → Word) :
    (storeWords bus address ((blockRegisters t).map value)).1.accesses ≤ 16 := by
  have hle := accesses_storeWords_le bus address ((blockRegisters t).map value)
  rw [List.length_map] at hle
  exact Nat.le_trans hle (length_blockRegisters_le t)

omit bus in
/-- The load of a register list makes at most sixteen accesses. -/
theorem accesses_loadedList_le (bus : β) (address : Word) (t : BlockTransfer) :
    (loadWords bus address (blockRegisters t).length).1.accesses ≤ 16 :=
  Nat.le_trans (accesses_loadWords_le ..) (length_blockRegisters_le t)

/-- A list store spends its accesses and then writes its base back, or is given up. -/
theorem outcome_storeBlock (t : BlockTransfer) : Outcome 16 cpu (cpu.storeBlock bus t).1 := by
  let words := storeWords bus (blockStart t (cpu.register t.base))
    ((blockRegisters t).map (cpu.listedValue t))
  let stored := cpu.spend words.1.accesses
  have hstored : Works 16 cpu stored := (cpu.works_spend _).mono (accesses_storedList_le ..)
  rw [storeBlock_eq]
  dsimp only
  split
  · exact .goesOn (hstored.free (stored.works_writeBase _))
  · exact .of_enter hstored .dataAbort

/-- A list with R15 may bring the saved status back, a list without it may reach User registers
that are stored. A load that fails is given up with what it has written by then. -/
theorem outcome_loadBlock (t : BlockTransfer) : Outcome 16 cpu (cpu.loadBlock bus t).1 := by
  let words := loadWords bus (blockStart t (cpu.register t.base)) (blockRegisters t).length
  let based := (cpu.writeBase (cpu.blockBase? t)).spend words.1.accesses
  let done := ((blockRegisters t).zip words.1.outcome).foldl
    (takeWord (loadsUser t) cpu.cpsr.mode) based
  have haccesses : words.1.accesses ≤ 16 := accesses_loadedList_le ..
  -- At most 16 accesses: the list holds no more registers.
  have hbased : Works 16 cpu based := by
    have hspent := ((cpu.writeBase (cpu.blockBase? t)).works_spend words.1.accesses).mono haccesses
    exact ((cpu.works_writeBase _).trans hspent).mono (by decide)
  have hdone : Works 16 cpu done := hbased.free (based.works_foldl_takeWord ..)
  rw [loadBlock_eq]
  dsimp only
  split
  · exact .of_enter hdone .dataAbort
  split
  · exact .of_restoreSavedStatus hdone
  · exact .goesOn hdone

/-- Both directions of a list transfer end in one of the three ways. -/
theorem outcome_transferBlock (t : BlockTransfer) :
    Outcome 16 cpu (cpu.transferBlock bus t).1 := by
  unfold transferBlock
  cases t.direction with
  | store => exact cpu.outcome_storeBlock bus t
  | load => exact cpu.outcome_loadBlock bus t

/-- The transfers of low registers are loads and stores of one value. -/
theorem outcome_transferLow (direction : Direction) (quantity : Quantity) (address : Word)
    (rd : Thumb.LowRegister) :
    Outcome 1 cpu (cpu.transferLow bus direction quantity address rd).1 := by
  cases direction with
  | load => cases quantity <;> exact cpu.outcome_loadRegister ..
  | store => cases quantity <;> exact cpu.outcome_storeValue ..

/-- The transfers of halfwords and signed values are loads and stores of one value. -/
theorem outcome_transferLowSigned (transfer : Thumb.SignedTransfer) (address : Word)
    (rd : Thumb.LowRegister) :
    Outcome 1 cpu (cpu.transferLowSigned bus transfer address rd).1 := by
  cases transfer with
  | storeHalf => exact cpu.outcome_storeValue ..
  | loadHalf | loadSignedByte | loadSignedHalf => exact cpu.outcome_loadRegister ..

/-! ### Both instruction sets -/

/-- Every ARM instruction ends in one of the three ways. The sixteen cycles are those of the longest
list. -/
theorem outcome_performArm (i : Arm.Instruction) : Outcome 16 cpu (cpu.performArm bus i).1 := by
  cases i with
  | dataProcessing i => exact (cpu.outcome_dataProcessing i).mono (by decide)
  | multiply i => exact .goesOn ((cpu.works_multiply i).mono (by decide))
  | multiplyLong i => exact .goesOn ((cpu.works_multiplyLong i).mono (by decide))
  | readStatus source rd => exact .goesOn ((cpu.works_writeRegister rd _).mono (by decide))
  | writeStatus target mask operand =>
    exact (cpu.outcome_writeStatus target mask operand).mono (by decide)
  | swap i => exact (cpu.outcome_swap bus i).mono (by decide)
  | branchExchange r => exact .goesOn ((cpu.works_branchExchange r).mono (by decide))
  | halfwordTransfer i =>
    unfold performArm halfwordTransfer
    dsimp only
    cases i.direction with
    | load => exact (cpu.outcome_loadRegister ..).mono (by decide)
    | store => exact (cpu.outcome_storeValue ..).mono (by decide)
  | singleTransfer i =>
    unfold performArm singleTransfer
    dsimp only
    cases i.direction with
    | load => cases i.quantity <;> exact (cpu.outcome_loadRegister ..).mono (by decide)
    | store => cases i.quantity <;> exact (cpu.outcome_storeValue ..).mono (by decide)
  | blockTransfer t => exact cpu.outcome_transferBlock bus t
  | branch link offset => exact .goesOn ((cpu.works_branch link offset).mono (by decide))
  | softwareInterrupt comment =>
    exact .of_enter ((Works.refl cpu).mono (by decide)) .softwareInterrupt
  | undefined => exact .of_enter ((Works.refl cpu).mono (by decide)) .undefined

/-- Every Thumb instruction ends in one of the three ways, with the same bound. -/
theorem outcome_performThumb (i : Thumb.Instruction) :
    Outcome 16 cpu (cpu.performThumb bus i).1 := by
  -- The bound is 16 for every instruction, and only the block transfers come near it.
  have hfree {after : Cpu} (h : Works 0 cpu after) : Outcome 16 cpu after :=
    .goesOn (h.mono (Nat.zero_le 16))
  have hone {after : Cpu} (h : Outcome 1 cpu after) : Outcome 16 cpu after := h.mono (by decide)
  cases i with
  | shift kind amount rs rd => exact hfree (cpu.works_keepShifted rd _)
  | addSubtract subtract addend rs rd => exact hfree (cpu.works_keepSum rd _)
  | immediate op rd value => exact hfree (cpu.works_immediateOperation op rd value)
  | alu op rs rd => exact .goesOn ((cpu.works_aluOperation op rs rd).mono (by decide))
  | high op rs rd =>
    cases op with
    | add | mov => exact hfree (cpu.works_writeRegister rd _)
    | cmp => exact hfree (cpu.works_flagSum _)
    | bx => exact hfree (cpu.works_branchExchange rs)
  | loadLiteral rd offset => exact hone (cpu.outcome_loadRegister ..)
  | transferIndexed direction quantity index base rd => exact hone (cpu.outcome_transferLow ..)
  | transferSigned transfer index base rd => exact hone (cpu.outcome_transferLowSigned ..)
  | transferOffset direction quantity offset base rd => exact hone (cpu.outcome_transferLow ..)
  | transferHalf direction offset base rd =>
    cases direction with
    | load | store => exact hone (cpu.outcome_transferLowSigned ..)
  | transferStack direction rd offset => exact hone (cpu.outcome_transferLow ..)
  | loadAddress base rd offset => exact hfree (cpu.works_setRegister rd.id _)
  | moveStack offsetting offset => exact hfree (cpu.works_setRegister .sp _)
  | push registers link => exact cpu.outcome_transferBlock bus _
  | pop registers pc => exact cpu.outcome_transferBlock bus _
  | transferBlock direction base registers => exact cpu.outcome_transferBlock bus _
  | conditionalBranch condition offset =>
    unfold performThumb
    dsimp only
    split
    · exact hfree (cpu.works_branch false offset)
    · exact hfree (.refl cpu)
  | softwareInterrupt comment =>
    exact .of_enter ((Works.refl cpu).mono (by decide)) .softwareInterrupt
  | branch offset => exact hfree (cpu.works_branch false offset)
  | callUpper offset => exact hfree (cpu.works_setRegister .lr _)
  | callLower offset => exact hfree ((cpu.works_setRegister .lr _).free (works_jump _ _))
  | undefined => exact .of_enter ((Works.refl cpu).mono (by decide)) .undefined

/-! ### The step -/

/-- What a step sets out to do is an instruction, or an exception that comes before one. R15 is
aligned first, which is work. -/
theorem outcome_carryOut (task : Task) : Outcome 16 cpu (cpu.carryOut bus task).1 := by
  have haligned : Works 0 cpu cpu.alignPc := cpu.works_setRegister .pc _
  cases task with
  | take kind => exact .of_enter ((Works.refl cpu).mono (by decide)) kind
  | abort => exact .of_enter (haligned.mono (by decide)) .prefetchAbort
  | arm code =>
    refine Outcome.after_works haligned ?_
    show Outcome 16 _ (cpu.alignPc.executeArm bus code).1
    unfold executeArm
    split
    · exact outcome_performArm _ bus code.instruction
    · exact .goesOn ((Works.refl _).mono (by decide))
  | thumb code => exact .after_works haligned (outcome_performThumb _ bus code.instruction)

omit bus in
/-- The end of a step moves R15 alone, and takes the two cycles of a refill at most. -/
theorem Outcome.advance {n : Nat} {before after : Cpu} (h : Outcome n before after) :
    Outcome (n + 2) before after.advance := by
  refine h.moved ?_ after.cpsr_advance ?_
  · unfold Cpu.advance
    split
    · exact (after.works_setRegister .pc _).trans (works_spend _ 2)
    · exact (after.works_setRegister .pc _).mono (by decide)
  · unfold Cpu.advance
    split
    · have hpc : after.refill.registers.pc = _ := Registers.get_set_self ..
      rw [view_refill, hpc]
    · have hpc : ∀ value, (after.setRegister .pc value).registers.pc = value :=
        fun _ => Registers.get_set_self ..
      rw [view_setRegister_pc, hpc]

/-- A step ends in one of the three ways, counted from its beginning. -/
theorem outcome_step (lines : InterruptLines) :
    Outcome 18 cpu.beginStep (cpu.step bus lines).2.1 := by
  rw [step_eq]
  exact (outcome_carryOut ..).advance

/-- A step takes no more cycles than a list of all registers with a refill. -/
theorem cycles_step_le (lines : InterruptLines) : (cpu.step bus lines).1 ≤ 19 := by
  have hspent := (cpu.outcome_step bus lines).spent
  rw [step_eq] at hspent ⊢
  change _ ≤ 0 + 18 at hspent
  dsimp only [stepCycles] at hspent ⊢
  omega

end Memory

end Cpu

end AdvanceCore
