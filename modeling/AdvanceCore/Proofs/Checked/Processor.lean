import AdvanceCore.Proofs.Checked.Status
import AdvanceCore.Proofs.Cpu.StepOutcomes

/-!
# `AdvanceCore.Proofs.Checked.Processor`: the pipeline, exceptions and transfers

What both instruction sets are built from, in checked form: the count of the cycles, the
addresses that follow from R15, the switch of the mode, the entry of a handler and the
transfers between registers and memory. The bus is any bus. What can break behind it is not
the business of the processor.

A counter of thirty-two bits holds the cycles of a step. It starts at zero, and whatever an
instruction adds to it is small, so the lemmas about instructions only ask that the upper half
of its range is still free (`spend?_of_room`).
-/

set_option autoImplicit false

namespace AdvanceCore

open Bits

/-! ### The pipeline -/

namespace CpuState

/-- The checked form of `pipelineOffset`. -/
def pipelineOffset? (s : CpuState) : Option Word :=
  return BitVec.ofNat 32 (← product? 32 s.instructionWidth.toNat 2)

/-- The address bits that a code of a state has. -/
def alignment? (s : CpuState) : Option Word :=
  return ~~~BitVec.ofNat 32 (← difference? s.instructionWidth.toNat 1)

/-- The distance that R15 is ahead is twice the width of an instruction. -/
@[simp] theorem pipelineOffset?_eq (s : CpuState) : s.pipelineOffset? = some s.pipelineOffset := by
  cases s <;> rfl

/-- The mask of an instruction set clears the bits below the width of an instruction. -/
@[simp] theorem alignment?_eq (s : CpuState) :
    s.alignment? = some (~~~(s.instructionWidth - 1)) := by
  cases s <;> rfl

end CpuState

namespace Cpu

/-- The checked form of `spend`. -/
def spend? (cpu : Cpu) (cycles : Nat) : Option Cpu :=
  return { cpu with extraCycles := ← sum? 32 cpu.extraCycles cycles }

/-- The checked form of `currentInstruction`. -/
def currentInstruction? (cpu : Cpu) : Option Word :=
  return cpu.registers.pc - (← (← cpu.cpsr.state?).pipelineOffset?)

/-- The checked form of `nextInstruction`. -/
def nextInstruction? (cpu : Cpu) : Option Word :=
  return cpu.registers.pc - (← cpu.cpsr.state?).instructionWidth

/-- The checked form of `codeAligned`. -/
def codeAligned? (cpu : Cpu) (address : Word) : Option Word :=
  return address &&& (← (← cpu.cpsr.state?).alignment?)

/-- The checked form of `refill`. -/
def refill? (cpu : Cpu) : Option Cpu := do
  let target := (← cpu.codeAligned? cpu.registers.pc) + (← (← cpu.cpsr.state?).pipelineOffset?)
  (cpu.setRegister .pc target).spend? 2

/-- The upper half of the counter of the cycles is still free. -/
def HasRoom (cpu : Cpu) : Prop := cpu.extraCycles < 0x80000000

/-- There is room for a small number of cycles. -/
@[simp] theorem spend?_of_room {cpu : Cpu} (h : cpu.HasRoom) {cycles : Nat}
    (hcycles : cycles < 0x80000000) : cpu.spend? cycles = some (cpu.spend cycles) := by
  unfold HasRoom at h
  have hsum : cpu.extraCycles + cycles < 2 ^ 32 := by omega
  simp [spend?, spend, sum?_of_lt hsum]

/-- The current instruction is found from R15, whatever the T bit. -/
@[simp] theorem currentInstruction?_eq (cpu : Cpu) :
    cpu.currentInstruction? = some cpu.currentInstruction := by
  simp [currentInstruction?, currentInstruction]

/-- The next instruction is found from R15, whatever the T bit. -/
@[simp] theorem nextInstruction?_eq (cpu : Cpu) :
    cpu.nextInstruction? = some cpu.nextInstruction := by
  simp [nextInstruction?, nextInstruction]

/-- An address is aligned for the current instruction set. -/
@[simp] theorem codeAligned?_eq (cpu : Cpu) (address : Word) :
    cpu.codeAligned? address = some (cpu.codeAligned address) := by
  simp [codeAligned?, codeAligned]

/-- A refill moves R15 ahead and takes two cycles. -/
@[simp] theorem refill?_of_room {cpu : Cpu} (h : cpu.HasRoom) :
    cpu.refill? = some cpu.refill := by
  have hroom (target : Word) : (cpu.setRegister .pc target).HasRoom := h
  simp [refill?, hroom]
  rfl

/-! ### Status and exceptions -/

/-- The checked form of `loadStatus`. -/
def loadStatus? (cpu : Cpu) (status : Psr) : Option Cpu := do
  let old ← cpu.cpsr.mode?
  let new ← status.mode?
  if old.bank = new.bank then return { cpu with cpsr := status }
  else
    let bank ← cpu.bank.store? old cpu.registers cpu.spsr
    let (registers, spsr) ← bank.restore? new cpu.registers
    return { cpu with cpsr := status, spsr := spsr, registers := registers, bank := bank }

/-- The checked form of `restoreSavedStatus`. -/
def restoreSavedStatus? (cpu : Cpu) : Option Cpu := do
  if (← cpu.cpsr.mode?).hasSavedStatus then cpu.loadStatus? cpu.spsr else return cpu

/-- The checked form of `returnAddress`. -/
def returnAddress? (cpu : Cpu) : Exception → Option Word
  | .dataAbort => cpu.currentInstruction?
  | .prefetchAbort => return (← cpu.currentInstruction?) + (← cpu.cpsr.state?).instructionWidth
  | .irq | .fiq => return (← cpu.currentInstruction?) + 4
  | .reset | .undefined | .softwareInterrupt => cpu.nextInstruction?

/-- The checked form of `handlerStatus`. -/
def handlerStatus? (cpu : Cpu) (kind : Exception) : Option Psr := do
  let status ← cpu.cpsr.withMode? kind.mode
  let status ← status.withState? .arm
  let status ← status.withFlag? 7 true
  if kind.masksFiq then status.withFlag? 6 true else return status

/-- The checked form of `enter`. -/
def enter? (cpu : Cpu) (kind : Exception) : Option Cpu := do
  let returnAddress ← cpu.returnAddress? kind
  let entered ← cpu.loadStatus? (← cpu.handlerStatus? kind)
  return ({ entered with spsr := cpu.cpsr }.setRegister .lr returnAddress).jump kind.vector

/-- The checked form of `pendingException`, which gives the exception if there is one. -/
def pendingCheck? (cpu : Cpu) (lines : InterruptLines) : Option (Option Exception) := do
  let fiqDisable ← cpu.cpsr.flag? 6
  let irqDisable ← cpu.cpsr.flag? 7
  if lines.reset then return some .reset
  else if lines.fiq && !fiqDisable then return some .fiq
  else if lines.irq && !irqDisable then return some .irq
  else return none

/-- A switch of the status stores one bank and restores another. Both are found for every value of
the mode field. -/
@[simp] theorem loadStatus?_eq (cpu : Cpu) (status : Psr) :
    cpu.loadStatus? status = some (cpu.loadStatus status) := by
  simp [loadStatus?, loadStatus, ← apply_ite some]

/-- A return to the saved status is such a switch. -/
@[simp] theorem restoreSavedStatus?_eq (cpu : Cpu) :
    cpu.restoreSavedStatus? = some cpu.restoreSavedStatus := by
  simp [restoreSavedStatus?, restoreSavedStatus, ← apply_ite some]

/-- The address that an exception returns to is computed from R15. -/
@[simp] theorem returnAddress?_eq (cpu : Cpu) (kind : Exception) :
    cpu.returnAddress? kind = some (cpu.returnAddress kind) := by
  cases kind <;> simp [returnAddress?, returnAddress]

/-- The status of a handler is set up bit by bit: its mode, ARM state and one or both masks. -/
@[simp] theorem handlerStatus?_eq (cpu : Cpu) (kind : Exception) :
    cpu.handlerStatus? kind = some (cpu.handlerStatus kind) := by
  simp [handlerStatus?, handlerStatus, Psr.withIrqDisable, Psr.withFiqDisable,
    ← apply_ite some]

/-- An exception can be entered from every state: its return address, status and bank are all found.
-/
@[simp] theorem enter?_eq (cpu : Cpu) (kind : Exception) :
    cpu.enter? kind = some (cpu.enter kind) := by
  simp [enter?, enter]

/-- The masks of the interrupts are bits 6 and 7 of the status. -/
@[simp] theorem pendingCheck?_eq (cpu : Cpu) (lines : InterruptLines) :
    cpu.pendingCheck? lines = some (cpu.pendingException lines) := by
  simp [pendingCheck?, pendingException, Psr.fiqDisable, Psr.irqDisable, ← apply_ite some]

/-! ### Jumps -/

/-- The checked form of `branchExchange`. -/
def branchExchange? (cpu : Cpu) (r : RegisterId) : Option Cpu := do
  let target := cpu.register r
  let exchanged ← cpu.loadStatus? (← cpu.cpsr.withState? (.ofBit (← bit? target 0)))
  return exchanged.jump (target &&& ~~~1)

/-- The lowest bit of the target selects the instruction set. -/
@[simp] theorem branchExchange?_eq (cpu : Cpu) (r : RegisterId) :
    cpu.branchExchange? r = some (cpu.branchExchange r) := by
  simp [branchExchange?, branchExchange]

end Cpu

/-! ### Transfers -/

section Transfers

variable {β : Type} [MemoryBus β]

/-- The checked form of `loadSignedByte`. -/
def loadSignedByte? (bus : β) (address : Word) : Option (Option Word × β) :=
  match MemoryBus.load8 bus address with
  | (none, bus) => return (none, bus)
  | (some value, bus) => return (some (← signExtendLow? (value.setWidth 32) 8), bus)

/-- The checked form of `Load.run`. -/
def Load.run? (kind : Load) (bus : β) (address : Word) : Option (Option Word × β) := do
  match kind with
  | .word =>
    let turn ← product? 32 (address &&& 3).toNat 8
    let (value, bus) := MemoryBus.load32 bus (wordAligned address)
    return (value.map fun v => v.rotateRight turn, bus)
  | .half =>
    let turn ← product? 32 (address &&& 1).toNat 8
    let (value, bus) := MemoryBus.load16 bus (halfAligned address)
    return (value.map fun v => (v.setWidth 32).rotateRight turn, bus)
  | .byte =>
    let (value, bus) := MemoryBus.load8 bus address
    return (value.map fun v => v.setWidth 32, bus)
  | .signedByte => loadSignedByte? bus address
  | .signedHalf =>
    if ← bit? address 0 then loadSignedByte? bus address
    else
      match MemoryBus.load16 bus address with
      | (none, bus) => return (none, bus)
      | (some value, bus) => return (some (← signExtendLow? (value.setWidth 32) 16), bus)

/-- A byte is extended from bit 7, if one is loaded. -/
@[simp] theorem loadSignedByte?_eq (bus : β) (address : Word) :
    loadSignedByte? bus address = some (loadSignedByte bus address) := by
  unfold loadSignedByte? loadSignedByte
  obtain ⟨_ | value, bus'⟩ := MemoryBus.load8 bus address
  · rfl
  · simp [signExtendLow]

/-- A load turns its value by less than thirty-two bits. -/
@[simp] theorem Load.run?_eq (kind : Load) (bus : β) (address : Word) :
    kind.run? bus address = some (kind.run bus address) := by
  cases kind with
  | word =>
    -- The rotation is by eight places for each byte of misalignment: 24 at most.
    have hlow : (address &&& 3).toNat ≤ 3 := toNat_and_le address 3
    have hturn : (address &&& 3).toNat * 8 < 2 ^ 32 := by omega
    simp only [run?, product?_of_lt hturn, Option.bind_eq_bind, Option.bind_some]
    rfl
  | half =>
    have hlow : (address &&& 1).toNat ≤ 1 := toNat_and_le address 1
    have hturn : (address &&& 1).toNat * 8 < 2 ^ 32 := by omega
    simp only [run?, product?_of_lt hturn, Option.bind_eq_bind, Option.bind_some]
    rfl
  | byte => rfl
  | signedByte => exact loadSignedByte?_eq bus address
  | signedHalf =>
    simp only [run?, run, bit?_of_lt, Nat.reduceLT, loadSignedByte?_eq, Option.bind_eq_bind,
      Option.bind_some]
    split
    · rfl
    · obtain ⟨_ | value, bus'⟩ := MemoryBus.load16 bus address
      · rfl
      · simp [signExtendLow]

/-- Puts a register in front of others if its bit is set. -/
def RegisterId.listed? (list : Half) (r : RegisterId) (rest : List RegisterId) :
    Option (List RegisterId) :=
  return if ← bit? list r.val then r :: rest else rest

/-- The checked form of `RegisterId.ofList`, which looks at all sixteen bits. -/
def RegisterId.ofList? (list : Half) : Option (List RegisterId) :=
  (List.finRange 16).foldrM (fun r rest => listed? list r rest) []

/-- Each of the sixteen bits of a list is looked at once. -/
@[simp] theorem RegisterId.ofList?_eq (list : Half) : ofList? list = some (ofList list) := by
  have key (rs : List RegisterId) :
      rs.foldrM (fun r rest => listed? list r rest) [] =
        some (rs.filter fun r : RegisterId => list.getLsbD r) := by
    induction rs with
    | nil => rfl
    | cons r rest ih =>
      rw [List.foldrM_cons, ih, List.filter_cons]
      simp only [listed?, bit?_of_lt list r.isLt, Option.bind_eq_bind, Option.bind_some]
      rfl
  exact key (List.finRange 16)

namespace Cpu

/-- The checked form of `blockRegisters`. -/
def blockRegisters? (t : BlockTransfer) : Option (List RegisterId) :=
  if t.registers = 0 then return [.pc] else RegisterId.ofList? t.registers

/-- The checked form of `blockSize`. -/
def blockSize? (t : BlockTransfer) : Option Word := do
  if t.registers = 0 then return 0x40
  else return BitVec.ofNat 32 (← product? 32 4 (← blockRegisters? t).length)

/-- The checked form of `blockStart`. -/
def blockStart? (t : BlockTransfer) (base : Word) : Option Word := do
  let size ← blockSize? t
  return match t.offsetting, t.indexing with
    | .up, .post => base
    | .up, .pre => base + 4
    | .down, .post => base - size + 4
    | .down, .pre => base - size

/-- The checked form of `userStoredRegister`. -/
def userStoredRegister? (cpu : Cpu) (r : RegisterId) : Option Word :=
  return (cpu.bank.userRegister? (← cpu.cpsr.mode?) r).getD (cpu.storedRegister r)

/-- The checked form of `loadRegister`. -/
def loadRegister? (cpu : Cpu) (bus : β) (kind : Load) (address : Word)
    (newBase : Option (RegisterId × Word)) (r : RegisterId) : Option (Cpu × β) := do
  let cpu ← cpu.spend? 1
  match ← kind.run? bus address with
  | (none, bus) => return (← cpu.enter? .dataAbort, bus)
  | (some value, bus) => return ((cpu.writeBase newBase).writeRegister r value, bus)

/-- The checked form of `storeValue`. -/
def storeValue? (cpu : Cpu) (bus : β) (kind : Store) (address value : Word)
    (newBase : Option (RegisterId × Word)) : Option (Cpu × β) := do
  let cpu ← cpu.spend? 1
  match kind.run bus address value with
  | (false, bus) => return (← cpu.enter? .dataAbort, bus)
  | (true, bus) => return (cpu.writeBase newBase, bus)

/-- The checked form of `listedValue`. -/
def listedValue? (cpu : Cpu) (t : BlockTransfer) (r : RegisterId) : Option Word := do
  if r = t.base ∧ t.writeBack ∧ (← blockRegisters? t).head? ≠ some r then
    return t.offsetting.apply (cpu.register t.base) (← blockSize? t)
  else if t.statusBit then cpu.userStoredRegister? r
  else return cpu.storedRegister r

/-- The checked form of `storeBlock`. -/
def storeBlock? (cpu : Cpu) (bus : β) (t : BlockTransfer) : Option (Cpu × β) := do
  let base := cpu.register t.base
  let newBase := t.offsetting.apply base (← blockSize? t)
  let registers ← blockRegisters? t
  let values ← registers.mapM (cpu.listedValue? t)
  let (run, bus) := storeWords bus (← blockStart? t base) values
  let cpu ← cpu.spend? run.accesses
  if run.outcome then
    return (if t.writeBack then cpu.writeRegister t.base newBase else cpu, bus)
  else return (← cpu.enter? .dataAbort, bus)

/-- The checked form of `loadBlock`. -/
def loadBlock? (cpu : Cpu) (bus : β) (t : BlockTransfer) : Option (Cpu × β) := do
  let base := cpu.register t.base
  let newBase := t.offsetting.apply base (← blockSize? t)
  let registers ← blockRegisters? t
  let loadsPc := registers.contains .pc
  let mode ← cpu.cpsr.mode?
  let cpu := if t.writeBack then cpu.writeRegister t.base newBase else cpu
  let (run, bus) := loadWords bus (← blockStart? t base) registers.length
  let write (cpu : Cpu) (loaded : RegisterId × Word) : Cpu :=
    if t.statusBit && !loadsPc then cpu.writeUserRegister mode loaded.1 loaded.2
    else cpu.writeRegister loaded.1 loaded.2
  let cpu := (registers.zip run.outcome).foldl write (← cpu.spend? run.accesses)
  if run.outcome.length < registers.length then return (← cpu.enter? .dataAbort, bus)
  else if t.statusBit && loadsPc then return (← cpu.restoreSavedStatus?, bus)
  else return (cpu, bus)

/-- The checked form of `transferBlock`. -/
def transferBlock? (cpu : Cpu) (bus : β) (t : BlockTransfer) : Option (Cpu × β) :=
  match t.direction with
  | .store => cpu.storeBlock? bus t
  | .load => cpu.loadBlock? bus t

/-- The registers of a transfer are found, also for the empty list. -/
@[simp] theorem blockRegisters?_eq (t : BlockTransfer) :
    blockRegisters? t = some (blockRegisters t) := by
  simp [blockRegisters?, blockRegisters, ← apply_ite some]

/-- There are sixteen of them at most, so their size in bytes fits in a word. -/
@[simp] theorem blockSize?_eq (t : BlockTransfer) : blockSize? t = some (blockSize t) := by
  have hlength := length_blockRegisters_le t
  have hsmall : 4 * (blockRegisters t).length < 2 ^ 32 := by omega
  simp [blockSize?, blockSize, product?_of_lt hsmall, ← apply_ite some]

/-- The lowest address of a transfer is computed from its size, with wrap-around. -/
@[simp] theorem blockStart?_eq (t : BlockTransfer) (base : Word) :
    blockStart? t base = some (blockStart t base) := by
  simp only [blockStart?, blockSize?_eq, Option.bind_eq_bind, Option.bind_some]
  rfl

/-- The User copy of a register is found in every mode. -/
@[simp] theorem userStoredRegister?_eq (cpu : Cpu) (r : RegisterId) :
    cpu.userStoredRegister? r = some (cpu.userStoredRegister r) := by
  simp [userStoredRegister?, userStoredRegister]

/-- The value that a list stores for a register is found. -/
@[simp] theorem listedValue?_eq (cpu : Cpu) (t : BlockTransfer) (r : RegisterId) :
    cpu.listedValue? t r = some (cpu.listedValue t r) := by
  simp [listedValue?, listedValue, ← apply_ite some]

section Room

variable {cpu : Cpu} (h : cpu.HasRoom) (bus : β)
include h

/-- A load takes one cycle, whether anything answers or not. -/
@[simp] theorem loadRegister?_of_room (kind : Load) (address : Word)
    (newBase : Option (RegisterId × Word)) (r : RegisterId) :
    cpu.loadRegister? bus kind address newBase r =
      some (cpu.loadRegister bus kind address newBase r) := by
  simp only [loadRegister?, loadRegister, spend?_of_room h, Nat.reduceLT,
    Load.run?_eq, Option.bind_eq_bind, Option.bind_some, enter?_eq]
  obtain ⟨_ | value, bus'⟩ := kind.run bus address
  · rfl
  · rfl

/-- A store takes one cycle, whether it is accepted or not. -/
@[simp] theorem storeValue?_of_room (kind : Store) (address value : Word)
    (newBase : Option (RegisterId × Word)) :
    cpu.storeValue? bus kind address value newBase =
      some (cpu.storeValue bus kind address value newBase) := by
  simp only [storeValue?, storeValue, spend?_of_room h, Nat.reduceLT,
    Option.bind_eq_bind, Option.bind_some, enter?_eq]
  obtain ⟨_ | _, bus'⟩ := kind.run bus address value
  · rfl
  · rfl

/-- A list store takes a cycle for each access, sixteen at most. -/
theorem storeBlock?_of_room (t : BlockTransfer) :
    cpu.storeBlock? bus t = some (cpu.storeBlock bus t) := by
  let words := storeWords bus (blockStart t (cpu.register t.base))
    ((blockRegisters t).map (cpu.listedValue t))
  have hvalues : (blockRegisters t).mapM (cpu.listedValue? t) =
      some ((blockRegisters t).map (cpu.listedValue t)) := by
    rw [funext (cpu.listedValue?_eq t)]
    exact List.mapM_pure
  -- A list holds 16 registers, so this is all the room that the count of cycles needs.
  have haccesses : words.1.accesses ≤ 16 := accesses_storedList_le ..
  have hspent : cpu.spend? words.1.accesses = some (cpu.spend words.1.accesses) :=
    spend?_of_room h (by omega)
  simp only [storeBlock?, blockSize?_eq, blockRegisters?_eq, blockStart?_eq, hvalues,
    Option.bind_eq_bind, Option.bind_some, enter?_eq]
  change (cpu.spend? words.1.accesses).bind _ = _
  rw [hspent, Option.bind_some]
  exact (apply_ite some ..).symm

/-- A list load takes a cycle for each access, sixteen at most. -/
theorem loadBlock?_of_room (t : BlockTransfer) :
    cpu.loadBlock? bus t = some (cpu.loadBlock bus t) := by
  let words := loadWords bus (blockStart t (cpu.register t.base)) (blockRegisters t).length
  let based := cpu.writeBase (cpu.blockBase? t)
  -- Neither the new base nor the words add to the count of cycles.
  have hbased : based.HasRoom :=
    Nat.lt_of_le_of_lt (cpu.works_writeBase (cpu.blockBase? t)).spent h
  have haccesses : words.1.accesses ≤ 16 := accesses_loadedList_le ..
  have hspent : based.spend? words.1.accesses = some (based.spend words.1.accesses) :=
    spend?_of_room hbased (by omega)
  simp only [loadBlock?, loadBlock, blockSize?_eq, blockRegisters?_eq, blockStart?_eq,
    Psr.mode?_eq, Option.bind_eq_bind, Option.bind_some, enter?_eq, restoreSavedStatus?_eq,
    ite_writeBack, Option.pure_def, ← apply_ite some]
  change (based.spend? words.1.accesses).bind _ = _
  rw [hspent]
  rfl

/-- A list transfer does not break in either direction. -/
@[simp] theorem transferBlock?_of_room (t : BlockTransfer) :
    cpu.transferBlock? bus t = some (cpu.transferBlock bus t) := by
  unfold transferBlock? transferBlock
  cases t.direction with
  | store => exact storeBlock?_of_room h bus t
  | load => exact loadBlock?_of_room h bus t

end Room

end Cpu

end Transfers

end AdvanceCore
