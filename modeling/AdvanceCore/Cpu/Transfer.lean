import AdvanceCore.Bus
import AdvanceCore.Cpu.Exception
import AdvanceCore.Transfer

/-!
# `AdvanceCore.Cpu.Transfer`: moving registers to and from memory

Both instruction sets end in the same transfers. Every data access costs one cycle,
a failing one included. A failed access enters the data abort handler, and the
transfer leaves out what would have followed.
-/

set_option autoImplicit false

namespace AdvanceCore.Cpu

variable {β : Type} [MemoryBus β]

/-- Writes a new base, for transfers that have one. -/
def writeBase (cpu : Cpu) : Option (RegisterId × Word) → Cpu
  | some (r, value) => cpu.writeRegister r value
  | none => cpu

/-- Loads a register. The new base is written first, so that loading the base
register keeps the loaded value. -/
def loadRegister (cpu : Cpu) (bus : β) (kind : Load) (address : Word)
    (newBase : Option (RegisterId × Word)) (r : RegisterId) : Cpu × β :=
  match kind.run bus address with
  | (none, bus) => ((cpu.spend 1).enter .dataAbort, bus)
  | (some value, bus) => (((cpu.spend 1).writeBase newBase).writeRegister r value, bus)

/-- Stores a value, then writes the new base. -/
def storeValue (cpu : Cpu) (bus : β) (kind : Store) (address value : Word)
    (newBase : Option (RegisterId × Word)) : Cpu × β :=
  match kind.run bus address value with
  | (false, bus) => ((cpu.spend 1).enter .dataAbort, bus)
  | (true, bus) => ((cpu.spend 1).writeBase newBase, bus)

/-! ### Register lists -/

/-- The registers of a transfer, ascending. An empty list stands for R15. -/
def blockRegisters (t : BlockTransfer) : List RegisterId :=
  if t.registers = 0 then [.pc] else RegisterId.ofList t.registers

/-- The bytes by which a transfer moves its base. An empty list moves it as far as
all sixteen registers would. -/
def blockSize (t : BlockTransfer) : Word :=
  if t.registers = 0 then 0x40 else BitVec.ofNat 32 (4 * (blockRegisters t).length)

/-- The lowest address of a transfer. Registers always go to ascending addresses. -/
def blockStart (t : BlockTransfer) (base : Word) : Word :=
  match t.offsetting, t.indexing with
  | .up, .post => base
  | .up, .pre => base + 4
  | .down, .post => base - blockSize t + 4
  | .down, .pre => base - blockSize t

/-- The User view of a register, live or stored, as a store sees it. -/
def userStoredRegister (cpu : Cpu) (r : RegisterId) : Word :=
  (cpu.bank.userRegister? cpu.cpsr.mode r).getD (cpu.storedRegister r)

/-- Writes the User copy of a register, live or stored. -/
def writeUserRegister (cpu : Cpu) (mode : Mode) (r : RegisterId) (value : Word) : Cpu :=
  match cpu.bank.setUserRegister? mode r value with
  | some bank => { cpu with bank := bank }
  | none => cpu.writeRegister r value

/-- Stores the registers of a list. A base in the list is stored with its old value
when it is the first, and with its new value otherwise. -/
def storeBlock (cpu : Cpu) (bus : β) (t : BlockTransfer) : Cpu × β :=
  let base := cpu.register t.base
  let newBase := t.offsetting.apply base (blockSize t)
  let registers := blockRegisters t
  let value (r : RegisterId) : Word :=
    if r = t.base ∧ t.writeBack ∧ registers.head? ≠ some r then newBase
    else if t.statusBit then cpu.userStoredRegister r
    else cpu.storedRegister r
  let (run, bus) := storeWords bus (blockStart t base) (registers.map value)
  let cpu := cpu.spend run.accesses
  if run.outcome then
    (if t.writeBack then cpu.writeRegister t.base newBase else cpu, bus)
  else (cpu.enter .dataAbort, bus)

/-- Loads the registers of a list. The base is written before the first load, so a
base in the list keeps the loaded value. With the S bit the User registers are
loaded, except that a list with R15 restores the saved status at the end. -/
def loadBlock (cpu : Cpu) (bus : β) (t : BlockTransfer) : Cpu × β :=
  let base := cpu.register t.base
  let newBase := t.offsetting.apply base (blockSize t)
  let registers := blockRegisters t
  let loadsPc := registers.contains .pc
  let mode := cpu.cpsr.mode
  let cpu := if t.writeBack then cpu.writeRegister t.base newBase else cpu
  let (run, bus) := loadWords bus (blockStart t base) registers.length
  let write (cpu : Cpu) (loaded : RegisterId × Word) : Cpu :=
    if t.statusBit && !loadsPc then cpu.writeUserRegister mode loaded.1 loaded.2
    else cpu.writeRegister loaded.1 loaded.2
  let cpu := (registers.zip run.outcome).foldl write (cpu.spend run.accesses)
  if run.outcome.length < registers.length then (cpu.enter .dataAbort, bus)
  else if t.statusBit && loadsPc then (cpu.restoreSavedStatus, bus)
  else (cpu, bus)

/-- Transfers a register list. -/
def transferBlock (cpu : Cpu) (bus : β) (t : BlockTransfer) : Cpu × β :=
  match t.direction with
  | .store => cpu.storeBlock bus t
  | .load => cpu.loadBlock bus t

end AdvanceCore.Cpu
