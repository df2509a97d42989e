import AdvanceCore.Cartridge
import AdvanceCore.Dma.Unit
import AdvanceCore.Peripheral

/-!
# `AdvanceCore.Board`: everything behind the bus

The address space has sixteen banks of 16 MiB:

* bank 0: the boot ROM, which ends after 16 KiB,
* bank 2: the external work RAM, repeated,
* bank 3: the internal work RAM, repeated,
* bank 4: registers,
* banks 8 to 13: attached hardware, and where there is none the cartridge,
* the others: attached hardware.

`Board.route` says who answers for an address and under which address of its own. A
load from an address that nobody answers for fails. A store there is dropped, which
counts as a success.
-/

set_option autoImplicit false

namespace AdvanceCore

/-- What the bus of a console reaches. -/
structure Board (π : Type) where
  bootRom : BootRom
  externalRam : WorkRam externalRamSize := .zero _ externalRamSize_pos
  internalRam : WorkRam internalRamSize := .zero _ internalRamSize_pos
  cartridge : Option Cartridge := none
  dma : Dma := {}
  timers : Timers := {}
  interrupts : InterruptController := {}
  /-- The attached hardware. The first unit that answers for a place wins. -/
  attachments : List (Attachment π) := []

/-- Who answers for an address. -/
inductive Place where
  | bootRom
  | externalRam
  | internalRam
  | cartridge
  | dma
  | timers
  | interrupts
  /-- The first attached unit that claims a spot. -/
  | attached (spot : Spot)
  deriving DecidableEq, Repr

/-- An access to a bus of any kind. -/
abbrev Access (α : Type) := (β : Type) → MemoryBus β → β → α × β

namespace Board

variable {π : Type}

/-! ### The address map -/

/-- Whether an attached unit answers for a place. -/
def claims (b : Board π) (spot : Spot) : Bool :=
  b.attachments.any fun a => a.claims spot

/-- Who answers for an offset in the bank of the registers. Attached units get what
the built-in ones leave. -/
def routeIo (b : Board π) (offset : Word) : Option (Place × Word) :=
  let n := offset.toNat
  if 0x0B0 ≤ n ∧ n ≤ 0x0DF then some (.dma, offset - 0x0B0)
  else if 0x100 ≤ n ∧ n ≤ 0x10F then some (.timers, offset - 0x100)
  else if (0x200 ≤ n ∧ n ≤ 0x20B) ∨ (0x300 ≤ n ∧ n ≤ 0x301) then
    some (.interrupts, offset - 0x200)
  else if b.claims (.io n) then some (.attached (.io n), offset)
  else none

/-- Who answers for an address in a bank that is open to attached units. The cartridge
repeats over pairs of banks. -/
def routeOpen (b : Board π) (bank : Nat) (address : Word) : Option (Place × Word) :=
  if b.claims (.bank bank) then some (.attached (.bank bank), address &&& 0x00FFFFFF)
  else if 0x8 ≤ bank ∧ bank ≤ 0xD ∧ b.cartridge.isSome then
    some (.cartridge, address &&& 0x01FFFFFF)
  else none

/-- Who answers for an address, and the address that it is handed. -/
def route (b : Board π) (address : Word) : Option (Place × Word) :=
  let bank := (address >>> 24).toNat
  let offset := address &&& 0x00FFFFFF
  if bank = 0x0 then some (.bootRom, offset)
  else if bank = 0x2 then some (.externalRam, offset)
  else if bank = 0x3 then some (.internalRam, offset)
  else if bank = 0x4 then b.routeIo offset
  else if bank < 0x10 then b.routeOpen bank address
  else none

/-! ### The bus -/

variable [Peripheral π]

/-- Performs an access at a place, if somebody is there. -/
def accessAt {α : Type} (b : Board π) (place : Place) (access : Access α) :
    Option α × Board π :=
  -- The board is taken apart before the access, so that a memory has no second owner
  -- while it is written and changes in place.
  let ⟨bootRom, externalRam, internalRam, cartridge, dma, timers, interrupts, attachments⟩ := b
  match place with
  | .bootRom =>
    let (answer, bootRom) := access _ inferInstance bootRom
    (some answer,
      ⟨bootRom, externalRam, internalRam, cartridge, dma, timers, interrupts, attachments⟩)
  | .externalRam =>
    let (answer, externalRam) := access _ inferInstance externalRam
    (some answer,
      ⟨bootRom, externalRam, internalRam, cartridge, dma, timers, interrupts, attachments⟩)
  | .internalRam =>
    let (answer, internalRam) := access _ inferInstance internalRam
    (some answer,
      ⟨bootRom, externalRam, internalRam, cartridge, dma, timers, interrupts, attachments⟩)
  | .cartridge =>
    match cartridge with
    | some pak =>
      let (answer, pak) := access _ inferInstance pak
      (some answer,
        ⟨bootRom, externalRam, internalRam, some pak, dma, timers, interrupts, attachments⟩)
    | none =>
      (none, ⟨bootRom, externalRam, internalRam, none, dma, timers, interrupts, attachments⟩)
  | .dma =>
    let (answer, dma) := access _ inferInstance dma
    (some answer,
      ⟨bootRom, externalRam, internalRam, cartridge, dma, timers, interrupts, attachments⟩)
  | .timers =>
    let (answer, timers) := access _ inferInstance timers
    (some answer,
      ⟨bootRom, externalRam, internalRam, cartridge, dma, timers, interrupts, attachments⟩)
  | .interrupts =>
    let (answer, interrupts) := access _ inferInstance interrupts
    (some answer,
      ⟨bootRom, externalRam, internalRam, cartridge, dma, timers, interrupts, attachments⟩)
  | .attached spot =>
    let (answer, attachments) := Attachment.onFirst spot (access _ inferInstance) attachments
    (answer,
      ⟨bootRom, externalRam, internalRam, cartridge, dma, timers, interrupts, attachments⟩)

/-- Loads from an address. -/
def load {α : Type} (b : Board π) (address : Word) (access : Word → Access (Option α)) :
    Option α × Board π :=
  match b.route address with
  | some (place, offset) =>
    let (answer, b) := b.accessAt place (access offset)
    (answer.join, b)
  | none => (none, b)

/-- Stores at an address. -/
def store (b : Board π) (address : Word) (access : Word → Access Bool) : Bool × Board π :=
  match b.route address with
  | some (place, offset) =>
    let (answer, b) := b.accessAt place (access offset)
    (answer.getD true, b)
  | none => (true, b)

instance : MemoryBus (Board π) where
  load8 b address := b.load address fun offset _ _ bus => MemoryBus.load8 bus offset
  load16 b address := b.load address fun offset _ _ bus => MemoryBus.load16 bus offset
  load32 b address := b.load address fun offset _ _ bus => MemoryBus.load32 bus offset
  store8 b address value := b.store address fun offset _ _ bus => MemoryBus.store8 bus offset value
  store16 b address value :=
    b.store address fun offset _ _ bus => MemoryBus.store16 bus offset value
  store32 b address value :=
    b.store address fun offset _ _ bus => MemoryBus.store32 bus offset value

/-! ### Signals and time -/

/-- Lets a signal take effect. -/
def apply (b : Board π) : Signal → Board π
  | .vblank => { b with dma := b.dma.signalVblank }
  | .hblank line => { b with dma := b.dma.signalHblank line }
  | .fifoRefresh fifo => { b with dma := b.dma.signalFifo fifo }
  | .interrupt source => { b with interrupts := b.interrupts.raise source }

/-- Advances the timers. Gives the wraps of the sound timers. -/
def stepTimers (b : Board π) (elapsed : Nat) : Array SoundTimerId × Board π :=
  let run := b.timers.step b.interrupts elapsed
  (run.reports, { b with timers := run.timers, interrupts := run.interrupts })

/-- Lets the attached units hear the wraps of the sound timers, one after the other,
and then advance. Gives their signals in order. -/
def stepAttachments (b : Board π) (wraps : Array SoundTimerId) (elapsed : Nat) :
    Array Signal × Board π :=
  let hear (heard : Array Signal × List (Attachment π)) (timer : SoundTimerId) :=
    Attachment.each (fun unit => Peripheral.timerWrapped unit timer) heard.1 heard.2
  let heard := wraps.foldl hear (#[], b.attachments)
  let (signals, attachments) :=
    Attachment.each (fun unit => Peripheral.step unit elapsed) heard.1 heard.2
  (signals, { b with attachments := attachments })

end Board

end AdvanceCore
