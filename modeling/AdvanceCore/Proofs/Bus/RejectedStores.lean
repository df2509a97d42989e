import AdvanceCore.Proofs.Console.Events
import Mathlib.Algebra.Group.Nat.Defs

/-!
# `AdvanceCore.Proofs.Bus.RejectedStores`: what a rejected store leaves behind

The processor takes a data abort when a store is rejected. Memories accept whatever is stored,
and so does an address that nobody answers for. Only a block of registers rejects a store, for
a register that it does not have. The blocks of a console are whole words wide and have all of
their registers, but for the power register: it is a single halfword, and a word stored there
has nothing behind its upper half. The lower half has been written by then.

* `RegisterBlock.AcceptsBelow`: blocks without holes, and the stores they accept.
* `Board.route_dma`, `Board.route_timers`: where the blocks are.
* `rejected_store_writes_power`: the one aligned store that is rejected, and what it does.
* `not_rejected_store_ineffective`: it is not without effect.
-/

set_option autoImplicit false

namespace AdvanceCore

/-! ### Stores -/

namespace BusAccess

variable {β : Type} [MemoryBus β]

/-- The address is a multiple of the size. -/
def IsAligned : BusAccess → Prop
  | .load8 _ | .store8 _ _ => True
  | .load16 address | .store16 address _ => 2 ∣ address.toNat
  | .load32 address | .store32 address _ => 4 ∣ address.toNat

instance : (a : BusAccess) → Decidable a.IsAligned
  | .load8 _ | .store8 _ _ => inferInstanceAs (Decidable True)
  | .load16 address | .store16 address _ => inferInstanceAs (Decidable (2 ∣ address.toNat))
  | .load32 address | .store32 address _ => inferInstanceAs (Decidable (4 ∣ address.toNat))

/-- The access is a store and the bus does not accept it. -/
def IsRejected (bus : β) : BusAccess → Prop
  | .load8 _ | .load16 _ | .load32 _ => False
  | .store8 address value => (MemoryBus.store8 bus address value).1 = false
  | .store16 address value => (MemoryBus.store16 bus address value).1 = false
  | .store32 address value => (MemoryBus.store32 bus address value).1 = false

end BusAccess

/-! ### Blocks without holes -/

/-- Aligning to a halfword clears the lowest bit. -/
theorem two_dvd_halfAligned (address : Word) : 2 ∣ (halfAligned address).toNat :=
  Bits.dvd_and_not_lowMask address 1

namespace RegisterBlock

/-- There is a register at every even offset below `size`. -/
def AcceptsBelow (ρ : Type) [RegisterBlock ρ] (size : Nat) : Prop :=
  ∀ (block : ρ) (offset : Nat) (value mask : Half), 2 ∣ offset → offset < size →
    (writeRegister block offset value mask).1 = true

variable {ρ : Type} [RegisterBlock ρ] {size : Nat} {offset : Word}

/-- Such a block accepts every byte stored into it. -/
theorem AcceptsBelow.storeByte (h : AcceptsBelow ρ size) (block : ρ) (value : Byte)
    (hlt : offset.toNat < size) : (storeByte block offset value).1 = true :=
  h block _ _ _ (two_dvd_halfAligned offset)
    (Nat.lt_of_le_of_lt (Board.halfAligned_le offset) hlt)

/-- Such a block accepts every halfword stored into it. -/
theorem AcceptsBelow.storeHalf (h : AcceptsBelow ρ size) (block : ρ) (value : Half)
    (hlt : offset.toNat < size) : (storeHalf block offset value).1 = true :=
  h block _ _ _ (two_dvd_halfAligned offset)
    (Nat.lt_of_le_of_lt (Board.halfAligned_le offset) hlt)

/-- A word below a size of whole words does not reach over it. -/
theorem AcceptsBelow.storeWord (h : AcceptsBelow ρ size) (block : ρ) (value : Word)
    (hlt : offset.toNat < size) (hsize : 4 ∣ size) (hsmall : size < 2 ^ 32)
    (haligned : 4 ∣ offset.toNat) : (storeWord block offset value).1 = true := by
  -- The size and the offset are multiples of four, so there is room for both halves.
  have hnext : (offset + 2).toNat < size := by
    rw [BitVec.toNat_add]
    show (offset.toNat + 2) % 2 ^ 32 < size
    omega
  show ((RegisterBlock.storeHalf block offset _).1 && (RegisterBlock.storeHalf _ _ _).1) = true
  rw [h.storeHalf block _ hlt, h.storeHalf _ _ hnext]
  rfl

end RegisterBlock

open RegisterBlock

/-- The channels have twenty-four registers of a halfword in a row. -/
theorem Dma.acceptsBelow : AcceptsBelow Dma 0x30 := by
  intro dma offset value mask _ hlt
  have hchannel : offset / 12 < 4 := by omega
  show (dma.writeRegister offset value mask).1 = true
  unfold writeRegister registerAt?
  rw [dif_pos hchannel]

/-- The timers have eight. -/
theorem Timers.acceptsBelow : AcceptsBelow Timers 0x10 := by
  intro timers offset value mask _ hlt
  have htimer : offset / 4 < 4 := by omega
  show (timers.writeRegister offset value mask).1 = true
  unfold writeRegister timerAt?
  rw [dif_pos htimer]

/-- The registers of the interrupts are in the first six halfwords. Two of these hold nothing, and
accept what is written. -/
theorem InterruptController.acceptsBelow : AcceptsBelow InterruptController 0xC := by
  intro c offset value mask heven hlt
  obtain ⟨half, rfl⟩ := heven
  have hhalf : half < 6 := by omega
  match half, hhalf with
  | 0, _ | 1, _ | 2, _ | 3, _ | 4, _ | 5, _ => rfl

/-! ### The board -/

/-- The controller after a halfword is stored into the power register. The lower byte is the
flag of the boot program, the upper one asks for a sleep. -/
def InterruptController.powerWritten (c : InterruptController) (value : Half) :
    InterruptController :=
  { c with
    postBoot := value.setWidth 8 &&& 1
    power := (c.sleep (if value.getLsbD 15 then .stop else .halt)).power }

namespace Board

variable {π : Type} {b : Board π} {address offset : Word}

/-- An address that leads to the channels is among theirs. -/
theorem route_dma (h : b.route address = some (.dma, offset)) :
    address.toNat = 0x040000B0 + offset.toNat ∧ offset.toNat < 0x30 := by
  obtain ⟨low, haddress, hlow⟩ := route_registers h (.inl rfl)
  obtain ⟨-, hoffset, hlt⟩ | ⟨hplace, -⟩ | ⟨hplace, -⟩ | ⟨spot, hplace⟩ := routeIo_eq_some hlow
  · exact ⟨by omega, hlt⟩
  · cases hplace
  · cases hplace
  · cases hplace

/-- An address that leads to the timers is among theirs. -/
theorem route_timers (h : b.route address = some (.timers, offset)) :
    address.toNat = 0x04000100 + offset.toNat ∧ offset.toNat < 0x10 := by
  obtain ⟨low, haddress, hlow⟩ := route_registers h (.inr (.inl rfl))
  obtain ⟨hplace, -⟩ | ⟨-, hoffset, hlt⟩ | ⟨hplace, -⟩ | ⟨spot, hplace⟩ := routeIo_eq_some hlow
  · cases hplace
  · exact ⟨by omega, hlt⟩
  · cases hplace
  · cases hplace

variable [Peripheral π]

/-- Without attached hardware, a store is accepted if memories accept it and the block that it
reaches does. -/
theorem store_accepted (hattached : b.attachments = []) {access : Word → Access Bool}
    (hmemory : ∀ offset {μ : Type} [ByteMemory μ] (memory : μ),
      (access offset μ inferInstance memory).1 = true)
    (hdma : ∀ offset, b.route address = some (.dma, offset) →
      (access offset _ inferInstance b.dma).1 = true)
    (htimers : ∀ offset, b.route address = some (.timers, offset) →
      (access offset _ inferInstance b.timers).1 = true)
    (hinterrupts : ∀ offset, b.route address = some (.interrupts, offset) →
      (access offset _ inferInstance b.interrupts).1 = true) :
    (b.store address access).1 = true := by
  obtain ⟨bootRom, externalRam, internalRam, cartridge, dma, timers, interrupts, attachments⟩ := b
  cases hattached
  unfold store
  split
  · next place offset hroute =>
    cases place with
    | bootRom => exact hmemory offset bootRom
    | externalRam => exact hmemory offset externalRam
    | internalRam => exact hmemory offset internalRam
    | cartridge =>
      cases cartridge with
      | none => rfl
      | some pak => exact hmemory offset pak
    | dma => exact hdma offset hroute
    | timers => exact htimers offset hroute
    | interrupts => exact hinterrupts offset hroute
    | attached spot => rfl
  · rfl

/-- A store of at most a halfword is accepted if every block accepts it where it has a register,
and the power register does at both of its bytes. -/
theorem shortStore_accepted (hattached : b.attachments = []) {access : Word → Access Bool}
    (hmemory : ∀ offset {μ : Type} [ByteMemory μ] (memory : μ),
      (access offset μ inferInstance memory).1 = true)
    (hblock : ∀ {ρ : Type} [RegisterBlock ρ] {size : Nat} {offset : Word} (block : ρ),
      AcceptsBelow ρ size → offset.toNat < size → (access offset ρ inferInstance block).1 = true)
    (hpower : ∀ c : InterruptController, (access 0x100 _ inferInstance c).1 = true ∧
      (access 0x101 _ inferInstance c).1 = true) :
    (b.store address access).1 = true := by
  refine store_accepted hattached hmemory ?_ ?_ ?_
  · intro offset hroute
    exact hblock b.dma Dma.acceptsBelow (route_dma hroute).2
  · intro offset hroute
    exact hblock b.timers Timers.acceptsBelow (route_timers hroute).2
  · intro offset hroute
    -- The power registers lie apart from the block of the controller.
    obtain ⟨-, hlt | rfl | rfl⟩ := route_interrupts hroute
    · exact hblock b.interrupts InterruptController.acceptsBelow hlt
    · exact (hpower b.interrupts).1
    · exact (hpower b.interrupts).2

/-- No store of a byte is rejected. -/
theorem store8_accepted (hattached : b.attachments = []) (address : Word) (value : Byte) :
    (MemoryBus.store8 b address value).1 = true :=
  shortStore_accepted hattached (fun _ _ _ _ => rfl)
    (fun block haccepts hlt => haccepts.storeByte block value hlt) fun _ => ⟨rfl, rfl⟩

/-- No store of a halfword is either. -/
theorem store16_accepted (hattached : b.attachments = []) (address : Word) (value : Half) :
    (MemoryBus.store16 b address value).1 = true :=
  shortStore_accepted hattached (fun _ _ _ _ => rfl)
    (fun block haccepts hlt => haccepts.storeHalf block value hlt) fun _ => ⟨rfl, rfl⟩

/-- The blocks begin at word addresses, so an aligned word in a block does not reach over its
end. -/
theorem store32_accepted (hattached : b.attachments = []) {address : Word}
    (haligned : 4 ∣ address.toNat) (hpower : address ≠ powerAddress) (value : Word) :
    (MemoryBus.store32 b address value).1 = true := by
  refine store_accepted hattached (fun _ _ _ _ => rfl) ?_ ?_ ?_
  · intro offset hroute
    obtain ⟨haddress, hlt⟩ := route_dma hroute
    exact Dma.acceptsBelow.storeWord _ value hlt (by decide) (by decide) (by omega)
  · intro offset hroute
    obtain ⟨haddress, hlt⟩ := route_timers hroute
    exact Timers.acceptsBelow.storeWord _ value hlt (by decide) (by decide) (by omega)
  · intro offset hroute
    obtain ⟨rfl, hlt | rfl | rfl⟩ := route_interrupts hroute
    · -- The block starts at a multiple of four, so an aligned address is an aligned offset.
      refine InterruptController.acceptsBelow.storeWord _ value hlt (by decide) (by decide) ?_
      rw [BitVec.toNat_add] at haligned
      change 4 ∣ (0x04000200 + offset.toNat) % 2 ^ 32 at haligned
      omega
    · exact absurd rfl hpower
    · exact absurd haligned (by decide)

/-! ### The power register -/

/-- A halfword stored into the power register reaches both of its bytes. -/
theorem storeHalf_power (c : InterruptController) (value : Half) :
    storeHalf c 0x100 value = (true, c.powerWritten value) := by
  let flagged : InterruptController := { c with postBoot := value.setWidth 8 &&& 1 }
  -- The flag has no influence on whether the controller goes to sleep.
  have hsleep (state : PowerState) :
      flagged.sleep state = { flagged with power := (c.sleep state).power } := by
    have hwakers : flagged.wakers state = c.wakers state := by cases state <;> rfl
    unfold InterruptController.sleep
    rw [hwakers]
    split <;> rfl
  show (true, if value.getLsbD 15 then flagged.sleep .stop else flagged.sleep .halt) = _
  unfold InterruptController.powerWritten
  split
  · rw [hsleep]
  · rw [hsleep]

/-- A halfword that a program stores there reaches both bytes of the power register. -/
theorem store16_powerAddress (b : Board π) (value : Half) :
    MemoryBus.store16 b powerAddress value =
      (true, { b with interrupts := b.interrupts.powerWritten value }) := by
  have hroute : b.route powerAddress = some (.interrupts, 0x100) := rfl
  show b.store powerAddress (fun offset _ _ bus => MemoryBus.store16 bus offset value) = _
  unfold store
  rw [hroute]
  show (_, { b with interrupts := (storeHalf b.interrupts 0x100 value).2 }) = _
  rw [storeHalf_power]
  rfl

/-- A word at the power register is rejected after its lower half is written. -/
theorem store32_powerAddress (b : Board π) (value : Word) :
    MemoryBus.store32 b powerAddress value =
      (false, { b with interrupts := b.interrupts.powerWritten (value.extractLsb' 0 16) }) := by
  have hroute : b.route powerAddress = some (.interrupts, 0x100) := rfl
  -- The low half is a register, the high half is none.
  have hword (c : InterruptController) :
      storeWord c 0x100 value = (false, c.powerWritten (value.extractLsb' 0 16)) := by
    unfold storeWord
    rw [storeHalf_power]
    rfl
  show b.store powerAddress (fun offset _ _ bus => MemoryBus.store32 bus offset value) = _
  unfold store
  rw [hroute]
  show (_, { b with interrupts := (storeWord b.interrupts 0x100 value).2 }) = _
  rw [hword]
  rfl

/-- Without attached hardware, the one aligned store that is rejected is that of a word at the
power register, and a rejected store leaves everything as it was but for this register: the
memories, the cartridge, the channels, the timers and the rest of the controller. The register
has been written with the lower half of the word, as a store of that half alone would. -/
theorem rejected_store_writes_power {b : Board π} (hattached : b.attachments = []) {a : BusAccess}
    (haligned : a.IsAligned) :
    (a.IsRejected b ↔ ∃ value, a = .store32 powerAddress value) ∧
      ∀ value, a = .store32 powerAddress value →
        let half := value.extractLsb' 0 16
        a.perform b = { b with interrupts := b.interrupts.powerWritten half } ∧
          a.perform b = BusAccess.perform b (.store16 powerAddress half) := by
  refine ⟨⟨fun hrejected => ?_, ?_⟩, ?_⟩
  · -- A load is no rejected store, the narrow stores are accepted everywhere, and so are words at
    -- any other address.
    cases a with
    | load8 | load16 | load32 => exact hrejected.elim
    | store8 address value =>
      exact absurd hrejected (ne_false_of_eq_true (store8_accepted hattached address value))
    | store16 address value =>
      exact absurd hrejected (ne_false_of_eq_true (store16_accepted hattached address value))
    | store32 address value =>
      by_cases hpower : address = powerAddress
      · exact ⟨value, by rw [hpower]⟩
      · have haccepted := store32_accepted hattached haligned hpower value
        exact absurd hrejected (ne_false_of_eq_true haccepted)
  · rintro ⟨value, rfl⟩
    exact congrArg Prod.fst (b.store32_powerAddress value)
  · rintro value rfl
    have hword := congrArg Prod.snd (b.store32_powerAddress value)
    have hhalf := congrArg Prod.snd (b.store16_powerAddress (value.extractLsb' 0 16))
    exact ⟨hword, hword.trans hhalf.symm⟩

/-- A board with nothing in its memories. -/
def blank : Board NoPeripheral := { bootRom := ⟨.ofImage .empty (Nat.zero_le _)⟩ }

/-- A rejected word halts the console. -/
theorem blank_halted_by_rejected_store :
    BusAccess.IsRejected blank (.store32 powerAddress 1) ∧
      BusAccess.perform blank (.store32 powerAddress 1) =
        { blank with interrupts := { postBoot := 1, power := .halt } } := by
  obtain ⟨hrejected, hwritten⟩ := rejected_store_writes_power (b := blank) rfl
    (a := .store32 powerAddress 1) (by decide)
  exact ⟨hrejected.2 ⟨1, rfl⟩, (hwritten 1 rfl).1⟩

/-- A rejected store is not without effect. -/
theorem not_rejected_store_ineffective :
    ¬ ∀ (b : Board NoPeripheral), b.attachments = [] → ∀ a : BusAccess, a.IsAligned →
      a.IsRejected b → a.perform b = b := by
  intro hnone
  have hsame := hnone blank rfl (.store32 powerAddress 1) (by decide) rfl
  have hpower := congrArg (fun b => b.interrupts.power) hsame
  revert hpower
  decide

end Board

end AdvanceCore
