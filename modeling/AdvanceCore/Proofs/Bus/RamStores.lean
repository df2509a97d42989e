import AdvanceCore.Proofs.Bus.WorkRam
import AdvanceCore.Proofs.Bus.RejectedStores

/-!
# `AdvanceCore.Proofs.Bus.RamStores`: what a store leaves of the bytes that can be loaded

A store into work RAM is seen through the mirrors of the RAM: at every address of the bank that
names one of the cells it has written, and at no other address of the console. A store anywhere
else reaches the registers at most.

* `Mirrors`, `ramCell_eq_iff`: the addresses that share a cell.
* `load8_ram`: a byte loaded from work RAM is that in its cell.
* `load8_of_sameOutsideRam`, `load8_of_sameOutsideRegisters`: what a loaded byte depends on.
* `stored_put`: a store of any size into work RAM, aligned or not.
* `sameOutsideRegisters_put`: a store anywhere else.
* `load8_put`: both, as a byte loaded afterwards shows them.
-/

set_option autoImplicit false

namespace AdvanceCore

namespace Store

/-- The bytes that are stored. -/
def size : Store → Nat
  | .word => 4
  | .half => 2
  | .byte => 1

/-- Stores the low bytes of a value at an address, aligned or not. -/
def put {β : Type} [MemoryBus β] (kind : Store) (bus : β) (address value : Word) : Bool × β :=
  match kind with
  | .word => MemoryBus.store32 bus address value
  | .half => MemoryBus.store16 bus address (value.setWidth 16)
  | .byte => MemoryBus.store8 bus address (value.setWidth 8)

end Store

/-! ### Mirrors -/

/-- The size of the RAM in the bank of an address. -/
def ramSize (address : Word) : Nat :=
  if bankOf address = 2 then externalRamSize else internalRamSize

/-- The address names the same cell of its RAM as byte `j` of a unit in the same bank. -/
def Mirrors (target address : Word) (j : Nat) : Prop :=
  bankOf target = bankOf address ∧
    target.toNat % ramSize address = (address.toNat + j) % ramSize address

instance (target address : Word) (j : Nat) : Decidable (Mirrors target address j) :=
  inferInstanceAs (Decidable (_ ∧ _))

/-- A mirror of an address in the work RAM is in the work RAM. -/
theorem InWorkRam.of_mirrors {target address : Word} {j : Nat} (h : InWorkRam address)
    (hmirrors : Mirrors target address j) : InWorkRam target := by
  rw [InWorkRam, hmirrors.1]
  exact h

/-- Two addresses in work RAM share a cell exactly if one mirrors the other. -/
theorem ramCell_eq_iff {target address : Word} (htarget : InWorkRam target)
    (haddress : InWorkRam address) (j : Nat) :
    ramCell target 0 = ramCell address j ↔ Mirrors target address j := by
  unfold ramCell Mirrors ramSize
  rcases htarget with ht | ht <;> rcases haddress with ha | ha <;> rw [ht, ha] <;> simp

/-! ### What is stored in the RAM -/

/-- The bank in which alone a place answers, for a place that has one. -/
def Place.bank? : Place → Option Nat
  | .bootRom => some 0
  | .externalRam => some 2
  | .internalRam => some 3
  | .dma | .timers | .interrupts => some 4
  | .cartridge | .attached _ => none

namespace Board

variable {π : Type} {b b' : Board π} {address target : Word}

/-- A place that answers in one bank only is not asked in another. -/
theorem bankOf_of_route {place : Place} {offset : Word} {bank : Nat}
    (h : b.route target = some (place, offset)) (hbank : place.bank? = some bank) :
    bankOf target = bank := by
  unfold route at h
  dsimp only at h
  -- Each bank names its own place, and the open banks name places without a bank.
  split at h
  · next htarget =>
    cases h
    cases hbank
    exact htarget
  split at h
  · next htarget =>
    cases h
    cases hbank
    exact htarget
  split at h
  · next htarget =>
    cases h
    cases hbank
    exact htarget
  split at h
  · next htarget =>
    obtain ⟨rfl, -⟩ | ⟨rfl, -⟩ | ⟨rfl, -⟩ | ⟨spot, rfl⟩ := routeIo_eq_some h <;> cases hbank
    all_goals exact htarget
  split at h
  · unfold routeOpen at h
    split at h
    · cases h
      cases hbank
    split at h
    · cases h
      cases hbank
    · cases h
  · cases h

/-- Only the bytes of the store count. -/
theorem Stored.congr {size : Nat} {bytes bytes' : Nat → Byte}
    (h : Stored b b' address size bytes) (hbytes : ∀ j < size, bytes j = bytes' j) :
    Stored b b' address size bytes' :=
  ⟨h.outside, fun j hj => (h.stored j hj).trans (hbytes j hj), h.kept⟩

variable [Peripheral π]

/-- A byte loaded from work RAM is that in its cell, and loading it changes nothing. -/
theorem load8_ram (b : Board π) (h : InWorkRam target) :
    MemoryBus.load8 b target = (some (b.ramByte (ramCell target 0)), b) := by
  obtain ⟨p⟩ := b.exists_ramPart h
  have hread : ByteMemory.readByte p.ram (target &&& 0x00FFFFFF) =
      some (b.ramByte (ramCell target 0)) := by
    rw [← p.get_place (by decide), p.place_zero]
    rfl
  exact (p.load _).trans (Prod.ext hread p.put_ram)

/-- A stored byte is found in its cell. -/
theorem store8_ram (h : InWorkRam address) (value : Byte) :
    Stored b (MemoryBus.store8 b address value).2 address 1 (fun _ => value) := by
  obtain ⟨p⟩ := b.exists_ramPart h
  have hstore : (MemoryBus.store8 b address value).2 = p.put _ := congrArg Prod.snd (p.store _)
  have hget (i : Fin p.size) :
      (ByteMemory.writeByte p.ram (address &&& 0x00FFFFFF) value).store.get i =
        if p.place 0 = i then value else p.ram.store.get i := by
    rw [p.place_zero]
    exact p.ram.get_writeByte _ value i
  rw [hstore]
  refine p.stored (by decide) (fun j hj => ?_) fun i hi => ?_
  · obtain rfl : j = 0 := by omega
    exact (hget _).trans (if_pos rfl)
  · exact (hget _).trans (if_neg (hi 0 (by decide)).symm)

/-- A store into work RAM replaces the bytes in the cells of the unit. -/
theorem stored_put (h : InWorkRam address) (kind : Store) (value : Word) :
    Stored b (kind.put b address value).2 address kind.size (Bits.byte value) := by
  cases kind with
  | word => exact store32_ram h value
  | half => exact (store16_ram h _).congr fun j (hj : j < 2) =>
      Bits.byte_setWidth value (by omega)
  | byte =>
    refine (store8_ram h _).congr fun j hj => ?_
    obtain rfl : j = 0 := Nat.lt_one_iff.mp hj
    exact BitVec.setWidth_eq_extractLsb' (by decide)

/-! ### What a loaded byte depends on -/

/-- Two boards with the same in every other place than the blocks of registers. -/
def SameOutsideRegisters (b b' : Board π) : Prop :=
  b' = { b with dma := b'.dma, timers := b'.timers, interrupts := b'.interrupts }

/-- A byte outside of the work RAM does not depend on it. -/
theorem load8_of_sameOutsideRam (h : SameOutsideRam b b') (htarget : ¬ InWorkRam target) :
    (MemoryBus.load8 b' target).1 = (MemoryBus.load8 b target).1 := by
  unfold SameOutsideRam at h
  rw [h]
  have hroute : ({ b with externalRam := b'.externalRam, internalRam := b'.internalRam } :
      Board π).route target = b.route target := rfl
  show (Board.load _ target _).1 = (Board.load b target _).1
  unfold load
  rw [hroute]
  -- Routing reads neither RAM, so both boards ask the same device.
  cases hplace : b.route target with
  | none => rfl
  | some found =>
    obtain ⟨place, offset⟩ := found
    cases place with
    | externalRam => exact absurd (.inl (bankOf_of_route hplace rfl)) htarget
    | internalRam => exact absurd (.inr (bankOf_of_route hplace rfl)) htarget
    | cartridge =>
      obtain ⟨bootRom, externalRam, internalRam, cartridge, dma, timers, interrupts, attached⟩ := b
      cases cartridge <;> rfl
    | _ => rfl

/-- A byte outside of bank 4 does not depend on the registers. -/
theorem load8_of_sameOutsideRegisters (h : SameOutsideRegisters b b')
    (htarget : bankOf target ≠ 4) :
    (MemoryBus.load8 b' target).1 = (MemoryBus.load8 b target).1 := by
  unfold SameOutsideRegisters at h
  rw [h]
  have hroute : ({ b with dma := b'.dma, timers := b'.timers, interrupts := b'.interrupts } :
      Board π).route target = b.route target := rfl
  show (Board.load _ target _).1 = (Board.load b target _).1
  unfold load
  rw [hroute]
  -- Routing reads no register, so both boards ask the same device.
  cases hplace : b.route target with
  | none => rfl
  | some found =>
    obtain ⟨place, offset⟩ := found
    cases place with
    | dma | timers | interrupts => exact absurd (bankOf_of_route hplace rfl) htarget
    | cartridge =>
      obtain ⟨bootRom, externalRam, internalRam, cartridge, dma, timers, interrupts, attached⟩ := b
      cases cartridge <;> rfl
    | _ => rfl

/-! ### Stores outside of the RAM -/

/-- Without attached hardware, an access outside of the work RAM touches the registers at
most, if it leaves memories that cannot be written alone. -/
theorem sameOutsideRegisters_store (hattached : b.attachments = []) (h : ¬ InWorkRam address)
    {access : Word → Access Bool}
    (hbootRom : ∀ offset (rom : BootRom), (access offset _ inferInstance rom).2 = rom)
    (hcartridge : ∀ offset (pak : Cartridge), (access offset _ inferInstance pak).2 = pak) :
    SameOutsideRegisters b (b.store address access).2 := by
  obtain ⟨bootRom, externalRam, internalRam, cartridge, dma, timers, interrupts, attached⟩ := b
  cases hattached
  unfold store SameOutsideRegisters
  -- A store reaches one device: a register block is what may change, a RAM is excluded, and the
  -- others keep themselves.
  split
  · next place offset hplace =>
    cases place with
    | bootRom =>
      show Board.mk (access offset _ inferInstance bootRom).2 _ _ _ _ _ _ _ = _
      rw [hbootRom]
      rfl
    | externalRam => exact absurd (.inl (bankOf_of_route hplace rfl)) h
    | internalRam => exact absurd (.inr (bankOf_of_route hplace rfl)) h
    | cartridge =>
      cases cartridge with
      | none => rfl
      | some pak =>
        show Board.mk _ _ _ (some (access offset _ inferInstance pak).2) _ _ _ _ = _
        rw [hcartridge]
        rfl
    | _ => rfl
  · rfl

/-- A store elsewhere leaves everything but registers as it is. -/
theorem sameOutsideRegisters_put (hattached : b.attachments = []) (h : ¬ InWorkRam address)
    (kind : Store) (value : Word) :
    SameOutsideRegisters b (kind.put b address value).2 := by
  have hstore : kind.put b address value =
      b.store address fun offset _ _ bus => kind.put bus offset value := by
    cases kind <;> rfl
  rw [hstore]
  refine sameOutsideRegisters_store hattached h (fun offset rom => ?_) fun offset pak => ?_
  · show (kind.put rom offset value).2 = rom
    cases kind <;> rfl
  · show (kind.put pak offset value).2 = pak
    cases kind <;> rfl

/-- **A store is seen exactly at the mirrors of its bytes.** On a board without attached
hardware, byte `k` of a value that is stored into work RAM, at any address, can be loaded
from every address that mirrors the one of this byte, and every other address of the whole
board gives what it gave before. A store outside of the work RAM changes no byte outside of
bank 4, the bank of the registers. -/
theorem load8_put {b : Board π} (hattached : b.attachments = []) (kind : Store)
    (address value target : Word) :
    (InWorkRam address →
      (∀ k < kind.size, Mirrors target address k →
        (MemoryBus.load8 (kind.put b address value).2 target).1 = some (Bits.byte value k)) ∧
      ((∀ k < kind.size, ¬ Mirrors target address k) →
        (MemoryBus.load8 (kind.put b address value).2 target).1 =
          (MemoryBus.load8 b target).1)) ∧
    (¬ InWorkRam address → bankOf target ≠ 4 →
      (MemoryBus.load8 (kind.put b address value).2 target).1 =
        (MemoryBus.load8 b target).1) := by
  refine ⟨fun haddress => ?_, fun haddress htarget => ?_⟩
  · -- Inside work RAM the target sees exactly the bytes it mirrors. Outside the store misses both
    -- RAMs.
    have hstored := stored_put (b := b) haddress kind value
    refine ⟨fun k hk hmirrors => ?_, fun hnone => ?_⟩
    · have hin := haddress.of_mirrors hmirrors
      rw [load8_ram _ hin, (ramCell_eq_iff hin haddress k).2 hmirrors, hstored.stored k hk]
    · by_cases hin : InWorkRam target
      · have hother : ∀ k < kind.size, ramCell target 0 ≠ ramCell address k :=
          fun k hk hcell => hnone k hk ((ramCell_eq_iff hin haddress k).1 hcell)
        rw [load8_ram _ hin, load8_ram _ hin, hstored.kept _ hother]
      · exact load8_of_sameOutsideRam hstored.outside hin
  · exact load8_of_sameOutsideRegisters (sameOutsideRegisters_put hattached haddress kind value)
      htarget

/-- A word at the last halfword of the bank of the external RAM. Its last byte comes around
to the second cell, which is not the one at the address three bytes on, in the next bank. -/
theorem load8_put_around :
    blank.attachments = [] ∧ InWorkRam 0x02FFFFFE ∧
      (MemoryBus.load8 (Store.word.put blank 0x02FFFFFE 0x44332211).2 0x02040001).1 =
        some 0x44 ∧
      (MemoryBus.load8 (Store.word.put blank 0x02FFFFFE 0x44332211).2 0x03000001).1 =
        (MemoryBus.load8 blank 0x03000001).1 := by
  obtain ⟨hmirror, -⟩ := (load8_put (b := blank) rfl .word 0x02FFFFFE 0x44332211 0x02040001).1
    (by decide)
  obtain ⟨-, hother⟩ := (load8_put (b := blank) rfl .word 0x02FFFFFE 0x44332211 0x03000001).1
    (by decide)
  exact ⟨rfl, by decide, hmirror 3 (by decide) (by decide), hother (by decide)⟩

end Board

end AdvanceCore
