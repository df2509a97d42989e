import AdvanceCore.Proofs.Bus.Accesses

/-!
# `AdvanceCore.Proofs.Bus.FaultyRam`: a RAM behind bad lines

The smallest bus that tells apart what an access does and whether it succeeds: a little-endian
RAM over the whole address space, of which any load or store may fail. A failed load gives
nothing and a failed store leaves the RAM as it was.

* `halfAt`, `wordAt`, `overwritten`: units in a RAM, byte by byte.
* `FaultyRam`: the bus, with the rule by which accesses get through.
-/

set_option autoImplicit false

namespace AdvanceCore

/-! ### Units in a RAM -/

/-- The two bytes from an address on. -/
def halfAt (bytes : Word → Byte) (address : Word) : Half := bytes (address + 1) ++ bytes address

/-- The four bytes from an address on. -/
def wordAt (bytes : Word → Byte) (address : Word) : Word :=
  halfAt bytes (address + 2) ++ halfAt bytes address

/-- A RAM with other bytes from an address on. -/
def overwritten (bytes : Word → Byte) (address : Word) (size : Nat) (unit : Nat → Byte) :
    Word → Byte :=
  fun cell =>
    if (cell - address).toNat < size then unit (cell - address).toNat else bytes cell

/-- The bytes of a halfword are those at its two addresses. -/
theorem byte_halfAt (bytes : Word → Byte) (address : Word) {j : Nat} (hj : j < 2) :
    Bits.byte (halfAt bytes address) j = bytes (address + BitVec.ofNat 32 j) := by
  match j, hj with
  | 0, _ => exact (Bits.byte_append_zero ..).trans (congrArg bytes (BitVec.add_zero _).symm)
  | 1, _ => exact Bits.byte_append_one ..

/-- The bytes of a word are those at its four addresses. -/
theorem byte_wordAt (bytes : Word → Byte) (address : Word) {j : Nat} (hj : j < 4) :
    Bits.byte (wordAt bytes address) j = bytes (address + BitVec.ofNat 32 j) := by
  by_cases hlow : j < 2
  · exact (Bits.byte_append_low _ _ hlow).trans (byte_halfAt bytes address hlow)
  · obtain ⟨j, rfl⟩ := Nat.exists_eq_add_of_le (Nat.le_of_not_lt hlow)
    have haddress : address + 2 + BitVec.ofNat 32 j = address + BitVec.ofNat 32 (2 + j) := by
      rw [BitVec.ofNat_add, BitVec.add_assoc]
      rfl
    rw [← haddress, ← byte_halfAt bytes (address + 2) (by omega), Nat.add_comm 2 j]
    exact Bits.byte_append_high ..

/-- Only the bytes within the unit are written. -/
theorem overwritten_congr {bytes : Word → Byte} {address : Word} {size : Nat}
    {unit unit' : Nat → Byte} (h : ∀ j < size, unit j = unit' j) :
    overwritten bytes address size unit = overwritten bytes address size unit' := by
  funext cell
  unfold overwritten
  split
  · next hinside => exact h _ hinside
  · rfl

/-- The bytes of a unit are found where they were written: no unit is so long that its addresses
meet again. -/
theorem overwritten_inside {bytes : Word → Byte} {address : Word} {size j : Nat}
    {unit : Nat → Byte} (hj : j < size) (hsize : size ≤ 4) :
    overwritten bytes address size unit (address + BitVec.ofNat 32 j) = unit j := by
  have hdistance : (address + BitVec.ofNat 32 j - address).toNat = j := by
    rw [BitVec.add_comm, BitVec.add_sub_cancel, BitVec.toNat_ofNat]
    omega
  unfold overwritten
  rw [hdistance, if_pos hj]

/-- All other bytes stay. -/
theorem overwritten_outside {bytes : Word → Byte} {address cell : Word} {size : Nat}
    {unit : Nat → Byte} (hcell : ∀ j < size, cell ≠ address + BitVec.ofNat 32 j) :
    overwritten bytes address size unit cell = bytes cell := by
  refine if_neg fun hinside => hcell _ hinside ?_
  rw [BitVec.ofNat_toNat, BitVec.setWidth_eq, BitVec.add_comm, BitVec.sub_add_cancel]

/-! ### The bus -/

/-- A RAM of which the accesses get through that `passes` selects, by their number in the order
of time. -/
structure FaultyRam (passes : Nat → BusAccess → Bool) where
  bytes : Word → Byte
  /-- The accesses so far. -/
  time : Nat := 0

namespace FaultyRam

variable {passes : Nat → BusAccess → Bool}

/-- Answers a load by a value if it gets through. -/
def load {α : Type} (ram : FaultyRam passes) (access : BusAccess) (value : α) :
    Option α × FaultyRam passes :=
  (if passes ram.time access then some value else none, { ram with time := ram.time + 1 })

/-- Changes the bytes for a store if it gets through. -/
def store (ram : FaultyRam passes) (access : BusAccess) (bytes : Word → Byte) :
    Bool × FaultyRam passes :=
  if passes ram.time access then (true, ⟨bytes, ram.time + 1⟩)
  else (false, { ram with time := ram.time + 1 })

instance : MemoryBus (FaultyRam passes) where
  load8 ram address := ram.load (.load8 address) (ram.bytes address)
  load16 ram address := ram.load (.load16 address) (halfAt ram.bytes address)
  load32 ram address := ram.load (.load32 address) (wordAt ram.bytes address)
  store8 ram address value :=
    ram.store (.store8 address value) (overwritten ram.bytes address 1 (Bits.byte value))
  store16 ram address value :=
    ram.store (.store16 address value) (overwritten ram.bytes address 2 (Bits.byte value))
  store32 ram address value :=
    ram.store (.store32 address value) (overwritten ram.bytes address 4 (Bits.byte value))

/-- What a load gives, if it does, is what is in the RAM. -/
theorem eq_of_load {α : Type} {ram : FaultyRam passes} {access : BusAccess} {value loaded : α}
    (h : (ram.load access value).1 = some loaded) : loaded = value := by
  unfold load at h
  dsimp only at h
  split at h
  · exact (Option.some.inj h).symm
  · cases h

/-- A store that is accepted leaves the new bytes. -/
theorem bytes_of_store {ram : FaultyRam passes} {access : BusAccess} {bytes : Word → Byte}
    (h : (ram.store access bytes).1 = true) : (ram.store access bytes).2.bytes = bytes := by
  unfold store at h ⊢
  split at h
  · next hpasses => rw [if_pos hpasses]
  · cases h

end FaultyRam

end AdvanceCore
