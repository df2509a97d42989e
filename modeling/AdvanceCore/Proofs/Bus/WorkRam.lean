import AdvanceCore.Board
import Mathlib.Algebra.Group.Nat.Defs

/-!
# `AdvanceCore.Proofs.Bus.WorkRam`: the work RAM byte by byte

The work RAM of a board is two memories that repeat over their banks. Behind every address in
these banks is one of the cells of the two, and halfwords and words are the bytes in two or four
cells.

* `RamCell`, `ramCell`: the cells, and the one behind a byte of a unit.
* `load16_ram`, `load32_ram`: a load gives the bytes in the cells of the unit.
* `store16_ram`, `store32_ram`: a store replaces these bytes and nothing else of the board.
-/

set_option autoImplicit false

namespace AdvanceCore

/-! ### Cells -/

/-- A byte of the work RAM, in one of its two parts. -/
inductive RamCell where
  | external (i : Fin externalRamSize)
  | internal (i : Fin internalRamSize)
  deriving DecidableEq

/-- The number of the bank that an address is in. -/
def bankOf (address : Word) : Nat := (address >>> 24).toNat

/-- Banks 2 and 3 are work RAM. -/
def InWorkRam (address : Word) : Prop := bankOf address = 2 ∨ bankOf address = 3

instance (address : Word) : Decidable (InWorkRam address) :=
  inferInstanceAs (Decidable (_ ∨ _))

/-- The cell of byte `j` of the unit at an address in work RAM. -/
def ramCell (address : Word) (j : Nat) : RamCell :=
  if bankOf address = 2 then
    .external ⟨(address.toNat + j) % externalRamSize, Nat.mod_lt _ (by decide)⟩
  else .internal ⟨(address.toNat + j) % internalRamSize, Nat.mod_lt _ (by decide)⟩

/-- The bytes of a unit are in different cells. -/
theorem ramCell_injective (address : Word) {j j' : Nat} (hj : j < 4) (hj' : j' < 4)
    (h : ramCell address j = ramCell address j') : j = j' := by
  unfold ramCell at h
  split at h
  · have hindex : (address.toNat + j) % 0x40000 = (address.toNat + j') % 0x40000 :=
      congrArg Fin.val (RamCell.external.inj h)
    omega
  · have hindex : (address.toNat + j) % 0x8000 = (address.toNat + j') % 0x8000 :=
      congrArg Fin.val (RamCell.internal.inj h)
    omega

/-! ### One of the memories -/

namespace WorkRam

open ByteMemory

variable {size : Nat} (ram : WorkRam size)

/-- The address of a byte in the memory, from the address of the unit on the bus. -/
theorem val_index_add (hsize : size ∣ 2 ^ 24) (address : Word) {j : Nat} (hj : j < 4) :
    (ram.index ((address &&& 0x00FFFFFF) + BitVec.ofNat 32 j)).val =
      (address.toNat + j) % size := by
  have hlow : (address &&& 0x00FFFFFF).toNat = address.toNat % 2 ^ 24 :=
    Bits.toNat_and_mask (n := 24) address rfl
  have hlt := Nat.mod_lt address.toNat (show 0 < 2 ^ 24 by decide)
  have hadd : ((address &&& 0x00FFFFFF) + BitVec.ofNat 32 j).toNat =
      address.toNat % 2 ^ 24 + j := by
    rw [BitVec.toNat_add, hlow, BitVec.toNat_ofNat]
    omega
  show ((address &&& 0x00FFFFFF) + BitVec.ofNat 32 j).toNat % size = _
  rw [hadd, Nat.add_mod, Nat.mod_mod_of_dvd _ hsize, ← Nat.add_mod]

/-- A stored byte changes its own cell. -/
theorem get_writeByte (address : Word) (value : Byte) (i : Fin size) :
    (writeByte ram address value).store.get i =
      if ram.index address = i then value else ram.store.get i :=
  ByteStore.get_set ..

/-- A stored halfword changes two cells. Where mirrors make them one, its upper byte stays. -/
theorem get_writeHalf (address : Word) (value : Half) (i : Fin size) :
    (writeHalf ram address value).store.get i =
      if ram.index (address + 1) = i then Bits.byte value 1
      else if ram.index address = i then Bits.byte value 0
      else ram.store.get i := by
  unfold writeHalf
  rw [get_writeByte, get_writeByte]
  rfl

/-- A stored word changes four cells, in the same order. -/
theorem get_writeWord (address value : Word) (i : Fin size) :
    (writeWord ram address value).store.get i =
      if ram.index (address + 3) = i then Bits.byte value 3
      else if ram.index (address + 2) = i then Bits.byte value 2
      else if ram.index (address + 1) = i then Bits.byte value 1
      else if ram.index address = i then Bits.byte value 0
      else ram.store.get i := by
  have hthird : address + 2 + 1 = address + 3 := BitVec.add_assoc address 2 1
  unfold writeWord
  rw [get_writeHalf, get_writeHalf, hthird, Bits.byte_upperHalf value (show 1 < 2 by decide),
    Bits.byte_upperHalf value (show 0 < 2 by decide),
    Bits.byte_lowerHalf value (show 1 < 2 by decide),
    Bits.byte_lowerHalf value (show 0 < 2 by decide)]
  rfl

/-- A halfword is read from two cells, with the lower one last. -/
theorem readHalf_eq (address : Word) :
    readHalf ram address =
      some (ram.store.get (ram.index (address + 1)) ++ ram.store.get (ram.index address)) :=
  rfl

/-- A word is read from four. -/
theorem readWord_eq (address : Word) :
    readWord ram address =
      some ((ram.store.get (ram.index (address + 3)) ++ ram.store.get (ram.index (address + 2))) ++
        (ram.store.get (ram.index (address + 1)) ++ ram.store.get (ram.index address))) := by
  have hthird : address + 2 + 1 = address + 3 := BitVec.add_assoc address 2 1
  rw [← hthird]
  rfl

end WorkRam

/-! ### The board -/

namespace Board

variable {π : Type}

/-- The byte in a cell. -/
def ramByte (b : Board π) : RamCell → Byte
  | .external i => b.externalRam.store.get i
  | .internal i => b.internalRam.store.get i

/-- Two boards with the same in every other place than the work RAM. -/
def SameOutsideRam (b b' : Board π) : Prop :=
  b' = { b with externalRam := b'.externalRam, internalRam := b'.internalRam }

/-- A board differs from itself nowhere. -/
theorem SameOutsideRam.refl (b : Board π) : SameOutsideRam b b := rfl

/-- Two changes of the RAM are one. -/
theorem SameOutsideRam.trans {b b' b'' : Board π} (h : SameOutsideRam b b')
    (h' : SameOutsideRam b' b'') : SameOutsideRam b b'' := by
  unfold SameOutsideRam at *
  rw [h', h]

variable [Peripheral π]

/-- The memory behind an address: one of the two parts of the work RAM, and the board with
another memory in its place. -/
structure RamPart (b : Board π) (address : Word) where
  size : Nat
  ram : WorkRam size
  cell : Fin size → RamCell
  put : WorkRam size → Board π
  answers : Place
  route : b.route address = some (answers, address &&& 0x00FFFFFF)
  accessAt : ∀ {α : Type} (access : Access α), b.accessAt answers access =
    (some (access _ inferInstance ram).1, put (access _ inferInstance ram).2)
  put_ram : put ram = b
  outside : ∀ next, SameOutsideRam b (put next)
  ramByte_cell : ∀ next i, (put next).ramByte (cell i) = next.store.get i
  ramByte_other : ∀ next c, (∀ i, c ≠ cell i) → (put next).ramByte c = b.ramByte c
  ramCell_eq : ∀ j < 4,
    ramCell address j = cell (ram.index ((address &&& 0x00FFFFFF) + BitVec.ofNat 32 j))

/-- Every address in work RAM has its part. -/
theorem exists_ramPart (b : Board π) {address : Word} (h : InWorkRam address) :
    Nonempty (RamPart b address) := by
  -- hbank | The two RAMs differ in size and in the bank they answer to. Everything else below is
  -- proved for a part.
  rcases h with hbank | hbank
  · have hroute : b.route address = some (.externalRam, address &&& 0x00FFFFFF) := by
      unfold bankOf at hbank
      unfold route
      simp only [hbank]
      rfl
    refine ⟨⟨_, b.externalRam, .external, fun next => { b with externalRam := next },
      .externalRam, hroute, fun _ => rfl, rfl, fun _ => rfl, fun _ _ => rfl, ?_, ?_⟩⟩
    · intro next c hother
      cases c with
      | external i => exact absurd rfl (hother i)
      | internal i => rfl
    · intro j hj
      unfold ramCell
      rw [if_pos hbank]
      exact congrArg _ (Fin.ext (b.externalRam.val_index_add (by decide) address hj).symm)
  · have hroute : b.route address = some (.internalRam, address &&& 0x00FFFFFF) := by
      unfold bankOf at hbank
      unfold route
      simp only [hbank]
      rfl
    refine ⟨⟨_, b.internalRam, .internal, fun next => { b with internalRam := next },
      .internalRam, hroute, fun _ => rfl, rfl, fun _ => rfl, fun _ _ => rfl, ?_, ?_⟩⟩
    · intro next c hother
      cases c with
      | external i => rfl
      | internal i => exact absurd rfl (hother i)
    · intro j hj
      unfold ramCell
      rw [if_neg (by rw [hbank]; decide)]
      exact congrArg _ (Fin.ext (b.internalRam.val_index_add (by decide) address hj).symm)

/-- The cells of a unit have been replaced, and nothing else. -/
structure Stored (b b' : Board π) (address : Word) (size : Nat) (bytes : Nat → Byte) : Prop where
  outside : SameOutsideRam b b'
  stored : ∀ j < size, b'.ramByte (ramCell address j) = bytes j
  kept : ∀ cell, (∀ j < size, cell ≠ ramCell address j) → b'.ramByte cell = b.ramByte cell

namespace RamPart

open ByteMemory

variable {b : Board π} {address : Word} (p : RamPart b address)

/-- A load in the work RAM is one from the memory behind it. -/
theorem load {α : Type} (access : Word → Access (Option α)) : b.load address access =
    ((access (address &&& 0x00FFFFFF) _ inferInstance p.ram).1,
      p.put (access (address &&& 0x00FFFFFF) _ inferInstance p.ram).2) := by
  unfold Board.load
  rw [p.route]
  dsimp only
  rw [p.accessAt]
  rfl

/-- A store in the work RAM is one to the memory behind it. -/
theorem store (access : Word → Access Bool) : b.store address access =
    ((access (address &&& 0x00FFFFFF) _ inferInstance p.ram).1,
      p.put (access (address &&& 0x00FFFFFF) _ inferInstance p.ram).2) := by
  unfold Board.store
  rw [p.route]
  dsimp only
  rw [p.accessAt]
  rfl

/-- The place of byte `j` of the unit in the memory. -/
def place (j : Nat) : Fin p.size :=
  p.ram.index ((address &&& 0x00FFFFFF) + BitVec.ofNat 32 j)

/-- The first byte of a value is at the address. -/
theorem place_zero : p.place 0 = p.ram.index (address &&& 0x00FFFFFF) :=
  congrArg p.ram.index (BitVec.add_zero _)

/-- The cells of a value are read from the memory behind them. -/
theorem ramByte_ramCell {j : Nat} (hj : j < 4) (next : WorkRam p.size) :
    (p.put next).ramByte (ramCell address j) = next.store.get (p.place j) := by
  rw [p.ramCell_eq j hj, p.ramByte_cell]
  rfl

/-- The four bytes of a value are in different cells: a memory has four bytes at least. -/
theorem place_ne {j j' : Nat} (hj : j < 4) (hj' : j' < 4) (hne : j ≠ j') :
    p.place j ≠ p.place j' := by
  intro hplace
  refine hne (ramCell_injective address hj hj' ?_)
  rw [p.ramCell_eq j hj, p.ramCell_eq j' hj']
  exact congrArg p.cell hplace

/-- A memory that differs from this one in the bytes of the unit only. -/
theorem stored {next : WorkRam p.size} {size : Nat} {bytes : Nat → Byte} (hsize : size ≤ 4)
    (hbytes : ∀ j < size, next.store.get (p.place j) = bytes j)
    (hkept : ∀ i, (∀ j < size, i ≠ p.place j) → next.store.get i = p.ram.store.get i) :
    Stored b (p.put next) address size bytes := by
  refine ⟨p.outside next, fun j hj => ?_, fun cell hcell => ?_⟩
  · rw [p.ramByte_ramCell (by omega)]
    exact hbytes j hj
  · -- A byte that is not stored is another one of this RAM, or it is none of this RAM.
    by_cases hpart : ∃ i, cell = p.cell i
    · obtain ⟨i, rfl⟩ := hpart
      have hother : ∀ j < size, i ≠ p.place j := by
        rintro j hj rfl
        exact hcell j hj (p.ramCell_eq j (by omega)).symm
      have hbefore : b.ramByte (p.cell i) = p.ram.store.get i := by
        rw [← p.ramByte_cell p.ram i, p.put_ram]
      rw [p.ramByte_cell, hkept i hother, hbefore]
    · exact p.ramByte_other next cell fun i hi => hpart ⟨i, hi⟩

/-- A stored halfword is found in its two cells, and nothing else has changed. -/
theorem stored_half (value : Half) :
    Stored b (p.put (writeHalf p.ram (address &&& 0x00FFFFFF) value)) address 2
      (Bits.byte value) := by
  have hget (i : Fin p.size) :
      (writeHalf p.ram (address &&& 0x00FFFFFF) value).store.get i =
        if p.place 1 = i then Bits.byte value 1
        else if p.place 0 = i then Bits.byte value 0
        else p.ram.store.get i := by
    rw [place_zero]
    exact p.ram.get_writeHalf _ value i
  refine p.stored (by decide) (fun j hj => ?_) fun i hi => ?_
  · have hne (k : Nat) (hk : k < 4) (h : k ≠ j) := p.place_ne hk (by omega) h
    rw [hget]
    match j, hj with
    | 1, _ => rw [if_pos rfl]
    | 0, _ => rw [if_neg (hne 1 (by decide) (by decide)), if_pos rfl]
  · have hne (j : Nat) (hj : j < 2) : p.place j ≠ i := (hi j hj).symm
    rw [hget, if_neg (hne 1 (by decide)), if_neg (hne 0 (by decide))]

/-- A stored word is found in its four cells. -/
theorem stored_word (value : Word) :
    Stored b (p.put (writeWord p.ram (address &&& 0x00FFFFFF) value)) address 4
      (Bits.byte value) := by
  have hget (i : Fin p.size) :
      (writeWord p.ram (address &&& 0x00FFFFFF) value).store.get i =
        if p.place 3 = i then Bits.byte value 3
        else if p.place 2 = i then Bits.byte value 2
        else if p.place 1 = i then Bits.byte value 1
        else if p.place 0 = i then Bits.byte value 0
        else p.ram.store.get i := by
    rw [place_zero]
    exact p.ram.get_writeWord _ value i
  -- The four bytes are written in order, and the places are pairwise different: no later write
  -- covers an earlier one.
  refine p.stored (by decide) (fun j hj => ?_) fun i hi => ?_
  · have hne (k : Nat) (hk : k < 4) (h : k ≠ j) := p.place_ne hk hj h
    rw [hget]
    match j, hj with
    | 3, _ => rw [if_pos rfl]
    | 2, _ => rw [if_neg (hne 3 (by decide) (by decide)), if_pos rfl]
    | 1, _ =>
      rw [if_neg (hne 3 (by decide) (by decide)), if_neg (hne 2 (by decide) (by decide)),
        if_pos rfl]
    | 0, _ =>
      rw [if_neg (hne 3 (by decide) (by decide)), if_neg (hne 2 (by decide) (by decide)),
        if_neg (hne 1 (by decide) (by decide)), if_pos rfl]
  · have hne (j : Nat) (hj : j < 4) : p.place j ≠ i := (hi j hj).symm
    rw [hget, if_neg (hne 3 (by decide)), if_neg (hne 2 (by decide)),
      if_neg (hne 1 (by decide)), if_neg (hne 0 (by decide))]

/-- The byte of a unit before anything is stored. -/
theorem get_place {j : Nat} (hj : j < 4) :
    p.ram.store.get (p.place j) = b.ramByte (ramCell address j) := by
  rw [← p.ramByte_ramCell hj p.ram, p.put_ram]

end RamPart

variable {b : Board π} {address : Word}

/-- A halfword that a program stores is found in its cells. The address may be aligned or not. -/
theorem store16_ram (h : InWorkRam address) (value : Half) :
    Stored b (MemoryBus.store16 b address value).2 address 2 (Bits.byte value) := by
  obtain ⟨p⟩ := b.exists_ramPart h
  have hstore : (MemoryBus.store16 b address value).2 = p.put _ := congrArg Prod.snd (p.store _)
  rw [hstore]
  exact p.stored_half value

/-- A word that a program stores is found in its cells. -/
theorem store32_ram (h : InWorkRam address) (value : Word) :
    Stored b (MemoryBus.store32 b address value).2 address 4 (Bits.byte value) := by
  obtain ⟨p⟩ := b.exists_ramPart h
  have hstore : (MemoryBus.store32 b address value).2 = p.put _ := congrArg Prod.snd (p.store _)
  rw [hstore]
  exact p.stored_word value

/-- A halfword that a program loads has the bytes of its cells, and changes nothing. -/
theorem load16_ram (h : InWorkRam address) :
    ∃ value, MemoryBus.load16 b address = (some value, b) ∧
      ∀ j < 2, Bits.byte value j = b.ramByte (ramCell address j) := by
  obtain ⟨p⟩ := b.exists_ramPart h
  let value := p.ram.store.get (p.place 1) ++ p.ram.store.get (p.place 0)
  refine ⟨value, ?_, fun j hj => ?_⟩
  · have hread : ByteMemory.readHalf p.ram (address &&& 0x00FFFFFF) = some value := by
      rw [p.ram.readHalf_eq, ← p.place_zero]
      rfl
    exact (p.load _).trans (Prod.ext hread p.put_ram)
  · match j, hj with
    | 0, _ => exact (Bits.byte_append_zero ..).trans (p.get_place (by decide))
    | 1, _ => exact (Bits.byte_append_one ..).trans (p.get_place (by decide))

/-- A word that a program loads has the bytes of its cells, and changes nothing. -/
theorem load32_ram (h : InWorkRam address) :
    ∃ value, MemoryBus.load32 b address = (some value, b) ∧
      ∀ j < 4, Bits.byte value j = b.ramByte (ramCell address j) := by
  obtain ⟨p⟩ := b.exists_ramPart h
  let low := p.ram.store.get (p.place 1) ++ p.ram.store.get (p.place 0)
  let high := p.ram.store.get (p.place 3) ++ p.ram.store.get (p.place 2)
  refine ⟨high ++ low, ?_, fun j hj => ?_⟩
  · have hread : ByteMemory.readWord p.ram (address &&& 0x00FFFFFF) = some (high ++ low) := by
      rw [p.ram.readWord_eq, ← p.place_zero]
      rfl
    exact (p.load _).trans (Prod.ext hread p.put_ram)
  · match j, hj with
    | 0, _ =>
      rw [Bits.byte_append_low _ _ (by decide)]
      exact (Bits.byte_append_zero ..).trans (p.get_place (by decide))
    | 1, _ =>
      rw [Bits.byte_append_low _ _ (by decide)]
      exact (Bits.byte_append_one ..).trans (p.get_place (by decide))
    | 2, _ =>
      rw [Bits.byte_append_high]
      exact (Bits.byte_append_zero ..).trans (p.get_place (by decide))
    | 3, _ =>
      rw [Bits.byte_append_high]
      exact (Bits.byte_append_one ..).trans (p.get_place (by decide))

end Board

end AdvanceCore
