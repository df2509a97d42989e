import AdvanceCore.Proofs.Bus.RejectedStores

/-!
# `AdvanceCore.Proofs.Bus.LoadWidths`: loads of three widths

A halfword can be loaded at once or as two bytes, and a word at once or as two halfwords. The
parts of a console put wide values together in ways of their own: a memory from its bytes, past
the end of a cartridge from bytes of the address, and a block of registers from whole halfwords,
of which a byte is cut out. Which part answers is decided by the first address alone. The ways
agree because no border between two parts runs through an aligned word, but for one: the power
register is a halfword with nothing behind it.

* `Readings`, `Board.readingsAt`: what the three widths read, in a part and in a whole board.
* `Board.route_add`: the bytes of an aligned word are next to each other in one part.
* `Board.load8_eq`, `load16_eq`, `load32_eq`: a load reads and changes nothing.
* `Board.load_widths_agree`: wide loads are put together from narrow ones.
-/

set_option autoImplicit false

namespace AdvanceCore

/-! ### Readings -/

/-- A value from its lower and its upper half, if both are there. -/
def joined {w : Nat} (low high : Option (BitVec w)) : Option (BitVec (w + w)) := do
  let low ← low
  let high ← high
  return high ++ low

/-- Two answers are joined if both parts have answered. -/
theorem joined_eq_some_iff {w : Nat} {low high : Option (BitVec w)} {value : BitVec (w + w)} :
    joined low high = some value ↔
      ∃ l h, low = some l ∧ high = some h ∧ value = h ++ l := by
  constructor
  · intro hvalue
    cases low with
    | none => cases hvalue
    | some l =>
      cases high with
      | none => cases hvalue
      | some h => exact ⟨l, h, rfl, rfl, (Option.some.inj hvalue).symm⟩
  · rintro ⟨l, h, rfl, rfl, rfl⟩
    rfl

/-- What loads of the three widths read, by address. -/
structure Readings where
  byte : Word → Option Byte
  half : Word → Option Half
  word : Word → Option Word

namespace Readings

/-- Nobody answers. -/
def silent : Readings := ⟨fun _ => none, fun _ => none, fun _ => none⟩

/-- What a memory answers in the three widths. -/
def ofMemory {μ : Type} [ByteMemory μ] (m : μ) : Readings :=
  ⟨ByteMemory.readByte m, ByteMemory.readHalf m, ByteMemory.readWord m⟩

/-- What a block of registers answers. -/
def ofBlock {ρ : Type} [RegisterBlock ρ] (block : ρ) : Readings :=
  ⟨RegisterBlock.loadByte block, RegisterBlock.loadHalf block, RegisterBlock.loadWord block⟩

/-- The address after an even one differs from it in the last bit only. -/
theorem last_bit_of_even {address : Word} (heven : 2 ∣ address.toNat) :
    address &&& 1 = 0 ∧ (address + 1) &&& 1 = 1 ∧
      halfAligned (address + 1) = halfAligned address := by
  have hclear : address &&& 1 = 0 := by
    refine BitVec.eq_of_toNat_eq ?_
    rw [Bits.toNat_and_mask (n := 1) address rfl]
    exact Nat.mod_eq_zero_of_dvd heven
  have hset : address + 1 = address ||| 1 := BitVec.add_eq_or_of_and_eq_zero _ _ hclear
  rw [hset]
  refine ⟨hclear, ?_, ?_⟩
  · rw [BitVec.and_or_distrib_right, hclear]
    rfl
  · unfold halfAligned
    rw [BitVec.and_or_distrib_right]
    exact BitVec.or_zero

/-- Both bytes of a register are cut out of the same halfword. -/
theorem half_ofBlock {ρ : Type} [RegisterBlock ρ] (block : ρ) {address : Word}
    (heven : 2 ∣ address.toNat) :
    (ofBlock block).half address =
      joined ((ofBlock block).byte address) ((ofBlock block).byte (address + 1)) := by
  obtain ⟨hclear, hset, hsame⟩ := last_bit_of_even heven
  have hregister :
      RegisterBlock.loadHalf block (address + 1) = RegisterBlock.loadHalf block address := by
    unfold RegisterBlock.loadHalf
    rw [hsame]
  show RegisterBlock.loadHalf block address =
    joined (RegisterBlock.loadByte block address) (RegisterBlock.loadByte block (address + 1))
  -- Both bytes come from the same register, the low one and the high one.
  unfold RegisterBlock.loadByte
  rw [hregister, hclear, hset]
  cases RegisterBlock.loadHalf block address with
  | none => rfl
  | some half => exact congrArg some (Bits.byte_append_byte half).symm

end Readings

/-! ### Neighbours -/

/-- Within a word there is no carry into the other bits of an address. -/
theorem toNat_add_within {address : Word} {j : Nat} (hj : address.toNat % 4 + j < 4) :
    (address + BitVec.ofNat 32 j).toNat = address.toNat + j := by
  rw [BitVec.toNat_add, BitVec.toNat_ofNat]
  omega

/-- A mask leaves the distance of two addresses in one word. -/
theorem add_within_and_mask {address mask : Word} {n j : Nat} (hmask : mask.toNat = 1 <<< n - 1)
    (hn : 4 ∣ 1 <<< n) (hj : address.toNat % 4 + j < 4) :
    (address + BitVec.ofNat 32 j) &&& mask = (address &&& mask) + BitVec.ofNat 32 j := by
  have hlow := Bits.toNat_and_mask address hmask
  have hlast : (address &&& mask).toNat % 4 = address.toNat % 4 := by
    rw [hlow, Nat.mod_mod_of_dvd _ hn]
  refine BitVec.eq_of_toNat_eq ?_
  rw [Bits.toNat_and_mask _ hmask, toNat_add_within hj, toNat_add_within (by omega), hlow]
  obtain ⟨q, hq⟩ := hn
  have hquotient : (address.toNat + j) / 4 = address.toNat / 4 := by omega
  rw [hq, Nat.mod_mul, Nat.mod_mul, hquotient]
  omega

namespace Board

variable {π : Type} {b : Board π}

/-- Without attached hardware no place is claimed. -/
theorem claims_eq_false (hattached : b.attachments = []) (spot : Spot) :
    b.claims spot = false := by
  unfold claims
  rw [hattached]
  rfl

/-- The bytes of an aligned unit lead to the same block, at the same distance. The power register is
the exception: it is the only one with a halfword that nobody claims behind it. -/
theorem routeIo_add (hattached : b.attachments = []) {low : Word} {j : Nat}
    (heven : 2 ∣ low.toNat) (hj : low.toNat % 4 + j < 4) (hpower : low = 0x300 → j < 2) :
    b.routeIo (low + BitVec.ofNat 32 j) =
      (b.routeIo low).map fun (place, offset) => (place, offset + BitVec.ofNat 32 j) := by
  have hpower : low.toNat = 0x300 → j < 2 := fun h => hpower (BitVec.eq_of_toNat_eq h)
  have hsub (start : Word) :
      low + BitVec.ofNat 32 j - start = low - start + BitVec.ofNat 32 j := by
    rw [BitVec.sub_eq_add_neg, BitVec.sub_eq_add_neg, BitVec.add_assoc, BitVec.add_assoc,
      BitVec.add_comm (-start)]
  unfold routeIo
  simp only [toNat_add_within hj, hsub, claims_eq_false hattached]
  -- Every block begins and ends with a word, but for the last one.
  by_cases hdma : 0x0B0 ≤ low.toNat ∧ low.toNat ≤ 0x0DF
  · rw [if_pos hdma, if_pos (by omega)]
    rfl
  rw [if_neg hdma, if_neg (by omega)]
  by_cases htimers : 0x100 ≤ low.toNat ∧ low.toNat ≤ 0x10F
  · rw [if_pos htimers, if_pos (by omega)]
    rfl
  rw [if_neg htimers, if_neg (by omega)]
  by_cases hinterrupts : (0x200 ≤ low.toNat ∧ low.toNat ≤ 0x20B) ∨
      (0x300 ≤ low.toNat ∧ low.toNat ≤ 0x301)
  · rw [if_pos hinterrupts, if_pos (by omega)]
    rfl
  rw [if_neg hinterrupts, if_neg (by omega)]
  rfl

/-- Without attached hardware, who answers for the first byte of an aligned unit answers for the
others too, and finds them behind it. The exception is a word at the power register. -/
theorem route_add (hattached : b.attachments = []) {address : Word} {j : Nat}
    (heven : 2 ∣ address.toNat) (hj : address.toNat % 4 + j < 4)
    (hpower : address = powerAddress → j < 2) :
    b.route (address + BitVec.ofNat 32 j) =
      (b.route address).map fun (place, offset) => (place, offset + BitVec.ofNat 32 j) := by
  -- The sum stays inside the word, so neither the bank nor the masked offset sees a carry.
  have hbank : ((address + BitVec.ofNat 32 j) >>> 24).toNat = (address >>> 24).toNat := by
    rw [BitVec.toNat_ushiftRight, BitVec.toNat_ushiftRight, toNat_add_within hj,
      Nat.shiftRight_eq_div_pow, Nat.shiftRight_eq_div_pow]
    omega
  have hoffset : (address + BitVec.ofNat 32 j) &&& 0x00FFFFFF =
      (address &&& 0x00FFFFFF) + BitVec.ofNat 32 j :=
    add_within_and_mask (n := 24) rfl (by decide) hj
  have hwindow : (address + BitVec.ofNat 32 j) &&& 0x01FFFFFF =
      (address &&& 0x01FFFFFF) + BitVec.ofNat 32 j :=
    add_within_and_mask (n := 25) rfl (by decide) hj
  unfold route
  simp only [hbank, hoffset]
  split
  · rfl
  split
  · rfl
  split
  · rfl
  split
  · next hfour =>
    have htoNat := toNat_of_bank_eq_four hfour
    refine routeIo_add hattached (by omega) (by omega) fun hlow => hpower ?_
    rw [hlow] at htoNat
    exact BitVec.eq_of_toNat_eq htoNat
  split
  · unfold routeOpen
    rw [claims_eq_false hattached, hwindow, if_neg Bool.false_ne_true, if_neg Bool.false_ne_true]
    split <;> rfl
  · rfl

/-! ### The loads of a board -/

/-- What loads read at a place. -/
def readingsAt (b : Board π) : Place → Readings
  | .bootRom => .ofMemory b.bootRom
  | .externalRam => .ofMemory b.externalRam
  | .internalRam => .ofMemory b.internalRam
  | .cartridge => b.cartridge.elim .silent .ofMemory
  | .dma => .ofBlock b.dma
  | .timers => .ofBlock b.timers
  | .interrupts => .ofBlock b.interrupts
  | .attached _ => .silent

/-- The blocks of registers begin at even addresses, so what is even on the bus is even in its
block. -/
theorem half_readingsAt {address offset : Word} {place : Place} (heven : 2 ∣ address.toNat)
    (hroute : b.route address = some (place, offset)) :
    (b.readingsAt place).half offset =
      joined ((b.readingsAt place).byte offset) ((b.readingsAt place).byte (offset + 1)) := by
  -- A memory joins its bytes by definition. A register block picks a byte of the register, which
  -- needs an even offset, and every block starts at an even address.
  cases place with
  | bootRom | externalRam | internalRam | attached => rfl
  | cartridge =>
    unfold readingsAt
    cases b.cartridge <;> rfl
  | dma =>
    have haddress := (route_dma hroute).1
    exact Readings.half_ofBlock b.dma (by omega)
  | timers =>
    have haddress := (route_timers hroute).1
    exact Readings.half_ofBlock b.timers (by omega)
  | interrupts =>
    obtain ⟨rfl, -⟩ := route_interrupts hroute
    refine Readings.half_ofBlock b.interrupts ?_
    rw [BitVec.toNat_add] at heven
    change 2 ∣ (0x04000200 + offset.toNat) % 2 ^ 32 at heven
    omega

/-- A word of any part is two of its halfwords, which is how each of them reads one. -/
theorem word_readingsAt (place : Place) (offset : Word) :
    (b.readingsAt place).word offset =
      joined ((b.readingsAt place).half offset) ((b.readingsAt place).half (offset + 2)) := by
  cases place with
  | cartridge =>
    unfold readingsAt
    cases b.cartridge <;> rfl
  | _ => rfl

variable [Peripheral π]

/-- A load of a width reads and changes nothing if it does so in each kind of part. -/
theorem load_eq {α : Type} (hattached : b.attachments = []) (address : Word)
    {access : Word → Access (Option α)} {read : Readings → Word → Option α}
    (hmemory : ∀ {μ : Type} [ByteMemory μ] (m : μ) (offset : Word),
      access offset μ inferInstance m = (read (.ofMemory m) offset, m))
    (hblock : ∀ {ρ : Type} [RegisterBlock ρ] (block : ρ) (offset : Word),
      access offset ρ inferInstance block = (read (.ofBlock block) offset, block))
    (hsilent : ∀ offset, read .silent offset = none) :
    b.load address access =
      ((b.route address).bind fun (place, offset) => read (b.readingsAt place) offset, b) := by
  obtain ⟨bootRom, externalRam, internalRam, cartridge, dma, timers, interrupts, attachments⟩ := b
  -- The reading is stated on the board as it is, the access on the device that was routed to.
  cases hattached
  unfold load
  split
  · next place offset hroute =>
    rw [hroute]
    cases place with
    | bootRom | externalRam | internalRam =>
      simp only [accessAt, hmemory]
      rfl
    | cartridge =>
      cases cartridge with
      | none =>
        simp only [accessAt]
        exact Prod.ext (hsilent offset).symm rfl
      | some pak =>
        simp only [accessAt, hmemory]
        rfl
    | dma | timers | interrupts =>
      simp only [accessAt, hblock]
      rfl
    | attached spot =>
      simp only [accessAt]
      exact Prod.ext (hsilent offset).symm rfl
  · next hroute =>
    rw [hroute]
    rfl

/-- A load of a byte asks the part that its address leads to. -/
theorem load8_eq (hattached : b.attachments = []) (address : Word) :
    MemoryBus.load8 b address =
      ((b.route address).bind fun (place, offset) => (b.readingsAt place).byte offset, b) :=
  load_eq hattached address (fun _ _ => rfl) (fun _ _ => rfl) fun _ => rfl

/-- A load of a halfword asks the part that its address leads to. -/
theorem load16_eq (hattached : b.attachments = []) (address : Word) :
    MemoryBus.load16 b address =
      ((b.route address).bind fun (place, offset) => (b.readingsAt place).half offset, b) :=
  load_eq hattached address (fun _ _ => rfl) (fun _ _ => rfl) fun _ => rfl

/-- A load of a word asks the part that its address leads to. -/
theorem load32_eq (hattached : b.attachments = []) (address : Word) :
    MemoryBus.load32 b address =
      ((b.route address).bind fun (place, offset) => (b.readingsAt place).word offset, b) :=
  load_eq hattached address (fun _ _ => rfl) (fun _ _ => rfl) fun _ => rfl

/-- An aligned halfword is two bytes. -/
theorem load16_eq_joined (hattached : b.attachments = []) {address : Word}
    (haligned : 2 ∣ address.toNat) :
    (MemoryBus.load16 b address).1 =
      joined (MemoryBus.load8 b address).1 (MemoryBus.load8 b (address + 1)).1 := by
  have hnext : b.route (address + 1) = _ :=
    route_add (j := 1) hattached haligned (by omega) fun _ => by decide
  rw [load16_eq hattached, load8_eq hattached, load8_eq hattached, hnext]
  cases hroute : b.route address with
  | none => rfl
  | some answer => exact half_readingsAt haligned hroute

/-- An aligned word is two halfwords. -/
theorem load32_eq_joined (hattached : b.attachments = []) {address : Word}
    (haligned : 4 ∣ address.toNat) :
    (MemoryBus.load32 b address).1 =
      joined (MemoryBus.load16 b address).1 (MemoryBus.load16 b (address + 2)).1 := by
  have heven : 2 ∣ address.toNat := by omega
  rw [load32_eq hattached, load16_eq hattached, load16_eq hattached]
  by_cases hpower : address = powerAddress
  · -- Neither the controller nor anybody else answers behind the power register.
    have hnext : b.route (powerAddress + 2) = none := by
      show (if b.claims (.io 0x302) then _ else _) = _
      rw [claims_eq_false hattached]
      rfl
    rw [hpower, hnext]
    exact word_readingsAt .interrupts 0x100
  · have hnext : b.route (address + 2) = _ :=
      route_add (j := 2) hattached heven (by omega) fun h => absurd h hpower
    rw [hnext]
    cases b.route address with
    | none => rfl
    | some answer => exact word_readingsAt answer.1 answer.2

/-- Without attached hardware the three widths agree at every aligned address. A halfword can be
loaded if both of its bytes can, and a word if both of its halfwords can. The wide value is then
the two narrow ones, the lower one first. No load changes anything, aligned or not. -/
theorem load_widths_agree {b : Board π} (hattached : b.attachments = []) :
    (∀ address : Word, 2 ∣ address.toNat → ∀ half,
      (MemoryBus.load16 b address).1 = some half ↔
        ∃ low high, (MemoryBus.load8 b address).1 = some low ∧
          (MemoryBus.load8 b (address + 1)).1 = some high ∧ half = high ++ low) ∧
    (∀ address : Word, 4 ∣ address.toNat → ∀ word,
      (MemoryBus.load32 b address).1 = some word ↔
        ∃ low high, (MemoryBus.load16 b address).1 = some low ∧
          (MemoryBus.load16 b (address + 2)).1 = some high ∧ word = high ++ low) ∧
    ∀ address : Word, (MemoryBus.load8 b address).2 = b ∧ (MemoryBus.load16 b address).2 = b ∧
      (MemoryBus.load32 b address).2 = b := by
  refine ⟨fun address haligned half => ?_, fun address haligned word => ?_, fun address => ?_⟩
  · rw [load16_eq_joined hattached haligned]
    exact joined_eq_some_iff
  · rw [load32_eq_joined hattached haligned]
    exact joined_eq_some_iff
  · rw [load8_eq hattached, load16_eq hattached, load32_eq hattached]
    exact ⟨rfl, rfl, rfl⟩

/-- A board with a cartridge of a single byte. -/
def oneByteBoard : Board NoPeripheral := { blank with cartridge := some ⟨⟨#[0xAB]⟩, by decide⟩ }

/-- The rest of its first word is read back from the address lines. -/
theorem oneByteBoard_word :
    (MemoryBus.load32 oneByteBoard 0x08000000).1 = some 0x000100AB ∧
      (MemoryBus.load32 oneByteBoard 0x08000000).2 = oneByteBoard := by
  obtain ⟨hhalf, hword, hkept⟩ := load_widths_agree (b := oneByteBoard) rfl
  have hlow := (hhalf 0x08000000 (by decide) 0x00AB).2 ⟨0xAB, 0x00, rfl, rfl, rfl⟩
  have hhigh := (hhalf 0x08000002 (by decide) 0x0001).2 ⟨0x01, 0x00, rfl, rfl, rfl⟩
  exact ⟨(hword 0x08000000 (by decide) _).2 ⟨0x00AB, 0x0001, hlow, hhigh, rfl⟩,
    (hkept 0x08000000).2.2⟩

end Board

end AdvanceCore
