import AdvanceCore.Proofs.Bus.Accesses
import AdvanceCore.Proofs.Bus.WorkRam

/-!
# `AdvanceCore.Proofs.Bus.WordRuns`: runs of consecutive words

A register list goes to or comes from consecutive words, lowest first, until an access fails.
This file says which accesses such a run makes, and what it leaves in a RAM.

`storeWords` and `loadWords` walk up by four from an address that may be unaligned, and align each
address on its own. The words are consecutive all the same: `wordAddress address k` is the one
`4 * k` bytes above the aligned `address`. Both runs are recursions on the words that are left, and
every lemma here is an induction along them whose step is `wordAddress_succ`: word `k` from the
second address on is word `k + 1` from the first.

* `accesses_storeWords`, `accesses_loadWords`: the accesses of a run, given up or not.
* `answer_loadWords`: the words that a run brings.
* `RamWords`: a memory behind a bus with words that can be stored and read back.
* `storeWords_ram`, `loadWords_ram`: a run of stores fills its words and nothing else, and a run
  of loads brings them back.
* `internalRamWords`: the internal work RAM of a board is such a memory.
-/

set_option autoImplicit false

namespace AdvanceCore

/-! ### The words of a run -/

/-- The address of the word with a number, counted from the word that contains `address`. -/
def wordAddress (address : Word) (k : Nat) : Word :=
  wordAligned address + BitVec.ofNat 32 (4 * k)

/-- Aligning to a word rounds down to a multiple of four. -/
theorem toNat_wordAligned (address : Word) :
    (wordAligned address).toNat = address.toNat / 4 * 4 :=
  Bits.toNat_and_not_lowMask address 2

/-- Whole words do not change how far an address is from being aligned. -/
theorem wordAligned_add_four (address : Word) :
    wordAligned (address + 4) = wordAligned address + 4 := by
  have hlt := address.isLt
  have hfour : (4 : Word).toNat = 4 := rfl
  refine BitVec.eq_of_toNat_eq ?_
  rw [toNat_wordAligned, BitVec.toNat_add, BitVec.toNat_add, toNat_wordAligned, hfour]
  omega

/-- The first word of a run is at its address. -/
@[simp] theorem wordAddress_zero (address : Word) : wordAddress address 0 = wordAligned address :=
  BitVec.add_zero _

/-- After one word the others are counted from the second. -/
theorem wordAddress_succ (address : Word) (k : Nat) :
    wordAddress (address + 4) k = wordAddress address (k + 1) := by
  have hnext : (4 : Word) + BitVec.ofNat 32 (4 * k) = BitVec.ofNat 32 (4 * (k + 1)) := by
    rw [Nat.mul_succ, Nat.add_comm, BitVec.ofNat_add]
    rfl
  show wordAligned (address + 4) + _ = wordAligned address + _
  rw [wordAligned_add_four, BitVec.add_assoc, hnext]

/-- The words of a run are different, since a run is shorter than the address space. -/
theorem wordAddress_injective {address : Word} {k k' : Nat} (hk : k < 2 ^ 30) (hk' : k' < 2 ^ 30)
    (h : wordAddress address k = wordAddress address k') : k = k' := by
  have hdistance : BitVec.ofNat 32 (4 * k) = BitVec.ofNat 32 (4 * k') :=
    (BitVec.add_right_inj (wordAligned address)).mp h
  have hnat := congrArg BitVec.toNat hdistance
  rw [BitVec.toNat_ofNat, BitVec.toNat_ofNat] at hnat
  omega

/-! ### What a run does over a bus -/

/-- The accesses that store words. -/
def wordStores (address : Word) (values : List Word) : List BusAccess :=
  values.mapIdx fun k value => .store32 (wordAddress address k) value

/-- The accesses that load words. -/
def wordLoads (address : Word) (count : Nat) : List BusAccess :=
  (List.range count).map fun k => .load32 (wordAddress address k)

/-- A run of stores begins with its first word. -/
theorem wordStores_cons (address value : Word) (rest : List Word) :
    wordStores address (value :: rest) =
      .store32 (wordAligned address) value :: wordStores (address + 4) rest := by
  simp only [wordStores, List.mapIdx_cons, wordAddress_zero, wordAddress_succ]

/-- A run of loads begins with its first word. -/
theorem wordLoads_succ (address : Word) (count : Nat) :
    wordLoads address (count + 1) =
      .load32 (wordAligned address) :: wordLoads (address + 4) count := by
  simp only [wordLoads, List.range_succ_eq_map, List.map_cons, List.map_map, wordAddress_zero,
    Function.comp_def, wordAddress_succ]

/-- There is one store for each value. -/
@[simp] theorem length_wordStores (address : Word) (values : List Word) :
    (wordStores address values).length = values.length :=
  List.length_mapIdx

/-- There is one load for each word. -/
@[simp] theorem length_wordLoads (address : Word) (count : Nat) :
    (wordLoads address count).length = count := by
  rw [wordLoads, List.length_map, List.length_range]

section Runs

variable {β : Type} [MemoryBus β] {start : β}

/-- A run of stores makes the first accesses of the whole run, as many as it says. -/
theorem accesses_storeWords (r : Recorded start) (address : Word) (values : List Word) :
    let run := storeWords r address values
    run.2.accesses = r.accesses ++ (wordStores address values).take run.1.accesses ∧
      run.1.accesses ≤ values.length := by
  induction values generalizing r address with
  | nil => exact ⟨(List.append_nil _).symm, Nat.le_refl 0⟩
  | cons value rest ih =>
    have hnoted : (MemoryBus.store32 r (wordAligned address) value).2.accesses =
        r.accesses ++ [.store32 (wordAligned address) value] := rfl
    rw [wordStores_cons]
    unfold storeWords
    generalize MemoryBus.store32 r (wordAligned address) value = answer at hnoted ⊢
    obtain ⟨accepted, r'⟩ := answer
    cases accepted with
    -- The refused store is counted and on the record, and is the last.
    | false => exact ⟨hnoted, Nat.succ_le_succ (Nat.zero_le _)⟩
    | true =>
      obtain ⟨hrest, hle⟩ := ih r' (address + 4)
      refine ⟨?_, Nat.succ_le_succ hle⟩
      show (storeWords r' (address + 4) rest).2.accesses = _
      rw [hrest, hnoted, List.append_assoc]
      rfl

/-- A run of loads makes the first accesses of the whole run, as many as it says. -/
theorem accesses_loadWords (r : Recorded start) (address : Word) (count : Nat) :
    let run := loadWords r address count
    run.2.accesses = r.accesses ++ (wordLoads address count).take run.1.accesses ∧
      run.1.accesses ≤ count := by
  -- On the number of words, from the next address and over the bus that the first load leaves.
  induction count generalizing r address with
  | zero => exact ⟨(List.append_nil _).symm, Nat.le_refl 0⟩
  | succ count ih =>
    have hnoted : (MemoryBus.load32 r (wordAligned address)).2.accesses =
        r.accesses ++ [.load32 (wordAligned address)] := rfl
    rw [wordLoads_succ]
    unfold loadWords
    generalize MemoryBus.load32 r (wordAligned address) = answer at hnoted ⊢
    obtain ⟨_ | value, r'⟩ := answer
    · exact ⟨hnoted, Nat.succ_le_succ (Nat.zero_le _)⟩
    · obtain ⟨hrest, hle⟩ := ih r' (address + 4)
      refine ⟨?_, Nat.succ_le_succ hle⟩
      show (loadWords r' (address + 4) count).2.accesses = _
      rw [hrest, hnoted, List.append_assoc]
      rfl

/-- A run of stores that are all accepted is as long as the list. -/
theorem accesses_of_outcome {bus : β} {address : Word} {values : List Word}
    (h : (storeWords bus address values).1.outcome = true) :
    (storeWords bus address values).1.accesses = values.length := by
  induction values generalizing bus address with
  | nil => rfl
  | cons value rest ih =>
    unfold storeWords at h ⊢
    generalize MemoryBus.store32 bus (wordAligned address) value = answer at h ⊢
    obtain ⟨_ | _, bus'⟩ := answer
    · cases h
    · exact congrArg Nat.succ (ih h)

/-- A run of loads makes one access for each word, and one more if it is given up. -/
theorem accesses_of_length_outcome {bus : β} {address : Word} {count : Nat}
    (h : (loadWords bus address count).1.outcome.length = count) :
    (loadWords bus address count).1.accesses = count := by
  induction count generalizing bus address with
  | zero => rfl
  | succ count ih =>
    unfold loadWords at h ⊢
    generalize MemoryBus.load32 bus (wordAligned address) = answer at h ⊢
    obtain ⟨_ | value, bus'⟩ := answer
    · cases h
    · exact congrArg Nat.succ (ih (Nat.succ.inj h))

/-- A run of stores that are all accepted makes all of its accesses. -/
theorem accesses_blank_storeWords {bus : β} {address : Word} {values : List Word}
    (h : (storeWords bus address values).1.outcome = true) :
    (storeWords (Recorded.blank bus) address values).2.accesses = wordStores address values := by
  have hsame := (Recorded.busMap bus).storeWords (Recorded.blank bus) address values
  have hrecorded : (storeWords (Recorded.blank bus) address values).1.outcome = true :=
    (congrArg (fun run => run.1.outcome) hsame.symm).trans h
  obtain ⟨hmade, -⟩ := accesses_storeWords (Recorded.blank bus) address values
  rw [accesses_of_outcome hrecorded, ← length_wordStores address values, List.take_length] at hmade
  exact hmade

/-- A run of loads that all bring a word makes all of its accesses. -/
theorem accesses_blank_loadWords {bus : β} {address : Word} {count : Nat}
    (h : (loadWords bus address count).1.outcome.length = count) :
    (loadWords (Recorded.blank bus) address count).2.accesses = wordLoads address count := by
  have hsame := (Recorded.busMap bus).loadWords (Recorded.blank bus) address count
  have hrecorded : (loadWords (Recorded.blank bus) address count).1.outcome.length = count :=
    (congrArg (fun run => run.1.outcome.length) hsame.symm).trans h
  have hall : (wordLoads address count).take count = wordLoads address count :=
    List.take_of_length_le (Nat.le_of_eq (length_wordLoads address count))
  obtain ⟨hmade, -⟩ := accesses_loadWords (Recorded.blank bus) address count
  rw [accesses_of_length_outcome hrecorded, hall] at hmade
  exact hmade

/-- Each word of a run is the answer of the bus after the loads before it. -/
theorem answer_loadWords {bus : β} {address : Word} {count k : Nat} {value : Word}
    (h : (loadWords bus address count).1.outcome[k]? = some value) :
    (MemoryBus.load32 ((wordLoads address k).foldl BusAccess.perform bus)
      (wordAddress address k)).1 = some value := by
  induction count generalizing bus address k with
  | zero => cases h
  | succ count ih =>
    have hperform : (MemoryBus.load32 bus (wordAligned address)).2 =
        BusAccess.perform bus (.load32 (wordAligned address)) := rfl
    unfold loadWords at h
    generalize hanswer : MemoryBus.load32 bus (wordAligned address) = answer at h hperform
    obtain ⟨_ | first, bus'⟩ := answer
    · cases h
    · -- A later word is one of the run from the next address, over the bus that this load leaves.
      cases k with
      | zero =>
        rw [wordAddress_zero]
        show (MemoryBus.load32 bus (wordAligned address)).1 = some value
        rw [hanswer]
        exact h
      | succ k =>
        rw [wordLoads_succ, List.foldl_cons, ← hperform, ← wordAddress_succ]
        exact ih h

end Runs

/-! ### Words in a RAM -/

/-- A word is its four bytes. -/
theorem word_eq_of_bytes {v v' : Word} (h : ∀ j < 4, Bits.byte v j = Bits.byte v' j) : v = v' := by
  refine BitVec.eq_of_getLsbD_eq fun i hi => ?_
  have hbit (w : Word) : w.getLsbD i = (Bits.byte w (i / 8)).getLsbD (i % 8) := by
    have hplace : 8 * (i / 8) + i % 8 = i := Nat.div_add_mod i 8
    have hlt : i % 8 < 8 := Nat.mod_lt i (by decide)
    simp [Bits.byte, hlt, hplace]
  rw [hbit, hbit, h (i / 8) (by omega)]

/-- A memory behind a bus in which the addressed words can be stored and read back, each on its
own. A word has four cells that no other word shares. A load answers with the bytes in them, and
a store replaces them and nothing else. -/
structure RamWords (β κ : Type) [MemoryBus β] (addressed : Word → Prop) where
  /-- The byte in a cell. -/
  byte : β → κ → Byte
  /-- The cell of a byte of a word. -/
  cell : Word → Nat → κ
  apart : ∀ {a a' : Word} {j j' : Nat}, addressed a → addressed a' → a ≠ a' → j < 4 → j' < 4 →
    cell a j ≠ cell a' j'
  load : ∀ (bus : β) {a : Word}, addressed a → ∃ value bus',
    MemoryBus.load32 bus a = (some value, bus') ∧
      (∀ j < 4, Bits.byte value j = byte bus (cell a j)) ∧ byte bus' = byte bus
  store : ∀ (bus : β) {a : Word} (value : Word), addressed a → ∃ bus',
    MemoryBus.store32 bus a value = (true, bus') ∧
      (∀ j < 4, byte bus' (cell a j) = Bits.byte value j) ∧
      ∀ c, (∀ j < 4, c ≠ cell a j) → byte bus' c = byte bus c

namespace RamWords

variable {β κ : Type} [MemoryBus β] {addressed : Word → Prop} (ram : RamWords β κ addressed)

/-- The words from an address on are these. -/
def Holds (bus : β) (address : Word) (values : List Word) : Prop :=
  ∀ k (h : k < values.length), ∀ j < 4,
    ram.byte bus (ram.cell (wordAddress address k) j) = Bits.byte values[k] j

/-- Nothing but `count` words from an address on has changed. -/
def KeptOutside (before after : β) (address : Word) (count : Nat) : Prop :=
  ∀ c, (∀ k < count, ∀ j < 4, c ≠ ram.cell (wordAddress address k) j) →
    ram.byte after c = ram.byte before c

/-- The words of a run are the first one and those from the second address on. -/
theorem covers_succ {address : Word} {count : Nat}
    (h : ∀ k < count + 1, addressed (wordAddress address k)) :
    addressed (wordAligned address) ∧ ∀ k < count, addressed (wordAddress (address + 4) k) := by
  constructor
  · rw [← wordAddress_zero]
    exact h 0 (Nat.succ_pos _)
  · intro k hk
    rw [wordAddress_succ]
    exact h (k + 1) (Nat.succ_lt_succ hk)

/-- A run is held if its first word is, and the others behind it. -/
theorem holds_cons {bus : β} {address value : Word} {rest : List Word} :
    ram.Holds bus address (value :: rest) ↔
      (∀ j < 4, ram.byte bus (ram.cell (wordAligned address) j) = Bits.byte value j) ∧
        ram.Holds bus (address + 4) rest := by
  constructor
  · intro h
    refine ⟨fun j hj => ?_, fun k hk j hj => ?_⟩
    · rw [← wordAddress_zero]
      exact h 0 (Nat.succ_pos _) j hj
    · rw [wordAddress_succ]
      exact h (k + 1) (Nat.succ_lt_succ hk) j hj
  · rintro ⟨hfirst, hrest⟩ (_ | k) hk j hj
    · rw [wordAddress_zero]
      exact hfirst j hj
    · rw [← wordAddress_succ]
      exact hrest k (Nat.lt_of_succ_lt_succ hk) j hj

/-- A run of stores is not given up. It fills its words, the first one at the lowest address, and
leaves every other byte as it was. -/
theorem storeWords_ram (bus : β) {address : Word} {values : List Word}
    (hlength : values.length < 2 ^ 30)
    (hcovers : ∀ k < values.length, addressed (wordAddress address k)) :
    ∃ bus', storeWords bus address values = (⟨values.length, true⟩, bus') ∧
      ram.Holds bus' address values ∧ ram.KeptOutside bus bus' address values.length := by
  induction values generalizing bus address with
  | nil => exact ⟨bus, rfl, fun k h => absurd h (Nat.not_lt_zero k), fun _ _ => rfl⟩
  | cons value rest ih =>
    rw [List.length_cons] at hlength hcovers
    obtain ⟨hfirst, hlater⟩ := covers_succ hcovers
    -- The first store, then the run of the rest over the bus it leaves.
    obtain ⟨middle, hstore, hbytes, hkept⟩ := ram.store bus value hfirst
    obtain ⟨after, hrun, hholds, houtside⟩ := ih middle (Nat.lt_of_succ_lt hlength) hlater
    refine ⟨after, ?_, ram.holds_cons.mpr ⟨fun j hj => ?_, hholds⟩, fun c hc => ?_⟩
    · unfold storeWords
      rw [hstore]
      dsimp only
      rw [hrun]
      rfl
    · -- The words stored later are other ones, so the first one stays.
      rw [houtside, hbytes j hj]
      intro k hk j' hj'
      refine ram.apart hfirst (hlater k hk) (fun hsame => ?_) hj hj'
      rw [wordAddress_succ, ← wordAddress_zero] at hsame
      exact Nat.succ_ne_zero k (wordAddress_injective (by decide) (by omega) hsame).symm
    · have hrest : ram.byte after c = ram.byte middle c := by
        refine houtside c fun k hk j hj => ?_
        rw [wordAddress_succ]
        exact hc (k + 1) (Nat.succ_lt_succ hk) j hj
      refine hrest.trans (hkept c fun j hj => ?_)
      rw [← wordAddress_zero]
      exact hc 0 (Nat.succ_pos _) j hj

/-- A run of loads brings back the words that are there, and changes nothing. -/
theorem loadWords_ram (bus : β) {address : Word} {values : List Word}
    (hcovers : ∀ k < values.length, addressed (wordAddress address k))
    (hholds : ram.Holds bus address values) :
    ∃ bus', loadWords bus address values.length = (⟨values.length, values⟩, bus') ∧
      ram.byte bus' = ram.byte bus := by
  induction values generalizing bus address with
  | nil => exact ⟨bus, rfl, rfl⟩
  | cons value rest ih =>
    rw [List.length_cons] at hcovers
    obtain ⟨hfirst, hlater⟩ := covers_succ hcovers
    obtain ⟨hword, hwords⟩ := ram.holds_cons.mp hholds
    obtain ⟨loaded, middle, hload, hbytes, hsame⟩ := ram.load bus hfirst
    obtain rfl : loaded = value :=
      word_eq_of_bytes fun j hj => (hbytes j hj).trans (hword j hj)
    -- A load may change the bus, but not the bytes of the RAM.
    have hrest : ram.Holds middle (address + 4) rest := by
      unfold Holds
      rw [hsame]
      exact hwords
    obtain ⟨after, hrun, hsame'⟩ := ih middle hlater hrest
    refine ⟨after, ?_, hsame'.trans hsame⟩
    rw [List.length_cons]
    unfold loadWords
    rw [hload]
    dsimp only
    rw [hrun]

end RamWords

/-! ### The internal work RAM -/

/-- The aligned words of the internal work RAM, without its mirrors. -/
def InternalWord (address : Word) : Prop :=
  0x03000000 ≤ address.toNat ∧ address.toNat < 0x03008000 ∧ 4 ∣ address.toNat

instance (address : Word) : Decidable (InternalWord address) :=
  inferInstanceAs (Decidable (_ ∧ _ ∧ _))

/-- Such a word is in the internal RAM. -/
theorem InternalWord.bankOf_eq {address : Word} (h : InternalWord address) :
    bankOf address = 3 := by
  obtain ⟨hle, hlt, -⟩ := h
  show (address >>> 24).toNat = 3
  rw [BitVec.toNat_ushiftRight, Nat.shiftRight_eq_div_pow]
  omega

/-- Its words have cells of their own, whatever else is on the board. -/
def internalRamWords (π : Type) [Peripheral π] : RamWords (Board π) RamCell InternalWord where
  byte := Board.ramByte
  cell := ramCell
  apart := by
    -- Without the mirrors a cell belongs to one address, and aligned words do not overlap.
    intro a a' j j' ha ha' hne hj hj' hcell
    unfold ramCell at hcell
    rw [ha.bankOf_eq, ha'.bankOf_eq] at hcell
    have hindex : (a.toNat + j) % 0x8000 = (a'.toNat + j') % 0x8000 :=
      congrArg Fin.val (RamCell.internal.inj hcell)
    obtain ⟨hle, hlt, hdvd⟩ := ha
    obtain ⟨hle', hlt', hdvd'⟩ := ha'
    exact hne (BitVec.eq_of_toNat_eq (by omega))
  load := by
    intro b a ha
    obtain ⟨value, hload, hbytes⟩ := Board.load32_ram (b := b) (.inr ha.bankOf_eq)
    exact ⟨value, b, hload, hbytes, rfl⟩
  store := by
    intro b a value ha
    have hstored := Board.store32_ram (b := b) (.inr ha.bankOf_eq) value
    obtain ⟨part⟩ := b.exists_ramPart (.inr ha.bankOf_eq)
    have haccepted : (MemoryBus.store32 b a value).1 = true := congrArg Prod.fst (part.store _)
    exact ⟨_, Prod.ext haccepted rfl, hstored.stored, hstored.kept⟩

end AdvanceCore
