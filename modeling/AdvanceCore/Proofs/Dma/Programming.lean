import AdvanceCore.Board
import AdvanceCore.Proofs.Dma.Lifecycle

/-!
# `AdvanceCore.Proofs.Dma.Programming`: channels programmed over the bus

A program sets up a channel by three words: the source, the destination, and the count with the
control register above it. It may store each of them as a word, as two halfwords or as four
bytes. All of these come to the same, since the bit that switches a channel on is in the last
byte of the last word.

* `StoreWidth.stores`: the stores of a word.
* `writeTo_bytes`: two bytes of a register are the register.
* `Board.foldl_stores`: the stores of a word, as writes to two registers.
* `ChannelSetup.foldl_stores`: the channel that the three words leave.
-/

set_option autoImplicit false

namespace AdvanceCore

/-! ### Stores -/

/-- The accesses by which a word may be stored. -/
inductive StoreWidth where
  | word
  | half
  | byte
  deriving DecidableEq, Repr

/-- The stores of a word, the lowest part first. -/
def StoreWidth.stores (width : StoreWidth) (address value : Word) : List BusAccess :=
  match width with
  | .word => [.store32 address value]
  | .half =>
    [.store16 address (value.extractLsb' 0 16), .store16 (address + 2) (value.extractLsb' 16 16)]
  | .byte =>
    [.store8 address (Bits.byte value 0), .store8 (address + 1) (Bits.byte value 1),
      .store8 (address + 2) (Bits.byte value 2), .store8 (address + 3) (Bits.byte value 3)]

namespace Dma

/-! ### Registers of a channel -/

/-- The offset of a register within its channel. -/
def Register.offset : Register → Nat
  | .sourceLow => 0
  | .sourceHigh => 2
  | .destinationLow => 4
  | .destinationHigh => 6
  | .count => 8
  | .control => 10

/-- The offset of a register of a channel. -/
def registerOffset (i : DmaId) (r : Register) : Word := BitVec.ofNat 32 (12 * i.val + r.offset)

/-- The registers of all channels lie within their block. -/
theorem registerOffset_lt (i : DmaId) (r : Register) : (registerOffset i r).toNat + 1 < 0x30 := by
  cases r <;> revert i <;> decide

/-- The offset of a register leads to it. -/
theorem registerAt_registerOffset (i : DmaId) (r : Register) :
    registerAt? (halfAligned (registerOffset i r)).toNat = some (i, r) := by
  cases r <;> revert i <;> decide

/-- The offset of the upper byte of a register leads to it. -/
theorem registerAt_registerOffset_add_one (i : DmaId) (r : Register) :
    registerAt? (halfAligned (registerOffset i r + 1)).toNat = some (i, r) := by
  cases r <;> revert i <;> decide

/-- Registers begin at even offsets. -/
theorem registerOffset_and_one (i : DmaId) (r : Register) :
    (registerOffset i r &&& 1).toNat = 0 ∧ ((registerOffset i r + 1) &&& 1).toNat = 1 := by
  cases r <;> revert i <;> decide

/-- Writes a register of a channel. -/
def writeTo (d : Dma) (i : DmaId) (r : Register) (value mask : Half) : Dma :=
  d.set i (writeChannel (d.get i) i r value mask)

/-- Of two channels set in one place the second one stays. -/
theorem set_set (d : Dma) (i : DmaId) (c c' : DmaChannel) : (d.set i c).set i c' = d.set i c' := by
  unfold set
  simp only [Vector.set_set]

/-- Storing a halfword writes a whole register. -/
theorem storeHalf_register (d : Dma) (i : DmaId) (r : Register) (value : Half) :
    (RegisterBlock.storeHalf d (registerOffset i r) value).2 =
      d.writeTo i r value (BitVec.allOnes 16) := by
  show (d.writeRegister _ value _).2 = _
  unfold writeRegister
  rw [registerAt_registerOffset]
  rfl

/-- Storing a byte at its offset writes the lower half of a register. -/
theorem storeByte_register (d : Dma) (i : DmaId) (r : Register) (value : Byte) :
    (RegisterBlock.storeByte d (registerOffset i r) value).2 =
      d.writeTo i r (value.setWidth 16) 0x00FF := by
  show (d.writeRegister _ (value.setWidth 16 <<< _) (0x00FF <<< _)).2 = _
  unfold writeRegister
  rw [registerAt_registerOffset, (registerOffset_and_one i r).1]
  show d.writeTo i r (value.setWidth 16 <<< 0) _ = _
  rw [BitVec.shiftLeft_zero]
  rfl

/-- Storing a byte behind it writes the upper half. -/
theorem storeByte_register_add_one (d : Dma) (i : DmaId) (r : Register) (value : Byte) :
    (RegisterBlock.storeByte d (registerOffset i r + 1) value).2 =
      d.writeTo i r (value.setWidth 16 <<< 8) 0xFF00 := by
  show (d.writeRegister _ (value.setWidth 16 <<< _) (0x00FF <<< _)).2 = _
  unfold writeRegister
  rw [registerAt_registerOffset_add_one, (registerOffset_and_one i r).2]
  rfl

/-! ### Two bytes of a register -/

/-- Only the bits under the mask count. -/
theorem writeChannel_congr (c : DmaChannel) (i : DmaId) (r : Register) {value value' mask : Half}
    (h : value &&& mask = value' &&& mask) :
    writeChannel c i r value mask = writeChannel c i r value' mask := by
  have hword :
      value.setWidth 32 &&& mask.setWidth 32 = value'.setWidth 32 &&& mask.setWidth 32 := by
    rw [← BitVec.setWidth_and, ← BitVec.setWidth_and, h]
  have hlow (address : Word) : mergeLow address value mask = mergeLow address value' mask :=
    Bits.merge_congr address hword
  have hhigh (address : Word) : mergeHigh address value mask = mergeHigh address value' mask := by
    refine Bits.merge_congr address ?_
    rw [← BitVec.shiftLeft_and_distrib, ← BitVec.shiftLeft_and_distrib, hword]
  -- Every register is a merge under the mask, so it sees the masked bits only.
  cases r with
  | sourceLow | destinationLow =>
    unfold writeChannel
    dsimp only
    rw [hlow]
  | sourceHigh | destinationHigh =>
    unfold writeChannel
    dsimp only
    rw [hhigh]
  | count =>
    unfold writeChannel
    dsimp only
    rw [Bits.merge_congr _ h]
  | control =>
    show c.writeControl i value mask = c.writeControl i value' mask
    unfold DmaChannel.writeControl
    rw [Bits.merge_congr _ h]

/-- Writing the control twice, without its enable bit the first time, is writing it once. -/
theorem writeControl_writeControl (c : DmaChannel) (i : DmaId) (value : Half) {mask : Half}
    (mask' : Half) (hmask : mask.getLsbD 15 = false) :
    (c.writeControl i value mask).writeControl i value mask' =
      c.writeControl i value (mask ||| mask') := by
  let first : DmaControl := ⟨Bits.merge c.control.word value mask⟩
  have hstill : first.enabled = c.control.enabled := by
    unfold DmaControl.enabled
    rw [Bits.getLsbD_merge, hmask]
    rfl
  -- A channel that is off is made inactive, and one that is on only takes its settings.
  have hfirst : c.writeControl i value mask =
      { c with control := first, active := c.control.enabled && c.active } := by
    unfold DmaChannel.writeControl
    dsimp only
    rw [hstill]
    cases c.control.enabled <;> rfl
  rw [hfirst]
  unfold DmaChannel.writeControl
  dsimp only
  rw [Bits.merge_merge, hstill]
  cases c.control.enabled <;> rfl

/-- Two writes of a value to a register are a write under both masks, if the first one leaves
alone whether the channel is on. -/
theorem writeChannel_writeChannel (c : DmaChannel) (i : DmaId) (r : Register)
    (value : Half) {mask : Half} (mask' : Half) (hmask : mask.getLsbD 15 = false) :
    writeChannel (writeChannel c i r value mask) i r value mask' =
      writeChannel c i r value (mask ||| mask') := by
  have hlow (address : Word) : mergeLow (mergeLow address value mask) value mask' =
      mergeLow address value (mask ||| mask') := by
    unfold mergeLow
    rw [Bits.merge_merge, BitVec.setWidth_or]
  have hhigh (address : Word) : mergeHigh (mergeHigh address value mask) value mask' =
      mergeHigh address value (mask ||| mask') := by
    unfold mergeHigh
    rw [Bits.merge_merge, BitVec.setWidth_or, BitVec.shiftLeft_or_distrib]
  cases r with
  | sourceLow | destinationLow =>
    unfold writeChannel
    dsimp only
    rw [hlow]
  | sourceHigh | destinationHigh =>
    unfold writeChannel
    dsimp only
    rw [hhigh]
  | count =>
    unfold writeChannel
    dsimp only
    rw [Bits.merge_merge]
  | control => exact writeControl_writeControl c i value mask' hmask

/-- Two registers of one channel are written to the channel one after the other. -/
theorem writeTo_writeTo (d : Dma) (i : DmaId) (r r' : Register) (value value' mask mask' : Half) :
    (d.writeTo i r value mask).writeTo i r' value' mask' =
      d.set i (writeChannel (writeChannel (d.get i) i r value mask) i r' value' mask') := by
  unfold writeTo
  rw [get_set, if_pos rfl, set_set]

/-- Storing the two bytes of a register is storing the register. -/
theorem writeTo_bytes (d : Dma) (i : DmaId) (r : Register) (value : Half) :
    (d.writeTo i r ((Bits.byte value 0).setWidth 16) 0x00FF).writeTo i r
        ((Bits.byte value 1).setWidth 16 <<< 8) 0xFF00 =
      d.writeTo i r value (BitVec.allOnes 16) := by
  obtain ⟨hlow, hhigh⟩ := Bits.bytes_under_masks value
  rw [writeTo_writeTo, writeChannel_congr _ i r hlow, writeChannel_congr _ i r hhigh,
    writeChannel_writeChannel _ i r value 0xFF00 (by decide)]
  rfl

/-! ### Words -/

/-- The words that a channel is programmed by. -/
inductive ProgramWord where
  | source
  | destination
  /-- The count, and above it the control register. -/
  | start
  deriving DecidableEq, Repr

/-- The register in the lower half of a word. -/
def ProgramWord.low : ProgramWord → Register
  | .source => .sourceLow
  | .destination => .destinationLow
  | .start => .count

/-- The register in the upper half of a word. -/
def ProgramWord.high : ProgramWord → Register
  | .source => .sourceHigh
  | .destination => .destinationHigh
  | .start => .control

/-- The two registers of a word are neighbours. -/
theorem registerOffset_high (i : DmaId) (w : ProgramWord) :
    registerOffset i w.high = registerOffset i w.low + 2 := by
  cases w <;> revert i <;> decide

/-- Writes both registers of a word. -/
def writeWord (d : Dma) (i : DmaId) (w : ProgramWord) (value : Word) : Dma :=
  (d.writeTo i w.low (value.extractLsb' 0 16) (BitVec.allOnes 16)).writeTo i w.high
    (value.extractLsb' 16 16) (BitVec.allOnes 16)

/-- Storing a word writes both of its registers, the lower one first. -/
theorem storeWord_register (d : Dma) (i : DmaId) (w : ProgramWord) (value : Word) :
    (RegisterBlock.storeWord d (registerOffset i w.low) value).2 = d.writeWord i w value := by
  show (RegisterBlock.storeHalf (RegisterBlock.storeHalf d _ _).2
    (registerOffset i w.low + 2) _).2 = _
  rw [← registerOffset_high, storeHalf_register, storeHalf_register]
  rfl

/-- On the channel itself these are two writes. -/
theorem writeWord_eq (d : Dma) (i : DmaId) (w : ProgramWord) (value : Word) :
    d.writeWord i w value =
      d.set i (writeChannel
        (writeChannel (d.get i) i w.low (value.extractLsb' 0 16) (BitVec.allOnes 16)) i w.high
        (value.extractLsb' 16 16) (BitVec.allOnes 16)) :=
  writeTo_writeTo ..

/-- The two halves of an address replace all of it. -/
theorem mergeHigh_mergeLow (address value : Word) :
    mergeHigh (mergeLow address (value.extractLsb' 0 16) (BitVec.allOnes 16))
      (value.extractLsb' 16 16) (BitVec.allOnes 16) = value := by
  refine BitVec.eq_of_getLsbD_eq fun i hi => ?_
  have hlow : ((BitVec.allOnes 16).setWidth 32 : Word).getLsbD i = decide (i < 16) := by
    rw [BitVec.getLsbD_setWidth, BitVec.getLsbD_allOnes, decide_eq_true hi, Bool.true_and]
  have hhigh : ((BitVec.allOnes 16).setWidth 32 <<< 16 : Word).getLsbD i = !decide (i < 16) := by
    have hin : i - 16 < 16 := by omega
    rw [BitVec.getLsbD_shiftLeft, BitVec.getLsbD_setWidth, BitVec.getLsbD_allOnes,
      decide_eq_true hi, decide_eq_true hin, decide_eq_true (show i - 16 < 32 by omega)]
    simp
  unfold mergeHigh mergeLow
  rw [Bits.getLsbD_merge, Bits.getLsbD_merge, hlow, hhigh]
  -- The two masks split the word: a bit is taken from the one half or from the other.
  by_cases h : i < 16
  · simp [h, hi]
  · have hup : 16 + (i - 16) = i := by omega
    have hin : i - 16 < 16 := by omega
    simp [h, hi, hup, hin]

end Dma

/-! ### Setups -/

/-- What a program sets a channel to. -/
structure ChannelSetup where
  channel : DmaId
  source : Word
  destination : Word
  count : Half
  control : DmaControl

namespace ChannelSetup

/-- The channel when it has been set up and switched on. -/
def started (s : ChannelSetup) : DmaChannel :=
  let c : DmaChannel :=
    { source := s.source, destination := s.destination, count := s.count, control := s.control }
  { c.latch s.channel with active := s.control.timing = .immediate }

end ChannelSetup

namespace Dma

/-- The three words set the channel up. -/
theorem writeWord_setup {d : Dma} (s : ChannelSetup)
    (hoff : (d.get s.channel).control.enabled = false) (hon : s.control.enabled = true) :
    ((d.writeWord s.channel .source s.source).writeWord s.channel .destination
      s.destination).writeWord s.channel .start (s.control.word ++ s.count) =
        d.set s.channel s.started := by
  have hcount : (s.control.word ++ s.count : Word).extractLsb' 0 16 = s.count :=
    BitVec.extractLsb'_append_eq_right
  have hcontrol : (s.control.word ++ s.count : Word).extractLsb' 16 16 = s.control.word :=
    BitVec.extractLsb'_append_eq_left
  let c := d.get s.channel
  -- Three stores of a word, each over the channel that the one before it leaves. Only the last one
  -- starts it.
  have hsource : d.writeWord s.channel .source s.source =
      d.set s.channel { c with source := s.source } := by
    rw [writeWord_eq]
    show d.set s.channel { c with source := mergeHigh (mergeLow _ _ _) _ _ } = _
    rw [mergeHigh_mergeLow]
  have hdestination :
      (d.set s.channel { c with source := s.source }).writeWord s.channel .destination
        s.destination = d.set s.channel
          { c with source := s.source, destination := s.destination } := by
    rw [writeWord_eq, get_set, if_pos rfl, set_set]
    show d.set s.channel
      { c with source := s.source, destination := mergeHigh (mergeLow _ _ _) _ _ } = _
    rw [mergeHigh_mergeLow]
  rw [hsource, hdestination, writeWord_eq, get_set, if_pos rfl, set_set, hcount, hcontrol]
  show d.set s.channel (DmaChannel.writeControl
    { c with source := _, destination := _, count := Bits.merge _ _ _ } _ _ _) = _
  rw [Bits.merge_allOnes]
  unfold DmaChannel.writeControl
  dsimp only
  rw [Bits.merge_allOnes, hon, hoff]
  rfl

end Dma

/-! ### Stores to the board -/

namespace Board

open Dma (Register ProgramWord registerOffset)

variable {π : Type}

/-- The address of the registers of the channels. -/
def dmaAddress : Word := 0x040000B0

/-- The addresses behind the first one of the channels lead to their registers. -/
theorem route_dmaAddress (b : Board π) {offset : Word} (h : offset.toNat < 0x30) :
    b.route (dmaAddress + offset) = some (.dma, offset) := by
  have haddress : (dmaAddress + offset).toNat = 0x040000B0 + offset.toNat := by
    rw [BitVec.toNat_add]
    show (0x040000B0 + offset.toNat) % 2 ^ 32 = _
    omega
  have hbank : ((dmaAddress + offset) >>> 24).toNat = 4 := by
    rw [BitVec.toNat_ushiftRight, haddress, Nat.shiftRight_eq_div_pow]
    omega
  have hlow : ((dmaAddress + offset) &&& 0x00FFFFFF).toNat = 0x0B0 + offset.toNat := by
    rw [Bits.toNat_and_mask (n := 24) _ rfl, haddress]
    show (0x040000B0 + offset.toNat) % 2 ^ 24 = _
    omega
  -- The router subtracts the start of the block from the low bits of the address, which leaves the
  -- offset.
  have hsub : (dmaAddress + offset &&& 0x00FFFFFF) - 0x0B0 = offset := by
    refine BitVec.eq_of_toNat_eq ?_
    rw [BitVec.toNat_sub_of_le (by rw [BitVec.le_def, hlow]; show 0xB0 ≤ _; omega), hlow]
    show 0xB0 + offset.toNat - 0xB0 = _
    omega
  have hroute : b.route (dmaAddress + offset) =
      b.routeIo (dmaAddress + offset &&& 0x00FFFFFF) := by
    unfold route
    simp only [hbank]
    rfl
  rw [hroute]
  unfold routeIo
  dsimp only
  rw [hlow, if_pos (by omega), hsub]

variable [Peripheral π]

/-- A store there reaches the channels, and nothing else on the board. -/
theorem store_dmaAddress (b : Board π) {offset : Word} (h : offset.toNat < 0x30)
    (access : Word → Access Bool) : (b.store (dmaAddress + offset) access).2 =
      { b with dma := (access offset _ inferInstance b.dma).2 } := by
  unfold store
  rw [b.route_dmaAddress h]
  rfl

/-- A halfword that a program stores writes one register. -/
theorem store_half (b : Board π) (i : DmaId) (r : Register) (value : Half) :
    BusAccess.perform b (.store16 (dmaAddress + registerOffset i r) value) =
      { b with dma := b.dma.writeTo i r value (BitVec.allOnes 16) } := by
  have hin := Dma.registerOffset_lt i r
  show (b.store _ _).2 = _
  rw [b.store_dmaAddress (by omega)]
  exact congrArg (fun d => { b with dma := d }) (b.dma.storeHalf_register i r value)

/-- The two bytes of a halfword, stored in ascending order, write the same register. -/
theorem store_bytes (b : Board π) (i : DmaId) (r : Register) (value : Half) :
    BusAccess.perform
        (BusAccess.perform b (.store8 (dmaAddress + registerOffset i r) (Bits.byte value 0)))
        (.store8 (dmaAddress + registerOffset i r + 1) (Bits.byte value 1)) =
      { b with dma := b.dma.writeTo i r value (BitVec.allOnes 16) } := by
  have hin := Dma.registerOffset_lt i r
  have hnext : (registerOffset i r + 1).toNat < 0x30 := by
    rw [BitVec.toNat_add]
    show (_ + 1) % 2 ^ 32 < _
    omega
  show (Board.store (b.store _ _).2 _ _).2 = _
  rw [b.store_dmaAddress (by omega), BitVec.add_assoc, store_dmaAddress _ hnext,
    ← Dma.writeTo_bytes, ← Dma.storeByte_register, ← Dma.storeByte_register_add_one]
  rfl

/-- With any accesses, storing a word to a channel is writing its two registers. -/
theorem foldl_stores (b : Board π) (i : DmaId) (width : StoreWidth) (w : ProgramWord)
    (value : Word) :
    (width.stores (dmaAddress + registerOffset i w.low) value).foldl BusAccess.perform b =
      { b with dma := b.dma.writeWord i w value } := by
  have hhigh : dmaAddress + registerOffset i w.low + 2 = dmaAddress + registerOffset i w.high := by
    rw [Dma.registerOffset_high, BitVec.add_assoc]
  -- `writeWord` is two halfword writes by definition. A word store makes both at once, and two byte
  -- stores make one of them by `store_bytes`.
  cases width with
  | word =>
    have hin := Dma.registerOffset_lt i w.low
    show (b.store _ _).2 = _
    rw [b.store_dmaAddress (by omega)]
    exact congrArg (fun d => { b with dma := d }) (b.dma.storeWord_register i w value)
  | half =>
    show BusAccess.perform (BusAccess.perform b _) (.store16 (_ + 2) _) = _
    rw [hhigh, store_half, store_half]
    rfl
  | byte =>
    have hthird : dmaAddress + registerOffset i w.low + 3 =
        dmaAddress + registerOffset i w.high + 1 := by
      rw [← hhigh, BitVec.add_assoc _ 2 1]
      rfl
    let lowered : Board π :=
      { b with dma := b.dma.writeTo i w.low (value.extractLsb' 0 16) (BitVec.allOnes 16) }
    have hlow := b.store_bytes i w.low (value.extractLsb' 0 16)
    have hrest := lowered.store_bytes i w.high (value.extractLsb' 16 16)
    rw [Bits.byte_lowerHalf value (show 0 < 2 by decide),
      Bits.byte_lowerHalf value (show 1 < 2 by decide)] at hlow
    rw [Bits.byte_upperHalf value (show 0 < 2 by decide),
      Bits.byte_upperHalf value (show 1 < 2 by decide)] at hrest
    show BusAccess.perform (BusAccess.perform (BusAccess.perform (BusAccess.perform b _) _)
      (.store8 (_ + 2) _)) (.store8 (_ + 3) _) = _
    rw [hlow, hhigh, hthird]
    exact hrest

end Board

namespace ChannelSetup

/-- The stores that set a channel up, with accesses of any width for each of the words. -/
def stores (s : ChannelSetup) (source destination start : StoreWidth) : List BusAccess :=
  let address (w : Dma.ProgramWord) := Board.dmaAddress + Dma.registerOffset s.channel w.low
  source.stores (address .source) s.source ++
    destination.stores (address .destination) s.destination ++
    start.stores (address .start) (s.control.word ++ s.count)

/-- They switch on the channel and do nothing else to the board. -/
theorem foldl_stores {π : Type} [Peripheral π] {b : Board π} (s : ChannelSetup)
    (hoff : (b.dma.get s.channel).control.enabled = false) (hon : s.control.enabled = true)
    (source destination start : StoreWidth) :
    (s.stores source destination start).foldl BusAccess.perform b =
      { b with dma := b.dma.set s.channel s.started } := by
  unfold stores
  dsimp only
  rw [List.foldl_append, List.foldl_append, Board.foldl_stores, Board.foldl_stores,
    Board.foldl_stores]
  exact congrArg (fun d => { b with dma := d }) (b.dma.writeWord_setup s hoff hon)

end ChannelSetup

end AdvanceCore
