import AdvanceCore.Proofs.Bus.LoadWidths
import AdvanceCore.Proofs.Dma.Programming
import AdvanceCore.Proofs.Interrupts.PowerStates

/-!
# `AdvanceCore.Proofs.Bus.ByteStores`: registers stored byte by byte

A program may store a register as a halfword or as its two bytes, the lower one first. The lower
byte takes effect at once, while the upper half of the register still has its old value. So two
bytes come to the same as the halfword only if this first effect is one that the halfword would
have had anyway.

For the DMA channels it is, because the bit that switches a channel on or off is in the upper
byte. The interrupt controller may wake up between the bytes, when half of the sources are
enabled by the new value and half by the old one. But a controller that sleeps has nothing
pending that would wake it (`InterruptController.Settled`), so that it is the new half that
wakes it, and the whole value would have done so too.

* `BytesStoreHalf`: two bytes come to the same as a halfword.
* `RegisterBlock.TakesBytes`: the same for the writes that these stores are.
* `Dma.takesBytes`, `InterruptController.takesBytes`: every register of the two blocks.
* `byte_stores_compose`: both blocks, over the bus.
-/

set_option autoImplicit false

namespace AdvanceCore

/-- Storing the two bytes of a halfword, the lower one first, leaves what storing the halfword
leaves, and all three stores are accepted or none. -/
def BytesStoreHalf {β : Type} [MemoryBus β] (bus : β) (address : Word) (value : Half) : Prop :=
  let low := MemoryBus.store8 bus address (Bits.byte value 0)
  let high := MemoryBus.store8 low.2 (address + 1) (Bits.byte value 1)
  let half := MemoryBus.store16 bus address value
  low.1 = half.1 ∧ high.1 = half.1 ∧ high.2 = half.2

instance {β : Type} [MemoryBus β] [DecidableEq β] (bus : β) (address : Word) (value : Half) :
    Decidable (BytesStoreHalf bus address value) :=
  inferInstanceAs (Decidable (_ ∧ _ ∧ _))

/-! ### Stores and writes -/

namespace RegisterBlock

variable {ρ : Type} [RegisterBlock ρ] {block : ρ} {address : Word} {offset : Nat} {value : Half}

/-- A register takes its lower byte and then its upper one as it takes both at once. -/
structure TakesBytes (block : ρ) (offset : Nat) (value : Half) : Prop where
  accepts : (writeRegister block offset ((Bits.byte value 0).setWidth 16) 0x00FF).1 =
    (writeRegister block offset value (BitVec.allOnes 16)).1
  eq : writeRegister
      (writeRegister block offset ((Bits.byte value 0).setWidth 16) 0x00FF).2 offset
      ((Bits.byte value 1).setWidth 16 <<< 8) 0xFF00 =
    writeRegister block offset value (BitVec.allOnes 16)

/-- Where a write is accepted does not depend on the value, so only what it leaves has to be
compared. -/
theorem TakesBytes.of_write (accepted : Bool) (write : ρ → Half → Half → ρ)
    (hwrite : ∀ block value mask,
      writeRegister block offset value mask = (accepted, write block value mask))
    (hbytes : write (write block ((Bits.byte value 0).setWidth 16) 0x00FF)
        ((Bits.byte value 1).setWidth 16 <<< 8) 0xFF00 =
      write block value (BitVec.allOnes 16)) : TakesBytes block offset value := by
  refine ⟨?_, ?_⟩
  · rw [hwrite, hwrite]
  · rw [hwrite, hwrite, hwrite, hbytes]

/-- A byte at an even offset is written to the lower half of its register. -/
theorem storeByte_of_even (block : ρ) (heven : 2 ∣ address.toNat) (value : Byte) :
    storeByte block address value =
      writeRegister block (halfAligned address).toNat (value.setWidth 16) 0x00FF := by
  unfold storeByte
  rw [(Readings.last_bit_of_even heven).1]
  show writeRegister block _ (value.setWidth 16 <<< 0) _ = _
  rw [BitVec.shiftLeft_zero]
  rfl

/-- The byte behind it is written to the upper half. -/
theorem storeByte_add_one (block : ρ) (heven : 2 ∣ address.toNat) (value : Byte) :
    storeByte block (address + 1) value =
      writeRegister block (halfAligned address).toNat (value.setWidth 16 <<< 8) 0xFF00 := by
  obtain ⟨-, hset, hsame⟩ := Readings.last_bit_of_even heven
  unfold storeByte
  rw [hset, hsame]
  rfl

/-- A block that takes writes in bytes takes stores in bytes. -/
theorem TakesBytes.bytesStoreHalf (h : TakesBytes block (halfAligned address).toNat value)
    (heven : 2 ∣ address.toNat) : BytesStoreHalf block address value := by
  have hlow := storeByte_of_even block heven (Bits.byte value 0)
  have hboth : storeByte (storeByte block address (Bits.byte value 0)).2 (address + 1)
      (Bits.byte value 1) = storeHalf block address value := by
    rw [storeByte_add_one _ heven, hlow]
    exact h.eq
  refine ⟨?_, congrArg Prod.fst hboth, congrArg Prod.snd hboth⟩
  show (storeByte block address (Bits.byte value 0)).1 = (storeHalf block address value).1
  rw [hlow]
  exact h.accepts

end RegisterBlock

open RegisterBlock (TakesBytes)

/-! ### The DMA channels -/

/-- The channels take bytes in every state. All of their registers merge what is written, and the
switch in the control register is in its upper byte, which is written last. -/
theorem Dma.takesBytes (d : Dma) (offset : Nat) (value : Half) : TakesBytes d offset value := by
  -- Whether a register is there at all is the same for both bytes, since the offset is even.
  cases hat : registerAt? offset with
  | none =>
    refine .of_write false (fun d _ _ => d) (fun d value mask => ?_) rfl
    show d.writeRegister offset value mask = _
    unfold writeRegister
    rw [hat]
  | some place =>
    obtain ⟨i, r⟩ := place
    refine .of_write true (fun d => d.writeTo i r) (fun d value mask => ?_)
      (d.writeTo_bytes i r value)
    show d.writeRegister offset value mask = _
    unfold writeRegister
    rw [hat]
    rfl

/-! ### The interrupt controller -/

namespace InterruptController

variable {c : InterruptController}

/-- The requests that end a power state if their sources are enabled. -/
def enders (c : InterruptController) : PowerState → Half
  | .run => 0
  | .halt => c.requested
  | .stop => c.requested &&& stopMask

/-- What would end a sleep is what is enabled, among what can end it. -/
theorem wakers_eq (c : InterruptController) (state : PowerState) :
    c.wakers state = c.enabled &&& c.enders state := by
  cases state with
  | run => exact BitVec.and_zero.symm
  | halt => rfl
  | stop => exact BitVec.and_assoc ..

/-- A controller that wakes up early is awake later on, and one that does not is as it was. -/
theorem checkWake_checkWake {first last : Half}
    (h : { c with enabled := last }.wakers c.power = 0 →
      { c with enabled := first }.wakers c.power = 0) :
    { { c with enabled := first }.checkWake with enabled := last }.checkWake =
      { c with enabled := last }.checkWake := by
  -- The first byte may wake the console too early only if the whole halfword would have woken it as
  -- well.
  by_cases hfirst : { c with enabled := first }.wakers c.power = 0
  · have hasleep : { c with enabled := first }.checkWake = { c with enabled := first } :=
      if_neg (not_not_intro hfirst)
    rw [hasleep]
  · have hlast : { c with enabled := last }.wakers c.power ≠ 0 := mt h hfirst
    have hearly : { c with enabled := first }.checkWake =
        { c with enabled := first, power := .run } := if_pos hfirst
    have hlate : { c with enabled := last }.checkWake =
        { c with enabled := last, power := .run } := if_pos hlast
    rw [hearly, hlate]
    exact if_neg (not_not_intro rfl)

/-- What wakes a settled controller is in the new part of the enabled sources. -/
theorem Settled.wakers_merge (h : c.Settled) {value mask : Half}
    (hlast : { c with enabled := value &&& sourceMask }.wakers c.power = 0) :
    { c with enabled := Bits.merge c.enabled value mask &&& sourceMask }.wakers c.power = 0 := by
  have hnow := h.wakers
  rw [wakers_eq] at hnow hlast ⊢
  have hold : c.enabled &&& c.enders c.power = 0 := hnow
  have hnew : value &&& sourceMask &&& c.enders c.power = 0 := hlast
  show Bits.merge c.enabled value mask &&& sourceMask &&& c.enders c.power = 0
  -- Every bit of a merge is one of the new value or of the old one, and neither is a waker.
  refine BitVec.eq_of_getLsbD_eq fun i _ => ?_
  have holdBit := congrArg (fun v => BitVec.getLsbD v i) hold
  have hnewBit := congrArg (fun v => BitVec.getLsbD v i) hnew
  simp only [BitVec.getLsbD_and, Bits.getLsbD_merge] at holdBit hnewBit ⊢
  split
  · exact hnewBit
  · rw [Bool.and_right_comm, holdBit]
    simp

/-- The enable register in two bytes. The first one may end a sleep that the second one would have
ended as well. -/
theorem enabled_bytes (h : c.Settled) (value : Half) :
    let low : InterruptController :=
      { c with
        enabled :=
          Bits.merge c.enabled ((Bits.byte value 0).setWidth 16) 0x00FF &&& sourceMask }.checkWake
    { low with
      enabled := Bits.merge low.enabled ((Bits.byte value 1).setWidth 16 <<< 8) 0xFF00 &&&
        sourceMask }.checkWake = { c with enabled := value &&& sourceMask }.checkWake := by
  intro low
  have henabled : low.enabled =
      Bits.merge c.enabled ((Bits.byte value 0).setWidth 16) 0x00FF &&& sourceMask := by
    show (checkWake _).enabled = _
    rw [checkWake_eq]
  rw [henabled, Bits.merge_and, Bits.merge_bytes]
  refine checkWake_checkWake fun hlast => ?_
  rw [Bits.merge_congr _ (Bits.bytes_under_masks value).1]
  exact h.wakers_merge hlast

/-- Acknowledging in two bytes acknowledges the same requests. -/
theorem requested_bytes (requested value : Half) :
    requested &&& ~~~((Bits.byte value 0).setWidth 16 &&& 0x00FF) &&&
        ~~~((Bits.byte value 1).setWidth 16 <<< 8 &&& 0xFF00) =
      requested &&& ~~~(value &&& BitVec.allOnes 16) := by
  obtain ⟨hlow, hhigh⟩ := Bits.bytes_under_masks value
  rw [hlow, hhigh, BitVec.and_assoc, ← BitVec.not_or, ← BitVec.and_or_distrib_left]
  rfl

/-- The master switch does not decide whether the console sleeps. -/
theorem Settled.checkWake_masterEnable (h : c.Settled) (bits : Half) :
    { c with masterEnable := bits }.checkWake = { c with masterEnable := bits } := by
  have hnow := h.wakers
  rw [wakers_eq] at hnow
  have hasleep : { c with masterEnable := bits }.wakers c.power = 0 := by
    rw [wakers_eq]
    exact hnow
  exact if_neg (not_not_intro hasleep)

/-- The lower byte is the flag of the boot program, and the upper one selects the power state. -/
theorem power_bytes (c : InterruptController) (value : Half) :
    let low := (c.writePostBoot ((Bits.byte value 0).setWidth 16) 0x00FF).writePower
      ((Bits.byte value 0).setWidth 16) 0x00FF
    (low.writePostBoot ((Bits.byte value 1).setWidth 16 <<< 8) 0xFF00).writePower
        ((Bits.byte value 1).setWidth 16 <<< 8) 0xFF00 =
      (c.writePostBoot value (BitVec.allOnes 16)).writePower value (BitVec.allOnes 16) := by
  -- The low byte sets the flag and does not sleep. The high byte sleeps and keeps the flag.
  have hflag : ((Bits.byte value 0).setWidth 16).setWidth 8 = value.setWidth 8 := by
    refine BitVec.eq_of_getLsbD_eq fun i hi => ?_
    simp [Bits.byte, hi]
  have hstop : ((Bits.byte value 1).setWidth 16 <<< 8).getLsbD 15 = value.getLsbD 15 := by
    simp [Bits.byte]
  show (if ((Bits.byte value 1).setWidth 16 <<< 8).getLsbD 15 then
      { c with postBoot := ((Bits.byte value 0).setWidth 16).setWidth 8 &&& 1 }.enterStop
    else { c with postBoot := ((Bits.byte value 0).setWidth 16).setWidth 8 &&& 1 }.enterHalt) = _
  rw [hflag, hstop]
  rfl

/-- The controller takes bytes in every settled state. -/
theorem takesBytes (h : c.Settled) (offset : Nat) (value : Half) :
    TakesBytes c offset value := by
  fun_cases writeRegister c offset value (BitVec.allOnes 16) with
  | case1 =>
    refine .of_write true
      (fun c value mask =>
        { c with enabled := Bits.merge c.enabled value mask &&& sourceMask }.checkWake)
      (fun _ _ _ => rfl) ?_
    rw [Bits.merge_allOnes]
    exact enabled_bytes h value
  | case2 =>
    exact .of_write true
      (fun c value mask => { c with requested := c.requested &&& ~~~(value &&& mask) })
      (fun _ _ _ => rfl)
      (congrArg (fun requested => { c with requested := requested })
        (requested_bytes c.requested value))
  | case3 =>
    refine .of_write true
      (fun c value mask => { c with waitStates := Bits.merge c.waitStates value mask })
      (fun _ _ _ => rfl) ?_
    rw [Bits.merge_bytes, Bits.merge_allOnes]
  | case4 =>
    refine .of_write true
      (fun c value mask =>
        { c with masterEnable := Bits.merge c.masterEnable value mask &&& 1 }.checkWake)
      (fun _ _ _ => rfl) ?_
    rw [h.checkWake_masterEnable, h.checkWake_masterEnable, h.checkWake_masterEnable,
      Bits.merge_and, Bits.merge_bytes, Bits.merge_allOnes]
  | case5 | case6 => exact .of_write true (fun c _ _ => c) (fun _ _ _ => rfl) rfl
  | case7 =>
    exact .of_write true (fun c value mask => (c.writePostBoot value mask).writePower value mask)
      (fun _ _ _ => rfl) (c.power_bytes value)
  | case8 =>
    -- There is no register.
    refine .of_write false (fun c _ _ => c) (fun c value mask => ?_) rfl
    show c.writeRegister offset value mask = _
    unfold writeRegister
    split
    case h_8 => rfl
    all_goals contradiction

end InterruptController

/-! ### Both blocks -/

/-- Two bytes are a halfword. On the registers of the DMA channels, whatever state they are
in, and on those of the interrupt controller in every state that it can come to, storing the two
bytes of a value at an even offset, the lower one first, leaves the same state as storing the
value: channels are latched and made active by the same stores, the same requests are cleared,
and the console wakes up or falls asleep alike. The stores are accepted alike too. -/
theorem byte_stores_compose (d : Dma) {c : InterruptController} (h : c.Reachable)
    (offset : Word) (heven : 2 ∣ offset.toNat) (value : Half) :
    BytesStoreHalf d offset value ∧ BytesStoreHalf c offset value :=
  ⟨(d.takesBytes _ value).bytesStoreHalf heven,
    (InterruptController.takesBytes h.settled _ value).bytesStoreHalf heven⟩

/-- Halted at the end of the picture, which is requested but not enabled. -/
def haltedAtVblank : InterruptController :=
  (InterruptController.perform {} (.raise .vblank)).perform .enterHalt

/-- The lower byte alone wakes the controller, and the upper byte starts a channel. -/
theorem byte_stores_compose_midway :
    haltedAtVblank.Reachable ∧ haltedAtVblank.power = .halt ∧
      (MemoryBus.store8 haltedAtVblank 0x000 0x01).2.power = .run ∧
      BytesStoreHalf haltedAtVblank 0x000 0x2001 ∧
      ((MemoryBus.store16 ({} : Dma) 0x00A 0x8400).2.get 0).active = true ∧
      BytesStoreHalf ({} : Dma) 0x00A 0x8400 := by
  have hreachable : haltedAtVblank.Reachable :=
    (InterruptController.Reachable.blank.perform _).perform _
  exact ⟨hreachable, by decide, by decide,
    (byte_stores_compose {} hreachable 0x000 (by decide) 0x2001).2, by decide,
    (byte_stores_compose {} hreachable 0x00A (by decide) 0x8400).1⟩

/-- A controller that sleeps on a pending interrupt, which none comes to, would be woken by the
lower byte alone. -/
example : ¬ BytesStoreHalf
    ({ enabled := 0x0100, requested := 0x0100, power := .halt } : InterruptController)
    0x000 0x0000 := by
  decide

end AdvanceCore
