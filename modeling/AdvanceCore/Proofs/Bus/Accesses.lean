import AdvanceCore.Cpu.Step
import AdvanceCore.Dma.Transfer
import Mathlib.Logic.Relation

/-!
# `AdvanceCore.Proofs.Bus.Accesses`: what is done over a bus

The processor and the DMA channels reach what is behind the bus only by its six accesses. For
the processor this is a law about maps between buses: if a map goes through each of the six
accesses, it goes through a whole step. One such map forgets the record of a bus that keeps
the accesses made to it, so the record of a step is a true account of it.

* `BusAccess`, `Recorded`: an access as a value, and a bus with the accesses that have led to
  its state.
* `BusMap`, `BusMap.step`: maps that go through every access go through a step.
* `Cpu.accesses`, `Cpu.bus_step`: a step does nothing to the bus but make its accesses.
* `Accessed`: accesses of an allowed kind lead from one state of a bus to another.
* `DmaTransfer.accessed_run`: a block, which stores nowhere but at its destinations.
-/

set_option autoImplicit false

namespace AdvanceCore

/-- An access to a bus, without the answer. -/
inductive BusAccess where
  | load8 (address : Word)
  | load16 (address : Word)
  | load32 (address : Word)
  | store8 (address : Word) (value : Byte)
  | store16 (address : Word) (value : Half)
  | store32 (address value : Word)
  deriving DecidableEq, Repr

variable {β γ : Type} [MemoryBus β] [MemoryBus γ]

/-- The bus after an access. -/
def BusAccess.perform (bus : β) : BusAccess → β
  | .load8 address => (MemoryBus.load8 bus address).2
  | .load16 address => (MemoryBus.load16 bus address).2
  | .load32 address => (MemoryBus.load32 bus address).2
  | .store8 address value => (MemoryBus.store8 bus address value).2
  | .store16 address value => (MemoryBus.store16 bus address value).2
  | .store32 address value => (MemoryBus.store32 bus address value).2

/-- Where an access stores. -/
def BusAccess.storeAddress? : BusAccess → Option Word
  | .load8 _ | .load16 _ | .load32 _ => none
  | .store8 address _ | .store16 address _ | .store32 address _ => some address

/-- A bus with the accesses that have led to its state from `start`, the first one first. -/
structure Recorded (start : β) where
  bus : β
  accesses : List BusAccess
  replay : bus = accesses.foldl BusAccess.perform start

namespace Recorded

variable {start : β}

/-- A record with no accesses yet. -/
def blank (start : β) : Recorded start := ⟨start, [], rfl⟩

/-- Makes an access and adds it to the record. -/
def note {α : Type} (r : Recorded start) (access : BusAccess) (answer : α × β)
    (h : answer.2 = access.perform r.bus) : α × Recorded start :=
  (answer.1, ⟨answer.2, r.accesses ++ [access], by rw [List.foldl_append, ← r.replay, h]; rfl⟩)

instance : MemoryBus (Recorded start) where
  load8 r address := r.note (.load8 address) (MemoryBus.load8 r.bus address) rfl
  load16 r address := r.note (.load16 address) (MemoryBus.load16 r.bus address) rfl
  load32 r address := r.note (.load32 address) (MemoryBus.load32 r.bus address) rfl
  store8 r address value :=
    r.note (.store8 address value) (MemoryBus.store8 r.bus address value) rfl
  store16 r address value :=
    r.note (.store16 address value) (MemoryBus.store16 r.bus address value) rfl
  store32 r address value :=
    r.note (.store32 address value) (MemoryBus.store32 r.bus address value) rfl

end Recorded

/-! ### Maps between buses -/

/-- `f` goes through the six accesses: they answer the same before and after it. -/
structure BusMap (f : γ → β) : Prop where
  load8 : ∀ bus address,
    MemoryBus.load8 (f bus) address = (MemoryBus.load8 bus address).map id f
  load16 : ∀ bus address,
    MemoryBus.load16 (f bus) address = (MemoryBus.load16 bus address).map id f
  load32 : ∀ bus address,
    MemoryBus.load32 (f bus) address = (MemoryBus.load32 bus address).map id f
  store8 : ∀ bus address value,
    MemoryBus.store8 (f bus) address value = (MemoryBus.store8 bus address value).map id f
  store16 : ∀ bus address value,
    MemoryBus.store16 (f bus) address value = (MemoryBus.store16 bus address value).map id f
  store32 : ∀ bus address value,
    MemoryBus.store32 (f bus) address value = (MemoryBus.store32 bus address value).map id f

/-- Forgetting the record maps the recorded bus to the bus. -/
theorem Recorded.busMap (start : β) : BusMap (Recorded.bus : Recorded start → β) :=
  ⟨fun _ _ => rfl, fun _ _ => rfl, fun _ _ => rfl, fun _ _ _ => rfl, fun _ _ _ => rfl,
    fun _ _ _ => rfl⟩

namespace BusMap

variable {f : γ → β}

/-- A load of any kind makes one access, which the map goes through. -/
theorem load (hf : BusMap f) (kind : Load) (bus : γ) (address : Word) :
    kind.run (f bus) address = (kind.run bus address).map id f := by
  cases kind with
  | word => simp only [Load.run, hf.load32]; rfl
  | half => simp only [Load.run, hf.load16]; rfl
  | byte => simp only [Load.run, hf.load8]; rfl
  | signedByte => simp only [Load.run, loadSignedByte, hf.load8]; rfl
  | signedHalf =>
    simp only [Load.run, loadSignedByte, hf.load8, hf.load16]
    split <;> rfl

/-- A store of any kind makes one access, which the map goes through. -/
theorem store (hf : BusMap f) (kind : Store) (bus : γ) (address value : Word) :
    kind.run (f bus) address value = (kind.run bus address value).map id f := by
  cases kind with
  | word => exact hf.store32 ..
  | half => exact hf.store16 ..
  | byte => exact hf.store8 ..

/-- A run of stores stops at the same word on both sides. -/
theorem storeWords (hf : BusMap f) (bus : γ) (address : Word) (values : List Word) :
    storeWords (f bus) address values = (storeWords bus address values).map id f := by
  induction values generalizing bus address with
  | nil => rfl
  | cons value rest ih =>
    unfold AdvanceCore.storeWords
    rw [hf.store32]
    obtain ⟨accepted, bus'⟩ := MemoryBus.store32 bus (wordAligned address) value
    -- A refused store ends the run on either bus.
    cases accepted with
    | false => rfl
    | true =>
      simp only [Prod.map, id, ih]

/-- A run of loads stops at the same word on both sides. -/
theorem loadWords (hf : BusMap f) (bus : γ) (address : Word) (count : Nat) :
    loadWords (f bus) address count = (loadWords bus address count).map id f := by
  induction count generalizing bus address with
  | zero => rfl
  | succ count ih =>
    unfold AdvanceCore.loadWords
    rw [hf.load32]
    obtain ⟨answer, bus'⟩ := MemoryBus.load32 bus (wordAligned address)
    cases answer with
    | none => rfl
    | some value => simp only [Prod.map, id, ih]

/-! ### Instructions -/

section Instructions

open Cpu

variable (hf : BusMap f) (cpu : Cpu) (bus : γ)
include hf

/-- Whether a load is given up depends on the answer, which is the same. -/
theorem loadRegister (kind : Load) (address : Word) (newBase : Option (RegisterId × Word))
    (r : RegisterId) :
    cpu.loadRegister (f bus) kind address newBase r =
      (cpu.loadRegister bus kind address newBase r).map id f := by
  unfold Cpu.loadRegister
  rw [hf.load]
  obtain ⟨answer, bus'⟩ := kind.run bus address
  cases answer <;> rfl

/-- Whether a store is given up depends on the answer, which is the same. -/
theorem storeValue (kind : Store) (address value : Word)
    (newBase : Option (RegisterId × Word)) :
    cpu.storeValue (f bus) kind address value newBase =
      (cpu.storeValue bus kind address value newBase).map id f := by
  unfold Cpu.storeValue
  rw [hf.store]
  obtain ⟨accepted, bus'⟩ := kind.run bus address value
  cases accepted <;> rfl

/-- A list transfer makes its accesses in one run. -/
theorem transferBlock (t : BlockTransfer) :
    cpu.transferBlock (f bus) t = (cpu.transferBlock bus t).map id f := by
  unfold Cpu.transferBlock
  cases t.direction with
  | store =>
    unfold storeBlock
    dsimp only
    rw [hf.storeWords]
    -- What the run of words answers decides the rest, and the rest does not touch the bus.
    generalize AdvanceCore.storeWords bus _ _ = words
    obtain ⟨run, bus'⟩ := words
    dsimp only [Prod.map, id]
    split <;> rfl
  | load =>
    unfold loadBlock
    dsimp only
    rw [hf.loadWords]
    generalize AdvanceCore.loadWords bus _ _ = words
    obtain ⟨run, bus'⟩ := words
    dsimp only [Prod.map, id]
    split
    · rfl
    · split <;> rfl

/-- The second access of a swap finds the bus that the first one has left, on both sides. -/
theorem swap (i : Arm.Swap) : cpu.swap (f bus) i = (cpu.swap bus i).map id f := by
  unfold Cpu.swap
  cases i.quantity
  -- A load and then a store, unless the load is refused: the words and the bytes differ in nothing
  -- else.
  all_goals
    dsimp only
    rw [hf.load]
    generalize Load.run _ bus _ = loaded
    obtain ⟨answer, bus'⟩ := loaded
    cases answer with
    | none => rfl
    | some old =>
      dsimp only [Prod.map, id]
      rw [hf.store]
      generalize Store.run _ bus' _ _ = stored
      obtain ⟨accepted, bus''⟩ := stored
      cases accepted <;> rfl

/-- Every ARM instruction goes through the map, since it reaches the bus through these transfers
only. -/
theorem performArm (i : Arm.Instruction) :
    cpu.performArm (f bus) i = (cpu.performArm bus i).map id f := by
  cases i with
  | swap i => exact hf.swap cpu bus i
  | halfwordTransfer i =>
    unfold Cpu.performArm halfwordTransfer
    dsimp only
    cases i.direction with
    | load => exact hf.loadRegister ..
    | store => exact hf.storeValue ..
  | singleTransfer i =>
    unfold Cpu.performArm singleTransfer
    dsimp only
    cases i.direction with
    | load => cases i.quantity <;> exact hf.loadRegister ..
    | store => cases i.quantity <;> exact hf.storeValue ..
  | blockTransfer t => exact hf.transferBlock cpu bus t
  | _ => rfl

/-- The transfers of low registers go through the map. -/
theorem transferLow (direction : Direction) (quantity : Quantity) (address : Word)
    (rd : Thumb.LowRegister) :
    cpu.transferLow (f bus) direction quantity address rd =
      (cpu.transferLow bus direction quantity address rd).map id f := by
  cases direction with
  | load => cases quantity <;> exact hf.loadRegister ..
  | store => cases quantity <;> exact hf.storeValue ..

/-- The transfers of halfwords and signed values go through the map. -/
theorem transferLowSigned (transfer : Thumb.SignedTransfer) (address : Word)
    (rd : Thumb.LowRegister) :
    cpu.transferLowSigned (f bus) transfer address rd =
      (cpu.transferLowSigned bus transfer address rd).map id f := by
  cases transfer with
  | storeHalf => exact hf.storeValue ..
  | _ => exact hf.loadRegister ..

/-- Every Thumb instruction goes through the map. -/
theorem performThumb (i : Thumb.Instruction) :
    cpu.performThumb (f bus) i = (cpu.performThumb bus i).map id f := by
  cases i with
  | loadLiteral => exact hf.loadRegister ..
  | transferIndexed => exact hf.transferLow ..
  | transferSigned => exact hf.transferLowSigned ..
  | transferOffset => exact hf.transferLow ..
  | transferHalf direction offset base rd =>
    cases direction with
    | load => exact hf.transferLowSigned cpu bus .loadHalf _ rd
    | store => exact hf.transferLowSigned cpu bus .storeHalf _ rd
  | transferStack => exact hf.transferLow ..
  | push registers link => exact hf.transferBlock cpu bus (pushTransfer registers link)
  | pop registers pc => exact hf.transferBlock cpu bus (popTransfer registers pc)
  | transferBlock direction base registers =>
    exact hf.transferBlock cpu bus (lowBlockTransfer direction base registers)
  | _ => rfl

/-- An instruction whose condition fails makes no access. -/
theorem executeArm (code : Arm.Opcode) :
    cpu.executeArm (f bus) code = (cpu.executeArm bus code).map id f := by
  unfold Cpu.executeArm
  split
  · exact hf.performArm ..
  · rfl

/-- The fetch is an access as well, and the code that it finds is the same. -/
theorem fetchAndExecute :
    cpu.fetchAndExecute (f bus) = (cpu.fetchAndExecute bus).map id f := by
  unfold Cpu.fetchAndExecute
  dsimp only
  split
  · rw [hf.load32]
    obtain ⟨answer, bus'⟩ := MemoryBus.load32 bus cpu.alignPc.currentInstruction
    cases answer with
    | none => rfl
    | some code => exact hf.executeArm ..
  · rw [hf.load16]
    obtain ⟨answer, bus'⟩ := MemoryBus.load16 bus cpu.alignPc.currentInstruction
    cases answer with
    | none => rfl
    | some code => exact hf.performThumb ..

/-- A step before the map takes as long, leaves the same processor, and the mapped bus. -/
theorem step (lines : InterruptLines) :
    cpu.step (f bus) lines = (cpu.step bus lines).map id (Prod.map id f) := by
  unfold Cpu.step
  dsimp only
  split
  · rfl
  · rw [hf.fetchAndExecute]
    rfl

end Instructions

end BusMap

/-! ### Sequences of accesses -/

/-- Accesses of an allowed kind, any number of them, lead from the first state to the
second. -/
abbrev Accessed (allowed : BusAccess → Prop) : β → β → Prop :=
  Relation.ReflTransGen fun bus bus' => ∃ a, allowed a ∧ bus' = BusAccess.perform bus a

namespace Accessed

variable {allowed : BusAccess → Prop} {bus bus' : β}

/-- One access that is allowed. -/
theorem single (bus : β) (a : BusAccess) (ha : allowed a) : Accessed allowed bus (a.perform bus) :=
  Relation.ReflTransGen.single ⟨a, ha, rfl⟩

/-- One more access after others. -/
theorem access (a : BusAccess) (h : Accessed allowed bus bus') (ha : allowed a) :
    Accessed allowed bus (a.perform bus') :=
  h.tail ⟨a, ha, rfl⟩

/-- What is allowed by a stricter rule is allowed. -/
theorem mono {allowed' : BusAccess → Prop} (hle : ∀ a, allowed a → allowed' a)
    (h : Accessed allowed bus bus') : Accessed allowed' bus bus' := by
  refine Relation.ReflTransGen.mono ?_ bus bus' h
  rintro bus bus' ⟨a, ha, hperform⟩
  exact ⟨a, hle a ha, hperform⟩

/-- The accesses of a list, if they are all allowed. -/
theorem foldl (bus : β) {accesses : List BusAccess} (h : ∀ a ∈ accesses, allowed a) :
    Accessed allowed bus (accesses.foldl BusAccess.perform bus) := by
  induction accesses generalizing bus with
  | nil => exact .refl
  | cons a rest ih =>
    have hrest := ih (a.perform bus) fun a' ha' => h a' (List.mem_cons_of_mem a ha')
    exact hrest.head ⟨a, h a List.mem_cons_self, rfl⟩

end Accessed

/-- The accesses that a step makes. -/
def Cpu.accesses (cpu : Cpu) (bus : β) (lines : InterruptLines) : List BusAccess :=
  (cpu.step (Recorded.blank bus) lines).2.2.accesses

/-- A step does nothing to the bus but make its accesses. -/
theorem Cpu.bus_step (cpu : Cpu) (bus : β) (lines : InterruptLines) :
    (cpu.step bus lines).2.2 = (cpu.accesses bus lines).foldl BusAccess.perform bus := by
  have hstep : cpu.step bus lines =
      (cpu.step (Recorded.blank bus) lines).map id (Prod.map id Recorded.bus) :=
    (Recorded.busMap bus).step cpu (Recorded.blank bus) lines
  rw [hstep]
  exact (cpu.step (Recorded.blank bus) lines).2.2.replay

/-- A step of the processor does nothing to its bus but make accesses. -/
theorem Cpu.accessed_step (cpu : Cpu) (bus : β) (lines : InterruptLines) :
    Accessed (fun _ => True) bus (cpu.step bus lines).2.2 := by
  rw [bus_step]
  exact .foldl bus fun _ _ => trivial

/-! ### DMA blocks -/

namespace DmaTransfer

/-- Where the unit with a number is stored. -/
def destinationAt (t : DmaTransfer) (k : Nat) : Word :=
  let address := t.destination + BitVec.ofNat 32 k * t.destinationStep.distance t.unit
  if t.movesWords then wordAligned address else halfAligned address

/-- The access stores nowhere but at the destinations of the next `count` units. -/
def KeepsTo (t : DmaTransfer) (count : Nat) (a : BusAccess) : Prop :=
  ∀ address, a.storeAddress? = some address → ∃ k < count, t.destinationAt k = address

/-- The first unit goes to the destination itself, without the bits below its size. -/
theorem destinationAt_zero (t : DmaTransfer) :
    t.destinationAt 0 =
      if t.movesWords then wordAligned t.destination else halfAligned t.destination := by
  have hstart : t.destination + BitVec.ofNat 32 0 * t.destinationStep.distance t.unit =
      t.destination := by
    rw [BitVec.zero_mul, BitVec.add_zero]
  unfold destinationAt
  dsimp only
  rw [hstart]

/-- One step and then some more are a step more. -/
theorem add_step_add_mul (address step : Word) (k : Nat) :
    address + step + BitVec.ofNat 32 k * step = address + BitVec.ofNat 32 (k + 1) * step := by
  rw [BitVec.ofNat_add, BitVec.add_mul, BitVec.one_mul, BitVec.add_assoc, BitVec.add_comm step]

/-- After a unit, the next ones are counted from the second. -/
theorem destinationAt_proceed (t : DmaTransfer) (value : Word) (k : Nat) :
    (t.proceed value).destinationAt k = t.destinationAt (k + 1) := by
  show (if t.movesWords then wordAligned _ else halfAligned _) = _
  unfold destinationAt
  rw [← add_step_add_mul]
  rfl

/-- The units that follow the first one are units of the block. -/
theorem KeepsTo.of_proceed {t : DmaTransfer} {value : Word} {count : Nat} {a : BusAccess}
    (h : (t.proceed value).KeepsTo count a) : t.KeepsTo (count + 1) a := by
  intro address haddress
  obtain ⟨k, hk, hstored⟩ := h address haddress
  rw [destinationAt_proceed] at hstored
  exact ⟨k + 1, Nat.succ_lt_succ hk, hstored⟩

/-- A unit is a load, and a store at the first destination. -/
theorem accessed_moveUnit (t : DmaTransfer) (bus : β) :
    ∃ value, (t.moveUnit bus).1 = t.proceed value ∧
      Accessed (t.KeepsTo 1) bus (t.moveUnit bus).2 := by
  have hstored {a : BusAccess} (h : a.storeAddress? = some (t.destinationAt 0)) :
      t.KeepsTo 1 a := by
    intro address haddress
    rw [h] at haddress
    exact ⟨0, Nat.one_pos, Option.some.inj haddress⟩
  have hzero := t.destinationAt_zero
  unfold moveUnit
  -- One load, which may go anywhere, then one store to the unit's destination.
  split
  · next hwords =>
    rw [if_pos hwords] at hzero
    let value := (MemoryBus.load32 bus (wordAligned t.source)).1.getD t.openBus
    refine ⟨value, rfl, ?_⟩
    have hload :
        Accessed (t.KeepsTo 1) bus (BusAccess.perform bus (.load32 (wordAligned t.source))) :=
      .single bus _ fun _ h => nomatch h
    exact .access (.store32 (wordAligned t.destination) value) hload
      (hstored (congrArg some hzero.symm))
  · next hhalves =>
    rw [if_neg hhalves] at hzero
    let value := (MemoryBus.load16 bus (halfAligned t.source)).1.getD (t.openBus.setWidth 16)
    refine ⟨value ++ value, rfl, ?_⟩
    have hload :
        Accessed (t.KeepsTo 1) bus (BusAccess.perform bus (.load16 (halfAligned t.source))) :=
      .single bus _ fun _ h => nomatch h
    exact .access (.store16 (halfAligned t.destination) value) hload
      (hstored (congrArg some hzero.symm))

/-- Moving units makes loads, and stores at their places. By induction on the number of units, with
the block that is left after the first one. -/
theorem accessed_moveUnits (t : DmaTransfer) (bus : β) (count : Nat) :
    Accessed (t.KeepsTo count) bus (t.moveUnits bus count).2 := by
  induction count generalizing t bus with
  | zero => exact .refl
  | succ count ih =>
    obtain ⟨value, hproceed, hunit⟩ := t.accessed_moveUnit bus
    have hrest := ih (t.proceed value) (t.moveUnit bus).2
    rw [← hproceed] at hrest
    -- A store of the rest goes to a unit of the shifted transfer, which is the next unit of this
    -- one.
    refine (hunit.mono fun a ha => ?_).trans (hrest.mono fun a ha => ?_)
    · intro address haddress
      obtain ⟨k, hk, hstored⟩ := ha address haddress
      exact ⟨k, by omega, hstored⟩
    · rw [hproceed] at ha
      exact ha.of_proceed

/-- A block stores at its destinations only. -/
theorem accessed_run (t : DmaTransfer) (bus : β) :
    Accessed (t.KeepsTo t.count) bus (t.run bus).2 :=
  t.accessed_moveUnits bus t.count

end DmaTransfer

end AdvanceCore
