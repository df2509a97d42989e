import AdvanceCore.Proofs.Bus.Accesses

/-!
# `AdvanceCore.Proofs.Dma.Blocks`: the units of a block and where they are

A block is moved unit by unit, and both addresses move on in between. That they do so by the
same distance each time gives every unit its place in advance, whatever the bus answers.

* `DmaTransfer.sourceAfter`, `destinationAfter`: the addresses after a number of units.
* `DmaTransfer.fst_run`: what a block leaves of its transfer.
* `DmaTransfer.bus_run`: a block does nothing to the bus but make its accesses.
* `DmaTransfer.loads_run`, `stores_run`: one load and one store for each unit, in order.
* `UnitCopies`: what becomes of a memory of any kind when its units are copied one by one.
-/

set_option autoImplicit false

namespace AdvanceCore

/-- Where an access loads. -/
def BusAccess.loadAddress? : BusAccess → Option Word
  | .load8 address | .load16 address | .load32 address => some address
  | .store8 _ _ | .store16 _ _ | .store32 _ _ => none

namespace DmaTransfer

/-- The number of bytes of a unit. -/
def size (t : DmaTransfer) : Nat := if t.movesWords then 4 else 2

/-- The source after a number of units. -/
def sourceAfter (t : DmaTransfer) (k : Nat) : Word :=
  t.source + BitVec.ofNat 32 k * t.sourceStep.distance t.unit

/-- The destination after a number of units. -/
def destinationAfter (t : DmaTransfer) (k : Nat) : Word :=
  t.destination + BitVec.ofNat 32 k * t.destinationStep.distance t.unit

/-- Units are loaded and stored at aligned addresses only. -/
def aligned (t : DmaTransfer) (address : Word) : Word :=
  if t.movesWords then wordAligned address else halfAligned address

/-- Where the unit with a number is loaded. -/
def sourceAt (t : DmaTransfer) (k : Nat) : Word := t.aligned (t.sourceAfter k)

/-- Before its first unit a block is at its source. -/
@[simp] theorem sourceAfter_zero (t : DmaTransfer) : t.sourceAfter 0 = t.source := by
  unfold sourceAfter
  rw [BitVec.zero_mul, BitVec.add_zero]

/-- Before its first unit a block is at its destination. -/
@[simp] theorem destinationAfter_zero (t : DmaTransfer) : t.destinationAfter 0 = t.destination := by
  unfold destinationAfter
  rw [BitVec.zero_mul, BitVec.add_zero]

/-- Each unit moves the source by one step. -/
theorem sourceAfter_succ (t : DmaTransfer) (k : Nat) :
    t.sourceAfter (k + 1) = t.sourceAfter k + t.sourceStep.distance t.unit := by
  unfold sourceAfter
  rw [BitVec.ofNat_add, BitVec.add_mul, BitVec.one_mul, BitVec.add_assoc]

/-- Each unit moves the destination by one step. -/
theorem destinationAfter_succ (t : DmaTransfer) (k : Nat) :
    t.destinationAfter (k + 1) =
      t.destinationAfter k + t.destinationStep.distance t.unit := by
  unfold destinationAfter
  rw [BitVec.ofNat_add, BitVec.add_mul, BitVec.one_mul, BitVec.add_assoc]

/-- What is left of a block goes on at the next unit. -/
theorem sourceAfter_proceed (t : DmaTransfer) (value : Word) (k : Nat) :
    (t.proceed value).sourceAfter k = t.sourceAfter (k + 1) :=
  add_step_add_mul t.source _ k

/-- What is left of a block goes on storing at the next unit. -/
theorem destinationAfter_proceed (t : DmaTransfer) (value : Word) (k : Nat) :
    (t.proceed value).destinationAfter k = t.destinationAfter (k + 1) :=
  add_step_add_mul t.destination _ k

/-- What is left of a block loads where the block loads next, aligned or not. -/
theorem sourceAt_proceed (t : DmaTransfer) (value : Word) (k : Nat) :
    (t.proceed value).sourceAt k = t.sourceAt (k + 1) :=
  congrArg t.aligned (t.sourceAfter_proceed value k)

variable {β : Type} [MemoryBus β]

/-- The last unit is moved on its own. -/
theorem moveUnits_succ (t : DmaTransfer) (bus : β) (count : Nat) :
    t.moveUnits bus (count + 1) =
      (t.moveUnits bus count).1.moveUnit (t.moveUnits bus count).2 := by
  induction count generalizing t bus with
  | zero => rfl
  | succ count ih => exact ih (t.moveUnit bus).1 (t.moveUnit bus).2

/-- A block after some units differs in its addresses, which do not depend on the bus, and in what
is on the bus. -/
theorem fst_moveUnits (t : DmaTransfer) (bus : β) (count : Nat) :
    ∃ value, (t.moveUnits bus count).1 =
      { t with
        source := t.sourceAfter count
        destination := t.destinationAfter count
        openBus := value } := by
  induction count generalizing t bus with
  | zero => exact ⟨t.openBus, by rw [sourceAfter_zero, destinationAfter_zero]; rfl⟩
  | succ count ih =>
    obtain ⟨value, hunit, -⟩ := t.accessed_moveUnit bus
    obtain ⟨last, hrest⟩ := ih (t.moveUnit bus).1 (t.moveUnit bus).2
    refine ⟨last, hrest.trans ?_⟩
    rw [hunit, sourceAfter_proceed, destinationAfter_proceed]
    rfl

/-- A block leaves both addresses behind its last unit. -/
theorem fst_run (t : DmaTransfer) (bus : β) :
    ∃ value, (t.run bus).1 =
      { t with
        source := t.sourceAfter t.count
        destination := t.destinationAfter t.count
        openBus := value } :=
  t.fst_moveUnits bus t.count

/-- A block belongs to its channel up to its end. -/
@[simp] theorem channel_run (t : DmaTransfer) (bus : β) : (t.run bus).1.channel = t.channel := by
  obtain ⟨value, hrun⟩ := t.fst_run bus
  rw [hrun]

end DmaTransfer

/-! ### The accesses of a block -/

namespace BusMap

variable {β γ : Type} [MemoryBus β] [MemoryBus γ] {f : γ → β}

/-- The map goes through the load and the store of a unit. -/
theorem moveUnit (hf : BusMap f) (t : DmaTransfer) (bus : γ) :
    t.moveUnit (f bus) = (t.moveUnit bus).map id f := by
  unfold DmaTransfer.moveUnit
  split
  · unfold DmaTransfer.moveWord
    dsimp only
    rw [hf.load32]
    dsimp only [Prod.map]
    rw [hf.store32]
    rfl
  · unfold DmaTransfer.moveHalf
    dsimp only
    rw [hf.load16]
    dsimp only [Prod.map]
    rw [hf.store16]
    rfl

/-- The map goes through the units of a block. -/
theorem moveUnits (hf : BusMap f) (t : DmaTransfer) (bus : γ) (count : Nat) :
    t.moveUnits (f bus) count = (t.moveUnits bus count).map id f := by
  induction count generalizing t bus with
  | zero => rfl
  | succ count ih =>
    unfold DmaTransfer.moveUnits
    rw [hf.moveUnit]
    exact ih (t.moveUnit bus).1 (t.moveUnit bus).2

end BusMap

namespace DmaTransfer

variable {β : Type} [MemoryBus β]

/-- The accesses that a block makes. -/
def accesses (t : DmaTransfer) (bus : β) : List BusAccess :=
  (t.run (Recorded.blank bus)).2.accesses

/-- A block does nothing to the bus but make its accesses. -/
theorem bus_run (t : DmaTransfer) (bus : β) :
    (t.run bus).2 = (t.accesses bus).foldl BusAccess.perform bus := by
  have hrun : t.run bus = (t.run (Recorded.blank bus)).map id Recorded.bus :=
    (Recorded.busMap bus).moveUnits t (Recorded.blank bus) t.count
  rw [hrun]
  exact (t.run (Recorded.blank bus)).2.replay

/-- A unit is one load and one store. -/
theorem accesses_moveUnit {start : β} (t : DmaTransfer) (r : Recorded start) :
    ∃ load store, (t.moveUnit r).2.accesses = r.accesses ++ [load, store] ∧
      load.loadAddress? = some (t.sourceAt 0) ∧ load.storeAddress? = none ∧
      store.loadAddress? = none ∧ store.storeAddress? = some (t.destinationAt 0) := by
  have hsource : t.sourceAt 0 = t.aligned t.source := congrArg t.aligned t.sourceAfter_zero
  have hdestination : t.destinationAt 0 = t.aligned t.destination :=
    congrArg t.aligned t.destinationAfter_zero
  rw [hsource, hdestination]
  unfold moveUnit aligned
  split
  · let value := (MemoryBus.load32 r.bus (wordAligned t.source)).1.getD t.openBus
    exact ⟨.load32 (wordAligned t.source), .store32 (wordAligned t.destination) value,
      List.append_assoc .., rfl, rfl, rfl, rfl⟩
  · let value := (MemoryBus.load16 r.bus (halfAligned t.source)).1.getD (t.openBus.setWidth 16)
    exact ⟨.load16 (halfAligned t.source), .store16 (halfAligned t.destination) value,
      List.append_assoc .., rfl, rfl, rfl, rfl⟩

/-- Moving units records one load and one store for each, in order. By induction on their number,
with what is left of the block after the first one. -/
theorem accesses_moveUnits {start : β} (t : DmaTransfer) (r : Recorded start) (count : Nat) :
    ∃ made, (t.moveUnits r count).2.accesses = r.accesses ++ made ∧
      made.filterMap BusAccess.loadAddress? = (List.range count).map t.sourceAt ∧
      made.filterMap BusAccess.storeAddress? = (List.range count).map t.destinationAt := by
  -- On the number of units. The rest of the block is a transfer of its own, one unit further on.
  induction count generalizing t r with
  | zero => exact ⟨[], (List.append_nil _).symm, rfl, rfl⟩
  | succ count ih =>
    obtain ⟨load, store, hunit, hload, hload', hstore', hstore⟩ := t.accesses_moveUnit r
    obtain ⟨value, hproceed, -⟩ := t.accessed_moveUnit r
    obtain ⟨rest, hrest, hloads, hstores⟩ := ih (t.moveUnit r).1 (t.moveUnit r).2
    refine ⟨load :: store :: rest, ?_, ?_, ?_⟩
    · rw [hunit, List.append_assoc] at hrest
      exact hrest
    · rw [hproceed] at hloads
      simp only [List.filterMap_cons, hload, hstore', hloads, List.range_succ_eq_map,
        List.map_cons, List.map_map]
      exact congrArg _ (List.map_congr_left fun k _ => t.sourceAt_proceed value k)
    · rw [hproceed] at hstores
      simp only [List.filterMap_cons, hload', hstore, hstores, List.range_succ_eq_map,
        List.map_cons, List.map_map]
      exact congrArg _ (List.map_congr_left fun k _ => t.destinationAt_proceed value k)

/-- The loads of a block, in order. -/
theorem loads_run (t : DmaTransfer) (bus : β) :
    (t.accesses bus).filterMap BusAccess.loadAddress? = (List.range t.count).map t.sourceAt := by
  obtain ⟨made, hmade, hloads, -⟩ := t.accesses_moveUnits (Recorded.blank bus) t.count
  exact (congrArg _ hmade).trans hloads

/-- The stores of a block, in order. -/
theorem stores_run (t : DmaTransfer) (bus : β) :
    (t.accesses bus).filterMap BusAccess.storeAddress? =
      (List.range t.count).map t.destinationAt := by
  obtain ⟨made, hmade, -, hstores⟩ := t.accesses_moveUnits (Recorded.blank bus) t.count
  exact (congrArg _ hmade).trans hstores

end DmaTransfer

/-! ### Copies -/

/-- A memory `after` each number of units. Every unit is copied from the cells of its source to
those of its destination, and no unit is stored over a source or over another destination. -/
structure UnitCopies {κ : Type} (after : Nat → κ → Byte) (source destination : Nat → Nat → κ)
    (size count : Nat) : Prop where
  moved : ∀ k < count, ∀ j < size, after (k + 1) (destination k j) = after k (source k j)
  kept : ∀ k < count, ∀ cell, (∀ j < size, cell ≠ destination k j) →
    after (k + 1) cell = after k cell
  apart : ∀ k < count, ∀ j < size, ∀ k' < count, ∀ j' < size, destination k j ≠ source k' j'
  distinct : ∀ k < count, ∀ k' < count, k ≠ k' → ∀ j < size, ∀ j' < size,
    destination k j ≠ destination k' j'

namespace UnitCopies

variable {κ : Type} {after : Nat → κ → Byte} {source destination : Nat → Nat → κ}
  {size count : Nat}

/-- A cell keeps its byte over units that are stored elsewhere. -/
theorem after_eq (h : UnitCopies after source destination size count) {first last : Nat}
    {cell : κ} (hle : first ≤ last) (hlast : last ≤ count)
    (helsewhere : ∀ k, first ≤ k → k < last → ∀ j < size, cell ≠ destination k j) :
    after last cell = after first cell := by
  induction hle with
  | refl => rfl
  | @step last hle ih =>
    rw [h.kept last hlast cell (helsewhere last hle (Nat.lt_succ_self last))]
    exact ih (Nat.le_of_succ_le hlast) fun k hfirst hk => helsewhere k hfirst (Nat.lt_succ_of_lt hk)

/-- A unit is loaded as it was at first, and it stays as it is stored. -/
theorem copied (h : UnitCopies after source destination size count) {k j : Nat} (hk : k < count)
    (hj : j < size) : after count (destination k j) = after 0 (source k j) := by
  have hloaded : after k (source k j) = after 0 (source k j) :=
    h.after_eq (Nat.zero_le k) (Nat.le_of_lt hk) fun k' _ hk' j' hj' =>
      (h.apart k' (Nat.lt_trans hk' hk) j' hj' k hk j hj).symm
  have hstored : after count (destination k j) = after (k + 1) (destination k j) :=
    h.after_eq hk (Nat.le_refl count) fun k' hlater hk' j' hj' =>
      h.distinct k hk k' hk' (Nat.ne_of_lt hlater) j hj j' hj'
  rw [hstored, h.moved k hk j hj, hloaded]

/-- No other cell changes. -/
theorem unchanged (h : UnitCopies after source destination size count) {cell : κ}
    (helsewhere : ∀ k < count, ∀ j < size, cell ≠ destination k j) :
    after count cell = after 0 cell :=
  h.after_eq (Nat.zero_le count) (Nat.le_refl count) fun k _ hk => helsewhere k hk

end UnitCopies

end AdvanceCore
