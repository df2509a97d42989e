import AdvanceCore.Proofs.Checked.Bus
import AdvanceCore.Proofs.Dma.Blocks

/-!
# `AdvanceCore.Proofs.Checked.Guarded`: a bus that stays broken

The processor and the DMA blocks run over any bus, so they also run over one that can break.
`Guarded` is such a bus: once an access has broken it, it answers with nothing and stays as it
is. Whether anything has broken is then seen in the bus that is left in the end.

* `Guarded.attempt`: an access of such a bus, which nothing repairs.
* `Unbroken.step_guarded`, `Unbroken.run_guarded`: over a bus that no access breaks, neither a
  step of the processor nor a block breaks it, and both do what they do over the bus itself.
-/

set_option autoImplicit false

namespace AdvanceCore

/-- A bus, or nothing of it after it has broken. -/
structure Guarded (β : Type) where
  bus? : Option β

namespace Guarded

variable {β : Type}

/-- A bus that has broken. -/
def broken : Guarded β := ⟨none⟩

/-- Makes an access, which gives the answer of nobody if the bus is broken by then. -/
def attempt {α : Type} (g : Guarded β) (nobody : α) (access : β → Option (α × β)) :
    α × Guarded β :=
  match g.bus?.bind access with
  | some (answer, bus) => (answer, ⟨some bus⟩)
  | none => (nobody, broken)

variable [CheckedBus β]

instance : MemoryBus (Guarded β) where
  load8 g address := g.attempt none fun bus => CheckedBus.load8? bus address
  load16 g address := g.attempt none fun bus => CheckedBus.load16? bus address
  load32 g address := g.attempt none fun bus => CheckedBus.load32? bus address
  store8 g address value := g.attempt true fun bus => CheckedBus.store8? bus address value
  store16 g address value := g.attempt true fun bus => CheckedBus.store16? bus address value
  store32 g address value := g.attempt true fun bus => CheckedBus.store32? bus address value

end Guarded

namespace Unbroken

variable {β : Type} [MemoryBus β] [CheckedBus β] {sound : β → Prop} (h : Unbroken sound)

/-- The states that are sound are a bus of their own. -/
@[reducible] def soundBus : MemoryBus { bus : β // sound bus } where
  load8 bus address :=
    ((MemoryBus.load8 bus.1 address).1, ⟨_, (h.load8 bus.1 bus.2 address).sound⟩)
  load16 bus address :=
    ((MemoryBus.load16 bus.1 address).1, ⟨_, (h.load16 bus.1 bus.2 address).sound⟩)
  load32 bus address :=
    ((MemoryBus.load32 bus.1 address).1, ⟨_, (h.load32 bus.1 bus.2 address).sound⟩)
  store8 bus address value :=
    ((MemoryBus.store8 bus.1 address value).1, ⟨_, (h.store8 bus.1 bus.2 address value).sound⟩)
  store16 bus address value :=
    ((MemoryBus.store16 bus.1 address value).1,
      ⟨_, (h.store16 bus.1 bus.2 address value).sound⟩)
  store32 bus address value :=
    ((MemoryBus.store32 bus.1 address value).1,
      ⟨_, (h.store32 bus.1 bus.2 address value).sound⟩)

/-- The bus does on them what it does everywhere. -/
theorem busMap_val :
    letI := h.soundBus
    BusMap (Subtype.val : { bus : β // sound bus } → β) :=
  letI := h.soundBus
  ⟨fun _ _ => rfl, fun _ _ => rfl, fun _ _ => rfl, fun _ _ _ => rfl, fun _ _ _ => rfl,
    fun _ _ _ => rfl⟩

/-- So does the guarded bus, which never breaks on them. -/
theorem busMap_guarded :
    letI := h.soundBus
    BusMap fun bus : { bus : β // sound bus } => Guarded.mk (some bus.1) := by
  have hattempt {α : Type} {bus : β} (nobody : α) {access : β → Option (α × β)} {done : α × β}
      (hdone : Succeeds sound (access bus) done) :
      (Guarded.mk (some bus)).attempt nobody access = (done.1, ⟨some done.2⟩) := by
    rw [Guarded.attempt, Option.bind_some, hdone.eq]
  let _ := h.soundBus
  exact {
    load8 := fun bus address => hattempt none (h.load8 bus.1 bus.2 address)
    load16 := fun bus address => hattempt none (h.load16 bus.1 bus.2 address)
    load32 := fun bus address => hattempt none (h.load32 bus.1 bus.2 address)
    store8 := fun bus address value => hattempt true (h.store8 bus.1 bus.2 address value)
    store16 := fun bus address value => hattempt true (h.store16 bus.1 bus.2 address value)
    store32 := fun bus address value => hattempt true (h.store32 bus.1 bus.2 address value) }

variable {bus : β} (hsound : sound bus)
include h hsound

/-- A step of the processor does not break the bus. -/
theorem step_guarded (cpu : Cpu) (lines : InterruptLines) :
    cpu.step (Guarded.mk (some bus)) lines =
        (cpu.step bus lines).map id (Prod.map id fun bus => ⟨some bus⟩) ∧
      sound (cpu.step bus lines).2.2 := by
  let _ := h.soundBus
  have hval := h.busMap_val.step cpu ⟨bus, hsound⟩ lines
  have hguarded := h.busMap_guarded.step cpu ⟨bus, hsound⟩ lines
  dsimp only at hval hguarded
  rw [hval, hguarded]
  exact ⟨rfl, (cpu.step (⟨bus, hsound⟩ : { bus : β // sound bus }) lines).2.2.2⟩

/-- Moving a block does not break the bus either. -/
theorem run_guarded (t : DmaTransfer) :
    t.run (Guarded.mk (some bus)) = (t.run bus).map id (fun bus => ⟨some bus⟩) ∧
      sound (t.run bus).2 := by
  let _ := h.soundBus
  have hval := h.busMap_val.moveUnits t ⟨bus, hsound⟩ t.count
  have hguarded := h.busMap_guarded.moveUnits t ⟨bus, hsound⟩ t.count
  dsimp only at hval hguarded
  unfold DmaTransfer.run
  rw [hval, hguarded]
  exact ⟨rfl, (t.moveUnits (⟨bus, hsound⟩ : { bus : β // sound bus }) t.count).2.2⟩

end Unbroken

end AdvanceCore
