import AdvanceCore.Board
import AdvanceCore.Proofs.Checked.Dma
import AdvanceCore.Proofs.Checked.Timers

/-!
# `AdvanceCore.Proofs.Checked.Board`: the address map

The board shifts an address down to its bank and subtracts the start of a block of registers
from an offset. Neither breaks, because the offset has been compared with the ends of the
block. Everything else that can break is in the parts of the board, of which only the timers
depend on their state.

Nothing is attached here. What could break in attached hardware is not known.

* `Board.route?_eq`: the address map.
* `Board.unbroken`: no access breaks a board whose timers are timely.
-/

set_option autoImplicit false

namespace AdvanceCore

open Bits

/-- An access to a bus of any kind, with nothing where the machine breaks. -/
abbrev CheckedAccess (α : Type) := (β : Type) → CheckedBus β → β → Option (α × β)

/-- The place of an offset behind the start of a block, which does not come after it. -/
def rebase? (offset start : Word) : Option Word := provided (start ≤ offset) (offset - start)

namespace Board

/-! ### The address map -/

section Route

variable {π : Type}

/-- The checked form of `routeIo`. -/
def routeIo? (b : Board π) (offset : Word) : Option (Option (Place × Word)) := do
  let n := offset.toNat
  if 0x0B0 ≤ n ∧ n ≤ 0x0DF then return some (.dma, ← rebase? offset 0x0B0)
  else if 0x100 ≤ n ∧ n ≤ 0x10F then return some (.timers, ← rebase? offset 0x100)
  else if (0x200 ≤ n ∧ n ≤ 0x20B) ∨ (0x300 ≤ n ∧ n ≤ 0x301) then
    return some (.interrupts, ← rebase? offset 0x200)
  else if b.claims (.io n) then return some (.attached (.io n), offset)
  else return none

/-- The checked form of `route`. -/
def route? (b : Board π) (address : Word) : Option (Option (Place × Word)) := do
  let bank := (← shiftRight? address 24).toNat
  let offset := address &&& 0x00FFFFFF
  if bank = 0x0 then return some (.bootRom, offset)
  else if bank = 0x2 then return some (.externalRam, offset)
  else if bank = 0x3 then return some (.internalRam, offset)
  else if bank = 0x4 then b.routeIo? offset
  else if bank < 0x10 then return b.routeOpen bank address
  else return none

/-- An offset is only rebased to a block that it does not come before. -/
theorem routeIo?_eq (b : Board π) (offset : Word) :
    b.routeIo? offset = some (b.routeIo offset) := by
  have hrebase (start : Word) (h : start.toNat ≤ offset.toNat) :
      rebase? offset start = some (offset - start) := provided_of _ h
  -- Each range is tested before its start is subtracted, so no subtraction goes below zero.
  unfold routeIo? routeIo
  dsimp only
  split
  · next h => rw [hrebase 0x0B0 h.1]; rfl
  split
  · next h => rw [hrebase 0x100 h.1]; rfl
  split
  · next h => rw [hrebase 0x200 (show 0x200 ≤ offset.toNat by omega)]; rfl
  split <;> rfl

/-- The bank of an address is found by a shift of twenty-four. -/
theorem route?_eq (b : Board π) (address : Word) : b.route? address = some (b.route address) := by
  simp only [route?, route, shiftRight?_of_lt, Nat.reduceLT, routeIo?_eq, Option.bind_eq_bind,
    Option.bind_some, Option.pure_def, ← apply_ite some]

end Route

/-! ### The bus -/

/-- There is nothing to attach. -/
theorem attachments_eq_nil (b : Board NoPeripheral) : b.attachments = [] :=
  match b.attachments with
  | [] => rfl
  | a :: _ => nomatch a.unit

/-- The checked form of `accessAt`. -/
def accessAt? {α : Type} (b : Board NoPeripheral) (place : Place) (access : CheckedAccess α) :
    Option (Option α × Board NoPeripheral) := do
  match place with
  | .bootRom =>
    let (answer, bootRom) ← access _ inferInstance b.bootRom
    return (some answer, { b with bootRom := bootRom })
  | .externalRam =>
    let (answer, externalRam) ← access _ inferInstance b.externalRam
    return (some answer, { b with externalRam := externalRam })
  | .internalRam =>
    let (answer, internalRam) ← access _ inferInstance b.internalRam
    return (some answer, { b with internalRam := internalRam })
  | .cartridge =>
    match b.cartridge with
    | some pak =>
      let (answer, pak) ← access _ inferInstance pak
      return (some answer, { b with cartridge := some pak })
    | none => return (none, b)
  | .dma =>
    let (answer, dma) ← access _ inferInstance b.dma
    return (some answer, { b with dma := dma })
  | .timers =>
    let (answer, timers) ← access _ inferInstance b.timers
    return (some answer, { b with timers := timers })
  | .interrupts =>
    let (answer, interrupts) ← access _ inferInstance b.interrupts
    return (some answer, { b with interrupts := interrupts })
  | .attached _ => return (none, b)

/-- The checked form of `load`. -/
def load? {α : Type} (b : Board NoPeripheral) (address : Word)
    (access : Word → CheckedAccess (Option α)) : Option (Option α × Board NoPeripheral) := do
  match ← b.route? address with
  | some (place, offset) =>
    let (answer, b) ← b.accessAt? place (access offset)
    return (answer.join, b)
  | none => return (none, b)

/-- The checked form of `store`. -/
def store? (b : Board NoPeripheral) (address : Word) (access : Word → CheckedAccess Bool) :
    Option (Bool × Board NoPeripheral) := do
  match ← b.route? address with
  | some (place, offset) =>
    let (answer, b) ← b.accessAt? place (access offset)
    return (answer.getD true, b)
  | none => return (true, b)

instance : CheckedBus (Board NoPeripheral) where
  load8? b address := b.load? address fun offset _ _ bus => CheckedBus.load8? bus offset
  load16? b address := b.load? address fun offset _ _ bus => CheckedBus.load16? bus offset
  load32? b address := b.load? address fun offset _ _ bus => CheckedBus.load32? bus offset
  store8? b address value :=
    b.store? address fun offset _ _ bus => CheckedBus.store8? bus offset value
  store16? b address value :=
    b.store? address fun offset _ _ bus => CheckedBus.store16? bus offset value
  store32? b address value :=
    b.store? address fun offset _ _ bus => CheckedBus.store32? bus offset value

/-- The access is made in both forms, on whatever does not break. -/
def Agree {α : Type} (checked : CheckedAccess α) (access : Access α) : Prop :=
  ∀ (β : Type) [MemoryBus β] [CheckedBus β] (sound : β → Prop), Unbroken sound →
    ∀ bus, sound bus →
      Succeeds sound (checked β inferInstance bus) (access β inferInstance bus)

/-- A board whose timers are timely. -/
def Timely (b : Board NoPeripheral) : Prop := b.timers.Timely

section Accesses

variable {α : Type} {b : Board NoPeripheral}

/-- An access goes to one part of the board, and none of them breaks. The timers are the only part
whose state counts. -/
theorem accessAt?_of_agree (h : b.Timely) (place : Place) {checked : CheckedAccess α}
    {access : Access α} (hagree : Agree checked access) :
    Succeeds Timely (b.accessAt? place checked) (b.accessAt place access) := by
  have hbootRom := hagree _ _ LawfulMemory.unbroken b.bootRom trivial
  have hexternal := hagree _ _ LawfulMemory.unbroken b.externalRam trivial
  have hinternal := hagree _ _ LawfulMemory.unbroken b.internalRam trivial
  have hpak (pak : Cartridge) := hagree _ _ LawfulMemory.unbroken pak trivial
  have hdma := hagree _ _ Dma.unbroken b.dma trivial
  have htimers := hagree _ _ Timers.unbroken b.timers h
  have hinterrupts := hagree _ _ InterruptController.unbroken b.interrupts trivial
  have hnobody := b.attachments_eq_nil
  obtain ⟨bootRom, externalRam, internalRam, cartridge, dma, timers, interrupts, attachments⟩ := b
  -- One device answers. The timers are the only ones whose checks can fail, so the invariant is
  -- passed to them alone.
  cases place with
  | bootRom => exact ⟨by simp only [accessAt?, hbootRom.eq]; rfl, h⟩
  | externalRam => exact ⟨by simp only [accessAt?, hexternal.eq]; rfl, h⟩
  | internalRam => exact ⟨by simp only [accessAt?, hinternal.eq]; rfl, h⟩
  | cartridge =>
    cases cartridge with
    | some pak => exact ⟨by simp only [accessAt?, (hpak pak).eq]; rfl, h⟩
    | none => exact ⟨rfl, h⟩
  | dma => exact ⟨by simp only [accessAt?, hdma.eq]; rfl, h⟩
  | timers => exact ⟨by simp only [accessAt?, htimers.eq]; rfl, htimers.sound⟩
  | interrupts => exact ⟨by simp only [accessAt?, hinterrupts.eq]; rfl, h⟩
  | attached spot =>
    cases hnobody
    exact ⟨rfl, h⟩

/-- A load finds its place and reads there. -/
theorem load?_of_agree (h : b.Timely) (address : Word)
    {checked : Word → CheckedAccess (Option α)} {access : Word → Access (Option α)}
    (hagree : ∀ offset, Agree (checked offset) (access offset)) :
    Succeeds Timely (b.load? address checked) (b.load address access) := by
  simp only [load?, load, route?_eq, Option.bind_eq_bind, Option.bind_some]
  cases b.route address with
  | none => exact ⟨rfl, h⟩
  | some place =>
    have haccess := accessAt?_of_agree h place.1 (hagree place.2)
    exact ⟨by simp only [haccess.eq]; rfl, haccess.sound⟩

/-- A store finds its place and writes there. -/
theorem store?_of_agree (h : b.Timely) (address : Word) {checked : Word → CheckedAccess Bool}
    {access : Word → Access Bool} (hagree : ∀ offset, Agree (checked offset) (access offset)) :
    Succeeds Timely (b.store? address checked) (b.store address access) := by
  simp only [store?, store, route?_eq, Option.bind_eq_bind, Option.bind_some]
  cases b.route address with
  | none => exact ⟨rfl, h⟩
  | some place =>
    have haccess := accessAt?_of_agree h place.1 (hagree place.2)
    exact ⟨by simp only [haccess.eq]; rfl, haccess.sound⟩

end Accesses

/-- No access breaks a board whose timers are timely. -/
theorem unbroken : Unbroken Timely where
  load8 _ h address := load?_of_agree h address fun offset _ _ _ _ hu bus hs =>
    hu.load8 bus hs offset
  load16 _ h address := load?_of_agree h address fun offset _ _ _ _ hu bus hs =>
    hu.load16 bus hs offset
  load32 _ h address := load?_of_agree h address fun offset _ _ _ _ hu bus hs =>
    hu.load32 bus hs offset
  store8 _ h address value := store?_of_agree h address fun offset _ _ _ _ hu bus hs =>
    hu.store8 bus hs offset value
  store16 _ h address value := store?_of_agree h address fun offset _ _ _ _ hu bus hs =>
    hu.store16 bus hs offset value
  store32 _ h address value := store?_of_agree h address fun offset _ _ _ _ hu bus hs =>
    hu.store32 bus hs offset value

end Board

end AdvanceCore
