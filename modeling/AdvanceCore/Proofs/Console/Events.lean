import AdvanceCore.Console
import AdvanceCore.Proofs.Bus.Accesses
import AdvanceCore.Proofs.Interrupts.PowerStates
import AdvanceCore.Proofs.Timers.Advance

/-!
# `AdvanceCore.Proofs.Console.Events`: what happens to a console

A console lives through calls of its host and its own steps. Of the parts of a console the
interrupt controller is the one that everything reaches: programs and DMA blocks write its
registers over the bus, and timers, finished blocks and signals request interrupts.

* `Event`, `Reachable`: calls and steps, and the consoles they lead to.
* `InterruptController.Driven`: what programs and hardware can make of the controller.
* `Board.IsPart`: what an access to the bus does to one of the parts behind it.
* `Board.driven_access`: an access to the bus, by its address.
* `driven_moveBlock`, `driven_catchUp`: what a step does before and after the processor.
-/

set_option autoImplicit false

namespace AdvanceCore

/-! ### Events -/

/-- What a host can do with a console between its steps. -/
inductive HostCall where
  | requestReset
  | signal (s : Signal)
  | setFiqLine (asserted : Bool)
  | enterHalt
  | enterStop
  | access (a : BusAccess)
  deriving DecidableEq, Repr

/-- What can happen to a console. -/
inductive Event where
  | host (call : HostCall)
  | step
  deriving DecidableEq, Repr

namespace Console

variable {π : Type} [Peripheral π]

/-- The console after a call of its host. -/
def call (c : Console π) : HostCall → Console π
  | .requestReset => c.requestReset
  | .signal s => c.signal s
  | .setFiqLine asserted => c.setFiqLine asserted
  | .enterHalt => c.enterHalt
  | .enterStop => c.enterStop
  | .access a => { c with board := a.perform c.board }

/-- The console after an event. -/
def occur (c : Console π) : Event → Console π
  | .host call => c.call call
  | .step => c.step.2

/-- The consoles that events lead to from a new one. -/
inductive Reachable : Console π → Prop where
  | fresh {boot : ByteArray} {rom : Option ByteArray} {attachments : List (Attachment π)}
      {c : Console π} (h : ofImages boot rom attachments = .ok c) : Reachable c
  | occur {c : Console π} (e : Event) (h : Reachable c) : Reachable (c.occur e)

end Console

/-! ### Programs and hardware -/

namespace InterruptController

/-- Programs and DMA blocks write registers, and hardware requests interrupts. A write selects
a power state only if `sleeps`. -/
inductive Operation.ByGuest (sleeps : Prop) : Operation → Prop where
  | write (offset : Nat) (value mask : Half) (h : SelectsPower offset mask → sleeps) :
      ByGuest sleeps (.write offset value mask)
  | raise (source : Interrupt) : ByGuest sleeps (.raise source)

/-- Programs and hardware lead from the first state to the second. -/
abbrev Driven (sleeps : Prop) : InterruptController → InterruptController → Prop :=
  Relation.ReflTransGen fun c c' => ∃ op : Operation, op.ByGuest sleeps ∧ c' = c.perform op

namespace Driven

variable {sleeps : Prop} {c c' : InterruptController}

/-- A program may write any register, if it sleeps only where it may. -/
theorem write (c : InterruptController) {offset : Nat} {mask : Half} (value : Half)
    (h : SelectsPower offset mask → sleeps) :
    Driven sleeps c (c.writeRegister offset value mask).2 :=
  .single ⟨.write offset value mask, .write offset value mask h, rfl⟩

/-- Hardware may raise an interrupt. -/
theorem raise (c : InterruptController) (source : Interrupt) : Driven sleeps c (c.raise source) :=
  .single ⟨.raise source, .raise source, rfl⟩

/-- A rule for sleeping can be loosened. -/
theorem mono {sleeps' : Prop} (hle : sleeps → sleeps') (h : Driven sleeps c c') :
    Driven sleeps' c c' := by
  refine Relation.ReflTransGen.mono ?_ c c' h
  rintro c c' ⟨op, hop, hperform⟩
  cases hop with
  | write offset value mask hselects =>
    exact ⟨_, .write offset value mask fun h => hle (hselects h), hperform⟩
  | raise source => exact ⟨_, .raise source, hperform⟩

end Driven

/-- Looking for a wake-up leaves a requested reset. -/
theorem resetRequested_checkWake (c : InterruptController) :
    c.checkWake.resetRequested = c.resetRequested := by
  rw [checkWake_eq]

/-- Looking for a wake-up puts nobody to sleep. -/
theorem power_checkWake {c : InterruptController} (h : c.power = .run) :
    c.checkWake.power = .run := by
  unfold checkWake
  split
  · rfl
  · exact h

/-- No register write takes a reset back. -/
theorem Written.resetRequested {c next : InterruptController} {offset : Nat} {mask : Half}
    (h : Written c offset mask next) : next.resetRequested = c.resetRequested := by
  cases h with
  | kept => rfl
  | enabled bits => exact resetRequested_checkWake _
  | cleared bits => rfl
  | masterEnable bits => exact resetRequested_checkWake _
  | slept postBoot state => rw [sleep_eq]

/-- Only a write to the power register ends a run. -/
theorem Written.power {c next : InterruptController} {offset : Nat} {mask : Half}
    (h : Written c offset mask next) (hawake : ¬ SelectsPower offset mask)
    (hrun : c.power = .run) : next.power = .run := by
  cases h with
  | kept => exact hrun
  | enabled bits => exact power_checkWake hrun
  | cleared bits => exact hrun
  | masterEnable bits => exact power_checkWake hrun
  | slept postBoot state hstate hselects => exact absurd hselects hawake

/-- Neither programs nor hardware request a reset or take it back. -/
theorem Driven.resetRequested {sleeps : Prop} {c c' : InterruptController}
    (h : Driven sleeps c c') : c'.resetRequested = c.resetRequested := by
  induction h with
  | refl => rfl
  | tail _ hstep ih =>
    obtain ⟨op, hop, rfl⟩ := hstep
    rw [← ih]
    cases hop with
    | write offset value mask => exact (written_writeRegister ..).resetRequested
    | raise source => exact resetRequested_checkWake _

/-- What does not ask for sleep keeps a running console running. -/
theorem Driven.power {sleeps : Prop} {c c' : InterruptController} (h : Driven sleeps c c')
    (hawake : ¬ sleeps) (hrun : c.power = .run) : c'.power = .run := by
  induction h with
  | refl => exact hrun
  | tail _ hstep ih =>
    obtain ⟨op, hop, rfl⟩ := hstep
    cases hop with
    | write offset value mask hselects =>
      exact (written_writeRegister ..).power (fun h => hawake (hselects h)) ih
    | raise source => exact power_checkWake ih

end InterruptController

/-! ### The bus -/

/-- The register that selects a power state is at this address, in its upper byte. -/
def powerAddress : Word := 0x04000300

/-- The same access at another address. -/
def BusAccess.moveTo (a : BusAccess) (address : Word) : BusAccess :=
  match a with
  | .load8 _ => .load8 address
  | .load16 _ => .load16 address
  | .load32 _ => .load32 address
  | .store8 _ value => .store8 address value
  | .store16 _ value => .store16 address value
  | .store32 _ value => .store32 address value

/-- The access stores into the byte that selects a power state. -/
def BusAccess.SelectsPower : BusAccess → Prop
  | .load8 _ | .load16 _ | .load32 _ => False
  | .store8 address _ => address = powerAddress + 1
  | .store16 address _ | .store32 address _ => halfAligned address = powerAddress

namespace Board

open InterruptController

variable {π : Type}

/-- An address in bank 4, from its two parts. -/
theorem toNat_of_bank_eq_four {address : Word} (h : (address >>> 24).toNat = 4) :
    address.toNat = 0x04000000 + (address &&& 0x00FFFFFF).toNat := by
  have hbank : address.toNat / 2 ^ 24 = 4 := by
    rw [← Nat.shiftRight_eq_div_pow, ← BitVec.toNat_ushiftRight]
    exact h
  have hlow : (address &&& 0x00FFFFFF).toNat = address.toNat % 2 ^ 24 :=
    Bits.toNat_and_mask (n := 24) address rfl
  omega

/-- Who answers in bank 4 does so for a stretch of its own. -/
theorem routeIo_eq_some {b : Board π} {low offset : Word} {place : Place}
    (h : b.routeIo low = some (place, offset)) :
    (place = .dma ∧ low.toNat = 0x0B0 + offset.toNat ∧ offset.toNat < 0x30) ∨
    (place = .timers ∧ low.toNat = 0x100 + offset.toNat ∧ offset.toNat < 0x10) ∨
    (place = .interrupts ∧ low.toNat = 0x200 + offset.toNat ∧
      (offset.toNat < 12 ∨ offset = 0x100 ∨ offset = 0x101)) ∨
    ∃ spot, place = .attached spot := by
  have hsub (start : Word) (hle : start.toNat ≤ low.toNat) :
      low.toNat = start.toNat + (low - start).toNat := by
    rw [BitVec.toNat_sub_of_le hle]
    omega
  -- One case for each block, in the order in which the router asks them.
  unfold routeIo at h
  dsimp only at h
  split at h
  · next hrange =>
    cases h
    have hoffset := hsub 0x0B0 hrange.1
    change _ = 0x0B0 + _ at hoffset
    exact .inl ⟨rfl, hoffset, by omega⟩
  split at h
  · next hrange =>
    cases h
    have hoffset := hsub 0x100 hrange.1
    change _ = 0x100 + _ at hoffset
    exact .inr (.inl ⟨rfl, hoffset, by omega⟩)
  split at h
  · next hrange =>
    cases h
    have hoffset := hsub 0x200 (show 0x200 ≤ low.toNat by omega)
    change _ = 0x200 + _ at hoffset
    refine .inr (.inr (.inl ⟨rfl, hoffset, ?_⟩))
    rcases hrange with hrange | hrange
    · exact .inl (by omega)
    · have hpower : (low - 0x200).toNat = 0x100 ∨ (low - 0x200).toNat = 0x101 := by omega
      exact .inr (hpower.imp BitVec.eq_of_toNat_eq BitVec.eq_of_toNat_eq)
  split at h
  · cases h
    exact .inr (.inr (.inr ⟨_, rfl⟩))
  · cases h

/-- The blocks of registers are all in bank 4. -/
theorem route_registers {b : Board π} {address offset : Word} {place : Place}
    (h : b.route address = some (place, offset))
    (hplace : place = .dma ∨ place = .timers ∨ place = .interrupts) :
    ∃ low : Word, address.toNat = 0x04000000 + low.toNat ∧
      b.routeIo low = some (place, offset) := by
  unfold route at h
  dsimp only at h
  -- Every bank but the fourth belongs to somebody else.
  split at h
  · cases h
    simp at hplace
  split at h
  · cases h
    simp at hplace
  split at h
  · cases h
    simp at hplace
  split at h
  · next hbank => exact ⟨_, toNat_of_bank_eq_four hbank, h⟩
  split at h
  · unfold routeOpen at h
    split at h
    · cases h
      simp at hplace
    split at h
    · cases h
      simp at hplace
    · cases h
  · cases h

/-- The registers of the controller are in two places of bank 4. -/
theorem route_interrupts {b : Board π} {address offset : Word}
    (h : b.route address = some (.interrupts, offset)) :
    address = 0x04000200 + offset ∧ (offset.toNat < 12 ∨ offset = 0x100 ∨ offset = 0x101) := by
  obtain ⟨low, haddress, hlow⟩ := route_registers h (.inr (.inr rfl))
  obtain ⟨hplace, -⟩ | ⟨hplace, -⟩ | ⟨-, hoffset, hrange⟩ | ⟨spot, hplace⟩ :=
    routeIo_eq_some hlow
  · cases hplace
  · cases hplace
  · refine ⟨BitVec.eq_of_toNat_eq ?_, hrange⟩
    rw [BitVec.toNat_add]
    show _ = (0x04000200 + _) % 2 ^ 32
    omega
  · cases hplace

variable [Peripheral π]

/-- A bus on the board that an access either goes to or leaves as it is. -/
def IsPart {γ : Type} [MemoryBus γ] (part : Board π → γ) : Prop :=
  ∀ {α : Type} (b : Board π) (place : Place) (access : Access α),
    part (b.accessAt place access).2 = part b ∨
      part (b.accessAt place access).2 = (access γ inferInstance (part b)).2

namespace IsPart

variable {γ : Type} [MemoryBus γ] {part : Board π → γ}

/-- A load reaches one part of the board, which sees one access or none. -/
theorem load {α : Type} (h : IsPart part) (b : Board π) (address : Word)
    (access : Word → Access (Option α)) :
    part (b.load address access).2 = part b ∨
      ∃ offset, part (b.load address access).2 = (access offset γ inferInstance (part b)).2 := by
  unfold Board.load
  split
  · next place offset _ => exact (h b place (access offset)).imp_right fun heq => ⟨offset, heq⟩
  · exact .inl rfl

/-- A store reaches one part of the board, which sees one access or none. -/
theorem store (h : IsPart part) (b : Board π) (address : Word) (access : Word → Access Bool) :
    part (b.store address access).2 = part b ∨
      ∃ offset, part (b.store address access).2 = (access offset γ inferInstance (part b)).2 := by
  unfold Board.store
  split
  · next place offset _ => exact (h b place (access offset)).imp_right fun heq => ⟨offset, heq⟩
  · exact .inl rfl

/-- An access to the board is none to the part, or the same at an offset of the part. -/
theorem perform (h : IsPart part) (b : Board π) (a : BusAccess) :
    part (a.perform b) = part b ∨
      ∃ offset, part (a.perform b) = (a.moveTo offset).perform (part b) := by
  cases a with
  | load8 address => exact h.load b address fun offset _ _ bus => MemoryBus.load8 bus offset
  | load16 address => exact h.load b address fun offset _ _ bus => MemoryBus.load16 bus offset
  | load32 address => exact h.load b address fun offset _ _ bus => MemoryBus.load32 bus offset
  | store8 address value =>
    exact h.store b address fun offset _ _ bus => MemoryBus.store8 bus offset value
  | store16 address value =>
    exact h.store b address fun offset _ _ bus => MemoryBus.store16 bus offset value
  | store32 address value =>
    exact h.store b address fun offset _ _ bus => MemoryBus.store32 bus offset value

end IsPart

/-- The registers of the interrupts change by accesses to them only. -/
theorem interrupts_accessAt {α : Type} (b : Board π) (place : Place) (access : Access α) :
    (b.accessAt place access).2.interrupts =
      if place = .interrupts then (access _ inferInstance b.interrupts).2 else b.interrupts := by
  obtain ⟨bootRom, externalRam, internalRam, cartridge, dma, timers, interrupts, attachments⟩ := b
  cases place with
  | cartridge => cases cartridge <;> rfl
  | _ => rfl

/-- A register is not changed by being read. -/
theorem interrupts_load {α : Type} (b : Board π) (address : Word)
    (access : Word → Access (Option α))
    (hreads : ∀ offset (c : InterruptController), (access offset _ inferInstance c).2 = c) :
    (b.load address access).2.interrupts = b.interrupts := by
  unfold load
  split
  · next place offset hroute =>
    show (b.accessAt place (access offset)).2.interrupts = _
    rw [interrupts_accessAt, hreads, ite_self]
  · rfl

/-- A store drives the controller if it does so at each of its places. -/
theorem driven_store {sleeps : Prop} {b : Board π} {address : Word}
    {access : Word → Access Bool}
    (hwrites : ∀ offset, b.route address = some (.interrupts, offset) →
      Driven sleeps b.interrupts (access offset _ inferInstance b.interrupts).2) :
    Driven sleeps b.interrupts (b.store address access).2.interrupts := by
  unfold store
  split
  · next place offset hroute =>
    show Driven sleeps _ (b.accessAt place (access offset)).2.interrupts
    rw [interrupts_accessAt]
    split
    · next hplace =>
      rw [hplace] at hroute
      exact hwrites offset hroute
    · exact .refl
  · exact .refl

/-- Aligning does not lead upwards. -/
theorem halfAligned_le (address : Word) : (halfAligned address).toNat ≤ address.toNat := by
  unfold halfAligned
  rw [BitVec.toNat_and]
  exact Nat.and_le_left

omit [Peripheral π] in
/-- Whether as its only register or as the second one of a word, the power register is reached from
its own address, aligned or not. -/
theorem halfAligned_eq_of_route_power {b : Board π} {address offset : Word}
    (hroute : b.route address = some (.interrupts, offset))
    (hpower : (halfAligned offset).toNat = 0x100 ∨ (halfAligned (offset + 2)).toNat = 0x100) :
    halfAligned address = powerAddress := by
  obtain ⟨rfl, hlow | rfl | rfl⟩ := route_interrupts hroute
  · -- The block of the controller ends far below, also with the two bytes behind it.
    have hle := halfAligned_le offset
    have hle' := halfAligned_le (offset + 2)
    have hnext : (offset + 2).toNat = offset.toNat + 2 := by
      rw [BitVec.toNat_add]
      show (offset.toNat + 2) % 2 ^ 32 = _
      omega
    omega
  · rfl
  · rfl

/-- A loaded register is not changed, and of the stored ones only the last selects a power
state. -/
theorem driven_access (b : Board π) (a : BusAccess) :
    Driven a.SelectsPower b.interrupts (a.perform b).interrupts := by
  have hread {bus : Board π} (h : bus.interrupts = b.interrupts) :
      Driven a.SelectsPower b.interrupts bus.interrupts := by
    rw [h]
  cases a with
  | load8 address => exact hread (b.interrupts_load address _ fun _ _ => rfl)
  | load16 address => exact hread (b.interrupts_load address _ fun _ _ => rfl)
  | load32 address => exact hread (b.interrupts_load address _ fun _ _ => rfl)
  | store8 address value =>
    refine driven_store fun offset hroute => Driven.write b.interrupts _ ?_
    -- The lower byte of the register is under a mask that does not reach the upper one.
    rintro ⟨hoffset, hmask⟩
    obtain ⟨rfl, hlow | rfl | rfl⟩ := route_interrupts hroute
    · have hle := halfAligned_le offset
      omega
    · exact absurd rfl hmask
    · rfl
  | store16 address value =>
    exact driven_store fun offset hroute => Driven.write b.interrupts _ fun hselects =>
      halfAligned_eq_of_route_power hroute (.inl hselects.1)
  | store32 address value =>
    refine driven_store fun offset hroute => ?_
    -- Two registers are written, and the second may be the one that selects.
    have hfirst : Driven (BusAccess.store32 address value).SelectsPower b.interrupts
        (RegisterBlock.storeHalf b.interrupts offset (value.extractLsb' 0 16)).2 :=
      .write _ _ fun hselects => halfAligned_eq_of_route_power hroute (.inl hselects.1)
    exact hfirst.trans (Driven.write _ _ fun hselects =>
      halfAligned_eq_of_route_power hroute (.inr hselects.1))

/-- A number of accesses drives the controller as one does. -/
theorem driven_accessed {sleeps : Prop} {allowed : BusAccess → Prop} {b b' : Board π}
    (hselects : ∀ a, allowed a → a.SelectsPower → sleeps) (h : Accessed allowed b b') :
    Driven sleeps b.interrupts b'.interrupts := by
  induction h with
  | refl => exact .refl
  | tail _ hstep ih =>
    obtain ⟨a, ha, rfl⟩ := hstep
    exact ih.trans ((driven_access _ a).mono (hselects a ha))

end Board

/-! ### Hardware -/

section Hardware

open InterruptController

/-- A wrap raises an interrupt at most. -/
theorem TimerRun.driven_announce (run : TimerRun) (i : TimerId) :
    Driven False run.interrupts (run.announce i).interrupts := by
  unfold announce
  dsimp only
  split
  · exact .raise ..
  · exact .refl

/-- A wrap raises an interrupt at each timer that it is handed on to. -/
theorem TimerRun.driven_overflow (run : TimerRun) (i : TimerId) :
    Driven False run.interrupts (run.overflow i).interrupts := by
  fun_induction overflow run i with
  | case1 run i run' _ _ _ _ _ ih => exact (run.driven_announce i).trans ih
  | case2 run i => exact run.driven_announce i
  | case3 run i => exact run.driven_announce i
  | case4 run i => exact run.driven_announce i

/-- All wraps on the way to a target only raise interrupts. -/
theorem TimerRun.driven_advance (run : TimerRun) (target : Nat) :
    Driven False run.interrupts (run.advance target).interrupts := by
  fun_induction advance run target with
  | case1 run w h ih =>
    have hhandle : Driven False run.interrupts (run.handle w).interrupts :=
      (run.rearm w).driven_overflow w.timer
    exact hhandle.trans ih
  | case2 => exact .refl

/-- The end of a block raises an interrupt at most. -/
theorem Dma.driven_finish (d : Dma) (t : DmaTransfer) (c : InterruptController) :
    Driven False c (d.finish t c).2 := by
  unfold finish
  dsimp only
  split
  · exact .raise ..
  · exact .refl

/-- A unit of the block is stored where a power state is selected. -/
def DmaTransfer.SelectsPower (t : DmaTransfer) : Prop :=
  ∃ k < t.count, halfAligned (t.destinationAt k) = powerAddress

variable {π : Type}

/-- A signal does the same. Those for the DMA channels do not even reach the controller. -/
theorem Board.driven_apply (b : Board π) (s : Signal) :
    Driven False b.interrupts (b.apply s).interrupts := by
  cases s with
  | interrupt source => exact .raise b.interrupts source
  | _ => exact .refl

/-- Several signals only raise interrupts. -/
theorem Board.driven_foldl_apply (b : Board π) (signals : List Signal) :
    Driven False b.interrupts (signals.foldl apply b).interrupts := by
  induction signals generalizing b with
  | nil => exact .refl
  | cons s rest ih => exact (b.driven_apply s).trans (ih (b.apply s))

namespace Console

variable [Peripheral π]

/-- Timers and attached units only raise interrupts as they catch up. -/
theorem driven_catchUp (c : Console π) (elapsed : Nat) (advancesTimers : Bool) :
    Driven False c.board.interrupts (c.catchUp elapsed advancesTimers).board.interrupts := by
  have htimers : Driven False c.board.interrupts (c.board.stepTimers elapsed).2.interrupts :=
    TimerRun.driven_advance { timers := c.board.timers, interrupts := c.board.interrupts } _
  -- The attached units only report signals.
  have hsignals (b : Board π) (wraps : Array SoundTimerId) :
      Driven False b.interrupts
        ((b.stepAttachments wraps elapsed).1.foldl Board.apply
          (b.stepAttachments wraps elapsed).2).interrupts := by
    rw [← Array.foldl_toList]
    exact Board.driven_foldl_apply (b.stepAttachments wraps elapsed).2 _
  cases advancesTimers with
  | true => exact htimers.trans (hsignals _ _)
  | false => exact hsignals c.board #[]

/-- A block drives the controller as its stores do. -/
theorem driven_moveBlock (c : Console π) (t : DmaTransfer) :
    Driven t.SelectsPower c.board.interrupts (c.moveBlock t).2.board.interrupts := by
  -- The block reaches the controller through its own stores, and it ends by raising its request.
  have hrun : Driven t.SelectsPower c.board.interrupts (t.run c.board).2.interrupts := by
    refine Board.driven_accessed (fun a hkeeps hselects => ?_) (t.accessed_run c.board)
    cases a with
    | load8 | load16 | load32 => exact hselects.elim
    | store8 address value =>
      obtain ⟨k, hk, haddress⟩ := hkeeps address rfl
      refine ⟨k, hk, ?_⟩
      rw [haddress, hselects]
      rfl
    | store16 address value | store32 address value =>
      obtain ⟨k, hk, haddress⟩ := hkeeps address rfl
      refine ⟨k, hk, ?_⟩
      rw [haddress]
      exact hselects
  exact hrun.trans ((Dma.driven_finish ..).mono False.elim)

end Console

end Hardware

end AdvanceCore
