import AdvanceCore.Dma.Unit
import AdvanceCore.Proofs.Dma.Blocks

/-!
# `AdvanceCore.Proofs.Dma.Lifecycle`: when a DMA channel is on and when it is active

A channel is switched on and off by its control register, made active by a write or by a
signal, and completed after its block. While the block moves, the bus may write the registers
of any channel, its own included, and what completes the channel then finds other registers
than the block has begun with.

* `DmaChannel.Written`, `DmaChannel.Signalled`: what a write or a signal can make of a channel.
* `DmaChannel.Sound`: an active channel is on, and one that is on has a block to move.
* `Dma.Starts`, `Dma.InOrder`: what makes an idle channel active, and that nothing else does.
* `Dma.BlockStep`, `Dma.BlockInOrder`: the same at every access of a block.
* `Dma.Reachable`: the states that writes, signals and moved blocks lead to.
* `Dma.lifecycle_of_reachable`: all of this for every reachable state.
-/

set_option autoImplicit false

namespace AdvanceCore

/-! ### One channel -/

namespace DmaChannel

/-- A block can have units. -/
theorem maxCount_pos (i : DmaId) : 0 < maxCount i := by
  unfold maxCount
  split <;> decide

/-- A count of zero stands for the greatest one, so no block is empty. -/
theorem one_le_blockCount (c : DmaChannel) (i : DmaId) : 1 ≤ c.blockCount i := by
  have hmax := maxCount_pos i
  unfold blockCount
  dsimp only
  split <;> omega

/-- Every other count is smaller. -/
theorem blockCount_le (c : DmaChannel) (i : DmaId) : c.blockCount i ≤ maxCount i := by
  have hlt := Nat.mod_lt c.count.toNat (maxCount_pos i)
  unfold blockCount
  dsimp only
  split <;> omega

/-- What a write to a register can make of a channel. -/
inductive Written (c : DmaChannel) (i : DmaId) : DmaChannel → Prop where
  /-- The channel stays on or off. -/
  | programmed (source destination : Word) (count : Half) (control : DmaControl)
      (h : control.enabled = c.control.enabled) :
      Written c i
        { c with source := source, destination := destination, count := count, control := control }
  | switchedOff (control : DmaControl) (h : control.enabled = false) :
      Written c i { c with control := control, active := false }
  | switchedOn (control : DmaControl) (hoff : c.control.enabled = false)
      (hon : control.enabled = true) :
      Written c i
        { latch { c with control := control } i with active := control.timing = .immediate }

/-- What a signal can make of a channel. -/
inductive Signalled (c : DmaChannel) : DmaChannel → Prop where
  | ignored : Signalled c c
  | started (h : c.control.enabled = true) : Signalled c { c with active := true }
  | ended : Signalled c { c.disable with active := false }

/-- Writing a register with what it holds leaves the channel. -/
theorem Written.kept (c : DmaChannel) (i : DmaId) : Written c i c :=
  .programmed c.source c.destination c.count c.control rfl

/-- Whether the enable bit rises, falls or stays decides which of the three it is. -/
theorem written_writeControl (c : DmaChannel) (i : DmaId) (value mask : Half) :
    Written c i (c.writeControl i value mask) := by
  unfold writeControl
  dsimp only
  split
  · next hoff => exact .switchedOff _ (by simpa using hoff)
  split
  · next hon hbefore => exact .switchedOn _ (by simpa using hbefore) (by simpa using hon)
  · next hon hbefore =>
    refine .programmed c.source c.destination c.count _ ?_
    have hboth : c.control.enabled = true ∧
        (DmaControl.mk (Bits.merge c.control.word value mask)).enabled = true := by
      simp_all
    rw [hboth.1, hboth.2]

/-- A channel that is disabled is off. -/
theorem enabled_disable (c : DmaChannel) : c.disable.control.enabled = false :=
  Bits.getLsbD_setBit c.control.word 15 15 false (by decide)

/-- What holds of a channel at all times: it is only active while it is on, and while it is on
it has a block of some units to move. -/
structure Sound (c : DmaChannel) (i : DmaId) : Prop where
  enabled_of_active : c.active = true → c.control.enabled = true
  count_pos : c.control.enabled = true → 1 ≤ c.latched.count
  count_le : c.control.enabled = true → c.latched.count ≤ maxCount i

/-- A channel that is off and not active is sound. -/
theorem Sound.off {c : DmaChannel} {i : DmaId} (hoff : c.control.enabled = false)
    (hidle : c.active = false) : c.Sound i := by
  have hnever {p : Prop} (hon : c.control.enabled = true) : p := by
    rw [hoff] at hon
    cases hon
  refine ⟨fun hactive => ?_, hnever, hnever⟩
  rw [hidle] at hactive
  cases hactive

/-- Switching a channel on gives it a count. -/
theorem Sound.written {c c' : DmaChannel} {i : DmaId} (h : c.Sound i) (hwritten : c.Written i c') :
    c'.Sound i := by
  cases hwritten with
  | programmed source destination count control henabled =>
    exact ⟨fun hactive => henabled.trans (h.enabled_of_active hactive),
      fun hon => h.count_pos (henabled.symm.trans hon),
      fun hon => h.count_le (henabled.symm.trans hon)⟩
  | switchedOff control hoff => exact .off hoff rfl
  | switchedOn control hoff hon =>
    exact ⟨fun _ => hon, fun _ => one_le_blockCount _ i, fun _ => blockCount_le _ i⟩

/-- A signal only starts a channel that is on. -/
theorem Sound.signalled {c c' : DmaChannel} {i : DmaId} (h : c.Sound i)
    (hsignalled : c.Signalled c') : c'.Sound i := by
  cases hsignalled with
  | ignored => exact h
  | started hon => exact ⟨fun _ => hon, h.count_pos, h.count_le⟩
  | ended => exact .off (enabled_disable c) rfl

/-- The end of a block leaves its channel idle, whether it repeats or not. -/
@[simp] theorem active_complete (c : DmaChannel) (i : DmaId) (source destination : Word) :
    (c.complete i source destination).active = false := by
  unfold complete
  dsimp only
  split <;> rfl

/-- A completed channel is off or has a full count again. -/
theorem Sound.complete (c : DmaChannel) (i : DmaId) (source destination : Word) :
    (c.complete i source destination).Sound i := by
  unfold DmaChannel.complete
  dsimp only
  split
  · exact ⟨fun hactive => Bool.noConfusion hactive, fun _ => one_le_blockCount _ i,
      fun _ => blockCount_le _ i⟩
  · exact .off (enabled_disable _) rfl

end DmaChannel

namespace Dma

open DmaChannel

/-! ### Writes and signals -/

/-- What is done to the channels from outside. -/
inductive Operation where
  | write (offset : Nat) (value mask : Half)
  | vblank
  | hblank (line : Nat)
  | fifoRefresh (fifo : Nat)
  deriving DecidableEq, Repr

/-- The channels after an operation. -/
def perform (d : Dma) : Operation → Dma
  | .write offset value mask => (d.writeRegister offset value mask).2
  | .vblank => d.signalVblank
  | .hblank line => d.signalHblank line
  | .fifoRefresh fifo => d.signalFifo fifo

/-- A trigger makes the channels active that are on and wait for it. -/
@[simp] theorem get_trigger (d : Dma) (waits : DmaId → DmaChannel → Bool) (i : DmaId) :
    (d.trigger waits).get i =
      if (d.get i).control.enabled && waits i (d.get i) then { d.get i with active := true }
      else d.get i :=
  d.get_mapChannels _ i

/-- The line of a picture reaches a channel that waits for lines, or the one that captures
them. -/
theorem get_signalHblank (d : Dma) (line : Nat) (i : DmaId) :
    (d.signalHblank line).get i =
      if (d.get i).capturesLines i then capture (d.get i) line
      else if line < 160 ∧ (d.get i).control.enabled ∧ (d.get i).control.timing = .hblank then
        { d.get i with active := true }
      else d.get i := by
  unfold signalHblank
  dsimp only
  rw [get_mapChannels]
  split
  · next hline =>
    rw [get_trigger]
    by_cases hwaits : (d.get i).control.enabled = true ∧ (d.get i).control.timing = .hblank
    · -- A channel that waits for lines does not capture them.
      simp [capturesLines, hwaits, hline]
    · simp [hwaits]
  · next hline => simp [hline]

/-- A write reaches one channel at most. -/
theorem written_writeRegister (d : Dma) (offset : Nat) (value mask : Half) (i : DmaId) :
    (d.get i).Written i ((d.writeRegister offset value mask).2.get i) := by
  unfold writeRegister
  split
  · next j r hregister =>
    dsimp only
    rw [get_set]
    split
    · next hij =>
      subst hij
      cases r with
      | control => exact written_writeControl ..
      | _ => exact .programmed _ _ _ _ rfl
    · exact .kept ..
  · exact .kept ..

/-- A trigger signals every channel, if only to be ignored. -/
theorem signalled_trigger (d : Dma) (waits : DmaId → DmaChannel → Bool) (i : DmaId) :
    (d.get i).Signalled ((d.trigger waits).get i) := by
  rw [get_trigger]
  split
  · next hwaits => exact .started (Bool.and_eq_true_iff.mp hwaits).1
  · exact .ignored

/-- A line does so as well, and it may end a channel that captures lines. -/
theorem signalled_signalHblank (d : Dma) (line : Nat) (i : DmaId) :
    (d.get i).Signalled ((d.signalHblank line).get i) := by
  -- Video capture on channel 3, then the channels that wait for H-Blank, then all others.
  rw [get_signalHblank]
  split
  · next hcaptures =>
    have hon : (d.get i).control.enabled = true := by
      simp only [capturesLines, Bool.and_eq_true] at hcaptures
      exact hcaptures.1.1
    unfold capture
    split
    · exact .started hon
    split
    · exact .ended
    · exact .ignored
  split
  · next hwaits => exact .started hwaits.2.1
  · exact .ignored

/-- An operation is a write or a signal for every channel. -/
theorem written_or_signalled_perform (d : Dma) (op : Operation) (i : DmaId) :
    (d.get i).Written i ((d.perform op).get i) ∨ (d.get i).Signalled ((d.perform op).get i) := by
  cases op with
  | write offset value mask => exact .inl (d.written_writeRegister ..)
  | vblank => exact .inr (d.signalled_trigger ..)
  | hblank line => exact .inr (d.signalled_signalHblank ..)
  | fifoRefresh fifo => exact .inr (d.signalled_trigger ..)

/-- No operation makes a sound channel unsound. -/
theorem sound_perform {i : DmaId} (d : Dma) (op : Operation) (h : (d.get i).Sound i) :
    ((d.perform op).get i).Sound i := by
  rcases d.written_or_signalled_perform op i with hwritten | hsignalled
  · exact h.written hwritten
  · exact h.signalled hsignalled

/-- The channel waits for the operation: it is switched on with immediate timing, or it is on
and the signal is its own. -/
def Starts (d : Dma) (i : DmaId) : Operation → Prop
  | .write offset value mask =>
    let after := (d.perform (.write offset value mask)).get i
    (d.get i).control.enabled = false ∧ after.control.enabled = true ∧
      after.control.timing = .immediate
  | .vblank => (d.get i).control.enabled = true ∧ (d.get i).control.timing = .vblank
  | .hblank line =>
    (d.get i).control.enabled = true ∧
      ((d.get i).control.timing = .hblank ∧ line < 160 ∨
        i = 3 ∧ (d.get i).control.timing = .special ∧ 2 ≤ line ∧ line ≤ 161)
  | .fifoRefresh fifo =>
    (d.get i).control.enabled = true ∧ (d.get i).control.timing = .special ∧ (i = 1 ∨ i = 2) ∧
      (d.get i).latched.destination = fifoAddress fifo

/-- A channel that is not active becomes so by what it waits for, and by nothing else. -/
theorem active_perform_iff {d : Dma} {i : DmaId} (hidle : (d.get i).active = false)
    (op : Operation) : ((d.perform op).get i).active = true ↔ d.Starts i op := by
  -- By the kind of event. What a write does to a channel is `written_writeRegister`, and each
  -- signal makes tests of its own.
  cases op with
  | write offset value mask =>
    have hwritten := d.written_writeRegister offset value mask i
    unfold Starts perform
    dsimp only
    generalize (d.writeRegister offset value mask).2.get i = after at hwritten ⊢
    cases hwritten with
    | programmed source destination count control henabled => simp_all
    | switchedOff control hoff => simp [hoff]
    | switchedOn control hoff hon => simp [latch, hoff, hon]
  | vblank =>
    unfold Starts perform signalVblank
    rw [get_trigger]
    split <;> simp_all
  | hblank line =>
    unfold Starts perform
    dsimp only
    rw [get_signalHblank]
    by_cases hcaptures : (d.get i).capturesLines i = true
    · rw [if_pos hcaptures]
      simp only [capturesLines, Bool.and_eq_true, decide_eq_true_eq] at hcaptures
      obtain ⟨⟨hon, hspecial⟩, hlast⟩ := hcaptures
      unfold capture
      split
      · simp_all
      split <;> simp_all
    · rw [if_neg hcaptures]
      simp only [capturesLines, Bool.and_eq_true, decide_eq_true_eq] at hcaptures
      split
      · simp_all
      · grind
  | fifoRefresh fifo =>
    unfold Starts perform signalFifo
    rw [get_trigger]
    split <;> simp_all [feedsFifo]

/-- The first channel waits for no special signal. -/
theorem not_starts_of_special {d : Dma} {op : Operation}
    (hspecial : ((d.perform op).get 0).control.timing = .special) : ¬ d.Starts 0 op := by
  -- A signal keeps the control and starts channel 0 by another timing. A write starts it at
  -- immediate timing. The FIFO and the capture are for other channels.
  cases op with
  | write offset value mask =>
    rintro ⟨-, -, himmediate⟩
    rw [hspecial] at himmediate
    cases himmediate
  | vblank =>
    rintro ⟨hon, hvblank⟩
    have hkept : ((d.perform .vblank).get 0).control = (d.get 0).control := by
      unfold perform signalVblank
      rw [get_trigger]
      split <;> rfl
    rw [hkept, hvblank] at hspecial
    cases hspecial
  | hblank line =>
    rintro ⟨hon, ⟨hhblank, hline⟩ | ⟨hlast, -⟩⟩
    · have hkept : ((d.perform (.hblank line)).get 0).control = (d.get 0).control := by
        unfold perform
        dsimp only
        rw [get_signalHblank]
        simp only [hhblank, hon, hline, capturesLines]
        rfl
      rw [hkept, hhblank] at hspecial
      cases hspecial
    · exact absurd hlast (by decide)
  | fifoRefresh fifo =>
    rintro ⟨-, -, hchannel, -⟩
    exact absurd hchannel (by decide)

/-- What an operation makes of a channel is in order: an idle channel becomes active exactly if
the operation starts it, and the first one never while its timing is special. -/
structure InOrder (d : Dma) (i : DmaId) (op : Operation) : Prop where
  active_iff : (d.get i).active = false → (((d.perform op).get i).active = true ↔ d.Starts i op)
  special : i = 0 → (d.get i).active = false →
    ((d.perform op).get i).control.timing = .special → ((d.perform op).get i).active = false

/-- Every operation is in order, whatever the channels are like. -/
theorem inOrder (d : Dma) (i : DmaId) (op : Operation) : d.InOrder i op where
  active_iff hidle := active_perform_iff hidle op
  special := by
    rintro rfl hidle hspecial
    rw [← Bool.not_eq_true, active_perform_iff hidle]
    exact not_starts_of_special hspecial

/-! ### Writes of a bus -/

/-- Writes to the registers lead from the first state to the second. -/
abbrev Rewritten : Dma → Dma → Prop :=
  Relation.ReflTransGen fun d d' => ∃ offset value mask, d' = d.perform (.write offset value mask)

/-- A register write is one of them. -/
theorem Rewritten.write (d : Dma) (offset : Nat) (value mask : Half) :
    Rewritten d (d.writeRegister offset value mask).2 :=
  .single ⟨offset, value, mask, rfl⟩

/-- What every operation preserves is preserved by any number of writes. -/
theorem Rewritten.preserves {p : Dma → Prop} (hperform : ∀ d op, p d → p (d.perform op))
    {d d' : Dma} (h : Rewritten d d') (hp : p d) : p d' := by
  induction h with
  | refl => exact hp
  | tail _ hwrite ih =>
    obtain ⟨offset, value, mask, rfl⟩ := hwrite
    exact hperform _ _ ih

/-- A write to a register of the channels. -/
structure RegisterWrite where
  offset : Nat
  value : Half
  mask : Half
  deriving DecidableEq, Repr

/-- A write to a register as an operation. -/
def RegisterWrite.operation (w : RegisterWrite) : Operation := .write w.offset w.value w.mask

/-- The channels after writes to their registers, one after the other. -/
def afterWrites (d : Dma) (writes : List RegisterWrite) : Dma :=
  writes.foldl (fun d w => d.perform w.operation) d

/-- Channels that writes lead to come about by a list of them. -/
theorem Rewritten.exists_writes {d d' : Dma} (h : Rewritten d d') :
    ∃ writes, d' = d.afterWrites writes := by
  induction h with
  | refl => exact ⟨[], rfl⟩
  | tail _ hwrite ih =>
    obtain ⟨writes, rfl⟩ := ih
    obtain ⟨offset, value, mask, rfl⟩ := hwrite
    refine ⟨writes ++ [⟨offset, value, mask⟩], ?_⟩
    unfold afterWrites
    rw [List.foldl_append]
    rfl

/-- A list of writes leads from the channels before it to those after it. -/
theorem rewritten_afterWrites (d : Dma) (writes : List RegisterWrite) :
    Rewritten d (d.afterWrites writes) := by
  induction writes generalizing d with
  | nil => exact .refl
  | cons w rest ih => exact .head ⟨w.offset, w.value, w.mask, rfl⟩ (ih (d.perform w.operation))

/-- The channels that a bus leads to change by writes to their registers only. -/
def ReachedBy {β : Type} [MemoryBus β] (channels : β → Dma) : Prop :=
  ∀ bus a, Rewritten (channels bus) (channels (BusAccess.perform bus a))

variable {β : Type} [MemoryBus β] {channels : β → Dma}

/-- Then several accesses write registers of the channels at most. -/
theorem ReachedBy.accessed (h : ReachedBy channels) {allowed : BusAccess → Prop} {bus bus' : β}
    (haccessed : Accessed allowed bus bus') : Rewritten (channels bus) (channels bus') := by
  induction haccessed with
  | refl => exact .refl
  | tail _ hstep ih =>
    obtain ⟨a, -, rfl⟩ := hstep
    exact ih.trans (h _ a)

/-- The accesses of a list write registers of the channels at most. -/
theorem ReachedBy.foldl (h : ReachedBy channels) (bus : β) (accesses : List BusAccess) :
    Rewritten (channels bus) (channels (accesses.foldl BusAccess.perform bus)) := by
  induction accesses generalizing bus with
  | nil => exact .refl
  | cons a rest ih => exact (h bus a).trans (ih (a.perform bus))

/-- The unit is a bus itself. A word is written as two registers. -/
theorem reachedBy_id : ReachedBy (id : Dma → Dma) := by
  intro d a
  cases a with
  | load8 | load16 | load32 => exact .refl
  | store8 | store16 => exact .write ..
  | store32 address value =>
    let first := RegisterBlock.storeHalf d address (value.extractLsb' 0 16)
    exact (Rewritten.write d _ _ _).trans (Rewritten.write first.2 _ _ _)

/-- A block makes accesses only, so it writes registers of the channels at most. -/
theorem rewritten_run (h : ReachedBy channels) (bus : β) (t : DmaTransfer) :
    Rewritten (channels bus) (channels (t.run bus).2) :=
  h.accessed (t.accessed_run bus)

/-- The end of a block completes its channel, and leaves the others. -/
theorem get_finish (d : Dma) (t : DmaTransfer) (interrupts : InterruptController) (i : DmaId) :
    (d.finish t interrupts).1.get i =
      if t.channel = i then (d.get i).complete i t.source t.destination else d.get i := by
  unfold finish
  dsimp only
  rw [get_set]
  split
  · next hi =>
    subst hi
    rfl
  · rfl

/-- Moves a block over a bus that leads to the channels, and completes its channel as it has
become by then. -/
def moved (channels : β → Dma) (bus : β) (t : DmaTransfer) : Dma :=
  ((channels (t.run bus).2).finish (t.run bus).1 {}).1

/-- A moved block completes its channel as the bus has left it by then. -/
theorem get_moved (channels : β → Dma) (bus : β) (t : DmaTransfer) (i : DmaId) :
    (moved channels bus t).get i =
      if t.channel = i then
        ((channels (t.run bus).2).get i).complete i (t.run bus).1.source (t.run bus).1.destination
      else (channels (t.run bus).2).get i := by
  unfold moved
  rw [get_finish, t.channel_run]

/-- A moved block leaves every channel sound: its own is completed, and the others have only been
written. -/
theorem sound_moved (h : ReachedBy channels) {bus : β} {i : DmaId}
    (hsound : ((channels bus).get i).Sound i) (t : DmaTransfer) :
    ((moved channels bus t).get i).Sound i := by
  rw [get_moved]
  split
  · exact .complete ..
  · exact (rewritten_run h bus t).preserves sound_perform hsound

/-! ### The accesses of a block -/

/-- If a state of a run has a property that the first one has not, then some step of the run
brings it about. -/
theorem exists_turn {σ α : Type} (step : σ → α → σ) (p : σ → Bool) {s : σ} {inputs : List α}
    (hfirst : p s = false) (hlast : p (inputs.foldl step s) = true) :
    ∃ made x left, inputs = made ++ x :: left ∧ p (made.foldl step s) = false ∧
      p (step (made.foldl step s) x) = true := by
  induction inputs generalizing s with
  | nil => exact absurd (hfirst.symm.trans hlast) Bool.false_ne_true
  | cons x rest ih =>
    cases hx : p (step s x) with
    | true => exact ⟨[], x, rest, rfl, hfirst, hx⟩
    | false =>
      obtain ⟨made, y, left, rfl, hbefore, hafter⟩ := ih hx hlast
      exact ⟨x :: made, y, left, rfl, hbefore, hafter⟩

/-- One of the accesses of a block, after those that have been made and before those that are
left. -/
structure BlockStep (t : DmaTransfer) (bus : β) where
  made : List BusAccess
  access : BusAccess
  left : List BusAccess
  split : t.accesses bus = made ++ access :: left

namespace BlockStep

variable {t : DmaTransfer} {bus : β}

/-- The bus that the access finds. -/
def before (s : BlockStep t bus) : β := s.made.foldl BusAccess.perform bus

/-- The bus that the access leaves. -/
def after (s : BlockStep t bus) : β := s.access.perform s.before

end BlockStep

/-- What a block does to a channel is in order. Each of its accesses is a number of writes to
registers. Before, between and after them the channel is sound, and whatever is done next is in
order. The end of the block makes no channel active. So a channel that is idle before the block
and active after it has become so by an access of the block, and by a write of that access that
starts it. -/
structure BlockInOrder (channels : β → Dma) (bus : β) (t : DmaTransfer) (i : DmaId) : Prop where
  writes : ∀ s : BlockStep t bus, ∃ writes : List RegisterWrite,
    channels s.after = (channels s.before).afterWrites writes ∧
      ∀ made left, writes = made ++ left →
        (((channels s.before).afterWrites made).get i).Sound i ∧
          ∀ op, ((channels s.before).afterWrites made).InOrder i op
  completed : ((moved channels bus t).get i).active = true ↔
    i ≠ t.channel ∧ ((channels (t.run bus).2).get i).active = true
  started : ((channels bus).get i).active = false → ((moved channels bus t).get i).active = true →
    ∃ s : BlockStep t bus, ((channels s.before).get i).active = false ∧
      ((channels s.after).get i).active = true ∧
      ∀ writes, channels s.after = (channels s.before).afterWrites writes →
        ∃ made w left, writes = made ++ w :: left ∧
          (((channels s.before).afterWrites made).get i).active = false ∧
          ((channels s.before).afterWrites made).Starts i w.operation

/-- Completing a block leaves its channel idle, and the other channels as they are. -/
theorem active_moved_iff (channels : β → Dma) (bus : β) (t : DmaTransfer) (i : DmaId) :
    ((moved channels bus t).get i).active = true ↔
      i ≠ t.channel ∧ ((channels (t.run bus).2).get i).active = true := by
  rw [get_moved]
  by_cases hi : t.channel = i
  · rw [if_pos hi, active_complete]
    simp [hi]
  · rw [if_neg hi]
    simp [Ne.symm hi]

/-- A channel that a list of writes makes active is started by one of them. -/
theorem exists_starts_of_active {d : Dma} {i : DmaId} {writes : List RegisterWrite}
    (hidle : (d.get i).active = false) (hactive : ((d.afterWrites writes).get i).active = true) :
    ∃ made w left, writes = made ++ w :: left ∧ ((d.afterWrites made).get i).active = false ∧
      (d.afterWrites made).Starts i w.operation := by
  obtain ⟨made, w, left, hsplit, hbefore, hafter⟩ :=
    exists_turn (fun (d : Dma) (w : RegisterWrite) => d.perform w.operation)
      (fun d => (d.get i).active) hidle hactive
  exact ⟨made, w, left, hsplit, hbefore, (active_perform_iff hbefore _).mp hafter⟩

/-- A channel that a block makes active becomes so by one of its accesses. -/
theorem exists_blockStep_of_active {bus : β} {i : DmaId} {t : DmaTransfer}
    (hidle : ((channels bus).get i).active = false)
    (hactive : ((channels (t.run bus).2).get i).active = true) :
    ∃ s : BlockStep t bus, ((channels s.before).get i).active = false ∧
      ((channels s.after).get i).active = true := by
  -- The run of the block is the fold of its accesses over the bus.
  rw [t.bus_run bus] at hactive
  obtain ⟨made, a, left, hsplit, hbefore, hafter⟩ :=
    exists_turn BusAccess.perform (fun bus => ((channels bus).get i).active) hidle hactive
  exact ⟨⟨made, a, left, hsplit⟩, hbefore, hafter⟩

/-- A block is in order if its bus leads to the channels, and its channel was sound before. -/
theorem blockInOrder (h : ReachedBy channels) {bus : β} {i : DmaId}
    (hsound : ((channels bus).get i).Sound i) (t : DmaTransfer) :
    BlockInOrder channels bus t i where
  writes := by
    intro s
    obtain ⟨writes, hwrites⟩ := (h s.before s.access).exists_writes
    refine ⟨writes, hwrites, fun made left _ => ⟨?_, inOrder _ i⟩⟩
    -- Nothing but writes has led to this point of the block.
    have hpath : Rewritten (channels bus) ((channels s.before).afterWrites made) :=
      (h.foldl bus s.made).trans (rewritten_afterWrites _ made)
    exact hpath.preserves sound_perform hsound
  completed := active_moved_iff channels bus t i
  started := by
    intro hidle hactive
    obtain ⟨s, hbefore, hafter⟩ :=
      exists_blockStep_of_active hidle ((active_moved_iff channels bus t i).mp hactive).2
    refine ⟨s, hbefore, hafter, fun writes hwrites => ?_⟩
    rw [hwrites] at hafter
    exact exists_starts_of_active hbefore hafter

/-! ### Reachable states -/

/-- The states that operations and blocks of an allowed kind lead to from the default. A block
may be moved over any bus that leads to the channels. -/
inductive ReachableBy (allowed : DmaTransfer → Prop) : Dma → Prop where
  | blank : ReachableBy allowed {}
  | perform {d : Dma} (h : ReachableBy allowed d) (op : Operation) :
      ReachableBy allowed (d.perform op)
  | move {β : Type} [MemoryBus β] {channels : β → Dma} (hreached : ReachedBy channels)
      {bus : β} {t : DmaTransfer} (hbegin : (channels bus).begin? = some t) (hallowed : allowed t)
      (h : ReachableBy allowed (channels bus)) : ReachableBy allowed (moved channels bus t)

/-- The states that operations and blocks lead to from the default. -/
abbrev Reachable : Dma → Prop := ReachableBy fun _ => True

/-- All channels begin in the same state. -/
@[simp] theorem get_blank (i : DmaId) : ({} : Dma).get i = {} := Vector.getElem_replicate i.isLt

/-- Every channel is sound in every reachable state. By induction on the way there. -/
theorem ReachableBy.sound {allowed : DmaTransfer → Prop} {d : Dma} (h : ReachableBy allowed d)
    (i : DmaId) : (d.get i).Sound i := by
  induction h with
  | blank =>
    rw [get_blank]
    exact .off rfl rfl
  | perform _ op ih => exact sound_perform _ op ih
  | move hreached _ _ _ ih => exact sound_moved hreached ih _

/-- In every reachable state an active channel is on, and one that is on has as many units to
move as fit a block. A channel that is not active becomes so by a write that switches it on
with immediate timing, or by the signal that it waits for, and the first channel never while its
timing is special. This is so for what is done to the channels from outside, and also for all
that happens to them while a block of any kind is moved, up to its end. -/
theorem lifecycle_of_reachable {d : Dma} (h : Reachable d) (i : DmaId) :
    (d.get i).Sound i ∧
    (∀ op, d.InOrder i op) ∧
    ∀ (β : Type) [MemoryBus β] (channels : β → Dma) (bus : β) (t : DmaTransfer),
      ReachedBy channels → channels bus = d → BlockInOrder channels bus t i := by
  refine ⟨h.sound i, d.inOrder i, ?_⟩
  rintro β _ channels bus t hreached rfl
  exact blockInOrder hreached (h.sound i) t

/-- The channels after writes of whole registers. -/
def programmed (writes : List (Nat × Half)) : Dma :=
  writes.foldl (fun d write => d.perform (.write write.1 write.2 0xFFFF)) {}

/-- Writes of whole registers lead to reachable states. -/
theorem reachable_programmed {allowed : DmaTransfer → Prop} (writes : List (Nat × Half)) :
    ReachableBy allowed (programmed writes) := by
  have hfold {d : Dma} (h : ReachableBy allowed d) : ReachableBy allowed
      (writes.foldl (fun d write => d.perform (.write write.1 write.2 0xFFFF)) d) := by
    induction writes generalizing d with
    | nil => exact h
    | cons write rest ih => exact ih (h.perform (.write write.1 write.2 0xFFFF))
  exact hfold .blank

/-- The first channel is set to copy its own control register to that of the second. -/
def selfCopying : Dma := programmed [(0, 10), (4, 22), (8, 1), (10, 0x8000)]

/-- The channels are their own bus here. The block of the first switches on the second, which a
store of the block starts, and leaves the first idle. -/
theorem lifecycle_after_self_copy :
    ∃ t, selfCopying.begin? = some t ∧ Reachable (moved id selfCopying t) ∧
      (selfCopying.get 1).active = false ∧ ((moved id selfCopying t).get 1).active = true ∧
      ((moved id selfCopying t).get 1).control.enabled = true ∧
      ((moved id selfCopying t).get 0).active = false ∧
      ∃ s : BlockStep t selfCopying, (s.before.get 1).active = false ∧
        ∃ made w, (s.before.afterWrites made).Starts 1 (RegisterWrite.operation w) := by
  have hready : Reachable selfCopying := reachable_programmed _
  have hbegin : selfCopying.begin? = some (selfCopying.transferOf 0) := by decide
  have hmoved : Reachable (moved id selfCopying (selfCopying.transferOf 0)) :=
    .move reachedBy_id hbegin trivial hready
  have hidle : (selfCopying.get 1).active = false := by decide
  have hactive : ((moved id selfCopying (selfCopying.transferOf 0)).get 1).active = true := by
    decide
  have hfirst := (lifecycle_of_reachable hready 0).2.2 Dma id selfCopying
    (selfCopying.transferOf 0) reachedBy_id rfl
  have hsecond := (lifecycle_of_reachable hready 1).2.2 Dma id selfCopying
    (selfCopying.transferOf 0) reachedBy_id rfl
  have hends : ((moved id selfCopying (selfCopying.transferOf 0)).get 0).active = false :=
    Bool.eq_false_iff.mpr fun hstays => (hfirst.completed.mp hstays).1 rfl
  obtain ⟨s, hbefore, -, hstarts⟩ := hsecond.started hidle hactive
  obtain ⟨writes, hwrites, -⟩ := hsecond.writes s
  obtain ⟨made, w, left, -, -, hstarted⟩ := hstarts writes hwrites
  exact ⟨_, hbegin, hmoved, hidle, hactive,
    (lifecycle_of_reachable hmoved 1).1.enabled_of_active hactive, hends,
    s, hbefore, made, w, hstarted⟩

end Dma

end AdvanceCore
