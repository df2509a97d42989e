import AdvanceCore.Proofs.Console.HaltedSleep
import AdvanceCore.Proofs.Console.PendingReset
import AdvanceCore.Proofs.Dma.Programming
import AdvanceCore.Proofs.Dma.RamBlocks
import AdvanceCore.Proofs.Timers.Requests

/-!
# `AdvanceCore.Proofs.Console.ImmediateBlock`: a block that moves at once

A channel with immediate timing owns the bus as soon as it is switched on. If no other channel
is active and no hardware is attached, the next step of the console moves its block, and all
that the step does is known in advance.

* `ImmediateBlock`: such a setup, and the block that it stands for.
* `begin?_set_started`: the channel owns the bus.
* `step_moveBlock`: the step as a whole, on a console without attached hardware.
* `Moved`, `step_moves_immediate_block`: what the step leaves of a block within the work RAM.
-/

set_option autoImplicit false

namespace AdvanceCore

/-! ### The setup -/

/-- A setup that moves a block at once, with ascending addresses. -/
structure ImmediateBlock extends ChannelSetup where
  enabled : control.enabled = true
  immediate : control.timing = .immediate
  sourceUp : control.sourceStep = .increment
  destinationUp : control.destinationStep = .increment

namespace ImmediateBlock

/-- The number of units. -/
def units (s : ImmediateBlock) : Nat := s.started.blockCount s.channel

/-- The block, with what was on the bus before. -/
def block (s : ImmediateBlock) (openBus : Word) : DmaTransfer :=
  { channel := s.channel
    source := s.source &&& DmaChannel.sourceMask s.channel
    destination := s.destination &&& DmaChannel.destinationMask s.channel
    count := s.units
    movesWords := s.control.movesWords
    sourceStep := .increment
    destinationStep := .increment
    openBus := openBus }

end ImmediateBlock

namespace Dma

/-- The only channel that is active is the next one. -/
theorem owner?_of_only_active {d : Dma} {i : DmaId}
    (h : ∀ j, (d.get j).active = true ↔ j = i) : d.owner? = some i := by
  cases howner : d.owner? with
  | none =>
    have hidle := List.find?_eq_none.mp howner i (List.mem_finRange i)
    exact absurd ((h i).mpr rfl) hidle
  | some j =>
    have hactive : (d.get j).active = true :=
      List.find?_some (p := fun j => (d.get j).active) howner
    rw [(h j).mp hactive]

/-- The channel owns the bus as soon as it is set up. -/
theorem begin?_set_started {d : Dma} (hinactive : ∀ j, (d.get j).active = false)
    (s : ImmediateBlock) : (d.set s.channel s.started).begin? = some (s.block d.openBus) := by
  have hactive : s.started.active = true := decide_eq_true s.immediate
  -- No other channel is active, so the one that was started is served.
  have howner : (d.set s.channel s.started).owner? = some s.channel := by
    refine owner?_of_only_active fun j => ?_
    rw [get_set]
    split
    · next hj => exact ⟨fun _ => hj.symm, fun _ => hactive⟩
    · next hj =>
      rw [hinactive j]
      exact ⟨nofun, fun h => absurd h.symm hj⟩
  have hfifo : s.started.feedsFifo s.channel = false := by
    have htiming : s.started.control.timing = .immediate := s.immediate
    unfold DmaChannel.feedsFifo
    rw [htiming]
    rfl
  have hsource : s.started.control.sourceStep = .increment := s.sourceUp
  have hdestination : s.started.control.destinationStep = .increment := s.destinationUp
  unfold begin?
  rw [howner, Option.map_some]
  unfold transferOf
  dsimp only
  rw [get_set, if_pos rfl, hfifo, hsource, hdestination]
  rfl

/-- The end of a block requests its interrupt, if the control register asks for it. -/
theorem requested_finish (d : Dma) (t : DmaTransfer) (interrupts : InterruptController) :
    (d.finish t interrupts).2.requested = interrupts.requested |||
      (if (d.get t.channel).control.interrupts then (Interrupt.dma t.channel).mask else 0) := by
  unfold finish
  dsimp only
  split
  · exact interrupts.requested_raise _
  · exact BitVec.or_zero.symm

end Dma

namespace DmaChannel

/-- A channel with immediate timing is off after its block, even if it is set to repeat. -/
theorem enabled_complete_of_immediate {c : DmaChannel} (h : c.control.timing = .immediate)
    (i : DmaId) (source destination : Word) :
    (c.complete i source destination).control.enabled = false := by
  unfold complete
  dsimp only
  rw [if_neg (by simp [h])]
  exact enabled_disable _

end DmaChannel

namespace Console

variable {π : Type} [Peripheral π]

/-! ### The step -/

/-- If no hardware is attached, the console moves a block, completes its channel and lets the
timers catch up. -/
theorem step_moveBlock {c : Console π} {t : DmaTransfer} (hbegin : c.board.dma.begin? = some t)
    (hattached : (t.run c.board).2.attachments = []) :
    c.step = (t.cycles,
      { c with board :=
        let b := (t.run c.board).2
        let finished := b.dma.finish (t.run c.board).1 b.interrupts
        ({ b with dma := finished.1, interrupts := finished.2 }.stepTimers t.cycles).2 }) := by
  have hactivity : c.activity = .transfer t := activity_eq_transfer_iff.mpr hbegin
  have hmoved : (c.moveBlock t).2.board.attachments = [] := hattached
  unfold step
  rw [hactivity]
  show ((c.moveBlock t).1, (c.moveBlock t).2.catchUp _ true) = _
  rw [catchUp_unattached hmoved]
  rfl

/-- What a step makes of a console whose channel has been set up for a block. -/
structure Moved (s : ImmediateBlock) (c : Console π) (cycles : Nat) (c' : Console π) : Prop where
  cycles_eq : cycles = 2 + 2 * s.units
  /-- Every unit is stored as it was. -/
  copied : let t := s.block c.board.dma.openBus
    ∀ k < s.units, ∀ j < t.size,
      c'.board.ramByte (ramCell (t.destinationAt k) j) =
        c.board.ramByte (ramCell (t.sourceAt k) j)
  /-- No other memory changes. -/
  kept : let t := s.block c.board.dma.openBus
    ∀ cell, (∀ k < s.units, ∀ j < t.size, cell ≠ ramCell (t.destinationAt k) j) →
      c'.board.ramByte cell = c.board.ramByte cell
  bootRom : c'.board.bootRom = c.board.bootRom
  cartridge : c'.board.cartridge = c.board.cartridge
  cpu : c'.cpu = c.cpu
  disabled : (c'.board.dma.get s.channel).control.enabled = false
  inactive : (c'.board.dma.get s.channel).active = false
  others : ∀ j ≠ s.channel, c'.board.dma.get j = c.board.dma.get j
  timers : c'.board.timers = (c.board.timers.step {} cycles).timers
  /-- The channel requests its interrupt if it is set to, and the timers may request theirs. -/
  requested : c'.board.interrupts.requested =
    (c.board.interrupts.requested |||
      (if s.control.interrupts then (Interrupt.dma s.channel).mask else 0)) |||
    (c.board.timers.step {} cycles).interrupts.requested
  byTimers : ∀ bit, (c.board.timers.step {} cycles).interrupts.requested.getLsbD bit = true →
    ∃ i : TimerId, bit = (Interrupt.timer i).bit

/-- On a console without attached hardware and active channels, set up a channel that is off for
a block within the work RAM that stores over none of its own units. By stores of any width, the
next step moves the whole block. -/
theorem step_moves_immediate_block {c : Console π} (hattached : c.board.attachments = [])
    (hinactive : ∀ j, (c.board.dma.get j).active = false) (s : ImmediateBlock)
    (hoff : (c.board.dma.get s.channel).control.enabled = false)
    (hfits : (s.block c.board.dma.openBus).Fits s.units)
    (source destination start : StoreWidth) :
    let before : Console π :=
      { c with board := (s.stores source destination start).foldl BusAccess.perform c.board }
    Moved s c before.step.1 before.step.2 := by
  let t := s.block c.board.dma.openBus
  let b : Board π := { c.board with dma := c.board.dma.set s.channel s.started }
  have hstores : (s.stores source destination start).foldl BusAccess.perform c.board = b :=
    s.foldl_stores hoff s.enabled source destination start
  have hbegin : b.dma.begin? = some t := Dma.begin?_set_started hinactive s
  -- Everything the step does after the units acts on a board that differs from `b` in the RAMs
  -- only.
  have hcopied : Board.Copied t s.units b (t.run b).2 := Board.copied_run hfits b
  have hunattached : (t.run b).2.attachments = [] := by
    rw [hcopied.outside]
    exact hattached
  have hdma : (t.run b).2.dma = b.dma := by rw [hcopied.outside]
  have htimers : (t.run b).2.timers = c.board.timers := by rw [hcopied.outside]
  have hinterrupts : (t.run b).2.interrupts = c.board.interrupts := by rw [hcopied.outside]
  have hchannel : (t.run b).1.channel = s.channel := t.channel_run b
  have hstarted : b.dma.get s.channel = s.started := by rw [Dma.get_set, if_pos rfl]
  have hrequests := c.board.timers.requested_step t.cycles
  dsimp only
  rw [hstores, step_moveBlock hbegin hunattached]
  unfold Board.stepTimers
  dsimp only
  rw [hdma, hinterrupts, htimers]
  -- The fields in order: cycles, copied units, kept bytes, the devices, the channel and then the
  -- timers and the requests.
  constructor
  · rfl
  · exact hcopied.copied
  · exact hcopied.kept
  · rw [hcopied.outside]
  · rw [hcopied.outside]
  · rfl
  · rw [Dma.get_finish, if_pos hchannel, hstarted]
    exact DmaChannel.enabled_complete_of_immediate (c := s.started) s.immediate ..
  · rw [Dma.get_finish, if_pos hchannel, DmaChannel.active_complete]
  · intro j hj
    rw [Dma.get_finish, hchannel, if_neg hj.symm, Dma.get_set, if_neg hj.symm]
  · exact c.board.timers.timers_step _ _
  · rw [hrequests.1, Dma.requested_finish, hchannel, hstarted]
    rfl
  · exact hrequests.2

/-- A console with a word in its internal work RAM. -/
def holding (value : Word) : Console NoPeripheral :=
  let board : Board NoPeripheral := { bootRom := ⟨.ofImage .empty (Nat.zero_le _)⟩ }
  { cpu := .initial, board := BusAccess.perform board (.store32 0x03000000 value) }

/-- The last channel copies two words from the internal work RAM to the external one. -/
def twoWords : ImmediateBlock where
  channel := 3
  source := 0x03000000
  destination := 0x02000000
  count := 2
  control := ⟨0xC400⟩
  enabled := by decide
  immediate := by decide
  sourceUp := by decide
  destinationUp := by decide

/-- A console that copies two words within its work RAM, in one step. -/
theorem two_words_moved :
    let c := holding 0xDEADBEEF
    let before : Console NoPeripheral :=
      { c with board := (twoWords.stores .word .half .byte).foldl BusAccess.perform c.board }
    before.step.1 = 6 ∧ before.step.2.cpu = .initial ∧
      before.step.2.board.ramByte (ramCell 0x02000000 3) = 0xDE ∧
      before.step.2.board.interrupts.requested = (Interrupt.dma 3).mask := by
  have hfits : (twoWords.block (holding 0xDEADBEEF).board.dma.openBus).Fits twoWords.units := by
    constructor <;> decide
  have hmoved := step_moves_immediate_block (c := holding 0xDEADBEEF) rfl (by decide) twoWords
    (by decide) hfits .word .half .byte
  have hsource : (holding 0xDEADBEEF).board.ramByte (ramCell 0x03000000 3) = 0xDE :=
    (Board.store32_ram (by decide) 0xDEADBEEF).stored 3 (by decide)
  -- No timer runs, so the step adds the request of the channel and no other.
  have hquiet (n : Nat) : ((holding 0xDEADBEEF).board.timers.step {} n).interrupts = {} := by
    have hnever : ∀ i, ((holding 0xDEADBEEF).board.timers.get i).deadline = none := by decide
    rw [Timers.step_of_lt_deadline]
    intro i d hd
    rw [hnever] at hd
    cases hd
  refine ⟨hmoved.cycles_eq, hmoved.cpu, ?_, hmoved.requested.trans ?_⟩
  · exact (hmoved.copied 0 (by decide) 3 (by decide)).trans hsource
  · rw [hquiet]
    decide

end Console

end AdvanceCore
