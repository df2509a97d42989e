import AdvanceCore.Proofs.Console.PendingReset
import AdvanceCore.Proofs.Dma.Lifecycle

/-!
# `AdvanceCore.Proofs.Console.Channels`: the DMA channels of a running console

What is known of the channels by themselves speaks of states that operations and blocks lead
to. Those of a console are such states. Programs, blocks and the host reach the channels over
the bus, where all they can do is write registers, and everything else that happens to them is
a signal or a block of their own.

* `Board.reachedBy_dma`: an access to the board writes registers of the channels at most.
* `Console.Reachable.dma`: the channels of every console that events lead to.
-/

set_option autoImplicit false

namespace AdvanceCore

namespace Dma

/-- Register writes lead from reachable channels to reachable channels. -/
theorem ReachableBy.rewritten {allowed : DmaTransfer → Prop} {d d' : Dma}
    (h : ReachableBy allowed d) (hwritten : Rewritten d d') : ReachableBy allowed d' :=
  hwritten.preserves (fun _ op hd => hd.perform op) h

end Dma

namespace Board

variable {π : Type} [Peripheral π]

/-- The channels are one part of the board. -/
theorem isPart_dma : IsPart (Board.dma : Board π → Dma) := by
  intro α b place access
  obtain ⟨bootRom, externalRam, internalRam, cartridge, dma, timers, interrupts, attachments⟩ := b
  cases place with
  | dma => exact .inr rfl
  | cartridge => cases cartridge <;> exact .inl rfl
  | _ => exact .inl rfl

/-- The board is a bus that leads to the channels. -/
theorem reachedBy_dma : Dma.ReachedBy (Board.dma : Board π → Dma) := by
  intro b a
  obtain hkept | ⟨offset, hmoved⟩ := isPart_dma.perform b a
  · rw [hkept]
  · rw [hmoved]
    exact Dma.reachedBy_id b.dma (a.moveTo offset)

omit [Peripheral π] in
/-- A signal for the channels is an operation on them, and any other leaves them. -/
theorem reachable_apply {b : Board π} (h : b.dma.Reachable) (s : Signal) :
    (b.apply s).dma.Reachable := by
  cases s with
  | vblank => exact h.perform .vblank
  | hblank line => exact h.perform (.hblank line)
  | fifoRefresh fifo => exact h.perform (.fifoRefresh fifo)
  | interrupt source => exact h

omit [Peripheral π] in
/-- Several signals lead from reachable channels to reachable channels. -/
theorem reachable_foldl_apply {b : Board π} (h : b.dma.Reachable) (signals : List Signal) :
    (signals.foldl apply b).dma.Reachable := by
  induction signals generalizing b with
  | nil => exact h
  | cons s rest ih => exact ih (reachable_apply h s)

end Board

namespace Console

variable {π : Type} [Peripheral π] {c : Console π}

/-- A call of the host is a signal, an access, or something that does not reach them. -/
theorem reachable_call (h : c.board.dma.Reachable) (call : HostCall) :
    (c.call call).board.dma.Reachable := by
  cases call with
  | signal s => exact Board.reachable_apply h s
  | access a => exact h.rewritten (Board.reachedBy_dma c.board a)
  | _ => exact h

/-- What an activity does to the channels is a block of theirs, or accesses of the processor. -/
theorem reachable_perform (h : c.board.dma.Reachable) :
    (c.perform c.activity).2.board.dma.Reachable := by
  -- A block moves the channels by one `move`, an instruction by the stores it makes, and an idle
  -- console not at all.
  cases hactivity : c.activity with
  | transfer t =>
    exact .move Board.reachedBy_dma (activity_eq_transfer_iff.mp hactivity) trivial h
  | execute =>
    have haccessed := c.cpu.accessed_step c.board c.board.interrupts.lines
    have hdma : c.stepCpu.2.board.dma =
        (c.cpu.step c.board c.board.interrupts.lines).2.2.dma := by
      unfold stepCpu
      dsimp only
      split <;> rfl
    show c.stepCpu.2.board.dma.Reachable
    rw [hdma]
    exact h.rewritten (Board.reachedBy_dma.accessed haccessed)
  | halted | stopped => exact h

/-- What attached units report as they catch up are signals. -/
theorem reachable_catchUp (h : c.board.dma.Reachable) (elapsed : Nat) (advancesTimers : Bool) :
    (c.catchUp elapsed advancesTimers).board.dma.Reachable := by
  -- The attached units only report signals.
  have hsignals {b : Board π} (hb : b.dma.Reachable) (wraps : Array SoundTimerId) :
      ((b.stepAttachments wraps elapsed).1.foldl Board.apply
        (b.stepAttachments wraps elapsed).2).dma.Reachable := by
    rw [← Array.foldl_toList]
    exact Board.reachable_foldl_apply (b := (b.stepAttachments wraps elapsed).2) hb _
  cases advancesTimers with
  | true => exact hsignals (b := (c.board.stepTimers elapsed).2) h _
  | false => exact hsignals h #[]

/-- Every event leads from reachable channels to reachable channels. -/
theorem reachable_occur (h : c.board.dma.Reachable) (e : Event) :
    (c.occur e).board.dma.Reachable := by
  cases e with
  | host call => exact reachable_call h call
  | step => exact reachable_catchUp (reachable_perform h) ..

/-- The channels of a console are in a state that operations and blocks lead to, however the
console has been used. -/
theorem Reachable.dma (h : c.Reachable) : c.board.dma.Reachable := by
  induction h with
  | fresh hnew =>
    obtain ⟨bootRom, cartridge, rfl⟩ := exists_of_ofImages hnew
    exact .blank
  | occur e _ ih => exact reachable_occur ih e

end Console

end AdvanceCore
