import AdvanceCore.Proofs.Console.PendingReset
import AdvanceCore.Proofs.Timers.Reachable

/-!
# `AdvanceCore.Proofs.Console.Clock`: the timers of a running console

What is known of the timers by themselves speaks of states that steps and register writes lead
to. Those of a console are such states. Programs, blocks and the host reach the timers over the
bus, where all they can do is write registers, and the cycles of a step pass for all of them.

* `Board.written_access`: an access to the board writes registers of the timers at most.
* `Console.Reachable.timers`: the timers of every console that events lead to.
* `Console.cycle_step`: their clock goes on by the cycles of a step, but not while everything is
  stopped.
-/

set_option autoImplicit false

namespace AdvanceCore

namespace Timers

/-- Writes to the registers lead from the first state to the second. -/
abbrev Written : Timers → Timers → Prop :=
  Relation.ReflTransGen fun t t' => ∃ offset value mask, t' = (t.writeRegister offset value mask).2

/-- A register write is one of them. -/
theorem Written.write (t : Timers) (offset : Nat) (value mask : Half) :
    Written t (t.writeRegister offset value mask).2 :=
  .single ⟨offset, value, mask, rfl⟩

/-- Writes take no time. -/
theorem Written.cycle_eq {t t' : Timers} (h : Written t t') : t'.cycle = t.cycle := by
  induction h with
  | refl => rfl
  | tail _ hwrite ih =>
    obtain ⟨offset, value, mask, rfl⟩ := hwrite
    rw [cycle_writeRegister, ih]

/-- Writes lead from reachable timers to reachable timers. -/
theorem Reachable.written {t t' : Timers} (h : t.Reachable) (hwritten : Written t t') :
    t'.Reachable := by
  induction hwritten with
  | refl => exact h
  | tail _ hwrite ih =>
    obtain ⟨offset, value, mask, rfl⟩ := hwrite
    exact ih.write offset value mask

/-- An access to the timers is one or two writes, or none. -/
theorem written_access (t : Timers) (a : BusAccess) : Written t (a.perform t) := by
  cases a with
  | load8 | load16 | load32 => exact .refl
  | store8 | store16 => exact .write ..
  | store32 address value =>
    let first := RegisterBlock.storeHalf t address (value.extractLsb' 0 16)
    exact (Written.write t _ _ _).trans (Written.write first.2 _ _ _)

end Timers

namespace Board

variable {π : Type} [Peripheral π]

open Timers (Written)

/-- The timers are one part of the board. -/
theorem isPart_timers : IsPart (Board.timers : Board π → Timers) := by
  intro α b place access
  obtain ⟨bootRom, externalRam, internalRam, cartridge, dma, timers, interrupts, attachments⟩ := b
  cases place with
  | timers => exact .inr rfl
  | cartridge => cases cartridge <;> exact .inl rfl
  | _ => exact .inl rfl

/-- An access to the board writes registers of the timers at most. -/
theorem written_access (b : Board π) (a : BusAccess) :
    Written b.timers (a.perform b).timers := by
  obtain hkept | ⟨offset, hmoved⟩ := isPart_timers.perform b a
  · rw [hkept]
  · rw [hmoved]
    exact b.timers.written_access (a.moveTo offset)

/-- Several accesses to the board write registers of the timers at most. -/
theorem written_accessed {allowed : BusAccess → Prop} {b b' : Board π}
    (haccessed : Accessed allowed b b') : Written b.timers b'.timers := by
  induction haccessed with
  | refl => exact .refl
  | tail _ hstep ih =>
    obtain ⟨a, -, rfl⟩ := hstep
    exact ih.trans (written_access _ a)

omit [Peripheral π] in
/-- No signal reaches the timers. -/
@[simp] theorem timers_apply (b : Board π) (s : Signal) : (b.apply s).timers = b.timers := by
  cases s <;> rfl

omit [Peripheral π] in
/-- Several signals leave the timers. -/
theorem timers_foldl_apply (b : Board π) (signals : List Signal) :
    (signals.foldl apply b).timers = b.timers := by
  induction signals generalizing b with
  | nil => rfl
  | cons s rest ih => rw [List.foldl_cons, ih, timers_apply]

end Board

namespace Console

variable {π : Type} [Peripheral π]

open Timers (Written)

/-- A call of the host writes registers of the timers at most. -/
theorem written_call (c : Console π) (call : HostCall) :
    Written c.board.timers (c.call call).board.timers := by
  cases call with
  | signal s =>
    show Written c.board.timers (c.board.apply s).timers
    rw [Board.timers_apply]
  | access a => exact c.board.written_access a
  | _ => exact .refl

/-- To acknowledge a reset is nothing to the timers. -/
theorem timers_stepCpu (c : Console π) :
    c.stepCpu.2.board.timers = (c.cpu.step c.board c.board.interrupts.lines).2.2.timers := by
  unfold stepCpu
  dsimp only
  split <;> rfl

/-- What an activity does to the timers are accesses of a block or of the processor. -/
theorem written_perform (c : Console π) (a : Activity) :
    Written c.board.timers (c.perform a).2.board.timers := by
  cases a with
  | transfer t =>
    show Written c.board.timers (t.run c.board).2.timers
    exact Board.written_accessed (t.accessed_run c.board)
  | execute =>
    show Written c.board.timers c.stepCpu.2.board.timers
    rw [timers_stepCpu]
    exact Board.written_accessed (c.cpu.accessed_step c.board c.board.interrupts.lines)
  | halted | stopped => exact .refl

/-- The attached units only report signals, which do not reach the timers. -/
theorem timers_catchUp (c : Console π) (elapsed : Nat) (advancesTimers : Bool) :
    (c.catchUp elapsed advancesTimers).board.timers =
      if advancesTimers then (c.board.timers.step c.board.interrupts elapsed).timers
      else c.board.timers := by
  have hsignals (b : Board π) (wraps : Array SoundTimerId) :
      ((b.stepAttachments wraps elapsed).1.foldl Board.apply
        (b.stepAttachments wraps elapsed).2).timers = b.timers := by
    rw [← Array.foldl_toList]
    exact Board.timers_foldl_apply (b.stepAttachments wraps elapsed).2 _
  cases advancesTimers with
  | true => exact hsignals (c.board.stepTimers elapsed).2 _
  | false => exact hsignals c.board #[]

/-- The cycles of a step pass for the timers too, except while everything is stopped. -/
theorem cycle_step (c : Console π) :
    c.step.2.board.timers.cycle =
      c.board.timers.cycle + if c.activity.advancesTimers then c.step.1 else 0 := by
  have hkept := (c.written_perform c.activity).cycle_eq
  show ((c.perform c.activity).2.catchUp (c.perform c.activity).1 _).board.timers.cycle =
    c.board.timers.cycle + if c.activity.advancesTimers then (c.perform c.activity).1 else 0
  rw [timers_catchUp, ← hkept]
  cases c.activity.advancesTimers with
  | true => exact Timers.cycle_step ..
  | false => rfl

/-- An event leads from reachable timers to reachable timers. -/
theorem timers_occur {c : Console π} (h : c.board.timers.Reachable) (e : Event) :
    (c.occur e).board.timers.Reachable := by
  cases e with
  | host call => exact h.written (c.written_call call)
  | step =>
    have hperformed := h.written (c.written_perform c.activity)
    show ((c.perform c.activity).2.catchUp _ _).board.timers.Reachable
    rw [timers_catchUp]
    split
    · exact hperformed.step _ _
    · exact hperformed

/-- The timers of a console are in a state that steps and register writes lead to, however the
console has been used. -/
theorem Reachable.timers {c : Console π} (h : c.Reachable) : c.board.timers.Reachable := by
  induction h with
  | fresh hnew =>
    obtain ⟨bootRom, cartridge, rfl⟩ := exists_of_ofImages hnew
    exact .blank
  | occur e _ ih => exact timers_occur ih e

end Console

end AdvanceCore
