import AdvanceCore.Proofs.Console.Events
import AdvanceCore.Proofs.Cpu.ExceptionEntry

/-!
# `AdvanceCore.Proofs.Console.PendingReset`: when a requested reset is taken

A reset request wakes the console, so that the processor can take the reset with its next
step. Blocks of DMA may come first, and the host may go on with its calls. Nothing of that
loses the request, and nothing puts the console back to sleep except what asks for sleep: a
call for it, or a store into the register that selects a power state. Such a request is only
declined while an interrupt is pending, a pending reset does not count.

* `Event.AsksForSleep`, `Attentive`: consoles that were never asked to sleep while a reset was
  pending.
* `Responds`, `Responds.call`, `Responds.step`: what a call and a step make of a pending reset.
* `Attentive.responds`: these consoles run as long as a reset is pending.
* `step_takes_reset`: a running console takes it with the first step that moves no block.
* `pending_reset_taken_unless_put_to_sleep`: all of this, and what a call for sleep does to it.
* `not_reset_never_stranded`: without the restriction it fails.
-/

set_option autoImplicit false

namespace AdvanceCore

open InterruptController

variable {π : Type}

/-- The event asks for sleep. A step does if its block stores where a power state is selected. -/
def Event.AsksForSleep (c : Console π) : Event → Prop
  | .host .enterHalt | .host .enterStop => True
  | .host .requestReset | .host (.signal _) | .host (.setFiqLine _) => False
  | .host (.access a) => a.SelectsPower
  | .step => ∃ t, c.board.dma.begin? = some t ∧ t.SelectsPower

namespace Console

/-- A reset waits for the processor to take it. -/
def ResetPending (c : Console π) : Prop := c.board.interrupts.resetRequested = true

/-- The console is in no sleep. -/
def IsRunning (c : Console π) : Prop := c.board.interrupts.power = .run

/-- In a new console everything but its images and its attachments is blank. -/
theorem exists_of_ofImages {boot : ByteArray} {rom : Option ByteArray}
    {attachments : List (Attachment π)} {c : Console π}
    (h : ofImages boot rom attachments = .ok c) : ∃ bootRom cartridge, c =
      { cpu := .initial
        board := { bootRom := bootRom, cartridge := cartridge, attachments := attachments } } := by
  unfold ofImages at h
  cases hboot : BootRom.ofImage boot with
  | error e =>
    rw [hboot] at h
    cases h
  | ok bootRom =>
    rw [hboot] at h
    cases hcartridge : rom.mapM Cartridge.ofImage with
    | error e =>
      rw [hcartridge] at h
      cases h
    | ok cartridge =>
      rw [hcartridge] at h
      cases h
      exact ⟨bootRom, cartridge, rfl⟩

/-- A console moves a block whenever there is one to move. -/
theorem activity_eq_transfer_iff {c : Console π} {t : DmaTransfer} :
    c.activity = .transfer t ↔ c.board.dma.begin? = some t := by
  unfold activity
  split
  · next t' hbegin => simp [hbegin]
  · next hbegin => cases c.board.interrupts.power <;> simp [hbegin]

/-- A sleeping console waits. -/
theorem activity_of_asleep {c : Console π} (hidle : c.board.dma.begin? = none)
    (hasleep : ¬ c.IsRunning) : c.activity = .halted ∨ c.activity = .stopped := by
  unfold activity
  rw [hidle]
  cases hpower : c.board.interrupts.power with
  | run => exact absurd hpower hasleep
  | halt => exact .inl rfl
  | stop => exact .inr rfl

/-- Without one a running console executes. -/
theorem activity_of_isRunning {c : Console π} (hidle : c.board.dma.begin? = none)
    (hrun : c.IsRunning) : c.activity = .execute := by
  unfold activity
  rw [hidle, hrun]

variable [Peripheral π]

/-- The consoles that events lead to when none of them asks for sleep while a reset is
pending. -/
inductive Attentive : Console π → Prop where
  | fresh {boot : ByteArray} {rom : Option ByteArray} {attachments : List (Attachment π)}
      {c : Console π} (h : ofImages boot rom attachments = .ok c) : Attentive c
  | occur {c : Console π} (e : Event) (h : Attentive c)
      (hawake : c.ResetPending → ¬ e.AsksForSleep c) : Attentive (c.occur e)

/-! ### The request -/

/-- Falling asleep leaves a requested reset as it is, which is how it can be left behind. -/
theorem resetRequested_sleep (c : InterruptController) (state : PowerState) :
    (c.sleep state).resetRequested = c.resetRequested := by
  rw [sleep_eq]

/-- No call takes a request back. -/
theorem resetPending_call {c : Console π} (h : c.ResetPending) (call : HostCall) :
    (c.call call).ResetPending := by
  cases call with
  | requestReset => exact rfl
  | signal s => exact (c.board.driven_apply s).resetRequested.trans h
  | setFiqLine asserted => cases asserted <;> exact h
  | enterHalt => exact (resetRequested_sleep _ .halt).trans h
  | enterStop => exact (resetRequested_sleep _ .stop).trans h
  | access a => exact (c.board.driven_access a).resetRequested.trans h

/-- Taking the reset ends the request, and no program makes one. -/
theorem resetRequested_stepCpu (c : Console π) :
    c.stepCpu.2.board.interrupts.resetRequested = false := by
  -- The instruction itself cannot request a reset: no register does.
  have hdriven : Driven True c.board.interrupts
      (c.cpu.step c.board c.board.interrupts.lines).2.2.interrupts :=
    Board.driven_accessed (fun _ _ _ => trivial) (Cpu.accessed_step ..)
  unfold stepCpu
  dsimp only
  split
  · rfl
  · next hreset =>
    rw [Bool.not_eq_true] at hreset
    exact hdriven.resetRequested.trans hreset

/-- A step that executes takes the reset, and leaves none. -/
theorem not_resetPending_step {c : Console π} (h : c.activity = .execute) :
    ¬ c.step.2.ResetPending := by
  have hstep : c.step.2 = c.stepCpu.2.catchUp c.stepCpu.1 true := by
    unfold step
    rw [h]
    rfl
  intro hpending
  rw [ResetPending, hstep, (driven_catchUp ..).resetRequested, resetRequested_stepCpu] at hpending
  cases hpending

/-- Without the processor, a step only has a block and the hardware to drive the
controller. -/
theorem driven_step {c : Console π} (h : c.activity ≠ .execute) :
    Driven (Event.step.AsksForSleep c) c.board.interrupts c.step.2.board.interrupts := by
  have hperform : Driven (Event.step.AsksForSleep c) c.board.interrupts
      (c.perform c.activity).2.board.interrupts := by
    cases hactivity : c.activity with
    | transfer t =>
      have hbegin : c.board.dma.begin? = some t := activity_eq_transfer_iff.1 hactivity
      exact (c.driven_moveBlock t).mono fun hselects => ⟨t, hbegin, hselects⟩
    | execute => exact absurd hactivity h
    | halted | stopped => exact .refl
  exact hperform.trans ((driven_catchUp ..).mono False.elim)

/-- A running console takes the reset with the first step that moves no block. -/
theorem step_takes_reset {c : Console π} (h : c.ResetPending) (hrun : c.IsRunning)
    (hidle : c.board.dma.begin? = none) :
    Cpu.Entered .reset c.cpu c.step.2.cpu ∧ ¬ c.step.2.ResetPending := by
  have hactivity := activity_of_isRunning hidle hrun
  have hpending : c.cpu.pendingException c.board.interrupts.lines = some .reset := if_pos h
  have hcpu : c.step.2.cpu = (c.cpu.step c.board c.board.interrupts.lines).2.1 := by
    show (c.perform c.activity).2.cpu = _
    rw [hactivity]
    show c.stepCpu.2.cpu = _
    unfold stepCpu
    dsimp only
    split <;> rfl
  rw [hcpu]
  exact ⟨Cpu.step_enters c.board hpending, not_resetPending_step hactivity⟩

/-- A sleeping console leaves it stranded. -/
theorem step_strands_reset {c : Console π} (h : c.ResetPending) (hasleep : ¬ c.IsRunning)
    (hidle : c.board.dma.begin? = none) : c.step.2.cpu = c.cpu ∧ c.step.2.ResetPending := by
  have hactivity := activity_of_asleep hidle hasleep
  constructor
  · show (c.perform c.activity).2.cpu = _
    rcases hactivity with hactivity | hactivity <;> rw [hactivity] <;> rfl
  · have hnot : c.activity ≠ .execute := by
      rcases hactivity with hactivity | hactivity <;> rw [hactivity] <;> exact Activity.noConfusion
    exact (driven_step hnot).resetRequested.trans h

/-! ### Staying awake -/

/-- Every event that does not ask for sleep keeps this: with a reset pending, the console
runs. -/
def Responds (c : Console π) : Prop := c.ResetPending → c.IsRunning

/-- No call but one for sleep lets a console sleep over a reset. -/
theorem Responds.call {c : Console π} (h : c.Responds) {call : HostCall}
    (hawake : c.ResetPending → ¬ (Event.host call).AsksForSleep c) : (c.call call).Responds := by
  intro hpending
  -- The two calls for sleep are excluded, because the reset was pending before them.
  cases call with
  | requestReset => exact rfl
  | signal s =>
    have hdriven := c.board.driven_apply s
    exact hdriven.power id (h (hdriven.resetRequested.symm.trans hpending))
  | setFiqLine asserted =>
    cases asserted with
    | true => exact rfl
    | false => exact h hpending
  | enterHalt => exact absurd trivial (hawake ((resetRequested_sleep _ .halt).symm.trans hpending))
  | enterStop => exact absurd trivial (hawake ((resetRequested_sleep _ .stop).symm.trans hpending))
  | access a =>
    have hdriven := c.board.driven_access a
    have hpending' : c.ResetPending := hdriven.resetRequested.symm.trans hpending
    exact hdriven.power (hawake hpending') (h hpending')

/-- No step does either, unless it stores into the power register. -/
theorem Responds.step {c : Console π} (h : c.Responds)
    (hawake : c.ResetPending → ¬ Event.step.AsksForSleep c) : c.step.2.Responds := by
  intro hpending
  -- The processor would have taken the reset, so it did not run.
  have hactivity : c.activity ≠ .execute := fun h => not_resetPending_step h hpending
  have hdriven := driven_step hactivity
  have hpending' : c.ResetPending := hdriven.resetRequested.symm.trans hpending
  exact hdriven.power (hawake hpending') (h hpending')

/-- An attentive console runs while a reset is pending, by induction over its events. -/
theorem Attentive.responds {c : Console π} (h : c.Attentive) : c.Responds := by
  induction h with
  | fresh hnew =>
    obtain ⟨bootRom, cartridge, rfl⟩ := exists_of_ofImages hnew
    exact fun _ => rfl
  | occur e _ hawake ih =>
    cases e with
    | host call => exact ih.call hawake
    | step => exact ih.step hawake

/-- Going to sleep is declined only for a pending interrupt. -/
theorem power_sleep_eq_run_iff {c : InterruptController} {state : PowerState}
    (hstate : state ≠ .run) (hrun : c.power = .run) :
    (c.sleep state).power = .run ↔ c.wakers state ≠ 0 := by
  unfold sleep
  split
  · next hnone => exact ⟨fun h => absurd h hstate, fun h => absurd hnone h⟩
  · next hsome => exact ⟨fun _ => hsome, fun _ => hrun⟩

/-- A console that nobody asks to sleep while a reset is pending runs until the processor has
taken the reset. Neither calls nor blocks lose the request, and the first step that moves no
block enters the handler and ends the request. A call for sleep is declined while an interrupt
is pending that would end the sleep. Otherwise it strands the reset: as long as the console
sleeps, a step leaves the processor where it is. -/
theorem pending_reset_taken_unless_put_to_sleep {c : Console π} (h : c.Attentive)
    (hpending : c.ResetPending) :
    c.IsRunning ∧
    (∀ call, (c.call call).ResetPending) ∧
    (∀ t, c.board.dma.begin? = some t → c.step.2.ResetPending) ∧
    (c.board.dma.begin? = none →
      Cpu.Entered .reset c.cpu c.step.2.cpu ∧ ¬ c.step.2.ResetPending) ∧
    (c.enterHalt.IsRunning ↔ c.board.interrupts.pending ≠ 0) ∧
    (c.enterStop.IsRunning ↔ c.board.interrupts.pending &&& stopMask ≠ 0) ∧
    (∀ call, ¬ (c.call call).IsRunning → (c.call call).board.dma.begin? = none →
      (c.call call).step.2.cpu = c.cpu ∧ (c.call call).step.2.ResetPending) := by
  have hrun : c.IsRunning := h.responds hpending
  refine ⟨hrun, resetPending_call hpending, ?_, step_takes_reset hpending hrun,
    power_sleep_eq_run_iff (by decide) hrun, power_sleep_eq_run_iff (by decide) hrun, ?_⟩
  · intro t hbegin
    have hactivity : c.activity ≠ .execute := by
      rw [activity_eq_transfer_iff.2 hbegin]
      exact Activity.noConfusion
    exact (driven_step hactivity).resetRequested.trans hpending
  · -- Only the two calls for sleep can leave the console asleep, and the reset then waits with it.
    intro call hasleep hidle
    have hcpu : (c.call call).cpu = c.cpu := by cases call <;> rfl
    rw [← hcpu]
    exact step_strands_reset (resetPending_call hpending call) hasleep hidle

/-- A console with nothing in it. -/
def bare : Console NoPeripheral :=
  { cpu := .initial, board := { bootRom := ⟨.ofImage .empty (Nat.zero_le _)⟩ } }

/-- The console without images is one that can be built. -/
theorem ofImages_empty : ofImages .empty none [] = .ok bare := rfl

/-- It takes a reset at once, unless it is halted first. -/
theorem bare_takes_reset :
    bare.requestReset.Attentive ∧ bare.requestReset.ResetPending ∧
      Cpu.Entered .reset bare.cpu bare.requestReset.step.2.cpu ∧
      bare.requestReset.enterHalt.step.2.cpu = bare.cpu := by
  have hattentive : bare.requestReset.Attentive := by
    refine .occur (.host .requestReset) (.fresh ofImages_empty) fun hpending => ?_
    cases hpending
  have hpending : bare.requestReset.ResetPending := rfl
  obtain ⟨-, -, -, htaken, hhalt, -, hstrands⟩ :=
    pending_reset_taken_unless_put_to_sleep hattentive hpending
  have hasleep : ¬ bare.requestReset.enterHalt.IsRunning := fun h => hhalt.1 h rfl
  exact ⟨hattentive, hpending, (htaken (by decide)).1,
    (hstrands .enterHalt hasleep (by decide)).1⟩

/-- A call to halt after the request strands it. -/
theorem not_reset_never_stranded :
    ¬ ∀ c : Console NoPeripheral, c.Reachable → c.ResetPending → c.IsRunning := by
  intro hnever
  have hreachable : (bare.requestReset.enterHalt).Reachable :=
    ((Reachable.fresh ofImages_empty).occur (.host .requestReset)).occur (.host .enterHalt)
  have hrun := hnever _ hreachable rfl
  cases hrun

end Console

end AdvanceCore
