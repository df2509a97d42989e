import AdvanceCore.InterruptController

/-!
# `AdvanceCore.Proofs.Interrupts.PowerStates`: when the console sleeps and wakes

A sleeping console must not miss the interrupt it waits for, whichever comes last: the
enabling of the source, its request, or the sleep itself. `InterruptController.Operation`
lists everything that can happen to the controller, and `Reachable` the states this leads to.

* `Settled`, `settled_perform`: no pending interrupt ends the current power state, and the
  registers only have the bits that exist. Every operation keeps this.
* `wakers_of_wakes`: an operation that wakes the console leaves an interrupt pending that ends
  the power state it was in, unless it is one of the two that wake it in any case.
* `sleeps_exactly_until_pending`: both for reachable states, source by source.
-/

set_option autoImplicit false

namespace AdvanceCore.InterruptController

/-! ### Operations -/

/-- Everything that can happen to the controller. -/
inductive Operation where
  | write (offset : Nat) (value mask : Half)
  | raise (source : Interrupt)
  | enterHalt
  | enterStop
  | requestReset
  | acknowledgeReset
  | setFiqLine (asserted : Bool)
  deriving DecidableEq, Repr

/-- The operations that wake the console whatever is pending. -/
def Operation.wakesAnyway : Operation → Bool
  | .requestReset => true
  | .setFiqLine asserted => asserted
  | _ => false

/-- The controller after an operation. -/
def perform (c : InterruptController) : Operation → InterruptController
  | .write offset value mask => (c.writeRegister offset value mask).2
  | .raise source => c.raise source
  | .enterHalt => c.enterHalt
  | .enterStop => c.enterStop
  | .requestReset => c.requestReset
  | .acknowledgeReset => c.acknowledgeReset
  | .setFiqLine asserted => c.setFiqLine asserted

/-- The states that operations lead to from a blank controller. -/
inductive Reachable : InterruptController → Prop where
  | blank : Reachable {}
  | perform {c : InterruptController} (op : Operation) : Reachable c → Reachable (c.perform op)

/-! ### Waking up and going to sleep -/

/-- Waking up changes nothing but the power state. -/
theorem checkWake_eq (c : InterruptController) :
    c.checkWake = { c with power := c.checkWake.power } := by
  unfold checkWake
  split <;> rfl

/-- So does going to sleep. -/
theorem sleep_eq (c : InterruptController) (state : PowerState) :
    c.sleep state = { c with power := (c.sleep state).power } := by
  unfold sleep
  split <;> rfl

/-- What would end a power state does not depend on the one the controller is in. -/
theorem wakers_withPower (c : InterruptController) (power state : PowerState) :
    { c with power := power }.wakers state = c.wakers state := by
  cases state <;> rfl

/-- After looking for a reason to wake up there is none left. -/
theorem wakers_power_checkWake (c : InterruptController) :
    c.checkWake.wakers c.checkWake.power = 0 := by
  unfold checkWake
  split
  case isTrue => rfl
  case isFalse h => exact Decidable.of_not_not h

/-- A controller that wakes up has an interrupt pending that ends its sleep. -/
theorem wakers_of_checkWake {c : InterruptController} (hasleep : c.power ≠ .run)
    (hrun : c.checkWake.power = .run) : c.checkWake.wakers c.power ≠ 0 := by
  rw [checkWake_eq, wakers_withPower]
  intro hnone
  have hkept : c.checkWake = c := if_neg (not_not_intro hnone)
  rw [hkept] at hrun
  exact hasleep hrun

/-- Going to sleep wakes nobody. -/
theorem sleep_ne_run {c : InterruptController} {state : PowerState} (hstate : state ≠ .run)
    (hasleep : c.power ≠ .run) : (c.sleep state).power ≠ .run := by
  unfold sleep
  split
  · exact hstate
  · exact hasleep

/-! ### Register writes -/

/-- The write reaches the byte that selects a power state. -/
def SelectsPower (offset : Nat) (mask : Half) : Prop :=
  offset = 0x100 ∧ mask &&& 0xFF00 ≠ 0

/-- What a write can make of the controller, by what it reaches: registers that are only
kept, the enabled sources, the requests, the master switch or the power state. -/
inductive Written (c : InterruptController) (offset : Nat) (mask : Half) :
    InterruptController → Prop where
  | kept (waitStates : Half) (postBoot : Byte) :
      Written c offset mask { c with waitStates := waitStates, postBoot := postBoot }
  | enabled (bits : Half) :
      Written c offset mask { c with enabled := bits &&& sourceMask }.checkWake
  | cleared (bits : Half) :
      Written c offset mask { c with requested := c.requested &&& ~~~bits }
  | masterEnable (bits : Half) :
      Written c offset mask { c with masterEnable := bits &&& 1 }.checkWake
  | slept (postBoot : Byte) (state : PowerState) (hstate : state ≠ .run)
      (hselects : SelectsPower offset mask) :
      Written c offset mask ({ c with postBoot := postBoot }.sleep state)

/-- Writing the flag of the boot program changes that flag only. -/
theorem writePostBoot_eq (c : InterruptController) (value mask : Half) :
    c.writePostBoot value mask = { c with postBoot := (c.writePostBoot value mask).postBoot } := by
  unfold writePostBoot
  split <;> rfl

/-- Every register write is one of them, by its offset. -/
theorem written_writeRegister (c : InterruptController) (offset : Nat) (value mask : Half) :
    Written c offset mask (c.writeRegister offset value mask).2 := by
  unfold writeRegister
  split
  · exact .enabled _
  · exact .cleared _
  · exact .kept _ c.postBoot
  · exact .masterEnable _
  · exact .kept c.waitStates c.postBoot
  · exact .kept c.waitStates c.postBoot
  · -- The halfword of the power control: its low byte goes to the post-boot flag, its high byte
    -- sleeps.
    show Written c 0x100 mask ((c.writePostBoot value mask).writePower value mask)
    rw [writePostBoot_eq]
    unfold writePower enterHalt enterStop
    split
    · next hmask =>
      split
      · exact .slept _ .stop (by decide) ⟨rfl, hmask⟩
      · exact .slept _ .halt (by decide) ⟨rfl, hmask⟩
    · exact .kept c.waitStates _
  · exact .kept c.waitStates c.postBoot

/-! ### What every operation keeps -/

/-- Nothing that is pending ends the power state, and the registers of enabled sources and of
the master switch have no bits that mean nothing. -/
structure Settled (c : InterruptController) : Prop where
  wakers : c.wakers c.power = 0
  enabled : ∀ i, 13 < i → c.enabled.getLsbD i = false
  masterEnable : c.masterEnable = 0 ∨ c.masterEnable = 1

/-- Looking for a wake-up settles the power state. -/
theorem Settled.checkWake {c : InterruptController}
    (henabled : ∀ i, 13 < i → c.enabled.getLsbD i = false)
    (hmaster : c.masterEnable = 0 ∨ c.masterEnable = 1) : c.checkWake.Settled := by
  refine ⟨c.wakers_power_checkWake, ?_, ?_⟩
  · rw [checkWake_eq]
    exact henabled
  · rw [checkWake_eq]
    exact hmaster

/-- A settled controller stays settled as it falls asleep: it does not sleep over a request that
would end the sleep. -/
theorem Settled.sleep {c : InterruptController} (h : c.Settled) (state : PowerState) :
    (c.sleep state).Settled := by
  unfold InterruptController.sleep
  split
  · next hnone =>
    refine ⟨?_, h.enabled, h.masterEnable⟩
    rw [wakers_withPower]
    exact hnone
  · exact h

/-- Fewer requests are no reason to wake up. -/
theorem wakers_clear {c : InterruptController} {state : PowerState} (bits : Half)
    (h : c.wakers state = 0) :
    { c with requested := c.requested &&& ~~~bits }.wakers state = 0 := by
  -- No waker appears when requests are taken away. The mask of the sleep state is the only
  -- difference between the two cases.
  cases state with
  | run => rfl
  | halt =>
    have hpending : c.enabled &&& c.requested = 0 := h
    show c.enabled &&& (c.requested &&& ~~~bits) = 0
    rw [← BitVec.and_assoc, hpending]
    exact BitVec.zero_and
  | stop =>
    have hpending : c.enabled &&& c.requested &&& stopMask = 0 := h
    show c.enabled &&& (c.requested &&& ~~~bits) &&& stopMask = 0
    rw [← BitVec.and_assoc, BitVec.and_assoc _ (~~~bits), BitVec.and_comm (~~~bits),
      ← BitVec.and_assoc, hpending]
    exact BitVec.zero_and

/-- The sources that exist are those of the low fourteen bits. -/
theorem getLsbD_and_sourceMask (bits : Half) {i : Nat} (hi : 13 < i) :
    (bits &&& sourceMask).getLsbD i = false := by
  have hclear : sourceMask.getLsbD i = false := by
    by_cases hlt : i < 16
    · have hmask : ∀ j : Fin 16, 13 < j.val → sourceMask.getLsbD j = false := by decide
      exact hmask ⟨i, hlt⟩ hi
    · exact BitVec.getLsbD_of_ge _ _ (Nat.le_of_not_lt hlt)
  rw [BitVec.getLsbD_and, hclear, Bool.and_false]

/-- A single bit is zero or one. -/
theorem and_one_eq (bits : Half) : bits &&& 1 = 0 ∨ bits &&& 1 = 1 := by
  have htoNat : (bits &&& 1).toNat = bits.toNat % 2 := by
    rw [BitVec.toNat_and]
    exact Nat.and_one_is_mod _
  rcases Nat.mod_two_eq_zero_or_one bits.toNat with h | h
  · exact .inl (BitVec.eq_of_toNat_eq (htoNat.trans h))
  · exact .inr (BitVec.eq_of_toNat_eq (htoNat.trans h))

/-- A register write leaves a settled controller settled. -/
theorem Settled.written {c next : InterruptController} {offset : Nat} {mask : Half}
    (h : c.Settled) (hwritten : Written c offset mask next) : next.Settled := by
  cases hwritten with
  | kept => exact ⟨h.wakers, h.enabled, h.masterEnable⟩
  | enabled bits => exact .checkWake (fun i hi => getLsbD_and_sourceMask bits hi) h.masterEnable
  | cleared bits => exact ⟨wakers_clear bits h.wakers, h.enabled, h.masterEnable⟩
  | masterEnable bits => exact .checkWake h.enabled (and_one_eq bits)
  | slept postBoot state =>
    have hkept : { c with postBoot := postBoot }.Settled :=
      ⟨h.wakers, h.enabled, h.masterEnable⟩
    exact hkept.sleep state

/-- Every operation leaves a settled controller settled. -/
theorem settled_perform {c : InterruptController} (h : c.Settled) (op : Operation) :
    (c.perform op).Settled := by
  cases op with
  | write offset value mask => exact h.written (c.written_writeRegister offset value mask)
  | raise source => exact .checkWake h.enabled h.masterEnable
  | enterHalt => exact h.sleep .halt
  | enterStop => exact h.sleep .stop
  | requestReset => exact ⟨rfl, h.enabled, h.masterEnable⟩
  | acknowledgeReset => exact ⟨h.wakers, h.enabled, h.masterEnable⟩
  | setFiqLine asserted =>
    cases asserted with
    | true => exact ⟨rfl, h.enabled, h.masterEnable⟩
    | false => exact ⟨h.wakers, h.enabled, h.masterEnable⟩

/-- Every reachable controller is settled. By induction on the operations. -/
theorem Reachable.settled {c : InterruptController} (h : c.Reachable) : c.Settled := by
  induction h with
  | blank => exact ⟨rfl, fun _ _ => BitVec.getLsbD_zero, .inl rfl⟩
  | perform op _ ih => exact settled_perform ih op

/-! ### What wakes the console -/

/-- A register write wakes the console only for a pending interrupt. -/
theorem Written.wakers {c next : InterruptController} {offset : Nat} {mask : Half}
    (h : Written c offset mask next) (hasleep : c.power ≠ .run) (hrun : next.power = .run) :
    next.wakers c.power ≠ 0 := by
  cases h with
  | kept => exact absurd hrun hasleep
  | enabled bits => exact wakers_of_checkWake hasleep hrun
  | cleared bits => exact absurd hrun hasleep
  | masterEnable bits => exact wakers_of_checkWake hasleep hrun
  | slept postBoot state hstate => exact absurd hrun (sleep_ne_run hstate hasleep)

/-- What wakes the console is a request that is enabled, unless it is a call that wakes in any case.
-/
theorem wakers_of_wakes {c : InterruptController} {op : Operation}
    (hop : op.wakesAnyway = false) (hasleep : c.power ≠ .run)
    (hrun : (c.perform op).power = .run) : (c.perform op).wakers c.power ≠ 0 := by
  -- What is left without the two excluded operations wakes through `checkWake` or not at all.
  cases op with
  | write offset value mask =>
    exact (c.written_writeRegister offset value mask).wakers hasleep hrun
  | raise source => exact wakers_of_checkWake hasleep hrun
  | enterHalt => exact absurd hrun (sleep_ne_run (by decide) hasleep)
  | enterStop => exact absurd hrun (sleep_ne_run (by decide) hasleep)
  | requestReset => exact absurd hop (by decide)
  | acknowledgeReset => exact absurd hrun hasleep
  | setFiqLine asserted =>
    cases asserted with
    | true => exact absurd hop (by decide)
    | false => exact absurd hrun hasleep

/-! ### Source by source -/

/-- The sources that work without a clock. -/
def stopSources : List Interrupt := [.serial, .keypad, .gamePak]

/-- A source is enabled and requested. -/
def IsPending (c : InterruptController) (source : Interrupt) : Prop :=
  c.pending.getLsbD source.bit = true

/-- What ends a stop is one of three sources. -/
theorem wakers_stop_eq_zero_iff (c : InterruptController) :
    c.wakers .stop = 0 ↔ ∀ source ∈ stopSources, ¬ c.IsPending source := by
  constructor
  · intro h source hsource hpending
    have hbit : (c.pending &&& stopMask).getLsbD source.bit = true := by
      have hmask : ∀ source ∈ stopSources, stopMask.getLsbD source.bit = true := by decide
      rw [BitVec.getLsbD_and, hpending, hmask source hsource]
      rfl
    have hzero : c.pending &&& stopMask = 0 := h
    rw [hzero] at hbit
    exact absurd hbit (by simp)
  · intro h
    refine BitVec.eq_of_getLsbD_eq fun i hi => ?_
    show (c.pending &&& stopMask).getLsbD i = (0 : Half).getLsbD i
    rw [BitVec.getLsbD_and]
    -- Only the bits of the three sources are in the mask.
    have hmask : ∀ j : Fin 16, stopMask.getLsbD j = true →
        ∃ source ∈ stopSources, source.bit = j.val := by decide
    cases hbit : stopMask.getLsbD i with
    | false => simp
    | true =>
      obtain ⟨source, hsource, hi⟩ := hmask ⟨i, hi⟩ hbit
      have hclear := h source hsource
      rw [IsPending, Bool.not_eq_true, hi] at hclear
      rw [hclear]
      simp

/-- A halted console has nothing pending that is enabled, and a stopped one nothing that works
without a clock. An operation wakes them only if it makes such an interrupt pending, or is a
reset request or the assertion of the fast interrupt line. The registers of enabled sources
and of the master switch keep to the bits they have. -/
theorem sleeps_exactly_until_pending {c : InterruptController} (h : c.Reachable) :
    (c.power = .halt → c.enabled &&& c.requested = 0) ∧
    (c.power = .stop → ∀ source ∈ stopSources, ¬ c.IsPending source) ∧
    (∀ i, 13 < i → c.enabled.getLsbD i = false) ∧
    (c.masterEnable = 0 ∨ c.masterEnable = 1) ∧
    ∀ op : Operation, op ≠ .requestReset → op ≠ .setFiqLine true →
      (c.perform op).power = .run →
        (c.power = .halt → (c.perform op).enabled &&& (c.perform op).requested ≠ 0) ∧
        (c.power = .stop → ∃ source ∈ stopSources, (c.perform op).IsPending source) := by
  have hsettled := h.settled
  refine ⟨?_, ?_, hsettled.enabled, hsettled.masterEnable, ?_⟩
  · intro hhalt
    have hnone := hsettled.wakers
    rw [hhalt] at hnone
    exact hnone
  · intro hstop
    have hnone := hsettled.wakers
    rw [hstop] at hnone
    exact c.wakers_stop_eq_zero_iff.1 hnone
  · -- The reset and the asserted FIQ line are the two operations that wake without an interrupt.
    intro op hreset hfiq hrun
    have hop : op.wakesAnyway = false := by
      cases op with
      | requestReset => exact absurd rfl hreset
      | setFiqLine asserted =>
        cases asserted with
        | true => exact absurd rfl hfiq
        | false => rfl
      | _ => rfl
    constructor
    · intro hhalt
      have hwakers := wakers_of_wakes hop (by rw [hhalt]; decide) hrun
      rw [hhalt] at hwakers
      exact hwakers
    · intro hstop
      have hwakers := wakers_of_wakes hop (by rw [hstop]; decide) hrun
      rw [hstop] at hwakers
      -- The wakers of Stop are a masked word, the sources a list: no listed source is pending
      -- exactly if the word is zero.
      refine Classical.byContradiction fun hnone => hwakers ?_
      refine (wakers_stop_eq_zero_iff _).2 fun source hsource hpending => ?_
      exact hnone ⟨source, hsource, hpending⟩

/-- Stopped with the keypad and the end of the picture enabled. -/
def awaitingKeypad : InterruptController :=
  (perform {} (.write 0x000 0x1001 0xFFFF)).perform .enterStop

/-- The end of the picture does not end this stop, and the keypad does. -/
theorem stopped_until_keypad :
    awaitingKeypad.Reachable ∧ awaitingKeypad.power = .stop ∧
      (∀ source ∈ stopSources, ¬ awaitingKeypad.IsPending source) ∧
      (awaitingKeypad.perform (.raise .vblank)).power = .stop ∧
      (awaitingKeypad.perform (.raise .keypad)).power = .run ∧
      ∃ source ∈ stopSources, (awaitingKeypad.perform (.raise .keypad)).IsPending source := by
  have hreachable : awaitingKeypad.Reachable := (Reachable.blank.perform _).perform _
  have hstop : awaitingKeypad.power = .stop := by decide
  have hrun : (awaitingKeypad.perform (.raise .keypad)).power = .run := by decide
  obtain ⟨-, hasleep, -, -, hwakes⟩ := sleeps_exactly_until_pending hreachable
  exact ⟨hreachable, hstop, hasleep hstop, by decide, hrun,
    (hwakes (.raise .keypad) (by decide) (by decide) hrun).2 hstop⟩

end AdvanceCore.InterruptController
