import AdvanceCore.Memory
import AdvanceCore.Proofs.Dma.Lifecycle

/-!
# `AdvanceCore.Proofs.Dma.Repetition`: a channel that repeats

A channel that is set to repeat moves a block each time its signal comes, without a program that
looks after it: a frame of the picture, a line of it, or four more samples for the sound. What it
has to start from is in two places, the registers as written and the addresses and the count as
latched, and each block takes from the second and is completed from both. A stream that drifts by
a unit in each block would be heard or seen, and one of a FIFO whose address moved would stop.

The latched block after `n` rounds has a closed form (`DmaChannel.blockAfter`), and a channel in
the middle of a stream is the channel that was switched on with that block in place of the first
(`Streams`). One round is one step of this (`streams_round`), whatever the bus answers, and any
number of rounds follow by induction (`streams_rounds`).

* `SwitchesOn`: a write that switches a channel on, to repeat at a signal, beside no other.
* `Round`, `runRounds?`: a signal and the block that it starts, over any bus.
* `KeepsRepeating`: what any number of rounds leave.
* `keepsRepeating_of_switchesOn`: they leave this if no channel with a smaller number is active.
* `not_keepsRepeating`: such a channel takes the bus first, though it is off.
-/

set_option autoImplicit false

namespace AdvanceCore

/-! ### The block after a number of rounds -/

namespace DmaChannel

/-- The units that a channel moves in a round. -/
def roundUnits (c : DmaChannel) (i : DmaId) : Nat := if c.feedsFifo i then 4 else c.blockCount i

/-- The bytes of each unit. -/
def unitBytes (c : DmaChannel) (i : DmaId) : Word :=
  if c.feedsFifo i || c.control.movesWords then 4 else 2

/-- How the destination moves within a round. -/
def roundStep (c : DmaChannel) (i : DmaId) : AddressStep :=
  if c.feedsFifo i then .fixed else c.control.destinationStep

/-- Every round begins at the same destination. -/
def keepsDestination (c : DmaChannel) (i : DmaId) : Bool :=
  c.feedsFifo i || c.control.destinationStep = .fixed ||
    c.control.destinationStep = .incrementReload

/-- The latched block of a channel that has moved a number of blocks. -/
def blockAfter (c : DmaChannel) (i : DmaId) (n : Nat) : DmaBlock where
  source := c.latched.source +
    BitVec.ofNat 32 (n * c.roundUnits i) * c.control.sourceStep.distance (c.unitBytes i)
  destination :=
    if c.keepsDestination i then c.latched.destination
    else c.latched.destination +
      BitVec.ofNat 32 (n * c.roundUnits i) * c.control.destinationStep.distance (c.unitBytes i)
  count := c.blockCount i

/-- The channel with the block of a later round. -/
def afterRounds (c : DmaChannel) (i : DmaId) (n : Nat) : DmaChannel :=
  { c with latched := c.blockAfter i n }

/-- One round more moves an address on by the units of one block. -/
theorem add_round (address step : Word) (n units : Nat) :
    address + BitVec.ofNat 32 (n * units) * step + BitVec.ofNat 32 units * step =
      address + BitVec.ofNat 32 ((n + 1) * units) * step := by
  rw [BitVec.add_assoc, ← BitVec.add_mul, ← BitVec.ofNat_add, Nat.succ_mul]

/-- The destination goes back to the one in the registers if it is reloaded, and does not move in
a FIFO or if it is fixed. Otherwise a round begins where the one before has ended. -/
theorem destination_blockAfter_succ {c : DmaChannel} {i : DmaId}
    (h : c.latched.destination = c.maskedDestination i) (n : Nat) :
    (c.blockAfter i (n + 1)).destination =
      if c.control.destinationStep = .incrementReload then c.maskedDestination i
      else (c.blockAfter i n).destination +
        BitVec.ofNat 32 (c.roundUnits i) * (c.roundStep i).distance (c.unitBytes i) := by
  have hfixed (address bytes : Word) (k : Nat) :
      address + BitVec.ofNat 32 k * AddressStep.fixed.distance bytes = address := by
    show address + BitVec.ofNat 32 k * 0#32 = address
    rw [BitVec.mul_zero, BitVec.add_zero]
  unfold blockAfter keepsDestination roundStep
  rw [← h]
  -- A FIFO overrides the setting, so the four settings are told apart for the others only.
  cases c.feedsFifo i with
  | true =>
    simp only [Bool.true_or, if_true]
    rw [hfixed, ite_self]
  | false =>
    cases c.control.destinationStep with
    | increment | decrement => exact (add_round ..).symm
    | fixed => exact (hfixed ..).symm
    | incrementReload => rfl

/-- What has just been latched is the block of the first round. -/
theorem afterRounds_zero {c : DmaChannel} {i : DmaId} (h : c.latched.count = c.blockCount i) :
    c.afterRounds i 0 = c := by
  have hstart (address step : Word) :
      address + BitVec.ofNat 32 (0 * c.roundUnits i) * step = address := by
    rw [Nat.zero_mul, BitVec.zero_mul, BitVec.add_zero]
  have hblock : c.blockAfter i 0 = c.latched := by
    unfold blockAfter
    rw [hstart, hstart, ite_self, ← h]
  unfold afterRounds
  rw [hblock]

end DmaChannel

namespace Dma

open DmaChannel

/-! ### Signals -/

/-- What is not a write. -/
def Operation.IsSignal : Operation → Prop
  | .write _ _ _ => False
  | .vblank | .hblank _ | .fifoRefresh _ => True

/-- A channel that is on is started by signals only. -/
theorem Starts.isSignal {d : Dma} {i : DmaId} {op : Operation} (h : d.Starts i op)
    (hon : (d.get i).control.enabled = true) : op.IsSignal := by
  cases op with
  | write offset value mask =>
    obtain ⟨hoff, -⟩ := h
    rw [hon] at hoff
    cases hoff
  | vblank | hblank | fifoRefresh => trivial

/-- A signal passes a channel that is off. -/
theorem get_perform_of_off {d : Dma} {j : DmaId} {op : Operation} (hsignal : op.IsSignal)
    (hoff : (d.get j).control.enabled = false) : (d.perform op).get j = d.get j := by
  cases op with
  | write => exact hsignal.elim
  | vblank => exact (d.get_trigger _ j).trans (if_neg (by simp [hoff]))
  | hblank line =>
    refine (d.get_signalHblank line j).trans ?_
    rw [if_neg (by simp [capturesLines, hoff]), if_neg (by simp [hoff])]
  | fifoRefresh fifo => exact (d.get_trigger _ j).trans (if_neg (by simp [hoff]))

/-- All that a signal does to a channel that it starts is to make it active. -/
theorem get_perform_of_starts {d : Dma} {i : DmaId} {op : Operation}
    (hon : (d.get i).control.enabled = true) (hidle : (d.get i).active = false)
    (h : d.Starts i op) : (d.perform op).get i = { d.get i with active := true } := by
  have hactive : ((d.perform op).get i).active = true := (active_perform_iff hidle op).mpr h
  have hsignalled : (d.get i).Signalled ((d.perform op).get i) := by
    cases op with
    | write => exact (h.isSignal hon).elim
    | vblank => exact d.signalled_trigger _ i
    | hblank line => exact d.signalled_signalHblank line i
    | fifoRefresh fifo => exact d.signalled_trigger _ i
  generalize (d.perform op).get i = after at hactive hsignalled
  -- Of the things a signal can do, being started is the only one that leaves the channel active.
  cases hsignalled with
  | ignored =>
    rw [hidle] at hactive
    cases hactive
  | started => rfl
  | ended => cases hactive

/-- The bus belongs to the first active channel. -/
theorem owner?_of_first {d : Dma} {i : DmaId} (hactive : (d.get i).active = true)
    (hfirst : ∀ j < i, (d.get j).active = false) : d.owner? = some i := by
  -- The scan passes the lower channels first, and these are inactive.
  have hsplit : ∀ i : DmaId,
      List.finRange 4 = (List.finRange 4).take i.val ++ i :: (List.finRange 4).drop (i.val + 1) ∧
        ∀ j ∈ (List.finRange 4).take i.val, j < i := by decide
  obtain ⟨hlist, hbefore⟩ := hsplit i
  have hnone : ((List.finRange 4).take i.val).find? (fun j => (d.get j).active) = none := by
    refine List.find?_eq_none.mpr fun j hj => ?_
    rw [hfirst j (hbefore j hj)]
    exact Bool.false_ne_true
  unfold owner?
  rw [hlist, List.find?_append, hnone, Option.none_or]
  exact List.find?_cons_of_pos hactive

/-! ### One round -/

/-- The channel `i` has been switched on to repeat at a signal, beside no other channel, and no
channel before it is active. -/
structure Ready (d : Dma) (i : DmaId) : Prop where
  on : (d.get i).control.enabled = true
  repeats : (d.get i).control.repeats = true
  timing : (d.get i).control.timing ≠ .immediate
  idle : (d.get i).active = false
  count : (d.get i).latched.count = (d.get i).blockCount i
  destination : (d.get i).latched.destination = (d.get i).maskedDestination i
  alone : ∀ j, j ≠ i → (d.get j).control.enabled = false
  first : ∀ j < i, (d.get j).active = false

/-- The channels `n` rounds after those of `d₀`, where the channel `i` had just been switched
on. -/
structure Streams (d₀ : Dma) (i : DmaId) (n : Nat) (d : Dma) : Prop where
  channel : d.get i = (d₀.get i).afterRounds i n
  others : ∀ j, j ≠ i → d.get j = d₀.get j

section Streaming

variable {d₀ d : Dma} {i : DmaId} {n : Nat}

/-- A channel that is active after some rounds moves as many units as in the first one. -/
theorem count_transferOf (hget : d.get i = { (d₀.get i).afterRounds i n with active := true }) :
    (d.transferOf i).count = (d₀.get i).roundUnits i := by
  show (if (d.get i).feedsFifo i then 4 else (d.get i).latched.count) = _
  rw [hget]
  rfl

/-- Its units have the same size. -/
theorem unit_transferOf (hget : d.get i = { (d₀.get i).afterRounds i n with active := true }) :
    (d.transferOf i).unit = (d₀.get i).unitBytes i := by
  show (if (d.get i).feedsFifo i || (d.get i).control.movesWords then _ else _) = _
  rw [hget]
  rfl

/-- The source of its block ends where the source of the next round begins. -/
theorem sourceAfter_transferOf
    (hget : d.get i = { (d₀.get i).afterRounds i n with active := true }) :
    (d.transferOf i).sourceAfter (d.transferOf i).count =
      ((d₀.get i).blockAfter i (n + 1)).source := by
  show (d.get i).latched.source + BitVec.ofNat 32 (d.transferOf i).count *
    (d.get i).control.sourceStep.distance (d.transferOf i).unit = _
  rw [count_transferOf hget, unit_transferOf hget, hget]
  exact add_round ..

/-- The destination of the next round is the one where its block ends, except that a destination
which is reloaded starts over. -/
theorem destinationAfter_transferOf
    (hget : d.get i = { (d₀.get i).afterRounds i n with active := true })
    (hlatched : (d₀.get i).latched.destination = (d₀.get i).maskedDestination i) :
    ((d₀.get i).blockAfter i (n + 1)).destination =
      if (d₀.get i).control.destinationStep = .incrementReload then (d₀.get i).maskedDestination i
      else (d.transferOf i).destinationAfter (d.transferOf i).count := by
  have hafter : (d.transferOf i).destinationAfter (d.transferOf i).count =
      ((d₀.get i).blockAfter i n).destination + BitVec.ofNat 32 ((d₀.get i).roundUnits i) *
        ((d₀.get i).roundStep i).distance ((d₀.get i).unitBytes i) := by
    show (d.get i).latched.destination + BitVec.ofNat 32 (d.transferOf i).count *
      AddressStep.distance (if (d.get i).feedsFifo i then _ else _) (d.transferOf i).unit = _
    rw [count_transferOf hget, unit_transferOf hget, hget]
    rfl
  rw [hafter]
  exact destination_blockAfter_succ hlatched n

/-- The block of a round ends where the block of the next begins. -/
theorem complete_transferOf {β : Type} [MemoryBus β] (h : d₀.Ready i)
    (hget : d.get i = { (d₀.get i).afterRounds i n with active := true }) (bus : β) :
    let t := ((d.transferOf i).run bus).1
    (d.get i).complete i t.source t.destination = (d₀.get i).afterRounds i (n + 1) := by
  let c := d₀.get i
  let t := d.transferOf i
  obtain ⟨value, hrun⟩ := t.fst_run bus
  intro t'
  have ht' : t' = _ := hrun
  have hrepeats : (c.control.repeats && c.control.timing ≠ .immediate) = true := by
    rw [h.repeats, decide_eq_true h.timing]
    rfl
  rw [ht', hget]
  show (if c.control.repeats && c.control.timing ≠ .immediate then _ else _) = _
  rw [if_pos hrepeats]
  -- A channel that repeats latches what its block leaves, and a full count.
  have hblock : c.blockAfter i (n + 1) =
      ⟨t.sourceAfter t.count,
        if c.control.destinationStep = .incrementReload then c.maskedDestination i
        else t.destinationAfter t.count, c.blockCount i⟩ := by
    rw [← destinationAfter_transferOf hget h.destination, sourceAfter_transferOf hget]
    rfl
  show _ = { c with latched := c.blockAfter i (n + 1) }
  have hidle : c.active = false := h.idle
  rw [hblock, ← hidle]
  rfl

/-- What the channel has waited for in the first round it still waits for. The address of a FIFO,
which its signal looks for, has not moved. -/
theorem Streams.starts (h : Streams d₀ i n d) {op : Operation} (hon : (d₀.get i).control.enabled)
    (hstarts : d₀.Starts i op) : d.Starts i op := by
  have hcontrol : (d.get i).control = (d₀.get i).control := by
    rw [h.channel]
    rfl
  -- The channel is as it was but for its latched addresses, which none of the start conditions
  -- reads except that of the FIFO. That one keeps its destination.
  cases op with
  | write => exact (hstarts.isSignal hon).elim
  | vblank =>
    unfold Starts at hstarts ⊢
    rw [hcontrol]
    exact hstarts
  | hblank line =>
    unfold Starts at hstarts ⊢
    rw [hcontrol]
    exact hstarts
  | fifoRefresh fifo =>
    obtain ⟨-, hspecial, hfifo, haddress⟩ := hstarts
    have hfeeds : (d₀.get i).feedsFifo i = true := by
      unfold feedsFifo
      simpa [hspecial] using hfifo
    refine ⟨hcontrol ▸ hon, hcontrol ▸ hspecial, hfifo, ?_⟩
    rw [h.channel, ← haddress]
    show (if (d₀.get i).keepsDestination i then _ else _) = _
    unfold keepsDestination
    rw [hfeeds]
    rfl

/-- After its signal the channel has the bus, and nothing else has changed. -/
theorem Streams.begin? (h : Streams d₀ i n d) (hready : d₀.Ready i) {op : Operation}
    (hstarts : d₀.Starts i op) :
    (d.perform op).begin? = some ((d.perform op).transferOf i) ∧
      (d.perform op).get i = { (d₀.get i).afterRounds i n with active := true } ∧
      ∀ j, j ≠ i → (d.perform op).get j = d₀.get j := by
  have hon : (d.get i).control.enabled = true := by
    rw [h.channel]
    exact hready.on
  have hidle : (d.get i).active = false := by
    rw [h.channel]
    exact hready.idle
  have hstarts' : d.Starts i op := h.starts hready.on hstarts
  have hchannel : (d.perform op).get i = { (d₀.get i).afterRounds i n with active := true } := by
    rw [get_perform_of_starts hon hidle hstarts', h.channel]
  have hothers (j : DmaId) (hj : j ≠ i) : (d.perform op).get j = d₀.get j := by
    have hoff : (d.get j).control.enabled = false := by
      rw [h.others j hj]
      exact hready.alone j hj
    exact (get_perform_of_off (hstarts'.isSignal hon) hoff).trans (h.others j hj)
  -- No channel of higher priority is active, neither before the signal nor after it.
  have howner : (d.perform op).owner? = some i := by
    refine owner?_of_first (by rw [hchannel]) fun j hj => ?_
    rw [hothers j (Fin.ne_of_lt hj)]
    exact hready.first j hj
  refine ⟨?_, hchannel, hothers⟩
  unfold Dma.begin?
  rw [howner]
  rfl

end Streaming

/-! ### Any number of rounds -/

/-- A signal, and what its block finds: the bus to move its units over, which does not lead to the
channels, and the interrupts. -/
structure Round (β : Type) where
  signal : Operation
  bus : β
  interrupts : InterruptController

section Rounds

variable {β : Type} [MemoryBus β]

/-- The channels and the interrupts after a round, if a channel takes the bus. -/
def Round.run? (r : Round β) (d : Dma) : Option (Dma × InterruptController) :=
  (d.perform r.signal).begin?.map fun t =>
    (d.perform r.signal).finish (t.run r.bus).1 r.interrupts

/-- The channels after rounds, with the interrupts that each round has left. -/
def runRounds? (d : Dma) : List (Round β) → Option (Dma × List InterruptController)
  | [] => some (d, [])
  | r :: rest => do
    let (d, interrupts) ← r.run? d
    let (d, later) ← runRounds? d rest
    return (d, interrupts :: later)

/-- The interrupts after a round of a channel. -/
def Round.interruptsAfter (r : Round β) (c : DmaChannel) (i : DmaId) : InterruptController :=
  if c.control.interrupts then r.interrupts.raise (.dma i) else r.interrupts

variable {d₀ d : Dma} {i : DmaId} {n : Nat}

/-- One round leads from the block with one number to the block with the next. -/
theorem streams_round (hready : d₀.Ready i) (h : Streams d₀ i n d) {r : Round β}
    (hstarts : d₀.Starts i r.signal) :
    ∃ d', r.run? d = some (d', r.interruptsAfter (d₀.get i) i) ∧ Streams d₀ i (n + 1) d' := by
  let signalled := d.perform r.signal
  let t := ((signalled.transferOf i).run r.bus).1
  obtain ⟨hbegin, hchannel, hothers⟩ := h.begin? hready hstarts
  have hfor : t.channel = i := DmaTransfer.channel_run ..
  -- The signal starts the channel, its block runs, and finishing it is one more round.
  refine ⟨(signalled.finish t r.interrupts).1, ?_, ?_, fun j hj => ?_⟩
  · have hinterrupts : (signalled.finish t r.interrupts).2 =
        r.interruptsAfter (d₀.get i) i := by
      show (if (signalled.get t.channel).control.interrupts then
        r.interrupts.raise (.dma t.channel) else r.interrupts) = _
      rw [hfor, hchannel]
      rfl
    unfold Round.run?
    rw [hbegin, ← hinterrupts]
    rfl
  · rw [get_finish, if_pos hfor]
    exact complete_transferOf hready hchannel r.bus
  · rw [get_finish, if_neg (by rw [hfor]; exact hj.symm)]
    exact hothers j hj

/-- Round after round, the block moves on by its own length. -/
theorem streams_rounds (hready : d₀.Ready i) (h : Streams d₀ i n d) {rounds : List (Round β)}
    (hsignals : ∀ r ∈ rounds, d₀.Starts i r.signal) :
    ∃ d', runRounds? d rounds =
        some (d', rounds.map fun r => r.interruptsAfter (d₀.get i) i) ∧
      Streams d₀ i (n + rounds.length) d' := by
  -- On the rounds, with `streams_round` for the first of them.
  induction rounds generalizing d n with
  | nil => exact ⟨d, rfl, h⟩
  | cons r rest ih =>
    obtain ⟨next, hround, hnext⟩ := streams_round hready h (hsignals r List.mem_cons_self)
    obtain ⟨last, hrest, hlast⟩ := ih hnext fun r' hr' => hsignals r' (List.mem_cons_of_mem r hr')
    refine ⟨last, ?_, ?_⟩
    · unfold runRounds?
      rw [hround]
      show (runRounds? next rest).bind _ = _
      rw [hrest]
      rfl
    · have hlength : n + (r :: rest).length = n + 1 + rest.length := by
        rw [List.length_cons]
        omega
      rw [hlength]
      exact hlast

end Rounds

/-! ### Switching a channel on -/

/-- The write switches the channel on, to repeat at a signal, beside no other channel. -/
structure SwitchesOn (d : Dma) (i : DmaId) (offset : Nat) (value mask : Half) : Prop where
  before : (d.get i).control.enabled = false
  on : ((d.perform (.write offset value mask)).get i).control.enabled = true
  repeats : ((d.perform (.write offset value mask)).get i).control.repeats = true
  timing : ((d.perform (.write offset value mask)).get i).control.timing ≠ .immediate
  alone : ∀ j, j ≠ i → ((d.perform (.write offset value mask)).get j).control.enabled = false

/-- The channel `i` of `d₀` repeats: all of these rounds take place, and each of them raises the
interrupt of the channel if it is set to. They leave the channel on and waiting, with the block
that is due after as many rounds, and the other channels as they were. Each signal that starts it
in `d₀` starts it again, and it gets the bus. -/
def KeepsRepeating {β : Type} [MemoryBus β] (d₀ : Dma) (i : DmaId) (rounds : List (Round β)) :
    Prop :=
  ∃ d, runRounds? d₀ rounds = some (d, rounds.map fun r => r.interruptsAfter (d₀.get i) i) ∧
    (d.get i).control.enabled = true ∧ (d.get i).active = false ∧
    (d.get i).latched = (d₀.get i).blockAfter i rounds.length ∧
    (∀ j, j ≠ i → d.get j = d₀.get j) ∧
    ∀ op, d₀.Starts i op → (d.perform op).begin? = some ((d.perform op).transferOf i)

/-- The latched block has gone as far as the closed form says, and so it begins the next round. -/
theorem Ready.keepsRepeating {β : Type} [MemoryBus β] {d₀ : Dma} {i : DmaId} (h : d₀.Ready i)
    (rounds : List (Round β)) (hsignals : ∀ r ∈ rounds, d₀.Starts i r.signal) :
    KeepsRepeating d₀ i rounds := by
  have hstart : Streams d₀ i 0 d₀ := ⟨(afterRounds_zero h.count).symm, fun _ _ => rfl⟩
  obtain ⟨last, hrun, hlast⟩ := streams_rounds h hstart hsignals
  rw [Nat.zero_add] at hlast
  refine ⟨last, hrun, ?_, ?_, ?_, hlast.others, fun op hop => (hlast.begin? h hop).1⟩
  · rw [hlast.channel]
    exact h.on
  · rw [hlast.channel]
    exact h.idle
  · rw [hlast.channel]
    rfl

section SwitchedOn

variable {d : Dma} {i : DmaId} {offset : Nat} {value mask : Half}

/-- A write that switches a channel on latches what is in its registers. -/
theorem SwitchesOn.ready (h : SwitchesOn d i offset value mask)
    (hfirst : ∀ j < i, ((d.perform (.write offset value mask)).get j).active = false) :
    (d.perform (.write offset value mask)).Ready i := by
  have hwritten : (d.get i).Written i ((d.perform (.write offset value mask)).get i) :=
    d.written_writeRegister offset value mask i
  have hbefore := h.before
  have hon := h.on
  have htiming := h.timing
  refine ⟨hon, h.repeats, htiming, ?_, ?_, ?_, h.alone, hfirst⟩
  -- Of all that a write can do to a channel only the last switches it on.
  all_goals
    generalize (d.perform (.write offset value mask)).get i = after at hwritten hon htiming ⊢
    cases hwritten with
    | programmed source destination count control hsame =>
      have hoff : control.enabled = false := hsame.trans hbefore
      exact absurd (hoff.symm.trans hon) Bool.false_ne_true
    | switchedOff control hoff => exact absurd (hoff.symm.trans hon) Bool.false_ne_true
    | switchedOn control hoff hon' => first | exact decide_eq_false htiming | rfl

variable {β : Type} [MemoryBus β]

/-- A channel that a write switches on, to repeat at its signal, does so for any number of rounds
and over any bus: it neither stops nor drifts. No other channel is on, and none before it is
active, as the first active channel has the bus. -/
theorem keepsRepeating_of_switchesOn (h : SwitchesOn d i offset value mask)
    (hfirst : ∀ j < i, ((d.perform (.write offset value mask)).get j).active = false)
    (rounds : List (Round β))
    (hsignals : ∀ r ∈ rounds, (d.perform (.write offset value mask)).Starts i r.signal) :
    KeepsRepeating (d.perform (.write offset value mask)) i rounds :=
  (h.ready hfirst).keepsRepeating rounds hsignals

/-- In a state that operations and blocks lead to, a channel that is off is not active. -/
theorem SwitchesOn.first (h : SwitchesOn d i offset value mask) (hreachable : Reachable d) :
    ∀ j < i, ((d.perform (.write offset value mask)).get j).active = false := by
  intro j hj
  have hsound := (hreachable.perform (.write offset value mask)).sound j
  have hoff := h.alone j (Fin.ne_of_lt hj)
  refine Bool.eq_false_iff.mpr fun hactive => ?_
  rw [hsound.enabled_of_active hactive] at hoff
  cases hoff

/-- So there a channel that is switched on alone repeats. -/
theorem keepsRepeating_of_reachable (hreachable : Reachable d)
    (h : SwitchesOn d i offset value mask) (rounds : List (Round β))
    (hsignals : ∀ r ∈ rounds, (d.perform (.write offset value mask)).Starts i r.signal) :
    KeepsRepeating (d.perform (.write offset value mask)) i rounds :=
  (h.ready (h.first hreachable)).keepsRepeating rounds hsignals

end SwitchedOn

/-- The second channel takes samples from external work RAM to the first FIFO. -/
def sampled : Dma := programmed [(14, 0x0200), (16, 0x00A0), (18, 0x0400)]

/-- Two requests of the FIFO, with the interrupt of the channel. -/
theorem keepsRepeating_sampled :
    let ram : WorkRam 0x20 := .zero 0x20 (Nat.succ_pos _)
    KeepsRepeating (sampled.perform (.write 22 0xF600 0xFFFF)) 1
      [⟨.fifoRefresh 0, ram, {}⟩, ⟨.fifoRefresh 0, ram, {}⟩] := by
  intro ram
  have hon : SwitchesOn sampled 1 22 0xF600 0xFFFF :=
    ⟨by decide, by decide, by decide, by decide, by decide⟩
  refine keepsRepeating_of_switchesOn hon (by decide) _ fun r hr => ?_
  have hsignal : r.signal = .fifoRefresh 0 := by
    rcases List.mem_cons.mp hr with rfl | hr
    · rfl
    · rw [List.mem_singleton.mp hr]
  rw [hsignal]
  exact ⟨by decide, by decide, by decide, by decide⟩

/-- The first channel is active though it is off. No operation and no block leads here. -/
def stuck : Dma :=
  (({} : Dma).set 0 { active := true }).set 1 { source := 256, destination := 512, count := 2 }

/-- There the first channel gets the bus in the round of the second, which is left active. -/
theorem not_keepsRepeating :
    ¬ ∀ (d : Dma) (i : DmaId) (offset : Nat) (value mask : Half),
      SwitchesOn d i offset value mask → ∀ rounds : List (Round (WorkRam 0x20)),
        (∀ r ∈ rounds, (d.perform (.write offset value mask)).Starts i r.signal) →
          KeepsRepeating (d.perform (.write offset value mask)) i rounds := by
  intro hkeeps
  let frame : Round (WorkRam 0x20) := ⟨.vblank, .zero 0x20 (Nat.succ_pos _), {}⟩
  have hon : SwitchesOn stuck 1 22 0x9200 0xFFFF :=
    ⟨by decide, by decide, by decide, by decide, by decide⟩
  have hsignals : ∀ r ∈ [frame], (stuck.perform (.write 22 0x9200 0xFFFF)).Starts 1 r.signal := by
    intro r hr
    rw [List.mem_singleton.mp hr]
    exact ⟨by decide, by decide⟩
  obtain ⟨d, hrun, -, hidle, -⟩ := hkeeps stuck 1 22 0x9200 0xFFFF hon [frame] hsignals
  have hactive : (runRounds? (stuck.perform (.write 22 0x9200 0xFFFF)) [frame]).map
      (fun after => (after.1.get 1).active) = some true := by decide
  rw [hrun] at hactive
  exact absurd (hidle.symm.trans (Option.some.inj hactive)) Bool.false_ne_true

end Dma

end AdvanceCore
