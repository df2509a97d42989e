import AdvanceCore.Bits

/-!
# `AdvanceCore.Timer`: one timer channel

A timer counts up and starts over from its reload value when it wraps. It counts the
cycles of its own clock, divided by a prescaler, or the wraps of the timer before it.

A timer on its own clock is not moved cycle by cycle. It remembers the cycle at which
its counter was exact, and both the live counter and the cycle of the next wrap follow
from that.
-/

set_option autoImplicit false

namespace AdvanceCore

/-- The control register of a timer. -/
structure TimerControl where
  word : Half
  deriving DecidableEq, Repr

namespace TimerControl

/-- The bits that exist. -/
def mask : Half := 0x00C7

/-- The cycles of one tick. -/
def prescaler (c : TimerControl) : Nat :=
  match c.word.extractLsb' 0 2 with
  | 0b00#2 => 1
  | 0b01#2 => 64
  | 0b10#2 => 256
  | _ => 1024

/-- The timer counts the wraps of the one before it. -/
def cascades (c : TimerControl) : Bool := c.word.getLsbD 2

/-- A wrap requests an interrupt. -/
def interrupts (c : TimerControl) : Bool := c.word.getLsbD 6

/-- The timer counts. -/
def started (c : TimerControl) : Bool := c.word.getLsbD 7

/-- A tick takes at least one cycle. -/
theorem prescaler_pos (c : TimerControl) : 0 < c.prescaler := by
  unfold prescaler
  split <;> decide

end TimerControl

/-- A timer. -/
structure Timer where
  /-- The value the counter starts over from. -/
  reload : Half := 0
  control : TimerControl := ⟨0⟩
  /-- The counter at cycle `base`. -/
  counter : Half := 0
  /-- The last cycle at which `counter` was exact, and began a tick. -/
  base : Nat := 0
  /-- The cycle of the next wrap of a timer on its own clock. -/
  deadline : Option Nat := none
  deriving DecidableEq, Repr

namespace Timer

/-- Whether a timer counts the wraps of the one before it. The first has none before
it. -/
def isCascading (t : Timer) (isFirst : Bool) : Bool :=
  t.control.started && t.control.cascades && !isFirst

/-- Whether a timer counts on its own clock. -/
def isFreeRunning (t : Timer) (isFirst : Bool) : Bool :=
  t.control.started && !(t.control.cascades && !isFirst)

/-- The ticks from `base` to a cycle. -/
def ticksUntil (t : Timer) (cycle : Nat) : Nat :=
  (cycle - t.base) / t.control.prescaler

/-- The live counter at a cycle before the next wrap. -/
def counterAt (t : Timer) (isFirst : Bool) (cycle : Nat) : Half :=
  if t.isFreeRunning isFirst then t.counter + BitVec.ofNat 16 (t.ticksUntil cycle)
  else t.counter

/-- Makes the counter exact at the last tick up to a cycle. -/
def sync (t : Timer) (isFirst : Bool) (cycle : Nat) : Timer :=
  if t.isFreeRunning isFirst then
    { t with
      counter := t.counterAt isFirst cycle
      base := t.base + t.ticksUntil cycle * t.control.prescaler }
  else t

/-- The cycle of the next wrap, counted from `base`. -/
def nextWrap (t : Timer) : Nat :=
  t.base + (0x10000 - t.counter.toNat) * t.control.prescaler

/-- Derives the deadline from the other fields. -/
def reschedule (t : Timer) (isFirst : Bool) : Timer :=
  { t with deadline := if t.isFreeRunning isFirst then some t.nextWrap else none }

/-- Starts the counter over from the reload value at a cycle. -/
def restart (t : Timer) (cycle : Nat) : Timer :=
  { t with counter := t.reload, base := cycle }

/-- Writes the reload value. -/
def writeReload (t : Timer) (value mask : Half) : Timer :=
  { t with reload := Bits.merge t.reload value mask }

/-- Writes the control register. Starting the timer starts its counter over. -/
def writeControl (t : Timer) (cycle : Nat) (value mask : Half) : Timer :=
  let control : TimerControl := ⟨Bits.merge t.control.word value mask &&& TimerControl.mask⟩
  let starts := !t.control.started && control.started
  let t := { t with control := control }
  if starts then t.restart cycle else t

/-- The next wrap lies after `base`. -/
theorem base_lt_nextWrap (t : Timer) : t.base < t.nextWrap := by
  have hcounter := t.counter.isLt
  have hpos : 0 < (0x10000 - t.counter.toNat) * t.control.prescaler :=
    Nat.mul_pos (by omega) t.control.prescaler_pos
  simp only [nextWrap]
  omega

end Timer

end AdvanceCore
