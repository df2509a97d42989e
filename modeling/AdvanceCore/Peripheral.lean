import AdvanceCore.Bus
import AdvanceCore.Timers

/-!
# `AdvanceCore.Peripheral`: hardware attached to the console

Pictures, sound, keys and save memory are attached from outside. An attached unit
answers for regions of the address space and advances with the console. It reports
events as signals, which take effect at the end of a step.
-/

set_option autoImplicit false

namespace AdvanceCore

/-- The events that attached hardware reports. -/
inductive Signal where
  /-- The picture is complete. -/
  | vblank
  /-- A line of the picture is complete. -/
  | hblank (line : Nat)
  /-- A sound FIFO runs low. -/
  | fifoRefresh (fifo : Nat)
  /-- An interrupt is requested. -/
  | interrupt (source : Interrupt)
  deriving DecidableEq, Repr

/-- A unit that can be attached. Addresses reach it relative to its bank. -/
class Peripheral (π : Type) extends MemoryBus π where
  /-- Advances by the cycles that the console has just spent. -/
  step : π → Nat → List Signal × π
  /-- Hears that a timer of the sound has wrapped. -/
  timerWrapped : π → SoundTimerId → List Signal × π := fun p _ => ([], p)

/-- The type of attached hardware when there is none. -/
inductive NoPeripheral where

instance : Peripheral NoPeripheral where
  load8 p := nomatch p
  load16 p := nomatch p
  load32 p := nomatch p
  store8 p := nomatch p
  store16 p := nomatch p
  store32 p := nomatch p
  step p := nomatch p

/-- A place that attached hardware can answer for. -/
inductive Spot where
  /-- Anywhere in one of the sixteen banks. -/
  | bank (n : Nat)
  /-- An offset in the bank of the registers. -/
  | io (offset : Nat)
  deriving DecidableEq, Repr

/-- A part of the address space. -/
inductive Region where
  /-- A whole bank. -/
  | bank (n : Nat)
  /-- Offsets in the bank of the registers, both ends included. -/
  | io (first last : Nat)
  deriving DecidableEq, Repr

/-- Whether a place lies in a region. -/
def Region.covers : Region → Spot → Bool
  | .bank n, .bank m => n == m
  | .io first last, .io offset => first ≤ offset && offset ≤ last
  | _, _ => false

/-- A unit with the regions it answers for. -/
structure Attachment (π : Type) where
  unit : π
  regions : List Region

namespace Attachment

variable {π : Type}

/-- Whether a unit answers for a place. -/
def claims (a : Attachment π) (spot : Spot) : Bool :=
  a.regions.any fun region => region.covers spot

/-- Performs an access on the first unit that answers for a place. -/
def onFirst {α : Type} (spot : Spot) (access : π → α × π) :
    List (Attachment π) → Option α × List (Attachment π)
  | [] => (none, [])
  | a :: rest =>
    if a.claims spot then
      let ⟨unit, regions⟩ := a
      let (answer, unit) := access unit
      (some answer, ⟨unit, regions⟩ :: rest)
    else
      let (answer, rest) := onFirst spot access rest
      (answer, a :: rest)

/-- Lets every unit act in order, and adds their signals to those given. -/
def each (act : π → List Signal × π) (signals : Array Signal) :
    List (Attachment π) → Array Signal × List (Attachment π)
  | [] => (signals, [])
  | ⟨unit, regions⟩ :: rest =>
    let (new, unit) := act unit
    let (signals, rest) := each act (signals ++ new) rest
    (signals, ⟨unit, regions⟩ :: rest)

end Attachment

end AdvanceCore
