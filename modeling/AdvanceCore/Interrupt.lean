import AdvanceCore.Bits

/-!
# `AdvanceCore.Interrupt`: the sources of interrupts

Each source has a bit of its own in the interrupt registers.
-/

set_option autoImplicit false

namespace AdvanceCore

/-- The number of a timer. -/
abbrev TimerId := Fin 4

/-- The number of a DMA channel. -/
abbrev DmaId := Fin 4

/-- Timers and channels are written as numerals. -/
instance DmaId.instNeZero : @NeZero Nat Zero.ofOfNat0 4 := ⟨by decide⟩

/-- The sources of interrupts. -/
inductive Interrupt where
  /-- The picture is complete. -/
  | vblank
  /-- A line of the picture is complete. -/
  | hblank
  /-- A chosen line is reached. -/
  | vcount
  /-- A timer has overflowed. -/
  | timer (n : TimerId)
  | serial
  /-- A DMA channel has moved its block. -/
  | dma (n : DmaId)
  | keypad
  | gamePak
  deriving DecidableEq, Repr

namespace Interrupt

/-- The bit of a source. -/
def bit : Interrupt → Nat
  | .vblank => 0
  | .hblank => 1
  | .vcount => 2
  | .timer n => 3 + n.val
  | .serial => 7
  | .dma n => 8 + n.val
  | .keypad => 12
  | .gamePak => 13

/-- The word with the bit of a source alone. -/
def mask (i : Interrupt) : Half := BitVec.twoPow 16 i.bit

/-- A number as one of four, where the last stands for all that follow. -/
def lastOfFour (n : Nat) : Fin 4 := ⟨min n 3, by omega⟩

/-- The overflow interrupt of a timer. -/
def ofTimer (n : Nat) : Interrupt := .timer (lastOfFour n)

/-- The completion interrupt of a DMA channel. -/
def ofDma (n : Nat) : Interrupt := .dma (lastOfFour n)

/-- There are fourteen sources. -/
theorem bit_lt (i : Interrupt) : i.bit < 14 := by
  cases i <;> simp only [bit] <;> omega

end Interrupt

end AdvanceCore
