import AdvanceCore.Alu
import AdvanceCore.Condition
import AdvanceCore.Mode

/-!
# `AdvanceCore.Psr`: program status registers

A status word holds the four condition flags in bits 31 to 28, the interrupt
disables in bits 7 and 6, the instruction set in bit 5 and the mode in bits 4 to 0.
The other bits are kept as they are written.
-/

set_option autoImplicit false

namespace AdvanceCore

open Bits

/-- The instruction set the processor is decoding. -/
inductive CpuState where
  /-- Sixteen-bit codes. -/
  | thumb
  /-- Thirty-two-bit codes. -/
  | arm
  deriving DecidableEq, Repr

namespace CpuState

/-- The state a T bit stands for. -/
def ofBit (t : Bool) : CpuState :=
  if t then .thumb else .arm

/-- The T bit of a state. -/
def bit : CpuState → Bool
  | .thumb => true
  | .arm => false

/-- The size of one code in bytes. -/
def instructionWidth : CpuState → Word
  | .arm => 4
  | .thumb => 2

/-- The distance from the executing instruction to R15: two codes. -/
def pipelineOffset (s : CpuState) : Word :=
  s.instructionWidth * 2

/-- The name a state has in reports. -/
def name : CpuState → String
  | .thumb => "Thumb"
  | .arm => "Arm"

end CpuState

/-- A program status register, current or saved. -/
structure Psr where
  /-- The register as a word. -/
  word : Word
  deriving DecidableEq, Repr

namespace Psr

/-! ### Fields -/

/-- N: the last result was negative. -/
def sign (p : Psr) : Bool := p.word.getLsbD 31

/-- Z: the last result was zero. -/
def zero (p : Psr) : Bool := p.word.getLsbD 30

/-- C: the last addition carried, or the last subtraction did not borrow. -/
def carry (p : Psr) : Bool := p.word.getLsbD 29

/-- V: the last result overflowed as a signed number. -/
def overflow (p : Psr) : Bool := p.word.getLsbD 28

/-- I: interrupts are masked. -/
def irqDisable (p : Psr) : Bool := p.word.getLsbD 7

/-- F: fast interrupts are masked. -/
def fiqDisable (p : Psr) : Bool := p.word.getLsbD 6

/-- T: the processor decodes Thumb codes. -/
def stateBit (p : Psr) : Bool := p.word.getLsbD 5

/-- The instruction set that the T bit selects. -/
def state (p : Psr) : CpuState := .ofBit p.stateBit

/-- The mode. Bits that belong to no mode read as Supervisor. -/
def mode (p : Psr) : Mode :=
  match Mode.ofBits (field p.word 0 4).toNat with
  | .ok m => m
  | .error _ => .supervisor

/-! ### Changing a field -/

/-- Sets N. -/
def withSign (p : Psr) (on : Bool) : Psr := ⟨setBit p.word 31 on⟩

/-- Sets Z. -/
def withZero (p : Psr) (on : Bool) : Psr := ⟨setBit p.word 30 on⟩

/-- Sets C. -/
def withCarry (p : Psr) (on : Bool) : Psr := ⟨setBit p.word 29 on⟩

/-- Sets V. -/
def withOverflow (p : Psr) (on : Bool) : Psr := ⟨setBit p.word 28 on⟩

/-- Sets I. -/
def withIrqDisable (p : Psr) (on : Bool) : Psr := ⟨setBit p.word 7 on⟩

/-- Sets F. -/
def withFiqDisable (p : Psr) (on : Bool) : Psr := ⟨setBit p.word 6 on⟩

/-- Sets T. -/
def withStateBit (p : Psr) (on : Bool) : Psr := ⟨setBit p.word 5 on⟩

/-- Selects an instruction set. -/
def withState (p : Psr) (s : CpuState) : Psr := p.withStateBit s.bit

/-- Selects a mode. -/
def withMode (p : Psr) (m : Mode) : Psr := ⟨setField p.word 0 4 (BitVec.ofNat 32 m.bits)⟩

/-- Sets the four flags from a sum. -/
def withFlags (p : Psr) (r : AluResult) : Psr :=
  (((p.withCarry r.carry).withZero r.zero).withSign r.sign).withOverflow r.overflow

/-- Sets N and Z from a word, as logical operations and multiplications do. -/
def withSignAndZero (p : Psr) (value : Word) : Psr :=
  (p.withSign value.msb).withZero (value == 0)

/-- Takes the bits under `mask` from `value`. -/
def merge (p : Psr) (value mask : Word) : Psr := ⟨Bits.merge p.word value mask⟩

/-- The status word with the given mode and every other bit clear. -/
def ofMode (m : Mode) : Psr := withMode ⟨0⟩ m

/-! ### Reading a field back -/

/-- The mode that is set is read back. -/
@[simp] theorem mode_withMode (p : Psr) (m : Mode) : (p.withMode m).mode = m := by
  have hfield : (p.withMode m).mode = (Psr.mk (BitVec.ofNat 32 m.bits)).mode := by
    unfold mode withMode
    rw [field_setField _ _ (by decide) (by decide)]
  rw [hfield]
  cases m <;> decide

/-- Bits above the mode field do not select the mode. -/
theorem mode_setBit (p : Psr) {i : Nat} (hlow : 4 < i) (hlt : i < 32) (on : Bool) :
    (Psr.mk (setBit p.word i on)).mode = p.mode := by
  unfold mode
  rw [field_setBit _ _ (by decide) hlt (.inr hlow)]

/-- The T bit is outside of the mode field. -/
@[simp] theorem mode_withState (p : Psr) (s : CpuState) : (p.withState s).mode = p.mode :=
  mode_setBit p (by decide) (by decide) _

/-- The interrupt mask is outside of the mode field. -/
@[simp] theorem mode_withIrqDisable (p : Psr) (on : Bool) : (p.withIrqDisable on).mode = p.mode :=
  mode_setBit p (by decide) (by decide) _

/-- The mask of fast interrupts is outside of the mode field. -/
@[simp] theorem mode_withFiqDisable (p : Psr) (on : Bool) : (p.withFiqDisable on).mode = p.mode :=
  mode_setBit p (by decide) (by decide) _

/-- The instruction set that is set is read back. -/
@[simp] theorem state_withState (p : Psr) (s : CpuState) : (p.withState s).state = s := by
  unfold state stateBit withState withStateBit
  rw [getLsbD_setBit _ _ _ _ (by decide), if_pos rfl]
  cases s <;> rfl

/-- The other bits do not select the instruction set. -/
theorem state_setBit (p : Psr) {i : Nat} (hne : i ≠ 5) (hlt : i < 32) (on : Bool) :
    (Psr.mk (setBit p.word i on)).state = p.state := by
  unfold state stateBit
  rw [getLsbD_setBit _ _ _ _ hlt, if_neg hne.symm]

/-- The interrupt mask is not the T bit. -/
@[simp] theorem state_withIrqDisable (p : Psr) (on : Bool) :
    (p.withIrqDisable on).state = p.state :=
  state_setBit p (by decide) (by decide) on

/-- The mask of fast interrupts is not the T bit. -/
@[simp] theorem state_withFiqDisable (p : Psr) (on : Bool) :
    (p.withFiqDisable on).state = p.state :=
  state_setBit p (by decide) (by decide) on

/-- Setting the sign flag leaves the instruction set. -/
@[simp] theorem state_withSign (p : Psr) (on : Bool) : (p.withSign on).state = p.state :=
  state_setBit p (by decide) (by decide) on

/-- Setting the zero flag leaves the instruction set. -/
@[simp] theorem state_withZero (p : Psr) (on : Bool) : (p.withZero on).state = p.state :=
  state_setBit p (by decide) (by decide) on

/-- Setting the carry flag leaves the instruction set. -/
@[simp] theorem state_withCarry (p : Psr) (on : Bool) : (p.withCarry on).state = p.state :=
  state_setBit p (by decide) (by decide) on

/-- Setting the overflow flag leaves the instruction set. -/
@[simp] theorem state_withOverflow (p : Psr) (on : Bool) : (p.withOverflow on).state = p.state :=
  state_setBit p (by decide) (by decide) on

/-- Setting the flags of a sum leaves the instruction set. -/
@[simp] theorem state_withFlags (p : Psr) (sum : AluResult) :
    (p.withFlags sum).state = p.state := by
  simp [withFlags]

/-- Setting the flags of a value leaves the instruction set. -/
@[simp] theorem state_withSignAndZero (p : Psr) (value : Word) :
    (p.withSignAndZero value).state = p.state := by
  simp [withSignAndZero]

/-- A mask without the T bit keeps the instruction set. -/
theorem state_merge (p : Psr) (value : Word) {mask : Word} (h : mask.getLsbD 5 = false) :
    (p.merge value mask).state = p.state := by
  unfold state stateBit merge
  rw [getLsbD_merge, h]
  rfl

/-- The interrupt mask that is set is read back. -/
@[simp] theorem irqDisable_withIrqDisable (p : Psr) (on : Bool) :
    (p.withIrqDisable on).irqDisable = on := by
  unfold irqDisable withIrqDisable
  rw [getLsbD_setBit _ _ _ _ (by decide), if_pos rfl]

/-- The mask of fast interrupts is another bit than that of interrupts. -/
@[simp] theorem irqDisable_withFiqDisable (p : Psr) (on : Bool) :
    (p.withFiqDisable on).irqDisable = p.irqDisable := by
  unfold irqDisable withFiqDisable
  rw [getLsbD_setBit _ _ _ _ (by decide), if_neg (by decide)]

/-- The flags of a value leave the carry. -/
theorem carry_withSignAndZero (p : Psr) (value : Word) :
    (p.withSignAndZero value).carry = p.carry := by
  unfold carry withSignAndZero withZero withSign
  rw [getLsbD_setBit _ _ _ _ (by decide), if_neg (by decide), getLsbD_setBit _ _ _ _ (by decide),
    if_neg (by decide)]

/-- The sign flag of a sum is read back: no later flag is set over it. -/
theorem sign_withFlags (p : Psr) (sum : AluResult) : (p.withFlags sum).sign = sum.sign := by
  simp only [sign, withFlags, withSign, withOverflow, getLsbD_setBit, Nat.reduceLT,
    Nat.reduceEqDiff, if_true, if_false]

/-- The zero flag of a sum is read back. -/
theorem zero_withFlags (p : Psr) (sum : AluResult) : (p.withFlags sum).zero = sum.zero := by
  simp only [zero, withFlags, withZero, withSign, withOverflow, getLsbD_setBit, Nat.reduceLT,
    Nat.reduceEqDiff, if_true, if_false]

/-- The carry flag of a sum is read back. -/
theorem carry_withFlags (p : Psr) (sum : AluResult) : (p.withFlags sum).carry = sum.carry := by
  simp only [carry, withFlags, withCarry, withZero, withSign, withOverflow, getLsbD_setBit,
    Nat.reduceLT, Nat.reduceEqDiff, if_true, if_false]

/-- The overflow flag of a sum is read back. -/
theorem overflow_withFlags (p : Psr) (sum : AluResult) :
    (p.withFlags sum).overflow = sum.overflow := by
  simp only [overflow, withFlags, withOverflow, getLsbD_setBit, Nat.reduceLT, if_true]

/-- The flags are the top four bits. -/
theorem getLsbD_withFlags (p : Psr) (sum : AluResult) {i : Nat} (h : i < 28) :
    (p.withFlags sum).word.getLsbD i = p.word.getLsbD i := by
  have hflags : i ≠ 28 ∧ i ≠ 29 ∧ i ≠ 30 ∧ i ≠ 31 := by omega
  simp [withFlags, withCarry, withZero, withSign, withOverflow, hflags]

/-- Setting C to what it is changes nothing. -/
theorem withCarry_carry (p : Psr) : p.withCarry p.carry = p :=
  congrArg Psr.mk (setBit_getLsbD p.word (by decide))

/-! ### Conditions -/

/-- Whether the flags satisfy a condition. -/
def satisfies (p : Psr) : Condition → Bool
  | .eq => p.zero
  | .ne => !p.zero
  | .cs => p.carry
  | .cc => !p.carry
  | .mi => p.sign
  | .pl => !p.sign
  | .vs => p.overflow
  | .vc => !p.overflow
  | .hi => p.carry && !p.zero
  | .ls => !p.carry || p.zero
  | .ge => p.sign == p.overflow
  | .lt => p.sign != p.overflow
  | .gt => !p.zero && p.sign == p.overflow
  | .le => p.zero || p.sign != p.overflow
  | .al => true
  | .nv => false

end Psr

end AdvanceCore
