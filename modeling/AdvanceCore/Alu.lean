import AdvanceCore.Bits

/-!
# `AdvanceCore.Alu`: the adder and the multiplier

One adder serves every addition, subtraction and comparison. Subtraction adds the
complement, so that carry out of a subtraction means that nothing was borrowed. The
multiplier takes its time by the size of one operand.
-/

set_option autoImplicit false

namespace AdvanceCore

/-- A sum with the four flags that describe it. -/
structure AluResult where
  /-- The low 32 bits of the sum. -/
  value : Word
  /-- The sum does not fit in 32 bits. -/
  carry : Bool
  /-- The sum of the operands as signed numbers does not fit in 32 bits. -/
  overflow : Bool
  /-- The value is negative as a signed number. -/
  sign : Bool
  /-- The value is zero. -/
  zero : Bool
  deriving DecidableEq, Repr

/-- `first + second + carry`. Signed overflow needs operands of one sign and a sum
of the other. -/
def addWithCarry (first second : Word) (carry : Bool) : AluResult :=
  let wide := first.toNat + second.toNat + carry.toNat
  let value := BitVec.ofNat 32 wide
  { value
    carry := decide (0x100000000 ≤ wide)
    overflow := (~~~(first ^^^ second) &&& (first ^^^ value)).msb
    sign := value.msb
    zero := value == 0 }

/-- `first - second`, less one when `carry` is clear. -/
def subWithCarry (first second : Word) (carry : Bool) : AluResult :=
  addWithCarry first (~~~second) carry

/-- Without a carry the adder adds. -/
@[simp] theorem value_addWithCarry (first second : Word) :
    (addWithCarry first second false).value = first + second := by
  refine BitVec.eq_of_toNat_eq ?_
  show (BitVec.ofNat 32 (first.toNat + second.toNat + 0)).toNat = _
  rw [BitVec.toNat_ofNat, BitVec.toNat_add, Nat.add_zero]

/-- Subtracting with the carry set borrows nothing. -/
@[simp] theorem value_subWithCarry (first second : Word) :
    (subWithCarry first second true).value = first - second := by
  refine BitVec.eq_of_toNat_eq ?_
  show (BitVec.ofNat 32 (first.toNat + (~~~second).toNat + 1)).toNat = _
  rw [BitVec.toNat_ofNat, BitVec.toNat_not, BitVec.toNat_sub]
  omega

/-- The cycles the multiplier takes for an operand: one for each significant byte.
Signed multiplications also stop early on leading ones. -/
def multiplierCycles (operand : Word) (isSigned : Bool) : Nat :=
  let settled (mask : Word) : Bool :=
    operand &&& mask == 0 || (isSigned && operand &&& mask == mask)
  if settled 0xFFFFFF00 then 1
  else if settled 0xFFFF0000 then 2
  else if settled 0xFF000000 then 3
  else 4

end AdvanceCore
