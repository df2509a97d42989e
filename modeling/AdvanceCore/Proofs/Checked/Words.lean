import AdvanceCore.Shifter
import Mathlib.Algebra.Group.Int.Defs
import Mathlib.Algebra.Group.Nat.Defs

/-!
# `AdvanceCore.Proofs.Checked.Words`: operations that can break

The operations of this library are total: a bit past the end of a word is clear, a shift by
too much gives zero, and a sum has as many bits as it needs. A machine that checks what it
does has no such answers. It breaks at an index or a shift amount that is out of range, at a
sum that does not fit, and at a difference below zero.

The modules under `Checked` give the machine in this other form. The checked form `f?` of an
operation `f` is `some` of what `f` gives, and `none` where the machine breaks. A checked form
reads the same data and takes the same branches, so that whatever `f` reaches is checked.

* `Bits.bit?`, `Bits.field?`, `Bits.shiftLeft?` and so on: bits and shifts. A field is checked
  by its range. `AdvanceCore.Proofs.Checked.Fields` takes it apart into shifts.
* `sum?`, `product?`, `difference?`, `quotient?`: numbers, in words of a given width.
* `shift?`, `shiftImmediate?`: the barrel shifter, which works out bit numbers and shift
  amounts from the amount it is given. It never breaks (`shift?_eq`, `shiftImmediate?_eq`).
-/

set_option autoImplicit false

namespace AdvanceCore

/-- A value that there is only under a condition. -/
def provided {α : Type} (p : Prop) [Decidable p] (value : α) : Option α :=
  if p then some value else none

/-- Under its condition a value is given. -/
theorem provided_of {α : Type} {p : Prop} [Decidable p] (value : α) (h : p) :
    provided p value = some value :=
  if_pos h

/-- What passes a check is the value that was to be checked. -/
theorem eq_of_provided {α : Type} {p : Prop} [Decidable p] {value checked : α}
    (h : provided p value = some checked) : checked = value := by
  unfold provided at h
  split at h
  · exact (Option.some.inj h).symm
  · cases h

/-! ### Bits and shifts -/

namespace Bits

variable {w : Nat}

/-- Bit `i` of `v`. -/
def bit? (v : BitVec w) (i : Nat) : Option Bool := provided (i < w) (v.getLsbD i)

/-- The `count` bits of `v` from `lowest` up. -/
def slice? (v : BitVec w) (lowest count : Nat) : Option (BitVec count) :=
  provided (0 < count ∧ lowest + count ≤ w) (v.extractLsb' lowest count)

/-- The bits `lo` to `hi` of `v`, moved down to bit 0. -/
def field? (v : BitVec w) (lo hi : Nat) : Option (BitVec w) :=
  provided (lo ≤ hi ∧ hi < w) (field v lo hi)

/-- Replaces the bits `lo` to `hi` of `v`. -/
def setField? (v : BitVec w) (lo hi : Nat) (x : BitVec w) : Option (BitVec w) :=
  provided (lo ≤ hi ∧ hi < w) (setField v lo hi x)

/-- Sets bit `i` of `v`. -/
def setBit? (v : BitVec w) (i : Nat) (on : Bool) : Option (BitVec w) :=
  provided (i < w) (setBit v i on)

/-- Byte `n` of `v`. -/
def byte? (v : BitVec w) (n : Nat) : Option Byte := provided (8 * n < w) (byte v n)

/-- Shifts left, by less than the width. -/
def shiftLeft? (v : BitVec w) (amount : Nat) : Option (BitVec w) :=
  provided (amount < w) (v <<< amount)

/-- Shifts right, by less than the width. -/
def shiftRight? (v : BitVec w) (amount : Nat) : Option (BitVec w) :=
  provided (amount < w) (v >>> amount)

/-- Shifts right and keeps the sign, by less than the width. -/
def shiftRightSigned? (v : BitVec w) (amount : Nat) : Option (BitVec w) :=
  provided (amount < w) (v.sshiftRight amount)

/-- Widens the number in the `n` low bits of `v`, of which there is one at least. The
remaining bits are shifted out and in again. -/
def signExtendLow? (v : BitVec w) (n : Nat) : Option (BitVec w) :=
  provided (0 < n ∧ n ≤ w) (signExtendLow v n)

/-- A bit within a vector can be read. -/
@[simp] theorem bit?_of_lt (v : BitVec w) {i : Nat} (h : i < w) :
    bit? v i = some (v.getLsbD i) :=
  provided_of _ h

/-- A slice that ends within a vector can be read. -/
@[simp] theorem slice?_of_le (v : BitVec w) {lowest count : Nat} (hpos : 0 < count)
    (h : lowest + count ≤ w) : slice? v lowest count = some (v.extractLsb' lowest count) :=
  provided_of _ ⟨hpos, h⟩

/-- A field between two bits of a vector can be read. -/
@[simp] theorem field?_of_lt (v : BitVec w) {lo hi : Nat} (hle : lo ≤ hi) (h : hi < w) :
    field? v lo hi = some (field v lo hi) :=
  provided_of _ ⟨hle, h⟩

/-- A field between two bits of a vector can be written. -/
@[simp] theorem setField?_of_lt (v x : BitVec w) {lo hi : Nat} (hle : lo ≤ hi) (h : hi < w) :
    setField? v lo hi x = some (setField v lo hi x) :=
  provided_of _ ⟨hle, h⟩

/-- A bit within a vector can be written. -/
@[simp] theorem setBit?_of_lt (v : BitVec w) {i : Nat} (on : Bool) (h : i < w) :
    setBit? v i on = some (setBit v i on) :=
  provided_of _ h

/-- A byte that begins within a vector can be read. -/
@[simp] theorem byte?_of_lt (v : BitVec w) {n : Nat} (h : 8 * n < w) :
    byte? v n = some (byte v n) :=
  provided_of _ h

/-- A vector can be shifted to the left by less than its width. -/
@[simp] theorem shiftLeft?_of_lt (v : BitVec w) {amount : Nat} (h : amount < w) :
    shiftLeft? v amount = some (v <<< amount) :=
  provided_of _ h

/-- A vector can be shifted to the right by less than its width. -/
@[simp] theorem shiftRight?_of_lt (v : BitVec w) {amount : Nat} (h : amount < w) :
    shiftRight? v amount = some (v >>> amount) :=
  provided_of _ h

/-- A vector can be shifted by less than its width with copies of its sign. -/
@[simp] theorem shiftRightSigned?_of_lt (v : BitVec w) {amount : Nat} (h : amount < w) :
    shiftRightSigned? v amount = some (v.sshiftRight amount) :=
  provided_of _ h

/-- A number of at least one bit within the vector can be extended. -/
@[simp] theorem signExtendLow?_of_le (v : BitVec w) {n : Nat} (hpos : 0 < n) (h : n ≤ w) :
    signExtendLow? v n = some (signExtendLow v n) :=
  provided_of _ ⟨hpos, h⟩

/-- A field is the number that is left after a shift and a mask. -/
theorem toNat_shiftRight_and (v : BitVec w) {mask : BitVec w} (lowest : Nat) {count : Nat}
    (hmask : mask.toNat = 2 ^ count - 1) :
    ((v >>> lowest) &&& mask).toNat = (v.extractLsb' lowest count).toNat := by
  rw [← Nat.one_shiftLeft] at hmask
  rw [toNat_and_mask _ hmask, BitVec.toNat_ushiftRight, BitVec.extractLsb'_toNat,
    Nat.one_shiftLeft]

/-- Bits shifted over others stand in front of them. -/
theorem shiftLeft_or_setWidth {m n : Nat} (high : BitVec m) (low : BitVec n) :
    (high.setWidth (m + n) <<< n) ||| low.setWidth (m + n) = high ++ low := by
  refine BitVec.eq_of_getLsbD_eq fun i hi => ?_
  rw [BitVec.getLsbD_or, BitVec.getLsbD_shiftLeft, BitVec.getLsbD_setWidth,
    BitVec.getLsbD_setWidth, BitVec.getLsbD_append]
  by_cases hlow : i < n
  · simp [hi, hlow]
  · have hup : i - n < m + n := by omega
    have hclear : low.getLsbD i = false := BitVec.getLsbD_of_ge low i (Nat.le_of_not_lt hlow)
    simp [hi, hlow, hup, hclear]

/-- What is left under a mask is no more than the mask. -/
theorem toNat_and_le (v mask : BitVec w) : (v &&& mask).toNat ≤ mask.toNat := by
  rw [BitVec.toNat_and]
  exact Nat.and_le_right

end Bits

/-! ### Numbers -/

/-- The sum of two numbers, in `w` bits. -/
def sum? (w a b : Nat) : Option Nat := provided (a + b < 2 ^ w) (a + b)

/-- The product of two numbers, in `w` bits. -/
def product? (w a b : Nat) : Option Nat := provided (a * b < 2 ^ w) (a * b)

/-- The difference of two numbers, which is not below zero. -/
def difference? (a b : Nat) : Option Nat := provided (b ≤ a) (a - b)

/-- The whole part of a quotient, of which the divisor is not zero. -/
def quotient? (a b : Nat) : Option Nat := provided (0 < b) (a / b)

/-- A sum that fits is given. -/
theorem sum?_of_lt {w a b : Nat} (h : a + b < 2 ^ w) : sum? w a b = some (a + b) :=
  provided_of _ h

/-- A product that fits is given. -/
theorem product?_of_lt {w a b : Nat} (h : a * b < 2 ^ w) : product? w a b = some (a * b) :=
  provided_of _ h

/-- A difference is given if it is not negative. -/
theorem difference?_of_le {a b : Nat} (h : b ≤ a) : difference? a b = some (a - b) :=
  provided_of _ h

/-- Only zero cannot be divided by. -/
theorem quotient?_of_pos (a : Nat) {b : Nat} (h : 0 < b) : quotient? a b = some (a / b) :=
  provided_of _ h

/-! ### The barrel shifter -/

open Bits

/-- The checked form of `shift`. The bits that it reads and the amounts by which it shifts
follow from the amount. -/
def shift? (kind : ShiftKind) (amount : Nat) (value : Word) (carry : Bool) : Option Shifted := do
  if amount = 0 then return ⟨value, carry⟩
  match kind with
  | .lsl =>
    if amount < 32 then
      return ⟨← shiftLeft? value amount, ← bit? value (← difference? 32 amount)⟩
    else if amount = 32 then return ⟨0, ← bit? value 0⟩
    else return ⟨0, false⟩
  | .lsr =>
    if amount < 32 then
      return ⟨← shiftRight? value amount, ← bit? value (← difference? amount 1)⟩
    else if amount = 32 then return ⟨0, ← bit? value 31⟩
    else return ⟨0, false⟩
  | .asr =>
    if amount < 32 then
      return ⟨← shiftRightSigned? value amount, ← bit? value (← difference? amount 1)⟩
    else return ⟨← shiftRightSigned? value 31, ← bit? value 31⟩
  | .ror =>
    let turn := amount % 32
    if turn = 0 then return ⟨value, ← bit? value 31⟩
    else return ⟨value.rotateRight turn, ← bit? value (← difference? turn 1)⟩

/-- The shifter never breaks, whatever the amount. -/
@[simp] theorem shift?_eq (kind : ShiftKind) (amount : Nat) (value : Word) (carry : Bool) :
    shift? kind amount value carry = some (shift kind amount value carry) := by
  unfold shift? shift
  by_cases hzero : amount = 0
  · rw [if_pos hzero, if_pos hzero]
    rfl
  · have hpos : 1 ≤ amount := Nat.pos_of_ne_zero hzero
    rw [if_neg hzero, if_neg hzero]
    -- Every shift that is made is by less than 32, because the larger amounts have cases of their
    -- own.
    cases kind with
    | ror =>
      dsimp only
      by_cases hturn : amount % 32 = 0
      · simp [hturn]
      · have hlast : amount % 32 - 1 < 32 := by omega
        simp [hturn, difference?_of_le (Nat.pos_of_ne_zero hturn), hlast]
    | lsl =>
      dsimp only
      by_cases hlt : amount < 32
      · have hout : 32 - amount < 32 := by omega
        simp [hlt, difference?_of_le (Nat.le_of_lt hlt), hout]
      · by_cases heq : amount = 32 <;> simp [heq, hlt]
    | lsr =>
      dsimp only
      by_cases hlt : amount < 32
      · have hlast : amount - 1 < 32 := by omega
        simp [hlt, difference?_of_le hpos, hlast]
      · by_cases heq : amount = 32 <;> simp [heq, hlt]
    | asr =>
      dsimp only
      by_cases hlt : amount < 32
      · have hlast : amount - 1 < 32 := by omega
        simp [hlt, difference?_of_le hpos, hlast]
      · simp [hlt]

/-- The checked form of `rotateThroughCarry`. -/
def rotateThroughCarry? (value : Word) (carry : Bool) : Option Shifted := do
  return ⟨← setBit? (← shiftRight? value 1) 31 carry, ← bit? value 0⟩

/-- The checked form of `shiftImmediate`. -/
def shiftImmediate? (kind : ShiftKind) (amount : Nat) (value : Word) (carry : Bool) :
    Option Shifted :=
  match kind, amount with
  | .lsr, 0 => shift? .lsr 32 value carry
  | .asr, 0 => shift? .asr 32 value carry
  | .ror, 0 => rotateThroughCarry? value carry
  | kind, amount => shift? kind amount value carry

/-- A shift by a constant never breaks. An amount of zero stands for thirty-two, or for a rotation
through the carry. -/
@[simp] theorem shiftImmediate?_eq (kind : ShiftKind) (amount : Nat) (value : Word)
    (carry : Bool) :
    shiftImmediate? kind amount value carry = some (shiftImmediate kind amount value carry) := by
  unfold shiftImmediate? shiftImmediate
  split <;> simp [rotateThroughCarry?, rotateThroughCarry]

end AdvanceCore
