import AdvanceCore.Alu
import Mathlib.Algebra.Order.Ring.Int
import Mathlib.Tactic.LinearCombination

/-!
# `AdvanceCore.Proofs.Alu.Sums`: what the adder computes

The adder gives the low bits of a sum, a carry and an overflow. As unsigned numbers the operands
make the sum that the value and the carry make together. As signed numbers they make a sum
that fits if there is no overflow. Both are said of numbers of any width, because words that are
added one after the other, each with the carry of the one below, are like a single long word.

* `IsSum`: a value, a carry and an overflow that describe a sum.
* `isSum_addWithCarry`: the adder for words.
* `IsSum.append`: a long sum from a sum of the low parts and one of the high parts.
* `IsSum.sum`, `IsSum.difference`: the sum of two numbers, and their difference as a sum with
  the complement.
-/

set_option autoImplicit false

namespace AdvanceCore

/-- The description of the sum of two numbers and a carry. With the carry as the next bit
nothing of the unsigned sum is lost, and the overflow says that the signed sum does not fit. -/
structure IsSum {w : Nat} (first second : BitVec w) (carryIn : Bool) (value : BitVec w)
    (carry overflow : Bool) : Prop where
  total : value.toNat + 2 ^ w * carry.toNat = first.toNat + second.toNat + carryIn.toNat
  overflow_iff : overflow = true ↔
    first.toInt + second.toInt + carryIn.toNat < -2 ^ (w - 1) ∨
      2 ^ (w - 1) ≤ first.toInt + second.toInt + carryIn.toNat

/-! ### The adder for words -/

/-- The value and the carry make up the whole sum. -/
theorem total_addWithCarry (first second : Word) (carry : Bool) :
    (addWithCarry first second carry).value.toNat +
        2 ^ 32 * (addWithCarry first second carry).carry.toNat =
      first.toNat + second.toNat + carry.toNat := by
  have hfirst := first.isLt
  have hsecond := second.isLt
  have hcarry := carry.toNat_lt
  simp only [addWithCarry, BitVec.toNat_ofNat]
  by_cases h : 0x100000000 ≤ first.toNat + second.toNat + carry.toNat
  · rw [decide_eq_true h, Bool.toNat_true]
    omega
  · rw [decide_eq_false h, Bool.toNat_false]
    omega

/-- The sum of two numbers of one sign must have that sign. Numbers of different signs always
have a sum that fits. -/
theorem overflow_addWithCarry (first second : Word) (carry : Bool) :
    (addWithCarry first second carry).overflow =
      (first.msb == second.msb &&
        first.msb != (addWithCarry first second carry).value.msb) := by
  simp only [addWithCarry, BitVec.msb_and, BitVec.msb_not, BitVec.msb_xor]
  cases first.msb <;> cases second.msb <;> simp

/-- The adder gives sums in the sense of `IsSum`, with a signed overflow where the signed sum does
not fit. -/
theorem isSum_addWithCarry (first second : Word) (carry : Bool) :
    IsSum first second carry (addWithCarry first second carry).value
      (addWithCarry first second carry).carry (addWithCarry first second carry).overflow where
  total := total_addWithCarry first second carry
  overflow_iff := by
    have htotal := total_addWithCarry first second carry
    rw [overflow_addWithCarry]
    -- The value matters only through the sum it makes with the carry.
    generalize (addWithCarry first second carry).value = value at *
    generalize (addWithCarry first second carry).carry = carryOut at *
    have hfirst := first.isLt
    have hsecond := second.isLt
    have hvalue := value.isLt
    have hcarry := carry.toNat_lt
    have hcarryOut := carryOut.toNat_lt
    simp only [BitVec.msb_eq_decide, BitVec.toInt_eq_toNat_cond, Bool.and_eq_true, beq_iff_eq,
      bne_iff_ne, ne_eq, decide_eq_decide]
    omega

/-! ### Longer numbers -/

/-- A number in two parts, with the high one shifted by the length of the low one. -/
theorem toNat_append_eq {m n : Nat} (high : BitVec n) (low : BitVec m) :
    (high ++ low).toNat = high.toNat * 2 ^ m + low.toNat := by
  rw [BitVec.toNat_append, ← Nat.shiftLeft_add_eq_or_of_lt low.isLt, Nat.shiftLeft_eq]

/-- Digits below `place` do not decide a comparison with a multiple of it. -/
theorem mul_add_lt_mul_iff {place low high bound : Int} (hlow : 0 ≤ low) (hlt : low < place) :
    place * high + low < place * bound ↔ high < bound := by
  have hplace : 0 ≤ place := by omega
  -- A low part of less than one place cannot close the gap between two multiples of it.
  constructor
  · intro h
    by_contra hge
    have hmul : place * bound ≤ place * high :=
      Int.mul_le_mul_of_nonneg_left (Int.not_lt.1 hge) hplace
    omega
  · intro h
    have hmul : place * (high + 1) ≤ place * bound :=
      Int.mul_le_mul_of_nonneg_left h hplace
    rw [Int.mul_add, Int.mul_one] at hmul
    omega

namespace IsSum

/-- Two sums make one of the numbers put together, when the carry of the low one goes into the
high one. Its own carry and overflow are those of the high one. -/
theorem append {m n : Nat} {first second value : BitVec m} {first' second' value' : BitVec n}
    {carryIn carry carry' overflow overflow' : Bool} (hn : 0 < n)
    (low : IsSum first second carryIn value carry overflow)
    (high : IsSum first' second' carry value' carry' overflow') :
    IsSum (first' ++ first) (second' ++ second) carryIn (value' ++ value) carry' overflow' where
  total := by
    rw [toNat_append_eq, toNat_append_eq, toNat_append_eq, Nat.pow_add]
    linear_combination low.total + 2 ^ m * high.total
  overflow_iff := by
    have hlow : (value.toNat : Int) + 2 ^ m * carry.toNat =
        first.toNat + second.toNat + carryIn.toNat := by
      exact_mod_cast low.total
    have hvalue : (value.toNat : Int) < 2 ^ m := by
      exact_mod_cast value.isLt
    -- The high sum stands at the place `2 ^ m`, and below it is the low value, which cannot move
    -- the whole across a bound that is itself at that place.
    have hsum : (first' ++ first).toInt + (second' ++ second).toInt + carryIn.toNat =
        2 ^ m * (first'.toInt + second'.toInt + carry.toNat) + value.toNat := by
      have hnonzero : ¬ (n == 0) = true := by
        rw [beq_iff_eq]
        omega
      rw [BitVec.toInt_append, BitVec.toInt_append, if_neg hnonzero, if_neg hnonzero]
      linear_combination - hlow
    have hbound : (2 : Int) ^ (n + m - 1) = 2 ^ m * 2 ^ (n - 1) := by
      rw [← pow_add]
      congr 1
      omega
    have hneg : -(2 : Int) ^ (n + m - 1) = 2 ^ m * -2 ^ (n - 1) := by
      rw [hbound, Int.mul_neg]
    rw [hsum, hneg, hbound, high.overflow_iff, ← Int.not_lt (b := 2 ^ m * _),
      mul_add_lt_mul_iff (Int.natCast_nonneg _) hvalue,
      mul_add_lt_mul_iff (Int.natCast_nonneg _) hvalue, Int.not_lt]

end IsSum

/-! ### Sums and differences -/

/-- The complement of a signed number. -/
theorem toInt_not_of_pos {w : Nat} (hw : 0 < w) (y : BitVec w) :
    (~~~y).toInt = -1 - y.toInt := by
  have hdouble : (2 : Nat) ^ (w - 1) + 2 ^ (w - 1) = 2 ^ w := Nat.two_pow_pred_add_two_pow_pred hw
  have hy := y.isLt
  rw [BitVec.toInt_eq_toNat_cond, BitVec.toInt_eq_toNat_cond, BitVec.toNat_not]
  split <;> split <;> omega

namespace IsSum

variable {w : Nat} {x y value : BitVec w} {carryIn carry overflow : Bool}

/-- The value is the sum, wrapped around. -/
theorem toNat_value (h : IsSum x y carryIn value carry overflow) :
    value.toNat = (x.toNat + y.toNat + carryIn.toNat) % 2 ^ w := by
  rw [← h.total, Nat.add_mul_mod_self_left, Nat.mod_eq_of_lt value.isLt]

/-- The carry says whether it has been. -/
theorem carry_iff (h : IsSum x y carryIn value carry overflow) :
    carry = true ↔ 2 ^ w ≤ x.toNat + y.toNat + carryIn.toNat := by
  have htotal := h.total
  have hvalue := value.isLt
  cases carry with
  | true =>
    rw [Bool.toNat_true, Nat.mul_one] at htotal
    simp only [true_iff]
    omega
  | false =>
    rw [Bool.toNat_false, Nat.mul_zero] at htotal
    simp only [Bool.false_eq_true, false_iff]
    omega

/-- Without a carry to begin with this is addition, with its unsigned and its signed overflow. -/
theorem sum (h : IsSum x y false value carry overflow) :
    value = x + y ∧ carry = decide (2 ^ w ≤ x.toNat + y.toNat) ∧ overflow = x.saddOverflow y := by
  refine ⟨BitVec.eq_of_toNat_eq ?_, ?_, ?_⟩
  · rw [h.toNat_value, BitVec.toNat_add]
    rfl
  · exact Bool.eq_iff_iff.2 (h.carry_iff.trans decide_eq_true_iff.symm)
  · refine Bool.eq_iff_iff.2 (h.overflow_iff.trans ?_)
    simp [BitVec.saddOverflow, or_comm]

/-- With the complement and a carry it is subtraction. -/
theorem difference (hw : 0 < w) (h : IsSum x (~~~y) true value carry overflow) :
    value = x - y ∧ carry = decide (y.toNat ≤ x.toNat) ∧ overflow = x.ssubOverflow y := by
  have hx := x.isLt
  have hy := y.isLt
  -- `~~~y` is `2 ^ w - 1 - y` as a natural and `-y - 1` as an integer: the carry makes up the one.
  refine ⟨BitVec.eq_of_toNat_eq ?_, ?_, ?_⟩
  · rw [h.toNat_value, BitVec.toNat_sub, BitVec.toNat_not, Bool.toNat_true]
    congr 1
    omega
  · refine Bool.eq_iff_iff.2 (h.carry_iff.trans (Iff.trans ?_ decide_eq_true_iff.symm))
    rw [BitVec.toNat_not, Bool.toNat_true]
    omega
  · have hsum : x.toInt + (~~~y).toInt + (true.toNat : Int) = x.toInt - y.toInt := by
      rw [toInt_not_of_pos hw, Bool.toNat_true]
      omega
    refine Bool.eq_iff_iff.2 (h.overflow_iff.trans ?_)
    rw [hsum]
    simp [BitVec.ssubOverflow, or_comm]

end IsSum

end AdvanceCore
