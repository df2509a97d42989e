import AdvanceCore.Arm.Execute
import AdvanceCore.Proofs.Alu.Sums
import AdvanceCore.Thumb.Execute

/-!
# `AdvanceCore.Proofs.Alu.Comparisons`: what a condition says after a comparison

A comparison subtracts and keeps nothing but the flags. A condition reads some of the flags, and
after a comparison of two numbers this makes it a statement about the numbers.

* `Condition.Compares`: the statement that a condition stands for.
* `carry_subWithCarry`, `zero_subWithCarry`, `sign_subWithCarry`, `overflow_subWithCarry`: the
  flags of a difference, each by itself.
* `satisfies_withFlags_iff`: the conditions, which put flags together.
* `comparisons_meet_conditions`: the comparisons of both instruction sets.
-/

set_option autoImplicit false

namespace AdvanceCore

/-- What a condition says of two numbers that have been compared. CS, CC, HI and LS look at them
as unsigned numbers, GE, LT, GT and LE as signed ones. MI and PL look at the wrapped difference,
and VS and VC tell whether it is the exact one. -/
def Condition.Compares (first second : Word) : Condition → Prop
  | .eq => first = second
  | .ne => first ≠ second
  | .cs => second.toNat ≤ first.toNat
  | .cc => first.toNat < second.toNat
  | .mi => (first - second).toInt < 0
  | .pl => 0 ≤ (first - second).toInt
  | .vs => first.toInt - second.toInt < -2 ^ 31 ∨ 2 ^ 31 ≤ first.toInt - second.toInt
  | .vc => -2 ^ 31 ≤ first.toInt - second.toInt ∧ first.toInt - second.toInt < 2 ^ 31
  | .hi => second.toNat < first.toNat
  | .ls => first.toNat ≤ second.toNat
  | .ge => second.toInt ≤ first.toInt
  | .lt => first.toInt < second.toInt
  | .gt => second.toInt < first.toInt
  | .le => first.toInt ≤ second.toInt
  | .al => True
  | .nv => False

/-! ### The flags of a difference -/

variable (first second : Word)

/-- The carry of a difference says that nothing was borrowed. -/
theorem carry_subWithCarry :
    (subWithCarry first second true).carry = true ↔ second.toNat ≤ first.toNat := by
  have hsum := isSum_addWithCarry first (~~~second) true
  have hcarry := (hsum.difference (by decide)).2.1
  exact (Bool.eq_iff_iff.1 hcarry).trans decide_eq_true_iff

/-- The zero flag says that both are equal. -/
theorem zero_subWithCarry : (subWithCarry first second true).zero = true ↔ first = second := by
  show ((subWithCarry first second true).value == 0) = true ↔ _
  rw [value_subWithCarry, beq_iff_eq]
  constructor
  · intro h
    rw [← BitVec.sub_add_cancel first second, h]
    exact BitVec.zero_add second
  · rintro rfl
    exact BitVec.sub_self first

/-- The sign flag is that of the difference, which may have wrapped around. -/
theorem sign_subWithCarry :
    (subWithCarry first second true).sign = true ↔ (first - second).toInt < 0 := by
  show (subWithCarry first second true).value.msb = true ↔ _
  rw [value_subWithCarry, BitVec.msb_eq_toInt, decide_eq_true_iff]

/-- The overflow flag says that it has. -/
theorem overflow_subWithCarry :
    (subWithCarry first second true).overflow = true ↔
      first.toInt - second.toInt < -2 ^ 31 ∨ 2 ^ 31 ≤ first.toInt - second.toInt := by
  have hsum := isSum_addWithCarry first (~~~second) true
  refine hsum.overflow_iff.trans ?_
  rw [toInt_not_of_pos (by decide), Bool.toNat_true]
  omega

/-- The wrapped difference has the wrong sign exactly if it is not the exact one. -/
theorem sign_eq_overflow_iff :
    (subWithCarry first second true).sign = (subWithCarry first second true).overflow ↔
      second.toInt ≤ first.toInt := by
  have hfirst := first.isLt
  have hsecond := second.isLt
  rw [Bool.eq_iff_iff, sign_subWithCarry, overflow_subWithCarry]
  simp only [BitVec.toInt_eq_toNat_cond, BitVec.toNat_sub]
  omega

/-! ### The conditions -/

/-- The flags of a difference meet a condition exactly if the two words compare as it says. -/
theorem satisfies_withFlags_iff (p : Psr) (c : Condition) :
    (p.withFlags (subWithCarry first second true)).satisfies c = true ↔
      c.Compares first second := by
  have hcarry := carry_subWithCarry first second
  have hzero := zero_subWithCarry first second
  have hsign := sign_subWithCarry first second
  have hoverflow := overflow_subWithCarry first second
  have horder := sign_eq_overflow_iff first second
  -- The unsigned conditions are read over naturals and the signed ones over integers, so equality
  -- is needed in both.
  have hnat : first = second ↔ first.toNat = second.toNat := BitVec.toNat_inj.symm
  have hint : first = second ↔ first.toInt = second.toInt := BitVec.toInt_inj.symm
  simp only [Psr.satisfies, Psr.zero_withFlags, Psr.carry_withFlags, Psr.sign_withFlags,
    Psr.overflow_withFlags]
  cases c with
  | eq => exact hzero
  | ne => simpa [Condition.Compares] using hzero.not
  | cs => exact hcarry
  | cc => simpa [Condition.Compares] using hcarry.not
  | mi => exact hsign
  | pl => simpa [Condition.Compares] using hsign.not
  | vs => exact hoverflow
  | vc => simpa [Condition.Compares] using hoverflow.not
  | hi =>
    rw [Bool.and_eq_true, Bool.not_eq_true', ← Bool.not_eq_true, hcarry, hzero, hnat,
      Condition.Compares]
    omega
  | ls =>
    rw [Bool.or_eq_true, Bool.not_eq_true', ← Bool.not_eq_true, hcarry, hzero, hnat,
      Condition.Compares]
    omega
  | ge => simpa [Condition.Compares] using horder
  | lt => simpa [Condition.Compares] using horder.not
  | gt =>
    rw [Bool.and_eq_true, Bool.not_eq_true', ← Bool.not_eq_true, beq_iff_eq, hzero, horder, hint,
      Condition.Compares]
    omega
  | le =>
    rw [Bool.or_eq_true, bne_iff_ne, ne_eq, hzero, horder, hint, Condition.Compares]
    omega
  | al => exact iff_of_true rfl trivial
  | nv => exact iff_of_false Bool.false_ne_true id

/-! ### Comparing -/

/-- `after` is `before` after a comparison of two numbers: every condition is met exactly if what
it stands for is true of them, and below the flags no bit has changed. -/
structure Compared (first second : Word) (before after : Psr) : Prop where
  meets (c : Condition) : after.satisfies c = true ↔ c.Compares first second
  kept (i : Nat) (h : i < 28) : after.word.getLsbD i = before.word.getLsbD i

/-- A status with these flags is one that a comparison may leave. -/
theorem compared_withFlags (p : Psr) :
    Compared first second p (p.withFlags (subWithCarry first second true)) where
  meets := satisfies_withFlags_iff first second p
  kept _ h := p.getLsbD_withFlags _ h

/-- After a comparison of either instruction set, from any status and whatever the operands hold,
the conditions say of the two numbers what they stand for. The second number of the ARM
comparison comes from the shifter. -/
theorem comparisons_meet_conditions {β : Type} [MemoryBus β] (cpu : Cpu) (bus : β) :
    (∀ (rn rd : RegisterId) (operand : Arm.Operand),
      Compared (cpu.operandRegister operand rn) (cpu.secondOperand operand).value cpu.cpsr
        (cpu.performArm bus (.dataProcessing ⟨.cmp, true, rn, rd, operand⟩)).1.cpsr) ∧
    (∀ (rd : Thumb.LowRegister) (value : Word),
      Compared (cpu.register rd.id) value cpu.cpsr
        (cpu.performThumb bus (.immediate .cmp rd value)).1.cpsr) ∧
    (∀ rs rd : Thumb.LowRegister,
      Compared (cpu.register rd.id) (cpu.register rs.id) cpu.cpsr
        (cpu.performThumb bus (.alu .cmp rs rd)).1.cpsr) ∧
    (∀ rs rd : RegisterId,
      Compared (cpu.register rd) (cpu.register rs) cpu.cpsr
        (cpu.performThumb bus (.high .cmp rs rd)).1.cpsr) := by
  refine ⟨fun rn rd operand => ?_, fun rd value => ?_, fun rs rd => ?_, fun rs rd => ?_⟩
  · show Compared _ _ _ (cpu.dataProcessing ⟨.cmp, true, rn, rd, operand⟩).cpsr
    rw [cpu.dataProcessing_compare rd rfl rfl]
    exact compared_withFlags ..
  · exact compared_withFlags ..
  · exact compared_withFlags ..
  · exact compared_withFlags ..

end AdvanceCore
