import AdvanceCore.Shifter
import Mathlib.Logic.Function.Iterate

/-!
# `AdvanceCore.Proofs.Alu.ShiftSteps`: the barrel shifter, one place at a time

The barrel shifter moves a word by any number of places at once, with cases of their own below
32 places, at 32 and above. A shifter of a single place needs none of them: it moves the word
by one and keeps the bit that leaves. Running it again and again is the reference for both
forms of the barrel shifter.

* `ShiftKind.step`: one place of each operation.
* `stepThroughCarry`: one place of the rotation through the carry, as a rotation of 33 bits.
* `shift_succ_eq`: a shift by `n + 1` places without its cases, and `shift_succ`: it is one
  step after a shift by `n`.
* `shifts_eq_steps`: both forms of the shifter as repeated steps.
-/

set_option autoImplicit false

namespace AdvanceCore

/-! ### One place -/

namespace ShiftKind

/-- A word moved by `n` places. -/
def places (kind : ShiftKind) (n : Nat) (value : Word) : Word :=
  match kind with
  | .lsl => value <<< n
  | .lsr => value >>> n
  | .asr => value.sshiftRight n
  | .ror => value.rotateRight n

/-- The bit that leaves a word when it moves by one place: the top one to the left, the
bottom one to the right. -/
def leaving (kind : ShiftKind) (value : Word) : Bool :=
  match kind with
  | .lsl => value.getLsbD 31
  | .lsr | .asr | .ror => value.getLsbD 0

/-- One place of a shift, with the bit that leaves as the carry. -/
def step (kind : ShiftKind) (s : Shifted) : Shifted :=
  ⟨kind.places 1 s.value, kind.leaving s.value⟩

/-- The places that the amount of a code stands for. To the right zero stands for all 32. -/
def encodedPlaces (kind : ShiftKind) (amount : Nat) : Nat :=
  if amount = 0 ∧ (kind = .lsr ∨ kind = .asr) then 32 else amount

/-- A rotation by `n` places reads every bit `n` places further up, round the word. -/
theorem getLsbD_rotateRight_word (value : Word) (n : Nat) {i : Nat} (hi : i < 32) :
    (value.rotateRight n).getLsbD i = value.getLsbD ((n + i) % 32) := by
  rw [BitVec.getLsbD_rotateRight]
  by_cases h : i < 32 - n % 32
  · have hplace : (n + i) % 32 = n % 32 + i := by omega
    simp [h, hplace]
  · have hplace : (n + i) % 32 = i - (32 - n % 32) := by omega
    simp [h, hi, hplace]

/-- No place is no shift. -/
theorem places_zero (kind : ShiftKind) (value : Word) : kind.places 0 value = value := by
  cases kind with
  | lsl => exact BitVec.shiftLeft_zero ..
  | lsr => exact BitVec.ushiftRight_zero ..
  | asr => exact BitVec.sshiftRight_zero ..
  | ror =>
    refine BitVec.eq_of_getLsbD_eq fun i hi => ?_
    rw [places, getLsbD_rotateRight_word value 0 hi, Nat.zero_add, Nat.mod_eq_of_lt hi]

/-- One place more is one shift more. -/
theorem places_succ (kind : ShiftKind) (n : Nat) (value : Word) :
    kind.places (n + 1) value = kind.places 1 (kind.places n value) := by
  cases kind with
  | lsl => exact BitVec.shiftLeft_add ..
  | lsr => exact BitVec.shiftRight_add ..
  | asr => exact BitVec.sshiftRight_add
  | ror =>
    refine BitVec.eq_of_getLsbD_eq fun i hi => ?_
    have hnext : (1 + i) % 32 < 32 := Nat.mod_lt _ (by decide)
    have hplace : (n + 1 + i) % 32 = (n + (1 + i) % 32) % 32 := by omega
    simp only [places, getLsbD_rotateRight_word _ _ hi, getLsbD_rotateRight_word _ _ hnext, hplace]

end ShiftKind

/-! ### Shifts by the byte of a register -/

/-- To the left, the last bit that leaves is bit 31 of the shift before. -/
theorem shift_lsl_succ (n : Nat) (value : Word) (carry : Bool) :
    shift .lsl (n + 1) value carry = ⟨value <<< (n + 1), (value <<< n).getLsbD 31⟩ := by
  have hlast : (value <<< n).getLsbD 31 = (!decide (31 < n) && value.getLsbD (31 - n)) := by
    rw [BitVec.getLsbD_shiftLeft]
    rfl
  rw [hlast]
  simp only [shift]
  -- The shifter has cases of its own below 32 places, at 32 and above.
  rcases Nat.lt_trichotomy n 31 with hlow | rfl | hhigh
  · have hplace : 32 - (n + 1) = 31 - n := by omega
    rw [if_neg (by omega), if_pos (by omega), hplace, decide_eq_false (by omega)]
    rfl
  · rw [BitVec.shiftLeft_eq_zero (by decide)]
    rfl
  · rw [if_neg (by omega), if_neg (by omega), if_neg (by omega),
      BitVec.shiftLeft_eq_zero (by omega), decide_eq_true hhigh]
    rfl

/-- To the right, the last bit that leaves is bit 0 of the shift before. -/
theorem shift_lsr_succ (n : Nat) (value : Word) (carry : Bool) :
    shift .lsr (n + 1) value carry = ⟨value >>> (n + 1), (value >>> n).getLsbD 0⟩ := by
  rw [BitVec.getLsbD_ushiftRight]
  simp only [shift]
  -- At 32 places the table has a case of its own, which is the step from 31.
  rcases Nat.lt_trichotomy n 31 with hlow | rfl | hhigh
  · rw [if_neg (by omega), if_pos (by omega)]
    rfl
  · rw [BitVec.ushiftRight_eq_zero (by decide)]
    rfl
  · rw [if_neg (by omega), if_neg (by omega), if_neg (by omega),
      BitVec.ushiftRight_eq_zero (by omega), BitVec.getLsbD_of_ge value (n + 0) (by omega)]
    rfl

/-- Past 31 places an arithmetic shift has the sign everywhere. -/
theorem getLsbD_sshiftRight_of_le (value : Word) {n i : Nat} (hn : 31 ≤ n) (hi : i < 32) :
    (value.sshiftRight n).getLsbD i = value.getLsbD 31 := by
  rw [BitVec.getLsbD_sshiftRight, decide_eq_false (by omega)]
  by_cases h : n + i < 32
  · have hplace : n + i = 31 := by omega
    rw [if_pos h, hplace]
    rfl
  · rw [if_neg h, BitVec.msb_eq_getLsbD_last]
    rfl

/-- With copies of the sign the last bit that leaves is bit 0 as well. From thirty-two places on all
bits are the sign. -/
theorem shift_asr_succ (n : Nat) (value : Word) (carry : Bool) :
    shift .asr (n + 1) value carry =
      ⟨value.sshiftRight (n + 1), (value.sshiftRight n).getLsbD 0⟩ := by
  simp only [shift]
  rw [if_neg (by omega)]
  -- Past 31 places the table answers with 31, and every bit is the sign.
  by_cases hlow : n + 1 < 32
  · have hlast : (value.sshiftRight n).getLsbD 0 = value.getLsbD n := by
      rw [BitVec.getLsbD_sshiftRight]
      simp [Nat.lt_of_succ_lt hlow]
    rw [if_pos hlow, hlast]
    rfl
  · have hsign : value.sshiftRight 31 = value.sshiftRight (n + 1) := by
      refine BitVec.eq_of_getLsbD_eq fun i hi => ?_
      rw [getLsbD_sshiftRight_of_le value (Nat.le_refl 31) hi,
        getLsbD_sshiftRight_of_le value (by omega) hi]
    rw [if_neg hlow, hsign, getLsbD_sshiftRight_of_le value (by omega) (by decide)]

/-- A rotation brings bit 0 to the upper end, and leaves a copy of it in the carry. -/
theorem shift_ror_succ (n : Nat) (value : Word) (carry : Bool) :
    shift .ror (n + 1) value carry =
      ⟨value.rotateRight (n + 1), (value.rotateRight n).getLsbD 0⟩ := by
  have hleaves := ShiftKind.getLsbD_rotateRight_word value n (i := 0) (by decide)
  rw [Nat.add_zero] at hleaves
  simp only [shift]
  rw [if_neg (by omega), hleaves, ← BitVec.rotateRight_mod_eq_rotateRight (r := n + 1)]
  -- After whole rounds the word is as it was, and its top bit was the last to leave.
  by_cases hround : (n + 1) % 32 = 0
  · have hlast : n % 32 = 31 := by omega
    rw [if_pos hround, hround, hlast]
    exact congrArg (Shifted.mk · _) (ShiftKind.places_zero .ror value).symm
  · have hlast : (n + 1) % 32 - 1 = n % 32 := by omega
    rw [if_neg hround, hlast]

/-- A shift by `n + 1` places moves the word by as many, and its carry is the bit that leaves
at the last of them. -/
theorem shift_succ_eq (kind : ShiftKind) (n : Nat) (value : Word) (carry : Bool) :
    shift kind (n + 1) value carry =
      ⟨kind.places (n + 1) value, kind.leaving (kind.places n value)⟩ := by
  cases kind with
  | lsl => exact shift_lsl_succ n value carry
  | lsr => exact shift_lsr_succ n value carry
  | asr => exact shift_asr_succ n value carry
  | ror => exact shift_ror_succ n value carry

/-- The value of the case table is the one that a shift by places gives. -/
theorem value_shift (kind : ShiftKind) (n : Nat) (value : Word) (carry : Bool) :
    (shift kind n value carry).value = kind.places n value := by
  cases n with
  | zero => exact (kind.places_zero value).symm
  | succ n => rw [shift_succ_eq]

/-- One place more is one step more. -/
theorem shift_succ (kind : ShiftKind) (n : Nat) (value : Word) (carry : Bool) :
    shift kind (n + 1) value carry = kind.step (shift kind n value carry) := by
  rw [shift_succ_eq, ShiftKind.step, value_shift, ← ShiftKind.places_succ]

/-- A shift by any amount is so many steps by one place, value and carry. -/
theorem shift_eq_iterate (kind : ShiftKind) (amount : Nat) (value : Word) (carry : Bool) :
    shift kind amount value carry = kind.step^[amount] ⟨value, carry⟩ := by
  induction amount with
  | zero => rfl
  | succ n ih => rw [shift_succ, ih, Function.iterate_succ_apply']

/-! ### Shifts by the amount of a code -/

/-- One place of the rotation through the carry: the carry stands above the word, and the 33
bits rotate together. -/
def stepThroughCarry (s : Shifted) : Shifted :=
  let turned := (BitVec.ofBool s.carry ++ s.value : BitVec 33).rotateRight 1
  ⟨turned.setWidth 32, turned.msb⟩

/-- A rotation through the carry is one step of its own kind. -/
theorem rotateThroughCarry_eq (value : Word) (carry : Bool) :
    rotateThroughCarry value carry = stepThroughCarry ⟨value, carry⟩ := by
  -- A rotation by one of the 33 bits whose top one is the carry.
  have hvalue : Bits.setBit (value >>> 1) 31 carry =
      ((BitVec.ofBool carry ++ value : BitVec 33).rotateRight 1).setWidth 32 := by
    refine BitVec.eq_of_getLsbD_eq fun i hi => ?_
    rw [Bits.getLsbD_setBit _ _ _ _ (by decide), BitVec.getLsbD_setWidth,
      BitVec.getLsbD_rotateRight, BitVec.getLsbD_append, BitVec.getLsbD_ushiftRight]
    by_cases htop : i = 31
    · subst htop
      simp
    · have hlow : 1 + i < 32 := by omega
      simp [hi, htop, hlow]
  have hcarry : value.getLsbD 0 =
      ((BitVec.ofBool carry ++ value : BitVec 33).rotateRight 1).msb := by
    rw [BitVec.msb_eq_getLsbD_last, BitVec.getLsbD_rotateRight, BitVec.getLsbD_append,
      BitVec.getLsbD_append]
    simp
  rw [rotateThroughCarry, hvalue, hcarry]
  rfl

/-- A constant amount of zero stands for thirty-two places or for a rotation through the carry, and
every other one for itself. -/
theorem shiftImmediate_eq (kind : ShiftKind) (amount : Nat) (value : Word) (carry : Bool) :
    shiftImmediate kind amount value carry =
      if kind = .ror ∧ amount = 0 then rotateThroughCarry value carry
      else shift kind (kind.encodedPlaces amount) value carry := by
  cases amount with
  | zero => cases kind <;> rfl
  | succ n => cases kind <;> rfl

/-- Both forms of the barrel shifter are steps of one place. A shift by the byte of a register
takes as many steps as the byte says, whatever it says. A shift by the amount of a code takes
as many as the amount stands for, except that `ROR #0` is one step of the rotation through the
carry. -/
theorem shifts_eq_steps (kind : ShiftKind) (amount : Nat) (value : Word) (carry : Bool) :
    shift kind amount value carry = kind.step^[amount] ⟨value, carry⟩ ∧
      shiftImmediate kind amount value carry =
        if kind = .ror ∧ amount = 0 then stepThroughCarry ⟨value, carry⟩
        else kind.step^[kind.encodedPlaces amount] ⟨value, carry⟩ := by
  refine ⟨shift_eq_iterate kind amount value carry, ?_⟩
  rw [shiftImmediate_eq, rotateThroughCarry_eq, shift_eq_iterate]

end AdvanceCore
