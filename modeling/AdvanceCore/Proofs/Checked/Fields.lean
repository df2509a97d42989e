import AdvanceCore.Proofs.Checked.Words

/-!
# `AdvanceCore.Proofs.Checked.Fields`: bit fields, one shift at a time

A machine has no operation that reads or writes a field of a word. It shifts and masks, and the
mask itself comes from a shift. For a field that is the whole word that shift would be by the
full width, so this field has a mask of its own. A sign is widened by a shift to the top of the
word and back.

The forms by shifts break at every shift that is not by less than the width. They agree with the
checked forms of `AdvanceCore.Proofs.Checked.Words`, which look at the range of the field alone:

* `lowMaskByShift?_eq`: a mask never breaks, whatever its number of bits.
* `fieldByShifts?_eq`, `signExtendByShifts?_eq`: reading and widening break at a range that is
  not in the word, and nowhere else.
* `setFieldByShifts?_eq`: writing breaks at a range that does not begin in the word.

As numbers, a field is what is left of a quotient, and a sign takes a power of two away:

* `toNat_field`, `toNat_field_setField`, `toInt_signExtendLow`.
* `fields_exact`: all of it, for words of every width.
-/

set_option autoImplicit false

namespace AdvanceCore

namespace Bits

variable {w : Nat}

/-! ### Masks -/

/-- The mask of the `n` low bits: a one is shifted past them and taken down by one. The mask of
all the bits needs no shift. -/
def lowMaskByShift? (w n : Nat) : Option (BitVec w) := do
  if w ≤ n then return BitVec.allOnes w
  let past ← shiftLeft? (1#w) n
  return BitVec.ofNat w (← difference? past.toNat 1)

/-- A mask of the low bits is one less than a power of two. -/
theorem toNat_lowMask {n : Nat} (h : n ≤ w) : (lowMask w n).toNat = 2 ^ n - 1 := by
  have hpow : 2 ^ n ≤ 2 ^ w := Nat.pow_le_pow_right (by decide) h
  have hpos : 0 < 2 ^ n := Nat.two_pow_pos n
  rw [lowMask, BitVec.toNat_setWidth, BitVec.toNat_allOnes, Nat.mod_eq_of_lt (by omega)]

/-- A mask as wide as the vector covers all of it. -/
theorem lowMask_of_le {n : Nat} (h : w ≤ n) : lowMask w n = BitVec.allOnes w := by
  refine BitVec.eq_of_getLsbD_eq fun i hi => ?_
  rw [getLsbD_lowMask, BitVec.getLsbD_allOnes, decide_eq_true (Nat.lt_of_lt_of_le hi h),
    Bool.and_true]

/-- The mask is found for every width. The shift by the full width, which would break, is the case
that is taken apart. -/
@[simp] theorem lowMaskByShift?_eq (w n : Nat) : lowMaskByShift? w n = some (lowMask w n) := by
  unfold lowMaskByShift?
  by_cases hfull : w ≤ n
  · rw [if_pos hfull, lowMask_of_le hfull]
    rfl
  · have hlt : n < w := Nat.lt_of_not_le hfull
    have hpast : (1#w <<< n).toNat = 2 ^ n := BitVec.toNat_twoPow_of_lt hlt
    have hmask : BitVec.ofNat w (2 ^ n - 1) = lowMask w n := by
      rw [← toNat_lowMask (Nat.le_of_lt hlt), BitVec.ofNat_toNat, BitVec.setWidth_eq]
    simp [hfull, hlt, hpast, difference?_of_le (Nat.two_pow_pos n), hmask]

/-! ### Shift by shift -/

/-- The bits `lo` to `hi` of `v`, which are to be in the word: shifted down, under a mask. -/
def fieldByShifts? (v : BitVec w) (lo hi : Nat) : Option (BitVec w) := do
  let length := (← difference? hi lo) + 1
  provided (hi < w) ()
  let mask ← lowMaskByShift? w length
  return (← shiftRight? v lo) &&& mask

/-- Replaces the bits `lo` to `hi` of `v`: the mask is shifted up to them, and so are the bits
that it leaves of `x`. What is past the end of the word is cut off. -/
def setFieldByShifts? (v : BitVec w) (lo hi : Nat) (x : BitVec w) : Option (BitVec w) := do
  let length := (← difference? hi lo) + 1
  let mask ← lowMaskByShift? w length
  return (v &&& ~~~(← shiftLeft? mask lo)) ||| (← shiftLeft? (x &&& mask) lo)

/-- Widens the number in the `n` low bits of `v`, of which there is one at least: its sign is
shifted to the top of the word, and comes down again on all the bits in between. -/
def signExtendByShifts? (v : BitVec w) (n : Nat) : Option (BitVec w) := do
  provided (0 < n) ()
  let unused ← difference? w n
  shiftRightSigned? (← shiftLeft? v unused) unused

/-- A field that is read shift by shift is read exactly when its bits are in range, and is the field
of the specification. -/
theorem fieldByShifts?_eq (v : BitVec w) (lo hi : Nat) :
    fieldByShifts? v lo hi = field? v lo hi := by
  unfold fieldByShifts? field?
  by_cases hle : lo ≤ hi
  · by_cases hlt : hi < w
    · have hlo : lo < w := Nat.lt_of_le_of_lt hle hlt
      simp [difference?_of_le hle, provided, hle, hlt, hlo, field]
    · simp [difference?_of_le hle, provided, hlt]
  · simp [difference?, provided, hle]

/-- Writing a field breaks if its lowest bit is out of range, or if its bits are in the wrong order.
-/
theorem setFieldByShifts?_eq (v x : BitVec w) (lo hi : Nat) :
    setFieldByShifts? v lo hi x = provided (lo ≤ hi ∧ lo < w) (setField v lo hi x) := by
  unfold setFieldByShifts?
  by_cases hle : lo ≤ hi
  · by_cases hlo : lo < w
    · simp [difference?_of_le hle, provided, hle, hlo, setField]
    · simp [difference?_of_le hle, provided, shiftLeft?, hlo]
  · simp [difference?, provided, hle]

/-- The sign of a number in the low bits is its own top bit. -/
theorem msb_setWidth_of_pos (v : BitVec w) {n : Nat} (hpos : 0 < n) :
    (v.setWidth n).msb = v.getLsbD (n - 1) := by
  rw [BitVec.msb_setWidth, decide_eq_true hpos, Bool.true_and]

/-- A sign that goes to the top of the word and comes back is on every bit that it has passed. -/
theorem sshiftRight_shiftLeft (v : BitVec w) {n : Nat} (hpos : 0 < n) (hle : n ≤ w) :
    (v <<< (w - n)).sshiftRight (w - n) = signExtendLow v n := by
  refine BitVec.eq_of_getLsbD_eq fun i hi => ?_
  rw [BitVec.getLsbD_sshiftRight, signExtendLow, BitVec.getLsbD_signExtend,
    decide_eq_false (Nat.not_le_of_lt hi), decide_eq_true hi]
  by_cases hlow : i < n
  · -- Below the sign a bit comes back to its own place.
    have hinside : w - n + i < w := by omega
    have hpast : ¬ w - n + i < w - n := by omega
    have hback : w - n + i - (w - n) = i := by omega
    rw [if_pos hinside, if_pos hlow, BitVec.getLsbD_shiftLeft, BitVec.getLsbD_setWidth, hback]
    simp [hinside, hpast, hlow]
  · -- From the sign on every bit is the top bit of the shifted word, which is bit `n - 1`.
    have houtside : ¬ w - n + i < w := by omega
    have htop : (v <<< (w - n)).msb = v.getLsbD (n - 1) := by
      have hlast : w - 1 < w := by omega
      have hpast : ¬ w - 1 < w - n := by omega
      have hsign : w - 1 - (w - n) = n - 1 := by omega
      rw [BitVec.msb_eq_getLsbD_last, BitVec.getLsbD_shiftLeft, hsign]
      simp [hlast, hpast]
    rw [if_neg houtside, if_neg hlow, htop, msb_setWidth_of_pos v hpos]
    rfl

/-- The two shifts of a sign extension break for zero bits and for more than the width, and in no
other case. -/
theorem signExtendByShifts?_eq (v : BitVec w) (n : Nat) :
    signExtendByShifts? v n = signExtendLow? v n := by
  unfold signExtendByShifts? signExtendLow?
  by_cases hpos : 0 < n
  · by_cases hle : n ≤ w
    · have hunused : w - n < w := by omega
      simp [difference?_of_le hle, provided, hpos, hle, hunused, sshiftRight_shiftLeft v hpos hle]
    · simp [difference?, provided, hle]
  · simp [provided, hpos]

/-! ### As numbers -/

/-- A field as a number: what is left between a division and a remainder. -/
theorem toNat_field (v : BitVec w) {lo hi : Nat} (hle : lo ≤ hi) (hlt : hi < w) :
    (field v lo hi).toNat = v.toNat / 2 ^ lo % 2 ^ (hi - lo + 1) := by
  have hmask : (lowMask w (hi - lo + 1)).toNat = 2 ^ (hi - lo + 1) - 1 :=
    toNat_lowMask (by omega)
  rw [field, toNat_shiftRight_and v lo hmask, BitVec.extractLsb'_toNat,
    Nat.shiftRight_eq_div_pow]

/-- A field that has been written holds the low bits of what was written. -/
theorem toNat_field_setField (v x : BitVec w) {lo hi : Nat} (hle : lo ≤ hi) (hlt : hi < w) :
    (field (setField v lo hi x) lo hi).toNat = x.toNat % 2 ^ (hi - lo + 1) := by
  have hwidth : hi - lo < w := Nat.lt_of_le_of_lt (Nat.sub_le ..) hlt
  rw [field_setField v x hle hlt, toNat_field x (Nat.zero_le _) hwidth]
  simp

/-- The number in the low bits, less its power of two if its top bit is set. -/
theorem toInt_signExtendLow (v : BitVec w) {n : Nat} (hpos : 0 < n) (hle : n ≤ w) :
    (signExtendLow v n).toInt =
      ((v.toNat % 2 ^ n : Nat) : Int) - if v.getLsbD (n - 1) then 2 ^ n else 0 := by
  rw [signExtendLow, BitVec.toInt_signExtend_of_le hle, BitVec.toInt_eq_msb_cond,
    msb_setWidth_of_pos v hpos, BitVec.toNat_setWidth]
  split <;> simp

/-! ### Fields and signs of every width -/

/-- The bits `lo` to `hi` of `v` are a number of their own, which `x` can replace: as many bits
of `x` as there is room for. No shift breaks on the way. -/
structure FieldExact (v x : BitVec w) (lo hi : Nat) : Prop where
  number : (field v lo hi).toNat = v.toNat / 2 ^ lo % 2 ^ (hi - lo + 1)
  readBack : (field (setField v lo hi x) lo hi).toNat = x.toNat % 2 ^ (hi - lo + 1)
  kept : ∀ i, i < lo ∨ hi < i → (setField v lo hi x).getLsbD i = v.getLsbD i
  reads : fieldByShifts? v lo hi = some (field v lo hi)
  writes : setFieldByShifts? v lo hi x = some (setField v lo hi x)

/-- The `n` low bits of `v` are a number with a sign, which stays the same number in the whole
word. No shift breaks on the way. -/
structure SignExact (v : BitVec w) (n : Nat) : Prop where
  number : (signExtendLow v n).toInt =
    ((v.toNat % 2 ^ n : Nat) : Int) - if v.getLsbD (n - 1) then 2 ^ n else 0
  widens : signExtendByShifts? v n = some (signExtendLow v n)

/-- Only the field changes. -/
theorem kept_setField (v x : BitVec w) {lo hi i : Nat} (hle : lo ≤ hi) (hout : i < lo ∨ hi < i) :
    (setField v lo hi x).getLsbD i = v.getLsbD i := by
  rw [getLsbD_setField v x lo hi i hle, if_neg (by omega)]

/-- In words of every width, every range inside the word is a field, and every number of low
bits, from one to all of them, has a sign. -/
theorem fields_exact (v x : BitVec w) :
    (∀ lo hi, lo ≤ hi → hi < w → FieldExact v x lo hi) ∧
      ∀ n, 0 < n → n ≤ w → SignExact v n := by
  constructor
  · intro lo hi hle hlt
    have hlo : lo < w := Nat.lt_of_le_of_lt hle hlt
    exact {
      number := toNat_field v hle hlt
      readBack := toNat_field_setField v x hle hlt
      kept := fun i hout => kept_setField v x hle hout
      reads := by rw [fieldByShifts?_eq, field?_of_lt v hle hlt]
      writes := by rw [setFieldByShifts?_eq, provided_of _ ⟨hle, hlo⟩] }
  · intro n hpos hle
    exact {
      number := toInt_signExtendLow v hpos hle
      widens := by rw [signExtendByShifts?_eq, signExtendLow?_of_le v hpos hle] }

/-- A value too wide for its field loses its top bit. The widest field and the widest sign are
all of a word. -/
theorem fields_exact_at_full_width :
    (12 ≤ 13 ∧ 13 < 16 ∧ FieldExact (0xFFFF : Half) 0b101 12 13 ∧
        setFieldByShifts? (0xFFFF : Half) 12 13 0b101 = some 0xDFFF) ∧
      (0 ≤ 63 ∧ 63 < 64 ∧ FieldExact (0x0123456789ABCDEF : BitVec 64) 0xFEDCBA9876543210 0 63) ∧
      0 < 8 ∧ 8 ≤ 8 ∧ SignExact (0x80 : Byte) 8 ∧ (signExtendLow (0x80 : Byte) 8).toInt = -128 := by
  have hinside : FieldExact (0xFFFF : Half) 0b101 12 13 :=
    (fields_exact 0xFFFF 0b101).1 12 13 (by decide) (by decide)
  have hsign : SignExact (0x80 : Byte) 8 :=
    (fields_exact 0x80 0).2 8 (by decide) (by decide)
  exact ⟨⟨by decide, by decide, hinside, hinside.writes.trans (by decide)⟩,
    ⟨by decide, by decide, (fields_exact _ _).1 0 63 (by decide) (by decide)⟩,
    by decide, by decide, hsign, hsign.number.trans (by decide)⟩

/-- A mask of a whole word, made by a shift, would break. -/
example : shiftLeft? (1 : Byte) 8 = none ∧ lowMaskByShift? 8 8 = some 0xFF := by decide

end Bits

end AdvanceCore
