/-!
# `AdvanceCore.Bits`: words and their bit fields

The machine moves bytes, halfwords and words. Registers pack several fields into
one word, so reading and replacing a field is the vocabulary of every other
module. Bit 0 is the least significant one.

Field ranges name both ends, `lo` and `hi`, and include both.
-/

set_option autoImplicit false

namespace AdvanceCore

/-- Eight bits, the unit of memory. -/
abbrev Byte := BitVec 8

/-- Sixteen bits: a Thumb code or an I/O register. -/
abbrev Half := BitVec 16

/-- Thirty-two bits: an address, a register or an ARM code. -/
abbrev Word := BitVec 32

namespace Bits

variable {w : Nat}

/-- The word whose `n` low bits are set. A width of `n` or less gives all ones. -/
def lowMask (w n : Nat) : BitVec w :=
  (BitVec.allOnes n).setWidth w

/-- The bits `lo` to `hi` of `v`, moved down to bit 0. -/
def field (v : BitVec w) (lo hi : Nat) : BitVec w :=
  (v >>> lo) &&& lowMask w (hi - lo + 1)

/-- Replaces the bits `lo` to `hi` of `v` by the low bits of `x`. -/
def setField (v : BitVec w) (lo hi : Nat) (x : BitVec w) : BitVec w :=
  (v &&& ~~~(lowMask w (hi - lo + 1) <<< lo)) ||| ((x &&& lowMask w (hi - lo + 1)) <<< lo)

/-- Sets bit `i` of `v` to `on`. -/
def setBit (v : BitVec w) (i : Nat) (on : Bool) : BitVec w :=
  if on then v ||| BitVec.twoPow w i else v &&& ~~~BitVec.twoPow w i

/-- Byte `n` of `v`, counted from the least significant end. -/
def byte (v : BitVec w) (n : Nat) : Byte :=
  v.extractLsb' (8 * n) 8

/-- The two's complement number in the `n` low bits of `v`, widened to all of it. -/
def signExtendLow (v : BitVec w) (n : Nat) : BitVec w :=
  (v.setWidth n).signExtend w

/-- Takes the bits under `mask` from `new` and the others from `old`. -/
def merge (old new mask : BitVec w) : BitVec w :=
  (old &&& ~~~mask) ||| (new &&& mask)

/-! ### Bit by bit

What each operation does to a single bit. -/

/-- A mask has its low bits set. -/
@[simp] theorem getLsbD_lowMask (n i : Nat) :
    (lowMask w n).getLsbD i = (decide (i < w) && decide (i < n)) := by
  simp [lowMask]

/-- A field has the bits of the vector, moved down. -/
@[simp] theorem getLsbD_field (v : BitVec w) (lo hi i : Nat) :
    (field v lo hi).getLsbD i = (v.getLsbD (lo + i) && decide (i < hi - lo + 1)) := by
  rw [field, BitVec.getLsbD_and, BitVec.getLsbD_ushiftRight, getLsbD_lowMask]
  by_cases h : i < w
  · simp [h]
  · -- Both sides are clear past the end of the word.
    simp [BitVec.getLsbD_of_ge v (lo + i) (by omega)]

/-- Setting a field replaces its bits and keeps the others. -/
@[simp] theorem getLsbD_setField (v x : BitVec w) (lo hi i : Nat) (hle : lo ≤ hi) :
    (setField v lo hi x).getLsbD i =
      if lo ≤ i ∧ i ≤ hi ∧ i < w then x.getLsbD (i - lo) else v.getLsbD i := by
  by_cases hi' : i < w
  · simp only [setField, BitVec.getLsbD_or, BitVec.getLsbD_and, BitVec.getLsbD_not,
      BitVec.getLsbD_shiftLeft, getLsbD_lowMask, hi', decide_true, Bool.true_and, and_true]
    by_cases hlo : i < lo
    · simp [hlo, Nat.not_le_of_lt hlo]
    · by_cases hhi : i ≤ hi
      · have hin : i - lo < w ∧ i - lo < hi - lo + 1 := by omega
        simp [hlo, hhi, hin, Nat.le_of_not_lt hlo]
      · have hout : ¬ i - lo < hi - lo + 1 := by omega
        simp [hlo, hhi, hout]
  · simp [BitVec.getLsbD_of_ge _ i (Nat.le_of_not_lt hi'), hi']

/-- Setting a bit keeps the others. -/
@[simp] theorem getLsbD_setBit (v : BitVec w) (i j : Nat) (on : Bool) (hi : i < w) :
    (setBit v i on).getLsbD j = if j = i then on else v.getLsbD j := by
  by_cases hj : j < w
  · by_cases h : i = j
    · cases on <;> simp [setBit, BitVec.getLsbD_eq_getElem, hj, h]
    · cases on <;> simp [setBit, BitVec.getLsbD_eq_getElem, hj, Ne.symm h]
  · have hne : j ≠ i := by omega
    simp [hne, BitVec.getLsbD_of_ge _ j (Nat.le_of_not_lt hj)]

/-- Setting a bit to what it is changes nothing. -/
theorem setBit_getLsbD (v : BitVec w) {i : Nat} (hi : i < w) : setBit v i (v.getLsbD i) = v := by
  refine BitVec.eq_of_getLsbD_eq fun j _ => ?_
  rw [getLsbD_setBit _ _ _ _ hi]
  split
  · next h => rw [h]
  · rfl

/-- Merging takes the bits of the mask over. -/
@[simp] theorem getLsbD_merge (old new mask : BitVec w) (i : Nat) :
    (merge old new mask).getLsbD i =
      if mask.getLsbD i then new.getLsbD i else old.getLsbD i := by
  by_cases hi : i < w
  · cases h : mask[i] <;> simp [merge, BitVec.getLsbD_eq_getElem, hi, h]
  · simp [BitVec.getLsbD_of_ge _ i (Nat.le_of_not_lt hi)]

/-- Only the bits under the mask count. -/
theorem merge_congr (old : BitVec w) {new new' mask : BitVec w} (h : new &&& mask = new' &&& mask) :
    merge old new mask = merge old new' mask := by
  unfold merge
  rw [h]

/-- Two merges of one word are a merge under both masks. -/
theorem merge_merge (old new mask mask' : BitVec w) :
    merge (merge old new mask) new mask' = merge old new (mask ||| mask') := by
  refine BitVec.eq_of_getLsbD_eq fun i _ => ?_
  rw [getLsbD_merge, getLsbD_merge, getLsbD_merge, BitVec.getLsbD_or]
  cases mask.getLsbD i <;> cases mask'.getLsbD i <;> rfl

/-- With a full mask it takes all bits over. -/
theorem merge_allOnes (old new : BitVec w) : merge old new (BitVec.allOnes w) = new := by
  refine BitVec.eq_of_getLsbD_eq fun i hi => ?_
  rw [getLsbD_merge, BitVec.getLsbD_allOnes, if_pos (decide_eq_true hi)]

/-- Bits that are cleared in the end may as well be cleared before. -/
theorem merge_and (old new mask kept : BitVec w) :
    merge (old &&& kept) new mask &&& kept = merge old new mask &&& kept := by
  refine BitVec.eq_of_getLsbD_eq fun i _ => ?_
  simp only [BitVec.getLsbD_and, getLsbD_merge]
  cases mask.getLsbD i <;> simp

/-- Clearing low bits rounds down to a multiple of their power of two. -/
theorem toNat_and_not_lowMask (v : BitVec w) (n : Nat) :
    (v &&& ~~~lowMask w n).toNat = v.toNat / 1 <<< n * 1 <<< n := by
  have hshift : v &&& ~~~lowMask w n = v >>> n <<< n := by
    refine BitVec.eq_of_getLsbD_eq fun i hi => ?_
    rw [BitVec.getLsbD_and, BitVec.getLsbD_not, getLsbD_lowMask, BitVec.getLsbD_shiftLeft,
      BitVec.getLsbD_ushiftRight]
    by_cases hlow : i < n
    · simp [hlow]
    · have hback : n + (i - n) = i := by omega
      simp [hi, hlow, hback]
  have hlt : v.toNat / 1 <<< n * 1 <<< n < 2 ^ w :=
    Nat.lt_of_le_of_lt (Nat.div_mul_le_self ..) v.isLt
  rw [Nat.one_shiftLeft] at hlt ⊢
  rw [hshift, BitVec.toNat_shiftLeft, BitVec.toNat_ushiftRight, Nat.shiftLeft_eq,
    Nat.shiftRight_eq_div_pow, Nat.mod_eq_of_lt hlt]

/-- Clearing low bits leaves a multiple of their power of two as it is. -/
theorem and_not_lowMask (v : BitVec w) (n : Nat) (h : 1 <<< n ∣ v.toNat) :
    v &&& ~~~lowMask w n = v := by
  refine BitVec.eq_of_toNat_eq ?_
  rw [toNat_and_not_lowMask, Nat.div_mul_cancel h]

/-- Clearing low bits gives a multiple of their power of two. -/
theorem dvd_and_not_lowMask (v : BitVec w) (n : Nat) :
    1 <<< n ∣ (v &&& ~~~lowMask w n).toNat := by
  rw [toNat_and_not_lowMask]
  exact Nat.dvd_mul_left ..

/-- Under a mask of low bits the remainder is left. -/
theorem toNat_and_mask (v : BitVec w) {mask : BitVec w} {n : Nat}
    (hmask : mask.toNat = 1 <<< n - 1) : (v &&& mask).toNat = v.toNat % 1 <<< n := by
  rw [Nat.one_shiftLeft] at hmask ⊢
  rw [BitVec.toNat_and, hmask, Nat.and_two_pow_sub_one_eq_mod]

/-! ### Bytes -/

/-- The lower byte of two that are appended. -/
theorem byte_append_zero (high low : Byte) : byte (high ++ low : Half) 0 = low :=
  BitVec.extractLsb'_append_eq_right

/-- The upper byte of two that are appended. -/
theorem byte_append_one (high low : Byte) : byte (high ++ low : Half) 1 = high :=
  BitVec.extractLsb'_append_eq_left

/-- The first two bytes of a word are those of its lower half. -/
theorem byte_append_low (high low : Half) {j : Nat} (h : j < 2) :
    byte (high ++ low : Word) j = byte low j := by
  refine BitVec.eq_of_getLsbD_eq fun i hi => ?_
  have hlow : 8 * j + i < 16 := by omega
  simp only [byte, BitVec.getLsbD_extractLsb', BitVec.getLsbD_append, hlow]
  simp

/-- The last two bytes of a word are those of its upper half. -/
theorem byte_append_high (high low : Half) (j : Nat) :
    byte (high ++ low : Word) (j + 2) = byte high j := by
  refine BitVec.eq_of_getLsbD_eq fun i hi => ?_
  have hhigh : ¬ 8 * (j + 2) + i < 16 := by omega
  have hdown : 8 * (j + 2) + i - 16 = 8 * j + i := by omega
  simp only [byte, BitVec.getLsbD_extractLsb', BitVec.getLsbD_append, hhigh, hdown]
  simp

/-- Another width leaves the bytes that fit into it. -/
theorem byte_setWidth (v : BitVec w) {w' n : Nat} (h : 8 * n + 8 ≤ w') :
    byte (v.setWidth w') n = byte v n := by
  refine BitVec.eq_of_getLsbD_eq fun i hi => ?_
  have hlt : 8 * n + i < w' := by omega
  simp [byte, BitVec.getLsbD_extractLsb', hlt]

/-- A halfword is its two bytes. -/
theorem byte_append_byte (v : Half) : byte v 1 ++ byte v 0 = v := by
  refine BitVec.eq_of_getLsbD_eq fun i hi => ?_
  rw [BitVec.getLsbD_append]
  by_cases hlow : i < 8
  · simp [byte, hlow]
  · have hup : 8 + (i - 8) = i := by omega
    have hin : i - 8 < 8 := by omega
    simp [byte, hlow, hup, hin]

/-- The lower half of a word has its bytes 0 and 1. -/
theorem byte_lowerHalf (v : Word) {j : Nat} (h : j < 2) :
    byte (v.extractLsb' 0 16) j = byte v j := by
  refine BitVec.eq_of_getLsbD_eq fun i hi => ?_
  have hlow : 8 * j + i < 16 := by omega
  simp [byte, BitVec.getLsbD_extractLsb', hlow]

/-- The upper half of a word has its bytes 2 and 3. -/
theorem byte_upperHalf (v : Word) {j : Nat} (h : j < 2) :
    byte (v.extractLsb' 16 16) j = byte v (j + 2) := by
  refine BitVec.eq_of_getLsbD_eq fun i hi => ?_
  have hlow : 8 * j + i < 16 := by omega
  have hup : 16 + (8 * j + i) = 8 * (j + 2) + i := by omega
  simp [byte, BitVec.getLsbD_extractLsb', hlow, hup]

/-- The two bytes of a halfword, each in its place. -/
theorem bytes_under_masks (v : Half) :
    (byte v 0).setWidth 16 &&& 0x00FF = v &&& 0x00FF ∧
      (byte v 1).setWidth 16 <<< 8 &&& 0xFF00 = v &&& 0xFF00 := by
  have hlow : (0x00FF : Half) = lowMask 16 8 := by decide
  have hhigh : (0xFF00 : Half) = ~~~lowMask 16 8 := by decide
  rw [hlow, hhigh]
  constructor <;> refine BitVec.eq_of_getLsbD_eq fun i hi => ?_
  · rw [BitVec.getLsbD_and, BitVec.getLsbD_and, getLsbD_lowMask]
    by_cases h : i < 8 <;> simp [byte, h, hi]
  · rw [BitVec.getLsbD_and, BitVec.getLsbD_and, BitVec.getLsbD_not, getLsbD_lowMask]
    by_cases h : i < 8
    · simp [byte, h, hi]
    · have hup : 8 + (i - 8) = i := by omega
      have hin : i - 8 < 8 := by omega
      simp [byte, h, hi, hup, hin]

/-- The two bytes of a halfword, merged one after the other, replace all of it. -/
theorem merge_bytes (old value : Half) :
    merge (merge old ((byte value 0).setWidth 16) 0x00FF)
      ((byte value 1).setWidth 16 <<< 8) 0xFF00 = value := by
  obtain ⟨hlow, hhigh⟩ := bytes_under_masks value
  rw [merge_congr old hlow, merge_congr _ hhigh, merge_merge]
  exact merge_allOnes old value

/-! ### Fields -/

/-- A pattern in two parts is met part by part. -/
theorem extractLsb'_eq_append (v : BitVec w) (lowest : Nat) {m n : Nat} (high : BitVec m)
    (low : BitVec n) :
    v.extractLsb' lowest (m + n) = high ++ low ↔
      v.extractLsb' (lowest + n) m = high ∧ v.extractLsb' lowest n = low := by
  rw [← BitVec.extractLsb'_append_extractLsb'_eq_extractLsb' rfl]
  constructor
  · intro h
    have hhigh := congrArg (BitVec.extractLsb' n m) h
    have hlow := congrArg (BitVec.extractLsb' 0 n) h
    rw [BitVec.extractLsb'_append_eq_left, BitVec.extractLsb'_append_eq_left] at hhigh
    rw [BitVec.extractLsb'_append_eq_right, BitVec.extractLsb'_append_eq_right] at hlow
    exact ⟨hhigh, hlow⟩
  · rintro ⟨rfl, rfl⟩
    rfl

/-- A pattern of one bit. -/
theorem extractLsb'_eq_one (v : BitVec w) (i : Nat) :
    v.extractLsb' i 1 = 1#1 ↔ v.getLsbD i = true := by
  rw [BitVec.getLsbD_eq_extractLsb', beq_iff_eq]

/-- A pattern of one clear bit. -/
theorem extractLsb'_eq_zero (v : BitVec w) (i : Nat) :
    v.extractLsb' i 1 = 0#1 ↔ v.getLsbD i = false := by
  rw [BitVec.getLsbD_eq_extractLsb', beq_eq_false_iff_ne]
  generalize v.extractLsb' i 1 = bit
  revert bit
  decide

/-- A field reads back what was written to it. -/
theorem field_setField (v x : BitVec w) {lo hi : Nat} (hle : lo ≤ hi) (hlt : hi < w) :
    field (setField v lo hi x) lo hi = field x 0 (hi - lo) := by
  refine BitVec.eq_of_getLsbD_eq fun i _ => ?_
  rw [getLsbD_field, getLsbD_field, getLsbD_setField _ _ _ _ _ hle]
  by_cases h : i < hi - lo + 1
  · have hin : lo ≤ lo + i ∧ lo + i ≤ hi ∧ lo + i < w := by omega
    simp [h, hin]
  · simp [h]

/-- A field does not see a bit outside it. -/
theorem field_setBit (v : BitVec w) {lo hi i : Nat} (on : Bool) (hle : lo ≤ hi) (hlt : i < w)
    (hout : i < lo ∨ hi < i) : field (setBit v i on) lo hi = field v lo hi := by
  refine BitVec.eq_of_getLsbD_eq fun j _ => ?_
  rw [getLsbD_field, getLsbD_field, getLsbD_setBit _ _ _ _ hlt]
  by_cases h : j < hi - lo + 1
  · have hne : lo + j ≠ i := by omega
    simp [hne]
  · simp [h]

end Bits

end AdvanceCore
