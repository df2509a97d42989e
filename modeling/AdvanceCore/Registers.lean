import AdvanceCore.Bits

/-!
# `AdvanceCore.Registers`: the register file

The sixteen registers visible in the current mode. R13 is the stack pointer by
convention, R14 receives return addresses and R15 is the program counter, which
reads two codes past the executing instruction.
-/

set_option autoImplicit false

namespace AdvanceCore

/-- The number of a register. -/
abbrev RegisterId := Fin 16

namespace RegisterId

/-- Registers are written as numerals. -/
instance instNeZero : @NeZero Nat Zero.ofOfNat0 16 := ⟨by decide⟩

/-- R13, the stack pointer. -/
def sp : RegisterId := 13

/-- R14, the link register. -/
def lr : RegisterId := 14

/-- R15, the program counter. -/
def pc : RegisterId := 15

/-- The register a four-bit field names. -/
def ofField (bits : BitVec 4) : RegisterId := bits.toFin

/-- The registers of a list in which bit `r` stands for register `r`, ascending. -/
def ofList (list : Half) : List RegisterId :=
  (List.finRange 16).filter fun r => list.getLsbD r

/-- The name of a register in assembly text. -/
def text (r : RegisterId) : String := "R" ++ toString r.val

/-- A register that is neither low, high, SP nor LR is R15. -/
theorem eq_pc {r : RegisterId} (hlow : ¬ r.val < 8) (hhigh : ¬ r.val - 8 < 5)
    (hsp : r ≠ .sp) (hlr : r ≠ .lr) : r = .pc := by
  have hsp' : r.val ≠ 13 := fun h => hsp (Fin.ext h)
  have hlr' : r.val ≠ 14 := fun h => hlr (Fin.ext h)
  exact Fin.ext (show r.val = 15 by omega)

end RegisterId

/-- R8 to R12, which fast interrupts have copies of. -/
abbrev HighRegisters := Vector Word 5

/-- The sixteen registers of the current mode. -/
structure Registers where
  values : Vector Word 16
  deriving DecidableEq, Repr

namespace Registers

/-- All registers zero. -/
def zero : Registers := ⟨Vector.replicate 16 0⟩

/-- The value of a register. -/
def get (rs : Registers) (r : RegisterId) : Word := rs.values[r]

/-- Replaces the value of a register. -/
def set (rs : Registers) (r : RegisterId) (value : Word) : Registers :=
  ⟨rs.values.set r value⟩

/-- The program counter. -/
def pc (rs : Registers) : Word := rs.get .pc

/-- R8 to R12. -/
def high (rs : Registers) : HighRegisters :=
  Vector.ofFn fun i => rs.get ⟨8 + i.val, by omega⟩

/-- Replaces R8 to R12. -/
def setHigh (rs : Registers) (values : HighRegisters) : Registers :=
  ⟨Vector.ofFn fun r : Fin 16 =>
    if h : 8 ≤ r.val ∧ r.val - 8 < 5 then values[r.val - 8] else rs.get r⟩

/-- A register that is set is read back, and the others are kept. -/
@[simp] theorem get_set (rs : Registers) (r s : RegisterId) (value : Word) :
    (rs.set r value).get s = if r = s then value else rs.get s := by
  simp only [get, set, Fin.getElem_fin, Vector.getElem_set, Fin.ext_iff]

/-- A register that is set holds the value. -/
theorem get_set_self (rs : Registers) (r : RegisterId) (value : Word) :
    (rs.set r value).get r = value := by
  rw [get_set, if_pos rfl]

/-- Setting a register keeps the others. -/
theorem get_set_of_ne (rs : Registers) {r s : RegisterId} (value : Word) (h : r ≠ s) :
    (rs.set r value).get s = rs.get s := by
  rw [get_set, if_neg h]

/-- Setting R8 to R12 at once sets each of them. -/
@[simp] theorem get_setHigh (rs : Registers) (values : HighRegisters) (r : Fin 16) :
    (rs.setHigh values).get r =
      if h : 8 ≤ r.val ∧ r.val - 8 < 5 then values[r.val - 8] else rs.get r := by
  simp only [get, setHigh, Fin.getElem_fin, Vector.getElem_ofFn]

/-- The high registers are R8 to R12. -/
theorem getElem_high (rs : Registers) (i : Nat) (hi : i < 5) :
    rs.high[i] = rs.get ⟨8 + i, by omega⟩ := by
  simp only [high, Vector.getElem_ofFn]

/-- The high registers read back. -/
@[simp] theorem high_setHigh (rs : Registers) (values : HighRegisters) :
    (rs.setHigh values).high = values := by
  refine Vector.ext fun i hi => ?_
  have hin : 8 ≤ 8 + i ∧ 8 + i - 8 < 5 := by omega
  rw [getElem_high, get_setHigh, dif_pos hin]
  simp only [Nat.add_sub_cancel_left]

/-- Other registers are not among the high ones. -/
theorem high_set (rs : Registers) {r : RegisterId} (value : Word) (h : r.val < 8 ∨ 12 < r.val) :
    (rs.set r value).high = rs.high := by
  refine Vector.ext fun i hi => ?_
  rw [getElem_high, getElem_high, get_set, if_neg]
  rintro rfl
  rcases h with h | h <;> simp only at h <;> omega

/-- A register above R7 is none of the low ones. -/
theorem low_set (rs : Registers) {r : RegisterId} (value : Word) (hr : 7 < r.val) (s : Fin 8) :
    (rs.set r value).get ⟨s.val, by omega⟩ = rs.get ⟨s.val, by omega⟩ := by
  refine rs.get_set_of_ne value fun h => ?_
  have hval : r.val = s.val := congrArg Fin.val h
  omega

/-- Register files that read the same are the same. -/
theorem ext_get {rs rs' : Registers} (h : ∀ r, rs.get r = rs'.get r) : rs = rs' := by
  obtain ⟨values⟩ := rs
  obtain ⟨values'⟩ := rs'
  exact congrArg Registers.mk (Vector.ext fun i hi => h ⟨i, hi⟩)

/-- Setting a register to what it holds changes nothing. -/
theorem set_get (rs : Registers) (r : RegisterId) : rs.set r (rs.get r) = rs := by
  refine ext_get fun s => ?_
  rw [get_set]
  split
  case isTrue h => rw [h]
  case isFalse => rfl

/-- Of two values of one register the second one stays. -/
theorem set_set (rs : Registers) (r : RegisterId) (value value' : Word) :
    (rs.set r value).set r value' = rs.set r value' := by
  refine ext_get fun s => ?_
  simp only [get_set]
  split <;> rfl

/-- Two different registers can be set in either order. -/
theorem set_comm (rs : Registers) {r r' : RegisterId} (h : r ≠ r') (value value' : Word) :
    (rs.set r value).set r' value' = (rs.set r' value').set r value := by
  refine ext_get fun s => ?_
  simp only [get_set]
  split
  case isTrue hr' =>
    have hr : r ≠ s := fun hr => h (hr.trans hr'.symm)
    rw [if_neg hr]
  case isFalse => rfl

end Registers

end AdvanceCore
