/-!
# `AdvanceCore.Numeral`: numbers as text

Assembly text, log lines and error messages write numbers in base 16 and base 2,
some of them padded with zeros to a least width.
-/

set_option autoImplicit false

namespace AdvanceCore.Numeral

/-- Prepends zeros to `digits` until there are at least `width` of them. -/
def padZeros (width : Nat) (digits : List Char) : List Char :=
  List.replicate (width - digits.length) '0' ++ digits

/-- `n` in base 16 with upper-case digits, at least `width` of them. -/
def hex (width n : Nat) : String :=
  String.ofList (padZeros width ((Nat.toDigits 16 n).map Char.toUpper))

/-- `n` in base 2, at least `width` digits. -/
def binary (width n : Nat) : String :=
  String.ofList (padZeros width (Nat.toDigits 2 n))

/-- A two's complement number in decimal, with a minus sign when negative. -/
def signed {w : Nat} (v : BitVec w) : String :=
  if v.msb then "-" ++ toString (-v).toNat else toString v.toNat

/-- Padding only adds digits when there are too few. -/
theorem length_padZeros (width : Nat) (digits : List Char) :
    (padZeros width digits).length = max width digits.length := by
  simp only [padZeros, List.length_append, List.length_replicate]
  omega

end AdvanceCore.Numeral
