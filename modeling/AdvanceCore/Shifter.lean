import AdvanceCore.Bits

/-!
# `AdvanceCore.Shifter`: the barrel shifter

The shifter sits in front of the second operand of the ALU. Beside the shifted word
it gives a carry: the last bit it moved out.

* `shift` takes its amount from the bottom byte of a register.
* `shiftImmediate` takes a five-bit amount from the code, where a zero stands for
  the amounts that would otherwise have no encoding.
-/

set_option autoImplicit false

namespace AdvanceCore

/-- The four shift operations. -/
inductive ShiftKind where
  /-- Logical shift left. -/
  | lsl
  /-- Logical shift right. -/
  | lsr
  /-- Arithmetic shift right, which keeps the sign. -/
  | asr
  /-- Rotation right. -/
  | ror
  deriving DecidableEq, Repr

/-- The shift operation with a two-bit code. -/
def ShiftKind.ofCode (code : BitVec 2) : ShiftKind :=
  match code with
  | 0b00#2 => .lsl
  | 0b01#2 => .lsr
  | 0b10#2 => .asr
  | _ => .ror

/-- The mnemonic of a shift. -/
def ShiftKind.mnemonic : ShiftKind → String
  | .lsl => "LSL"
  | .lsr => "LSR"
  | .asr => "ASR"
  | .ror => "ROR"

/-- A shifted word and the carry out of the shifter. -/
structure Shifted where
  value : Word
  carry : Bool
  deriving DecidableEq, Repr

/-- Shifts `value` by `amount`. An amount of zero leaves the value and the carry
alone. Past 32 a logical shift has nothing left to move out, an arithmetic one
repeats the sign, and a rotation goes round. -/
def shift (kind : ShiftKind) (amount : Nat) (value : Word) (carry : Bool) : Shifted :=
  if amount = 0 then ⟨value, carry⟩
  else
    match kind with
    | .lsl =>
      if amount < 32 then ⟨value <<< amount, value.getLsbD (32 - amount)⟩
      else if amount = 32 then ⟨0, value.getLsbD 0⟩
      else ⟨0, false⟩
    | .lsr =>
      if amount < 32 then ⟨value >>> amount, value.getLsbD (amount - 1)⟩
      else if amount = 32 then ⟨0, value.getLsbD 31⟩
      else ⟨0, false⟩
    | .asr =>
      if amount < 32 then ⟨value.sshiftRight amount, value.getLsbD (amount - 1)⟩
      else ⟨value.sshiftRight 31, value.getLsbD 31⟩
    | .ror =>
      let turn := amount % 32
      if turn = 0 then ⟨value, value.getLsbD 31⟩
      else ⟨value.rotateRight turn, value.getLsbD (turn - 1)⟩

/-- Rotates the 33 bits of the value and the carry right by one. -/
def rotateThroughCarry (value : Word) (carry : Bool) : Shifted :=
  ⟨Bits.setBit (value >>> 1) 31 carry, value.getLsbD 0⟩

/-- Shifts by the five-bit amount of a code. `LSR #0` and `ASR #0` shift by 32,
`ROR #0` rotates through the carry, `LSL #0` does nothing. -/
def shiftImmediate (kind : ShiftKind) (amount : Nat) (value : Word) (carry : Bool) : Shifted :=
  match kind, amount with
  | .lsr, 0 => shift .lsr 32 value carry
  | .asr, 0 => shift .asr 32 value carry
  | .ror, 0 => rotateThroughCarry value carry
  | kind, amount => shift kind amount value carry

end AdvanceCore
