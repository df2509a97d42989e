/-!
# `AdvanceCore.Condition`: condition codes

Every ARM instruction and the conditional Thumb branch carry a four-bit condition
on the status flags. `AdvanceCore.Psr` says which flags satisfy each of them.
-/

set_option autoImplicit false

namespace AdvanceCore

/-- The sixteen condition codes. -/
inductive Condition where
  /-- Equal. -/
  | eq
  /-- Not equal. -/
  | ne
  /-- Carry set: unsigned higher or same. -/
  | cs
  /-- Carry clear: unsigned lower. -/
  | cc
  /-- Minus: negative. -/
  | mi
  /-- Plus: positive or zero. -/
  | pl
  /-- Overflow. -/
  | vs
  /-- No overflow. -/
  | vc
  /-- Unsigned higher. -/
  | hi
  /-- Unsigned lower or same. -/
  | ls
  /-- Signed greater or equal. -/
  | ge
  /-- Signed less. -/
  | lt
  /-- Signed greater. -/
  | gt
  /-- Signed less or equal. -/
  | le
  /-- Always. -/
  | al
  /-- Never. -/
  | nv
  deriving DecidableEq, Repr

namespace Condition

/-- The condition with a four-bit code. -/
def ofCode (code : BitVec 4) : Condition :=
  match code with
  | 0x0#4 => .eq
  | 0x1#4 => .ne
  | 0x2#4 => .cs
  | 0x3#4 => .cc
  | 0x4#4 => .mi
  | 0x5#4 => .pl
  | 0x6#4 => .vs
  | 0x7#4 => .vc
  | 0x8#4 => .hi
  | 0x9#4 => .ls
  | 0xA#4 => .ge
  | 0xB#4 => .lt
  | 0xC#4 => .gt
  | 0xD#4 => .le
  | 0xE#4 => .al
  | _ => .nv

/-- The two letters of a condition. -/
def letters : Condition → String
  | .eq => "EQ"
  | .ne => "NE"
  | .cs => "CS"
  | .cc => "CC"
  | .mi => "MI"
  | .pl => "PL"
  | .vs => "VS"
  | .vc => "VC"
  | .hi => "HI"
  | .ls => "LS"
  | .ge => "GE"
  | .lt => "LT"
  | .gt => "GT"
  | .le => "LE"
  | .al => "AL"
  | .nv => "NV"

/-- The suffix of a mnemonic. The condition that always holds is left out. -/
def suffix : Condition → String
  | .al => ""
  | c => c.letters

end Condition

end AdvanceCore
