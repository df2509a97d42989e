import AdvanceCore.Registers

/-!
# `AdvanceCore.Transfer`: how instructions address memory

Transfers between registers and memory share a few one-bit choices: which way the
data goes, whether the offset is applied before or after the access, and whether it
is added or subtracted. Both instruction sets describe a transfer of a register list
by the same record.
-/

set_option autoImplicit false

namespace AdvanceCore

/-- Which way a transfer goes. -/
inductive Direction where
  /-- From a register to memory. -/
  | store
  /-- From memory to a register. -/
  | load
  deriving DecidableEq, Repr

/-- The size of a plain transfer. -/
inductive Quantity where
  | word
  | byte
  deriving DecidableEq, Repr

/-- When the offset is applied to the base. -/
inductive Indexing where
  /-- After the access. -/
  | post
  /-- Before the access. -/
  | pre
  deriving DecidableEq, Repr

/-- Which way the offset moves the base. -/
inductive Offsetting where
  | down
  | up
  deriving DecidableEq, Repr

/-- The direction a set L bit selects is a load. -/
def Direction.ofBit (load : Bool) : Direction := if load then .load else .store

/-- The size a set B bit selects is a byte. -/
def Quantity.ofBit (byte : Bool) : Quantity := if byte then .byte else .word

/-- A set P bit applies the offset first. -/
def Indexing.ofBit (pre : Bool) : Indexing := if pre then .pre else .post

/-- A set U bit adds the offset. -/
def Offsetting.ofBit (up : Bool) : Offsetting := if up then .up else .down

/-- Moves a base by an offset, modulo the size of the address space. -/
def Offsetting.apply (o : Offsetting) (base offset : Word) : Word :=
  match o with
  | .down => base - offset
  | .up => base + offset

/-- A transfer between a list of registers and consecutive words. -/
structure BlockTransfer where
  indexing : Indexing
  offsetting : Offsetting
  /-- The S bit: transfers the User registers, or restores the saved status when the
  program counter is loaded. -/
  statusBit : Bool
  writeBack : Bool
  direction : Direction
  base : RegisterId
  /-- Bit `r` stands for register `r`. -/
  registers : Half
  deriving DecidableEq, Repr

end AdvanceCore
