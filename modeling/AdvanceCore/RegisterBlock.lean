import AdvanceCore.Bus

/-!
# `AdvanceCore.RegisterBlock`: blocks of 16-bit registers

A hardware unit only deals with whole halfword registers at even offsets. The block
seen on the bus follows from that: a byte store is a write under a mask, so that a
register with side effects sees only the byte that was written, and a word is two
registers, the lower one first.
-/

set_option autoImplicit false

namespace AdvanceCore

/-- A block of registers at even offsets. -/
class RegisterBlock (ρ : Type) where
  /-- The value of a register, if there is one at the offset. -/
  readRegister : ρ → Nat → Option Half
  /-- Writes the bits of a value that are under a mask. Says whether there is a
  register at the offset. -/
  writeRegister : ρ → (offset : Nat) → (value mask : Half) → Bool × ρ

namespace RegisterBlock

variable {ρ : Type} [RegisterBlock ρ]

/-- Loads the register that contains an address. -/
def loadHalf (block : ρ) (address : Word) : Option Half :=
  readRegister block (halfAligned address).toNat

/-- Loads one byte of the register that contains it. -/
def loadByte (block : ρ) (address : Word) : Option Byte :=
  (loadHalf block address).map fun half => Bits.byte half (address &&& 1).toNat

/-- Loads two registers. -/
def loadWord (block : ρ) (address : Word) : Option Word := do
  let low ← loadHalf block address
  let high ← loadHalf block (address + 2)
  return high ++ low

/-- Stores into the register that contains an address. -/
def storeHalf (block : ρ) (address : Word) (value : Half) : Bool × ρ :=
  writeRegister block (halfAligned address).toNat value (BitVec.allOnes 16)

/-- Stores into one byte of the register that contains it. -/
def storeByte (block : ρ) (address : Word) (value : Byte) : Bool × ρ :=
  let shift := 8 * (address &&& 1).toNat
  writeRegister block (halfAligned address).toNat (value.setWidth 16 <<< shift)
    (0x00FF <<< shift)

/-- Stores into two registers. Both are written, whatever becomes of the first. -/
def storeWord (block : ρ) (address value : Word) : Bool × ρ :=
  let (low, block) := storeHalf block address (value.extractLsb' 0 16)
  let (high, block) := storeHalf block (address + 2) (value.extractLsb' 16 16)
  (low && high, block)

end RegisterBlock

/-- A register block on the bus. -/
instance {ρ : Type} [RegisterBlock ρ] : MemoryBus ρ where
  load8 block address := (RegisterBlock.loadByte block address, block)
  load16 block address := (RegisterBlock.loadHalf block address, block)
  load32 block address := (RegisterBlock.loadWord block address, block)
  store8 := RegisterBlock.storeByte
  store16 := RegisterBlock.storeHalf
  store32 := RegisterBlock.storeWord

end AdvanceCore
