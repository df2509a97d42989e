import AdvanceCore.Memory

/-!
# `AdvanceCore.Cartridge`: images and the game cartridge

The cartridge puts the low part of the address and the data on the same lines. Past
the end of its ROM nothing drives the data, so the address is read back instead.

Both images that a console is built from are limited in size. `ImageError` says which
of them is too large.
-/

set_option autoImplicit false

namespace AdvanceCore

/-- The largest ROM that the cartridge lines can address. -/
abbrev maxCartridgeSize : Nat := 0x2000000

/-- What can be wrong with the images of a console. -/
inductive ImageError where
  /-- The boot ROM has no room for so many bytes. -/
  | bootRomTooLarge (size : Nat)
  /-- The cartridge lines cannot address so many bytes. -/
  | cartridgeTooLarge (size : Nat)
  deriving DecidableEq, Repr

/-- The wording of an image error. -/
def ImageError.message : ImageError → String
  | .bootRomTooLarge size =>
    "BIOS image is " ++ toString size ++ " bytes, the BIOS region holds " ++
      toString bootRomSize
  | .cartridgeTooLarge size =>
    "ROM image is " ++ toString size ++ " bytes, the game pak bus addresses at most " ++
      toString maxCartridgeSize

/-- A boot ROM with an image at its start. -/
def BootRom.ofImage (image : ByteArray) : Except ImageError BootRom :=
  if h : image.size ≤ bootRomSize then .ok ⟨.ofImage image h⟩
  else .error (.bootRomTooLarge image.size)

/-- A cartridge. -/
structure Cartridge where
  rom : ByteArray
  size_le : rom.size ≤ maxCartridgeSize

namespace Cartridge

/-- A cartridge with an image as its ROM. -/
def ofImage (image : ByteArray) : Except ImageError Cartridge :=
  if h : image.size ≤ maxCartridgeSize then .ok ⟨image, h⟩
  else .error (.cartridgeTooLarge image.size)

/-- The bytes of the ROM. -/
def size (c : Cartridge) : Nat := c.rom.size

/-- A cartridge without a single byte. -/
def isEmpty (c : Cartridge) : Bool := c.size == 0

/-- The halfword on the lines when nothing drives the data at an address: the number
of the halfword addressed. -/
def addressLines (address : Word) : Half := (address >>> 1).setWidth 16

/-- The byte at an address. -/
def byteAt (c : Cartridge) (address : Word) : Byte :=
  if h : address.toNat < c.rom.size then (c.rom.get address.toNat h).toBitVec
  else Bits.byte (addressLines address) (address &&& 1).toNat

instance : ByteMemory Cartridge where
  readByte c address := some (c.byteAt address)
  writeByte c _ _ := c

end Cartridge

end AdvanceCore
