import AdvanceCore.Proofs.Checked.Words
import AdvanceCore.RegisterBank

/-!
# `AdvanceCore.Proofs.Checked.Status`: the adder, status words and banks

The adder works out a sum in sixty-four bits and reads the signs of its operands. A status
word is read and written by bit numbers, which `Psr.flag?` and `Psr.withFlag?` check. The bank
of a mode is looked up by its number, of which there are six.
-/

set_option autoImplicit false

namespace AdvanceCore

open Bits

/-! ### The adder and the multiplier -/

/-- The checked form of `addWithCarry`. -/
def addWithCarry? (first second : Word) (carry : Bool) : Option AluResult := do
  let wide ← sum? 64 (← sum? 64 first.toNat second.toNat) carry.toNat
  let value := BitVec.ofNat 32 wide
  return {
    value
    carry := decide (0x100000000 ≤ wide)
    overflow := ← bit? (~~~(first ^^^ second) &&& (first ^^^ value)) 31
    sign := ← bit? value 31
    zero := value == 0 }

/-- The checked form of `subWithCarry`. -/
def subWithCarry? (first second : Word) (carry : Bool) : Option AluResult :=
  addWithCarry? first (~~~second) carry

/-- The checked form of `multiplierCycles`, which counts the bytes that have to be looked at. -/
def multiplierCycles? (operand : Word) (isSigned : Bool) : Option Nat :=
  let settled (mask : Word) : Bool :=
    operand &&& mask == 0 || (isSigned && operand &&& mask == mask)
  if settled 0xFFFFFF00 then sum? 32 0 1
  else if settled 0xFFFF0000 then sum? 32 1 1
  else if settled 0xFF000000 then sum? 32 2 1
  else some 4

/-- The sign of a word is its last bit. -/
theorem bit?_last (v : Word) : bit? v 31 = some v.msb :=
  (bit?_of_lt v (by decide)).trans (congrArg some (BitVec.msb_eq_getLsbD_last v).symm)

/-- Two words and a carry add up to a number of thirty-three bits. -/
@[simp] theorem addWithCarry?_eq (first second : Word) (carry : Bool) :
    addWithCarry? first second carry = some (addWithCarry first second carry) := by
  have hcarry : carry.toNat ≤ 1 := Bool.toNat_le carry
  have hwords : first.toNat + second.toNat < 2 ^ 64 := by omega
  have hwide : first.toNat + second.toNat + carry.toNat < 2 ^ 64 := by omega
  simp only [addWithCarry?, sum?_of_lt hwords, sum?_of_lt hwide, bit?_last, Option.bind_eq_bind,
    Option.bind_some]
  rfl

/-- A difference is a sum with the complement. -/
@[simp] theorem subWithCarry?_eq (first second : Word) (carry : Bool) :
    subWithCarry? first second carry = some (subWithCarry first second carry) :=
  addWithCarry?_eq ..

/-- The multiplier takes one cycle and up to three more, by how many bytes of its operand are only
copies of the sign. -/
@[simp] theorem multiplierCycles?_eq (operand : Word) (isSigned : Bool) :
    multiplierCycles? operand isSigned = some (multiplierCycles operand isSigned) := by
  have hsum {n : Nat} (h : n < 3) : sum? 32 n 1 = some (n + 1) := sum?_of_lt (by omega)
  simp [multiplierCycles?, multiplierCycles, hsum, apply_ite some]

/-! ### Status words -/

namespace Psr

/-- The flag with a bit number. -/
def flag? (p : Psr) (i : Nat) : Option Bool := bit? p.word i

/-- Sets the flag with a bit number. -/
def withFlag? (p : Psr) (i : Nat) (on : Bool) : Option Psr := return ⟨← setBit? p.word i on⟩

/-- The checked form of `state`. -/
def state? (p : Psr) : Option CpuState := return .ofBit (← p.flag? 5)

/-- The checked form of `mode`. Bits that belong to no mode do not break the machine. -/
def mode? (p : Psr) : Option Mode := do
  match Mode.ofBits (← field? p.word 0 4).toNat with
  | .ok m => return m
  | .error _ => return .supervisor

/-- The checked form of `withState`. -/
def withState? (p : Psr) (s : CpuState) : Option Psr := p.withFlag? 5 s.bit

/-- The checked form of `withMode`. -/
def withMode? (p : Psr) (m : Mode) : Option Psr :=
  return ⟨← setField? p.word 0 4 (BitVec.ofNat 32 m.bits)⟩

/-- The checked form of `withFlags`. -/
def withFlags? (p : Psr) (r : AluResult) : Option Psr := do
  let p ← p.withFlag? 29 r.carry
  let p ← p.withFlag? 30 r.zero
  let p ← p.withFlag? 31 r.sign
  p.withFlag? 28 r.overflow

/-- The checked form of `withSignAndZero`. -/
def withSignAndZero? (p : Psr) (value : Word) : Option Psr := do
  let p ← p.withFlag? 31 (← bit? value 31)
  p.withFlag? 30 (value == 0)

/-- The checked form of `satisfies`. -/
def satisfies? (p : Psr) (condition : Condition) : Option Bool := do
  let sign ← p.flag? 31
  let zero ← p.flag? 30
  let carry ← p.flag? 29
  let overflow ← p.flag? 28
  return match condition with
    | .eq => zero
    | .ne => !zero
    | .cs => carry
    | .cc => !carry
    | .mi => sign
    | .pl => !sign
    | .vs => overflow
    | .vc => !overflow
    | .hi => carry && !zero
    | .ls => !carry || zero
    | .ge => sign == overflow
    | .lt => sign != overflow
    | .gt => !zero && sign == overflow
    | .le => zero || sign != overflow
    | .al => true
    | .nv => false

/-- A flag is one of the thirty-two bits of a status. -/
@[simp] theorem flag?_of_lt (p : Psr) {i : Nat} (h : i < 32) :
    p.flag? i = some (p.word.getLsbD i) :=
  bit?_of_lt p.word h

/-- A flag of a status can be written. -/
@[simp] theorem withFlag?_of_lt (p : Psr) {i : Nat} (on : Bool) (h : i < 32) :
    p.withFlag? i on = some ⟨setBit p.word i on⟩ := by
  simp [withFlag?, h]

/-- The T bit is bit 5. -/
@[simp] theorem state?_eq (p : Psr) : p.state? = some p.state := by
  simp [state?, state, stateBit]

/-- The mode is read from the five lowest bits. -/
@[simp] theorem mode?_eq (p : Psr) : p.mode? = some p.mode := by
  simp only [mode?, mode, field?_of_lt, Nat.zero_le, Nat.reduceLT, Option.bind_eq_bind,
    Option.bind_some]
  cases Mode.ofBits (field p.word 0 4).toNat <;> rfl

/-- The T bit can be written. -/
@[simp] theorem withState?_eq (p : Psr) (s : CpuState) :
    p.withState? s = some (p.withState s) :=
  p.withFlag?_of_lt s.bit (by decide)

/-- The mode can be written. -/
@[simp] theorem withMode?_eq (p : Psr) (m : Mode) : p.withMode? m = some (p.withMode m) := by
  simp [withMode?, withMode]

/-- The four flags of a sum can be written. -/
@[simp] theorem withFlags?_eq (p : Psr) (r : AluResult) :
    p.withFlags? r = some (p.withFlags r) := by
  simp [withFlags?, withFlags, withCarry, withZero, withSign, withOverflow]

/-- The flags of a value can be written. -/
@[simp] theorem withSignAndZero?_eq (p : Psr) (value : Word) :
    p.withSignAndZero? value = some (p.withSignAndZero value) := by
  simp only [withSignAndZero?, bit?_last, withFlag?_of_lt, Nat.reduceLT, Option.bind_eq_bind,
    Option.bind_some]
  rfl

/-- A condition is a combination of the four flags. -/
@[simp] theorem satisfies?_eq (p : Psr) (condition : Condition) :
    p.satisfies? condition = some (p.satisfies condition) := by
  simp only [satisfies?, flag?_of_lt, Nat.reduceLT, Option.bind_eq_bind, Option.bind_some]
  cases condition <;> rfl

end Psr

/-! ### Banks -/

/-- The bank with a number. -/
def Bank.ofNumber? : Nat → Option Bank
  | 0 => some .user
  | 1 => some .fiq
  | 2 => some .irq
  | 3 => some .supervisor
  | 4 => some .abort
  | 5 => some .undefined
  | _ => none

/-- The number of the bank that a mode uses. -/
def Mode.bankNumber : Mode → Nat
  | .user | .system => 0
  | .fiq => 1
  | .irq => 2
  | .supervisor => 3
  | .abort => 4
  | .undefined => 5

/-- Every mode has a bank. -/
@[simp] theorem Mode.ofNumber?_bankNumber (m : Mode) :
    Bank.ofNumber? m.bankNumber = some m.bank := by
  cases m <;> rfl

namespace RegisterBank

/-- The checked form of `store`. -/
def store? (b : RegisterBank) (mode : Mode) (live : Registers) (spsr : Psr) :
    Option RegisterBank := do
  let b := b.set (← Bank.ofNumber? mode.bankNumber) ⟨live.get .sp, live.get .lr, spsr⟩
  return if mode = .fiq then { b with highFiq := live.high } else { b with highUser := live.high }

/-- The checked form of `restore`. -/
def restore? (b : RegisterBank) (mode : Mode) (live : Registers) : Option (Registers × Psr) := do
  let regs := b.get (← Bank.ofNumber? mode.bankNumber)
  let high := if mode = .fiq then b.highFiq else b.highUser
  return (((live.set .sp regs.sp).set .lr regs.lr).setHigh high, regs.spsr)

/-- The bank of every mode can be written. -/
@[simp] theorem store?_eq (b : RegisterBank) (mode : Mode) (live : Registers) (spsr : Psr) :
    b.store? mode live spsr = some (b.store mode live spsr) := by
  simp [store?, store]

/-- The bank of every mode can be read back. -/
@[simp] theorem restore?_eq (b : RegisterBank) (mode : Mode) (live : Registers) :
    b.restore? mode live = some (b.restore mode live) := by
  simp [restore?, restore]

end RegisterBank

end AdvanceCore
