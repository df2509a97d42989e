import AdvanceCore.Numeral

/-!
# `AdvanceCore.Mode`: processor modes and their register banks

The processor runs in one of seven modes. Every mode except User and System owns a
private stack pointer, link register and saved status. User and System share one
bank, so seven modes need six banks.
-/

set_option autoImplicit false

namespace AdvanceCore

/-- The modes of operation. -/
inductive Mode where
  /-- Ordinary programs. The only unprivileged mode. -/
  | user
  /-- Fast interrupts. -/
  | fiq
  /-- Interrupts. -/
  | irq
  /-- Reset and software interrupts. -/
  | supervisor
  /-- Failed fetches and failed data accesses. -/
  | abort
  /-- Undefined instructions. -/
  | undefined
  /-- Privileged programs that use the User registers. -/
  | system
  deriving DecidableEq, Repr

/-- The places where the private registers of the modes are kept. -/
inductive Bank where
  | user
  | fiq
  | irq
  | supervisor
  | abort
  | undefined
  deriving DecidableEq, Repr

/-- What can be wrong with the mode field of a status word. -/
inductive ModeError where
  /-- No mode has these bits. -/
  | unassigned (bits : Nat)
  deriving DecidableEq, Repr

/-- The wording of a mode error. -/
def ModeError.message : ModeError → String
  | .unassigned bits => "Unexpected value for Mode: 0b" ++ Numeral.binary 5 bits

namespace Mode

/-- The five mode bits of a status word. -/
def bits : Mode → Nat
  | .user => 0b10000
  | .fiq => 0b10001
  | .irq => 0b10010
  | .supervisor => 0b10011
  | .abort => 0b10111
  | .undefined => 0b11011
  | .system => 0b11111

/-- The mode with the given bits. -/
def ofBits (bits : Nat) : Except ModeError Mode :=
  match bits with
  | 0b10000 => .ok .user
  | 0b10001 => .ok .fiq
  | 0b10010 => .ok .irq
  | 0b10011 => .ok .supervisor
  | 0b10111 => .ok .abort
  | 0b11011 => .ok .undefined
  | 0b11111 => .ok .system
  | _ => .error (.unassigned bits)

/-- The bank that holds the private registers of a mode. -/
def bank : Mode → Bank
  | .user | .system => .user
  | .fiq => .fiq
  | .irq => .irq
  | .supervisor => .supervisor
  | .abort => .abort
  | .undefined => .undefined

/-- User and System have no saved status. -/
def hasSavedStatus : Mode → Bool
  | .user | .system => false
  | _ => true

/-- Every mode but User may change the control bits. -/
def isPrivileged : Mode → Bool
  | .user => false
  | _ => true

/-- The name a mode has in reports. -/
def name : Mode → String
  | .user => "User"
  | .fiq => "Fiq"
  | .irq => "Irq"
  | .supervisor => "Supervisor"
  | .abort => "Abort"
  | .undefined => "Undefined"
  | .system => "System"

/-- Reading back the bits of a mode gives the mode. -/
@[simp] theorem ofBits_bits (m : Mode) : ofBits m.bits = .ok m := by
  cases m <;> rfl

/-- The mode bits fit in their field. -/
theorem bits_lt (m : Mode) : m.bits < 32 := by
  cases m <;> decide

/-- FIQ, IRQ and Abort have banks of their own. -/
theorem bank_eq_fiq_iff (m : Mode) : m.bank = .fiq ↔ m = .fiq := by
  cases m <;> decide

/-- IRQ is the only mode of its bank. -/
theorem bank_eq_irq_iff (m : Mode) : m.bank = .irq ↔ m = .irq := by
  cases m <;> decide

/-- Abort is the only mode of its bank. -/
theorem bank_eq_abort_iff (m : Mode) : m.bank = .abort ↔ m = .abort := by
  cases m <;> decide

end Mode

end AdvanceCore
