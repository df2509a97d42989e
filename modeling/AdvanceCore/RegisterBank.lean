import AdvanceCore.Psr
import AdvanceCore.Registers

/-!
# `AdvanceCore.RegisterBank`: registers of the modes that are not current

Each of the six banks keeps a stack pointer, a link register and a saved status.
R8 to R12 exist twice, for fast interrupts and for every other mode. The copy that
belongs to the current mode is stale: the live registers are in the register file.
-/

set_option autoImplicit false

namespace AdvanceCore

/-- The private registers of one bank. -/
structure BankedRegisters where
  sp : Word := 0
  lr : Word := 0
  spsr : Psr := ⟨0⟩
  deriving DecidableEq, Repr

/-- The stored registers of all modes. -/
structure RegisterBank where
  user : BankedRegisters := {}
  fiq : BankedRegisters := {}
  irq : BankedRegisters := {}
  supervisor : BankedRegisters := {}
  abort : BankedRegisters := {}
  undefined : BankedRegisters := {}
  /-- R8 to R12 of every mode but FIQ, current while FIQ is live. -/
  highUser : HighRegisters := Vector.replicate 5 0
  /-- R8 to R12 of FIQ, current while another mode is live. -/
  highFiq : HighRegisters := Vector.replicate 5 0
  deriving DecidableEq, Repr

namespace RegisterBank

/-- The stored registers of a bank. -/
def get (b : RegisterBank) : Bank → BankedRegisters
  | .user => b.user
  | .fiq => b.fiq
  | .irq => b.irq
  | .supervisor => b.supervisor
  | .abort => b.abort
  | .undefined => b.undefined

/-- Replaces the stored registers of a bank. -/
def set (b : RegisterBank) (bank : Bank) (regs : BankedRegisters) : RegisterBank :=
  match bank with
  | .user => { b with user := regs }
  | .fiq => { b with fiq := regs }
  | .irq => { b with irq := regs }
  | .supervisor => { b with supervisor := regs }
  | .abort => { b with abort := regs }
  | .undefined => { b with undefined := regs }

/-- Saves the live registers of `mode`. -/
def store (b : RegisterBank) (mode : Mode) (live : Registers) (spsr : Psr) : RegisterBank :=
  let b := b.set mode.bank ⟨live.get .sp, live.get .lr, spsr⟩
  if mode = .fiq then { b with highFiq := live.high } else { b with highUser := live.high }

/-- Loads the stored registers of `mode` over `live`, with the saved status. -/
def restore (b : RegisterBank) (mode : Mode) (live : Registers) : Registers × Psr :=
  let regs := b.get mode.bank
  let high := if mode = .fiq then b.highFiq else b.highUser
  (((live.set .sp regs.sp).set .lr regs.lr).setHigh high, regs.spsr)

/-- The User copy of a register while `current` is live, if it is a stored one. -/
def userRegister? (b : RegisterBank) (current : Mode) (r : RegisterId) : Option Word :=
  if h : 8 ≤ r.val ∧ r.val - 8 < 5 then
    if current = .fiq then some b.highUser[r.val - 8] else none
  else if current.bank = .user then none
  else if r = .sp then some b.user.sp
  else if r = .lr then some b.user.lr
  else none

/-- Writes the User copy of a register while `current` is live. Gives nothing when
the register is live and has to be written in the register file. -/
def setUserRegister? (b : RegisterBank) (current : Mode) (r : RegisterId) (value : Word) :
    Option RegisterBank :=
  if h : 8 ≤ r.val ∧ r.val - 8 < 5 then
    if current = .fiq then some { b with highUser := b.highUser.set (r.val - 8) value } else none
  else if current.bank = .user then none
  else if r = .sp then some { b with user := { b.user with sp := value } }
  else if r = .lr then some { b with user := { b.user with lr := value } }
  else none

/-- A bank that is set is read back, and the others are kept. -/
@[simp] theorem get_set (b : RegisterBank) (bank other : Bank) (regs : BankedRegisters) :
    (b.set bank regs).get other = if bank = other then regs else b.get other := by
  cases bank <;> cases other <;> rfl

/-- R8 to R12 are stored apart from the banks. -/
theorem high_set (b : RegisterBank) (bank : Bank) (regs : BankedRegisters) :
    (b.set bank regs).highUser = b.highUser ∧ (b.set bank regs).highFiq = b.highFiq := by
  cases bank <;> exact ⟨rfl, rfl⟩

/-- Saving the live registers of a mode replaces its bank, and no other. -/
theorem get_store (b : RegisterBank) (mode : Mode) (live : Registers) (spsr : Psr)
    (bank : Bank) :
    (b.store mode live spsr).get bank =
      if mode.bank = bank then ⟨live.get .sp, live.get .lr, spsr⟩ else b.get bank := by
  have hhigh : (b.store mode live spsr).get bank =
      (b.set mode.bank ⟨live.get .sp, live.get .lr, spsr⟩).get bank := by
    unfold store
    cases bank <;> dsimp only <;> split <;> rfl
  rw [hhigh, get_set]

/-- It also replaces the high registers that the mode uses. -/
theorem highUser_store (b : RegisterBank) (mode : Mode) (live : Registers) (spsr : Psr) :
    (b.store mode live spsr).highUser = if mode = .fiq then b.highUser else live.high := by
  unfold store
  dsimp only
  split
  · exact (b.high_set ..).1
  · rfl

/-- Only FIQ stores the high registers of its own. -/
theorem highFiq_store (b : RegisterBank) (mode : Mode) (live : Registers) (spsr : Psr) :
    (b.store mode live spsr).highFiq = if mode = .fiq then live.high else b.highFiq := by
  unfold store
  dsimp only
  split
  · rfl
  · exact (b.high_set ..).2

/-- Loading a mode leaves R0 to R7 and R15 alone. -/
theorem get_restore (b : RegisterBank) (mode : Mode) (live : Registers) {r : RegisterId}
    (h : r.val < 8 ∨ r.val = 15) : (b.restore mode live).1.get r = live.get r := by
  have hhigh : ¬ (8 ≤ r.val ∧ r.val - 8 < 5) := by omega
  have hsp : RegisterId.sp ≠ r := by
    rintro rfl
    exact absurd h (by decide)
  have hlr : RegisterId.lr ≠ r := by
    rintro rfl
    exact absurd h (by decide)
  simp only [restore, Registers.get_setHigh, dif_neg hhigh, Registers.get_set, if_neg hsp,
    if_neg hlr]

/-- The SP that is restored is the stored one. -/
theorem sp_restore (b : RegisterBank) (mode : Mode) (live : Registers) :
    (b.restore mode live).1.get .sp = (b.get mode.bank).sp := by
  have hhigh : ¬ (8 ≤ RegisterId.sp.val ∧ RegisterId.sp.val - 8 < 5) := by decide
  have hlr : RegisterId.lr ≠ .sp := by decide
  simp only [restore, Registers.get_setHigh, dif_neg hhigh, Registers.get_set, if_neg hlr,
    if_true]

/-- The LR that is restored is the stored one. -/
theorem lr_restore (b : RegisterBank) (mode : Mode) (live : Registers) :
    (b.restore mode live).1.get .lr = (b.get mode.bank).lr := by
  have hhigh : ¬ (8 ≤ RegisterId.lr.val ∧ RegisterId.lr.val - 8 < 5) := by decide
  simp only [restore, Registers.get_setHigh, dif_neg hhigh, Registers.get_set, if_true]

/-- FIQ gets its own high registers back, all other modes those that they share. -/
theorem high_restore (b : RegisterBank) (mode : Mode) (live : Registers) :
    (b.restore mode live).1.high = if mode = .fiq then b.highFiq else b.highUser :=
  Registers.high_setHigh ..

/-- The saved status comes from the bank of the mode. -/
theorem spsr_restore (b : RegisterBank) (mode : Mode) (live : Registers) :
    (b.restore mode live).2 = (b.get mode.bank).spsr := rfl

end RegisterBank

end AdvanceCore
