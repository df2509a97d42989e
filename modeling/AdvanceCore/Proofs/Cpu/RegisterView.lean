import AdvanceCore.Cpu.Exception

/-!
# `AdvanceCore.Proofs.Cpu.RegisterView`: all registers of all modes

A private register of a mode lives in one of two places: in the register file while the
mode is current, and in its bank otherwise. The copy in the bank goes stale in between.
`Cpu.view` reads every register from the place that holds it, so that it shows the
registers a program can reach in any mode, and nothing of where they are kept.

* `view_loadStatus`: switching to any status word leaves the view alone. This covers
  switches within a bank, between FIQ and the others, and to mode bits of no mode.
* `RegisterView.registers`, `registers_view`: the register file of a mode, read off the
  view.
* `loadStatus_preserves_view`: the view and the status word after one switch, and the
  register file after a run of switches that comes back to the bank it started in.
-/

set_option autoImplicit false

namespace AdvanceCore

/-- All registers of all modes. -/
@[ext]
structure RegisterView where
  /-- R0 to R7. -/
  low : Fin 8 → Word
  pc : Word
  /-- SP, LR and the saved status of each bank. -/
  banks : Bank → BankedRegisters
  /-- R8 to R12 of FIQ. -/
  fiqHigh : HighRegisters
  /-- R8 to R12 of every other mode. -/
  commonHigh : HighRegisters

namespace RegisterView

/-- The register file that a mode sees. -/
def registers (v : RegisterView) (mode : Mode) : Registers :=
  ⟨Vector.ofFn fun r : Fin 16 =>
    if h : r.val < 8 then v.low ⟨r.val, h⟩
    else if h : r.val - 8 < 5 then
      if mode = .fiq then v.fiqHigh[r.val - 8] else v.commonHigh[r.val - 8]
    else if r = RegisterId.sp then (v.banks mode.bank).sp
    else if r = RegisterId.lr then (v.banks mode.bank).lr
    else v.pc⟩

/-- The saved status that a mode sees. -/
def spsr (v : RegisterView) (mode : Mode) : Psr := (v.banks mode.bank).spsr

/-- Replaces LR and the saved status of one bank, where an exception keeps its return. -/
def setReturn (v : RegisterView) (bank : Bank) (lr : Word) (spsr : Psr) : RegisterView :=
  { v with
    banks := fun other =>
      if bank = other then ⟨(v.banks bank).sp, lr, spsr⟩ else v.banks other }

/-- The registers of a mode by number: the low ones are shared by all, the high ones by all but FIQ,
and SP and LR by the modes of a bank. -/
theorem get_registers (v : RegisterView) (mode : Mode) (r : RegisterId) :
    (v.registers mode).get r =
      if h : r.val < 8 then v.low ⟨r.val, h⟩
      else if h : r.val - 8 < 5 then
        if mode = .fiq then v.fiqHigh[r.val - 8] else v.commonHigh[r.val - 8]
      else if r = .sp then (v.banks mode.bank).sp
      else if r = .lr then (v.banks mode.bank).lr
      else v.pc := by
  simp only [registers, Registers.get, Fin.getElem_fin, Vector.getElem_ofFn]

/-- Modes of one bank see the same registers. -/
theorem registers_congr (v : RegisterView) {mode mode' : Mode} (h : mode.bank = mode'.bank) :
    v.registers mode = v.registers mode' := by
  have hfiq : mode = .fiq ↔ mode' = .fiq := by
    rw [← Mode.bank_eq_fiq_iff, ← Mode.bank_eq_fiq_iff, h]
  simp only [registers, hfiq, h]

/-- The registers of a mode do not show what is in another bank. -/
theorem registers_setReturn (v : RegisterView) {mode : Mode} {bank : Bank} (lr : Word)
    (spsr : Psr) (h : bank ≠ mode.bank) :
    (v.setReturn bank lr spsr).registers mode = v.registers mode := by
  simp only [registers, setReturn, if_neg h]

/-- Entering a handler changes the saved status of its own mode only. -/
theorem spsr_setReturn (v : RegisterView) {mode : Mode} {bank : Bank} (lr : Word)
    (spsr : Psr) (h : bank ≠ mode.bank) :
    (v.setReturn bank lr spsr).spsr mode = v.spsr mode := by
  simp only [RegisterView.spsr, setReturn, if_neg h]

/-- Returns in two banks do not get in each other's way. -/
theorem setReturn_comm (v : RegisterView) {bank bank' : Bank} (lr lr' : Word) (spsr spsr' : Psr)
    (h : bank ≠ bank') :
    (v.setReturn bank lr spsr).setReturn bank' lr' spsr' =
      (v.setReturn bank' lr' spsr').setReturn bank lr spsr := by
  refine RegisterView.ext rfl rfl (funext fun other => ?_) rfl rfl
  simp only [setReturn, if_neg h, if_neg h.symm]
  by_cases hbank : bank = other
  · subst hbank
    rw [if_neg h.symm, if_pos rfl, if_pos rfl]
  · rw [if_neg hbank, if_neg hbank]

/-- Modes of one bank share their saved status. -/
theorem spsr_congr (v : RegisterView) {mode mode' : Mode} (h : mode.bank = mode'.bank) :
    v.spsr mode = v.spsr mode' := by
  rw [spsr, spsr, h]

end RegisterView

namespace Cpu

/-- Every register, read from where it is kept while the current mode is live. -/
def view (cpu : Cpu) : RegisterView where
  low := fun r => cpu.register ⟨r.val, by omega⟩
  pc := cpu.registers.pc
  banks := fun bank =>
    if cpu.cpsr.mode.bank = bank then ⟨cpu.register .sp, cpu.register .lr, cpu.spsr⟩
    else cpu.bank.get bank
  fiqHigh := if cpu.cpsr.mode = .fiq then cpu.registers.high else cpu.bank.highFiq
  commonHigh := if cpu.cpsr.mode = .fiq then cpu.bank.highUser else cpu.registers.high

/-! ### Switching the mode -/

/-- A switch makes the status current, whether the bank changes or not. -/
@[simp] theorem cpsr_loadStatus (cpu : Cpu) (status : Psr) :
    (cpu.loadStatus status).cpsr = status := by
  unfold loadStatus
  dsimp only
  split <;> rfl

/-- A switch within a bank moves no register. -/
theorem loadStatus_of_bank_eq {cpu : Cpu} {status : Psr}
    (h : cpu.cpsr.mode.bank = status.mode.bank) :
    cpu.loadStatus status = { cpu with cpsr := status } :=
  if_pos h

/-- A switch to another bank saves the registers of the old mode, then loads those of the
new one. -/
theorem loadStatus_of_bank_ne {cpu : Cpu} {status : Psr}
    (h : cpu.cpsr.mode.bank ≠ status.mode.bank) :
    cpu.loadStatus status =
      { cpu with
        cpsr := status
        bank := cpu.bank.store cpu.cpsr.mode cpu.registers cpu.spsr
        registers := ((cpu.bank.store cpu.cpsr.mode cpu.registers cpu.spsr).restore
          status.mode cpu.registers).1
        spsr := ((cpu.bank.store cpu.cpsr.mode cpu.registers cpu.spsr).restore
          status.mode cpu.registers).2 } :=
  if_neg h

/-- Switching to any status word leaves the view alone. -/
theorem view_loadStatus (cpu : Cpu) (status : Psr) :
    (cpu.loadStatus status).view = cpu.view := by
  by_cases hbank : cpu.cpsr.mode.bank = status.mode.bank
  · -- Within a bank only the status word changes, and the view reads no more of it than
    -- the bank and whether it is FIQ's.
    have hfiq : status.mode = .fiq ↔ cpu.cpsr.mode = .fiq := by
      rw [← Mode.bank_eq_fiq_iff, ← Mode.bank_eq_fiq_iff, hbank]
    rw [loadStatus_of_bank_eq hbank]
    refine RegisterView.ext rfl rfl ?_ ?_ ?_
    · show (fun bank => if status.mode.bank = bank then _ else _) = _
      rw [← hbank]
      rfl
    · show (if status.mode = .fiq then _ else _) = _
      simp only [hfiq]
      rfl
    · show (if status.mode = .fiq then _ else _) = _
      simp only [hfiq]
      rfl
  · rw [loadStatus_of_bank_ne hbank]
    refine RegisterView.ext ?_ ?_ ?_ ?_ ?_
    · funext r
      exact RegisterBank.get_restore _ _ _ (.inl r.isLt)
    · exact RegisterBank.get_restore _ _ _ (.inr rfl)
    · funext bank
      simp only [view, register, RegisterBank.sp_restore, RegisterBank.lr_restore,
        RegisterBank.spsr_restore, RegisterBank.get_store, if_neg hbank]
      -- The new bank was loaded from the store, the old one has just been saved.
      by_cases hnew : status.mode.bank = bank
      · subst hnew
        rw [if_pos rfl, if_neg hbank]
      · rw [if_neg hnew]
    · -- R8 to R12 move only into and out of FIQ. Between two other modes they are stored
      -- and loaded back as they are.
      simp only [view, RegisterBank.high_restore, RegisterBank.highFiq_store]
      by_cases hnew : status.mode = .fiq
      · rw [if_pos hnew, if_pos hnew]
      · rw [if_neg hnew]
    · simp only [view, RegisterBank.high_restore, RegisterBank.highUser_store]
      by_cases hnew : status.mode = .fiq
      · rw [if_pos hnew]
      · rw [if_neg hnew, if_neg hnew]

/-! ### The register file of a mode -/

/-- In the current mode the view has the live registers. -/
theorem registers_view (cpu : Cpu) : cpu.view.registers cpu.cpsr.mode = cpu.registers := by
  refine Registers.ext_get fun r => ?_
  rw [RegisterView.get_registers]
  split
  case isTrue hlow => rfl
  case isFalse hlow =>
    split
    case isTrue hhigh =>
      have hr : (⟨8 + (r.val - 8), by omega⟩ : RegisterId) = r :=
        Fin.ext (show 8 + (r.val - 8) = r.val by omega)
      -- The live copy is FIQ's own in FIQ, the common one elsewhere.
      by_cases hfiq : cpu.cpsr.mode = .fiq
      · simp only [view, if_pos hfiq]
        rw [Registers.getElem_high, hr]
      · simp only [view, if_neg hfiq]
        rw [Registers.getElem_high, hr]
    case isFalse hhigh =>
      simp only [view, if_true]
      split
      case isTrue hsp => rw [hsp]; rfl
      case isFalse hsp =>
        split
        case isTrue hlr => rw [hlr]; rfl
        case isFalse hlr =>
          have hpc : r = .pc := RegisterId.eq_pc hlow hhigh hsp hlr
          rw [hpc]
          rfl

/-- In the current mode the view has the saved status that is current. -/
theorem spsr_view (cpu : Cpu) : cpu.view.spsr cpu.cpsr.mode = cpu.spsr := by
  simp only [RegisterView.spsr, view, if_true]

/-- The bank of the current mode is in the live registers, and not where it is stored. -/
theorem banks_view (cpu : Cpu) :
    cpu.view.banks cpu.cpsr.mode.bank = ⟨cpu.register .sp, cpu.register .lr, cpu.spsr⟩ :=
  if_pos rfl

/-- Two processors that show the same view and are in modes of one bank have the same
registers and the same saved status. -/
theorem registers_eq_of_view_eq {cpu cpu' : Cpu} (hview : cpu'.view = cpu.view)
    (hbank : cpu'.cpsr.mode.bank = cpu.cpsr.mode.bank) :
    cpu'.registers = cpu.registers ∧ cpu'.spsr = cpu.spsr := by
  constructor
  · rw [← registers_view cpu', ← registers_view cpu, hview]
    exact cpu.view.registers_congr hbank
  · rw [← spsr_view cpu', ← spsr_view cpu, hview]
    exact cpu.view.spsr_congr hbank

/-! ### Changes of live registers -/

/-- R15 is seen by all modes alike. -/
theorem view_setRegister_pc (cpu : Cpu) (value : Word) :
    (cpu.setRegister .pc value).view = { cpu.view with pc := value } := by
  have hhigh : (cpu.registers.set .pc value).high = cpu.registers.high :=
    cpu.registers.high_set value (.inr (by decide))
  have hsp : (cpu.registers.set .pc value).get .sp = cpu.registers.get .sp :=
    cpu.registers.get_set_of_ne value (by decide)
  have hlr : (cpu.registers.set .pc value).get .lr = cpu.registers.get .lr :=
    cpu.registers.get_set_of_ne value (by decide)
  -- Low registers, counter, banks, and the two sets of high ones: the write reaches the counter
  -- alone.
  refine RegisterView.ext ?_ ?_ ?_ ?_ ?_
  · funext r
    exact cpu.registers.low_set value (by decide) r
  · exact cpu.registers.get_set_self .pc value
  · funext bank
    simp only [view, setRegister, register, hsp, hlr]
  · simp only [view, setRegister, hhigh]
  · simp only [view, setRegister, hhigh]

/-- Writing LR and the saved status reaches the bank of the current mode only. -/
theorem view_setReturn (cpu : Cpu) (lr : Word) (spsr : Psr) :
    ({ cpu with spsr := spsr }.setRegister .lr lr).view =
      cpu.view.setReturn cpu.cpsr.mode.bank lr spsr := by
  have hhigh : (cpu.registers.set .lr lr).high = cpu.registers.high :=
    cpu.registers.high_set lr (.inr (by decide))
  have hsp : (cpu.registers.set .lr lr).get .sp = cpu.registers.get .sp :=
    cpu.registers.get_set_of_ne lr (by decide)
  -- The link register and the saved status are live, so they show in the bank of the mode.
  refine RegisterView.ext ?_ ?_ ?_ ?_ ?_
  · funext r
    exact cpu.registers.low_set lr (by decide) r
  · exact cpu.registers.get_set_of_ne lr (by decide)
  · funext bank
    simp only [view, setRegister, register, RegisterView.setReturn, hsp,
      Registers.get_set_self, if_true]
    split
    · rfl
    · rfl
  · simp only [view, setRegister, RegisterView.setReturn, hhigh]
  · simp only [view, setRegister, RegisterView.setReturn, hhigh]

/-! ### Runs of switches -/

/-- A run of switches leaves the view alone, whatever modes it passes through. -/
theorem view_foldl_loadStatus (cpu : Cpu) (statuses : List Psr) :
    (statuses.foldl loadStatus cpu).view = cpu.view := by
  induction statuses generalizing cpu with
  | nil => rfl
  | cons status rest ih =>
    show (rest.foldl loadStatus (cpu.loadStatus status)).view = cpu.view
    rw [ih, view_loadStatus]

/-- A switch to any status word takes that word as it is and leaves every register of
every mode alone. A run of switches that ends in the bank it started in finds the same
sixteen registers and the same saved status. -/
theorem loadStatus_preserves_view :
    (∀ (cpu : Cpu) (status : Psr),
      (cpu.loadStatus status).view = cpu.view ∧ (cpu.loadStatus status).cpsr = status) ∧
    ∀ (cpu : Cpu) (statuses : List Psr),
      (statuses.foldl loadStatus cpu).cpsr.mode.bank = cpu.cpsr.mode.bank →
        (statuses.foldl loadStatus cpu).registers = cpu.registers ∧
          (statuses.foldl loadStatus cpu).spsr = cpu.spsr := by
  refine ⟨fun cpu status => ⟨view_loadStatus cpu status, cpsr_loadStatus cpu status⟩, ?_⟩
  intro cpu statuses hbank
  exact registers_eq_of_view_eq (view_foldl_loadStatus cpu statuses) hbank

/-- A User program, with the number of each register in it. -/
def numbered : Cpu :=
  { initial with
    cpsr := .ofMode .user
    registers := ⟨Vector.ofFn fun r : Fin 16 => BitVec.ofNat 32 r.val⟩ }

/-- From User through FIQ, mode bits that belong to no mode, and IRQ to System. -/
theorem loadStatus_round_trip_through_fiq :
    let statuses := [Psr.ofMode .fiq, ⟨0xF0000000⟩, Psr.ofMode .irq, Psr.ofMode .system]
    (statuses.foldl loadStatus numbered).cpsr.mode.bank = numbered.cpsr.mode.bank ∧
      (statuses.foldl loadStatus numbered).registers = numbered.registers ∧
      (statuses.foldl loadStatus numbered).spsr = numbered.spsr := by
  have hbank : ([Psr.ofMode .fiq, ⟨0xF0000000⟩, Psr.ofMode .irq, Psr.ofMode .system].foldl
      loadStatus numbered).cpsr.mode.bank = numbered.cpsr.mode.bank := by decide
  exact ⟨hbank, loadStatus_preserves_view.2 numbered _ hbank⟩

end Cpu

end AdvanceCore
