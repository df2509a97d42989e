import AdvanceCore.Proofs.Cpu.StackRoundTrip

/-!
# `AdvanceCore.Proofs.Cpu.UserBankTransfer`: list transfers of the User registers

With the S bit a handler saves or loads the registers of the program that it has interrupted.
Where a User register is kept then depends on the mode and on the register: SP and LR are in the
bank unless the mode shares them, R8 to R12 are in the bank in FIQ only, and all others are live
(`Mode.StoresUser`). The instructions reach the copies through two functions of the bank, one to
read and one to write.

What a program in User mode sees is read off the view of all registers (`Cpu.userView`), which
knows nothing of these two functions. `userView_eq` finds the place of each register, and from
there on the transfers are followed on `userView` alone: a store reads it, and a load changes it
word by word, and leaves everything that only other modes see (`TakesUser`).

* `userView`, `userView_eq`: the User registers and where they are kept.
* `userView_writeUserRegister`, `takesUser_writeUserRegister`: one word.
* `takesUser_foldl`, `userView_foldl_of_mem`: the words of a list, one after the other.
* `userBank_transfer`: stores and loads with the S bit, in every mode.
-/

set_option autoImplicit false

namespace AdvanceCore

/-! ### Which User registers are stored -/

namespace Mode

variable {mode : Mode} {r : RegisterId}

/-- R8 to R12 of User are in the bank while FIQ is live, and in no other mode. -/
theorem storesUser_high (h : 8 ≤ r.val ∧ r.val ≤ 12) : mode.StoresUser r ↔ mode = .fiq := by
  have hsp : r ≠ .sp := fun hr => absurd (hr ▸ h) (by decide)
  have hlr : r ≠ .lr := fun hr => absurd (hr ▸ h) (by decide)
  constructor
  · rintro (⟨hfiq, -⟩ | ⟨-, hr | hr⟩)
    · exact hfiq
    · exact absurd hr hsp
    · exact absurd hr hlr
  · intro hfiq
    exact .inl ⟨hfiq, h.1, h.2⟩

/-- SP is in the bank in every mode that has one of its own. -/
theorem storesUser_sp : mode.StoresUser .sp ↔ mode.bank ≠ .user := by
  constructor
  · rintro (⟨-, -, hle⟩ | ⟨hbank, -⟩)
    · exact absurd hle (by decide)
    · exact hbank
  · intro hbank
    exact .inr ⟨hbank, .inl rfl⟩

/-- LR is in the bank in every mode that has one of its own. -/
theorem storesUser_lr : mode.StoresUser .lr ↔ mode.bank ≠ .user := by
  constructor
  · rintro (⟨-, -, hle⟩ | ⟨hbank, -⟩)
    · exact absurd hle (by decide)
    · exact hbank
  · intro hbank
    exact .inr ⟨hbank, .inr rfl⟩

/-- R0 to R7 and R15 are the same in every mode. -/
theorem not_storesUser (hhigh : ¬ (8 ≤ r.val ∧ r.val ≤ 12)) (hsp : r ≠ .sp) (hlr : r ≠ .lr) :
    ¬ mode.StoresUser r := by
  rintro (⟨-, hle, hle'⟩ | ⟨-, hr | hr⟩)
  · exact hhigh ⟨hle, hle'⟩
  · exact hsp hr
  · exact hlr hr

end Mode

/-! ### The copies in the bank -/

namespace RegisterBank

/-- The stored copy of a User register that has one. -/
def userCopy (b : RegisterBank) (r : RegisterId) : Word :=
  if h : 8 ≤ r.val ∧ r.val ≤ 12 then b.highUser[r.val - 8]
  else if r = .sp then b.user.sp
  else b.user.lr

/-- Replaces the stored copy of a User register that has one. -/
def setUserCopy (b : RegisterBank) (r : RegisterId) (value : Word) : RegisterBank :=
  if h : 8 ≤ r.val ∧ r.val ≤ 12 then { b with highUser := b.highUser.set (r.val - 8) value }
  else if r = .sp then { b with user := { b.user with sp := value } }
  else { b with user := { b.user with lr := value } }

variable (b : RegisterBank) (mode : Mode) (r : RegisterId) (value : Word)

/-- Whether a copy is looked up does not depend on what is in it. -/
theorem userRegister?_eq :
    b.userRegister? mode r = if mode.StoresUser r then some (b.userCopy r) else none := by
  unfold userRegister? userCopy
  by_cases hhigh : 8 ≤ r.val ∧ r.val ≤ 12
  · have hplace : 8 ≤ r.val ∧ r.val - 8 < 5 := by omega
    simp only [dif_pos hplace, dif_pos hhigh, Mode.storesUser_high hhigh]
  have hplace : ¬ (8 ≤ r.val ∧ r.val - 8 < 5) := by omega
  simp only [dif_neg hplace, dif_neg hhigh]
  by_cases hsp : r = .sp
  · subst hsp
    simp only [Mode.storesUser_sp, ite_not, if_true]
  by_cases hlr : r = .lr
  · subst hlr
    simp only [Mode.storesUser_lr, ite_not, if_true, if_neg hsp]
  · simp only [if_neg hsp, if_neg hlr, if_neg (Mode.not_storesUser hhigh hsp hlr), ite_self]

/-- The bank writes the copy of a User register exactly when it is stored. -/
theorem setUserRegister?_eq :
    b.setUserRegister? mode r value =
      if mode.StoresUser r then some (b.setUserCopy r value) else none := by
  unfold setUserRegister? setUserCopy
  by_cases hhigh : 8 ≤ r.val ∧ r.val ≤ 12
  · have hplace : 8 ≤ r.val ∧ r.val - 8 < 5 := by omega
    simp only [dif_pos hplace, dif_pos hhigh, Mode.storesUser_high hhigh]
  have hplace : ¬ (8 ≤ r.val ∧ r.val - 8 < 5) := by omega
  simp only [dif_neg hplace, dif_neg hhigh]
  by_cases hsp : r = .sp
  · subst hsp
    simp only [Mode.storesUser_sp, ite_not, if_true]
  by_cases hlr : r = .lr
  · subst hlr
    simp only [Mode.storesUser_lr, ite_not, if_true, if_neg hsp]
  · simp only [if_neg hsp, if_neg hlr, if_neg (Mode.not_storesUser hhigh hsp hlr), ite_self]

variable {mode r} {s : RegisterId}

/-- A copy that is written reads back, and the others are kept. -/
theorem userCopy_setUserCopy (hr : mode.StoresUser r) (hs : mode.StoresUser s) :
    (b.setUserCopy r value).userCopy s = if r = s then value else b.userCopy s := by
  unfold setUserCopy userCopy
  -- Two registers have one place only if they are the same: five places are told apart by their
  -- index, and the other two by SP.
  by_cases hhigh : 8 ≤ r.val ∧ r.val ≤ 12
  · rw [dif_pos hhigh]
    by_cases hhigh' : 8 ≤ s.val ∧ s.val ≤ 12
    · have hplace : r.val - 8 = s.val - 8 ↔ r = s := by
        rw [Fin.ext_iff]
        omega
      simp only [dif_pos hhigh', Vector.getElem_set, hplace]
    · have hne : r ≠ s := fun h => hhigh' (h ▸ hhigh)
      simp only [dif_neg hhigh', if_neg hne]
  rw [dif_neg hhigh]
  have hlink {q : RegisterId} (hq : mode.StoresUser q) (hlow : ¬ (8 ≤ q.val ∧ q.val ≤ 12))
      (hsp : q ≠ .sp) : q = .lr :=
    Classical.byContradiction fun hlr => Mode.not_storesUser hlow hsp hlr hq
  by_cases hhigh' : 8 ≤ s.val ∧ s.val ≤ 12
  · have hne : r ≠ s := fun h => hhigh (h ▸ hhigh')
    simp only [dif_pos hhigh', if_neg hne]
    split <;> rfl
  simp only [dif_neg hhigh']
  by_cases hsp : r = .sp
  · subst hsp
    by_cases hsp' : s = .sp
    · simp only [hsp', if_true]
    · simp only [if_neg hsp', if_neg (Ne.symm hsp'), if_true]
  · have hlr : r = .lr := hlink hr hhigh hsp
    by_cases hsp' : s = .sp
    · simp only [hsp', if_true, if_neg hsp]
    · have hlr' : s = .lr := hlink hs hhigh' hsp'
      rw [if_neg hsp, if_neg hsp', hlr, hlr', if_pos rfl]

/-- No mode but User sees the copies. -/
theorem get_setUserCopy {bank : Bank} (h : bank ≠ .user) :
    (b.setUserCopy r value).get bank = b.get bank := by
  unfold setUserCopy
  split
  · cases bank <;> rfl
  split
  · cases bank <;> first | rfl | exact absurd rfl h
  · cases bank <;> first | rfl | exact absurd rfl h

/-- The high registers of FIQ are no User registers. -/
theorem highFiq_setUserCopy : (b.setUserCopy r value).highFiq = b.highFiq := by
  unfold setUserCopy
  split
  · rfl
  split <;> rfl

/-- User has a saved status in the bank too, which no transfer reaches. -/
theorem spsr_setUserCopy : (b.setUserCopy r value).user.spsr = b.user.spsr := by
  unfold setUserCopy
  split
  · rfl
  split <;> rfl

end RegisterBank

/-- A register that a mode does not keep for itself is the one that User mode sees. -/
theorem RegisterView.get_registers_of_shared (v : RegisterView) {mode : Mode} {r : RegisterId}
    (h : ¬ mode.StoresUser r) : (v.registers mode).get r = (v.registers .user).get r := by
  rw [get_registers, get_registers]
  -- By where the register is kept: low, high, stack pointer, link, counter.
  by_cases hlow : r.val < 8
  · rw [dif_pos hlow, dif_pos hlow]
  rw [dif_neg hlow, dif_neg hlow]
  by_cases hhigh : r.val - 8 < 5
  · have hrange : 8 ≤ r.val ∧ r.val ≤ 12 := by omega
    have hfiq : mode ≠ .fiq := fun hmode => h ((Mode.storesUser_high hrange).mpr hmode)
    rw [dif_pos hhigh, dif_pos hhigh, if_neg hfiq, if_neg (by decide)]
  rw [dif_neg hhigh, dif_neg hhigh]
  have hshared (hr : r = .sp ∨ r = .lr) : mode.bank = .user := by
    refine Classical.byContradiction fun hbank => h ?_
    exact .inr ⟨hbank, hr⟩
  by_cases hsp : r = .sp
  · rw [if_pos hsp, if_pos hsp, hshared (.inl hsp)]
    rfl
  rw [if_neg hsp, if_neg hsp]
  by_cases hlr : r = .lr
  · rw [if_pos hlr, if_pos hlr, hshared (.inr hlr)]
    rfl
  · rw [if_neg hlr, if_neg hlr]

namespace Cpu

/-! ### The User view -/

/-- What User mode sees in a register, wherever it is kept. -/
def userView (cpu : Cpu) (r : RegisterId) : Word := (cpu.view.registers .user).get r

/-- It is the copy in the bank if there is one, and else the live register. -/
theorem userView_eq (cpu : Cpu) (r : RegisterId) :
    cpu.userView r =
      if cpu.cpsr.mode.StoresUser r then cpu.bank.userCopy r else cpu.register r := by
  unfold userView
  rw [RegisterView.get_registers]
  unfold RegisterBank.userCopy
  -- The view finds a User register by its number. The bank is asked only where the mode has a copy
  -- of its own.
  by_cases hhigh : 8 ≤ r.val ∧ r.val ≤ 12
  · have hlow : ¬ r.val < 8 := by omega
    have hr : (⟨8 + (r.val - 8), by omega⟩ : RegisterId) = r :=
      Fin.ext (show 8 + (r.val - 8) = r.val by omega)
    have hlive : cpu.registers.high[r.val - 8] = cpu.register r := by
      rw [Registers.getElem_high, hr]
      rfl
    rw [dif_neg hlow, dif_pos (show r.val - 8 < 5 by omega), if_neg (by decide), dif_pos hhigh]
    simp only [Mode.storesUser_high hhigh, view]
    split
    · rfl
    · exact hlive
  rw [dif_neg hhigh]
  by_cases hlow : r.val < 8
  · have hsp : r ≠ .sp := fun h => absurd (h ▸ hlow) (by decide)
    have hlr : r ≠ .lr := fun h => absurd (h ▸ hlow) (by decide)
    rw [dif_pos hlow, if_neg (Mode.not_storesUser hhigh hsp hlr)]
    rfl
  have hnot : ¬ r.val - 8 < 5 := by omega
  rw [dif_neg hlow, dif_neg hnot]
  have huser : Mode.bank .user = .user := rfl
  by_cases hsp : r = .sp
  · subst hsp
    simp only [if_true, Mode.storesUser_sp, ite_not, view, huser]
    split <;> rfl
  by_cases hlr : r = .lr
  · subst hlr
    simp only [if_true, if_neg hsp, Mode.storesUser_lr, ite_not, view, huser]
    split <;> rfl
  · rw [if_neg hsp, if_neg hlr, if_neg (Mode.not_storesUser hhigh hsp hlr)]
    rw [RegisterId.eq_pc hlow hnot hsp hlr]
    rfl

/-- The value that a store of a User register sees. -/
theorem userStoredRegister_eq (cpu : Cpu) (r : RegisterId) :
    cpu.userStoredRegister r = if r = .pc then cpu.userView r + 4 else cpu.userView r := by
  have hpc : ¬ cpu.cpsr.mode.StoresUser .pc :=
    Mode.not_storesUser (by decide) (by decide) (by decide)
  unfold userStoredRegister
  rw [RegisterBank.userRegister?_eq, userView_eq]
  by_cases hstored : cpu.cpsr.mode.StoresUser r
  · have hne : r ≠ .pc := fun h => hpc (h ▸ hstored)
    rw [if_pos hstored, if_pos hstored, if_neg hne]
    rfl
  · rw [if_neg hstored, if_neg hstored]
    rfl

/-! ### Loading a User register -/

/-- What a load of User registers leaves alone: the status, and all that other modes see and User
does not. -/
structure TakesUser (before after : Cpu) : Prop where
  cpsr : after.cpsr = before.cpsr
  banks : ∀ bank, bank ≠ .user → after.view.banks bank = before.view.banks bank
  spsr : (after.view.banks .user).spsr = (before.view.banks .user).spsr
  fiqHigh : after.view.fiqHigh = before.view.fiqHigh

namespace TakesUser

/-- Loading nothing changes nothing. -/
theorem refl (cpu : Cpu) : TakesUser cpu cpu := ⟨rfl, fun _ _ => rfl, rfl, rfl⟩

/-- One load after another changes User registers only. -/
theorem trans {before middle after : Cpu} (h : TakesUser before middle)
    (h' : TakesUser middle after) : TakesUser before after where
  cpsr := h'.cpsr.trans h.cpsr
  banks := fun bank hbank => (h'.banks bank hbank).trans (h.banks bank hbank)
  spsr := h'.spsr.trans h.spsr
  fiqHigh := h'.fiqHigh.trans h.fiqHigh

end TakesUser

/-- A User register is written in the bank or in the register file. -/
theorem writeUserRegister_eq (cpu : Cpu) (mode : Mode) (r : RegisterId) (value : Word) :
    cpu.writeUserRegister mode r value =
      if mode.StoresUser r then { cpu with bank := cpu.bank.setUserCopy r value }
      else cpu.writeRegister r value := by
  unfold writeUserRegister
  rw [RegisterBank.setUserRegister?_eq]
  split
  · next bank hbank =>
    split at hbank
    · next hstored =>
      rw [if_pos hstored]
      cases hbank
      rfl
    · cases hbank
  · next hnone =>
    split at hnone
    · cases hnone
    · next hlive => rw [if_neg hlive]

/-- Writing a User register changes that register of the view, and no other, whether its copy is
live or in the bank. -/
theorem userView_writeUserRegister (cpu : Cpu) (r s : RegisterId) (value : Word) :
    (cpu.writeUserRegister cpu.cpsr.mode r value).userView s =
      if r = s then value else cpu.userView s := by
  rw [userView_eq, userView_eq, writeUserRegister_eq]
  by_cases hstored : cpu.cpsr.mode.StoresUser r
  · rw [if_pos hstored]
    show (if cpu.cpsr.mode.StoresUser s then (cpu.bank.setUserCopy r value).userCopy s
      else cpu.register s) = _
    -- One register is stored and the other one live, so they are different.
    by_cases hs : cpu.cpsr.mode.StoresUser s
    · rw [if_pos hs, if_pos hs]
      exact cpu.bank.userCopy_setUserCopy value hstored hs
    · have hne : r ≠ s := fun h => hs (h ▸ hstored)
      rw [if_neg hs, if_neg hs, if_neg hne]
  · have hlive := cpu.liveOnly_writeRegister r value
    rw [if_neg hstored, hlive.cpsr, hlive.bank]
    by_cases hr : r = s
    · subst hr
      rw [if_neg hstored, if_pos rfl]
      exact cpu.register_writeRegister_self r value
    · rw [if_neg hr, cpu.register_writeRegister value hr]

/-- A live register that User mode sees too is no private one. -/
theorem takesUser_setRegister (cpu : Cpu) {r : RegisterId} (value : Word)
    (h : ¬ cpu.cpsr.mode.StoresUser r) : TakesUser cpu (cpu.setRegister r value) := by
  refine ⟨rfl, fun bank hbank => ?_, ?_, ?_⟩
  · show (if cpu.cpsr.mode.bank = bank then
      (⟨(cpu.registers.set r value).get .sp, (cpu.registers.set r value).get .lr, cpu.spsr⟩ :
        BankedRegisters) else cpu.bank.get bank) =
      if cpu.cpsr.mode.bank = bank then _ else cpu.bank.get bank
    -- In a mode with an SP and an LR of its own, what User mode shares is neither of them.
    by_cases hmode : cpu.cpsr.mode.bank = bank
    · have hprivate : cpu.cpsr.mode.bank ≠ .user := hmode ▸ hbank
      have hsp : r ≠ .sp := fun hr => h (hr ▸ Mode.storesUser_sp.mpr hprivate)
      have hlr : r ≠ .lr := fun hr => h (hr ▸ Mode.storesUser_lr.mpr hprivate)
      rw [if_pos hmode, if_pos hmode, Registers.get_set_of_ne _ _ hsp,
        Registers.get_set_of_ne _ _ hlr]
      rfl
    · rw [if_neg hmode, if_neg hmode]
  · show (if cpu.cpsr.mode.bank = .user then (⟨_, _, cpu.spsr⟩ : BankedRegisters)
      else cpu.bank.user).spsr = (if cpu.cpsr.mode.bank = .user then
      (⟨_, _, cpu.spsr⟩ : BankedRegisters) else cpu.bank.user).spsr
    split <;> rfl
  · show (if cpu.cpsr.mode = .fiq then (cpu.registers.set r value).high else cpu.bank.highFiq) =
      if cpu.cpsr.mode = .fiq then cpu.registers.high else cpu.bank.highFiq
    by_cases hfiq : cpu.cpsr.mode = .fiq
    · have hhigh : ¬ (8 ≤ r.val ∧ r.val ≤ 12) :=
        fun hhigh => h ((Mode.storesUser_high hhigh).mpr hfiq)
      rw [if_pos hfiq, if_pos hfiq, Registers.high_set _ _ (by omega)]
    · rw [if_neg hfiq, if_neg hfiq]

/-- Writing a User register changes nothing that only other modes see. -/
theorem takesUser_writeUserRegister (cpu : Cpu) (r : RegisterId) (value : Word) :
    TakesUser cpu (cpu.writeUserRegister cpu.cpsr.mode r value) := by
  rw [writeUserRegister_eq]
  by_cases hstored : cpu.cpsr.mode.StoresUser r
  · rw [if_pos hstored]
    -- The write goes to the User bank. The other banks, the saved statuses and the FIQ registers
    -- are not in it.
    refine ⟨rfl, fun bank hbank => ?_, ?_, ?_⟩
    · show (if cpu.cpsr.mode.bank = bank then _ else (cpu.bank.setUserCopy r value).get bank) = _
      rw [cpu.bank.get_setUserCopy value hbank]
      rfl
    · show (if cpu.cpsr.mode.bank = .user then (⟨_, _, cpu.spsr⟩ : BankedRegisters)
        else (cpu.bank.setUserCopy r value).user).spsr = (if cpu.cpsr.mode.bank = .user then
        (⟨_, _, cpu.spsr⟩ : BankedRegisters) else cpu.bank.user).spsr
      split
      · rfl
      · exact cpu.bank.spsr_setUserCopy value
    · show (if cpu.cpsr.mode = .fiq then _ else (cpu.bank.setUserCopy r value).highFiq) = _
      rw [cpu.bank.highFiq_setUserCopy value]
      rfl
  · rw [if_neg hstored]
    unfold writeRegister
    dsimp only
    split
    · exact (cpu.takesUser_setRegister value hstored).trans ⟨rfl, fun _ _ => rfl, rfl, rfl⟩
    · exact cpu.takesUser_setRegister value hstored

/-! ### Loading a list -/

/-- Loading a list of User registers changes nothing that only other modes see. The mode stays the
same from word to word, so all of them go to copies of the same kind. -/
theorem takesUser_foldl (cpu : Cpu) (words : List (RegisterId × Word)) :
    TakesUser cpu (words.foldl (takeWord true cpu.cpsr.mode) cpu) := by
  induction words generalizing cpu with
  | nil => exact .refl cpu
  | cons word rest ih =>
    have hfirst : TakesUser cpu (takeWord true cpu.cpsr.mode cpu word) :=
      cpu.takesUser_writeUserRegister word.1 word.2
    have hrest := ih (takeWord true cpu.cpsr.mode cpu word)
    rw [hfirst.cpsr] at hrest
    exact hfirst.trans hrest

/-- A register that is not in the list keeps its value. -/
theorem userView_foldl_of_ne (cpu : Cpu) {words : List (RegisterId × Word)} {r : RegisterId}
    (h : ∀ word ∈ words, word.1 ≠ r) :
    (words.foldl (takeWord true cpu.cpsr.mode) cpu).userView r = cpu.userView r := by
  induction words generalizing cpu with
  | nil => rfl
  | cons word rest ih =>
    let next := takeWord true cpu.cpsr.mode cpu word
    have hcpsr : next.cpsr = cpu.cpsr := (cpu.takesUser_writeUserRegister word.1 word.2).cpsr
    have hrest := ih next fun w hw => h w (List.mem_cons_of_mem word hw)
    rw [hcpsr] at hrest
    refine hrest.trans ((cpu.userView_writeUserRegister word.1 r word.2).trans ?_)
    exact if_neg (h word List.mem_cons_self)

/-- A register of the list has the word for it, as no later one is for the same register. -/
theorem userView_foldl_of_mem (cpu : Cpu) {words : List (RegisterId × Word)}
    (hascending : words.Pairwise fun word word' => word.1 < word'.1) {word : RegisterId × Word}
    (h : word ∈ words) :
    (words.foldl (takeWord true cpu.cpsr.mode) cpu).userView word.1 = word.2 := by
  -- On the list. The registers ascend, so no later word goes to the one that was taken.
  induction words generalizing cpu with
  | nil => cases h
  | cons first rest ih =>
    let next := takeWord true cpu.cpsr.mode cpu first
    have hcpsr : next.cpsr = cpu.cpsr := (cpu.takesUser_writeUserRegister first.1 first.2).cpsr
    obtain ⟨hlater, hrest⟩ := List.pairwise_cons.mp hascending
    rcases List.mem_cons.mp h with rfl | hmem
    · have hkept := userView_foldl_of_ne next fun w hw => Fin.ne_of_gt (hlater w hw)
      rw [hcpsr] at hkept
      refine hkept.trans ((cpu.userView_writeUserRegister word.1 word.1 word.2).trans ?_)
      exact if_pos rfl
    · have htaken := ih next hrest hmem
      rw [hcpsr] at htaken
      exact htaken

/-- A register of an ascending list shows the word at its own place afterwards. -/
theorem userView_foldl_getElem (cpu : Cpu) {list : List RegisterId} {words : List Word}
    (hascending : list.Pairwise (· < ·)) (hlength : words.length = list.length) {k : Nat}
    (hk : k < list.length) (hk' : k < words.length) :
    ((list.zip words).foldl (takeWord true cpu.cpsr.mode) cpu).userView list[k] = words[k] := by
  have hzip : k < (list.zip words).length := by
    rw [List.length_zip]
    exact Nat.lt_min.mpr ⟨hk, hk'⟩
  have hpair : (list[k], words[k]) ∈ list.zip words := by
    rw [← List.getElem_zip (h := hzip)]
    exact List.getElem_mem hzip
  -- The list is ascending, so no register gets a second word.
  have hpairs : (list.zip words).Pairwise fun word word' => word.1 < word'.1 := by
    rw [← List.pairwise_map (f := Prod.fst), List.map_fst_zip (Nat.le_of_eq hlength.symm)]
    exact hascending
  exact userView_foldl_of_mem cpu hpairs hpair

/-! ### What the other modes see -/

/-- A register of which User mode has another copy is out of reach. -/
theorem TakesUser.get_registers {before after : Cpu} (h : TakesUser before after) {mode : Mode}
    {r : RegisterId} (hprivate : mode.StoresUser r) :
    (after.view.registers mode).get r = (before.view.registers mode).get r := by
  rw [RegisterView.get_registers, RegisterView.get_registers]
  -- A mode keeps registers of its own in two ways: the high ones of FIQ, or a bank of its own.
  rcases hprivate with ⟨hfiq, hle, hle'⟩ | ⟨hbank, hr⟩
  · have hlow : ¬ r.val < 8 := by omega
    have hhigh : r.val - 8 < 5 := by omega
    simp only [dif_neg hlow, dif_pos hhigh, if_pos hfiq, h.fiqHigh]
  · have hlow : ¬ r.val < 8 := by
      rcases hr with rfl | rfl <;> decide
    have hhigh : ¬ r.val - 8 < 5 := by
      rcases hr with rfl | rfl <;> decide
    rw [dif_neg hlow, dif_neg hlow, dif_neg hhigh, dif_neg hhigh, h.banks mode.bank hbank]
    rcases hr with rfl | rfl
    · rw [if_pos rfl, if_pos rfl]
    · have hne : RegisterId.lr ≠ .sp := by decide
      rw [if_neg hne, if_neg hne, if_pos rfl, if_pos rfl]

/-- The saved status of every mode is kept. -/
theorem TakesUser.spsr_view {before after : Cpu} (h : TakesUser before after) (mode : Mode) :
    after.view.spsr mode = before.view.spsr mode := by
  by_cases hbank : mode.bank = .user
  · show (after.view.banks mode.bank).spsr = (before.view.banks mode.bank).spsr
    rw [hbank]
    exact h.spsr
  · exact congrArg BankedRegisters.spsr (h.banks mode.bank hbank)

/-! ### The transfers -/

section Transfers

variable {β : Type} [MemoryBus β]

/-- The accesses that an ARM instruction makes. -/
def armAccesses (cpu : Cpu) (bus : β) (i : Arm.Instruction) : List BusAccess :=
  (cpu.performArm (Recorded.blank bus) i).2.accesses

/-- No access of an ARM instruction fails. -/
def ArmSucceeds (cpu : Cpu) (bus : β) (i : Arm.Instruction) : Prop :=
  (cpu.performArm (⟨bus, false⟩ : Watched β) i).2.failed = false

instance (cpu : Cpu) (bus : β) (i : Arm.Instruction) : Decidable (cpu.ArmSucceeds bus i) :=
  inferInstanceAs (Decidable ((cpu.performArm (⟨bus, false⟩ : Watched β) i).2.failed = false))

/-- The User registers of a list are stored in ascending order, R15 one word further on, and
nothing happens to the processor. -/
structure StoresUserList (t : BlockTransfer) (cpu : Cpu) (bus : β) : Prop where
  accesses : cpu.armAccesses bus (.blockTransfer t) =
    wordStores (blockStart t (cpu.register t.base))
      ((RegisterId.ofList t.registers).map fun r =>
        if r = .pc then cpu.userView r + 4 else cpu.userView r)
  state : SameState cpu (cpu.performArm bus (.blockTransfer t)).1

/-- The User registers of a list get the words that are loaded for them, in ascending order, and
no mode sees anything else change. -/
structure LoadsUserList (t : BlockTransfer) (cpu : Cpu) (bus : β) : Prop where
  accesses : cpu.armAccesses bus (.blockTransfer t) =
    wordLoads (blockStart t (cpu.register t.base)) (RegisterId.ofList t.registers).length
  /-- The answer of each load is in the User register by the end. -/
  listed : ∀ k (h : k < (RegisterId.ofList t.registers).length),
    (MemoryBus.load32
      ((wordLoads (blockStart t (cpu.register t.base)) k).foldl BusAccess.perform bus)
      (wordAddress (blockStart t (cpu.register t.base)) k)).1 =
        some ((cpu.performArm bus (.blockTransfer t)).1.userView (RegisterId.ofList t.registers)[k])
  /-- A register that is not listed, or of which a mode has a copy of its own, is kept. -/
  others : ∀ (mode : Mode) (r : RegisterId),
    (r ∈ RegisterId.ofList t.registers → mode.StoresUser r) →
      ((cpu.performArm bus (.blockTransfer t)).1.view.registers mode).get r =
        (cpu.view.registers mode).get r
  spsr : ∀ mode, (cpu.performArm bus (.blockTransfer t)).1.view.spsr mode = cpu.view.spsr mode
  cpsr : (cpu.performArm bus (.blockTransfer t)).1.cpsr = cpu.cpsr

/-- The bus after a list store is the bus after its words. -/
theorem snd_storeBlock (cpu : Cpu) (bus : β) (t : BlockTransfer) :
    (cpu.storeBlock bus t).2 = (storeWords bus (blockStart t (cpu.register t.base))
      ((blockRegisters t).map (cpu.listedValue t))).2 := by
  rw [storeBlock_eq]
  dsimp only
  split <;> rfl

/-- The bus after a list load is the bus after its words. -/
theorem snd_loadBlock (cpu : Cpu) (bus : β) (t : BlockTransfer) :
    (cpu.loadBlock bus t).2 =
      (loadWords bus (blockStart t (cpu.register t.base)) (blockRegisters t).length).2 := by
  rw [loadBlock_eq]
  dsimp only
  split
  · rfl
  split <;> rfl

variable {t : BlockTransfer} {cpu : Cpu} {bus : β}

/-- A list store that runs into no failing access has stored all of its words. -/
theorem outcome_of_succeeds (h : (cpu.storeBlock (⟨bus, false⟩ : Watched β) t).2.failed = false) :
    (storeWords bus (blockStart t (cpu.register t.base))
      ((blockRegisters t).map (cpu.listedValue t))).1.outcome = true := by
  have hplain := Watched.busMap.storeWords (⟨bus, false⟩ : Watched β)
    (blockStart t (cpu.register t.base)) ((blockRegisters t).map (cpu.listedValue t))
  rw [snd_storeBlock, Watched.failed_storeWords, Bool.false_or] at h
  rw [show (⟨bus, false⟩ : Watched β).bus = bus from rfl] at hplain
  rw [hplain]
  exact Bool.not_eq_eq_eq_not.mp h

/-- A list load that runs into none has loaded all of its words. -/
theorem length_of_succeeds (h : (cpu.loadBlock (⟨bus, false⟩ : Watched β) t).2.failed = false) :
    (loadWords bus (blockStart t (cpu.register t.base))
      (blockRegisters t).length).1.outcome.length = (blockRegisters t).length := by
  have hplain := Watched.busMap.loadWords (⟨bus, false⟩ : Watched β)
    (blockStart t (cpu.register t.base)) (blockRegisters t).length
  rw [snd_loadBlock, Watched.failed_loadWords, Bool.false_or] at h
  rw [show (⟨bus, false⟩ : Watched β).bus = bus from rfl] at hplain
  rw [hplain]
  refine Nat.le_antisymm (length_loadWords_le ..) (Nat.le_of_not_lt ?_)
  exact of_decide_eq_false h

/-- Without write-back there is no new base. -/
theorem blockBase?_of_keeps (h : t.writeBack = false) : cpu.blockBase? t = none := by
  unfold blockBase?
  rw [h]
  rfl

section List

variable (hbit : t.statusBit = true) (hback : t.writeBack = false) (hlist : t.registers ≠ 0)
include hbit hback hlist

/-- With the S bit, and a base that stays, a list store is a store of User registers. -/
theorem storesUserList (hstore : t.direction = .store)
    (hsucceeds : cpu.ArmSucceeds bus (.blockTransfer t)) : StoresUserList t cpu bus := by
  let values := (blockRegisters t).map (cpu.listedValue t)
  have hperform {γ : Type} [MemoryBus γ] (c : γ) :
      cpu.performArm c (.blockTransfer t) = cpu.storeBlock c t :=
    transferBlock_of_store hstore cpu c
  -- The values are the User registers, the counter as the last of them four ahead.
  have hvalues : values = (RegisterId.ofList t.registers).map fun r =>
      if r = .pc then cpu.userView r + 4 else cpu.userView r := by
    have hregisters : blockRegisters t = RegisterId.ofList t.registers := if_neg hlist
    show (blockRegisters t).map (cpu.listedValue t) = _
    rw [hregisters]
    refine List.map_congr_left fun r _ => ?_
    rw [← userStoredRegister_eq]
    unfold listedValue
    rw [hback, hbit, if_neg (by rintro ⟨-, h, -⟩; cases h), if_pos rfl]
  unfold ArmSucceeds at hsucceeds
  rw [hperform] at hsucceeds
  have houtcome := outcome_of_succeeds hsucceeds
  constructor
  · unfold armAccesses
    rw [hperform, snd_storeBlock, ← hvalues]
    exact accesses_blank_storeWords houtcome
  · rw [hperform, storeBlock_eq, blockBase?_of_keeps hback]
    dsimp only
    rw [if_pos houtcome]
    rfl

/-- A list load without R15 takes its words for User registers and does nothing else. -/
theorem loadBlock_user (hpc : .pc ∉ RegisterId.ofList t.registers)
    (hlength : (loadWords bus (blockStart t (cpu.register t.base))
      (RegisterId.ofList t.registers).length).1.outcome.length =
        (RegisterId.ofList t.registers).length) :
    let words := (loadWords bus (blockStart t (cpu.register t.base))
      (RegisterId.ofList t.registers).length).1
    (cpu.loadBlock bus t).1 = ((RegisterId.ofList t.registers).zip words.outcome).foldl
      (takeWord true cpu.cpsr.mode) (cpu.spend words.accesses) := by
  have hregisters : blockRegisters t = RegisterId.ofList t.registers := if_neg hlist
  have hcontains : (RegisterId.ofList t.registers).contains .pc = false :=
    Bool.eq_false_iff.mpr fun h => hpc (List.contains_iff_mem.mp h)
  -- Without the counter in the list the status bit selects the User bank.
  have huser : loadsUser t = true := by
    unfold loadsUser
    rw [hbit, hregisters, hcontains]
    rfl
  have hall : ¬ (loadWords bus (blockStart t (cpu.register t.base))
      (RegisterId.ofList t.registers).length).1.outcome.length <
        (RegisterId.ofList t.registers).length := Nat.not_lt_of_ge (Nat.le_of_eq hlength.symm)
  rw [loadBlock_eq, hregisters, huser, blockBase?_of_keeps hback]
  dsimp only
  rw [if_neg hall, hcontains, Bool.and_false, if_neg Bool.false_ne_true]
  rfl

/-- With the S bit, a list load without R15 is a load of User registers. -/
theorem loadsUserList (hload : t.direction = .load) (hpc : .pc ∉ RegisterId.ofList t.registers)
    (hsucceeds : cpu.ArmSucceeds bus (.blockTransfer t)) : LoadsUserList t cpu bus := by
  let list := RegisterId.ofList t.registers
  let words := (loadWords bus (blockStart t (cpu.register t.base)) list.length).1
  let pairs := list.zip words.outcome
  let based := cpu.spend words.accesses
  have hperform {γ : Type} [MemoryBus γ] (c : γ) :
      cpu.performArm c (.blockTransfer t) = cpu.loadBlock c t :=
    transferBlock_of_load hload cpu c
  have hregisters : blockRegisters t = list := if_neg hlist
  unfold ArmSucceeds at hsucceeds
  rw [hperform] at hsucceeds
  have hlength : words.outcome.length = list.length := by
    have hall := length_of_succeeds hsucceeds
    rw [hregisters] at hall
    exact hall
  have hdone : (cpu.performArm bus (.blockTransfer t)).1 =
      pairs.foldl (takeWord true based.cpsr.mode) based := by
    rw [hperform]
    exact loadBlock_user hbit hback hlist hpc hlength
  have htakes : TakesUser cpu (cpu.performArm bus (.blockTransfer t)).1 := by
    have hspent : TakesUser cpu based := ⟨rfl, fun _ _ => rfl, rfl, rfl⟩
    rw [hdone]
    exact hspent.trans (based.takesUser_foldl pairs)
  refine ⟨?_, fun k hk => ?_, fun mode r hr => ?_, htakes.spsr_view, htakes.cpsr⟩
  · unfold armAccesses
    rw [hperform, snd_loadBlock, hregisters]
    exact accesses_blank_loadWords hlength
  · have hk' : k < words.outcome.length := hlength ▸ hk
    have hascending : list.Pairwise (· < ·) := hregisters ▸ pairwise_blockRegisters t
    rw [hdone, userView_foldl_getElem based hascending hlength hk hk']
    exact answer_loadWords (List.getElem?_eq_getElem hk')
  · by_cases hprivate : mode.StoresUser r
    · exact htakes.get_registers hprivate
    · have hunlisted : r ∉ list := fun hmem => hprivate (hr hmem)
      rw [RegisterView.get_registers_of_shared _ hprivate,
        RegisterView.get_registers_of_shared _ hprivate, hdone]
      refine userView_foldl_of_ne based fun word hword hfor => hunlisted ?_
      rw [← hfor]
      exact (List.of_mem_zip hword).1

end List

/-- A list transfer with the S bit that keeps its base and does not fail acts on the User
registers, wherever they are kept: in every mode, for every list and every addressing mode. A
store sends what User mode sees, and a load of a list without R15 changes that and nothing else. -/
theorem userBank_transfer (hbit : t.statusBit = true) (hback : t.writeBack = false)
    (hlist : t.registers ≠ 0) (hsucceeds : cpu.ArmSucceeds bus (.blockTransfer t)) :
    (∀ r, cpu.userView r =
      if cpu.cpsr.mode.StoresUser r then cpu.bank.userCopy r else cpu.register r) ∧
    (t.direction = .store → StoresUserList t cpu bus) ∧
    (t.direction = .load → .pc ∉ RegisterId.ofList t.registers → LoadsUserList t cpu bus) := by
  refine ⟨cpu.userView_eq, fun hstore => ?_, fun hload hpc => ?_⟩
  · exact storesUserList hbit hback hlist hstore hsucceeds
  · exact loadsUserList hbit hback hlist hload hpc hsucceeds

end Transfers

/-- In FIQ, `STMIA R0, {R8, SP, R15}^` sends two registers from the bank and R15, and
`LDMIA R0, {R2, R8, SP}^` writes R2 and two registers in the bank. -/
theorem userBank_transfer_in_fiq :
    let cpu := { withOtherBanks with cpsr := .ofMode .fiq }
    let ram := programOf 0xE8D02104
    StoresUserList ⟨.post, .up, true, false, .store, 0, 0xA100⟩ cpu ram ∧
      LoadsUserList ⟨.post, .up, true, false, .load, 0, 0x2104⟩ cpu ram := by
  intro cpu ram
  have hstored : cpu.ArmSucceeds ram
      (.blockTransfer ⟨.post, .up, true, false, .store, 0, 0xA100⟩) := by
    decide
  have hloaded : cpu.ArmSucceeds ram
      (.blockTransfer ⟨.post, .up, true, false, .load, 0, 0x2104⟩) := by
    decide
  obtain ⟨-, hstores, -⟩ := userBank_transfer rfl rfl (by decide) hstored
  obtain ⟨-, -, hloads⟩ := userBank_transfer rfl rfl (by decide) hloaded
  exact ⟨hstores rfl, hloads rfl (by decide)⟩

end Cpu

end AdvanceCore
