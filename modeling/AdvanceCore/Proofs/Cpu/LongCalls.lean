import AdvanceCore.Proofs.Cpu.InterruptReturn
import AdvanceCore.Proofs.Cpu.Pipeline

/-!
# `AdvanceCore.Proofs.Cpu.LongCalls`: calls in two halves

A Thumb code has no room for the distance of a call, so a call is two codes. The first leaves the
address that the upper part of the distance leads to in the link register. The second adds the
lower part, jumps there and links. Between them the call is in the link register and nowhere else,
and an interrupt has a link register of its own.

* `decode_upperHalf`, `decode_lowerHalf`: the two codes.
* `callDistance`: the distance, put together from its parts.
* `Relinked`: a processor with another LR and R15.
* `step_upperHalf`, `step_lowerHalf`: each half as a step, from any state.
* `HalfCalled`: what the second half needs of the first, which an interrupt puts back.
* `calls_reach_target`: both halves, with or without an interrupt between them.
-/

set_option autoImplicit false

namespace AdvanceCore

/-! ### Codes -/

namespace Thumb

/-- The first code of a call. -/
def upperHalf (hi : BitVec 11) : Half := 0xF000 ||| hi.setWidth 16

/-- The second code of a call. -/
def lowerHalf (lo : BitVec 11) : Half := 0xF800 ||| lo.setWidth 16

/-- A code with its top four bits set is in no other format, because each of the others has one
of them clear. -/
theorem decode_of_top {code : Half} (htop : code.extractLsb' 12 4 = 0b1111#4) :
    Instruction.decode code = callOf code := by
  have hset (i : Nat) (hlow : 12 ≤ i) (hhigh : i < 16) : code.getLsbD i = true := by
    have hplace : 12 + (i - 12) = i := by omega
    have hin : i - 12 < 4 := by omega
    have hbit := congrArg (fun field => field.getLsbD (i - 12)) htop
    simp only [BitVec.getLsbD_extractLsb', hin, hplace, decide_true, Bool.true_and] at hbit
    rw [hbit]
    exact (by decide : ∀ i < 4, (0b1111#4).getLsbD i = true) _ hin
  -- A format that wants any of the four top bits clear is excluded by that bit.
  have hother {lowest count : Nat} {pattern : BitVec count}
      (hclear : ∃ i < count, 12 ≤ lowest + i ∧ lowest + i < 16 ∧ pattern.getLsbD i = false) :
      (code.extractLsb' lowest count = pattern) = False := by
    obtain ⟨i, hi, hlow, hhigh, hclear⟩ := hclear
    refine eq_false ?_
    rintro rfl
    rw [BitVec.getLsbD_extractLsb', hset _ hlow hhigh, decide_eq_true hi] at hclear
    cases hclear
  unfold Instruction.decode
  simp (disch := decide) only [hother, false_and, if_false]
  exact if_pos htop

/-- Bit 11 tells the halves apart. -/
theorem decode_append (lower : Bool) (offset : BitVec 11) :
    Instruction.decode ((0b1111#4 ++ BitVec.ofBool lower) ++ offset : Half) =
      if lower then .callLower offset else .callUpper offset := by
  have htop : ((0b1111#4 ++ BitVec.ofBool lower) ++ offset : Half).extractLsb' 12 4 =
      0b1111#4 := by
    rw [BitVec.extractLsb'_append_eq_of_le (by decide)]
    exact BitVec.extractLsb'_append_eq_left
  rw [decode_of_top htop]
  unfold callOf
  rw [BitVec.getLsbD_append, BitVec.extractLsb'_append_eq_right]
  cases lower <;> rfl

/-- A prefix and an offset, appended, are the sum of their shifted fields. -/
theorem append_eq_or (top : BitVec 5) (offset : BitVec 11) :
    (top ++ offset : Half) = top.setWidth 16 <<< 11 ||| offset.setWidth 16 := by
  rw [← BitVec.setWidth_append_eq_shiftLeft_setWidth_or]
  exact (BitVec.setWidth_eq _).symm

/-- The first half of a call decodes to one. -/
theorem decode_upperHalf (hi : BitVec 11) :
    Instruction.decode (upperHalf hi) = .callUpper hi := by
  have htop : (0b1111#4 ++ BitVec.ofBool false).setWidth 16 <<< 11 = (0xF000 : Half) := by decide
  rw [upperHalf, ← htop, ← append_eq_or, decode_append]
  rfl

/-- The second half of a call decodes to one. -/
theorem decode_lowerHalf (lo : BitVec 11) :
    Instruction.decode (lowerHalf lo) = .callLower lo := by
  have htop : (0b1111#4 ++ BitVec.ofBool true).setWidth 16 <<< 11 = (0xF800 : Half) := by decide
  rw [lowerHalf, ← htop, ← append_eq_or, decode_append]
  rfl

end Thumb

/-! ### The distance -/

/-- The distance of a call from R15: a signed number of 23 bits, whose lowest one is clear. -/
def callDistance (hi lo : BitVec 11) : Word :=
  (hi.setWidth 23 <<< 12 ||| lo.setWidth 23 <<< 1).signExtend 32

/-- What the first half adds to R15. -/
def upperDistance (hi : BitVec 11) : Word := Bits.signExtendLow (hi.setWidth 32 <<< 12) 23

/-- What the second half adds to that. -/
def lowerDistance (lo : BitVec 11) : Word := lo.setWidth 32 <<< 1

/-- The parts of the distance share no bit, and the upper part alone has the sign. -/
theorem upperDistance_add_lowerDistance (hi lo : BitVec 11) :
    upperDistance hi + lowerDistance lo = callDistance hi lo := by
  have hupper : upperDistance hi = (hi.setWidth 23 <<< 12).signExtend 32 := by
    unfold upperDistance Bits.signExtendLow
    rw [BitVec.setWidth_shiftLeft_of_le (by decide), BitVec.setWidth_setWidth_of_le _ (by decide)]
  have hmsb : (lo.setWidth 23 <<< 1).msb = false := by
    simp [BitVec.msb_eq_getLsbD_last]
  have hlower : lowerDistance lo = (lo.setWidth 23 <<< 1).signExtend 32 := by
    rw [lowerDistance, BitVec.signExtend_eq_setWidth_of_msb_false hmsb]
    refine BitVec.eq_of_getLsbD_eq fun i hi => ?_
    by_cases h : i < 23
    · simp [h, hi]
    · have hout : 11 ≤ i - 1 := by omega
      simp [h, hout]
  have hdisjoint : hi.setWidth 23 <<< 12 &&& lo.setWidth 23 <<< 1 = 0#23 := by
    refine BitVec.eq_of_getLsbD_eq fun i hi => ?_
    by_cases h : i < 12
    · simp [h]
    · have hout : 11 ≤ i - 1 := by omega
      simp [hout]
  rw [hupper, hlower, BitVec.add_eq_or_of_and_eq_zero, callDistance, BitVec.signExtend_or]
  -- No bit is set in both, so there is nothing to carry.
  rw [← BitVec.signExtend_and, hdisjoint]
  rfl

/-- A call goes to a halfword. -/
theorem two_dvd_callDistance (hi lo : BitVec 11) : 2 ∣ (callDistance hi lo).toNat := by
  have hbit : (callDistance hi lo).toNat.testBit 0 = false := by
    rw [BitVec.testBit_toNat, callDistance, BitVec.getLsbD_signExtend]
    simp
  rw [Nat.testBit_zero, decide_eq_false_iff_not] at hbit
  omega

namespace Cpu

/-! ### Another link -/

/-- `after` is `before` with another LR and R15. Every other register, in this mode and in the
banks of the others, and both status words are as they were. -/
structure Relinked (before after : Cpu) (link pc : Word) : Prop where
  registers : after.registers = (before.registers.set .lr link).set .pc pc
  cpsr : after.cpsr = before.cpsr
  spsr : after.spsr = before.spsr
  bank : after.bank = before.bank

namespace Relinked

variable {before middle after : Cpu} {link pc : Word}

/-- R15 is the one that was given. -/
theorem pc_eq (h : Relinked before after link pc) : after.registers.pc = pc := by
  rw [h.registers]
  exact Registers.get_set_self ..

/-- The link register is the one that was given. -/
theorem lr_eq (h : Relinked before after link pc) : after.register .lr = link := by
  show after.registers.get .lr = link
  rw [h.registers, Registers.get_set_of_ne _ _ (by decide), Registers.get_set_self]

/-- Of two changes the second one shows. -/
theorem trans {link' pc' : Word} (h : Relinked before middle link pc)
    (h' : Relinked middle after link' pc') : Relinked before after link' pc' where
  registers := by
    rw [h'.registers, h.registers, Registers.set_comm _ (r := .pc) (by decide),
      Registers.set_set, Registers.set_set]
  cpsr := h'.cpsr.trans h.cpsr
  spsr := h'.spsr.trans h.spsr
  bank := h'.bank.trans h.bank

/-- In the view of all registers, the link register of one bank has changed, and R15. -/
theorem view_eq (h : Relinked before after link pc) :
    after.view =
      { before.view.setReturn before.cpsr.mode.bank link before.spsr with pc := pc } := by
  have hlinked : (before.setRegister .lr link).view =
      before.view.setReturn before.cpsr.mode.bank link before.spsr :=
    before.view_setReturn link before.spsr
  rw [← hlinked, ← view_setRegister_pc]
  unfold view register
  rw [h.registers, h.cpsr, h.spsr, h.bank]
  rfl

end Relinked

section Changes

variable (cpu : Cpu) (link target : Word)

/-- Aligning R15 keeps the link. -/
theorem relinked_alignPc :
    Relinked cpu cpu.beginStep.alignPc (cpu.register .lr) (cpu.codeAligned cpu.registers.pc) where
  registers := by
    have hsame : cpu.registers.set .lr (cpu.register .lr) = cpu.registers :=
      cpu.registers.set_get .lr
    rw [hsame]
    rfl
  cpsr := rfl
  spsr := rfl
  bank := rfl

/-- Without a jump R15 moves on to the next code. -/
theorem relinked_advance_link (hmark : cpu.flushed = false) :
    Relinked cpu (cpu.setRegister .lr link).advance link
      (cpu.registers.pc + cpu.cpsr.state.instructionWidth) := by
  have hpc : (cpu.setRegister .lr link).registers.pc = cpu.registers.pc :=
    cpu.registers.get_set_of_ne link (by decide)
  have hstay : (cpu.setRegister .lr link).advance =
      (cpu.setRegister .lr link).setRegister .pc
        ((cpu.setRegister .lr link).registers.pc + cpu.cpsr.state.instructionWidth) := by
    unfold advance
    exact if_neg (by rw [setRegister, hmark]; decide)
  rw [hstay, hpc]
  exact ⟨rfl, rfl, rfl, rfl⟩

/-- With a jump the pipeline is refilled from the target. -/
theorem relinked_advance_jump :
    Relinked cpu ((cpu.setRegister .lr link).jump target).advance link
      (cpu.codeAligned target + cpu.cpsr.state.pipelineOffset) where
  registers := by
    have hpc : ((cpu.setRegister .lr link).jump target).registers.pc = target :=
      pc_setRegister ..
    show ((cpu.registers.set .lr link).set .pc target).set .pc
      (cpu.codeAligned ((cpu.setRegister .lr link).jump target).registers.pc + _) = _
    rw [hpc, Registers.set_set]
    rfl
  cpsr := rfl
  spsr := rfl
  bank := rfl

end Changes

/-! ### The halves -/

section Halves

variable {β : Type} [MemoryBus β] {cpu : Cpu} {bus : β} {lines : InterruptLines}

/-- What a step of `cpu` finds around it: no exception to take, and a code at an address. -/
structure Supplies (cpu : Cpu) (bus : β) (lines : InterruptLines) (address : Word) (code : Half) :
    Prop where
  quiet : cpu.pendingException lines = none
  load : (MemoryBus.load16 bus address).1 = some code

/-- A step that nothing interrupts executes the code it finds. -/
theorem exists_step_thumb {code : Half} (hstate : cpu.cpsr.state = .thumb)
    (hcode : cpu.Supplies bus lines cpu.fetchAddress code) :
    ∃ bus' : β, (cpu.step bus lines).2.1 =
      (cpu.beginStep.alignPc.performThumb bus' (.decode code)).1.advance := by
  have hload : MemoryBus.load16 bus cpu.alignPc.currentInstruction =
      (some code, (MemoryBus.load16 bus cpu.fetchAddress).2) := Prod.ext hcode.load rfl
  have htask : cpu.task bus lines =
      (.thumb (.decode code), (MemoryBus.load16 bus cpu.fetchAddress).2) := by
    unfold task
    simp only [hcode.quiet, hstate]
    rw [hload]
  rw [step_eq, htask]
  exact ⟨_, rfl⟩

/-- R15 while a Thumb code executes. -/
theorem pc_of_thumb (hstate : cpu.cpsr.state = .thumb) :
    cpu.beginStep.alignPc.registers.pc = cpu.fetchAddress + 4 := by
  have hoffset : cpu.alignPc.cpsr.state.pipelineOffset = 4 :=
    congrArg CpuState.pipelineOffset hstate
  unfold fetchAddress currentInstruction
  rw [hoffset, BitVec.sub_add_cancel]
  rfl

/-- The first half puts the upper part of the distance into the link register. -/
theorem step_upperHalf {hi : BitVec 11} (hstate : cpu.cpsr.state = .thumb)
    (hcode : cpu.Supplies bus lines cpu.fetchAddress (Thumb.upperHalf hi)) :
    Relinked cpu (cpu.step bus lines).2.1 (cpu.fetchAddress + 4 + upperDistance hi)
      (cpu.fetchAddress + 4 + 2) := by
  obtain ⟨bus', hstep⟩ := exists_step_thumb hstate hcode
  have hwidth : cpu.beginStep.alignPc.cpsr.state.instructionWidth = 2 :=
    congrArg CpuState.instructionWidth hstate
  rw [hstep, Thumb.decode_upperHalf, ← pc_of_thumb hstate, ← hwidth]
  exact cpu.relinked_alignPc.trans (cpu.beginStep.alignPc.relinked_advance_link _ rfl)

/-- The second half jumps to the link register with the lower part of the distance, and leaves the
return address in it with its lowest bit set. -/
theorem step_lowerHalf {lo : BitVec 11} (hstate : cpu.cpsr.state = .thumb)
    (hcode : cpu.Supplies bus lines cpu.fetchAddress (Thumb.lowerHalf lo)) :
    Relinked cpu (cpu.step bus lines).2.1 ((cpu.fetchAddress + 2) ||| 1)
      (cpu.codeAligned (cpu.register .lr + lowerDistance lo) + 4) := by
  obtain ⟨bus', hstep⟩ := exists_step_thumb hstate hcode
  have hoffset : cpu.beginStep.alignPc.cpsr.state.pipelineOffset = 4 :=
    congrArg CpuState.pipelineOffset hstate
  have hnext : cpu.beginStep.alignPc.nextInstruction = cpu.fetchAddress + 2 := by
    have hwidth : cpu.beginStep.alignPc.cpsr.state.instructionWidth = 2 :=
      congrArg CpuState.instructionWidth hstate
    rw [nextInstruction, pc_of_thumb hstate, hwidth, BitVec.sub_eq_add_neg, BitVec.add_assoc]
    rfl
  -- LR still holds what the first half has left there: a step begins with R15 alone.
  have hlr : cpu.beginStep.alignPc.register .lr = cpu.register .lr := cpu.relinked_alignPc.lr_eq
  rw [hstep, Thumb.decode_lowerHalf, ← hnext, ← hoffset, ← hlr]
  exact cpu.relinked_alignPc.trans (cpu.beginStep.alignPc.relinked_advance_jump _ _)

end Halves

/-! ### Between the halves -/

section Between

variable {β : Type} [MemoryBus β] {cpu between resumed : Cpu} {bus : β} {lines : InterruptLines}
  {hi lo : BitVec 11}

/-- Which exception is pending depends on the status and the lines alone. -/
theorem pendingException_congr (hcpsr : between.cpsr = cpu.cpsr) (lines : InterruptLines) :
    between.pendingException lines = cpu.pendingException lines := by
  unfold pendingException
  rw [hcpsr]

/-- A target is even, so aligning it changes nothing. -/
theorem dvd_callTarget (hstate : cpu.cpsr.state = .thumb) (hi lo : BitVec 11) :
    cpu.cpsr.state.instructionWidth.toNat ∣
      (cpu.fetchAddress + 4 + callDistance hi lo).toNat := by
  have heven := cpu.dvd_fetchAddress
  rw [hstate] at heven ⊢
  exact width_dvd_add (width_dvd_add heven (by decide)) (two_dvd_callDistance hi lo)

/-- The first half of a call that `cpu` has begun is done in `between`. All that the second half
needs is in the live registers and the status, so nothing is said of the banks. -/
structure HalfCalled (cpu between : Cpu) (hi : BitVec 11) : Prop where
  cpsr : between.cpsr = cpu.cpsr
  lr : between.register .lr = cpu.fetchAddress + 4 + upperDistance hi
  pc : between.registers.pc = cpu.fetchAddress + 4 + 2

/-- The first half leaves a half call behind. -/
theorem halfCalled_step (hstate : cpu.cpsr.state = .thumb)
    (hcode : cpu.Supplies bus lines cpu.fetchAddress (Thumb.upperHalf hi)) :
    HalfCalled cpu (cpu.step bus lines).2.1 hi :=
  have hstep := step_upperHalf hstate hcode
  ⟨hstep.cpsr, hstep.lr_eq, hstep.pc_eq⟩

namespace HalfCalled

/-- An interrupt that has been handled leaves it as it was. -/
theorem of_resumed {kind : Exception} (h : HalfCalled cpu between hi)
    (hresumed : Resumed kind between resumed) : HalfCalled cpu resumed hi where
  cpsr := hresumed.cpsr.trans h.cpsr
  lr := by
    rw [register, hresumed.registers]
    exact h.lr
  pc := by
    rw [hresumed.registers]
    exact h.pc

/-- R15 stays aligned in between. -/
theorem dvd_pc (h : HalfCalled cpu between hi) (hstate : cpu.cpsr.state = .thumb) :
    between.cpsr.state.instructionWidth.toNat ∣ between.registers.pc.toNat := by
  have heven := cpu.dvd_fetchAddress
  rw [h.pc, h.cpsr]
  rw [hstate] at heven ⊢
  exact width_dvd_add (width_dvd_add heven (by decide)) (by decide)

/-- The second half is fetched next. -/
theorem fetchAddress_eq (h : HalfCalled cpu between hi) (hstate : cpu.cpsr.state = .thumb) :
    between.fetchAddress = cpu.fetchAddress + 2 := by
  rw [fetchAddress_of_dvd (h.dvd_pc hstate), h.pc, h.cpsr, hstate, BitVec.add_assoc,
    BitVec.sub_eq_add_neg, BitVec.add_assoc]
  rfl

/-- An interrupt before the second half links four bytes after it. -/
theorem returnAddress_irq (h : HalfCalled cpu between hi) (hstate : cpu.cpsr.state = .thumb) :
    between.returnAddress .irq = cpu.fetchAddress + 6 := by
  have hoffset : between.cpsr.state.pipelineOffset = 4 := by
    rw [h.cpsr, hstate]
    rfl
  show between.registers.pc - between.cpsr.state.pipelineOffset + 4 = _
  rw [hoffset, BitVec.sub_add_cancel, h.pc, BitVec.add_assoc]
  rfl

/-- The second half takes the call to its target. -/
theorem step (h : HalfCalled cpu between hi) (hstate : cpu.cpsr.state = .thumb)
    (hcode : cpu.Supplies bus lines (cpu.fetchAddress + 2) (Thumb.lowerHalf lo)) :
    Relinked between (between.step bus lines).2.1 ((cpu.fetchAddress + 4) ||| 1)
      (cpu.fetchAddress + 4 + callDistance hi lo + 4) := by
  have hfetch := h.fetchAddress_eq hstate
  have hlower : between.Supplies bus lines between.fetchAddress (Thumb.lowerHalf lo) := by
    rw [hfetch]
    exact ⟨(pendingException_congr h.cpsr lines).trans hcode.quiet, hcode.load⟩
  have hstep := step_lowerHalf ((congrArg Psr.state h.cpsr).trans hstate) hlower
  -- The lower half adds the rest of the distance to what the upper half left in the link register.
  have htarget : between.codeAligned (between.register .lr + lowerDistance lo) =
      cpu.fetchAddress + 4 + callDistance hi lo := by
    rw [h.lr, BitVec.add_assoc, upperDistance_add_lowerDistance]
    refine codeAligned_of_dvd ?_
    rw [h.cpsr]
    exact dvd_callTarget hstate hi lo
  have hlink : cpu.fetchAddress + 2 + 2 = cpu.fetchAddress + 4 := BitVec.add_assoc ..
  rw [hfetch, htarget, hlink] at hstep
  exact hstep

end HalfCalled

/-- `late` is `calm` but for the return that an interrupt has left in the bank of its mode. -/
structure SameButReturn (kind : Exception) (calm late : Cpu) (link : Word) (status : Psr) :
    Prop where
  registers : late.registers = calm.registers
  cpsr : late.cpsr = calm.cpsr
  spsr : late.spsr = calm.spsr
  view : late.view = calm.view.setReturn kind.mode.bank link status

/-- A resumed program and one that was not interrupted stay alike when both get the same LR and
R15. -/
theorem Resumed.sameButReturn {kind : Exception} {calm late : Cpu} {link pc : Word}
    (h : Resumed kind between resumed) (hbank : kind.mode.bank ≠ between.cpsr.mode.bank)
    (hcalm : Relinked between calm link pc) (hlate : Relinked resumed late link pc) :
    SameButReturn kind calm late (between.returnAddress kind) between.cpsr where
  registers := by rw [hlate.registers, h.registers, hcalm.registers]
  cpsr := by rw [hlate.cpsr, h.cpsr, hcalm.cpsr]
  spsr := by rw [hlate.spsr, h.spsr, hcalm.spsr]
  view := by
    rw [hlate.view_eq, h.view, h.cpsr, h.spsr, hcalm.view_eq,
      RegisterView.setReturn_comm _ _ _ _ _ hbank]
    rfl

end Between

/-! ### Whole calls -/

/-- A call from any Thumb state, for all parts of the distance. It begins at the even address of
the next fetch and ends with the first code of its target about to be fetched, with the address
after the call, marked as Thumb code, in LR and with everything else as it was. Between the
halves an IRQ may be taken, from any other mode and with I clear, or else it is not pending. Its
handler runs any code that puts the registers back and returns with `SUBS PC, LR, #4`. The call
then ends in the same state, except for the return in the IRQ bank. The bus may be another one
at each step, as long as each fetch finds its code. -/
theorem calls_reach_target {β : Type} [MemoryBus β] (cpu : Cpu) (hstate : cpu.cpsr.state = .thumb)
    (hi lo : BitVec 11) (bus bus' : β) (lines lines' : InterruptLines)
    (hupper : cpu.Supplies bus lines cpu.fetchAddress (Thumb.upperHalf hi))
    (hlower : cpu.Supplies bus' lines' (cpu.fetchAddress + 2) (Thumb.lowerHalf lo)) :
    let halfway := (cpu.step bus lines).2.1
    let called := (halfway.step bus' lines').2.1
    let target := cpu.fetchAddress + 4 + callDistance hi lo
    called.fetchAddress = target ∧
    Relinked cpu called ((cpu.fetchAddress + 4) ||| 1) (target + 4) ∧
    ∀ (entryBus returnBus lateBus : β) (entryLines returnLines lateLines : InterruptLines)
      (last : Cpu), cpu.cpsr.mode ≠ .irq → cpu.pendingException entryLines = some .irq →
        PutBack (halfway.step entryBus entryLines).2.1 last →
        last.pendingException returnLines = none →
        (MemoryBus.load32 returnBus last.currentInstruction).1 = some returnCode →
        cpu.Supplies lateBus lateLines (cpu.fetchAddress + 2) (Thumb.lowerHalf lo) →
          let resumed := (last.step returnBus returnLines).2.1
          let late := (resumed.step lateBus lateLines).2.1
          SameButReturn .irq called late (cpu.fetchAddress + 6) cpu.cpsr := by
  intro halfway called target
  -- The second half is one lemma, for the state after the first half and for the resumed one.
  have hfirst : Relinked cpu halfway _ _ := step_upperHalf hstate hupper
  have hhalf : HalfCalled cpu halfway hi := halfCalled_step hstate hupper
  have hcalled : Relinked halfway called _ _ := hhalf.step hstate hlower
  refine ⟨?_, hfirst.trans hcalled, ?_⟩
  · have hcpsr : called.cpsr = cpu.cpsr := (hfirst.trans hcalled).cpsr
    have haligned : called.cpsr.state.instructionWidth.toNat ∣ called.registers.pc.toNat := by
      rw [hcalled.pc_eq, hcpsr]
      exact width_dvd_add (dvd_callTarget hstate hi lo) (by rw [hstate]; decide)
    rw [fetchAddress_of_dvd haligned, hcalled.pc_eq, hcpsr, hstate]
    exact BitVec.add_sub_cancel ..
  · intro entryBus returnBus lateBus entryLines returnLines lateLines last hmode hpending hback
      hquiet hreturn hlate resumed late
    have hbank : Exception.irq.mode.bank ≠ halfway.cpsr.mode.bank := by
      rw [hhalf.cpsr]
      exact fun h => hmode (cpu.cpsr.mode.bank_eq_irq_iff.1 h.symm)
    have hentered : Entered .irq halfway (halfway.step entryBus entryLines).2.1 :=
      step_enters entryBus ((pendingException_congr hhalf.cpsr entryLines).trans hpending)
    have hresumed : Resumed .irq halfway resumed :=
      hentered.resumed_of_putBack hback (hhalf.dvd_pc hstate) rfl rfl hbank hquiet hreturn
    have hsecond : Relinked resumed late _ _ := (hhalf.of_resumed hresumed).step hstate hlate
    have hsame := hresumed.sameButReturn hbank hcalled hsecond
    rw [hhalf.returnAddress_irq hstate, hhalf.cpsr] at hsame
    exact hsame

/-- A memory with a call to 28 bytes before it and a handler that returns at once. -/
def callingProgram : WorkRam 0x20 :=
  ByteMemory.writeHalf (ByteMemory.writeHalf returningHandlers 0 (Thumb.upperHalf 0x7FF))
    2 (Thumb.lowerHalf 0x7F0)

/-- A call that goes back, with an interrupt between its halves. -/
theorem calls_reach_target_backwards :
    let halfway := (thumbProgram.step callingProgram {}).2.1
    let called := (halfway.step callingProgram {}).2.1
    let entered := (halfway.step callingProgram { irq := true }).2.1
    let resumed := (entered.step callingProgram {}).2.1
    let late := (resumed.step callingProgram {}).2.1
    called.fetchAddress = 0x080000E4 ∧
      Relinked thumbProgram called 0x08000105 0x080000E8 ∧
      SameButReturn .irq called late 0x08000106 thumbProgram.cpsr := by
  dsimp only
  have hstate : thumbProgram.cpsr.state = .thumb := by decide
  have hupper : thumbProgram.Supplies callingProgram {} thumbProgram.fetchAddress
      (Thumb.upperHalf 0x7FF) := ⟨by decide, by decide⟩
  have hlower : thumbProgram.Supplies callingProgram {} (thumbProgram.fetchAddress + 2)
      (Thumb.lowerHalf 0x7F0) := ⟨by decide, by decide⟩
  have hpending : thumbProgram.pendingException { irq := true } = some .irq := by decide
  have hhalf := halfCalled_step hstate hupper
  have hcall := calls_reach_target thumbProgram hstate 0x7FF 0x7F0 callingProgram callingProgram
    {} {} hupper hlower
  dsimp only at hcall
  have htarget : thumbProgram.fetchAddress + 4 + callDistance 0x7FF 0x7F0 = 0x080000E4 := by
    decide
  have hlink : (thumbProgram.fetchAddress + 4) ||| 1 = 0x08000105 := by decide
  have hreturnAddress : thumbProgram.fetchAddress + 6 = 0x08000106 := by decide
  rw [htarget, hlink, hreturnAddress] at hcall
  obtain ⟨hfetch, hlinked, hinterrupted⟩ := hcall
  -- From here on only the state between the halves matters, and evaluating the first step again
  -- would be slow.
  generalize (thumbProgram.step callingProgram {}).2.1 = halfway at *
  have hentered : Entered .irq halfway (halfway.step callingProgram { irq := true }).2.1 :=
    step_enters callingProgram ((pendingException_congr hhalf.cpsr _).trans hpending)
  have hreturn : (MemoryBus.load32 callingProgram
      (halfway.step callingProgram { irq := true }).2.1.currentInstruction).1 =
        some returnCode := by
    rw [hentered.currentInstruction]
    decide
  exact ⟨hfetch, hlinked, hinterrupted _ _ _ _ _ _ _ (by decide) hpending hentered.putBack rfl
    hreturn hlower⟩

end Cpu

end AdvanceCore
