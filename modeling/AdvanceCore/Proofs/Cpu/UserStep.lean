import AdvanceCore.Memory
import AdvanceCore.Proofs.Bus.Accesses
import AdvanceCore.Proofs.Cpu.ExceptionEntry
import AdvanceCore.Proofs.Cpu.UserInstructions

/-!
# `AdvanceCore.Proofs.Cpu.UserStep`: whole steps from User mode

A step first finds out what to do, which no hidden register has a part in, and then does it.
In User mode the second half is confined, so the step ends in one of two ways: in User mode,
or at the first instruction of a handler.

* `Task`, `step_eq`: the two halves of a step.
* `Handling`: a processor that has just entered a handler.
* `user_keeps_privilege_or_enters`: the only way out of User mode is an exception, and the
  handler finds the status it left.
* `user_steps_alike`: what is hidden has no influence on a step and is not influenced by it.
-/

set_option autoImplicit false

namespace AdvanceCore

/-! ### The halves of a step -/

/-- What a step does. -/
inductive Task where
  /-- Takes a pending exception. -/
  | take (kind : Exception)
  /-- Takes the prefetch abort of a code that could not be fetched. -/
  | abort
  | arm (code : Arm.Opcode)
  | thumb (code : Thumb.Opcode)
  deriving DecidableEq

/-- The exception that a task may enter. -/
def Task.trap? : Task → Option Exception
  | .take kind => some kind
  | .abort => some .prefetchAbort
  | .arm code => code.instruction.trap?
  | .thumb code => code.instruction.trap?

namespace Cpu

variable {β : Type} [MemoryBus β]

/-- The task of a step and the bus after the fetch. -/
def task (cpu : Cpu) (bus : β) (lines : InterruptLines) : Task × β :=
  match cpu.pendingException lines with
  | some kind => (.take kind, bus)
  | none =>
    match cpu.cpsr.state with
    | .arm =>
      match MemoryBus.load32 bus cpu.alignPc.currentInstruction with
      | (some code, bus) => (.arm (.decode code), bus)
      | (none, bus) => (.abort, bus)
    | .thumb =>
      match MemoryBus.load16 bus cpu.alignPc.currentInstruction with
      | (some code, bus) => (.thumb (.decode code), bus)
      | (none, bus) => (.abort, bus)

/-- Performs a task. -/
def carryOut (cpu : Cpu) (bus : β) : Task → Cpu × β
  | .take kind => (cpu.enter kind, bus)
  | .abort => (cpu.alignPc.enter .prefetchAbort, bus)
  | .arm code => cpu.alignPc.executeArm bus code
  | .thumb code => cpu.alignPc.executeThumb bus code

/-- A step decides on its task, carries it out and moves R15 on. -/
theorem step_eq (cpu : Cpu) (bus : β) (lines : InterruptLines) :
    cpu.step bus lines =
      let done := cpu.beginStep.carryOut (cpu.task bus lines).2 (cpu.task bus lines).1
      (done.1.advance.stepCycles, done.1.advance, done.2) := by
  -- Starting a step resets its counters, which the choice of the task does not look at.
  have hpending : cpu.beginStep.pendingException lines = cpu.pendingException lines := rfl
  have hstate : cpu.beginStep.alignPc.cpsr.state = cpu.cpsr.state := rfl
  have haddress : cpu.beginStep.alignPc.currentInstruction = cpu.alignPc.currentInstruction := rfl
  unfold step task
  dsimp only
  rw [hpending]
  cases cpu.pendingException lines with
  | some kind => rfl
  | none =>
    dsimp only
    unfold fetchAndExecute
    dsimp only
    rw [hstate]
    cases cpu.cpsr.state with
    | arm =>
      dsimp only
      rw [haddress]
      obtain ⟨code | _, bus'⟩ := MemoryBus.load32 bus cpu.alignPc.currentInstruction
      · rfl
      · rfl
    | thumb =>
      dsimp only
      rw [haddress]
      obtain ⟨code | _, bus'⟩ := MemoryBus.load16 bus cpu.alignPc.currentInstruction
      · rfl
      · rfl

/-! ### The end of a step -/

/-- The end of a step does not look at what is hidden. -/
theorem advance_withHidden (cpu : Cpu) (h : Hidden) :
    (cpu.withHidden h).advance = cpu.advance.withHidden h := by
  have hflushed : (cpu.withHidden h).flushed = cpu.flushed := rfl
  unfold advance
  rw [hflushed]
  split <;> rfl

/-- The end of a step does not change the status. -/
theorem cpsr_advance (cpu : Cpu) : cpu.advance.cpsr = cpu.cpsr := by
  unfold advance
  split <;> rfl

/-- Entering a handler takes the two cycles of the refill. -/
theorem stepCycles_advance_enter (cpu : Cpu) (kind : Exception) :
    (cpu.enter kind).advance.stepCycles = 1 + (cpu.extraCycles + 2) := by
  show 1 + ((cpu.loadStatus (cpu.handlerStatus kind)).extraCycles + 2) = _
  unfold loadStatus
  dsimp only
  split <;> rfl

/-- `after` is at the first instruction of the handler for an exception, which finds the
status that was left. -/
structure Handling (kind : Exception) (left : Psr) (after : Cpu) : Prop where
  mode : after.cpsr.mode = kind.mode
  state : after.cpsr.state = .arm
  irqDisable : after.cpsr.irqDisable = true
  pc : after.registers.pc = kind.vector + 8
  spsr : after.spsr = left

/-- After an exception the step ends in the handler, with the status that was current before. -/
theorem handling_advance_enter (cpu : Cpu) (kind : Exception) :
    Handling kind cpu.cpsr (cpu.enter kind).advance := by
  have hentered := cpu.entered_advance kind
  exact ⟨hentered.mode, hentered.state, hentered.irqDisable, hentered.pc, hentered.spsr⟩

/-! ### Steps from User mode -/

/-- From User mode every task of a step ends in one of the two ways, and the exception is one that
the task can enter. -/
theorem confined_carryOut {cpu : Cpu} (huser : cpu.cpsr.mode = .user) (bus : β) (task : Task) :
    Confined task.trap? cpu fun c => c.carryOut bus task := by
  have huser' : cpu.alignPc.cpsr.mode = .user := huser
  cases task with
  | take kind => exact .of_enter kind bus
  | abort => exact .traps cpu.alignPc bus .prefetchAbort rfl rfl fun _ => rfl
  | arm code =>
    exact (confined_executeArm (confined_performArm huser' bus code.instruction)).of_prepared
      rfl fun _ => rfl
  | thumb code =>
    exact (confined_performThumb huser' bus code.instruction).of_prepared rfl fun _ => rfl

/-- The ways a step from User mode can end. In another run, only what was hidden from the
beginning differs. -/
inductive UserStep (trap? : Option Exception) (cpu : Cpu) (step : Cpu → Nat × Cpu × β) : Prop where
  | goesOn (next : Cpu) (bus : β) (privilege : Psr.SamePrivilege cpu.cpsr next.cpsr)
      (same : ∀ h, step (cpu.withHidden h) = (next.stepCycles, next.withHidden h, bus))
  | enters (kind : Exception) (cycles : Nat) (bus : β) (cause : trap? = some kind)
      (same : ∀ h, ∃ after, step (cpu.withHidden h) = (cycles, after, bus) ∧
        Handling kind cpu.cpsr after)

/-- What a User program can tell a processor by: the sixteen registers and the status. -/
structure SameForUser (cpu cpu' : Cpu) : Prop where
  registers : cpu'.registers = cpu.registers
  cpsr : cpu'.cpsr = cpu.cpsr

/-- The steps of two runs that differ in what is hidden. They make the same of the bus and
take the same time. They start the same handler or leave what is hidden alone. -/
structure Alike (left : Psr) (h h' : Hidden) (run run' : Nat × Cpu × β) : Prop where
  bus : run'.2.2 = run.2.2
  cycles : run'.1 = run.1
  ends : (∃ kind, Handling kind left run.2.1 ∧ Handling kind left run'.2.1) ∨
    SameForUser run.2.1 run'.2.1 ∧ run.2.1.hidden = h ∧ run'.2.1.hidden = h'

namespace UserStep

variable {trap? : Option Exception} {cpu : Cpu} {step : Cpu → Nat × Cpu × β}

omit [MemoryBus β] in
/-- A step keeps the privilege, or it enters the handler of its exception. -/
theorem keeps_or_enters (h : UserStep trap? cpu step) :
    Psr.SamePrivilege cpu.cpsr (step cpu).2.1.cpsr ∨
      ∃ kind, trap? = some kind ∧ Handling kind cpu.cpsr (step cpu).2.1 := by
  cases h with
  | goesOn next bus privilege same =>
    have hrun : step cpu = (next.stepCycles, next.withHidden cpu.hidden, bus) := same cpu.hidden
    rw [hrun]
    exact .inl privilege
  | enters kind cycles bus cause same =>
    obtain ⟨after, hrun, hhandling⟩ := same cpu.hidden
    rw [withHidden_hidden] at hrun
    rw [hrun]
    exact .inr ⟨kind, cause, hhandling⟩

omit [MemoryBus β] in
/-- A step that can enter no exception keeps the privilege. -/
theorem keeps (h : UserStep none cpu step) :
    Psr.SamePrivilege cpu.cpsr (step cpu).2.1.cpsr := by
  obtain hkept | ⟨kind, hcause, -⟩ := h.keeps_or_enters
  · exact hkept
  · cases hcause

omit [MemoryBus β] in
/-- Two steps that differ in what is hidden only do the same, each with its own hidden part. -/
theorem alike (h : UserStep trap? cpu step) (mine yours : Hidden) :
    Alike cpu.cpsr mine yours (step (cpu.withHidden mine)) (step (cpu.withHidden yours)) := by
  cases h with
  | goesOn next bus privilege same =>
    rw [same, same]
    exact ⟨rfl, rfl, .inr ⟨⟨rfl, rfl⟩, rfl, rfl⟩⟩
  | enters kind cycles bus cause same =>
    obtain ⟨after, hrun, hhandling⟩ := same mine
    obtain ⟨after', hrun', hhandling'⟩ := same yours
    rw [hrun, hrun']
    exact ⟨rfl, rfl, .inl ⟨kind, hhandling, hhandling'⟩⟩

end UserStep

/-- A step ends as its task does. -/
theorem userStep_of_confined {cpu : Cpu} {bus : β} {lines : InterruptLines}
    {trap? : Option Exception}
    (hdone : Confined trap? cpu.beginStep fun c =>
      c.carryOut (cpu.task bus lines).2 (cpu.task bus lines).1) :
    UserStep trap? cpu fun c => c.step bus lines := by
  have hstep (h : Hidden) : (cpu.withHidden h).step bus lines =
      let done := (cpu.beginStep.withHidden h).carryOut (cpu.task bus lines).2
        (cpu.task bus lines).1
      (done.1.advance.stepCycles, done.1.advance, done.2) :=
    (cpu.withHidden h).step_eq bus lines
  -- What comes after the task moves R15 only, or refills the pipeline of the handler.
  cases hdone with
  | goesOn next bus' privilege same =>
    refine .goesOn next.advance bus' ?_ fun h => ?_
    · rw [cpsr_advance]
      exact privilege
    · rw [hstep, same]
      dsimp only
      rw [advance_withHidden]
      rfl
  | traps stopped bus' kind cause status same =>
    refine .enters kind (1 + (stopped.extraCycles + 2)) bus' cause fun h => ?_
    refine ⟨((stopped.withHidden h).enter kind).advance, ?_, ?_⟩
    · rw [hstep, same]
      dsimp only
      rw [stepCycles_advance_enter]
      rfl
    · have hhandling := (stopped.withHidden h).handling_advance_enter kind
      rw [cpsr_withHidden, status] at hhandling
      exact hhandling

/-- Every step from User mode is one of these. -/
theorem userStep {cpu : Cpu} (huser : cpu.cpsr.mode = .user) (bus : β) (lines : InterruptLines) :
    UserStep (cpu.task bus lines).1.trap? cpu fun c => c.step bus lines := by
  have hbegun : cpu.beginStep.cpsr.mode = .user := huser
  exact userStep_of_confined (confined_carryOut hbegun ..)

/-- A load of a register list enters no exception if its words all arrive. -/
theorem userStep_of_loadsAll {cpu : Cpu} (huser : cpu.cpsr.mode = .user) {bus : β}
    {lines : InterruptLines} {code : Arm.Opcode} {t : BlockTransfer}
    (htask : (cpu.task bus lines).1 = .arm code) (hcode : code.instruction = .blockTransfer t)
    (hload : t.direction = .load) (hall : cpu.alignPc.LoadsAll (cpu.task bus lines).2 t) :
    UserStep none cpu fun c => c.step bus lines := by
  have hbegun : cpu.beginStep.alignPc.cpsr.mode = .user := huser
  have hblock : Confined none cpu.beginStep.alignPc fun c =>
      c.loadBlock (cpu.task bus lines).2 t :=
    confined_loadBlock hbegun _ t fun h => absurd hall h
  -- The list load that is answered throughout does not trap, and so neither does the step.
  have hperform : Confined none cpu.beginStep.alignPc fun c =>
      c.performArm (cpu.task bus lines).2 code.instruction := by
    refine hblock.congr fun h => ?_
    rw [hcode]
    show transferBlock _ _ t = _
    unfold transferBlock
    rw [hload]
  refine userStep_of_confined ?_
  rw [htask]
  exact (confined_executeArm hperform).of_prepared rfl fun _ => rfl

/-- A User program cannot raise its own privilege. Whatever it executes, in either
instruction set, and whatever the lines ask for, the mode and both interrupt masks stay as
they were, or a handler starts in ARM state with interrupts masked, at its own vector, with
the status that was left as its saved status. Only what the step does can be the cause, and an
instruction that stays inside the processor is none. A load of a register list, with or
without the S bit, is none either unless a word of it fails to load. -/
theorem user_keeps_privilege_or_enters {cpu : Cpu} (huser : cpu.cpsr.mode = .user) (bus : β)
    (lines : InterruptLines) :
    let task := (cpu.task bus lines).1
    let fetched := (cpu.task bus lines).2
    let after := (cpu.step bus lines).2.1
    (Psr.SamePrivilege cpu.cpsr after.cpsr ∨
      ∃ kind, task.trap? = some kind ∧ Handling kind cpu.cpsr after) ∧
    (task.trap? = none → Psr.SamePrivilege cpu.cpsr after.cpsr) ∧
    ∀ code t, task = .arm code → code.instruction = .blockTransfer t → t.direction = .load →
      cpu.alignPc.LoadsAll fetched t → Psr.SamePrivilege cpu.cpsr after.cpsr := by
  have hstep := userStep huser bus lines
  refine ⟨hstep.keeps_or_enters, fun hnone => ?_, fun code t htask hcode hload hall => ?_⟩
  · rw [hnone] at hstep
    exact hstep.keeps
  · exact (userStep_of_loadsAll huser htask hcode hload hall).keeps

/-- A User program that is about to execute the code at address zero. -/
def atZero : Cpu := numbered.setRegister .pc 8

/-- A memory with a code at address zero. -/
def programOf (code : Word) : WorkRam 0x20 :=
  ByteMemory.writeWord (.zero 0x20 (Nat.succ_pos _)) 0 code

/-- `MSR CPSR_fc, #0x1F` asks for System mode, `LDMIA R0, {R1, R15}^` for the saved status,
and `SWI 0` for the supervisor, who answers. -/
theorem user_keeps_privilege_of_attempts :
    Psr.SamePrivilege atZero.cpsr (atZero.step (programOf 0xE329F01F) {}).2.1.cpsr ∧
      Psr.SamePrivilege atZero.cpsr (atZero.step (programOf 0xE8D08002) {}).2.1.cpsr ∧
      Handling .softwareInterrupt atZero.cpsr (atZero.step (programOf 0xEF000000) {}).2.1 := by
  have huser : atZero.cpsr.mode = .user := by decide
  obtain ⟨-, write, -⟩ := user_keeps_privilege_or_enters huser (programOf 0xE329F01F) {}
  obtain ⟨-, -, load⟩ := user_keeps_privilege_or_enters huser (programOf 0xE8D08002) {}
  obtain ⟨call, -, -⟩ := user_keeps_privilege_or_enters huser (programOf 0xEF000000) {}
  refine ⟨write (by decide), ?_, ?_⟩
  · exact load (.decode 0xE8D08002) ⟨.post, .up, true, false, .load, 0, 0x8002⟩ (by decide)
      (by decide) rfl (by decide)
  · obtain hkept | ⟨kind, hcause, hhandling⟩ := call
    · exact absurd hkept.mode (by decide)
    · cases hcause
      exact hhandling

/-! ### Two runs -/

/-- The rest is hidden, or starts over with the step. -/
theorem step_of_sameForUser {cpu cpu' : Cpu} (h : SameForUser cpu cpu') (bus : β)
    (lines : InterruptLines) :
    cpu'.step bus lines = (cpu.withHidden cpu'.hidden).step bus lines := by
  have hbegun : cpu'.beginStep = (cpu.withHidden cpu'.hidden).beginStep := by
    show ({ cpu' with extraCycles := 0, flushed := false } : Cpu) = _
    rw [h.registers, h.cpsr]
    rfl
  unfold step
  rw [hbegun]

/-- From User mode, two processors that differ only in what is hidden make the same accesses
to the bus, leave the same bus and take the same time. Both start the same handler, or a User
program still cannot tell them apart and what is hidden in each of them is what it was. -/
theorem user_steps_alike {cpu cpu' : Cpu} (huser : cpu.cpsr.mode = .user)
    (hsame : SameForUser cpu cpu') (bus : β) (lines : InterruptLines) :
    let after := (cpu.step bus lines).2.1
    let after' := (cpu'.step bus lines).2.1
    cpu'.accesses bus lines = cpu.accesses bus lines ∧
    (cpu'.step bus lines).2.2 = (cpu.step bus lines).2.2 ∧
    (cpu'.step bus lines).1 = (cpu.step bus lines).1 ∧
    ((∃ kind, Handling kind cpu.cpsr after ∧ Handling kind cpu.cpsr after') ∨
      SameForUser after after' ∧ after.hidden = cpu.hidden ∧ after'.hidden = cpu'.hidden) := by
  have hstep := (userStep huser bus lines).alike cpu.hidden cpu'.hidden
  rw [withHidden_hidden] at hstep
  -- The same argument over the bus that keeps a record shows that the records are equal.
  have hrecorded := (userStep huser (Recorded.blank bus) lines).alike cpu.hidden cpu'.hidden
  rw [withHidden_hidden] at hrecorded
  have haccesses : cpu'.accesses bus lines = cpu.accesses bus lines := by
    unfold accesses
    rw [step_of_sameForUser hsame, hrecorded.bus]
  rw [step_of_sameForUser hsame]
  exact ⟨haccesses, hstep.bus, hstep.cycles, hstep.ends⟩

/-- The same program with other values in every privileged register. -/
def withOtherBanks : Cpu :=
  let banked : BankedRegisters := ⟨0x1111, 0x2222, ⟨0xF000001F⟩⟩
  atZero.withHidden
    { spsr := ⟨0x3333⟩
      bank := ⟨banked, banked, banked, banked, banked, banked, Vector.replicate 5 0x4444,
        Vector.replicate 5 0x5555⟩ }

/-- `STMIA R0, {SP, LR}^` stores the User registers, and no others get out. -/
theorem user_steps_alike_storing :
    let run := atZero.step (programOf 0xE8C06000) {}
    let run' := withOtherBanks.step (programOf 0xE8C06000) {}
    withOtherBanks.accesses (programOf 0xE8C06000) {} =
        atZero.accesses (programOf 0xE8C06000) {} ∧
      run'.2.2 = run.2.2 ∧ run'.1 = run.1 ∧ SameForUser run.2.1 run'.2.1 ∧
      run'.2.1.hidden = withOtherBanks.hidden := by
  have huser : atZero.cpsr.mode = .user := by decide
  have hsame : SameForUser atZero withOtherBanks := ⟨rfl, rfl⟩
  obtain ⟨haccesses, hbus, hcycles, hends⟩ := user_steps_alike huser hsame (programOf 0xE8C06000) {}
  obtain ⟨kind, hhandling, -⟩ | ⟨halike, -, hhidden⟩ := hends
  · have hmode := hhandling.mode
    cases kind <;> exact absurd hmode (by decide)
  · exact ⟨haccesses, hbus, hcycles, halike, hhidden⟩

end Cpu

end AdvanceCore
