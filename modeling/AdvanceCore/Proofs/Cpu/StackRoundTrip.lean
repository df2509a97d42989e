import AdvanceCore.Proofs.Bus.RejectedStores
import AdvanceCore.Proofs.Bus.WordRuns
import AdvanceCore.Proofs.Cpu.StepOutcomes
import Mathlib.Order.Fin.Basic

/-!
# `AdvanceCore.Proofs.Cpu.StackRoundTrip`: register lists put down and taken back

A program saves registers by a list store and takes them back by a list load. There are four
kinds of stack, full or empty and growing either way, and for each the two instructions have to
agree on where the words are and on how far the base has moved. They name different modes for
it: what was stored with the offset applied before, going down, is loaded with the offset
applied after, going up.

The four modes differ in the first address and in the new base only. So the agreement is two
facts about numbers, `Offsetting.apply_other` and `blockStart_undo`, and everything else is one
argument for all modes: the words are stored at the addresses that the load begins with
(`storeBlock_ram`), and a load of the words that are there writes every register of the list and
then the base as they were (`loadBlock_ram`).

* `BlockTransfer.undo`: the load that takes back what a store puts down.
* `BlockTransfer.Stacks`: the stores that can be taken back.
* `RoundTrip`: what is in the memory in between, and what is left in the end.
* `roundTrip_of_stacks`: every mode, every list and every base, and PUSH with POP among them.
-/

set_option autoImplicit false

namespace AdvanceCore

/-! ### The load that undoes a store -/

/-- Before the access instead of after it, or after it instead of before. -/
def Indexing.other : Indexing → Indexing
  | .post => .pre
  | .pre => .post

/-- The opposite direction. -/
def Offsetting.other : Offsetting → Offsetting
  | .down => .up
  | .up => .down

/-- Going back by an offset undoes going by it, wrap-around included. -/
theorem Offsetting.apply_other (o : Offsetting) (base offset : Word) :
    o.other.apply (o.apply base offset) offset = base := by
  cases o with
  | down => exact BitVec.sub_add_cancel base offset
  | up => exact BitVec.add_sub_cancel base offset

namespace BlockTransfer

/-- The load that takes back what a store has put down. The base goes the way back, and where the
offset was applied before an access it is now applied after it. -/
def undo (t : BlockTransfer) : BlockTransfer :=
  { t with indexing := t.indexing.other, offsetting := t.offsetting.other, direction := .load }

/-- A store of live registers that keeps track of the base and does not store it, nor R15. -/
structure Stacks (t : BlockTransfer) : Prop where
  store : t.direction = .store
  live : t.statusBit = false
  writeBack : t.writeBack = true
  nonempty : t.registers ≠ 0
  base : t.base ∉ RegisterId.ofList t.registers
  pc : .pc ∉ RegisterId.ofList t.registers

end BlockTransfer

namespace Cpu

/-- The base after a store and the base before it lead to the same first word. -/
theorem blockStart_undo (t : BlockTransfer) (base : Word) :
    blockStart t.undo (t.offsetting.apply base (blockSize t)) = blockStart t base := by
  have hsize : blockSize t.undo = blockSize t := rfl
  obtain ⟨indexing, offsetting, statusBit, writeBack, direction, r, registers⟩ := t
  -- After a store downwards the load begins at the new base, and after one upwards it goes down
  -- again first.
  cases offsetting with
  | down => cases indexing <;> rfl
  | up =>
    cases indexing with
    | post => exact BitVec.add_sub_cancel ..
    | pre => exact congrArg (· + 4) (BitVec.add_sub_cancel ..)

/-- The list of such a transfer is not empty, so it is what it says. -/
theorem blockRegisters_of_stacks {t : BlockTransfer} (h : t.Stacks) :
    blockRegisters t = RegisterId.ofList t.registers :=
  if_neg h.nonempty

/-- A push without the link register, and the pop without R15 that undoes it. -/
theorem undo_pushTransfer (list : Byte) :
    (pushTransfer list false).undo = popTransfer list false := by
  have hclear (i : Nat) (hi : 8 ≤ i) (hi' : i < 16) :
      Bits.setBit (list.setWidth 16 : Half) i false = list.setWidth 16 := by
    have hbit : (list.setWidth 16 : Half).getLsbD i = false := by
      rw [BitVec.getLsbD_setWidth, BitVec.getLsbD_of_ge list i hi, Bool.and_false]
    rw [← hbit]
    exact Bits.setBit_getLsbD _ hi'
  unfold pushTransfer popTransfer
  rw [hclear 14 (by decide) (by decide), hclear 15 (by decide) (by decide)]
  rfl

/-! ### What the two instructions change -/

/-- The processor is the same but for live registers and for what belongs to the step in
progress. -/
def LiveOnly (before after : Cpu) : Prop :=
  after =
    { before with
      registers := after.registers
      extraCycles := after.extraCycles
      flushed := after.flushed }

/-- Two changes of live registers are one. -/
theorem LiveOnly.trans {before middle after : Cpu} (h : LiveOnly before middle)
    (h' : LiveOnly middle after) : LiveOnly before after := by
  unfold LiveOnly at *
  rw [h', h]

/-- The status stays. -/
theorem LiveOnly.cpsr {before after : Cpu} (h : LiveOnly before after) :
    after.cpsr = before.cpsr := by
  unfold LiveOnly at h
  rw [h]

/-- The stored registers of the other modes stay. -/
theorem LiveOnly.bank {before after : Cpu} (h : LiveOnly before after) :
    after.bank = before.bank := by
  unfold LiveOnly at h
  rw [h]

/-- Writing a register changes a live one only. -/
theorem liveOnly_writeRegister (cpu : Cpu) (r : RegisterId) (value : Word) :
    LiveOnly cpu (cpu.writeRegister r value) := by
  unfold writeRegister LiveOnly
  dsimp only
  split <;> rfl

/-- Taking the words of a list without the S bit changes live registers only. -/
theorem liveOnly_foldl_takeWord (cpu : Cpu) (mode : Mode) (words : List (RegisterId × Word)) :
    LiveOnly cpu (words.foldl (takeWord false mode) cpu) := by
  induction words generalizing cpu with
  | nil => rfl
  | cons word rest ih => exact (cpu.liveOnly_writeRegister word.1 word.2).trans (ih _)

/-- A register that is written holds what was written, R15 included. -/
theorem register_writeRegister_self (cpu : Cpu) (r : RegisterId) (value : Word) :
    (cpu.writeRegister r value).register r = value := by
  have hset : (cpu.setRegister r value).register r = value := cpu.registers.get_set_self r value
  unfold writeRegister
  dsimp only
  split
  · exact hset
  · exact hset

/-- Every register of a list takes the word for it, and the others are kept. -/
theorem register_foldl_zip_map (cpu : Cpu) (mode : Mode) (list : List RegisterId)
    (value : RegisterId → Word) (r : RegisterId) :
    ((list.zip (list.map value)).foldl (takeWord false mode) cpu).register r =
      if r ∈ list then value r else cpu.register r := by
  induction list generalizing cpu with
  | nil => rfl
  | cons first rest ih =>
    have hfirst := ih (cpu.writeRegister first (value first))
    show ((rest.zip (rest.map value)).foldl (takeWord false mode)
      (cpu.writeRegister first (value first))).register r = _
    rw [hfirst]
    -- The word goes by the register, so it does not matter which of its places is the last.
    by_cases hrest : r ∈ rest
    · rw [if_pos hrest, if_pos (List.mem_cons_of_mem first hrest)]
    · rw [if_neg hrest]
      by_cases hr : r = first
      · subst hr
        rw [if_pos List.mem_cons_self]
        exact cpu.register_writeRegister_self r _
      · have hnot : r ∉ first :: rest := by
          rw [List.mem_cons]
          exact not_or_intro hr hrest
        rw [if_neg hnot]
        exact cpu.register_writeRegister _ (Ne.symm hr)

/-- The processor is the same but for what belongs to the step in progress. -/
def SameState (before after : Cpu) : Prop :=
  after = { before with extraCycles := after.extraCycles, flushed := after.flushed }

/-- If no live register has changed either, nothing has. -/
theorem LiveOnly.sameState {before after : Cpu} (h : LiveOnly before after)
    (hregisters : ∀ r, after.register r = before.register r) : SameState before after := by
  have hfile : after.registers = before.registers := Registers.ext_get hregisters
  unfold LiveOnly at h
  rw [hfile] at h
  exact h

/-! ### Down and back -/

variable {β κ : Type} [MemoryBus β] {addressed : Word → Prop}

/-- What a list store does to a memory, and what becomes of the processor if the list is then
loaded, from wherever the listed registers have got to. The words of the list are consecutive,
the lowest register in the lowest. -/
structure RoundTrip (ram : RamWords β κ addressed) (t : BlockTransfer)
    (store load : Cpu → β → Cpu × β) (cpu : Cpu) (bus : β) : Prop where
  /-- The words hold the registers of the list. -/
  holds : ram.Holds (store cpu bus).2 (blockStart t (cpu.register t.base))
    ((RegisterId.ofList t.registers).map cpu.register)
  /-- No other byte of the memory has changed. -/
  outside : ram.KeptOutside bus (store cpu bus).2 (blockStart t (cpu.register t.base))
    (RegisterId.ofList t.registers).length
  /-- The base has moved past the words. -/
  moved : (store cpu bus).1.register t.base =
    t.offsetting.apply (cpu.register t.base)
      (BitVec.ofNat 32 (4 * (RegisterId.ofList t.registers).length))
  /-- Whatever is in the listed registers by then, the load leaves the processor as it was before
  the store, and the memory as it was after it. -/
  restored : ∀ changed : Registers,
    (∀ r ∉ RegisterId.ofList t.registers, changed.get r = (store cpu bus).1.register r) →
    let back := load { (store cpu bus).1 with registers := changed } (store cpu bus).2
    SameState cpu back.1 ∧ ram.byte back.2 = ram.byte (store cpu bus).2

/-- A transfer that stores is a list store. -/
theorem transferBlock_of_store {t : BlockTransfer} (h : t.direction = .store) (cpu : Cpu)
    (bus : β) : cpu.transferBlock bus t = cpu.storeBlock bus t := by
  unfold transferBlock
  rw [h]

/-- A transfer that loads is a list load. -/
theorem transferBlock_of_load {t : BlockTransfer} (h : t.direction = .load) (cpu : Cpu)
    (bus : β) : cpu.transferBlock bus t = cpu.loadBlock bus t := by
  unfold transferBlock
  rw [h]

section Instructions

variable (ram : RamWords β κ addressed) {t : BlockTransfer} (h : t.Stacks) (cpu : Cpu) (bus : β)
include h

/-- Sixteen words are far from wrapping around the address space. -/
theorem length_ofList_lt : (RegisterId.ofList t.registers).length < 2 ^ 30 := by
  have hle := length_blockRegisters_le t
  rw [blockRegisters_of_stacks h] at hle
  omega

/-- The store is not given up, and its list is stored as it is. -/
theorem storeBlock_ram
    (hcovers : ∀ k < (RegisterId.ofList t.registers).length,
      addressed (wordAddress (blockStart t (cpu.register t.base)) k)) :
    ∃ bus', cpu.storeBlock bus t =
        ((cpu.spend (RegisterId.ofList t.registers).length).writeRegister t.base
          (t.offsetting.apply (cpu.register t.base) (blockSize t)), bus') ∧
      ram.Holds bus' (blockStart t (cpu.register t.base))
        ((RegisterId.ofList t.registers).map cpu.register) ∧
      ram.KeptOutside bus bus' (blockStart t (cpu.register t.base))
        (RegisterId.ofList t.registers).length := by
  let list := RegisterId.ofList t.registers
  -- The base and R15 are stored in other ways than the rest, and neither is in the list.
  have hvalues : list.map (cpu.listedValue t) = list.map cpu.register := by
    refine List.map_congr_left fun r hr => ?_
    have hbase : ¬ (r = t.base ∧ t.writeBack ∧ (blockRegisters t).head? ≠ some r) :=
      fun hstored => h.base (hstored.1 ▸ hr)
    have hpc : r ≠ .pc := fun hr_pc => h.pc (hr_pc ▸ hr)
    unfold listedValue storedRegister
    rw [if_neg hbase, h.live, if_neg Bool.false_ne_true, if_neg hpc]
  have hlength : (list.map cpu.register).length = list.length := List.length_map _
  obtain ⟨bus', hrun, hholds, houtside⟩ := ram.storeWords_ram bus
    (hlength ▸ length_ofList_lt h) (hlength ▸ hcovers)
  rw [hlength] at hrun houtside
  refine ⟨bus', ?_, hholds, houtside⟩
  have hnewBase : cpu.blockBase? t =
      some (t.base, t.offsetting.apply (cpu.register t.base) (blockSize t)) := if_pos h.writeBack
  rw [storeBlock_eq, blockRegisters_of_stacks h, hvalues, hnewBase]
  dsimp only
  rw [hrun]
  rfl

omit ram cpu in
/-- The undone transfer takes its words from where the list was stored, and ends at the old base. -/
theorem loadBlock_undo {stacked : Cpu} {base : Word} {words : List Word} {bus' : β}
    (hbase : stacked.register t.base = t.offsetting.apply base (blockSize t))
    (hrun : loadWords bus (blockStart t base) (RegisterId.ofList t.registers).length =
      (⟨(RegisterId.ofList t.registers).length, words⟩, bus'))
    (hlength : words.length = (RegisterId.ofList t.registers).length) :
    stacked.loadBlock bus t.undo =
      (((RegisterId.ofList t.registers).zip words).foldl (takeWord false stacked.cpsr.mode)
        ((stacked.writeRegister t.base base).spend (RegisterId.ofList t.registers).length),
        bus') := by
  have hregisters : blockRegisters t.undo = RegisterId.ofList t.registers := if_neg h.nonempty
  have hstart : blockStart t.undo (stacked.register t.undo.base) = blockStart t base := by
    show blockStart t.undo (stacked.register t.base) = _
    rw [hbase, blockStart_undo]
  have hreturns :
      t.undo.offsetting.apply (stacked.register t.base) (blockSize t.undo) = base := by
    rw [hbase]
    exact t.offsetting.apply_other base (blockSize t)
  have hnewBase : stacked.blockBase? t.undo = some (t.base, base) := by
    refine (if_pos h.writeBack).trans ?_
    exact congrArg (fun value => some (t.base, value)) hreturns
  have hbit : t.undo.statusBit = false := h.live
  have huser : loadsUser t.undo = false := by
    unfold loadsUser
    rw [hbit, Bool.false_and]
  rw [loadBlock_eq, hregisters, hstart, hnewBase, huser]
  dsimp only
  -- All words arrive, and without the S bit nothing else is restored.
  rw [hrun, if_neg (by rw [hlength]; exact Nat.lt_irrefl _), hbit, Bool.false_and,
    if_neg Bool.false_ne_true]
  rfl

/-- A load of the words that are there gives the listed registers these words, and moves the base
back. -/
theorem loadBlock_ram {stacked : Cpu} {value : RegisterId → Word} {base : Word}
    (hbase : stacked.register t.base = t.offsetting.apply base (blockSize t))
    (hcovers : ∀ k < (RegisterId.ofList t.registers).length,
      addressed (wordAddress (blockStart t base) k))
    (hholds : ram.Holds bus (blockStart t base) ((RegisterId.ofList t.registers).map value)) :
    let back := stacked.loadBlock bus t.undo
    LiveOnly stacked back.1 ∧ ram.byte back.2 = ram.byte bus ∧
      ∀ r, back.1.register r =
        if r ∈ RegisterId.ofList t.registers then value r
        else if r = t.base then base else stacked.register r := by
  let list := RegisterId.ofList t.registers
  let based := (stacked.writeRegister t.base base).spend list.length
  have hlength : (list.map value).length = list.length := List.length_map _
  obtain ⟨bus', hrun, hsame⟩ := ram.loadWords_ram bus (hlength ▸ hcovers) hholds
  rw [hlength] at hrun
  intro back
  have hback : back = ((list.zip (list.map value)).foldl (takeWord false stacked.cpsr.mode) based,
      bus') := loadBlock_undo h bus hbase hrun hlength
  rw [hback]
  refine ⟨?_, hsame, fun r => ?_⟩
  · have hmoved : LiveOnly stacked based := (stacked.liveOnly_writeRegister t.base base).trans rfl
    exact hmoved.trans (based.liveOnly_foldl_takeWord _ _)
  · refine (based.register_foldl_zip_map _ list value r).trans ?_
    show (if r ∈ list then value r else (stacked.writeRegister t.base base).register r) = _
    -- The base is not listed, so its write-back is not overwritten by a word of the list.
    by_cases hr : r = t.base
    · rw [hr, register_writeRegister_self, if_pos rfl]
    · rw [if_neg hr, stacked.register_writeRegister base (Ne.symm hr)]

/-- What is stored and then loaded is what there was, wherever the two list transfers come from. -/
theorem roundTrip_of_blocks {store load : Cpu → β → Cpu × β}
    (hstore : ∀ cpu bus, store cpu bus = cpu.storeBlock bus t)
    (hload : ∀ cpu bus, load cpu bus = cpu.loadBlock bus t.undo)
    (hcovers : ∀ k < (RegisterId.ofList t.registers).length,
      addressed (wordAddress (blockStart t (cpu.register t.base)) k)) :
    RoundTrip ram t store load cpu bus := by
  let list := RegisterId.ofList t.registers
  let newBase := t.offsetting.apply (cpu.register t.base) (blockSize t)
  let stacked := (cpu.spend list.length).writeRegister t.base newBase
  obtain ⟨bus', hstored, hholds, houtside⟩ := storeBlock_ram ram h cpu bus hcovers
  have hfirst : store cpu bus = (stacked, bus') := (hstore cpu bus).trans hstored
  have hmoved : stacked.register t.base = newBase := register_writeRegister_self ..
  have hsize : blockSize t = BitVec.ofNat 32 (4 * list.length) := by
    unfold blockSize
    rw [if_neg h.nonempty, blockRegisters_of_stacks h]
  constructor
  · rw [hfirst]
    exact hholds
  · rw [hfirst]
    exact houtside
  · rw [hfirst, ← hsize]
    exact hmoved
  · intro changed hchanged back
    rw [hfirst] at hchanged
    let next : Cpu := { stacked with registers := changed }
    have hback : back = next.loadBlock bus' t.undo := by
      show load { (store cpu bus).1 with registers := changed } (store cpu bus).2 = _
      rw [hfirst, hload]
    have hbase : next.register t.base = newBase := (hchanged t.base h.base).trans hmoved
    obtain ⟨hlive, hsame, hregisters⟩ := loadBlock_ram ram h bus' hbase hcovers hholds
    rw [hback, hfirst]
    refine ⟨LiveOnly.sameState ?_ fun r => ?_, hsame⟩
    · -- From the store on, nothing but live registers has changed.
      have hspent : LiveOnly cpu (cpu.spend list.length) := rfl
      have hstacked : LiveOnly cpu stacked := hspent.trans (liveOnly_writeRegister ..)
      have hnext : LiveOnly stacked next := rfl
      exact (hstacked.trans hnext).trans hlive
    · rw [hregisters]
      split
      · rfl
      split
      · next hr => rw [hr]
      · next hlisted hr =>
        -- A register that is neither in the list nor the base has not been touched at all.
        refine (hchanged r hlisted).trans ?_
        exact register_writeRegister _ _ (Ne.symm hr)

/-- A list store is undone by the list load with the opposite mode, whatever happens to the listed
registers in between: with any base, aligned or not and at either end of the address space, on any
memory in which the words of the list can be stored and read back. A push and the pop of its list
are a case of this. -/
theorem roundTrip_of_stacks
    (hcovers : ∀ k < (RegisterId.ofList t.registers).length,
      addressed (wordAddress (blockStart t (cpu.register t.base)) k)) :
    RoundTrip ram t (fun c b => c.performArm b (.blockTransfer t))
        (fun c b => c.performArm b (.blockTransfer t.undo)) cpu bus ∧
      ∀ list : Byte, t = pushTransfer list false →
        RoundTrip ram t (fun c b => c.performThumb b (.push list false))
          (fun c b => c.performThumb b (.pop list false)) cpu bus := by
  have hstore (c : Cpu) (b : β) : c.transferBlock b t = c.storeBlock b t :=
    transferBlock_of_store h.store c b
  refine ⟨roundTrip_of_blocks ram h cpu bus hstore (fun _ _ => rfl) hcovers, ?_⟩
  intro list hpush
  have hpop : t.undo = popTransfer list false := by
    rw [hpush, undo_pushTransfer]
  refine roundTrip_of_blocks ram h cpu bus (fun c b => ?_) (fun c b => ?_) hcovers
  · rw [← hstore, hpush]
    rfl
  · rw [hpop]
    rfl

end Instructions

/-- The registers of a push are low ones, so SP and R15 are not among them. -/
theorem stacks_pushTransfer {list : Byte} (h : list ≠ 0) : (pushTransfer list false).Stacks := by
  -- A push without the link lists low registers only.
  have hbits (i : Nat) : (pushTransfer list false).registers.getLsbD i = list.getLsbD i := by
    show (Bits.setBit (list.setWidth 16 : Half) 14 false).getLsbD i = _
    rw [Bits.getLsbD_setBit _ _ _ _ (by decide), BitVec.getLsbD_setWidth]
    split
    · next hi => rw [hi, BitVec.getLsbD_of_ge list 14 (by decide)]
    · by_cases hi : i < 16
      · rw [decide_eq_true hi, Bool.true_and]
      · rw [decide_eq_false hi, Bool.false_and, BitVec.getLsbD_of_ge list i (by omega)]
  have hhigh (r : RegisterId) (hr : 8 ≤ r.val) :
      r ∉ RegisterId.ofList (pushTransfer list false).registers := by
    intro hmem
    have hbit := (List.mem_filter.mp hmem).2
    rw [hbits, BitVec.getLsbD_of_ge list r.val hr] at hbit
    cases hbit
  refine ⟨rfl, rfl, rfl, fun hempty => h ?_, hhigh .sp (by decide), hhigh .pc (by decide)⟩
  refine BitVec.eq_of_getLsbD_eq fun i _ => ?_
  rw [← hbits, hempty]
  rfl

/-- `PUSH {R0, R1, R4}` and `POP {R0, R1, R4}` with the stack at the top of the internal work
RAM. -/
theorem roundTrip_of_stacks_push :
    RoundTrip (internalRamWords NoPeripheral) (pushTransfer 0x13 false)
      (fun c b => c.performThumb b (.push 0x13 false))
      (fun c b => c.performThumb b (.pop 0x13 false))
      (numbered.setRegister .sp 0x03007F00) .blank := by
  have hstacks : (pushTransfer 0x13 false).Stacks := stacks_pushTransfer (by decide)
  exact (roundTrip_of_stacks (internalRamWords NoPeripheral) hstacks
    (numbered.setRegister .sp 0x03007F00) .blank (by decide)).2 0x13 rfl

end Cpu

end AdvanceCore
