import AdvanceCore.Arm.Execute
import AdvanceCore.Proofs.Alu.Sums

/-!
# `AdvanceCore.Proofs.Alu.CarryChains`: arithmetic on numbers of many words

A number longer than a word is added word by word, from the lowest up. The first instruction
ignores C, and each one after it takes the C that the one before it has left. In between the
program brings in the next pair of words, by any code that leaves C alone.

* `limbs`: the words of a long number.
* `OperandLoader`, `Cpu.runLimbs`: a program that works through pairs of words.
* `Chain`: the three kinds of chains, by what they put into the adder.
* `isSum_runLimbs`: a chain of any length is one long adder. The induction is on the number of
  words, from the lowest up, with the carry into the chain as a parameter.
* `carry_chains_compute`: sums, differences and reverse differences, with their flags.
-/

set_option autoImplicit false

namespace AdvanceCore

/-! ### Long numbers -/

/-- The words of a number, the lowest first. -/
def limbs {n : Nat} (x : BitVec (32 * n)) : List Word :=
  List.ofFn fun i : Fin n => x.extractLsb' (32 * i.val) 32

/-- A word is a number of one limb. -/
theorem limbs_word (x : Word) : limbs (n := 1) x = [x] := by
  show [x.extractLsb' 0 32] = [x]
  rw [BitVec.extractLsb'_eq_self]

/-- The lowest word comes before the words of what is above it. -/
theorem limbs_append {n : Nat} (high : BitVec (32 * n)) (low : Word) :
    limbs (n := n + 1) (high ++ low) = low :: limbs high := by
  have hhigh (i : Fin n) :
      (high ++ low).extractLsb' (32 * (i.val + 1)) 32 = high.extractLsb' (32 * i.val) 32 := by
    refine BitVec.eq_of_getLsbD_eq fun j hj => ?_
    have hplace : 32 * (i.val + 1) + j - 32 = 32 * i.val + j := by omega
    have habove : ¬ 32 * (i.val + 1) + j < 32 := by omega
    rw [BitVec.getLsbD_extractLsb', BitVec.getLsbD_extractLsb', BitVec.getLsbD_append,
      if_neg habove, hplace]
  -- The limbs of the high part all lie one place further up.
  unfold limbs
  rw [List.ofFn_succ]
  exact congr (congrArg List.cons BitVec.extractLsb'_append_eq_right)
    (congrArg List.ofFn (funext hhigh))

/-- A number of one more word is a word below a number. -/
theorem exists_append {n : Nat} (x : BitVec (32 * (n + 1))) :
    ∃ (high : BitVec (32 * n)) (low : Word), x = (high ++ low : BitVec (32 * n + 32)) :=
  ⟨x.extractLsb' 32 (32 * n), x.extractLsb' 0 32,
    (BitVec.extractLsb'_append_extractLsb' (w := 32 * n)).symm⟩

/-! ### Programs -/

/-- Code that brings a pair of words to the operands of an instruction and leaves C alone. -/
structure OperandLoader where
  /-- The register of the first operand. -/
  rn : RegisterId
  /-- The second operand. -/
  operand : Arm.Operand
  /-- What the code makes of the processor. -/
  load : Cpu → Word → Word → Cpu
  first_load (cpu : Cpu) (x y : Word) : (load cpu x y).operandRegister operand rn = x
  second_load (cpu : Cpu) (x y : Word) : ((load cpu x y).secondOperand operand).value = y
  carry_load (cpu : Cpu) (x y : Word) : (load cpu x y).cpsr.carry = cpu.cpsr.carry

/-- Two loads into registers. -/
def OperandLoader.intoRegisters (rn rm : RegisterId) (h : rm ≠ rn) : OperandLoader where
  rn := rn
  operand := .register rm .lsl (.immediate 0)
  load cpu x y := (cpu.setRegister rn x).setRegister rm y
  first_load cpu x y := by
    show ((cpu.registers.set rn x).set rm y).get rn = x
    rw [Registers.get_set_of_ne _ _ h, Registers.get_set_self]
  second_load cpu x y := Registers.get_set_self ..
  carry_load _ _ _ := rfl

namespace Cpu

/-- One instruction of a chain, with the loads before it. -/
def link (cpu : Cpu) (loader : OperandLoader) (rd : RegisterId) (op : Arm.AluOp) (x y : Word) :
    Cpu :=
  (loader.load cpu x y).dataProcessing ⟨op, true, loader.rn, rd, loader.operand⟩

/-- Works through pairs of words, with `op` for the first and `next` for the others. Every result
is read from `rd` before the next pair is loaded. -/
def runLimbs (loader : OperandLoader) (rd : RegisterId) (next : Arm.AluOp) (op : Arm.AluOp)
    (cpu : Cpu) : List (Word × Word) → List Word × Cpu
  | [] => ([], cpu)
  | (x, y) :: rest =>
    let done := cpu.link loader rd op x y
    let (words, last) := runLimbs loader rd next next done rest
    (done.register rd :: words, last)

end Cpu

/-! ### The three kinds of chains -/

/-- The chains, by what they compute. -/
inductive Chain where
  | sum
  | difference
  /-- The first number taken from the second. -/
  | reverse
  deriving DecidableEq, Repr

namespace Chain

variable {w : Nat}

/-- The first operand of the adder. -/
def left (chain : Chain) (x y : BitVec w) : BitVec w :=
  match chain with
  | .sum | .difference => x
  | .reverse => y

/-- The second operand of the adder: a subtraction adds the complement. -/
def right (chain : Chain) (x y : BitVec w) : BitVec w :=
  match chain with
  | .sum => y
  | .difference => ~~~y
  | .reverse => ~~~x

/-- The carry into the lowest word: a complement lacks one to the negative number. -/
def carryIn : Chain → Bool
  | .sum => false
  | .difference | .reverse => true

/-- The operation that begins a chain. -/
def first : Chain → Arm.AluOp
  | .sum => .add
  | .difference => .sub
  | .reverse => .rsb

/-- The operation that continues a chain. -/
def next : Chain → Arm.AluOp
  | .sum => .adc
  | .difference => .sbc
  | .reverse => .rsc

/-- The first operands of two parts of a chain are those of the whole. -/
theorem left_append (chain : Chain) {m n : Nat} (x y : BitVec m) (x' y' : BitVec n) :
    chain.left (x' ++ x) (y' ++ y) = chain.left x' y' ++ chain.left x y := by
  cases chain <;> rfl

/-- The second operands of two parts of a chain are those of the whole. -/
theorem right_append (chain : Chain) {m n : Nat} (x y : BitVec m) (x' y' : BitVec n) :
    chain.right (x' ++ x) (y' ++ y) = chain.right x' y' ++ chain.right x y := by
  cases chain with
  | sum => rfl
  | difference => exact BitVec.not_append
  | reverse => exact BitVec.not_append

/-- `op` gives the operands of a chain to the adder, with a carry that it takes from C. -/
def Adds (chain : Chain) (op : Arm.AluOp) (carryIn : Bool → Bool) : Prop :=
  op.isTest = false ∧ ∀ x y c,
    Arm.arithmeticResult? op x y c =
      some (addWithCarry (chain.left x y) (chain.right x y) (carryIn c))

/-- The first instruction of a chain begins with the carry that the chain asks for. -/
theorem adds_first (chain : Chain) : chain.Adds chain.first fun _ => chain.carryIn := by
  cases chain <;> exact ⟨rfl, fun _ _ _ => rfl⟩

/-- Every other one takes the carry that the one before has left. -/
theorem adds_next (chain : Chain) : chain.Adds chain.next id := by
  cases chain <;> exact ⟨rfl, fun _ _ _ => rfl⟩

end Chain

/-! ### Runs -/

/-- A run has left a long number, word by word, in its results, and in the flags the carry and the
overflow that go with it and its top bit. -/
structure Computed {n : Nat} (run : List Word × Cpu) (value : BitVec (32 * n))
    (carry overflow : Bool) : Prop where
  words : run.1 = limbs value
  carry : run.2.cpsr.carry = carry
  sign : run.2.cpsr.sign = value.msb
  overflow : run.2.cpsr.overflow = overflow

section Runs

variable (loader : OperandLoader) {rd : RegisterId} {chain : Chain} {op : Arm.AluOp}
  {carryIn : Bool → Bool}

/-- One link is one use of the adder. -/
theorem computed_link (hrd : rd ≠ .pc) (hop : chain.Adds op carryIn) (cpu : Cpu) (x y : Word) :
    let sum := addWithCarry (chain.left x y) (chain.right x y) (carryIn cpu.cpsr.carry)
    let done := cpu.link loader rd op x y
    Computed (n := 1) ([done.register rd], done) sum.value sum.carry sum.overflow := by
  intro sum done
  have hsum : Arm.arithmeticResult? op
      ((loader.load cpu x y).operandRegister loader.operand loader.rn)
      ((loader.load cpu x y).secondOperand loader.operand).value
      (loader.load cpu x y).cpsr.carry = some sum := by
    -- The loads leave C alone, so the adder takes it as the link before has left it.
    rw [loader.first_load, loader.second_load, loader.carry_load]
    exact hop.2 x y cpu.cpsr.carry
  have hdone : done = _ := Cpu.dataProcessing_sum (loader.load cpu x y) hrd hop.1 hsum
  rw [hdone]
  refine ⟨?_, Psr.carry_withFlags .., Psr.sign_withFlags .., Psr.overflow_withFlags ..⟩
  rw [limbs_word]
  exact congrArg (fun word => [word]) (Registers.get_set_self ..)

/-- A chain is one adder as wide as all of its words. -/
theorem isSum_runLimbs (hrd : rd ≠ .pc) (hop : chain.Adds op carryIn) {n : Nat}
    (x y : BitVec (32 * (n + 1))) (cpu : Cpu) :
    ∃ value carry overflow,
      Computed (Cpu.runLimbs loader rd chain.next op cpu ((limbs x).zip (limbs y)))
        value carry overflow ∧
      IsSum (chain.left x y) (chain.right x y) (carryIn cpu.cpsr.carry) value carry overflow := by
  -- After the first link the chain goes on with another operation and from another state.
  induction n generalizing op carryIn cpu with
  | zero =>
    have hpair : (limbs x).zip (limbs y) = [((x : Word), (y : Word))] := by
      rw [limbs_word, limbs_word]
      rfl
    rw [hpair]
    exact ⟨_, _, _, computed_link loader hrd hop cpu x y, isSum_addWithCarry ..⟩
  | succ n ih =>
    obtain ⟨xHigh, xLow, rfl⟩ := exists_append x
    obtain ⟨yHigh, yLow, rfl⟩ := exists_append y
    have low := computed_link loader hrd hop cpu xLow yLow
    have hpairs : (limbs (n := n + 2) (xHigh ++ xLow)).zip (limbs (n := n + 2) (yHigh ++ yLow)) =
        (xLow, yLow) :: (limbs xHigh).zip (limbs yHigh) := by
      rw [limbs_append, limbs_append, List.zip_cons_cons]
    obtain ⟨value, carry, overflow, high, hsum⟩ :=
      ih chain.adds_next xHigh yHigh (cpu.link loader rd op xLow yLow)
    -- The rest of the chain takes the carry that the lowest words have left.
    rw [id, low.carry] at hsum
    rw [hpairs]
    refine ⟨value ++ (addWithCarry (chain.left xLow yLow) (chain.right xLow yLow)
      (carryIn cpu.cpsr.carry)).value, carry, overflow, ⟨?_, high.carry, ?_, high.overflow⟩, ?_⟩
    · have hword : [(cpu.link loader rd op xLow yLow).register rd] = [_] :=
        low.words.trans (limbs_word _)
      rw [limbs_append, ← high.words]
      exact congrArg (· ++ _) hword
    · refine high.sign.trans ?_
      rw [BitVec.msb_append, if_neg (by simp)]
    · rw [chain.left_append, chain.right_append]
      exact (isSum_addWithCarry ..).append (by omega) hsum

end Runs

/-! ### Whole chains -/

/-- Chains over numbers of any length, with any loader and any destination but R15. ADDS with ADCS
leaves the words of the sum, SUBS with SBCS those of the difference, and RSBS with RSCS those of
the difference the other way round. C is the carry of the sum, and after a difference it says
that nothing is borrowed. N and V go with the signed numbers. The flags before the chain do
not matter. -/
theorem carry_chains_compute (loader : OperandLoader) {rd : RegisterId} (hrd : rd ≠ .pc)
    (cpu : Cpu) {n : Nat} (hn : 0 < n) (x y : BitVec (32 * n)) :
    let run (op next : Arm.AluOp) :=
      Cpu.runLimbs loader rd next op cpu ((limbs x).zip (limbs y))
    Computed (run .add .adc) (x + y) (decide (2 ^ (32 * n) ≤ x.toNat + y.toNat))
      (x.saddOverflow y) ∧
    Computed (run .sub .sbc) (x - y) (decide (y.toNat ≤ x.toNat)) (x.ssubOverflow y) ∧
    Computed (run .rsb .rsc) (y - x) (decide (x.toNat ≤ y.toNat)) (y.ssubOverflow x) := by
  intro run
  -- A run of limbs needs a first one to start the chain, which is where `hn` is used.
  obtain ⟨n, rfl⟩ : ∃ m, n = m + 1 := ⟨n - 1, by omega⟩
  have hwidth : 0 < 32 * (n + 1) := by omega
  -- The induction over the limbs is done once, for a chain of any of the three kinds. What is left
  -- is to read the sum it gives as a sum or a difference.
  have hchain (chain : Chain) := isSum_runLimbs loader hrd chain.adds_first x y cpu
  refine ⟨?sum, ?difference, ?reverse⟩
  case sum =>
    obtain ⟨value, carry, overflow, hrun, hsum⟩ := hchain .sum
    obtain ⟨hvalue, hcarry, hoverflow⟩ := IsSum.sum hsum
    rw [hvalue, hcarry, hoverflow] at hrun
    exact hrun
  case difference =>
    obtain ⟨value, carry, overflow, hrun, hsum⟩ := hchain .difference
    obtain ⟨hvalue, hcarry, hoverflow⟩ := IsSum.difference hwidth hsum
    rw [hvalue, hcarry, hoverflow] at hrun
    exact hrun
  case reverse =>
    obtain ⟨value, carry, overflow, hrun, hsum⟩ := hchain .reverse
    obtain ⟨hvalue, hcarry, hoverflow⟩ := IsSum.difference hwidth hsum
    rw [hvalue, hcarry, hoverflow] at hrun
    exact hrun

/-- Numbers of two words. The sum carries out of the lower word, and so does the borrow of the
reverse difference. -/
theorem carry_chains_compute_two_words :
    (2 : RegisterId) ≠ .pc ∧ 0 < 2 ∧
      let loader := OperandLoader.intoRegisters 0 1 (by decide)
      let x : BitVec (32 * 2) := 0x7FFFFFFFFFFFFFFF#64
      let y : BitVec (32 * 2) := 0x0000000180000000#64
      let run (op next : Arm.AluOp) :=
        Cpu.runLimbs loader 2 next op Cpu.initial ((limbs x).zip (limbs y))
      Computed (n := 2) (run .add .adc) 0x800000017FFFFFFF#64 false true ∧
      Computed (n := 2) (run .sub .sbc) 0x7FFFFFFE7FFFFFFF#64 true false ∧
      Computed (n := 2) (run .rsb .rsc) 0x8000000180000001#64 false false :=
  ⟨by decide, by decide,
    carry_chains_compute (OperandLoader.intoRegisters 0 1 (by decide)) (by decide) Cpu.initial
      (n := 2) (by decide) 0x7FFFFFFFFFFFFFFF#64 0x0000000180000000#64⟩

end AdvanceCore
