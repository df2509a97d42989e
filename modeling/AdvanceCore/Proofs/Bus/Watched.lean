import AdvanceCore.Proofs.Bus.Accesses

/-!
# `AdvanceCore.Proofs.Bus.Watched`: accesses that fail

A bus says of each access whether it succeeded. What an instruction makes of the answers can
only be compared with them if they are kept, so `Watched` adds to a bus the memory that an
access has failed. Forgetting it again goes through every access, and so through a step.

* `Watched`: a bus that remembers a failure.
* `failed_load`, `failed_store`, `failed_storeWords`, `failed_loadWords`: what is remembered
  is what the answers say.
-/

set_option autoImplicit false

namespace AdvanceCore

/-- A bus that remembers whether an access to it has failed. -/
structure Watched (β : Type) where
  bus : β
  failed : Bool

namespace Watched

variable {β : Type} [MemoryBus β]

/-- Remembers a load that gave nothing. -/
def loaded {α : Type} (w : Watched β) (answer : Option α × β) : Option α × Watched β :=
  (answer.1, ⟨answer.2, w.failed || answer.1.isNone⟩)

/-- Remembers a store that was not accepted. -/
def stored (w : Watched β) (answer : Bool × β) : Bool × Watched β :=
  (answer.1, ⟨answer.2, w.failed || !answer.1⟩)

instance : MemoryBus (Watched β) where
  load8 w address := w.loaded (MemoryBus.load8 w.bus address)
  load16 w address := w.loaded (MemoryBus.load16 w.bus address)
  load32 w address := w.loaded (MemoryBus.load32 w.bus address)
  store8 w address value := w.stored (MemoryBus.store8 w.bus address value)
  store16 w address value := w.stored (MemoryBus.store16 w.bus address value)
  store32 w address value := w.stored (MemoryBus.store32 w.bus address value)

/-- Forgetting the watch maps the watched bus to the bus. -/
theorem busMap : BusMap (Watched.bus : Watched β → β) :=
  ⟨fun _ _ => rfl, fun _ _ => rfl, fun _ _ => rfl, fun _ _ _ => rfl, fun _ _ _ => rfl,
    fun _ _ _ => rfl⟩

/-- A load fails if nothing answers. -/
theorem failed_load (kind : Load) (w : Watched β) (address : Word) :
    (kind.run w address).2.failed = (w.failed || (kind.run w address).1.isNone) := by
  have hmap {α γ : Type} (f : α → γ) (answer : Option α × β) :
      (w.loaded answer).2.failed = (w.failed || ((w.loaded answer).1.map f).isNone) := by
    rw [Option.isNone_map]
    rfl
  cases kind with
  | word | half | byte | signedByte => exact hmap _ _
  | signedHalf =>
    unfold Load.run
    dsimp only
    -- A halfword at an odd address is loaded as a byte.
    split
    · exact hmap _ _
    · exact hmap _ _

/-- A store fails if it is rejected. -/
theorem failed_store (kind : Store) (w : Watched β) (address value : Word) :
    (kind.run w address value).2.failed = (w.failed || !(kind.run w address value).1) := by
  cases kind <;> rfl

/-- A run of stores fails if one of them does, which is then the last. -/
theorem failed_storeWords (w : Watched β) (address : Word) (values : List Word) :
    (storeWords w address values).2.failed =
      (w.failed || !(storeWords w address values).1.outcome) := by
  -- Nothing is stored after a failure, so the outcome is that of the last access.
  induction values generalizing w address with
  | nil => exact (Bool.or_false _).symm
  | cons value rest ih =>
    have hfirst := failed_store .word w address value
    change (MemoryBus.store32 w (wordAligned address) value).2.failed =
      (w.failed || !(MemoryBus.store32 w (wordAligned address) value).1) at hfirst
    unfold storeWords
    generalize MemoryBus.store32 w (wordAligned address) value = answer at hfirst ⊢
    obtain ⟨accepted, w'⟩ := answer
    cases accepted with
    | false => exact hfirst
    | true =>
      have hkept : w'.failed = w.failed := hfirst.trans (Bool.or_false _)
      rw [← hkept]
      exact ih w' (address + 4)

/-- A run of loads fails if it has fewer words than it was to load. -/
theorem failed_loadWords (w : Watched β) (address : Word) (count : Nat) :
    (loadWords w address count).2.failed =
      (w.failed || decide ((loadWords w address count).1.outcome.length < count)) := by
  -- On the number of words. The run ends at the first refusal, so a shorter answer is a failure
  -- noted.
  induction count generalizing w address with
  | zero => exact (Bool.or_false _).symm
  | succ count ih =>
    have hfirst : (MemoryBus.load32 w (wordAligned address)).2.failed =
      (w.failed || (MemoryBus.load32 w (wordAligned address)).1.isNone) := rfl
    unfold loadWords
    generalize MemoryBus.load32 w (wordAligned address) = answer at hfirst ⊢
    obtain ⟨_ | value, w'⟩ := answer
    · show w'.failed = (w.failed || decide (0 < count + 1))
      rw [decide_eq_true (Nat.succ_pos count)]
      exact hfirst
    · have hkept : w'.failed = w.failed := hfirst.trans (Bool.or_false _)
      have hrest := ih w' (address + 4)
      rw [hkept] at hrest
      show (loadWords w' (address + 4) count).2.failed =
        (w.failed || decide ((loadWords w' (address + 4) count).1.outcome.length + 1 < count + 1))
      rw [hrest]
      simp only [Nat.add_lt_add_iff_right]

end Watched

end AdvanceCore
