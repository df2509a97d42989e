import AdvanceCore.InterruptController
import AdvanceCore.Timer

/-!
# `AdvanceCore.Timers`: the four timers

Time advances from wrap to wrap. The earliest deadline is handled first, and of two
at the same cycle that of the lower timer. A wrap starts its timer over, requests its
interrupt, is reported to the sound hardware for the first two timers, and is counted
by the next timer if that one cascades.

Each register write is bracketed: every counter is made exact before it, and every
deadline is derived again after it.

`TimerRun.advance` ends because each wrap moves a deadline towards the target:
`Timers.backlog` counts the cycles that are left.
-/

set_option autoImplicit false

namespace AdvanceCore

/-- One of the two timers that can clock the sound. -/
abbrev SoundTimerId := Fin 2

/-- The timers and their common clock. -/
structure Timers where
  channels : Vector Timer 4 := Vector.replicate 4 {}
  /-- The cycles that have passed. -/
  cycle : Nat := 0
  deriving DecidableEq, Repr

/-- The wrap of a timer on its own clock. -/
structure Wrap where
  timer : TimerId
  cycle : Nat
  deriving DecidableEq, Repr

namespace Timers

/-- One of the timers. -/
def get (t : Timers) (i : TimerId) : Timer := t.channels[i]

/-- Replaces one of the timers. -/
def set (t : Timers) (i : TimerId) (timer : Timer) : Timers :=
  { t with channels := t.channels.set i timer }

/-- A timer that is set is read back, and the others are kept. -/
@[simp] theorem get_set (t : Timers) (i j : TimerId) (timer : Timer) :
    (t.set i timer).get j = if i = j then timer else t.get j := by
  simp only [get, set, Fin.getElem_fin, Vector.getElem_set, Fin.ext_iff]

/-- The live counter of a timer. -/
def counter (t : Timers) (i : TimerId) : Half :=
  (t.get i).counterAt (i.val == 0) t.cycle

/-! ### Deadlines -/

/-- The wrap of a timer, if it comes by `target`. -/
def wrapOf (t : Timers) (target : Nat) (i : TimerId) : Option Wrap :=
  match (t.get i).deadline with
  | some cycle => if cycle ≤ target then some ⟨i, cycle⟩ else none
  | none => none

/-- The earlier of two wraps, on a tie the first. -/
def earlier (first second : Option Wrap) : Option Wrap :=
  match first, second with
  | none, w => w
  | w, none => w
  | some v, some w => if w.cycle < v.cycle then some w else some v

/-- The wrap to handle next, of those that come by `target`. -/
def nextWrap (t : Timers) (target : Nat) : Option Wrap :=
  (List.finRange 4).foldr (fun i rest => earlier (t.wrapOf target i) rest) none

/-- The earliest deadline. -/
def earliestDeadline (t : Timers) : Option Nat :=
  ((List.finRange 4).filterMap fun i => (t.get i).deadline).min?

/-- The cycles until the next wrap of a timer on its own clock. -/
def cyclesUntilWake (t : Timers) : Option Nat :=
  t.earliestDeadline.map fun cycle => cycle - t.cycle

/-- The cycles from a deadline to `target`, both included. -/
def slack (target : Nat) : Option Nat → Nat
  | some cycle => target + 1 - cycle
  | none => 0

/-- The cycles that lie between the deadlines and `target`. -/
def backlog (t : Timers) (target : Nat) : Nat :=
  (List.finRange 4).foldr (fun i rest => slack target (t.get i).deadline + rest) 0

/-! ### The next wrap

It comes from a deadline that is due, so that moving this deadline on leaves a smaller
backlog. -/

/-- A wrap comes from a deadline by the target. -/
theorem deadline_of_wrapOf {t : Timers} {target : Nat} {i : TimerId} {w : Wrap}
    (h : t.wrapOf target i = some w) :
    w.timer = i ∧ (t.get i).deadline = some w.cycle ∧ w.cycle ≤ target := by
  unfold wrapOf at h
  split at h
  · next cycle hd =>
    split at h
    · next hle =>
      cases h
      exact ⟨rfl, hd, hle⟩
    · cases h
  · cases h

/-- The earlier of two wraps is one of them. -/
theorem earlier_eq {first second : Option Wrap} {w : Wrap}
    (h : earlier first second = some w) : first = some w ∨ second = some w := by
  unfold earlier at h
  split at h
  · exact .inr h
  · exact .inl h
  · split at h
    · exact .inr h
    · exact .inl h

/-- The next wrap comes from the deadline of its timer. -/
theorem deadline_of_nextWrap {t : Timers} {target : Nat} {w : Wrap}
    (h : t.nextWrap target = some w) :
    (t.get w.timer).deadline = some w.cycle ∧ w.cycle ≤ target := by
  -- The fold runs over a fixed list. Generalise over it before the induction.
  have key : ∀ l : List TimerId,
      l.foldr (fun i rest => earlier (t.wrapOf target i) rest) none = some w →
        ∃ i, t.wrapOf target i = some w := by
    intro l
    induction l with
    | nil => intro h; cases h
    | cons i rest ih =>
      intro h
      rcases earlier_eq h with hi | hrest
      · exact ⟨i, hi⟩
      · exact ih hrest
  obtain ⟨i, hi⟩ := key _ h
  obtain ⟨rfl, hd, hle⟩ := deadline_of_wrapOf hi
  exact ⟨hd, hle⟩

/-- The slack of a later deadline is smaller, as long as the earlier one was due. -/
theorem slack_lt {target cycle : Nat} {deadline : Option Nat} (hle : cycle ≤ target)
    (hlater : ∀ d, deadline = some d → cycle < d) :
    slack target deadline < slack target (some cycle) := by
  cases deadline with
  | none => simp only [slack]; omega
  | some d =>
    have := hlater d rfl
    simp only [slack]
    omega

/-- A sum shrinks with one of its terms, if no other grows. -/
theorem foldr_add_lt_foldr_add {α : Type} {f g : α → Nat} {i : α} {l : List α} (hmem : i ∈ l)
    (hlt : f i < g i) (hle : ∀ j, f j ≤ g j) :
    l.foldr (fun j rest => f j + rest) 0 < l.foldr (fun j rest => g j + rest) 0 := by
  -- Behind the smaller term the two sums are only ordered.
  have hsum : ∀ l : List α,
      l.foldr (fun j rest => f j + rest) 0 ≤ l.foldr (fun j rest => g j + rest) 0 := by
    intro l
    induction l with
    | nil => exact Nat.le_refl _
    | cons j rest ih => exact Nat.add_le_add (hle j) ih
  induction hmem with
  | head rest => exact Nat.add_lt_add_of_lt_of_le hlt (hsum rest)
  | tail j _ ih => exact Nat.add_lt_add_of_le_of_lt (hle j) ih

/-- A backlog shrinks with the slack of one timer, if the others keep theirs. -/
theorem backlog_lt {s t : Timers} {target : Nat} {i : TimerId}
    (hlt : slack target (s.get i).deadline < slack target (t.get i).deadline)
    (hother : ∀ j, j ≠ i → (s.get j).deadline = (t.get j).deadline) :
    s.backlog target < t.backlog target := by
  refine foldr_add_lt_foldr_add (List.mem_finRange i) hlt fun j => ?_
  by_cases hj : j = i
  · subst hj
    exact Nat.le_of_lt hlt
  · exact Nat.le_of_eq (congrArg (slack target) (hother j hj))

/-! ### Registers -/

/-- Applies a function to every timer, with whether it is the first. -/
def mapTimers (t : Timers) (f : Bool → Timer → Timer) : Timers :=
  { t with channels := t.channels.mapFinIdx fun i timer _ => f (i == 0) timer }

/-- Mapping the timers maps each of them, the first one as such. -/
@[simp] theorem get_mapTimers (t : Timers) (f : Bool → Timer → Timer) (i : TimerId) :
    (t.mapTimers f).get i = f (i.val == 0) (t.get i) := by
  simp only [mapTimers, get, Fin.getElem_fin, Vector.getElem_mapFinIdx]

/-- Makes every counter exact. -/
def syncAll (t : Timers) : Timers :=
  t.mapTimers fun isFirst timer => timer.sync isFirst t.cycle

/-- Derives every deadline again. -/
def rescheduleAll (t : Timers) : Timers :=
  t.mapTimers fun isFirst timer => timer.reschedule isFirst

/-- The timer whose registers are at an offset. -/
def timerAt? (offset : Nat) : Option TimerId :=
  if h : offset / 4 < 4 then some ⟨offset / 4, h⟩ else none

/-- The registers of a timer: its live counter, and its control register. -/
def register? (t : Timers) (offset : Nat) : Option Half :=
  (timerAt? offset).map fun i =>
    if offset % 4 = 0 then t.counter i else (t.get i).control.word

/-- Writes the reload value or the control register of a timer. -/
def writeRegister (t : Timers) (offset : Nat) (value mask : Half) : Bool × Timers :=
  match timerAt? offset with
  | none => (false, t)
  | some i =>
    let t := t.syncAll
    let timer :=
      if offset % 4 = 0 then (t.get i).writeReload value mask
      else (t.get i).writeControl t.cycle value mask
    (true, (t.set i timer).rescheduleAll)

instance : RegisterBlock Timers where
  readRegister := register?
  writeRegister := writeRegister

end Timers

/-! ### Running -/

/-- The timers in motion, with what their wraps have brought about. -/
structure TimerRun where
  timers : Timers
  interrupts : InterruptController
  /-- The wraps of the sound timers, in order. -/
  reports : Array SoundTimerId := #[]

namespace TimerRun

/-- Requests the interrupt of a timer that wraps, and reports a sound timer. -/
def announce (run : TimerRun) (i : TimerId) : TimerRun :=
  let interrupts :=
    if (run.timers.get i).control.interrupts then run.interrupts.raise (.timer i)
    else run.interrupts
  { run with
    interrupts := interrupts
    reports := if h : i.val < 2 then run.reports.push ⟨i.val, h⟩ else run.reports }

/-- The effects of a timer that wraps. The next timer counts it if it cascades, and
may wrap in turn. -/
def overflow (run : TimerRun) (i : TimerId) : TimerRun :=
  let run := run.announce i
  if h : i.val + 1 < 4 then
    let next : TimerId := ⟨i.val + 1, h⟩
    let timer := run.timers.get next
    if timer.isCascading false then
      if timer.counter = 0xFFFF then
        { run with timers := run.timers.set next { timer with counter := timer.reload } }.overflow
          next
      else
        { run with timers := run.timers.set next { timer with counter := timer.counter + 1 } }
    else run
  else run
termination_by 3 - i.val

/-- Handles the wrap of a timer on its own clock. -/
def handle (run : TimerRun) (w : Wrap) : TimerRun :=
  let timer := ((run.timers.get w.timer).restart w.cycle).reschedule (w.timer.val == 0)
  { run with timers := run.timers.set w.timer timer }.overflow w.timer

/-! ### Every wrap makes progress -/

/-- Counting wraps moves no deadline. -/
theorem deadline_overflow (run : TimerRun) (i j : TimerId) :
    ((run.overflow i).timers.get j).deadline = (run.timers.get j).deadline := by
  fun_induction overflow run i with
  | case1 run i run' h next timer _ _ ih =>
    rw [ih]
    simp only [Timers.get_set]
    split <;> simp_all [run', timer, announce]
  | case2 run i run' h next timer _ _ =>
    simp only [Timers.get_set]
    split <;> simp_all [run', timer, announce]
  | case3 => rfl
  | case4 => rfl

/-- Handling the next wrap leaves a smaller backlog. -/
theorem backlog_handle_lt {run : TimerRun} {target : Nat} {w : Wrap}
    (h : run.timers.nextWrap target = some w) :
    (run.handle w).timers.backlog target < run.timers.backlog target := by
  obtain ⟨hd, hle⟩ := Timers.deadline_of_nextWrap h
  apply Timers.backlog_lt (i := w.timer)
  · rw [hd, handle, deadline_overflow, Timers.get_set, if_pos rfl]
    -- The deadline moves from the wrap to a later cycle, or goes away.
    refine Timers.slack_lt hle fun d hsome => ?_
    simp only [Timer.reschedule] at hsome
    split at hsome
    · cases hsome
      exact ((run.timers.get w.timer).restart w.cycle).base_lt_nextWrap
    · cases hsome
  · intro j hj
    rw [handle, deadline_overflow, Timers.get_set, if_neg (Ne.symm hj)]

/-- Advances the clock to `target` and handles every wrap on the way. -/
def advance (run : TimerRun) (target : Nat) : TimerRun :=
  match _h : run.timers.nextWrap target with
  | some w => (run.handle w).advance target
  | none => { run with timers := { run.timers with cycle := target } }
termination_by run.timers.backlog target
decreasing_by exact backlog_handle_lt _h

end TimerRun

/-- Advances the timers by a number of cycles. -/
def Timers.step (t : Timers) (interrupts : InterruptController) (elapsed : Nat) : TimerRun :=
  TimerRun.advance { timers := t, interrupts := interrupts } (t.cycle + elapsed)

end AdvanceCore
