import AdvanceCore.Proofs.Console.RunTime
import AdvanceCore.Proofs.Timers.Listening

/-!
# `AdvanceCore.Proofs.Console.SignalQueue`: no signal is lost

The attached units report events from two places, as they hear a wrap of a sound timer and as they
advance. A console that calls them at once, wherever its timers are in their loop, has to keep the
signals until timers and units are done: a queue that all of them share is filled on the way, and
emptied at the end of the step. `QueuedConsole` is that console.

A unit acts in rounds. In each round all units act in the order of their attachment, and the rounds
of a step are the wraps that are heard, and one more in which the units advance.

* `Attachment.each_eq`, `Attachment.signalsIn`: what units push in a round, and in several.
* `Board.rounds`, `Board.pushed`, `Board.caughtUp`: the rounds of a step, their signals, and the
  board before any of these takes effect.
* `Console.catchUp_eq`, `QueuedConsole.catchUp_eq`: what catching up makes of either console.
* `Console.step_eq`, `Console.queued_step_eq`: in a step of either console the signals take
  effect once and in order.
* `signals_taken_once`: with the queue, step by step.
-/

set_option autoImplicit false

namespace AdvanceCore

/-! ### Rounds -/

/-- What every unit does when it is its turn. -/
abbrev Round (π : Type) := π → List Signal × π

namespace Attachment

variable {π : Type}

/-- The unit after some rounds. It does not matter to it who else is attached. -/
def after (rounds : List (Round π)) (a : Attachment π) : Attachment π :=
  { a with unit := rounds.foldl (fun unit round => (round unit).2) a.unit }

/-- What units push in a round, one unit after the other. -/
def signalsOf (round : Round π) (units : List (Attachment π)) : List Signal :=
  units.flatMap fun a => (round a.unit).1

/-- What units push in some rounds, one round after the other. -/
def signalsIn : List (Round π) → List (Attachment π) → List Signal
  | [], _ => []
  | round :: rest, units => signalsOf round units ++ signalsIn rest (units.map (after [round]))

/-- A unit that takes part in no round stays as it is. -/
theorem map_after_nil (units : List (Attachment π)) : units.map (after []) = units :=
  List.map_id units

/-- Rounds may be taken one by one. -/
theorem map_after_cons (round : Round π) (rest : List (Round π)) (units : List (Attachment π)) :
    (units.map (after [round])).map (after rest) = units.map (after (round :: rest)) :=
  List.map_map

/-- A round adds to a queue what the units push. -/
theorem each_eq (round : Round π) (queue : Array Signal) (units : List (Attachment π)) :
    each round queue units =
      (queue ++ (signalsOf round units).toArray, units.map (after [round])) := by
  -- On the attachments, which are called in order. What each one pushes goes behind what is queued.
  induction units generalizing queue with
  | nil => simp [each, signalsOf]
  | cons a rest ih =>
    let pushed := each round (queue ++ (round a.unit).1) rest
    have hsignals : pushed.1 = queue ++ (signalsOf round (a :: rest)).toArray := by
      rw [← Array.toList_inj]
      simp [pushed, ih, signalsOf]
    have hunits : pushed.2 = rest.map (after [round]) := congrArg Prod.snd (ih _)
    show (pushed.1, after [round] a :: pushed.2) = _
    rw [hsignals, hunits]
    rfl

/-- Rounds in sequence, on one queue. -/
theorem foldl_each_eq (rounds : List (Round π)) (queue : Array Signal)
    (units : List (Attachment π)) :
    rounds.foldl (fun pushed round => each round pushed.1 pushed.2) (queue, units) =
      (queue ++ (signalsIn rounds units).toArray, units.map (after rounds)) := by
  induction rounds generalizing queue units with
  | nil =>
    rw [map_after_nil]
    simp [signalsIn]
  | cons round rest ih =>
    rw [List.foldl_cons, each_eq, ih, map_after_cons]
    simp [signalsIn]

end Attachment

/-! ### The signals of a step -/

section Rounds

variable {π : Type} [Peripheral π]

/-- The units hear a wrap. -/
def hearing (timer : SoundTimerId) : Round π := fun unit => Peripheral.timerWrapped unit timer

/-- The units advance. -/
def advancing (elapsed : Nat) : Round π := fun unit => Peripheral.step unit elapsed

namespace Board

/-- The wraps that the units hear, if the timers advance. -/
def soundWraps (b : Board π) (elapsed : Nat) (advancesTimers : Bool) : List SoundTimerId :=
  if advancesTimers then (b.timers.wraps elapsed).filterMap soundTimer? else []

/-- The rounds in which the units catch up. -/
def rounds (b : Board π) (elapsed : Nat) (advancesTimers : Bool) : List (Round π) :=
  (b.soundWraps elapsed advancesTimers).map hearing ++ [advancing elapsed]

/-- The signals of these rounds, in the order in which they are pushed. -/
def pushed (b : Board π) (elapsed : Nat) (advancesTimers : Bool) : List Signal :=
  Attachment.signalsIn (b.rounds elapsed advancesTimers) b.attachments

/-- The board when timers and units have caught up, and no signal has taken effect. -/
def caughtUp (b : Board π) (elapsed : Nat) (advancesTimers : Bool) : Board π :=
  let run := b.timers.step b.interrupts elapsed
  { b with
    timers := if advancesTimers then run.timers else b.timers
    interrupts := if advancesTimers then run.interrupts else b.interrupts
    attachments := b.attachments.map (Attachment.after (b.rounds elapsed advancesTimers)) }

/-- Hearing the wraps of a list and advancing are rounds. -/
theorem stepAttachments_eq (b : Board π) (wraps : Array SoundTimerId) (elapsed : Nat) :
    b.stepAttachments wraps elapsed =
      let rounds := wraps.toList.map hearing ++ [advancing elapsed]
      ((Attachment.signalsIn rounds b.attachments).toArray,
        { b with attachments := b.attachments.map (Attachment.after rounds) }) := by
  have hrounds := Attachment.foldl_each_eq (wraps.toList.map hearing ++ [advancing elapsed]) #[]
    b.attachments
  rw [List.foldl_append, List.foldl_map, List.foldl_cons, List.foldl_nil, Array.foldl_toList,
    Array.empty_append] at hrounds
  exact congrArg (fun heard => (heard.1, { b with attachments := heard.2 })) hrounds

end Board

/-- Catching up, the units go through the rounds of the step, and then their signals take effect. -/
theorem Console.catchUp_eq (c : Console π) (elapsed : Nat) (advancesTimers : Bool) :
    c.catchUp elapsed advancesTimers =
      ⟨c.cpu, (c.board.pushed elapsed advancesTimers).foldl Board.apply
        (c.board.caughtUp elapsed advancesTimers)⟩ := by
  -- The rounds with the attachments are the same for a step that advances the timers and for one
  -- that does not. Only the wraps that are told differ.
  have hcaught (b : Board π) (wraps : Array SoundTimerId) :
      (b.stepAttachments wraps elapsed).1.foldl Board.apply (b.stepAttachments wraps elapsed).2 =
        (Attachment.signalsIn (wraps.toList.map hearing ++ [advancing elapsed])
          b.attachments).foldl Board.apply
        { b with
          attachments := b.attachments.map
            (Attachment.after (wraps.toList.map hearing ++ [advancing elapsed])) } := by
    rw [Board.stepAttachments_eq, ← Array.foldl_toList]
  cases advancesTimers with
  | true =>
    have hwraps : (c.board.stepTimers elapsed).1.toList =
        (c.board.timers.wraps elapsed).filterMap soundTimer? :=
      c.board.timers.reports_step c.board.interrupts elapsed
    have hboard := hcaught (c.board.stepTimers elapsed).2 (c.board.stepTimers elapsed).1
    rw [hwraps] at hboard
    exact congrArg (Console.mk c.cpu) hboard
  | false => exact congrArg (Console.mk c.cpu) (hcaught c.board #[])

end Rounds

/-! ### The queue -/

/-- A console whose units share a queue for their signals. -/
structure QueuedConsole (π : Type) where
  console : Console π
  queue : Array Signal := #[]

namespace QueuedConsole

variable {π : Type} [Peripheral π]

/-- Lets all units act, one after the other, and push their signals. -/
def act (heard : Array Signal × List (Attachment π)) (round : Round π) :
    Array Signal × List (Attachment π) :=
  Attachment.each round heard.1 heard.2

/-- Empties the queue, and lets what was in it take effect. -/
def drain (q : QueuedConsole π) : QueuedConsole π :=
  { console := { q.console with board := q.queue.foldl Board.apply q.console.board }
    queue := #[] }

/-- Lets timers and units catch up, with a call to every unit in the middle of the timers' loop
whenever a sound timer wraps. -/
def catchUp (q : QueuedConsole π) (elapsed : Nat) (advancesTimers : Bool) : QueuedConsole π :=
  let ⟨⟨cpu, board⟩, queue⟩ := q
  let listener := (queue, board.attachments)
  let run : ListenedRun (Array Signal × List (Attachment π)) :=
    if advancesTimers then
      board.timers.stepListened (fun heard timer => act heard (hearing timer)) board.interrupts
        listener elapsed
    else ⟨board.timers, board.interrupts, listener⟩
  let (queue, attachments) := act run.listener (advancing elapsed)
  let board :=
    { board with timers := run.timers, interrupts := run.interrupts, attachments := attachments }
  drain ⟨⟨cpu, board⟩, queue⟩

/-- Does the next thing, and gives the cycles it took. -/
def step (q : QueuedConsole π) : Nat × QueuedConsole π :=
  let activity := q.console.activity
  let (elapsed, console) := q.console.perform activity
  (elapsed, catchUp ⟨console, q.queue⟩ elapsed activity.advancesTimers)

/-- Called from round to round, the units leave the same signals in the queue behind what was there.
-/
theorem act_listener (b : Board π) (queue : Array Signal) (elapsed : Nat) (advancesTimers : Bool) :
    act ((b.soundWraps elapsed advancesTimers).foldl (fun heard timer => act heard (hearing timer))
        (queue, b.attachments)) (advancing elapsed) =
      (queue ++ (b.pushed elapsed advancesTimers).toArray,
        (b.caughtUp elapsed advancesTimers).attachments) := by
  have hrounds := Attachment.foldl_each_eq (b.rounds elapsed advancesTimers) queue b.attachments
  rw [Board.rounds, List.foldl_append, List.foldl_map, List.foldl_cons, List.foldl_nil] at hrounds
  exact hrounds

/-- What is left in the queue comes first, and what is pushed behind it takes effect with it. -/
theorem catchUp_eq (q : QueuedConsole π) (elapsed : Nat) (advancesTimers : Bool) :
    q.catchUp elapsed advancesTimers =
      { console :=
          ⟨q.console.cpu,
            (q.queue.toList ++ q.console.board.pushed elapsed advancesTimers).foldl Board.apply
              (q.console.board.caughtUp elapsed advancesTimers)⟩
        queue := #[] } := by
  obtain ⟨⟨cpu, board⟩, queue⟩ := q
  -- The calls from inside the loop come to the same as hearing the list of wraps after it.
  have hrun :
      (if advancesTimers then
        board.timers.stepListened (fun heard timer => act heard (hearing timer)) board.interrupts
          (queue, board.attachments) elapsed
      else ⟨board.timers, board.interrupts, (queue, board.attachments)⟩) =
      ⟨(board.caughtUp elapsed advancesTimers).timers,
        (board.caughtUp elapsed advancesTimers).interrupts,
        (board.soundWraps elapsed advancesTimers).foldl
          (fun heard timer => act heard (hearing timer)) (queue, board.attachments)⟩ := by
    cases advancesTimers with
    | true => exact Timers.stepListened_eq ..
    | false => rfl
  unfold catchUp
  dsimp only
  rw [hrun, act_listener, drain, ← Array.foldl_toList, Array.toList_append]
  rfl

/-- The console and its queue after a number of steps. -/
def afterSteps (q : QueuedConsole π) : Nat → QueuedConsole π
  | 0 => q
  | k + 1 => q.step.2.afterSteps k

end QueuedConsole

namespace Console

variable {π : Type} [Peripheral π]

/-- The signals that the units push in the next step. -/
def pushed (c : Console π) : List Signal :=
  (c.perform c.activity).2.board.pushed (c.perform c.activity).1 c.activity.advancesTimers

/-- The board in the next step, when timers and units have caught up and no signal has taken
effect. -/
def caughtUp (c : Console π) : Board π :=
  (c.perform c.activity).2.board.caughtUp (c.perform c.activity).1 c.activity.advancesTimers

/-- A step is its activity, and the signals of its rounds after it. -/
theorem step_eq (c : Console π) :
    c.step =
      ((c.perform c.activity).1,
        ⟨(c.perform c.activity).2.cpu, c.pushed.foldl Board.apply c.caughtUp⟩) := by
  have hcaught := (c.perform c.activity).2.catchUp_eq (c.perform c.activity).1
    c.activity.advancesTimers
  exact congrArg (Prod.mk (c.perform c.activity).1) hcaught

/-- With a queue the signals of the step take effect behind what was left in it. -/
theorem queued_step_eq (c : Console π) (left : Array Signal) :
    QueuedConsole.step ⟨c, left⟩ =
      (c.step.1,
        { console :=
            { c.step.2 with board := (left.toList ++ c.pushed).foldl Board.apply c.caughtUp }
          queue := #[] }) := by
  have hcaught := QueuedConsole.catchUp_eq ⟨(c.perform c.activity).2, left⟩
    (c.perform c.activity).1 c.activity.advancesTimers
  rw [c.step_eq]
  exact congrArg (Prod.mk (c.perform c.activity).1) hcaught

/-- The signals that attached units push in a step take effect at its end, once each and in the
order in which they were pushed: wrap by wrap of the sound timers and unit by unit within a wrap,
then unit by unit as they advance. With the units called in the middle of the timers' loop, a queue
carries the signals from there to the end of the step. Every step leaves it empty, so that nothing
is left over for the next one, and does to the console what a step without the queue does. -/
theorem signals_taken_once (c : Console π) :
    c.step.2.board = c.pushed.foldl Board.apply c.caughtUp ∧
      (∀ left, QueuedConsole.step ⟨c, left⟩ =
        (c.step.1,
          { console :=
              { c.step.2 with board := (left.toList ++ c.pushed).foldl Board.apply c.caughtUp }
            queue := #[] })) ∧
      ∀ k, QueuedConsole.afterSteps ⟨c, #[]⟩ k = ⟨c.afterSteps k, #[]⟩ := by
  refine ⟨congrArg (fun stepped => stepped.2.board) c.step_eq, c.queued_step_eq, fun k => ?_⟩
  induction k generalizing c with
  | zero => rfl
  | succ k ih =>
    -- The queue that a step leaves is the empty one that the next step needs.
    have hstep : QueuedConsole.step ⟨c, #[]⟩ = (c.step.1, ⟨c.step.2, #[]⟩) := by
      rw [queued_step_eq, c.step_eq]
      rfl
    rw [QueuedConsole.afterSteps, hstep]
    exact ih c.step.2

end Console

end AdvanceCore
