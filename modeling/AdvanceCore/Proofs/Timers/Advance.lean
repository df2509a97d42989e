import AdvanceCore.Timers

/-!
# `AdvanceCore.Proofs.Timers.Advance`: the loop over the wraps

`TimerRun.advance` handles one wrap after the other until none is due. This module says
what one round does and what the loop comes to.

* `nextWrap_eq_some_iff`, `nextWrap_eq_none_iff`: the wrap to handle is the earliest
  deadline that is due, of several at one cycle that of the lowest timer.
* `counted_overflow`: the effects of a wrap touch no timer but in its counter, and no
  counter but that of a cascading timer.
* `deadline_handle`: handling a wrap moves the deadline of its timer on, and no other.
* `advance_advance`: an advance can be interrupted anywhere. Stopping at a cycle on the
  way and going on from there comes to the same.
* `advance_eq_foldl`: when no deadline lies before the target, the loop visits each timer
  once, in order, and handles the wraps that fall on the target.
* `step_step`: two steps are one step of their sum, with the reports of both.
-/

set_option autoImplicit false

namespace AdvanceCore

namespace Timers

/-! ### The next wrap -/

/-- A timer has a wrap by the target exactly if its deadline is due. -/
theorem wrapOf_eq_none_iff {t : Timers} {target : Nat} {i : TimerId} :
    t.wrapOf target i = none ↔ ∀ d, (t.get i).deadline = some d → target < d := by
  unfold wrapOf
  cases (t.get i).deadline with
  | none => simp
  | some d => simp

/-- `w` is the wrap to handle among the timers of a list. -/
def FirstOf (t : Timers) (target : Nat) (l : List TimerId) : Option Wrap → Prop
  | none => ∀ j ∈ l, t.wrapOf target j = none
  | some w => (t.get w.timer).deadline = some w.cycle ∧ w.cycle ≤ target ∧
      ∀ j ∈ l, ∀ d, (t.get j).deadline = some d → w.cycle ≤ d ∧ (d = w.cycle → w.timer ≤ j)

/-- A timer that does not wrap by the target is no rival to the others. -/
theorem firstOf_cons_of_late {t : Timers} {target : Nat} {i : TimerId} {rest : List TimerId}
    {r : Option Wrap} (hlate : t.wrapOf target i = none) (h : t.FirstOf target rest r) :
    t.FirstOf target (i :: rest) r := by
  cases r with
  | none =>
    intro j hj
    rcases List.mem_cons.mp hj with rfl | hj
    · exact hlate
    · exact h j hj
  | some v =>
    obtain ⟨hd, hle, hfirst⟩ := h
    refine ⟨hd, hle, fun j hj d hjd => ?_⟩
    rcases List.mem_cons.mp hj with rfl | hj
    · have := wrapOf_eq_none_iff.mp hlate d hjd
      omega
    · exact hfirst j hj d hjd

/-- A timer that wraps by the target wins against the later ones of the list unless one of them
wraps strictly before it. -/
theorem firstOf_cons_of_wrap {t : Timers} {target : Nat} {i : TimerId} {rest : List TimerId}
    {r : Option Wrap} {w : Wrap} (hw : t.wrapOf target i = some w) (hi : ∀ j ∈ rest, i < j)
    (h : t.FirstOf target rest r) : t.FirstOf target (i :: rest) (earlier (some w) r) := by
  obtain ⟨rfl, hd, hle⟩ := deadline_of_wrapOf hw
  -- The head is the first of the list if no other timer of it wraps before.
  have hhead (hlater : ∀ j ∈ rest, ∀ d, (t.get j).deadline = some d → w.cycle ≤ d) :
      t.FirstOf target (w.timer :: rest) (some w) := by
    refine ⟨hd, hle, fun j hj d hjd => ?_⟩
    rcases List.mem_cons.mp hj with rfl | hj
    · rw [hd] at hjd
      cases hjd
      exact ⟨Nat.le_refl _, fun _ => Nat.le_refl _⟩
    · exact ⟨hlater j hj d hjd, fun _ => Fin.le_of_lt (hi j hj)⟩
  cases r with
  | none =>
    refine hhead fun j hj d hjd => ?_
    have := wrapOf_eq_none_iff.mp (h j hj) d hjd
    omega
  | some u =>
    obtain ⟨hud, hule, hfirst⟩ := h
    show t.FirstOf target _ (if u.cycle < w.cycle then some u else some w)
    split
    · next hlt =>
      -- Strictly earlier: the head is no tie, so its lower number does not count.
      refine ⟨hud, hule, fun j hj d hjd => ?_⟩
      rcases List.mem_cons.mp hj with rfl | hj
      · rw [hd] at hjd
        cases hjd
        omega
      · exact hfirst j hj d hjd
    · next hge =>
      refine hhead fun j hj d hjd => ?_
      have := (hfirst j hj d hjd).1
      omega

/-- The scan over an ascending list finds the first wrap of its timers. -/
theorem firstOf_foldr (t : Timers) (target : Nat) (l : List TimerId)
    (hl : l.Pairwise (· < ·)) :
    t.FirstOf target l (l.foldr (fun i rest => earlier (t.wrapOf target i) rest) none) := by
  induction l with
  | nil =>
    intro j hj
    cases hj
  | cons i rest ih =>
    obtain ⟨hi, hrest⟩ := List.pairwise_cons.mp hl
    rw [List.foldr_cons]
    cases hw : t.wrapOf target i with
    | none => exact firstOf_cons_of_late hw (ih hrest)
    | some w => exact firstOf_cons_of_wrap hw hi (ih hrest)

/-- The timers are looked at in ascending order. -/
theorem pairwise_finRange : (List.finRange 4).Pairwise (· < ·) := by
  decide

/-- No wrap is to be handled exactly if every deadline lies past the target. -/
theorem nextWrap_eq_none_iff {t : Timers} {target : Nat} :
    t.nextWrap target = none ↔ ∀ i d, (t.get i).deadline = some d → target < d := by
  have hscan := t.firstOf_foldr target _ pairwise_finRange
  constructor
  · intro h i
    rw [← nextWrap, h] at hscan
    exact wrapOf_eq_none_iff.mp (hscan i (List.mem_finRange i))
  · intro h
    cases hw : t.nextWrap target with
    | none => rfl
    | some w =>
      obtain ⟨hd, hle⟩ := deadline_of_nextWrap hw
      have := h _ _ hd
      omega

/-- The wrap to handle is the earliest deadline that is due, on a tie that of the lowest
timer. -/
theorem nextWrap_eq_some_iff {t : Timers} {target : Nat} {w : Wrap} :
    t.nextWrap target = some w ↔
      (t.get w.timer).deadline = some w.cycle ∧ w.cycle ≤ target ∧
        ∀ i d, (t.get i).deadline = some d → w.cycle ≤ d ∧ (d = w.cycle → w.timer ≤ i) := by
  have hscan := t.firstOf_foldr target _ pairwise_finRange
  constructor
  · intro h
    rw [← nextWrap, h] at hscan
    obtain ⟨hd, hle, hfirst⟩ := hscan
    exact ⟨hd, hle, fun i => hfirst i (List.mem_finRange i)⟩
  · rintro ⟨hd, hle, hfirst⟩
    cases hv : t.nextWrap target with
    | none =>
      have := nextWrap_eq_none_iff.mp hv _ _ hd
      omega
    | some v =>
      -- Both are first, so neither comes before the other.
      rw [← nextWrap, hv] at hscan
      obtain ⟨hvd, -, hvfirst⟩ := hscan
      obtain ⟨hvw, hvwi⟩ := hvfirst w.timer (List.mem_finRange _) _ hd
      obtain ⟨hwv, hwvi⟩ := hfirst _ _ hvd
      have hcycle : v.cycle = w.cycle := by omega
      have htimer : v.timer = w.timer :=
        Fin.le_antisymm (hvwi hcycle.symm) (hwvi hcycle)
      cases v
      cases w
      simp_all

/-- The wrap to handle does not depend on how far past it the target lies. -/
theorem nextWrap_mono {t : Timers} {middle target : Nat} {w : Wrap}
    (hle : middle ≤ target) (h : t.nextWrap middle = some w) : t.nextWrap target = some w := by
  obtain ⟨hd, hdue, hfirst⟩ := nextWrap_eq_some_iff.mp h
  exact nextWrap_eq_some_iff.mpr ⟨hd, by omega, hfirst⟩

end Timers

namespace Timer

/-- What counting wraps makes of a timer: another counter if it cascades, and else the
same timer. -/
def Counted (isFirst : Bool) (before after : Timer) : Prop :=
  (∃ c, after = ⟨before.reload, before.control, c, before.base, before.deadline⟩) ∧
    (before.isCascading isFirst = false → after = before)

/-- A timer that nobody counts is as it was. -/
theorem Counted.refl (isFirst : Bool) (t : Timer) : t.Counted isFirst t :=
  ⟨⟨t.counter, rfl⟩, fun _ => rfl⟩

/-- Counts add up. -/
theorem Counted.trans {isFirst : Bool} {r s t : Timer} (hrs : r.Counted isFirst s)
    (hst : s.Counted isFirst t) : r.Counted isFirst t := by
  obtain ⟨⟨b, rfl⟩, hr⟩ := hrs
  obtain ⟨⟨c, rfl⟩, hs⟩ := hst
  exact ⟨⟨c, rfl⟩, fun h => (hs h).trans (hr h)⟩

/-- A cascading timer may take any counter. -/
theorem Counted.of_isCascading {isFirst : Bool} {t : Timer} (h : t.isCascading isFirst = true)
    (c : Half) : t.Counted isFirst { t with counter := c } :=
  ⟨⟨c, rfl⟩, fun hnot => by rw [h] at hnot; cases hnot⟩

end Timer

namespace TimerRun

open Timers (pairwise_finRange nextWrap_eq_none_iff nextWrap_eq_some_iff nextWrap_mono)

/-! ### One round -/

/-- A cascading timer that is set to another counter has been counted, and the others are
as they were. -/
theorem counted_set {t : Timers} {i : TimerId} (hi : i.val ≠ 0)
    (h : (t.get i).isCascading false = true) (c : Half) (j : TimerId) :
    (t.get j).Counted (j.val == 0) ((t.set i { t.get i with counter := c }).get j) := by
  rw [Timers.get_set]
  split
  · next hij =>
    subst hij
    rw [beq_false_of_ne hi]
    exact .of_isCascading h c
  · exact .refl _ _

/-- The effects of a wrap only count: they touch no timer but in the counter, and no
counter but that of a cascading timer. -/
theorem counted_overflow (run : TimerRun) (i j : TimerId) :
    (run.timers.get j).Counted (j.val == 0) ((run.overflow i).timers.get j) := by
  fun_induction overflow run i with
  | case1 run i run' h next timer hcascading _ ih =>
    exact (counted_set (Nat.succ_ne_zero _) hcascading timer.reload j).trans ih
  | case2 run i run' h next timer hcascading _ =>
    exact counted_set (Nat.succ_ne_zero _) hcascading _ j
  | case3 => exact .refl _ _
  | case4 => exact .refl _ _

/-- The timer of a wrap as its handling leaves it, before its effects. -/
def rearmed (run : TimerRun) (w : Wrap) : Timer :=
  ((run.timers.get w.timer).restart w.cycle).reschedule (w.timer.val == 0)

/-- The run with the timer of a wrap started over. -/
def rearm (run : TimerRun) (w : Wrap) : TimerRun :=
  { run with timers := run.timers.set w.timer (run.rearmed w) }

/-- A wrap rearms its timer, and is then handed on. -/
theorem handle_eq (run : TimerRun) (w : Wrap) :
    run.handle w = (run.rearm w).overflow w.timer := rfl

/-- Only the timer that wraps is rearmed. -/
theorem get_rearm (run : TimerRun) (w : Wrap) (j : TimerId) :
    (run.rearm w).timers.get j = if w.timer = j then run.rearmed w else run.timers.get j :=
  Timers.get_set ..

/-- Handling a wrap moves the deadline of its timer on, and no other. -/
theorem deadline_handle (run : TimerRun) (w : Wrap) (j : TimerId) :
    ((run.handle w).timers.get j).deadline =
      if w.timer = j then (run.rearmed w).deadline else (run.timers.get j).deadline := by
  rw [handle_eq, deadline_overflow, get_rearm]
  split <;> rfl

/-- The new deadline of a timer that has wrapped lies past the wrap. -/
theorem lt_deadline_rearmed {run : TimerRun} {w : Wrap} {d : Nat}
    (h : (run.rearmed w).deadline = some d) : w.cycle < d := by
  simp only [rearmed, Timer.reschedule] at h
  split at h
  · cases h
    exact ((run.timers.get w.timer).restart w.cycle).base_lt_nextWrap
  · cases h

/-! ### The loop -/

/-- As long as a wrap is due, the loop handles the earliest one. -/
theorem advance_of_nextWrap {run : TimerRun} {target : Nat} {w : Wrap}
    (h : run.timers.nextWrap target = some w) :
    run.advance target = (run.handle w).advance target := by
  rw [advance]
  split
  · next v hv =>
    rw [h] at hv
    cases hv
    rfl
  · next hv =>
    rw [h] at hv
    cases hv

/-- Moves the clock alone. -/
def withCycle (run : TimerRun) (cycle : Nat) : TimerRun :=
  { run with timers := { run.timers with cycle := cycle } }

/-- When none is due any more, it moves the clock to the target. -/
theorem advance_of_nextWrap_eq_none {run : TimerRun} {target : Nat}
    (h : run.timers.nextWrap target = none) : run.advance target = run.withCycle target := by
  rw [advance]
  split
  · next v hv =>
    rw [h] at hv
    cases hv
  · rfl

/-- The effects of a wrap do not read the clock. -/
theorem overflow_withCycle (run : TimerRun) (i : TimerId) (cycle : Nat) :
    (run.withCycle cycle).overflow i = (run.overflow i).withCycle cycle := by
  -- Every guard of `overflow` reads the timers alone, so both sides take the same branch.
  fun_induction overflow run i with
  | case1 run i run' h next timer hcascading hwraps ih =>
    rw [overflow, ← ih]
    exact (dif_pos h).trans ((if_pos hcascading).trans (if_pos hwraps))
  | case2 run i run' h next timer hcascading hwraps =>
    rw [overflow]
    exact (dif_pos h).trans ((if_pos hcascading).trans (if_neg hwraps))
  | case3 run i run' h next timer hcascading =>
    rw [overflow]
    exact (dif_pos h).trans (if_neg hcascading)
  | case4 run i run' h =>
    rw [overflow]
    exact dif_neg h

/-- Nor does the handling of a wrap. -/
theorem handle_withCycle (run : TimerRun) (w : Wrap) (cycle : Nat) :
    (run.withCycle cycle).handle w = (run.handle w).withCycle cycle :=
  overflow_withCycle (run.rearm w) w.timer cycle

/-- Where an advance ends does not depend on where the clock stood. -/
theorem advance_withCycle (run : TimerRun) (cycle target : Nat) :
    (run.withCycle cycle).advance target = run.advance target := by
  fun_induction advance run target with
  | case1 run w h ih =>
    -- The clock is no part of the scan, so the same wrap is next.
    have hnext : (run.withCycle cycle).timers.nextWrap target = some w := h
    rw [advance_of_nextWrap hnext, handle_withCycle, ih]
  | case2 run h =>
    have hnext : (run.withCycle cycle).timers.nextWrap target = none := h
    exact advance_of_nextWrap_eq_none hnext

/-- Stopping at a cycle on the way and going on from there comes to the same. -/
theorem advance_advance (run : TimerRun) {middle target : Nat} (hle : middle ≤ target) :
    (run.advance middle).advance target = run.advance target := by
  -- The rounds up to `middle` are rounds of the longer advance too.
  fun_induction advance run middle with
  | case1 run w h ih => rw [ih, ← advance_of_nextWrap (nextWrap_mono hle h)]
  | case2 run h => exact advance_withCycle run middle target

/-- The clock stands at the target after an advance. -/
theorem cycle_advance (run : TimerRun) (target : Nat) :
    (run.advance target).timers.cycle = target := by
  fun_induction advance run target with
  | case1 run w h ih => exact ih
  | case2 => rfl

/-- Handles the wrap of a timer if it falls on a cycle. -/
def handleAt (cycle : Nat) (run : TimerRun) (i : TimerId) : TimerRun :=
  if (run.timers.get i).deadline = some cycle then run.handle ⟨i, cycle⟩ else run

/-- When no deadline lies before the target, the loop visits each timer once, in order. -/
theorem advance_eq_foldl {run : TimerRun} {target : Nat}
    (h : ∀ i d, (run.timers.get i).deadline = some d → target ≤ d) :
    run.advance target = ((List.finRange 4).foldl (handleAt target) run).withCycle target := by
  -- The timers that are still to be visited are the only ones that may wrap now.
  suffices key : ∀ (l : List TimerId) (run : TimerRun), l.Pairwise (· < ·) →
      (∀ i d, (run.timers.get i).deadline = some d → target ≤ d) →
      (∀ i, (run.timers.get i).deadline = some target → i ∈ l) →
      run.advance target = (l.foldl (handleAt target) run).withCycle target from
    key _ run pairwise_finRange h fun i _ => List.mem_finRange i
  intro l
  induction l with
  | nil =>
    intro run _ hlate hdue
    refine advance_of_nextWrap_eq_none (nextWrap_eq_none_iff.mpr fun i d hd => ?_)
    have hle := hlate i d hd
    rcases Nat.lt_or_eq_of_le hle with hlt | rfl
    · exact hlt
    · cases hdue i hd
  | cons i rest ih =>
    intro run hl hlate hdue
    obtain ⟨hi, hrest⟩ := List.pairwise_cons.mp hl
    rw [List.foldl_cons]
    by_cases hd : (run.timers.get i).deadline = some target
    · -- The head is the lowest timer that may still wrap, so the loop takes it next.
      have hnext : run.timers.nextWrap target = some ⟨i, target⟩ := by
        refine nextWrap_eq_some_iff.mpr ⟨hd, Nat.le_refl _, fun j d hjd => ⟨hlate j d hjd, ?_⟩⟩
        rintro rfl
        rcases List.mem_cons.mp (hdue j hjd) with rfl | hj
        · exact Nat.le_refl _
        · exact Fin.le_of_lt (hi j hj)
      rw [advance_of_nextWrap hnext, handleAt, if_pos hd]
      -- Its own deadline has moved past the target, and no other has moved.
      refine ih _ hrest (fun j d hjd => ?_) fun j hjd => ?_
      · rw [deadline_handle] at hjd
        split at hjd
        · exact Nat.le_of_lt (lt_deadline_rearmed hjd)
        · exact hlate j d hjd
      · rw [deadline_handle] at hjd
        split at hjd
        · exact absurd (lt_deadline_rearmed hjd) (Nat.lt_irrefl _)
        · next hne =>
          rcases List.mem_cons.mp (hdue j hjd) with rfl | hj
          · exact absurd rfl hne
          · exact hj
    · rw [handleAt, if_neg hd]
      refine ih run hrest hlate fun j hjd => ?_
      rcases List.mem_cons.mp (hdue j hjd) with rfl | hj
      · exact absurd hjd hd
      · exact hj

/-! ### Reports

A run adds to the reports it is given and does not read them. -/

/-- The run with wraps that were reported before it. -/
def after (earlier : Array SoundTimerId) (run : TimerRun) : TimerRun :=
  { run with reports := earlier ++ run.reports }

/-- What has been reported before comes first. -/
theorem announce_after (earlier : Array SoundTimerId) (run : TimerRun) (i : TimerId) :
    (run.after earlier).announce i = (run.announce i).after earlier := by
  -- Only the last field differs, and there only for a sound timer.
  have hreports : (if h : i.val < 2 then (earlier ++ run.reports).push ⟨i.val, h⟩
      else earlier ++ run.reports) =
      earlier ++ (if h : i.val < 2 then run.reports.push ⟨i.val, h⟩ else run.reports) := by
    split
    · exact Array.push_append
    · rfl
  exact congrArg (TimerRun.mk run.timers (run.announce i).interrupts) hreports

/-- What has been reported before stays first over a wrap that is handed on. -/
theorem overflow_after (earlier : Array SoundTimerId) (run : TimerRun) (i : TimerId) :
    (run.after earlier).overflow i = (run.overflow i).after earlier := by
  -- As with the clock, no guard of `overflow` reads the reports.
  fun_induction overflow run i with
  | case1 run i run' h next timer hcascading hwraps ih =>
    rw [overflow, announce_after, ← ih]
    exact (dif_pos h).trans ((if_pos hcascading).trans (if_pos hwraps))
  | case2 run i run' h next timer hcascading hwraps =>
    rw [overflow, announce_after]
    exact (dif_pos h).trans ((if_pos hcascading).trans (if_neg hwraps))
  | case3 run i run' h next timer hcascading =>
    rw [overflow, announce_after]
    exact (dif_pos h).trans (if_neg hcascading)
  | case4 run i run' h =>
    rw [overflow, announce_after]
    exact dif_neg h

/-- What has been reported before stays first over a wrap that is handled. -/
theorem handle_after (earlier : Array SoundTimerId) (run : TimerRun) (w : Wrap) :
    (run.after earlier).handle w = (run.handle w).after earlier :=
  overflow_after earlier (run.rearm w) w.timer

/-- What has been reported before stays first over the whole loop. -/
theorem advance_after (earlier : Array SoundTimerId) (run : TimerRun) (target : Nat) :
    (run.after earlier).advance target = (run.advance target).after earlier := by
  fun_induction advance run target with
  | case1 run w h ih =>
    have hnext : (run.after earlier).timers.nextWrap target = some w := h
    rw [advance_of_nextWrap hnext, handle_after, ih]
  | case2 run h =>
    have hnext : (run.after earlier).timers.nextWrap target = none := h
    exact advance_of_nextWrap_eq_none hnext

/-- A run is one without reports of its own, after those it has. -/
theorem after_reports (run : TimerRun) :
    TimerRun.after run.reports { timers := run.timers, interrupts := run.interrupts } = run := by
  rw [after, Array.append_empty]

end TimerRun

/-- A step after a step is one longer step. Its reports are those of the two, in order. -/
theorem Timers.step_step (t : Timers) (interrupts : InterruptController) (m n : Nat) :
    ((t.step interrupts m).timers.step (t.step interrupts m).interrupts n).after
        (t.step interrupts m).reports =
      t.step interrupts (m + n) := by
  have hcycle : (t.step interrupts m).timers.cycle = t.cycle + m := TimerRun.cycle_advance ..
  show TimerRun.after _ (TimerRun.advance _ _) = _
  rw [← TimerRun.advance_after, TimerRun.after_reports, hcycle, Nat.add_assoc]
  exact TimerRun.advance_advance _ (Nat.add_le_add_left (Nat.le_add_right m n) t.cycle)

end AdvanceCore
