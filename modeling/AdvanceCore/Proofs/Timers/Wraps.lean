import AdvanceCore.Proofs.Timers.Advance
import Mathlib.Logic.Function.Iterate

/-!
# `AdvanceCore.Proofs.Timers.Wraps`: which timers wrap, and in which order

A wrap on the clock of one timer can make the cascading timers after it wrap too. The loop only
knows the first of them, and hands the others on from call to call. This module lists all of
them: `Timers.chain` for a single wrap, `TimerRun.wraps` for the whole way to a target.

* `mem_chain_iff_of_succ`: in a chain, a timer comes after the one it counts.
* `get_overflow_of_isCascading`: what the chain makes of a cascading timer.
* `wraps_of_nextWrap`, `wraps_of_nextWrap_eq_none`: one round of the loop adds one chain.
* `reports_advance`: the reports are the sound timers of the list.
-/

set_option autoImplicit false

namespace AdvanceCore

namespace Timers

/-- The timers that wrap when timer `i` does, in order: `i`, and after it the cascading timers
that are at their last value. -/
def chain (t : Timers) (i : TimerId) : List TimerId :=
  if h : i.val + 1 < 4 then
    let next : TimerId := ⟨i.val + 1, h⟩
    if (t.get next).isCascading false = true ∧ (t.get next).counter = 0xFFFF then
      i :: t.chain next
    else [i]
  else [i]
termination_by 3 - i.val

variable {t : Timers} {i j k : TimerId}

/-- A chain goes on with a cascading timer at its last value. -/
theorem chain_of_wraps (h : i.val + 1 < 4)
    (hcascading : (t.get ⟨i.val + 1, h⟩).isCascading false = true)
    (hlast : (t.get ⟨i.val + 1, h⟩).counter = 0xFFFF) :
    t.chain i = i :: t.chain ⟨i.val + 1, h⟩ := by
  rw [chain]
  exact (dif_pos h).trans (if_pos ⟨hcascading, hlast⟩)

/-- A chain ends in front of any other timer. -/
theorem chain_of_ends (h : ∀ h : i.val + 1 < 4,
    ¬ ((t.get ⟨i.val + 1, h⟩).isCascading false = true ∧
      (t.get ⟨i.val + 1, h⟩).counter = 0xFFFF)) : t.chain i = [i] := by
  rw [chain]
  split
  · next hlt => exact if_neg (h hlt)
  · rfl

/-- A chain only looks at the timers after its first. -/
theorem chain_set (hle : j ≤ i) (timer : Timer) : (t.set j timer).chain i = t.chain i := by
  -- The chain looks at timers above `i` only, and the one that is set is not above it.
  fun_induction chain t i with
  | case1 i h next hwraps ih =>
    have hget : (t.set j timer).get next = t.get next := by
      rw [get_set, if_neg (Fin.ne_of_lt (Nat.lt_succ_of_le hle))]
    rw [chain_of_wraps h (hget ▸ hwraps.1) (hget ▸ hwraps.2), ih (Nat.le_succ_of_le hle)]
  | case2 i h next hends =>
    have hget : (t.set j timer).get next = t.get next := by
      rw [get_set, if_neg (Fin.ne_of_lt (Nat.lt_succ_of_le hle))]
    exact chain_of_ends fun _ => hget ▸ hends
  | case3 i h => exact chain_of_ends fun hlt => absurd hlt h

/-- A chain only goes up. -/
theorem le_of_mem_chain (h : j ∈ t.chain i) : i ≤ j := by
  fun_induction chain t i with
  | case1 i hlt next _ ih =>
    rcases List.mem_cons.mp h with rfl | hrest
    · exact Nat.le_refl _
    · exact Nat.le_of_succ_le (ih hrest)
  | case2 | case3 => exact Nat.le_of_eq (congrArg Fin.val (List.mem_singleton.mp h).symm)

/-- A chain begins with the timer that wraps. -/
theorem mem_chain_self (t : Timers) (i : TimerId) : i ∈ t.chain i := by
  fun_cases chain t i with
  | case1 => exact List.mem_cons_self
  | case2 | case3 => exact List.mem_singleton.mpr rfl

/-- No timer wraps twice with one wrap. -/
theorem nodup_chain (t : Timers) (i : TimerId) : (t.chain i).Nodup := by
  fun_induction chain t i with
  | case1 i hlt next _ ih =>
    refine List.nodup_cons.mpr ⟨fun hmem => ?_, ih⟩
    exact absurd (le_of_mem_chain hmem) (Nat.not_succ_le_self i.val)
  | case2 | case3 => exact List.pairwise_singleton ..

/-- Timers that follow different ones differ. -/
theorem succ_ne (hki : k ≠ i) (hsucc : k.val + 1 = j.val) (h : i.val + 1 < 4) :
    (⟨i.val + 1, h⟩ : TimerId) ≠ j := by
  rintro rfl
  exact hki (Fin.ext (Nat.succ_inj.mp hsucc))

/-- A timer further down a chain wraps with the one it counts, from its last value. -/
theorem mem_chain_iff_of_succ (hij : i ≠ j) (hsucc : k.val + 1 = j.val) :
    j ∈ t.chain i ↔
      k ∈ t.chain i ∧ (t.get j).isCascading false = true ∧ (t.get j).counter = 0xFFFF := by
  fun_induction chain t i with
  | case1 i hlt next hwraps ih =>
    rw [List.mem_cons, List.mem_cons, or_iff_right (Ne.symm hij)]
    by_cases hki : k = i
    · -- The next of the chain counts its first, and wraps.
      subst hki
      obtain rfl : next = j := Fin.ext hsucc
      exact ⟨fun _ => ⟨.inl rfl, hwraps⟩, fun _ => t.mem_chain_self next⟩
    · rw [ih (succ_ne hki hsucc hlt), or_iff_right hki]
  -- The chain ends at `i`, since the timer after it does not wrap, and that timer is the only
  -- candidate for `j`.
  | case2 i hlt next hends =>
    rw [List.mem_singleton, List.mem_singleton]
    refine ⟨fun h => absurd h.symm hij, ?_⟩
    rintro ⟨rfl, hwraps⟩
    obtain rfl : next = j := Fin.ext hsucc
    exact absurd hwraps hends
  | case3 i hlast =>
    rw [List.mem_singleton, List.mem_singleton]
    refine ⟨fun h => absurd h.symm hij, ?_⟩
    rintro ⟨rfl, -⟩
    omega

/-- Behind its first, a chain has cascading timers only. -/
theorem isCascading_of_mem_chain (h : j ∈ t.chain i) (hij : i ≠ j) :
    (t.get j).isCascading false = true := by
  have hle : i.val ≤ j.val := le_of_mem_chain h
  have hne : i.val ≠ j.val := fun heq => hij (Fin.ext heq)
  have hsucc : (⟨j.val - 1, by omega⟩ : TimerId).val + 1 = j.val := by
    show j.val - 1 + 1 = j.val
    omega
  exact ((mem_chain_iff_of_succ hij hsucc).mp h).2.1

end Timers

/-- One of the first two timers, as one that clocks the sound. -/
def soundTimer? (i : TimerId) : Option SoundTimerId :=
  if h : i.val < 2 then some ⟨i.val, h⟩ else none

namespace Timer

/-- A timer that counts one wrap of the timer before it. -/
def counted (t : Timer) : Timer :=
  { t with counter := if t.counter = 0xFFFF then t.reload else t.counter + 1 }

/-- At its last value a counted timer is reloaded. -/
theorem counted_of_last {t : Timer} (h : t.counter = 0xFFFF) :
    t.counted = { t with counter := t.reload } := by
  rw [counted, if_pos h]

/-- Otherwise it counts. -/
theorem counted_of_not_last {t : Timer} (h : t.counter ≠ 0xFFFF) :
    t.counted = { t with counter := t.counter + 1 } := by
  rw [counted, if_neg h]

end Timer

namespace TimerRun

open Timers (chain_of_wraps chain_of_ends chain_set succ_ne)

/-- The effects of a wrap reach the timers after it only. -/
theorem get_overflow_of_le {run : TimerRun} {i j : TimerId} (hle : j ≤ i) :
    (run.overflow i).timers.get j = run.timers.get j := by
  fun_induction overflow run i with
  | case1 run i run' h next timer _ _ ih =>
    rw [ih (Nat.le_succ_of_le hle), Timers.get_set, if_neg (Fin.ne_of_gt (Nat.lt_succ_of_le hle))]
    rfl
  | case2 run i run' h next timer _ _ =>
    rw [Timers.get_set, if_neg (Fin.ne_of_gt (Nat.lt_succ_of_le hle))]
    rfl
  | case3 | case4 => rfl

/-- A cascading timer counts once if the timer before it is in the chain. -/
theorem get_overflow_of_isCascading {run : TimerRun} {i j k : TimerId} (hij : i ≠ j)
    (hsucc : k.val + 1 = j.val) (hcascading : (run.timers.get j).isCascading false = true) :
    (run.overflow i).timers.get j =
      Timer.counted^[(run.timers.chain i).count k] (run.timers.get j) := by
  -- A chain that ends with another timer than the one before it does not make it count.
  have hends {i : TimerId} (hi : i ≠ k) : [i].count k = 0 := by
    rw [List.count_cons_of_ne hi, List.count_nil]
  fun_induction overflow run i with
  | case1 run i run' h next timer hnext hlast ih =>
    have hchain : run.timers.chain i = i :: run.timers.chain next := chain_of_wraps h hnext hlast
    rw [hchain]
    by_cases hik : i = k
    · -- The timer is the next of the chain, and the rest of it does not come back.
      subst hik
      obtain rfl : next = j := Fin.ext hsucc
      have hrest : (run.timers.chain next).count i = 0 :=
        List.count_eq_zero.mpr fun hmem =>
          absurd (Timers.le_of_mem_chain hmem) (Nat.not_succ_le_self i.val)
      rw [get_overflow_of_le (Nat.le_refl _), Timers.get_set, if_pos rfl, List.count_cons_self,
        hrest]
      exact (Timer.counted_of_last hlast).symm
    · have hne := succ_ne (Ne.symm hik) hsucc h
      have hget : (run'.timers.set next { timer with counter := timer.reload }).get j =
          run.timers.get j := by
        rw [Timers.get_set, if_neg hne]
        rfl
      rw [ih hne (hget ▸ hcascading), hget, chain_set (Nat.le_refl _), List.count_cons_of_ne hik]
      rfl
  | case2 run i run' h next timer hnext hlast =>
    have hchain : run.timers.chain i = [i] := chain_of_ends fun _ hwraps => hlast hwraps.2
    rw [hchain, Timers.get_set]
    by_cases hik : i = k
    · subst hik
      obtain rfl : next = j := Fin.ext hsucc
      rw [if_pos rfl, List.count_cons_self]
      exact (Timer.counted_of_not_last hlast).symm
    · rw [if_neg (succ_ne (Ne.symm hik) hsucc h), hends hik]
      rfl
  | case3 run i run' h next timer hnext =>
    have hchain : run.timers.chain i = [i] := chain_of_ends fun _ hwraps => hnext hwraps.1
    -- The next timer does not cascade, so it is not the one in question.
    have hik : i ≠ k := by
      rintro rfl
      obtain rfl : next = j := Fin.ext hsucc
      exact hnext hcascading
    rw [hchain, hends hik]
    rfl
  | case4 run i run' h =>
    have hchain : run.timers.chain i = [i] := chain_of_ends fun hlt => absurd hlt h
    have hik : i ≠ k := by
      rintro rfl
      omega
    rw [hchain, hends hik]
    rfl

/-! ### The whole way -/

/-- The timers that wrap on the way to `target`, in order. -/
def wraps (run : TimerRun) (target : Nat) : List TimerId :=
  match _h : run.timers.nextWrap target with
  | some w => run.timers.chain w.timer ++ (run.handle w).wraps target
  | none => []
termination_by run.timers.backlog target
decreasing_by exact backlog_handle_lt _h

/-- As long as a wrap is due, its chain comes first. -/
theorem wraps_of_nextWrap {run : TimerRun} {target : Nat} {w : Wrap}
    (h : run.timers.nextWrap target = some w) :
    run.wraps target = run.timers.chain w.timer ++ (run.handle w).wraps target := by
  rw [wraps]
  split
  · next v hv =>
    cases h.symm.trans hv
    rfl
  · next hv => cases h.symm.trans hv

/-- Without one there are no more wraps. -/
theorem wraps_of_nextWrap_eq_none {run : TimerRun} {target : Nat}
    (h : run.timers.nextWrap target = none) : run.wraps target = [] := by
  rw [wraps]
  split
  · next v hv => cases h.symm.trans hv
  · rfl

/-- The first of a chain is started over before the others count. -/
theorem chain_rearm (run : TimerRun) (w : Wrap) :
    (run.rearm w).timers.chain w.timer = run.timers.chain w.timer :=
  chain_set (Nat.le_refl _) _

/-! ### Reports -/

/-- A sound timer is reported when it is announced. -/
theorem reports_announce (run : TimerRun) (i : TimerId) :
    (run.announce i).reports.toList = run.reports.toList ++ (soundTimer? i).toList := by
  show (if h : i.val < 2 then run.reports.push ⟨i.val, h⟩ else run.reports).toList = _
  rw [soundTimer?]
  split
  · exact Array.toList_push
  · exact (List.append_nil _).symm

/-- All sound timers of a chain are reported. -/
theorem reports_overflow (run : TimerRun) (i : TimerId) :
    (run.overflow i).reports.toList =
      run.reports.toList ++ (run.timers.chain i).filterMap soundTimer? := by
  have hfirst {i : TimerId} (rest : List TimerId) : (i :: rest).filterMap soundTimer? =
      (soundTimer? i).toList ++ rest.filterMap soundTimer? := by
    rw [List.filterMap_cons]
    cases soundTimer? i <;> rfl
  have hsingle (run : TimerRun) (i : TimerId) (hchain : run.timers.chain i = [i]) :
      (run.announce i).reports.toList =
        run.reports.toList ++ (run.timers.chain i).filterMap soundTimer? := by
    rw [reports_announce, hchain, hfirst, List.filterMap_nil, List.append_nil]
  -- The cases of the loop are those of the chain: one goes on, three end.
  fun_induction overflow run i with
  | case1 run i run' h next timer hnext hlast ih =>
    have hchain : run.timers.chain i = i :: run.timers.chain next := chain_of_wraps h hnext hlast
    rw [ih, chain_set (Nat.le_refl _), hchain, hfirst, ← List.append_assoc, ← reports_announce]
    rfl
  | case2 run i run' h next timer hnext hlast =>
    exact hsingle run i (chain_of_ends fun _ hwraps => hlast hwraps.2)
  | case3 run i run' h next timer hnext =>
    exact hsingle run i (chain_of_ends fun _ hwraps => hnext hwraps.1)
  | case4 run i run' h =>
    exact hsingle run i (chain_of_ends fun hlt => absurd hlt h)

/-- The wraps of the sound timers are reported, in order. -/
theorem reports_advance (run : TimerRun) (target : Nat) :
    (run.advance target).reports.toList =
      run.reports.toList ++ (run.wraps target).filterMap soundTimer? := by
  fun_induction advance run target with
  | case1 run w h ih =>
    rw [ih, handle_eq, reports_overflow, chain_rearm, wraps_of_nextWrap h, List.filterMap_append,
      ← List.append_assoc]
    rfl
  | case2 run h =>
    rw [wraps_of_nextWrap_eq_none h, List.filterMap_nil, List.append_nil]

end TimerRun

end AdvanceCore
