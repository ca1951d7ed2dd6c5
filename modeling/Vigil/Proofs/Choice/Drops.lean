import Mathlib.Data.List.Chain
import Mathlib.Data.List.Induction
import Vigil.Choice.Erosion

/-!
# Drops of a series

A tracker forgets all but the last few counts, and remembers of the others only
how long the current run of drops is.  That is enough: what it says of a series
is what the whole series says.
-/

namespace Vigil.Tracker

/-- The length of the run of drops that ends a series, newest count first. -/
def dropsBack : List Nat → Nat
  | count :: previous :: older =>
    if count < previous then dropsBack (previous :: older) + 1 else 0
  | _ => 0

/-- The length of the run of drops that ends a series, oldest count first. -/
def finalDrops (counts : List Nat) : Nat := dropsBack counts.reverse

@[simp] theorem finalDrops_nil : finalDrops [] = 0 := rfl

theorem finalDrops_concat (counts : List Nat) (count : Nat) :
    finalDrops (counts ++ [count]) =
      match counts.getLast? with
      | none => 0
      | some previous => if count < previous then finalDrops counts + 1 else 0 := by
  induction counts using List.reverseRecOn with
  | nil => rfl
  | append_singleton older previous _ => simp [finalDrops, dropsBack]

theorem lastOf_concat {β : Type} (k : Nat) (xs : List β) (x : β) :
    lastOf (k + 1) (xs ++ [x]) = lastOf k xs ++ [x] := by
  simp only [lastOf, List.length_append, List.length_singleton]
  rw [List.drop_append_of_le_length (by omega)]
  congr 2
  omega

theorem getLast?_lastOf {β : Type} {k : Nat} (hk : 0 < k) (xs : List β) :
    (lastOf k xs).getLast? = xs.getLast? := by
  rw [lastOf, List.getLast?_drop]
  split
  · have hnil : xs = [] := List.eq_nil_of_length_eq_zero (by omega)
    rw [hnil]
    rfl
  · rfl

theorem lastOf_append_of_le_length {β : Type} {k : Nat} (xs : List β) {ys : List β}
    (h : k ≤ ys.length) : lastOf k (xs ++ ys) = lastOf k ys := by
  have hindex : (xs ++ ys).length - k = xs.length + (ys.length - k) := by
    rw [List.length_append]
    omega
  rw [lastOf, lastOf, hindex, List.drop_length_add_append]

theorem lastOf_lastOf_append {β : Type} (k : Nat) (xs ys : List β) :
    lastOf k (lastOf k xs ++ ys) = lastOf k (xs ++ ys) := by
  by_cases hle : xs.length ≤ k
  · have hall : lastOf k xs = xs := by
      rw [lastOf, Nat.sub_eq_zero_of_le hle, List.drop_zero]
    rw [hall]
  · have hlen : k ≤ (lastOf k xs ++ ys).length := by
      rw [List.length_append, length_lastOf]
      omega
    have hsplit : xs.take (xs.length - k) ++ lastOf k xs = xs :=
      List.take_append_drop (xs.length - k) xs
    rw [← lastOf_append_of_le_length (xs.take (xs.length - k)) hlen, ← List.append_assoc, hsplit]

theorem isChain_lastOf_one (counts : List Nat) : (lastOf 1 counts).IsChain (· > ·) := by
  have hlen := length_lastOf 1 counts
  match h : lastOf 1 counts with
  | [] => exact .nil
  | [count] => exact .singleton count
  | _ :: _ :: _ =>
      rw [h] at hlen
      simp only [List.length_cons] at hlen
      omega

/-- The last drops of a series are at least `k` if its last `k + 1` counts exist
and decrease, and only then. -/
theorem le_finalDrops_iff (k : Nat) (counts : List Nat) :
    k ≤ finalDrops counts ↔
      k = 0 ∨ (k < counts.length ∧ (lastOf (k + 1) counts).IsChain (· > ·)) := by
  induction counts using List.reverseRecOn generalizing k with
  | nil => simp
  | append_singleton counts count ih =>
      cases k with
      | zero => simp
      | succ k =>
          rw [finalDrops_concat, lastOf_concat, List.isChain_append,
            getLast?_lastOf (Nat.succ_pos k)]
          cases hlast : counts.getLast? with
          | none =>
              have hnil := List.getLast?_eq_none_iff.mp hlast
              simp [hnil]
          | some previous =>
              have hne : counts ≠ [] := by
                rintro rfl
                simp at hlast
              have hpos := List.length_pos_iff.mpr hne
              have hih := ih k
              by_cases hdrop : count < previous
              · have hlast : ∀ x ∈ some previous, ∀ y ∈ [count].head?, x > y := by
                  intro x hx y hy
                  rw [← Option.some.inj hx, ← Option.some.inj hy]
                  exact hdrop
                simp only [if_pos hdrop, Nat.succ_le_succ_iff, hih, List.length_append,
                  List.length_singleton]
                constructor
                · rintro (rfl | ⟨hlt, hchain⟩)
                  · exact Or.inr ⟨by omega, isChain_lastOf_one counts, .singleton count, hlast⟩
                  · exact Or.inr ⟨by omega, hchain, .singleton count, hlast⟩
                · rintro (h | ⟨hlt, hchain, -, -⟩)
                  · omega
                  · exact Or.inr ⟨by omega, hchain⟩
              · simp [hdrop]

/-- Three drops end a series if its last four counts exist and decrease. -/
theorem three_le_finalDrops_iff (counts : List Nat) :
    3 ≤ finalDrops counts ↔
      ∃ older w x y z, counts = older ++ [w, x, y, z] ∧ x < w ∧ y < x ∧ z < y := by
  rw [le_finalDrops_iff]
  constructor
  · rintro (h | ⟨hlt, hchain⟩)
    · omega
    · have hlen : (lastOf 4 counts).length = 4 := by
        rw [length_lastOf]
        omega
      have hsplit := List.take_append_drop (counts.length - 4) counts
      obtain ⟨w, x, y, z, hfour⟩ := List.length_eq_four.mp hlen
      rw [hfour] at hchain
      refine ⟨counts.take (counts.length - 4), w, x, y, z, ?_, ?_⟩
      · rw [← hfour]
        exact hsplit.symm
      · simpa using hchain
  · rintro ⟨older, w, x, y, z, rfl, hxw, hyx, hzy⟩
    have hfour : lastOf 4 (older ++ [w, x, y, z]) = [w, x, y, z] :=
      lastOf_append_of_le_length older (Nat.le_refl 4)
    refine Or.inr ⟨by simp, ?_⟩
    rw [hfour]
    simp [hxw, hyx, hzy]

def recordAll (t : Tracker) (counts : List Nat) : Tracker := counts.foldl record t

@[simp] theorem recordAll_nil (t : Tracker) : t.recordAll [] = t := rfl

theorem recordAll_cons (t : Tracker) (count : Nat) (counts : List Nat) :
    t.recordAll (count :: counts) = (t.record count).recordAll counts := rfl

theorem recordAll_append (t : Tracker) (counts counts' : List Nat) :
    t.recordAll (counts ++ counts') = (t.recordAll counts).recordAll counts' :=
  List.foldl_append

theorem recordAll_concat (t : Tracker) (counts : List Nat) (count : Nat) :
    t.recordAll (counts ++ [count]) = (t.recordAll counts).record count :=
  recordAll_append t counts [count]

@[simp] theorem alertThreshold_recordAll (t : Tracker) (counts : List Nat) :
    (t.recordAll counts).alertThreshold = t.alertThreshold := by
  induction counts generalizing t with
  | nil => rfl
  | cons count counts ih => rw [recordAll_cons, ih, alertThreshold_record]

/-- The window shows the end of all that was recorded, and of what it showed before. -/
theorem history_recordAll (t : Tracker) {counts : List Nat} (hne : counts ≠ []) :
    (t.recordAll counts).history = lastOf window (t.history ++ counts) := by
  induction counts using List.reverseRecOn with
  | nil => exact absurd rfl hne
  | append_singleton counts count ih =>
      rw [recordAll_concat, history_record, ← List.append_assoc]
      by_cases hnil : counts = []
      · rw [hnil, recordAll_nil, List.append_nil]
      · rw [ih hnil, lastOf_lastOf_append]

theorem history_recordAll_new (threshold : Nat) (counts : List Nat) :
    ((new threshold).recordAll counts).history = lastOf window counts := by
  by_cases hnil : counts = []
  · rw [hnil]
    rfl
  · exact history_recordAll (new threshold) hnil

/-- A tracker whose window shows the end of a series and whose counter is the length of its
last run of drops goes on so. -/
theorem nextStreak_eq_finalDrops {t : Tracker} {counts : List Nat}
    (hhistory : t.history = lastOf window counts) (hstreak : t.streak = finalDrops counts)
    (count : Nat) : t.nextStreak count = finalDrops (counts ++ [count]) := by
  have hlatest : t.history.getLast? = counts.getLast? := by
    rw [hhistory, getLast?_lastOf (by decide)]
  rw [finalDrops_concat]
  cases hlast : counts.getLast? with
  | none =>
      rw [nextStreak_of_none (hlatest.trans hlast), hstreak, List.getLast?_eq_none_iff.mp hlast]
      rfl
  | some previous => rw [nextStreak_of_some (hlatest.trans hlast), hstreak]

/-- The counter of a fresh tracker is the length of the last run of drops, however
far it reaches beyond the window. -/
theorem streak_recordAll_new (threshold : Nat) (counts : List Nat) :
    ((new threshold).recordAll counts).streak = finalDrops counts := by
  induction counts using List.reverseRecOn with
  | nil => rfl
  | append_singleton counts count ih =>
      rw [recordAll_concat, streak_record]
      exact nextStreak_eq_finalDrops (history_recordAll_new threshold counts) ih count

end Vigil.Tracker
