import Mathlib.Order.Bounds.Basic
import Vigil.Proofs.Choice.Drops

/-!
# Tracking a series

What a tracker shows after a series of counts is what an unbounded history would
show, whatever the tracker started from.  It may have been restored with a history
longer than its window, or with a run of drops that no history bears out.  The run is
taken over as it stands, and it ends at the first count that does not drop.
-/

namespace Vigil.Tracker

/-- Tracks counts in turn.  The alerts come in the same order. -/
def trackAll (t : Tracker) : List Nat → List Bool × Tracker
  | [] => ([], t)
  | count :: counts =>
    let (alert, tracked) := t.track count
    let (alerts, last) := tracked.trackAll counts
    (alert :: alerts, last)

/-- The counts that have one before them in the whole series, each behind it. -/
def steps (history counts : List Nat) : List (Nat × Nat) :=
  ((history ++ counts).zip (history ++ counts).tail).drop (history.length - 1)

def Falls (history counts : List Nat) : Prop := ∀ p ∈ steps history counts, p.2 < p.1

instance (history counts : List Nat) : Decidable (Falls history counts) :=
  inferInstanceAs (Decidable (∀ p ∈ steps history counts, p.2 < p.1))

section Steps

theorem zip_tail_concat (counts : List Nat) (count : Nat) :
    (counts ++ [count]).zip (counts ++ [count]).tail =
      counts.zip counts.tail ++ counts.getLast?.toList.map fun previous => (previous, count) := by
  induction counts with
  | nil => rfl
  | cons first counts ih =>
      cases counts with
      | nil => rfl
      | cons second counts =>
          simp only [List.cons_append, List.tail_cons, List.zip_cons_cons,
            List.getLast?_cons_cons] at ih ⊢
          rw [ih]

@[simp] theorem steps_nil (history : List Nat) : steps history [] = [] := by
  simp [steps, List.drop_eq_nil_iff]

theorem steps_concat (history counts : List Nat) (count : Nat) :
    steps history (counts ++ [count]) =
      steps history counts ++
        (history ++ counts).getLast?.toList.map fun previous => (previous, count) := by
  unfold steps
  rw [← List.append_assoc, zip_tail_concat, List.drop_append_of_le_length]
  simp only [List.length_zip, List.length_tail, List.length_append]
  omega

theorem falls_concat (history counts : List Nat) (count : Nat) :
    Falls history (counts ++ [count]) ↔
      Falls history counts ∧ ∀ previous ∈ (history ++ counts).getLast?, count < previous := by
  unfold Falls
  rw [steps_concat]
  cases (history ++ counts).getLast? with
  | none => simp
  | some previous =>
      simp only [Option.toList_some, List.map_cons, List.map_nil, List.forall_mem_append,
        List.forall_mem_singleton, Option.mem_some_iff, forall_eq']

end Steps

/-- The run of drops that ends a series is the longest of its kind. -/
theorem isGreatest_finalDrops {counts : List Nat} (hne : counts ≠ []) :
    IsGreatest {k | k < counts.length ∧ (lastOf (k + 1) counts).IsChain (· > ·)}
      (finalDrops counts) := by
  constructor
  · rcases (le_finalDrops_iff (finalDrops counts) counts).mp (Nat.le_refl _) with hzero | hrun
    · rw [hzero]
      exact ⟨List.length_pos_iff.mpr hne, isChain_lastOf_one counts⟩
    · exact hrun
  · intro k hk
    exact (le_finalDrops_iff k counts).mpr (Or.inr hk)

theorem getLast?_history_recordAll (t : Tracker) (counts : List Nat) :
    (t.recordAll counts).history.getLast? = (t.history ++ counts).getLast? := by
  by_cases hnil : counts = []
  · rw [hnil, recordAll_nil, List.append_nil]
  · rw [history_recordAll t hnil, getLast?_lastOf (by decide)]

/-- The run of drops that a tracker starts with goes on as long as every count drops. After
that only the series counts. -/
theorem streak_recordAll (t : Tracker) (counts : List Nat) :
    (t.recordAll counts).streak =
      if Falls t.history counts then t.streak + (steps t.history counts).length
      else finalDrops (t.history ++ counts) := by
  induction counts using List.reverseRecOn with
  | nil => simp [Falls]
  | append_singleton counts count ih =>
      have hlatest := getLast?_history_recordAll t counts
      rw [recordAll_concat, streak_record]
      simp only [falls_concat, steps_concat, ← List.append_assoc, finalDrops_concat]
      cases hlast : (t.history ++ counts).getLast? with
      | none =>
          have hnil := List.append_eq_nil_iff.mp (List.getLast?_eq_none_iff.mp hlast)
          rw [nextStreak_of_none (hlatest.trans hlast)]
          simp [Falls, hnil]
      | some previous =>
          rw [nextStreak_of_some (hlatest.trans hlast)]
          by_cases hdrop : count < previous
          · by_cases hfalls : Falls t.history counts
            · simp [hdrop, hfalls, ih, Nat.add_assoc]
            · simp [hdrop, hfalls, ih]
          · simp [hdrop]

section Alerts

theorem snd_trackAll (t : Tracker) (counts : List Nat) :
    (t.trackAll counts).2 = t.recordAll counts := by
  induction counts generalizing t with
  | nil => rfl
  | cons count counts ih => exact ih (t.record count)

theorem getElem?_fst_trackAll (t : Tracker) (before : List Nat) (count : Nat)
    (after : List Nat) :
    (t.trackAll (before ++ count :: after)).1[before.length]? =
      some (decide (t.alertThreshold ≤ (t.recordAll (before ++ [count])).streak)) := by
  induction before generalizing t with
  | nil => rfl
  | cons first before ih => exact ih (t.record first)

end Alerts

/-- The run of drops grows by one with a count at most, so it stays a machine word as long as the
run it started from and the number of counts do together. -/
theorem streak_recordAll_le (t : Tracker) (counts : List Nat) :
    (t.recordAll counts).streak ≤ t.streak + counts.length := by
  induction counts generalizing t with
  | nil => exact Nat.le_refl _
  | cons count counts ih =>
      have hrest := ih (t.record count)
      have hstep : (t.record count).streak ≤ t.streak + 1 := by
        rw [streak_record]
        cases hlast : t.history.getLast? with
        | none =>
            rw [nextStreak_of_none hlast]
            omega
        | some previous =>
            rw [nextStreak_of_some hlast]
            split <;> omega
      rw [recordAll_cons, List.length_cons]
      omega

/-- A tracker that starts anew alerts if its last counts decrease, as many as the threshold
says and one more. -/
theorem getElem?_fst_trackAll_new (threshold : Nat) (before : List Nat) (count : Nat)
    (after : List Nat) :
    ((new threshold).trackAll (before ++ count :: after)).1[before.length]? = some true ↔
      threshold = 0 ∨ (threshold < (before ++ [count]).length ∧
        (lastOf (threshold + 1) (before ++ [count])).IsChain (· > ·)) := by
  rw [getElem?_fst_trackAll, streak_recordAll_new, Option.some.injEq, decide_eq_true_iff]
  exact le_finalDrops_iff threshold (before ++ [count])

/-- Whatever a tracker starts from, after some counts its window shows the end of the whole
series.  The run of drops is the one it started with and all the counts, if every count
drops, and otherwise the longest run of drops that ends the series; it outgrows a machine
word only if the counts do.  Every alert is raised by the run of its time, and a tracker
that is new or reset alerts when the last counts decrease. -/
theorem trackAll_shows_whole_series (t : Tracker) {counts : List Nat} (hne : counts ≠ []) :
    let series := t.history ++ counts
    let last := (t.trackAll counts).2
    last.history = lastOf 5 series ∧
    (Falls t.history counts → last.streak = t.streak + (steps t.history counts).length) ∧
    (¬ Falls t.history counts →
      IsGreatest {k | k < series.length ∧ (lastOf (k + 1) series).IsChain (· > ·)} last.streak) ∧
    (t.streak + counts.length < UInt64.size → last.streak < UInt64.size) ∧
    ∀ before count after, counts = before ++ count :: after →
      (t.trackAll counts).1[before.length]? =
        some (decide (t.alertThreshold ≤ (t.trackAll (before ++ [count])).2.streak)) ∧
      ∀ start threshold, (start = new threshold ∨
          ∃ used : Tracker, used.alertThreshold = threshold ∧ start = used.reset) →
        ((start.trackAll counts).1[before.length]? = some true ↔
          threshold = 0 ∨ (threshold < (before ++ [count]).length ∧
            (lastOf (threshold + 1) (before ++ [count])).IsChain (· > ·))) := by
  intro series last
  have hlast : last = t.recordAll counts := snd_trackAll t counts
  have hseries : series ≠ [] := fun hnil => hne (List.append_eq_nil_iff.mp hnil).2
  refine ⟨?_, ?_, ?_, ?_, ?_⟩
  · rw [hlast]
    exact history_recordAll t hne
  · intro hfalls
    rw [hlast, streak_recordAll, if_pos hfalls]
  · intro hfalls
    rw [hlast, streak_recordAll, if_neg hfalls]
    exact isGreatest_finalDrops hseries
  · intro hfits
    rw [hlast]
    exact Nat.lt_of_le_of_lt (streak_recordAll_le t counts) hfits
  · intro before count after hcounts
    constructor
    · rw [hcounts, getElem?_fst_trackAll, snd_trackAll]
    · intro start threshold hstart
      have hnew : start = new threshold := by
        rcases hstart with hstart | ⟨used, hthreshold, hstart⟩
        · exact hstart
        · rw [hstart, reset, hthreshold]
      rw [hcounts, hnew]
      exact getElem?_fst_trackAll_new threshold before count after

/-- A tracker restored with six counts and a run of seven drops goes on falling, and starts
a run of its own after a rise. -/
theorem trackAll_shows_restored_series :
    let restored : Tracker := ⟨[9, 8, 7, 6, 5, 4], 3, 7⟩
    [3, 2, 5, 4] ≠ [] ∧ (restored.trackAll [3, 2]).2.streak = 9 ∧
      (restored.trackAll [3, 2, 5, 4]).2.history = [4, 3, 2, 5, 4] ∧
      IsGreatest {k | k < 10 ∧ (lastOf (k + 1) [9, 8, 7, 6, 5, 4, 3, 2, 5, 4]).IsChain (· > ·)}
        (restored.trackAll [3, 2, 5, 4]).2.streak := by
  intro restored
  have hshort : [3, 2] ≠ [] := by decide
  have hlong : [3, 2, 5, 4] ≠ [] := by decide
  obtain ⟨-, hfalls, -⟩ := trackAll_shows_whole_series restored hshort
  obtain ⟨hhistory, -, hrun, -⟩ := trackAll_shows_whole_series restored hlong
  exact ⟨hlong, hfalls (by decide), hhistory, hrun (by decide)⟩

end Vigil.Tracker
