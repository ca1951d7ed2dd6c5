import Vigil.Proofs.Choice.Drops

/-!
# The trend of a tracker

A tracker that was restored may show more counts than its window holds, and a run of
drops that they do not bear out.  Its first operation brings the window back to size, and
from then on the last few counts decide the trend.  A tracker that is new has seen every
drop it counts, so its window falls as far back as the run of drops reaches.
-/

namespace Vigil

namespace Trend

/-- Some count is below the one before it. -/
def Drops (counts : List Nat) : Prop :=
  ∃ previous count, [previous, count] <:+: counts ∧ count < previous

/-- Some count is above the one before it. -/
def Rises (counts : List Nat) : Prop :=
  ∃ previous count, [previous, count] <:+: counts ∧ previous < count

theorem mem_zip_tail_iff {previous count : Nat} (counts : List Nat) :
    (previous, count) ∈ counts.zip counts.tail ↔ [previous, count] <:+: counts := by
  induction counts with
  | nil => simp
  | cons first counts ih =>
      rw [List.infix_cons_iff]
      cases counts with
      | nil => simp
      | cons second counts =>
          rw [List.tail_cons] at ih
          rw [List.tail_cons, List.zip_cons_cons, List.mem_cons, ih]
          simp [List.cons_prefix_cons]

theorem neverDrops_eq_true_iff (counts : List Nat) :
    neverDrops counts = true ↔ ¬ Drops counts := by
  simp only [neverDrops, List.all_eq_true, decide_eq_true_eq, Prod.forall, mem_zip_tail_iff,
    Drops, not_exists, not_and, Nat.not_lt]

theorem neverRises_eq_true_iff (counts : List Nat) :
    neverRises counts = true ↔ ¬ Rises counts := by
  simp only [neverRises, List.all_eq_true, decide_eq_true_eq, Prod.forall, mem_zip_tail_iff,
    Rises, not_exists, not_and, Nat.not_lt]

theorem Drops.two_le_length {counts : List Nat} (h : Drops counts) : 2 ≤ counts.length := by
  obtain ⟨previous, count, hpair, -⟩ := h
  exact hpair.length_le

theorem ofCounts_cases (counts : List Nat) :
    (ofCounts counts = .stable ∧ counts.length < 2) ∨
    (ofCounts counts = .expanding ∧ 2 ≤ counts.length ∧ ¬ Drops counts) ∨
    (ofCounts counts = .eroding ∧ Drops counts ∧ ¬ Rises counts) ∨
    (ofCounts counts = .stable ∧ Drops counts ∧ Rises counts) := by
  rw [← neverDrops_eq_true_iff, ← neverRises_eq_true_iff, ofCounts]
  split_ifs with hshort hdrops hrises
  · exact Or.inl ⟨rfl, hshort⟩
  · exact Or.inr (Or.inl ⟨rfl, Nat.not_lt.mp hshort, hdrops⟩)
  · exact Or.inr (Or.inr (Or.inl ⟨rfl, not_not.mp (mt (neverDrops_eq_true_iff counts).mpr hdrops),
      hrises⟩))
  · exact Or.inr (Or.inr (Or.inr ⟨rfl,
      not_not.mp (mt (neverDrops_eq_true_iff counts).mpr hdrops),
      not_not.mp (mt (neverRises_eq_true_iff counts).mpr hrises)⟩))

theorem ofCounts_eq_expanding_iff (counts : List Nat) :
    ofCounts counts = .expanding ↔ 2 ≤ counts.length ∧ ¬ Drops counts := by
  rcases ofCounts_cases counts with ⟨h, hshort⟩ | ⟨h, hboth⟩ | ⟨h, hdrops, -⟩ | ⟨h, hdrops, -⟩
  · simp [h, Nat.not_le.mpr hshort]
  · simp [h, hboth]
  · simp [h, hdrops]
  · simp [h, hdrops]

theorem ofCounts_eq_eroding_iff (counts : List Nat) :
    ofCounts counts = .eroding ↔ Drops counts ∧ ¬ Rises counts := by
  rcases ofCounts_cases counts with ⟨h, hshort⟩ | ⟨h, -, hnone⟩ | ⟨h, hboth⟩ | ⟨h, -, hrises⟩
  · have hnone : ¬ Drops counts := fun hdrops => Nat.not_le.mpr hshort hdrops.two_le_length
    simp [h, hnone]
  · simp [h, hnone]
  · simp [h, hboth]
  · simp [h, hrises]

theorem ofCounts_eq_stable_iff (counts : List Nat) :
    ofCounts counts = .stable ↔ counts.length < 2 ∨ (Drops counts ∧ Rises counts) := by
  rcases ofCounts_cases counts with
    ⟨h, hshort⟩ | ⟨h, hlong, hnone⟩ | ⟨h, hdrops, hnone⟩ | ⟨h, hboth⟩
  · exact iff_of_true h (Or.inl hshort)
  · rw [h]
    refine iff_of_false nofun ?_
    rintro (hshort | ⟨hdrops, -⟩)
    · exact Nat.not_lt.mpr hlong hshort
    · exact hnone hdrops
  · rw [h]
    refine iff_of_false nofun ?_
    rintro (hshort | ⟨-, hrises⟩)
    · exact Nat.not_lt.mpr hdrops.two_le_length hshort
    · exact hnone hrises
  · exact iff_of_true h (Or.inr hboth)

theorem ofCounts_of_isChain {counts : List Nat} (hlong : 2 ≤ counts.length)
    (hchain : counts.IsChain (· > ·)) : ofCounts counts = .eroding := by
  rw [ofCounts_eq_eroding_iff]
  constructor
  · rcases counts with _ | ⟨first, _ | ⟨second, rest⟩⟩
    · exact absurd hlong (by decide)
    · exact absurd hlong (by simp)
    · exact ⟨first, second, (List.prefix_append [first, second] rest).isInfix,
        (List.isChain_cons_cons.mp hchain).1⟩
  · rintro ⟨previous, count, hpair, hrise⟩
    have hfalls : [previous, count].IsChain (· > ·) := List.IsChain.infix hchain hpair
    have hdrop : previous > count := List.isChain_pair.mp hfalls
    exact Nat.lt_asymm hdrop hrise

end Trend

namespace Tracker

/-! ## Ends of a list -/

theorem lastOf_lastOf_of_le {β : Type} {j k : Nat} (h : j ≤ k) (xs : List β) :
    lastOf j (lastOf k xs) = lastOf j xs := by
  simp only [lastOf, List.length_drop, List.drop_drop]
  congr 1
  omega

theorem lastOf_suffix_of_le {β : Type} {j k : Nat} (h : j ≤ k) (xs : List β) :
    lastOf j xs <:+ lastOf k xs := by
  rw [← lastOf_lastOf_of_le h]
  exact List.drop_suffix _ _

/-! ## Runs of a tracker -/

inductive Operation
  | track (count : Nat)
  | reset
deriving DecidableEq, Repr

def apply (t : Tracker) : Operation → Tracker
  | .track count => (t.track count).2
  | .reset => t.reset

def run (t : Tracker) (ops : List Operation) : Tracker := ops.foldl apply t

/-- The counts since the last reset.  Those that a tracker starts with come first. -/
def counted (start : List Nat) (ops : List Operation) : List Nat :=
  ops.foldl (fun counts op => match op with
    | .track count => counts ++ [count]
    | .reset => []) start

theorem apply_track (t : Tracker) (count : Nat) : t.apply (.track count) = t.record count := rfl

@[simp] theorem run_nil (t : Tracker) : t.run [] = t := rfl

theorem run_append (t : Tracker) (ops more : List Operation) :
    t.run (ops ++ more) = (t.run ops).run more :=
  List.foldl_append

theorem run_concat (t : Tracker) (ops : List Operation) (op : Operation) :
    t.run (ops ++ [op]) = (t.run ops).apply op :=
  run_append t ops [op]

@[simp] theorem counted_nil (start : List Nat) : counted start [] = start := rfl

theorem counted_concat_track (start : List Nat) (ops : List Operation) (count : Nat) :
    counted start (ops ++ [.track count]) = counted start ops ++ [count] := by
  simp [counted]

theorem counted_concat_reset (start : List Nat) (ops : List Operation) :
    counted start (ops ++ [.reset]) = [] := by
  simp [counted]

/-- A tracker as it is created, with a threshold of its own or with the usual one. -/
def IsNew (t : Tracker) : Prop := t = default ∨ ∃ threshold, t = new threshold

theorem IsNew.history_eq {t : Tracker} (h : t.IsNew) : t.history = [] := by
  rcases h with rfl | ⟨threshold, rfl⟩ <;> rfl

theorem IsNew.streak_eq {t : Tracker} (h : t.IsNew) : t.streak = 0 := by
  rcases h with rfl | ⟨threshold, rfl⟩ <;> rfl

theorem alertThreshold_run (t : Tracker) (ops : List Operation) :
    (t.run ops).alertThreshold = t.alertThreshold := by
  induction ops using List.reverseRecOn with
  | nil => rfl
  | append_singleton ops op ih =>
      rw [run_concat]
      cases op with
      | track count => exact ih
      | reset => exact ih

/-- The window shows the end of the counts since the last reset. -/
theorem history_run {t : Tracker} {ops : List Operation} (h : t.IsNew ∨ ops ≠ []) :
    (t.run ops).history = lastOf window (counted t.history ops) := by
  induction ops using List.reverseRecOn with
  | nil =>
      have hnew : t.history = [] := (h.resolve_right (· rfl)).history_eq
      rw [run_nil, counted_nil, hnew]
      rfl
  | append_singleton ops op ih =>
      rw [run_concat]
      cases op with
      | track count =>
          rw [apply_track, history_record, counted_concat_track]
          -- A restored window may be too long until the first count has cut it.
          by_cases hnil : ops = []
          · rw [hnil, run_nil, counted_nil]
          · rw [ih (Or.inr hnil), lastOf_lastOf_append]
      | reset =>
          rw [counted_concat_reset]
          rfl

theorem history_run_congr {t other : Tracker} (h : t.history = other.history)
    (ops : List Operation) : (t.run ops).history = (other.run ops).history := by
  induction ops using List.reverseRecOn with
  | nil => exact h
  | append_singleton ops op ih =>
      rw [run_concat, run_concat]
      cases op with
      | track count =>
          rw [apply_track, apply_track, history_record, history_record, ih]
      | reset => rfl

section New

variable {t : Tracker} (h : t.IsNew)

include h

/-- The counter of a tracker that was new is the length of the last run of drops since it
was created or reset. -/
theorem streak_run (ops : List Operation) :
    (t.run ops).streak = finalDrops (counted t.history ops) := by
  induction ops using List.reverseRecOn with
  | nil =>
      rw [run_nil, counted_nil, h.streak_eq, h.history_eq]
      rfl
  | append_singleton ops op ih =>
      rw [run_concat]
      cases op with
      | track count =>
          rw [apply_track, streak_record, counted_concat_track]
          exact nextStreak_eq_finalDrops (history_run (Or.inl h)) ih count
      | reset =>
          rw [counted_concat_reset]
          rfl

/-- The window falls as far back as the run of drops reaches. -/
theorem history_run_falls (ops : List Operation) :
    (0 < (t.run ops).streak → min ((t.run ops).streak + 1) window ≤ (t.run ops).history.length) ∧
    (lastOf (min ((t.run ops).streak + 1) window) (t.run ops).history).IsChain (· > ·) := by
  rw [history_run (Or.inl h), streak_run h, lastOf_lastOf_of_le (Nat.min_le_right _ _),
    length_lastOf]
  generalize counted t.history ops = counts
  rcases (le_finalDrops_iff (finalDrops counts) counts).mp (Nat.le_refl _) with
    hzero | ⟨hlong, hchain⟩
  · rw [hzero]
    exact ⟨fun hpos => absurd hpos (Nat.lt_irrefl 0), isChain_lastOf_one counts⟩
  · refine ⟨fun _ => by omega, hchain.suffix (lastOf_suffix_of_le (Nat.min_le_left _ _) counts)⟩

theorem trend_run_of_four_le {ops : List Operation} (hfour : 4 ≤ (t.run ops).streak) :
    (t.run ops).trend = .eroding := by
  obtain ⟨hlong, hchain⟩ := history_run_falls h ops
  have hfull : min ((t.run ops).streak + 1) window = window := by
    simp only [window]
    omega
  rw [hfull] at hlong hchain
  have hall : lastOf window (t.run ops).history = (t.run ops).history := by
    rw [history_run (Or.inl h), lastOf_lastOf_of_le (Nat.le_refl _)]
  rw [hall] at hchain
  have hwindow : window ≤ (t.run ops).history.length := hlong (by omega)
  exact Trend.ofCounts_of_isChain (Nat.le_trans (by decide) hwindow) hchain

/-- An alert is raised by a run of drops as long as the threshold. -/
theorem trend_of_alert (ops : List Operation) (hthreshold : 4 ≤ t.alertThreshold) {count : Nat}
    (halert : ((t.run ops).track count).1 = true) :
    ((t.run ops).track count).2.trend = .eroding := by
  have hrun : ((t.run ops).track count).2 = t.run (ops ++ [.track count]) := by
    rw [run_concat]
    rfl
  have hreached : (t.run ops).alertThreshold ≤ ((t.run ops).track count).2.streak :=
    of_decide_eq_true halert
  rw [alertThreshold_run, hrun] at hreached
  rw [hrun]
  exact trend_run_of_four_le h (Nat.le_trans hthreshold hreached)

end New

/-- The last five counts since the creation or the last reset decide the trend of a tracker
that is new or has done something since it was restored: it expands if they never drop, and
erodes if they drop and never rise, and is stable if there are fewer than two or if they do
both.  Two trackers that show the same keep the same trend.  If the tracker was new, then
its counts fall as far back as its run of drops and the window reach, so that it erodes
after four drops in a row, and whenever it alerts with a threshold of four or more. -/
theorem run_trend_of_window (t : Tracker) (ops : List Operation) (h : t.IsNew ∨ ops ≠ []) :
    let last := t.run ops
    let shown := lastOf 5 (counted t.history ops)
    (last.history = shown ∧ last.history.length ≤ 5) ∧
    (last.trend = .expanding ↔ 2 ≤ shown.length ∧ ¬ Trend.Drops shown) ∧
    (last.trend = .eroding ↔ Trend.Drops shown ∧ ¬ Trend.Rises shown) ∧
    (last.trend = .stable ↔ shown.length < 2 ∨ (Trend.Drops shown ∧ Trend.Rises shown)) ∧
    (∀ (other : Tracker) (otherOps : List Operation), other.IsNew ∨ otherOps ≠ [] →
      lastOf 5 (counted other.history otherOps) = shown →
        ∀ more, (other.run (otherOps ++ more)).trend = (t.run (ops ++ more)).trend) ∧
    (t.IsNew →
      (0 < last.streak → min (last.streak + 1) 5 ≤ last.history.length) ∧
      (lastOf (min (last.streak + 1) 5) last.history).IsChain (· > ·) ∧
      (4 ≤ last.streak → last.trend = .eroding) ∧
      (4 ≤ t.alertThreshold → ∀ count, (last.track count).1 = true →
        (last.track count).2.trend = .eroding)) := by
  intro last shown
  have hhistory : last.history = shown := history_run h
  have htrend : last.trend = .ofCounts shown := congrArg Trend.ofCounts hhistory
  refine ⟨⟨hhistory, ?_⟩, ?_, ?_, ?_, ?_, ?_⟩
  · rw [hhistory, length_lastOf]
    exact Nat.min_le_left _ _
  · rw [htrend]
    exact Trend.ofCounts_eq_expanding_iff shown
  · rw [htrend]
    exact Trend.ofCounts_eq_eroding_iff shown
  · rw [htrend]
    exact Trend.ofCounts_eq_stable_iff shown
  · intro other otherOps hother hsame more
    have hhistories : (other.run otherOps).history = last.history := by
      rw [hhistory, ← hsame]
      exact history_run hother
    rw [run_append, run_append]
    exact congrArg Trend.ofCounts (history_run_congr hhistories more)
  · intro hnew
    obtain ⟨hlong, hfalls⟩ := history_run_falls hnew ops
    exact ⟨hlong, hfalls, trend_run_of_four_le hnew,
      fun hthreshold count halert => trend_of_alert hnew ops hthreshold halert⟩

/-- A tracker restored with seven counts erodes by a level count at its end, and goes on
like one that has seen nothing but the last five.  A new one alerts after four drops. -/
theorem run_trend_of_window_restored :
    let restored : Tracker := ⟨[1, 2, 9, 8, 7, 6, 5], 2, 0⟩
    let short : List Operation := [.track 8, .track 7, .track 6, .track 5, .track 5]
    let falling : List Operation := [.track 9, .reset, .track 8, .track 6, .track 5, .track 3]
    (restored.run [.track 5]).trend = .eroding ∧
    (∀ more, (default.run (short ++ more)).trend = (restored.run ([.track 5] ++ more)).trend) ∧
    (((new 4).run falling).track 1).1 = true ∧
    (((new 4).run falling).track 1).2.trend = .eroding := by
  intro restored short falling
  have hdrops : Trend.Drops [8, 7, 6, 5, 5] := ⟨8, 7, ⟨[], [6, 5, 5], rfl⟩, by decide⟩
  have hlevel : ¬ Trend.Rises [8, 7, 6, 5, 5] := (Trend.neverRises_eq_true_iff _).mp (by decide)
  obtain ⟨-, -, herodes, -, hsame, -⟩ :=
    run_trend_of_window restored [.track 5] (Or.inr (by decide))
  obtain ⟨-, -, -, -, -, hnew⟩ := run_trend_of_window (new 4) falling (Or.inl (Or.inr ⟨4, rfl⟩))
  have halert : (((new 4).run falling).track 1).1 = true := by decide
  exact ⟨herodes.mpr ⟨hdrops, hlevel⟩, hsame default short (Or.inl (Or.inl rfl)) (by decide),
    halert, (hnew (Or.inr ⟨4, rfl⟩)).2.2.2 (by decide) 1 halert⟩

end Tracker
end Vigil
