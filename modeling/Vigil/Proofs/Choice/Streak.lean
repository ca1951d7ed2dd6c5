import Vigil.Proofs.Choice.Trend

/-!
# Room for the run of drops

A tracker may be fed for ever, and nothing in it caps the run of drops.  But each drop
takes at least one off the latest count, and leaves as much room for the run.  So the
two together never exceed the greatest count that a machine word holds, and the run can
always be raised by one where a count drops.
-/

namespace Vigil.Tracker

variable {limit : Nat} {t : Tracker}

/-- The run of drops and the latest count fit under the limit together.  Before the first
count there is no run. -/
structure Fits (limit : Nat) (t : Tracker) : Prop where
  latest : ∀ count, t.history.getLast? = some count → t.streak + count ≤ limit
  idle : t.history = [] → t.streak = 0

/-- Whether an operation brings in no count beyond the limit. -/
def Operation.Within (limit : Nat) : Operation → Prop
  | .track count => count ≤ limit
  | .reset => True

theorem getLast?_history_record (t : Tracker) (count : Nat) :
    (t.record count).history.getLast? = some count := by
  rw [history_record, getLast?_lastOf (by decide), List.getLast?_concat]

namespace Fits

theorem of_isNew (h : t.IsNew) (limit : Nat) : Fits limit t where
  latest count hlast := by
    rw [h.history_eq] at hlast
    cases hlast
  idle _ := h.streak_eq

/-- A drop takes more off the count than it adds to the run. -/
theorem nextStreak_add_le (h : Fits limit t) {count : Nat} (hcount : count ≤ limit) :
    t.nextStreak count + count ≤ limit := by
  cases hlast : t.history.getLast? with
  | none =>
      have hidle := h.idle (List.getLast?_eq_none_iff.mp hlast)
      rw [nextStreak_of_none hlast]
      omega
  | some previous =>
      have hlatest := h.latest previous hlast
      rw [nextStreak_of_some hlast]
      split <;> omega

theorem record (h : Fits limit t) {count : Nat} (hcount : count ≤ limit) :
    Fits limit (t.record count) where
  latest latest hlast := by
    have heq : count = latest := by
      rw [getLast?_history_record] at hlast
      exact Option.some.inj hlast
    rw [streak_record, ← heq]
    exact h.nextStreak_add_le hcount
  idle hnil := by
    have hlast := getLast?_history_record t count
    rw [hnil] at hlast
    cases hlast

theorem apply (h : Fits limit t) {op : Operation} (hop : op.Within limit) :
    Fits limit (t.apply op) := by
  cases op with
  | track count => exact h.record hop
  | reset => exact of_isNew (Or.inr ⟨t.alertThreshold, rfl⟩) limit

theorem run (h : Fits limit t) {ops : List Operation} (hops : ∀ op ∈ ops, op.Within limit) :
    Fits limit (t.run ops) := by
  induction ops generalizing t with
  | nil => exact h
  | cons op ops ih =>
      obtain ⟨hop, hrest⟩ := List.forall_mem_cons.mp hops
      exact ih (h.apply hop) hrest

end Fits

/-! ## Counting in a word -/

/-- An operation on a tracker whose run of drops is kept in a word: it fails if the word
cannot hold the run. -/
def applyWithin? (limit : Nat) (t : Tracker) (op : Operation) : Option Tracker :=
  if (t.apply op).streak ≤ limit then some (t.apply op) else none

def runWithin? (limit : Nat) (t : Tracker) (ops : List Operation) : Option Tracker :=
  ops.foldlM (applyWithin? limit) t

theorem Fits.streak_le (h : Fits limit t) : t.streak ≤ limit := by
  cases hlast : t.history.getLast? with
  | none =>
      rw [h.idle (List.getLast?_eq_none_iff.mp hlast)]
      exact Nat.zero_le limit
  | some count => exact Nat.le_trans (Nat.le_add_right _ _) (h.latest count hlast)

theorem Fits.runWithin?_eq_some (h : Fits limit t) {ops : List Operation}
    (hops : ∀ op ∈ ops, op.Within limit) : t.runWithin? limit ops = some (t.run ops) := by
  induction ops generalizing t with
  | nil => rfl
  | cons op ops ih =>
      obtain ⟨hop, hrest⟩ := List.forall_mem_cons.mp hops
      have hnext : Fits limit (t.apply op) := h.apply hop
      rw [runWithin?, List.foldlM_cons, applyWithin?, if_pos hnext.streak_le]
      exact ih hnext hrest

/-- As long as no count exceeds the limit, a tracker that was new has a run of drops that
fits under it together with the latest count, and none before the first count.  So a run
can be raised where a count drops, and operations that check for it never fail. -/
theorem run_streak_fits (limit : Nat) {t : Tracker} (h : t.IsNew) {ops : List Operation}
    (hops : ∀ op ∈ ops, op.Within limit) :
    let last := t.run ops
    (∀ count, last.history.getLast? = some count → last.streak + count ≤ limit) ∧
    (last.history = [] → last.streak = 0) ∧
    (∀ previous count, last.history.getLast? = some previous → count < previous →
      last.streak + 1 ≤ limit) ∧
    t.runWithin? limit ops = some last := by
  intro last
  have hfits : Fits limit t := .of_isNew h limit
  have hlast : Fits limit last := hfits.run hops
  refine ⟨hlast.latest, hlast.idle, ?_, hfits.runWithin?_eq_some hops⟩
  intro previous count hprevious hdrop
  have hroom := hlast.latest previous hprevious
  omega

/-- From the greatest word of sixty-four bits down, and after a reset down from one. -/
theorem run_streak_fits_down :
    let greatest := UInt64.size - 1
    let ops : List Operation :=
      [.track greatest, .track (greatest - 1), .track 7, .reset, .track 1, .track 0]
    default.IsNew ∧ (∀ op ∈ ops, op.Within greatest) ∧
      default.runWithin? greatest ops = some (default.run ops) ∧ (default.run ops).streak = 1 := by
  intro greatest ops
  have hnew : default.IsNew := Or.inl rfl
  have hops : ∀ op ∈ ops, op.Within greatest := by
    simp [ops, Operation.Within, greatest]
  obtain ⟨-, -, -, hrun⟩ := run_streak_fits greatest hnew hops
  exact ⟨hnew, hops, hrun, by decide⟩

end Vigil.Tracker
