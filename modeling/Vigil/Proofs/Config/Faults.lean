import Vigil.Proofs.Decimal.Unit
import Vigil.Proofs.Engine.Start

/-!
# The faults of a configuration

A configuration can have six faults, and validation looks for them in a fixed
order.  The first that it finds is the error of the validation, and the error of
an engine that was to start from this configuration; without a fault, both come
through.  The parts of an engine check again what the validation has checked, so
nothing that they could still object to is left.
-/

namespace Vigil

namespace Config

inductive Fault
  | capacity
  | band
  | bandReversed
  | floor
  | binCount
  | nameless
deriving DecidableEq, Repr

namespace Fault

/-- All faults, in the order of the search. -/
def inOrder : List Fault := [capacity, band, bandReversed, floor, binCount, nameless]

def Present (c : Config) : Fault → Prop
  | capacity => c.attention.maxAttentionItems ≤ 0
  | band => Outside c.choice.lowThreshold ∨ Outside c.choice.highThreshold
  | bandReversed => c.choice.highThreshold < c.choice.lowThreshold
  | floor => ∃ x, c.choice.minDiversity = some x ∧ Outside x
  | binCount => c.choice.bins < 2
  | nameless => c.pacMonitor.enabled = true ∧
      ∀ ch ∈ c.pacMonitor.name.toList, Text.isBlank ch = true

/-- How a fault is reported.  A floor at fault is a floor that is given. -/
def error (c : Config) : Fault → EngineError
  | capacity => .monitor (.capacity ⟨c.attention.maxAttentionItems⟩)
  | band => .choice (.bandOutOfRange c.choice.lowThreshold c.choice.highThreshold)
  | bandReversed => .choice (.bandReversed c.choice.lowThreshold c.choice.highThreshold)
  | floor => .choice (.floorOutOfRange (c.choice.minDiversity.getD 0))
  | binCount => .choice (.binCount c.choice.bins)
  | nameless => .namelessMonitor

/-- A fault that is present, with none before it in the order of the search. -/
def First (c : Config) (f : Fault) : Prop :=
  f.Present c ∧ ∀ g ∈ inOrder.takeWhile (· ≠ f), ¬ g.Present c

theorem mem_inOrder (f : Fault) : f ∈ inOrder := by
  cases f <;> decide

theorem exists_first_or_sound (c : Config) : (∃ f, First c f) ∨ ∀ f : Fault, ¬ f.Present c := by
  classical
  cases hfind : inOrder.find? (fun f => decide (f.Present c)) with
  | none =>
      right
      intro f
      simpa using List.find?_eq_none.mp hfind f (mem_inOrder f)
  | some f =>
      left
      obtain ⟨hpresent, before, after, hsplit, hbefore⟩ := List.find?_eq_some_iff_append.mp hfind
      refine ⟨f, of_decide_eq_true hpresent, fun g hg => ?_⟩
      have htake : inOrder.takeWhile (· ≠ f) <+: before := by
        rw [hsplit, List.takeWhile_append]
        split
        · simp
        · exact List.takeWhile_prefix _
      simpa using hbefore g (htake.subset hg)

end Fault

open Fault

variable {c : Config}

theorem capacity_of_fault (h : Fault.capacity.Present c) :
    c.capacity = .error (Fault.capacity.error c) := by
  have hraw : ¬ 0 < c.attention.maxAttentionItems := Int.not_lt.mpr h
  simp only [Config.capacity, Attention.validateCapacity, if_neg hraw]
  rfl

theorem capacity_of_sound (h : ¬ Fault.capacity.Present c) :
    c.capacity = .ok c.attention.maxAttentionItems.toNat := by
  have hraw : 0 < c.attention.maxAttentionItems := Int.not_le.mp h
  simp only [Config.capacity, Attention.validateCapacity, if_pos hraw]
  rfl

theorem thresholds_new_of_band (h : band.Present c) :
    Thresholds.new c.choice.lowThreshold c.choice.highThreshold =
      .error (.bandOutOfRange c.choice.lowThreshold c.choice.highThreshold) := by
  rcases h with hlow | hhigh
  · simp [Thresholds.new, (inUnit_eq_false_iff _).mpr hlow]
  · simp [Thresholds.new, (inUnit_eq_false_iff _).mpr hhigh]

theorem thresholds_new_of_unit (h : ¬ band.Present c) :
    Thresholds.new c.choice.lowThreshold c.choice.highThreshold =
      if c.choice.highThreshold < c.choice.lowThreshold then
        .error (.bandReversed c.choice.lowThreshold c.choice.highThreshold)
      else .ok ⟨c.choice.lowThreshold, c.choice.highThreshold, none⟩ := by
  obtain ⟨hlow, hhigh⟩ := not_or.mp h
  rw [← inUnit_eq_false_iff, Bool.not_eq_false] at hlow hhigh
  simp [Thresholds.new, hlow, hhigh]

theorem thresholds_new_of_ordered (hband : ¬ band.Present c)
    (hreversed : ¬ bandReversed.Present c) :
    Thresholds.new c.choice.lowThreshold c.choice.highThreshold =
      .ok ⟨c.choice.lowThreshold, c.choice.highThreshold, none⟩ := by
  have hlt : ¬ c.choice.highThreshold < c.choice.lowThreshold := hreversed
  rw [thresholds_new_of_unit hband, if_neg hlt]

theorem constraint_of_band (h : band.Present c) :
    c.constraint = .error (band.error c) := by
  rw [Config.constraint, Thresholds.make, thresholds_new_of_band h]
  rfl

theorem constraint_of_bandReversed (hband : ¬ band.Present c) (h : bandReversed.Present c) :
    c.constraint = .error (bandReversed.error c) := by
  have hlt : c.choice.highThreshold < c.choice.lowThreshold := h
  rw [Config.constraint, Thresholds.make, thresholds_new_of_unit hband, if_pos hlt]
  rfl

theorem constraint_of_floor (hband : ¬ band.Present c) (hreversed : ¬ bandReversed.Present c)
    (h : Fault.floor.Present c) : c.constraint = .error (Fault.floor.error c) := by
  obtain ⟨x, hx, hout⟩ := h
  rw [Config.constraint, Thresholds.make, thresholds_new_of_ordered hband hreversed, Fault.error,
    hx]
  simp only [bind, Except.bind, Thresholds.withMinDiversity, (inUnit_eq_false_iff x).mpr hout]
  rfl

theorem thresholds_make_of_floored (hband : ¬ band.Present c) (hreversed : ¬ bandReversed.Present c)
    (hfloor : ¬ Fault.floor.Present c) :
    Thresholds.make c.choice.lowThreshold c.choice.highThreshold c.choice.minDiversity =
      .ok ⟨c.choice.lowThreshold, c.choice.highThreshold, c.choice.minDiversity⟩ := by
  rw [Thresholds.make, thresholds_new_of_ordered hband hreversed]
  cases hmin : c.choice.minDiversity with
  | none => rfl
  | some x =>
      have hx : ¬ Outside x := fun hout => hfloor ⟨x, hmin, hout⟩
      rw [← inUnit_eq_false_iff, Bool.not_eq_false] at hx
      simp only [bind, Except.bind, Thresholds.withMinDiversity, hx, if_true]

theorem constraint_of_floored (hband : ¬ band.Present c) (hreversed : ¬ bandReversed.Present c)
    (hfloor : ¬ Fault.floor.Present c) :
    c.constraint = if c.choice.bins < 2 then .error (binCount.error c)
      else .ok ⟨⟨c.choice.lowThreshold, c.choice.highThreshold, c.choice.minDiversity⟩,
        c.choice.bins⟩ := by
  rw [Config.constraint, thresholds_make_of_floored hband hreversed hfloor]
  simp only [bind, Except.bind, Constraint.withBins]
  split <;> rfl

theorem validateMonitor_of_fault (h : nameless.Present c) :
    c.validateMonitor = .error (nameless.error c) := by
  obtain ⟨henabled, hblank⟩ := h
  simp only [validateMonitor, henabled, (Text.isAllBlank_eq_true_iff _).mpr hblank]
  rfl

theorem validateMonitor_of_sound (h : ¬ nameless.Present c) : c.validateMonitor = .ok () := by
  have hcond : ¬ (c.pacMonitor.enabled && Text.isAllBlank c.pacMonitor.name) = true := by
    rw [Bool.and_eq_true, Text.isAllBlank_eq_true_iff]
    exact h
  rw [validateMonitor, if_neg hcond]

/-- A configuration without a fault gives the engine its capacity and its evaluator. -/
theorem sections_of_sound (h : ∀ f : Fault, ¬ f.Present c) :
    c.capacity = .ok c.attention.maxAttentionItems.toNat ∧
    c.constraint = .ok ⟨⟨c.choice.lowThreshold, c.choice.highThreshold, c.choice.minDiversity⟩,
      c.choice.bins⟩ ∧
    c.validateMonitor = .ok () := by
  refine ⟨capacity_of_sound (h _), ?_, validateMonitor_of_sound (h _)⟩
  rw [constraint_of_floored (h _) (h _) (h _)]
  exact if_neg (h binCount)

theorem validate_of_sound (h : ∀ f : Fault, ¬ f.Present c) : c.validate = .ok () := by
  obtain ⟨hcapacity, hconstraint, hmonitor⟩ := sections_of_sound h
  rw [validate, hcapacity, hconstraint, hmonitor]
  rfl

theorem validate_of_first {f : Fault} (h : First c f) : c.validate = .error (f.error c) := by
  obtain ⟨hf, hbefore⟩ := h
  cases f with
  | capacity =>
      rw [validate, capacity_of_fault hf]
      rfl
  | band =>
      rw [validate, capacity_of_sound (hbefore _ (by decide)), constraint_of_band hf]
      rfl
  | bandReversed =>
      rw [validate, capacity_of_sound (hbefore _ (by decide)),
        constraint_of_bandReversed (hbefore _ (by decide)) hf]
      rfl
  | floor =>
      rw [validate, capacity_of_sound (hbefore _ (by decide)),
        constraint_of_floor (hbefore _ (by decide)) (hbefore _ (by decide)) hf]
      rfl
  | binCount =>
      have hbins : c.choice.bins < 2 := hf
      rw [validate, capacity_of_sound (hbefore _ (by decide)),
        constraint_of_floored (hbefore _ (by decide)) (hbefore _ (by decide))
          (hbefore _ (by decide)), if_pos hbins]
      rfl
  | nameless =>
      have hbins : ¬ c.choice.bins < 2 := hbefore binCount (by decide)
      rw [validate, capacity_of_sound (hbefore _ (by decide)),
        constraint_of_floored (hbefore _ (by decide)) (hbefore _ (by decide))
          (hbefore _ (by decide)), if_neg hbins,
        validateMonitor_of_fault hf]
      rfl

/-- The error of a validation is the report of the first fault. -/
theorem validate_eq_error_iff_first {err : EngineError} :
    c.validate = .error err ↔ ∃ f, First c f ∧ err = f.error c := by
  rcases exists_first_or_sound c with ⟨f, hf⟩ | hsound
  · rw [validate_of_first hf]
    constructor
    · intro h
      cases h
      exact ⟨f, hf, rfl⟩
    · rintro ⟨g, hg, rfl⟩
      exact (validate_of_first hf).symm.trans (validate_of_first hg)
  · rw [validate_of_sound hsound]
    constructor
    · intro h
      cases h
    · rintro ⟨f, hf, -⟩
      exact absurd hf.1 (hsound f)

theorem sound_of_validate (h : c.validate = .ok ()) : ∀ f : Fault, ¬ f.Present c := by
  rcases exists_first_or_sound c with ⟨f, hf⟩ | hsound
  · cases h.symm.trans (validate_of_first hf)
  · exact hsound

end Config

namespace Engine

open Config (Fault)

/-- An engine just started from a configuration: an empty queue of the configured
capacity, and nothing in the network but the monitor of verdicts, registered in the
layer and bound to it, if it is enabled. -/
structure StartedFrom (c : Config) (e : Engine) : Prop where
  config : e.config = c
  constraint : e.constraint =
    ⟨⟨c.choice.lowThreshold, c.choice.highThreshold, c.choice.minDiversity⟩, c.choice.bins⟩
  queue : ∃ l, e.network.layers = #[l] ∧ l.queue.capacity = c.attention.maxAttentionItems ∧
    l.queue.items = [] ∧ l.queue.evicted = 0 ∧
    l.registry.entries = if c.pacMonitor.enabled then [(c.pacMonitor.name, 0)] else []
  monitors : e.network.monitors = if c.pacMonitor.enabled then
    #[⟨c.pacMonitor.name, judgeVerdict, some (.layer layer), {}⟩] else #[]
  outlets : e.network.outlets = #[]
  pacMonitor : e.pacMonitor = if c.pacMonitor.enabled then some 0 else none
  tracker : e.tracker = .default

theorem startedFrom_fresh (c : Config) {capacity : Nat}
    (h : (capacity : Int) = c.attention.maxAttentionItems) :
    StartedFrom c (fresh c ⟨⟨c.choice.lowThreshold, c.choice.highThreshold,
      c.choice.minDiversity⟩, c.choice.bins⟩ capacity) := by
  cases henabled : c.pacMonitor.enabled with
  | true =>
      refine ⟨config_fresh _ _ _, ?_, ?_, ?_, ?_, pacMonitor_fresh _ _ _, tracker_fresh _ _ _⟩
      all_goals simp only [fresh, henabled, if_true]
      exact ⟨_, rfl, h, rfl, rfl, rfl⟩
  | false =>
      refine ⟨config_fresh _ _ _, ?_, ?_, ?_, ?_, pacMonitor_fresh _ _ _, tracker_fresh _ _ _⟩
      all_goals simp only [fresh, henabled, Bool.false_eq_true, if_false]
      exact ⟨_, rfl, h, rfl, rfl, rfl⟩

theorem new_of_sound {c : Config} (h : ∀ f : Fault, ¬ f.Present c) :
    ∃ e, new c = .ok e ∧ StartedFrom c e := by
  obtain ⟨hcapacity, hconstraint, -⟩ := Config.sections_of_sound h
  obtain ⟨constraint, capacity, hconstraint', hcapacity', hnew⟩ :=
    new_of_validate (Config.validate_of_sound h)
  cases hcapacity.symm.trans hcapacity'
  cases hconstraint.symm.trans hconstraint'
  have hpos : 0 < c.attention.maxAttentionItems := Int.not_le.mp (h .capacity)
  exact ⟨_, hnew, startedFrom_fresh c (Int.toNat_of_nonneg (Int.le_of_lt hpos))⟩

theorem new_of_first {c : Config} {f : Fault} (h : f.First c) :
    new c = .error (f.error c) := by
  rw [new, Config.validate_of_first h]
  rfl

/-- An engine starts from the configurations without a fault, and otherwise fails as
the validation does: with the report of the first fault, and never with a complaint
of the network about the monitor of verdicts. -/
theorem new_iff_validate (c : Config) :
    (c.validate = .ok () ↔ ∀ f : Fault, ¬ f.Present c) ∧
    (∀ err, c.validate = .error err ↔ ∃ f : Fault, f.First c ∧ err = f.error c) ∧
    ((∃ e, new c = .ok e) ↔ c.validate = .ok ()) ∧
    (∀ err, new c = .error err ↔ c.validate = .error err) ∧
    (∀ err, new c = .error err → err ≠ .monitor .emptyName ∧
      (∀ name, err ≠ .monitor (.duplicateName name)) ∧
      ∀ name, err ≠ .monitor (.alreadyBound name)) ∧
    ∀ e, new c = .ok e → StartedFrom c e := by
  refine ⟨⟨Config.sound_of_validate, Config.validate_of_sound⟩,
    fun _ => Config.validate_eq_error_iff_first, ?_⟩
  rcases Fault.exists_first_or_sound c with ⟨f, hf⟩ | hsound
  · rw [Config.validate_of_first hf, new_of_first hf]
    refine ⟨by simp, fun _ => by simp, ?_, by simp⟩
    intro err herr
    cases herr
    cases f <;> simp [Fault.error]
  · obtain ⟨e, hnew, he⟩ := new_of_sound hsound
    rw [Config.validate_of_sound hsound, hnew]
    refine ⟨by simp, fun _ => by simp, by simp, ?_⟩
    intro e' he'
    cases he'
    exact he

end Engine
end Vigil
