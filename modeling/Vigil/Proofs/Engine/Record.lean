import Vigil.Proofs.Choice.Drops
import Vigil.Proofs.Engine.Operations
import Vigil.Proofs.Engine.Start

/-!
# What an engine records

The tracker of an engine holds the viable counts of the assessments that came
through, and of nothing else that happened in between.  What it shows of them,
and when it alerts, can be read off the whole list of these counts.
-/

namespace Vigil.Engine

/-- The viable count of an assessment that comes through. -/
def recorded (e : Engine) : Operation → List Nat
  | .assess moral actions score viable =>
    match (e.assess moral actions score viable).1 with
    | .ok a => [a.result.viableCount]
    | .error _ => []
  | _ => []

/-- The viable counts of all assessments of a run that come through, oldest first. -/
def viableCounts (e : Engine) : List Operation → List Nat
  | [] => []
  | op :: ops => e.recorded op ++ (e.apply op).viableCounts ops

theorem tracker_apply (e : Engine) (op : Operation) :
    (e.apply op).tracker = e.tracker.recordAll (e.recorded op) := by
  cases op with
  | assess moral actions score viable =>
      simp only [apply, recorded]
      obtain ⟨err, -, h⟩ | ⟨r, err, n, -, -, h⟩ | ⟨r, value, n, -, -, h⟩ :=
        e.assess_cases moral actions score viable
      · rw [h]
        rfl
      · rw [h]
        rfl
      · rw [h]
        rfl
  | observe name output =>
      simp only [apply, observe]
      split <;> rfl
  | addMonitor m => rfl
  | network op => rfl

theorem tracker_run (e : Engine) (ops : List Operation) :
    (e.run ops).tracker = e.tracker.recordAll (e.viableCounts ops) := by
  induction ops generalizing e with
  | nil => rfl
  | cons op ops ih =>
      rw [run_cons, ih, tracker_apply, viableCounts, Tracker.recordAll_append]

theorem alerts_record_recordAll_default (counts : List Nat) (count : Nat) :
    ((Tracker.default.recordAll counts).record count).alerts = true ↔
      ∃ older w x y z, counts ++ [count] = older ++ [w, x, y, z] ∧ x < w ∧ y < x ∧ z < y := by
  rw [← Tracker.recordAll_concat, ← Tracker.three_le_finalDrops_iff, Tracker.alerts,
    Tracker.alertThreshold_recordAll, Tracker.default, Tracker.streak_recordAll_new,
    decide_eq_true_iff]
  rfl

/-- Whatever happens to the engine of a valid configuration, its tracker shows the
last five counts of the assessments that came through, and an assessment alerts
if it makes the last four decrease.  One whose evaluation fails changes nothing,
and one whose verdict the sink refuses is a check of the monitor of verdicts,
counted as such, and nothing else. -/
theorem run_new_records_assessments {c : Config} (hvalid : c.validate = .ok ()) :
    ∃ start, Engine.new c = .ok start ∧ ∀ ops : List Operation,
      (start.run ops).viableHistory = Tracker.lastOf 5 (start.viableCounts ops) ∧
      ∀ {A : Type} (moral : MoralState Float) (actions : List A)
        (score : A → Except String Float) (viable : A → Except String Bool),
        let e := start.run ops
        let evaluated := (e.constraint.evaluate moral actions score viable).outcome
        let assessed := e.assess moral actions score viable
        (∀ a e', assessed = (.ok a, e') →
          (a.erosionAlert = true ↔ ∃ older w x y z,
            start.viableCounts ops ++ [a.result.viableCount] = older ++ [w, x, y, z] ∧
              x < w ∧ y < x ∧ z < y)) ∧
        (∀ cause, evaluated = .error cause → assessed = (.error (.choice cause), e)) ∧
        ∀ err r e', evaluated = .ok r → assessed = (.error err, e') →
          ∃ cause id m sink, err = .monitor cause ∧ e.pacMonitor = some id ∧
            e.network.monitors[id]? = some m ∧ m.sink = some sink ∧ r.verdict ≠ .positive ∧
            e.network.deliver sink ⟨c.pacMonitor.name, r.verdict⟩ = (.error cause, e.network) ∧
            e' = { e with network := e.network.setMonitor id (counting m r.verdict) } := by
  obtain ⟨constraint, capacity, -, -, hnew⟩ := new_of_validate hvalid
  refine ⟨fresh c constraint capacity, hnew, ?_⟩
  intro ops
  have hsucceeds := succeeds_run (fresh c constraint capacity) ops
  have hwatches := hsucceeds.watches (watches_fresh c constraint capacity)
  have hconfig : ((fresh c constraint capacity).run ops).config = c := by
    rw [hsucceeds.config]
    exact config_fresh c constraint capacity
  have htracker := tracker_run (fresh c constraint capacity) ops
  rw [tracker_fresh] at htracker
  refine ⟨?_, ?_⟩
  · rw [viableHistory, htracker]
    exact Tracker.history_recordAll_new Tracker.defaultThreshold _
  · intro A moral actions score viable e evaluated assessed
    refine ⟨?_, ?_, ?_⟩
    · intro a e' ha
      rw [erosionAlert_of_assess ha, htracker]
      exact alerts_record_recordAll_default _ a.result.viableCount
    · intro cause hcause
      exact assess_of_evaluate_error hcause
    · intro err r e' hr herr
      obtain ⟨cause, id, m, sink, hcause, hpac, hm, hsink, hne, hdel, he⟩ :=
        assess_error_of_evaluate_ok hwatches hr herr
      rw [hconfig] at hdel
      exact ⟨cause, id, m, sink, hcause, hpac, hm, hsink, hne, hdel, he⟩

/-- Twice there is no action at all to assess.  In between, the sink of the monitor of
verdicts is exchanged for one that refuses. -/
def refusedLater : List Operation :=
  [.assess ⟨.empty⟩ ([] : List Unit) (fun _ => .ok 0) (fun _ => .ok true),
    .network (.addOutlet (.failing "down")), .network (.bind 0 (.outlet 0)),
    .assess ⟨.empty⟩ ([] : List Unit) (fun _ => .ok 0) (fun _ => .ok true)]

theorem run_new_refusedLater :
    Config.validate {} = .ok () ∧ ∃ start, Engine.new {} = .ok start ∧
      (start.run refusedLater).viableHistory = [0] := by
  have hvalid : Config.validate {} = .ok () := rfl
  obtain ⟨start, hnew, hrun⟩ := run_new_records_assessments hvalid
  have hcounts : (Engine.new {}).toOption.map (·.viableCounts refusedLater) = some [0] := by
    decide +kernel
  simp only [hnew, Except.toOption, Option.map_some, Option.some.injEq] at hcounts
  refine ⟨hvalid, start, hnew, ?_⟩
  rw [(hrun refusedLater).1, hcounts]
  rfl

end Vigil.Engine
