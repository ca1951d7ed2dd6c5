import Vigil.Engine
import Vigil.Proofs.Network.Checks

/-!
# One assessment

An assessment ends in one of three ways.  The evaluation fails, and nothing has
happened; the sink of the monitor of verdicts refuses, and the check is all that
is counted; or both come through, and the viable actions are recorded.
-/

namespace Vigil

namespace Engine

/-- The monitor of verdicts, if there is one, stands under its handle, has the
name that the configuration gives it, and judges by the verdict. -/
def Watches (e : Engine) : Prop :=
  ∀ id, e.pacMonitor = some id →
    ∃ m, e.network.monitors[id]? = some m ∧ m.name = e.config.pacMonitor.name ∧
      m.checker = judgeVerdict

/-- A monitor of verdicts that has counted one more check, with its verdict as the last
value and in the one counter that is the verdict's.  No failure and no escalation is
counted. -/
def counting (m : Monitor Sink) (verdict : Ternary) : Monitor Sink :=
  { m with
    statistics := { m.statistics with
      totalChecks := m.statistics.totalChecks + 1
      optimal := m.statistics.optimal + (if verdict = .positive then 1 else 0)
      borderline := m.statistics.borderline + (if verdict = .neutral then 1 else 0)
      nonOptimal := m.statistics.nonOptimal + (if verdict = .negative then 1 else 0)
      lastValue := some verdict } }

/-- What finds a verdict counts it. -/
theorem record_ofTernary (m : Monitor Sink) (verdict : Ternary) :
    { m with statistics := m.statistics.record (some (.ofTernary verdict)) } =
      counting m verdict := by
  cases verdict <;> rfl

theorem observe_toFlat {m : Monitor Sink} (h : m.checker = judgeVerdict)
    (r : Evaluation Float) : m.observe r.toFlat = (r.verdict, counting m r.verdict) := by
  rw [← record_ofTernary]
  simp only [Monitor.observe, h, judgeVerdict_toFlat, Option.getD_some,
    Judgment.toTernary_ofTernary]

variable {e : Engine}

theorem watch_of_disabled (h : e.pacMonitor = none) (r : Evaluation Float) :
    e.watch r = (.ok none, e.network) := by
  simp [watch, h]

theorem watch_of_check {id : MonitorId} {r : Evaluation Float} {n : Network}
    {outcome : Except MonitorError Ternary} (h : e.pacMonitor = some id)
    (hcheck : e.network.check? id r.toFlat = some (outcome, n)) :
    e.watch r = (outcome.map some, n) := by
  simp only [watch, h, Option.bind_some, hcheck]

/-- Watching a verdict is a check of the monitor of verdicts, if there is one, and the check
finds the verdict. -/
theorem watch_cases (hwatches : e.Watches) (r : Evaluation Float) :
    (e.pacMonitor = none ∧ e.watch r = (.ok none, e.network)) ∨
    ∃ id m outcome n, e.pacMonitor = some id ∧ e.network.monitors[id]? = some m ∧
      m.name = e.config.pacMonitor.name ∧
      m.observe r.toFlat = (r.verdict, counting m r.verdict) ∧
      e.network.check? id r.toFlat = some (outcome, n) ∧ e.watch r = (outcome.map some, n) := by
  cases hpac : e.pacMonitor with
  | none => exact Or.inl ⟨rfl, watch_of_disabled hpac r⟩
  | some id =>
      obtain ⟨m, hm, hname, hchecker⟩ := hwatches id hpac
      obtain ⟨outcome, n, hcheck⟩ := Network.exists_check? hm r.toFlat
      exact Or.inr ⟨id, m, outcome, n, rfl, hm, hname, observe_toFlat hchecker r, hcheck,
        watch_of_check hpac hcheck⟩

theorem watch_of_ok (hwatches : e.Watches) {r : Evaluation Float} {value : Option Ternary}
    {n : Network} (h : e.watch r = (.ok value, n)) :
    (e.pacMonitor = none ∧ value = none ∧ n = e.network) ∨
    ∃ id m, e.pacMonitor = some id ∧ e.network.monitors[id]? = some m ∧
      m.name = e.config.pacMonitor.name ∧
      m.observe r.toFlat = (r.verdict, counting m r.verdict) ∧
      e.network.check? id r.toFlat = some (.ok r.verdict, n) ∧ value = some r.verdict := by
  rcases watch_cases hwatches r with
    ⟨hpac, hwatch⟩ | ⟨id, m, outcome, n', hpac, hm, hname, hobserve, hcheck, hwatch⟩
  · cases hwatch.symm.trans h
    exact Or.inl ⟨hpac, rfl, rfl⟩
  · right
    cases outcome with
    | error err => cases hwatch.symm.trans h
    | ok v =>
        cases hwatch.symm.trans h
        obtain rfl : v = r.verdict := by
          rw [Network.check?_eq_ok hm hcheck, hobserve]
        exact ⟨id, m, hpac, hm, hname, hobserve, hcheck, rfl⟩

theorem watch_of_error (hwatches : e.Watches) {r : Evaluation Float} {err : MonitorError}
    {n : Network} (h : e.watch r = (.error err, n)) :
    ∃ id m sink, e.pacMonitor = some id ∧ e.network.monitors[id]? = some m ∧
      m.sink = some sink ∧ r.verdict ≠ .positive ∧
      e.network.deliver sink ⟨e.config.pacMonitor.name, r.verdict⟩ = (.error err, e.network) ∧
      n = e.network.setMonitor id (counting m r.verdict) := by
  rcases watch_cases hwatches r with
    ⟨-, hwatch⟩ | ⟨id, m, outcome, n', hpac, hm, hname, hobserve, hcheck, hwatch⟩
  · cases hwatch.symm.trans h
  · cases outcome with
    | ok v => cases hwatch.symm.trans h
    | error err' =>
        cases hwatch.symm.trans h
        obtain ⟨sink, hsink, hne, hdel, rfl⟩ := Network.check?_eq_error hm hcheck
        rw [hobserve] at hne
        rw [hobserve, hname] at hdel
        refine ⟨id, m, sink, hpac, hm, hsink, hne, hdel, ?_⟩
        rw [Network.counted, hobserve]

theorem assess_cases {A : Type} (e : Engine) (moral : MoralState Float) (actions : List A)
    (score : A → Except String Float) (viable : A → Except String Bool) :
    (∃ err, (e.constraint.evaluate moral actions score viable).outcome = .error err ∧
      e.assess moral actions score viable = (.error (.choice err), e)) ∨
    (∃ r err n, (e.constraint.evaluate moral actions score viable).outcome = .ok r ∧
      e.watch r = (.error err, n) ∧
      e.assess moral actions score viable = (.error (.monitor err), { e with network := n })) ∨
    ∃ r value n, (e.constraint.evaluate moral actions score viable).outcome = .ok r ∧
      e.watch r = (.ok value, n) ∧
      e.assess moral actions score viable =
        (.ok { result := r
               monitorValue := value
               escalated := value.any (· != .positive)
               erosionAlert := (e.tracker.record r.viableCount).alerts },
          { e with network := n, tracker := e.tracker.record r.viableCount }) := by
  cases h : (e.constraint.evaluate moral actions score viable).outcome with
  | error err =>
      left
      refine ⟨err, rfl, ?_⟩
      simp only [assess, h]
  | ok r =>
      right
      rcases hwatch : e.watch r with ⟨outcome, n⟩
      cases outcome with
      | error err =>
          left
          refine ⟨r, err, n, rfl, hwatch, ?_⟩
          simp only [assess, h, hwatch]
      | ok value =>
          right
          refine ⟨r, value, n, rfl, hwatch, ?_⟩
          simp only [assess, h, hwatch, Tracker.track]

section Assess

variable {A : Type} {moral : MoralState Float} {actions : List A}
  {score : A → Except String Float} {viable : A → Except String Bool}

theorem assess_of_evaluate_error {cause : ChoiceError Float}
    (h : (e.constraint.evaluate moral actions score viable).outcome = .error cause) :
    e.assess moral actions score viable = (.error (.choice cause), e) := by
  simp only [assess, h]

theorem watch_of_assess_ok {a : Assessment} {e' : Engine}
    (h : e.assess moral actions score viable = (.ok a, e')) :
    (e.constraint.evaluate moral actions score viable).outcome = .ok a.result ∧
      e.watch a.result = (.ok a.monitorValue, e'.network) ∧
      a.escalated = a.monitorValue.any (· != .positive) := by
  obtain ⟨_, -, hassess⟩ | ⟨_, _, _, -, -, hassess⟩ | ⟨r, value, n, hr, hwatch, hassess⟩ :=
    e.assess_cases moral actions score viable
  · cases hassess.symm.trans h
  · cases hassess.symm.trans h
  · cases hassess.symm.trans h
    exact ⟨hr, hwatch, rfl⟩

theorem watch_of_assess_error {cause : MonitorError} {e' : Engine}
    (h : e.assess moral actions score viable = (.error (.monitor cause), e')) :
    ∃ r, (e.constraint.evaluate moral actions score viable).outcome = .ok r ∧
      e.watch r = (.error cause, e'.network) := by
  obtain ⟨_, -, hassess⟩ | ⟨r, _, n, hr, hwatch, hassess⟩ | ⟨_, _, _, -, -, hassess⟩ :=
    e.assess_cases moral actions score viable
  · cases hassess.symm.trans h
  · cases hassess.symm.trans h
    exact ⟨r, hr, hwatch⟩
  · cases hassess.symm.trans h

theorem network_assess_of_disabled (h : e.pacMonitor = none) :
    (e.assess moral actions score viable).2.network = e.network := by
  obtain ⟨_, -, hassess⟩ | ⟨r, _, n, -, hwatch, hassess⟩ | ⟨r, _, n, -, hwatch, hassess⟩ :=
    e.assess_cases moral actions score viable
  · rw [hassess]
  · cases (watch_of_disabled h r).symm.trans hwatch
  · cases (watch_of_disabled h r).symm.trans hwatch
    rw [hassess]

theorem erosionAlert_of_assess {a : Assessment} {e' : Engine}
    (h : e.assess moral actions score viable = (.ok a, e')) :
    a.erosionAlert = (e.tracker.record a.result.viableCount).alerts := by
  obtain ⟨_, -, hassess⟩ | ⟨_, _, _, -, -, hassess⟩ | ⟨_, _, _, -, -, hassess⟩ :=
    e.assess_cases moral actions score viable
  · cases hassess.symm.trans h
  · cases hassess.symm.trans h
  · cases hassess.symm.trans h
    rfl

/-- After an evaluation an assessment fails for one reason only, and all that is left
of it is a check of the monitor of verdicts. -/
theorem assess_error_of_evaluate_ok (hwatches : e.Watches) {r : Evaluation Float}
    {err : EngineError} {e' : Engine}
    (hr : (e.constraint.evaluate moral actions score viable).outcome = .ok r)
    (h : e.assess moral actions score viable = (.error err, e')) :
    ∃ cause id m sink, err = .monitor cause ∧ e.pacMonitor = some id ∧
      e.network.monitors[id]? = some m ∧ m.sink = some sink ∧ r.verdict ≠ .positive ∧
      e.network.deliver sink ⟨e.config.pacMonitor.name, r.verdict⟩ = (.error cause, e.network) ∧
      e' = { e with network := e.network.setMonitor id (counting m r.verdict) } := by
  obtain ⟨_, heval, -⟩ | ⟨_, cause, n, heval, hwatch, hassess⟩ | ⟨_, _, _, -, -, hassess⟩ :=
    e.assess_cases moral actions score viable
  · cases heval.symm.trans hr
  · cases heval.symm.trans hr
    cases hassess.symm.trans h
    obtain ⟨id, m, sink, hpac, hm, hsink, hne, hdel, rfl⟩ := watch_of_error hwatches hwatch
    exact ⟨cause, id, m, sink, rfl, hpac, hm, hsink, hne, hdel, rfl⟩
  · cases hassess.symm.trans h

end Assess

end Engine
end Vigil
