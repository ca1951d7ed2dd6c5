import Vigil.Proofs.Engine.Operations

/-!
# The monitor of verdicts agrees

The monitor of verdicts sees an evaluation as flat data only, and reads the verdict
from a tag in it.  Still it finds the verdict of the evaluator, and its checker never
fails on it.  Nothing that happens to an engine in between can change that, for the
monitor keeps its handle and its checker.
-/

namespace Vigil.Engine

theorem statistics_of_watch {e : Engine} (hwatches : e.Watches) {id : MonitorId}
    {m : Monitor Sink} {r : Evaluation Float} {value : Option Ternary} {n : Network}
    (hpac : e.pacMonitor = some id) (hm : e.network.monitors[id]? = some m)
    (h : e.watch r = (.ok value, n)) :
    value = some r.verdict ∧
      ∃ m', n.monitors[id]? = some m' ∧
        m'.statistics.failedChecks = m.statistics.failedChecks ∧
        m'.statistics.lastValue = some r.verdict := by
  rcases watch_of_ok hwatches h with
    ⟨hnone, -, -⟩ | ⟨id', m', hpac', hm', -, hobserve, hcheck, hvalue⟩
  · cases hnone.symm.trans hpac
  · obtain rfl : id' = id := Option.some.inj (hpac'.symm.trans hpac)
    obtain rfl : m' = m := Option.some.inj (hm'.symm.trans hm)
    refine ⟨hvalue, ?_⟩
    rcases Network.monitor_check? hm' hcheck with hafter | hafter
    · rw [hobserve] at hafter
      exact ⟨_, hafter, rfl, rfl⟩
    · rw [hobserve] at hafter
      exact ⟨_, hafter, rfl, rfl⟩

/-- Whatever happens to the engine of a valid configuration: the monitor of verdicts, if it is
enabled, finds what the evaluator found, and no assessment fails for a sink unless there
is something to escalate.  If the monitor is disabled, an assessment changes no monitor and
no queue. -/
theorem run_new_agrees {c : Config} (hvalid : c.validate = .ok ()) :
    ∃ start, Engine.new c = .ok start ∧ ∀ ops : List Operation,
      let e := start.run ops
      (c.pacMonitor.enabled = true →
        ∃ id m, e.pacMonitor = some id ∧ e.network.monitors[id]? = some m ∧
          m.name = c.pacMonitor.name ∧
          ∀ {A : Type} (moral : MoralState Float) (actions : List A)
            (score : A → Except String Float) (viable : A → Except String Bool),
            let evaluated := (e.constraint.evaluate moral actions score viable).outcome
            let assessed := e.assess moral actions score viable
            (∀ a e', assessed = (.ok a, e') →
              evaluated = .ok a.result ∧ a.monitorValue = some a.result.verdict ∧
              ∃ m', e'.network.monitors[id]? = some m' ∧
                m'.statistics.failedChecks = m.statistics.failedChecks ∧
                m'.statistics.lastValue = some a.result.verdict) ∧
            ∀ cause e', assessed = (.error (.monitor cause), e') →
              ∃ r, evaluated = .ok r ∧ r.verdict ≠ .positive) ∧
      (c.pacMonitor.enabled = false →
        ∀ {A : Type} (moral : MoralState Float) (actions : List A)
          (score : A → Except String Float) (viable : A → Except String Bool),
          (e.assess moral actions score viable).2.network = e.network ∧
          ∀ a e', e.assess moral actions score viable = (.ok a, e') →
            a.monitorValue = none ∧ a.escalated = false) := by
  obtain ⟨constraint, capacity, -, -, hnew⟩ := new_of_validate hvalid
  refine ⟨fresh c constraint capacity, hnew, ?_⟩
  intro ops e
  obtain ⟨hconfig, hwatches, hpac⟩ : Reached c e := reached_run c constraint capacity ops
  constructor
  · intro henabled
    rw [henabled, if_pos rfl] at hpac
    obtain ⟨m, hm, hname, -⟩ := hwatches 0 hpac
    rw [hconfig] at hname
    refine ⟨0, m, hpac, hm, hname, ?_⟩
    intro A moral actions score viable evaluated assessed
    constructor
    · intro a e' ha
      obtain ⟨hresult, hwatch, -⟩ := watch_of_assess_ok ha
      exact ⟨hresult, statistics_of_watch hwatches hpac hm hwatch⟩
    · intro cause e' herr
      obtain ⟨r, hr, hwatch⟩ := watch_of_assess_error herr
      obtain ⟨-, -, -, -, -, -, hne, -, -⟩ := watch_of_error hwatches hwatch
      exact ⟨r, hr, hne⟩
  · intro hdisabled A moral actions score viable
    rw [hdisabled, if_neg Bool.false_ne_true] at hpac
    refine ⟨network_assess_of_disabled hpac, ?_⟩
    intro a e' ha
    obtain ⟨-, hwatch, hescalated⟩ := watch_of_assess_ok ha
    rw [watch_of_disabled hpac] at hwatch
    cases hvalue : a.monitorValue with
    | none =>
        rw [hvalue] at hescalated
        exact ⟨rfl, hescalated⟩
    | some value =>
        rw [hvalue] at hwatch
        cases hwatch

/-- The monitor of verdicts leaves the layer, and another monitor takes its name and fails. -/
def replaced : List Operation :=
  [.network (.deregister layer "pac"), .addMonitor ⟨"pac", fun _ => none, none, {}⟩,
    .observe "pac" .null]

theorem run_new_agrees_replaced :
    Config.validate {} = .ok () ∧ ∃ start a e', Engine.new {} = .ok start ∧
      (start.run replaced).assessNone = (.ok a, e') ∧
      a.result.verdict = .negative ∧ a.monitorValue = some a.result.verdict := by
  have hvalid : Config.validate {} = .ok () := rfl
  have hread : readNone? {} replaced (fun a _ => a.result.verdict) = some .negative := by
    decide +kernel
  obtain ⟨start, a, e', hnew, hassess, hverdict⟩ := readNone?_eq_some hread
  obtain ⟨start', hnew', hrun⟩ := run_new_agrees hvalid
  cases hnew'.symm.trans hnew
  obtain ⟨id, m, -, -, -, hagrees⟩ := (hrun replaced).1 rfl
  obtain ⟨hok, -⟩ := hagrees ⟨.empty⟩ ([] : List Unit) (fun _ => .ok 0) (fun _ => .ok true)
  exact ⟨hvalid, start, a, e', hnew, hassess, hverdict, (hok a e' hassess).2.1⟩

end Vigil.Engine
