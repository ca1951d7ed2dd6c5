import Vigil.Proofs.Engine.Operations
import Vigil.Proofs.Network.Escalation

/-!
# What the flag of an assessment tells

An assessment is flagged as escalated if its verdict is not the best.  Whether anything
arrives in the layer depends on the sink of the monitor of verdicts as well, and no
assessment looks at that.  So the flag is to be relied on only as long as the monitor
stays bound to the layer, which it does if nobody unbinds it, binds it anew or removes it.
-/

namespace Vigil.Engine

/-- Whether an operation leaves the binding of a monitor alone. -/
def spares (e : Engine) (id : MonitorId) : Operation → Bool
  | .network op => e.network.spares id op
  | _ => true

/-- Whether each operation of a run spares a monitor when its turn comes. -/
def sparesAll (e : Engine) (id : MonitorId) : List Operation → Bool
  | [] => true
  | op :: ops => e.spares id op && (e.apply op).sparesAll id ops

theorem queue?_fresh (c : Config) (constraint : Constraint Float) (capacity : Nat) :
    (fresh c constraint capacity).network.queue? layer = some ⟨capacity, [], 0, 0⟩ := by
  unfold fresh
  split <;> rfl

theorem binding?_fresh {c : Config} (henabled : c.pacMonitor.enabled = true)
    (constraint : Constraint Float) (capacity : Nat) :
    (fresh c constraint capacity).network.binding? 0 =
      some (c.pacMonitor.name, some (.layer layer)) := by
  unfold fresh
  rw [if_pos henabled]
  rfl

section Run

variable {e : Engine} {op : Operation}

theorem binding?_apply {id : MonitorId} {name : String} {sink : Sink}
    (h : e.network.binding? id = some (name, some sink)) (hspares : e.spares id op = true) :
    (e.apply op).network.binding? id = some (name, some sink) := by
  obtain ⟨network, tracker, hstep, heq⟩ := apply_cases e op
  rw [heq]
  change network.binding? id = _
  cases hstep with
  | unchanged _ => exact h
  | assess hcheck => exact (Network.binding?_check? hcheck id).trans h
  | observe _ hcheck => exact (Network.binding?_check? hcheck id).trans h
  | @addMonitor m _ hregister =>
      exact Network.binding?_of_step (.register hregister) (Network.binding?_addMonitor h m) rfl
  | refuseMonitor m => exact Network.binding?_addMonitor h m
  | network op =>
      rcases Network.eq_or_step_of_apply (Eq.refl (e.network.apply op)) with hsame | hstep
      · rw [hsame]
        exact h
      · exact Network.binding?_of_step hstep h hspares

theorem binding?_run {ops : List Operation} {id : MonitorId} {name : String} {sink : Sink}
    (h : e.network.binding? id = some (name, some sink))
    (hspares : e.sparesAll id ops = true) :
    (e.run ops).network.binding? id = some (name, some sink) := by
  induction ops generalizing e with
  | nil => exact h
  | cons op ops ih =>
      simp only [sparesAll, Bool.and_eq_true] at hspares
      rw [run_cons]
      exact ih (binding?_apply h hspares.1) hspares.2

theorem size_layers_le_apply (e : Engine) (op : Operation) :
    e.network.layers.size ≤ (e.apply op).network.layers.size := by
  obtain ⟨network, tracker, hstep, heq⟩ := apply_cases e op
  rw [heq]
  change e.network.layers.size ≤ network.layers.size
  cases hstep with
  | unchanged _ => exact Nat.le_refl _
  | assess hcheck => exact Nat.le_of_eq (Network.size_layers_check? hcheck).symm
  | observe _ hcheck => exact Nat.le_of_eq (Network.size_layers_check? hcheck).symm
  | addMonitor hregister =>
      obtain ⟨l, m, -, -, -, -, rfl⟩ := Network.register?_eq_ok hregister
      exact Nat.le_of_eq (Network.size_layers_modifyLayer _ _ _).symm
  | refuseMonitor m => exact Nat.le_refl _
  | network op =>
      rcases Network.eq_or_step_of_apply (Eq.refl (e.network.apply op)) with hsame | hstep
      · exact Nat.le_of_eq (congrArg (·.layers.size) hsame).symm
      · rcases Network.layers_of_step hstep with hsize | ⟨capacity, -, hpush⟩
        · exact Nat.le_of_eq hsize.symm
        · rw [hpush, Array.size_push]
          exact Nat.le_succ _

theorem size_layers_le_run (e : Engine) (ops : List Operation) :
    e.network.layers.size ≤ (e.run ops).network.layers.size := by
  induction ops generalizing e with
  | nil => exact Nat.le_refl _
  | cons op ops ih =>
      rw [run_cons]
      exact Nat.le_trans (size_layers_le_apply e op) (ih (e.apply op))

theorem exists_queue?_run {q : Attention.Queue} (h : e.network.queue? layer = some q)
    (ops : List Operation) : ∃ q', (e.run ops).network.queue? layer = some q' := by
  have hlt := Nat.lt_of_lt_of_le (Network.lt_size_of_queue? h) (size_layers_le_run e ops)
  have hne : (e.run ops).network.queue? layer ≠ none := by
    rw [Ne, Network.queue?_eq_none_iff]
    exact Nat.not_le.mpr hlt
  exact Option.ne_none_iff_exists'.mp hne

end Run

theorem escalated_of_assess {e e' : Engine} (hwatches : e.Watches) {id : MonitorId}
    {m : Monitor Sink} {A : Type} {moral : MoralState Float} {actions : List A}
    {score : A → Except String Float} {viable : A → Except String Bool} {a : Assessment}
    (hpac : e.pacMonitor = some id) (hm : e.network.monitors[id]? = some m)
    (h : e.assess moral actions score viable = (.ok a, e')) :
    (a.escalated = true ↔ a.result.verdict ≠ .positive) ∧
      ∀ other, e'.network.queue? other =
        if a.result.verdict ≠ .positive ∧ m.sink = some (.layer other) then
          (e.network.queue? other).map fun q => (q.push m.name a.result.verdict).2
        else e.network.queue? other := by
  obtain ⟨-, hwatch, hescalated⟩ := watch_of_assess_ok h
  rcases watch_of_ok hwatches hwatch with
    ⟨hnone, -, -⟩ | ⟨id', m', hpac', hm', -, hobserve, hcheck, hvalue⟩
  · cases hnone.symm.trans hpac
  · obtain rfl : id' = id := Option.some.inj (hpac'.symm.trans hpac)
    obtain rfl : m' = m := Option.some.inj (hm'.symm.trans hm)
    constructor
    · rw [hescalated, hvalue, Option.any_some, bne_iff_ne]
    · intro other
      have hqueue := Network.queue?_check? hm' hcheck other
      rw [hobserve] at hqueue
      exact hqueue

/-- In every state of the engine of a valid configuration: the flag tells whether the verdict
was the best, and the verdict arrives in the layer's queue if the flag is up and the
monitor of verdicts is bound to the layer; otherwise the queue stays as it is.  The monitor
is bound to the layer as long as all operations have spared it. -/
theorem run_new_escalated_iff {c : Config} (hvalid : c.validate = .ok ())
    (henabled : c.pacMonitor.enabled = true) :
    ∃ start id, Engine.new c = .ok start ∧ start.pacMonitor = some id ∧
      ∀ ops : List Operation,
        let e := start.run ops
        ∃ m q, e.network.monitors[id]? = some m ∧ e.network.queue? layer = some q ∧
          (start.sparesAll id ops = true → m.sink = some (.layer layer)) ∧
          ∀ {A : Type} (moral : MoralState Float) (actions : List A)
            (score : A → Except String Float) (viable : A → Except String Bool) a e',
            e.assess moral actions score viable = (.ok a, e') →
            let delivered :=
              e'.network.queue? layer = some (q.push c.pacMonitor.name a.result.verdict).2
            (a.escalated = true ↔ a.result.verdict ≠ .positive) ∧
            (delivered ↔ a.escalated = true ∧ m.sink = some (.layer layer)) ∧
            (¬ delivered → e'.network.queue? layer = some q) := by
  obtain ⟨constraint, capacity, -, -, hnew⟩ := new_of_validate hvalid
  have hstart : (fresh c constraint capacity).pacMonitor = some 0 := by
    rw [pacMonitor_fresh, if_pos henabled]
  refine ⟨fresh c constraint capacity, 0, hnew, hstart, ?_⟩
  intro ops e
  obtain ⟨hconfig, hwatches, hpac⟩ : Reached c e := reached_run c constraint capacity ops
  rw [henabled, if_pos rfl] at hpac
  obtain ⟨m, hm, hname, -⟩ := hwatches 0 hpac
  rw [hconfig] at hname
  obtain ⟨q, hq⟩ : ∃ q, e.network.queue? layer = some q :=
    exists_queue?_run (queue?_fresh c constraint capacity) ops
  refine ⟨m, q, hm, hq, ?_, ?_⟩
  · intro hspares
    have hbinding := binding?_run (binding?_fresh henabled constraint capacity) hspares
    obtain ⟨m', hm', -, hsink⟩ := Network.binding?_eq_some_iff.mp hbinding
    obtain rfl : m' = m := Option.some.inj (hm'.symm.trans hm)
    exact hsink
  · intro A moral actions score viable a e' ha delivered
    obtain ⟨hflag, hqueues⟩ := escalated_of_assess hwatches hpac hm ha
    have hqueue := hqueues layer
    rw [hq, Option.map_some, hname] at hqueue
    refine ⟨hflag, ?_, ?_⟩
    · rw [hflag]
      by_cases hboth : a.result.verdict ≠ .positive ∧ m.sink = some (.layer layer)
      · rw [if_pos hboth] at hqueue
        exact iff_of_true hqueue hboth
      · rw [if_neg hboth] at hqueue
        refine iff_of_false ?_ hboth
        intro hpushed
        exact q.push_ne _ _ (Option.some.inj (hpushed.symm.trans hqueue))
    · intro hnot
      rw [hqueue]
      refine if_neg ?_
      intro hboth
      rw [if_pos hboth] at hqueue
      exact hnot hqueue

/-- The monitor of verdicts judges something else, and its items are cleared. -/
def sparing : List Operation :=
  [.observe "pac" .null, .network (.clearAttention layer "pac")]

theorem run_new_escalated_sparing :
    Config.validate {} = .ok () ∧ ({} : Config).pacMonitor.enabled = true ∧
      ∃ (start : Engine) (a : Assessment) (e' : Engine) (q : Attention.Queue),
        Engine.new {} = .ok start ∧ start.sparesAll 0 sparing = true ∧
        (start.run sparing).assessNone = (.ok a, e') ∧ a.result.verdict = .negative ∧
        (start.run sparing).network.queue? layer = some q ∧
        e'.network.queue? layer = some (q.push "pac" a.result.verdict).2 := by
  have hvalid : Config.validate {} = .ok () := rfl
  have henabled : ({} : Config).pacMonitor.enabled = true := rfl
  have hread : readNone? {} sparing (fun a _ => a.result.verdict) = some .negative := by
    decide +kernel
  obtain ⟨start, a, e', hnew, hassess, hverdict⟩ := readNone?_eq_some hread
  have hstart : (Engine.new {}).toOption.map (fun start =>
      (start.pacMonitor, start.sparesAll 0 sparing)) = some (some 0, true) := by
    decide +kernel
  obtain ⟨start', id, hnew', hpac, hrun⟩ := run_new_escalated_iff hvalid henabled
  cases hnew'.symm.trans hnew
  simp only [hnew, Except.toOption, Option.map_some, Option.some.injEq, Prod.mk.injEq] at hstart
  obtain rfl : id = 0 := Option.some.inj (hpac.symm.trans hstart.1)
  obtain ⟨m, q, -, hq, hbound, hassessed⟩ := hrun sparing
  obtain ⟨hflag, hdelivered, -⟩ := hassessed ⟨.empty⟩ ([] : List Unit) (fun _ => .ok 0)
    (fun _ => .ok true) a e' hassess
  have hne : a.result.verdict ≠ .positive := by
    rw [hverdict]
    nofun
  exact ⟨hvalid, henabled, start, a, e', q, hnew, hstart.2, hassess, hverdict, hq,
    hdelivered.mpr ⟨hflag.mpr hne, hbound hstart.2⟩⟩

/-- A monitor of verdicts that is unbound from the layer delivers nothing, and still the
assessment is flagged as escalated. -/
theorem escalated_of_unbound :
    Config.validate {} = .ok () ∧ ({} : Config).pacMonitor.enabled = true ∧
      ∃ (start : Engine) (a : Assessment) (e' : Engine), Engine.new {} = .ok start ∧
        (start.run [.network (.unbind 0)]).assessNone = (.ok a, e') ∧
        a.escalated = true ∧ e'.network.queue? layer = some ⟨10, [], 0, 0⟩ := by
  have hread : readNone? {} [.network (.unbind 0)] (fun a e =>
      (a.escalated, e.network.queue? layer)) = some (true, some ⟨10, [], 0, 0⟩) := by
    decide +kernel
  obtain ⟨start, a, e', hnew, hassess, hshown⟩ := readNone?_eq_some hread
  rw [Prod.mk.injEq] at hshown
  exact ⟨rfl, rfl, start, a, e', hnew, hassess, hshown.1, hshown.2⟩

end Vigil.Engine
