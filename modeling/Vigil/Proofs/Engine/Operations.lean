import Vigil.Proofs.Engine.Start
import Vigil.Proofs.Network.Operations

/-!
# Operations on an engine

What can happen to an engine are assessments, observations, further monitors, and
every operation on the network below it; among these are removal from the layer,
clearing, and binding of any monitor, the monitor of verdicts included, to any
sink.
-/

namespace Vigil.Engine

inductive Operation : Type 1
  | assess {A : Type} (moral : MoralState Float) (actions : List A)
      (score : A → Except String Float) (viable : A → Except String Bool)
  | observe (name : String) (output : Json)
  | addMonitor (m : Monitor Sink)
  | network (op : Network.Operation)

/-- The engine after an operation, whether it comes through or not. -/
def apply (e : Engine) : Operation → Engine
  | .assess moral actions score viable => (e.assess moral actions score viable).2
  | .observe name output => (e.observe name output).2
  | .addMonitor m => (e.addMonitor m).2
  | .network op => { e with network := e.network.apply op }

/-- The engine after several operations, the first in front. -/
def run (e : Engine) (ops : List Operation) : Engine := ops.foldl apply e

@[simp] theorem run_nil (e : Engine) : e.run [] = e := rfl

theorem run_cons (e : Engine) (op : Operation) (ops : List Operation) :
    e.run (op :: ops) = (e.apply op).run ops := rfl

/-- What an operation can do to the network below an engine. -/
inductive Step (n : Network) : Operation → Network → Prop
  | unchanged (op : Operation) : Step n op n
  | assess {A : Type} {moral : MoralState Float} {actions : List A}
      {score : A → Except String Float} {viable : A → Except String Bool} {id : MonitorId}
      {r : Evaluation Float} {outcome : Except MonitorError Ternary} {n' : Network}
      (hcheck : n.check? id r.toFlat = some (outcome, n')) :
      Step n (.assess moral actions score viable) n'
  | observe {name : String} {id : MonitorId} {output : Json}
      {outcome : Except MonitorError Ternary} {n' : Network}
      (hlookup : n.lookup? layer name = some id)
      (hcheck : n.check? id output = some (outcome, n')) : Step n (.observe name output) n'
  | addMonitor {m : Monitor Sink} {n' : Network}
      (hregister : (n.addMonitor m).2.register? layer (n.addMonitor m).1 = some (.ok (), n')) :
      Step n (.addMonitor m) n'
  /-- A monitor that the layer refuses stands in the network, as those of no layer do. -/
  | refuseMonitor (m : Monitor Sink) : Step n (.addMonitor m) (n.addMonitor m).2
  | network (op : Network.Operation) : Step n (.network op) (n.apply op)

theorem eq_or_check_of_watch {e : Engine} {r : Evaluation Float}
    {outcome : Except MonitorError (Option Ternary)} {n : Network}
    (h : e.watch r = (outcome, n)) :
    n = e.network ∨ ∃ id found, e.network.check? id r.toFlat = some (found, n) := by
  unfold watch at h
  split at h
  · cases h
    exact Or.inl rfl
  · rename_i hcheck
    obtain ⟨id, -, hcheck⟩ := Option.bind_eq_some_iff.mp hcheck
    cases h
    exact Or.inr ⟨id, _, hcheck⟩

/-- An operation changes the network and the tracker of an engine, and nothing else. -/
theorem apply_cases (e : Engine) (op : Operation) :
    ∃ network tracker, Step e.network op network ∧
      e.apply op = { e with network := network, tracker := tracker } := by
  cases op with
  | assess moral actions score viable =>
      simp only [apply]
      obtain ⟨err, -, h⟩ | ⟨r, err, n, -, hwatch, h⟩ | ⟨r, value, n, -, hwatch, h⟩ :=
        e.assess_cases moral actions score viable
      · rw [h]
        exact ⟨e.network, e.tracker, .unchanged _, rfl⟩
      · rw [h]
        refine ⟨n, e.tracker, ?_, rfl⟩
        rcases eq_or_check_of_watch hwatch with rfl | ⟨id, found, hcheck⟩
        · exact .unchanged _
        · exact .assess hcheck
      · rw [h]
        refine ⟨n, _, ?_, rfl⟩
        rcases eq_or_check_of_watch hwatch with rfl | ⟨id, found, hcheck⟩
        · exact .unchanged _
        · exact .assess hcheck
  | observe name output =>
      simp only [apply, observe]
      split
      · exact ⟨e.network, e.tracker, .unchanged _, rfl⟩
      · rename_i outcome n hcheck
        obtain ⟨id, hlookup, hcheck⟩ := Option.bind_eq_some_iff.mp hcheck
        exact ⟨n, e.tracker, .observe hlookup hcheck, rfl⟩
  | addMonitor m =>
      cases hregister : (e.network.addMonitor m).2.register? layer (e.network.addMonitor m).1 with
      | none =>
          refine ⟨_, e.tracker, .refuseMonitor m, ?_⟩
          simp only [apply, addMonitor, hregister]
          rfl
      | some answer =>
          obtain ⟨outcome, n⟩ := answer
          refine ⟨n, e.tracker, ?_, ?_⟩
          · cases outcome with
            | error err =>
                rw [Network.eq_of_register?_error hregister]
                exact .refuseMonitor m
            | ok => exact .addMonitor hregister
          · simp only [apply, addMonitor, hregister]
            rfl
  | network op => exact ⟨e.network.apply op, e.tracker, .network op, rfl⟩

theorem continues_of_step {n n' : Network} {op : Operation} (hstep : Step n op n') :
    n.Continues n' := by
  cases hstep with
  | unchanged _ => exact .refl n
  | assess hcheck => exact .check? hcheck
  | observe _ hcheck => exact .check? hcheck
  | @addMonitor m _ hregister =>
      exact (Network.Continues.addMonitor n m).trans (.register? hregister)
  | refuseMonitor m => exact .addMonitor n m
  | network op => exact n.continues_apply op

/-- What no operation changes: the configuration, the evaluator, which handle the
monitor of verdicts has, and what judges under which handle. -/
structure Succeeds (e e' : Engine) : Prop where
  config : e'.config = e.config
  constraint : e'.constraint = e.constraint
  pacMonitor : e'.pacMonitor = e.pacMonitor
  network : e.network.Continues e'.network

namespace Succeeds

theorem refl (e : Engine) : Succeeds e e := ⟨rfl, rfl, rfl, .refl e.network⟩

theorem trans {e e' e'' : Engine} (h : Succeeds e e') (h' : Succeeds e' e'') :
    Succeeds e e'' :=
  ⟨h'.config.trans h.config, h'.constraint.trans h.constraint,
    h'.pacMonitor.trans h.pacMonitor, h.network.trans h'.network⟩

theorem watches {e e' : Engine} (h : Succeeds e e') (hwatches : e.Watches) : e'.Watches := by
  intro id hid
  rw [h.pacMonitor] at hid
  obtain ⟨m, hm, hname, hchecker⟩ := hwatches id hid
  obtain ⟨m', hm', hname', hchecker'⟩ := h.network id m hm
  refine ⟨m', hm', ?_, hchecker'.trans hchecker⟩
  rw [h.config]
  exact hname'.trans hname

end Succeeds

theorem succeeds_apply (e : Engine) (op : Operation) : Succeeds e (e.apply op) := by
  obtain ⟨network, tracker, hstep, heq⟩ := apply_cases e op
  rw [heq]
  exact ⟨rfl, rfl, rfl, continues_of_step hstep⟩

theorem succeeds_run (e : Engine) (ops : List Operation) : Succeeds e (e.run ops) := by
  induction ops generalizing e with
  | nil => exact .refl e
  | cons op ops ih =>
      rw [run_cons]
      exact (succeeds_apply e op).trans (ih (e.apply op))

/-- What holds of an engine in every state that it reaches under its configuration. -/
structure Reached (c : Config) (e : Engine) : Prop where
  config : e.config = c
  watches : e.Watches
  pacMonitor : e.pacMonitor = if c.pacMonitor.enabled then some 0 else none

theorem reached_run (c : Config) (constraint : Constraint Float) (capacity : Nat)
    (ops : List Operation) : Reached c ((fresh c constraint capacity).run ops) := by
  have hsucceeds := succeeds_run (fresh c constraint capacity) ops
  constructor
  · rw [hsucceeds.config]
    exact config_fresh c constraint capacity
  · exact hsucceeds.watches (watches_fresh c constraint capacity)
  · rw [hsucceeds.pacMonitor]
    exact pacMonitor_fresh c constraint capacity

def assessNone (e : Engine) : Except EngineError Assessment × Engine :=
  e.assess ⟨.empty⟩ ([] : List Unit) (fun _ => .ok 0) (fun _ => .ok true)

/-- What an assessment of no actions shows if it comes through, after a run from the start. -/
def readNone? {α : Type} (c : Config) (ops : List Operation) (read : Assessment → Engine → α) :
    Option α :=
  match new c with
  | .error _ => none
  | .ok start =>
    match (start.run ops).assessNone with
    | (.ok a, e) => some (read a e)
    | (.error _, _) => none

theorem readNone?_eq_some {α : Type} {c : Config} {ops : List Operation}
    {read : Assessment → Engine → α} {x : α} (h : readNone? c ops read = some x) :
    ∃ start a e, new c = .ok start ∧ (start.run ops).assessNone = (.ok a, e) ∧ read a e = x := by
  unfold readNone? at h
  split at h
  · cases h
  · rename_i start hnew
    split at h
    · rename_i a e hassess
      exact ⟨start, a, e, hnew, hassess, Option.some.inj h⟩
    · cases h

end Vigil.Engine
