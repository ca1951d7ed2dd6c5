import Vigil.Proofs.Attention.Ledger
import Vigil.Proofs.Network.Operations

/-!
# The traffic of a layer

Of all that happens in a network a layer's queue sees only its traffic: the
escalations that its sink accepts, and the clearings asked of the layer.  The queue
is what a queue becomes that goes through this traffic alone.
-/

namespace Vigil.Network

open Attention (pushes)

def queue? (n : Network) (layer : LayerId) : Option Attention.Queue :=
  n.layers[layer]?.map (·.queue)

/-- What an operation hands to a sink, and to which. -/
def delivery? (n : Network) : Operation → Option (Sink × Escalation)
  | .check id output => do
    let m ← n.monitors[id]?
    let (value, observed) := m.observe output
    let sink ← observed.destination? value
    return (sink, ⟨m.name, value⟩)
  | .deliver sink e => some (sink, e)
  | .receive outlet layer =>
    match n.outlets[outlet]? with
    | some (.channel c) => c.receive?.map fun r => (.layer layer, r.1)
    | _ => none
  | _ => none

/-- What an operation delivers to a layer's sink, if the sink accepts it. -/
def acceptedBy (n : Network) (layer : LayerId) (op : Operation) : List Escalation :=
  match n.delivery? op with
  | some (sink, e) => if sink = .layer layer ∧ (n.deliver sink e).1.isOk then [e] else []
  | none => []

/-- All that a layer's sink accepts in a run, in turn. -/
def accepted (n : Network) (layer : LayerId) : List Operation → List Escalation
  | [] => []
  | op :: ops => n.acceptedBy layer op ++ (n.apply op).accepted layer ops

/-- How many items a clearing asked of a layer removes. -/
def clearedBy (n : Network) (layer : LayerId) : Operation → Nat
  | .clearAttention other name =>
    if other = layer then (n.clearAttention? layer name).elim 0 (·.1) else 0
  | .resetAttention other =>
    if other = layer then (n.queue? layer).elim 0 (·.items.length) else 0
  | _ => 0

/-- How many items the clearings of a run remove from a layer's queue. -/
def cleared (n : Network) (layer : LayerId) : List Operation → Nat
  | [] => 0
  | op :: ops => n.clearedBy layer op + (n.apply op).cleared layer ops

/-- What a layer's queue sees of an operation. -/
def traffic (n : Network) (layer : LayerId) : Operation → List Attention.Operation
  | .clearAttention other name => if other = layer then [.clearMonitor name] else []
  | .resetAttention other => if other = layer then [.clear] else []
  | op => pushes (n.acceptedBy layer op)

section Queues

variable {n n' : Network} {layer : LayerId}

theorem queue?_eq_none_iff : n.queue? layer = none ↔ n.layers.size ≤ layer := by
  simp [queue?]

theorem lt_size_of_queue? {q : Attention.Queue} (h : n.queue? layer = some q) :
    layer < n.layers.size := by
  obtain ⟨l, hl, -⟩ := Option.map_eq_some_iff.mp h
  exact (Array.getElem?_eq_some_iff.mp hl).1

theorem queue?_modifyLayer {f : Layer → Layer} {g : Attention.Queue → Attention.Queue}
    (hf : ∀ l, n.layers[layer]? = some l → (f l).queue = g l.queue) (other : LayerId) :
    (n.modifyLayer layer f).queue? other =
      if layer = other then (n.queue? other).map g else n.queue? other := by
  unfold queue?
  rw [getElem?_layers_modifyLayer]
  split
  · rename_i heq
    subst heq
    cases hl : n.layers[layer]? with
    | none => rfl
    | some l => simp only [Option.map_some, hf l hl]
  · rfl

theorem queue?_modifyRegistry (layer other : LayerId) (g : Layer → Dictionary MonitorId) :
    (n.modifyLayer layer fun l => { l with registry := g l }).queue? other = n.queue? other := by
  rw [queue?_modifyLayer (g := id)]
  · split
    · exact Option.map_id_apply
    · rfl
  · exact fun _ _ => rfl

theorem queue?_addLayer {q : Attention.Queue} (h : n.queue? layer = some q) (l : Layer) :
    (n.addLayer l).2.queue? layer = some q := by
  have hlt := lt_size_of_queue? h
  unfold queue? at h ⊢
  change (n.layers.push l)[layer]?.map _ = some q
  rw [Array.getElem?_push_lt hlt, ← Array.getElem?_eq_getElem hlt]
  exact h

theorem queue?_deliver {sink : Sink} {e : Escalation} (h : n.deliver sink e = (.ok (), n'))
    (layer : LayerId) :
    n'.queue? layer =
      if sink = .layer layer then (n.queue? layer).map fun q => (q.push e.monitor e.value).2
      else n.queue? layer := by
  rcases deliver_ok_cases h with ⟨id, rfl, -, rfl⟩ | ⟨id, o, rfl, rfl⟩
  · rw [queue?_modifyLayer (g := fun q => (q.push e.monitor e.value).2) fun _ _ => rfl]
    simp only [Sink.layer.injEq]
  · simp only [reduceCtorEq, if_false]
    rfl

theorem size_layers_deliver {sink : Sink} {e : Escalation}
    (h : n.deliver sink e = (.ok (), n')) : n'.layers.size = n.layers.size := by
  rcases deliver_ok_cases h with ⟨id, -, -, rfl⟩ | ⟨id, o, -, rfl⟩
  · exact size_layers_modifyLayer n id _
  · rfl

theorem isOk_deliver_layer (e : Escalation) :
    (n.deliver (.layer layer) e).1.isOk = true ↔ layer < n.layers.size := by
  simp only [deliver]
  split <;> simp_all [Except.isOk, Except.toBool]

/-- The sink of a layer that exists accepts whatever it is given. -/
theorem acceptedBy_of_queue? {q : Attention.Queue} (h : n.queue? layer = some q) (op : Operation) :
    n.acceptedBy layer op =
      match n.delivery? op with
      | some (sink, e) => if sink = .layer layer then [e] else []
      | none => [] := by
  unfold acceptedBy
  split
  · rename_i sink e _
    by_cases hsink : sink = .layer layer
    · have hok : (n.deliver sink e).1.isOk = true := by
        rw [hsink]
        exact (isOk_deliver_layer e).mpr (lt_size_of_queue? h)
      rw [if_pos ⟨hsink, hok⟩, if_pos hsink]
    · rw [if_neg (fun hboth => hsink hboth.1), if_neg hsink]
  · rfl

theorem acceptedBy_of_none (h : n.queue? layer = none) (op : Operation) :
    n.acceptedBy layer op = [] := by
  unfold acceptedBy
  split
  · rename_i sink e _
    apply if_neg
    rintro ⟨rfl, hok⟩
    exact Nat.not_lt.mpr (queue?_eq_none_iff.mp h) ((isOk_deliver_layer e).mp hok)
  · rfl

end Queues

section Checks

variable {n n' : Network} {id : MonitorId} {m : Monitor Sink} {output : Json}

theorem delivery?_check (hm : n.monitors[id]? = some m) :
    n.delivery? (.check id output) =
      if (m.observe output).1 = .positive then none
      else m.sink.map fun sink => (sink, ⟨m.name, (m.observe output).1⟩) := by
  simp only [delivery?, hm, Option.bind_eq_bind, Option.bind_some, Monitor.destination?]
  split
  · rfl
  · rw [Monitor.sink_observe]
    cases m.sink <;> rfl

/-- A check reaches the queue of the layer that the monitor is bound to, unless the value is
the best, and no other queue. -/
theorem queue?_check? (hm : n.monitors[id]? = some m) {outcome : Except MonitorError Ternary}
    (h : n.check? id output = some (outcome, n')) (layer : LayerId) :
    n'.queue? layer =
      if (m.observe output).1 ≠ .positive ∧ m.sink = some (.layer layer) then
        (n.queue? layer).map fun q => (q.push m.name (m.observe output).1).2
      else n.queue? layer := by
  rcases check?_cases hm output with
    ⟨hdest, hcheck⟩ | ⟨sink, err, hsink, -, hdel, hcheck⟩ | ⟨sink, d, hsink, hne, hdel, hcheck⟩
  · cases hcheck.symm.trans h
    have hnot : ¬ ((m.observe output).1 ≠ .positive ∧ m.sink = some (.layer layer)) := by
      rintro ⟨hne, hsink⟩
      simp [Monitor.destination?, hne, hsink] at hdest
    rw [if_neg hnot]
    rfl
  · cases hcheck.symm.trans h
    split
    · -- A layer that refuses is none.
      rename_i hboth
      have hlayer : sink = .layer layer := Option.some.inj (hsink.symm.trans hboth.2)
      have hnone : n.queue? layer = none := by
        rw [hlayer, deliver] at hdel
        split at hdel
        · cases hdel
        · rename_i hlt
          simp [queue?, hlt]
      change n.queue? layer = _
      rw [hnone]
      rfl
    · rfl
  · cases hcheck.symm.trans h
    change d.queue? layer = _
    rw [queue?_deliver hdel]
    simp only [hsink, hne, ne_eq, not_false_eq_true, true_and, Option.some.injEq]
    rfl

theorem size_layers_check? {outcome : Except MonitorError Ternary}
    (h : n.check? id output = some (outcome, n')) : n'.layers.size = n.layers.size := by
  obtain ⟨m, -, rfl | ⟨sink, e, d, hdel, rfl⟩⟩ := eq_counted_or_delivered h
  · rfl
  · exact (size_layers_deliver hdel : d.layers.size = (n.counted id m output).layers.size)

end Checks

section Apply

variable {n : Network} {layer : LayerId}

theorem delivery?_receive {outlet : OutletId} {c rest : Channel} {e : Escalation}
    (hc : n.outlets[outlet]? = some (.channel c)) (hreceive : c.receive? = some (e, rest))
    (other : LayerId) : n.delivery? (.receive outlet other) = some (.layer other, e) := by
  simp only [delivery?, hc, hreceive, Option.map_some]

theorem delivery?_receive_of_none {outlet : OutletId} {other : LayerId}
    (h : n.receive? outlet other = none) : n.delivery? (.receive outlet other) = none := by
  simp only [delivery?]
  split
  · rename_i c hc
    simp only [receive?, hc, Option.map_eq_none_iff] at h
    rw [h]
    rfl
  · rfl

theorem queue?_apply_check {q : Attention.Queue} (h : n.queue? layer = some q) (id : MonitorId)
    (output : Json) :
    (n.apply (.check id output)).queue? layer =
      some (q.run (pushes (n.acceptedBy layer (.check id output)))) := by
  rw [acceptedBy_of_queue? h]
  cases hm : n.monitors[id]? with
  | none =>
      simp only [apply, check?, delivery?, hm, Option.bind_eq_bind, Option.bind_none]
      exact h
  | some m =>
      rw [delivery?_check hm]
      obtain ⟨outcome, n', hcheck⟩ := exists_check? hm output
      simp only [apply, hcheck]
      rw [queue?_check? hm hcheck, h]
      by_cases hpositive : (m.observe output).1 = .positive
      · simp [hpositive, pushes]
      · cases hsink : m.sink with
        | none => simp [pushes]
        | some sink =>
            simp only [ne_eq, hpositive, not_false_eq_true, true_and, Option.some.injEq, if_false,
              Option.map_some]
            split <;> rfl

theorem queue?_apply_deliver {q : Attention.Queue} (h : n.queue? layer = some q) (sink : Sink)
    (e : Escalation) :
    (n.apply (.deliver sink e)).queue? layer =
      some (q.run (pushes (n.acceptedBy layer (.deliver sink e)))) := by
  rw [acceptedBy_of_queue? h]
  rcases hdeliver : n.deliver sink e with ⟨outcome, n'⟩
  simp only [apply, delivery?, hdeliver]
  cases outcome with
  | ok =>
      rw [queue?_deliver hdeliver, h]
      split <;> rfl
  | error err =>
      have hne : sink ≠ .layer layer := by
        rintro rfl
        have hok := (isOk_deliver_layer e).mpr (lt_size_of_queue? h)
        rw [hdeliver] at hok
        cases hok
      rw [if_neg hne, eq_of_deliver_error hdeliver]
      exact h

theorem queue?_apply_receive {q : Attention.Queue} (h : n.queue? layer = some q)
    (outlet : OutletId) (other : LayerId) :
    (n.apply (.receive outlet other)).queue? layer =
      some (q.run (pushes (n.acceptedBy layer (.receive outlet other)))) := by
  rw [acceptedBy_of_queue? h]
  simp only [apply]
  cases hreceive : n.receive? outlet other with
  | none =>
      rw [delivery?_receive_of_none hreceive]
      exact h
  | some n' =>
      obtain ⟨c, e, rest, hc, hrest, rfl⟩ := receive?_eq_some hreceive
      rw [delivery?_receive hc hrest, Option.getD_some,
        queue?_modifyLayer (g := fun q => (q.push e.monitor e.value).2) fun _ _ => rfl]
      change (if other = layer then (n.queue? layer).map _ else n.queue? layer) = _
      rw [h]
      simp only [Sink.layer.injEq]
      split <;> rfl

theorem queue?_apply_clearAttention {q : Attention.Queue} (h : n.queue? layer = some q)
    (other : LayerId) (name : String) :
    (n.apply (.clearAttention other name)).queue? layer =
      some (q.run (n.traffic layer (.clearAttention other name))) := by
  simp only [apply, traffic]
  split
  · rename_i hclear
    obtain ⟨l, hl, -, rfl⟩ := clearAttention?_eq_some hclear
    rw [queue?_modifyLayer (g := fun q => (q.clearMonitor name).2)]
    · rw [h]
      split <;> rfl
    · intro l' hl'
      have heq : l = l' := Option.some.inj (hl.symm.trans hl')
      rw [heq]
  · rename_i hclear
    have hne : other ≠ layer := by
      rintro rfl
      obtain ⟨l, hl, -⟩ := Option.map_eq_some_iff.mp h
      simp [clearAttention?, hl] at hclear
    rw [if_neg hne]
    exact h

/-- The queue of a layer goes through the traffic of the layer, and through nothing else. -/
theorem queue?_apply {q : Attention.Queue} (h : n.queue? layer = some q) (op : Operation) :
    (n.apply op).queue? layer = some (q.run (n.traffic layer op)) := by
  cases op with
  | addLayer capacity =>
      simp only [apply]
      split
      · exact queue?_addLayer h _
      · exact h
  | addMonitor name checker =>
      simp only [apply]
      split <;> exact h
  | addOutlet o => exact h
  | register other id =>
      simp only [apply]
      split
      · rename_i outcome n' hregister
        cases outcome with
        | error err =>
            rw [eq_of_register?_error hregister]
            exact h
        | ok =>
            obtain ⟨l, m, -, -, -, -, rfl⟩ := register?_eq_ok hregister
            rw [queue?_modifyRegistry]
            exact h
      · exact h
  | deregister other name =>
      simp only [apply]
      split
      · rename_i hderegister
        rcases deregister?_cases hderegister with ⟨-, -, rfl⟩ | ⟨id, -, -, rfl⟩
        · exact h
        · change (n.modifyLayer other _).queue? layer = _
          rw [queue?_modifyRegistry]
          exact h
      · exact h
  | check id output => exact queue?_apply_check h id output
  | deliver sink e => exact queue?_apply_deliver h sink e
  | bind id sink => exact h
  | unbind id => exact h
  | tryBind id sink => exact h
  | unbindFrom id sink => exact h
  | clearAttention other name => exact queue?_apply_clearAttention h other name
  | resetAttention other =>
      simp only [apply, traffic, resetAttention]
      rw [queue?_modifyLayer (g := fun q => q.clear)]
      · rw [h]
        split <;> rfl
      · exact fun _ _ => rfl
  | receive outlet other => exact queue?_apply_receive h outlet other
  | closeChannel outlet =>
      simp only [apply]
      split
      · rename_i hclose
        obtain ⟨c, -, -, rfl⟩ := closeChannel?_eq_some hclose
        exact h
      · exact h

/-- Escalations delivered to a layer directly are pushed to its queue in turn. -/
theorem queue?_run_deliver {q : Attention.Queue} (h : n.queue? layer = some q)
    (es : List Escalation) :
    (n.run (es.map fun e => .deliver (.layer layer) e)).queue? layer =
      some (q.run (pushes es)) := by
  induction es generalizing n q with
  | nil => exact h
  | cons e es ih =>
      have hstep := queue?_apply_deliver h (.layer layer) e
      rw [acceptedBy_of_queue? h] at hstep
      simp only [delivery?, if_true] at hstep
      exact ih hstep

end Apply

end Vigil.Network
