import Vigil.Proofs.Network.Registry

/-!
# Operations on a network

Layers, monitors and outlets come into a network and never leave it, and what
else can happen to them is a list of operations.  Refused operations, and those
on handles that nothing stands under, change nothing.  A monitor keeps its
handle, its name and its checker through all of them.
-/

namespace Vigil.Network

inductive Operation
  | addLayer (capacity : Nat)
  | addMonitor (name : String) (checker : Checker)
  | addOutlet (o : Outlet)
  | register (layer : LayerId) (id : MonitorId)
  | deregister (layer : LayerId) (name : String)
  | check (id : MonitorId) (output : Json)
  | deliver (sink : Sink) (e : Escalation)
  | bind (id : MonitorId) (sink : Sink)
  | unbind (id : MonitorId)
  | tryBind (id : MonitorId) (sink : Sink)
  | unbindFrom (id : MonitorId) (sink : Sink)
  | clearAttention (layer : LayerId) (name : String)
  | resetAttention (layer : LayerId)
  | receive (outlet : OutletId) (layer : LayerId)
  | closeChannel (outlet : OutletId)

def apply (n : Network) : Operation → Network
  | .addLayer capacity =>
    match Layer.new capacity with
    | .ok l => (n.addLayer l).2
    | .error _ => n
  | .addMonitor name checker =>
    match Monitor.new name checker with
    | .ok m => (n.addMonitor m).2
    | .error _ => n
  | .addOutlet o => (n.addOutlet o).2
  | .register layer id =>
    match n.register? layer id with
    | some (_, n') => n'
    | none => n
  | .deregister layer name =>
    match n.deregister? layer name with
    | some (_, n') => n'
    | none => n
  | .check id output =>
    match n.check? id output with
    | some (_, n') => n'
    | none => n
  | .deliver sink e => (n.deliver sink e).2
  | .bind id sink => n.modifyMonitor id (·.bind sink)
  | .unbind id => n.modifyMonitor id (·.unbind)
  | .tryBind id sink => n.modifyMonitor id fun m => (m.tryBind sink).2
  | .unbindFrom id sink => n.modifyMonitor id fun m => (m.unbindFrom sink).2
  | .clearAttention layer name =>
    match n.clearAttention? layer name with
    | some (_, n') => n'
    | none => n
  | .resetAttention layer => n.resetAttention layer
  | .receive outlet layer => (n.receive? outlet layer).getD n
  | .closeChannel outlet =>
    match n.closeChannel? outlet with
    | some (_, n') => n'
    | none => n

/-- The network after several operations, the first in front. -/
def run (n : Network) (ops : List Operation) : Network := ops.foldl apply n

@[simp] theorem run_nil (n : Network) : n.run [] = n := rfl

theorem run_cons (n : Network) (op : Operation) (ops : List Operation) :
    n.run (op :: ops) = (n.apply op).run ops := rfl

theorem run_append (n : Network) (ops ops' : List Operation) :
    n.run (ops ++ ops') = (n.run ops).run ops' :=
  List.foldl_append

/-- What an operation does to a network that does not refuse it. -/
inductive Step (n : Network) : Operation → Network → Prop
  | addLayer {capacity : Nat} {l : Layer} (hnew : Layer.new capacity = .ok l) :
      Step n (.addLayer capacity) (n.addLayer l).2
  | addMonitor {name : String} {checker : Checker} {m : Monitor Sink}
      (hnew : Monitor.new name checker = .ok m) :
      Step n (.addMonitor name checker) (n.addMonitor m).2
  | addOutlet (o : Outlet) : Step n (.addOutlet o) (n.addOutlet o).2
  | register {layer : LayerId} {id : MonitorId} {n' : Network}
      (hregister : n.register? layer id = some (.ok (), n')) : Step n (.register layer id) n'
  | deregister {layer : LayerId} {name : String} {id : MonitorId}
      (hlookup : n.lookup? layer name = some id) :
      Step n (.deregister layer name) ((n.modifyLayer layer fun l =>
        { l with registry := l.registry.erase name }).modifyMonitor id
          fun m => (m.unbindFrom (.layer layer)).2)
  | check {id : MonitorId} {output : Json} {outcome : Except MonitorError Ternary} {n' : Network}
      (hcheck : n.check? id output = some (outcome, n')) : Step n (.check id output) n'
  | deliver {sink : Sink} {e : Escalation} {n' : Network}
      (hdeliver : n.deliver sink e = (.ok (), n')) : Step n (.deliver sink e) n'
  | bind (id : MonitorId) (sink : Sink) :
      Step n (.bind id sink) (n.modifyMonitor id (·.bind sink))
  | unbind (id : MonitorId) : Step n (.unbind id) (n.modifyMonitor id (·.unbind))
  | tryBind (id : MonitorId) (sink : Sink) :
      Step n (.tryBind id sink) (n.modifyMonitor id fun m => (m.tryBind sink).2)
  | unbindFrom (id : MonitorId) (sink : Sink) :
      Step n (.unbindFrom id sink) (n.modifyMonitor id fun m => (m.unbindFrom sink).2)
  | clearAttention {layer : LayerId} {name : String} {l : Layer}
      (hl : n.layers[layer]? = some l) :
      Step n (.clearAttention layer name) (n.modifyLayer layer fun l' =>
        { l' with queue := (l.queue.clearMonitor name).2 })
  | resetAttention (layer : LayerId) : Step n (.resetAttention layer) (n.resetAttention layer)
  | receive {outlet : OutletId} {layer : LayerId} {c rest : Channel} {e : Escalation}
      (hc : n.outlets[outlet]? = some (.channel c)) (hreceive : c.receive? = some (e, rest)) :
      Step n (.receive outlet layer)
        ((n.setOutlet outlet (.channel rest)).modifyLayer layer (·.accept e))
  | closeChannel {outlet : OutletId} {c : Channel} (hc : n.outlets[outlet]? = some (.channel c)) :
      Step n (.closeChannel outlet) (n.setOutlet outlet (.channel c.close))

theorem eq_or_step_of_apply {n n' : Network} {op : Operation} (h : n.apply op = n') :
    n' = n ∨ Step n op n' := by
  subst h
  cases op with
  | addLayer capacity =>
      simp only [apply]
      split
      · rename_i hnew
        exact Or.inr (.addLayer hnew)
      · exact Or.inl rfl
  | addMonitor name checker =>
      simp only [apply]
      split
      · rename_i hnew
        exact Or.inr (.addMonitor hnew)
      · exact Or.inl rfl
  | addOutlet o => exact Or.inr (.addOutlet o)
  | register layer id =>
      simp only [apply]
      split
      · rename_i outcome n' hregister
        cases outcome with
        | error err => exact Or.inl (eq_of_register?_error hregister)
        | ok => exact Or.inr (.register hregister)
      · exact Or.inl rfl
  | deregister layer name =>
      simp only [apply]
      split
      · rename_i hderegister
        rcases deregister?_cases hderegister with ⟨-, -, rfl⟩ | ⟨id, hlookup, -, rfl⟩
        · exact Or.inl rfl
        · exact Or.inr (.deregister hlookup)
      · exact Or.inl rfl
  | check id output =>
      simp only [apply]
      split
      · rename_i hcheck
        exact Or.inr (.check hcheck)
      · exact Or.inl rfl
  | deliver sink e =>
      rcases hdeliver : n.deliver sink e with ⟨outcome, n'⟩
      simp only [apply, hdeliver]
      cases outcome with
      | error err => exact Or.inl (eq_of_deliver_error hdeliver)
      | ok => exact Or.inr (.deliver hdeliver)
  | bind id sink => exact Or.inr (.bind id sink)
  | unbind id => exact Or.inr (.unbind id)
  | tryBind id sink => exact Or.inr (.tryBind id sink)
  | unbindFrom id sink => exact Or.inr (.unbindFrom id sink)
  | clearAttention layer name =>
      simp only [apply]
      split
      · rename_i hclear
        obtain ⟨l, hl, -, rfl⟩ := clearAttention?_eq_some hclear
        exact Or.inr (.clearAttention hl)
      · exact Or.inl rfl
  | resetAttention layer => exact Or.inr (.resetAttention layer)
  | receive outlet layer =>
      simp only [apply]
      cases hreceive : n.receive? outlet layer with
      | none => exact Or.inl rfl
      | some n' =>
          obtain ⟨c, e, rest, hc, hrest, rfl⟩ := receive?_eq_some hreceive
          exact Or.inr (.receive hc hrest)
  | closeChannel outlet =>
      simp only [apply]
      split
      · rename_i hclose
        obtain ⟨c, hc, -, rfl⟩ := closeChannel?_eq_some hclose
        exact Or.inr (.closeChannel hc)
      · exact Or.inl rfl

/-- Every monitor of the first network stands in the second under its handle, with
its name and its checker. -/
def Continues (n n' : Network) : Prop :=
  ∀ (id : MonitorId) (m : Monitor Sink), n.monitors[id]? = some m →
    ∃ m', n'.monitors[id]? = some m' ∧ m'.name = m.name ∧ m'.checker = m.checker

namespace Continues

theorem of_monitors_eq {n n' : Network} (h : n'.monitors = n.monitors) : Continues n n' := by
  intro id m hm
  refine ⟨m, ?_, rfl, rfl⟩
  rw [h]
  exact hm

theorem refl (n : Network) : Continues n n := of_monitors_eq rfl

theorem trans {n n' n'' : Network} (h : Continues n n') (h' : Continues n' n'') :
    Continues n n'' := by
  intro id m hm
  obtain ⟨m', hm', hname', hchecker'⟩ := h id m hm
  obtain ⟨m'', hm'', hname'', hchecker''⟩ := h' id m' hm'
  exact ⟨m'', hm'', hname''.trans hname', hchecker''.trans hchecker'⟩

theorem modifyMonitor (n : Network) (id : MonitorId) {f : Monitor Sink → Monitor Sink}
    (hname : ∀ m, (f m).name = m.name) (hchecker : ∀ m, (f m).checker = m.checker) :
    Continues n (n.modifyMonitor id f) := by
  intro other m hm
  rw [getElem?_monitors_modifyMonitor, hm]
  by_cases heq : id = other
  · exact ⟨f m, if_pos heq, hname m, hchecker m⟩
  · exact ⟨m, if_neg heq, rfl, rfl⟩

/-- A monitor may be put in the place of one with its name and its checker. -/
theorem setMonitor {n : Network} {id : MonitorId} {m m' : Monitor Sink}
    (hm : n.monitors[id]? = some m) (hname : m'.name = m.name)
    (hchecker : m'.checker = m.checker) : Continues n (n.setMonitor id m') := by
  intro other o ho
  rw [Network.setMonitor, getElem?_monitors_modifyMonitor, ho]
  by_cases heq : id = other
  · have hmo : m = o := by
      rw [← heq, hm] at ho
      exact Option.some.inj ho
    rw [hmo] at hname hchecker
    exact ⟨m', if_pos heq, hname, hchecker⟩
  · exact ⟨o, if_neg heq, rfl, rfl⟩

theorem addMonitor (n : Network) (m : Monitor Sink) : Continues n (n.addMonitor m).2 := by
  intro id o ho
  refine ⟨o, ?_, rfl, rfl⟩
  obtain ⟨hlt, -⟩ := Array.getElem?_eq_some_iff.mp ho
  change (n.monitors.push m)[id]? = some o
  rw [Array.getElem?_push_lt hlt, ← Array.getElem?_eq_getElem hlt]
  exact ho

theorem register? {n n' : Network} {layer : LayerId} {id : MonitorId}
    (h : n.register? layer id = some (.ok (), n')) : Continues n n' := by
  obtain ⟨l, m, -, hm, -, -, rfl⟩ := register?_eq_ok h
  have hbound : Continues n (n.setMonitor id (m.bind (.layer layer))) := setMonitor hm rfl rfl
  exact hbound.trans (of_monitors_eq rfl)

theorem counted {n : Network} {id : MonitorId} {m : Monitor Sink}
    (hm : n.monitors[id]? = some m) (output : Json) : Continues n (n.counted id m output) :=
  setMonitor hm rfl rfl

theorem check? {n n' : Network} {id : MonitorId} {output : Json}
    {outcome : Except MonitorError Ternary} (h : n.check? id output = some (outcome, n')) :
    Continues n n' := by
  obtain ⟨m, hm, rfl | ⟨sink, e, d, hdel, rfl⟩⟩ := eq_counted_or_delivered h
  · exact counted hm output
  · have hdelivered := of_monitors_eq (monitors_deliver hdel)
    exact ((counted hm output).trans hdelivered).trans
      (modifyMonitor d id (fun _ => rfl) (fun _ => rfl))

end Continues

theorem continues_of_step {n n' : Network} {op : Operation} (h : Step n op n') :
    Continues n n' := by
  cases h with
  | addLayer _ => exact .of_monitors_eq rfl
  | addMonitor _ => exact .addMonitor n _
  | addOutlet o => exact .of_monitors_eq rfl
  | register hregister => exact .register? hregister
  | @deregister layer name id _ =>
      have hremoved : Continues n (n.modifyLayer layer fun l =>
          { l with registry := l.registry.erase name }) := .of_monitors_eq rfl
      exact hremoved.trans (.modifyMonitor _ id (fun m => m.name_unbindFrom (.layer layer))
        (fun m => m.checker_unbindFrom (.layer layer)))
  | check hcheck => exact .check? hcheck
  | deliver hdeliver => exact .of_monitors_eq (monitors_deliver hdeliver)
  | bind id sink => exact .modifyMonitor n id (fun _ => rfl) (fun _ => rfl)
  | unbind id => exact .modifyMonitor n id (fun _ => rfl) (fun _ => rfl)
  | tryBind id sink =>
      exact .modifyMonitor n id (fun m => m.name_tryBind sink) (fun m => m.checker_tryBind sink)
  | unbindFrom id sink =>
      exact .modifyMonitor n id (fun m => m.name_unbindFrom sink)
        (fun m => m.checker_unbindFrom sink)
  | clearAttention _ => exact .of_monitors_eq rfl
  | resetAttention layer => exact .of_monitors_eq rfl
  | receive _ _ => exact .of_monitors_eq rfl
  | closeChannel _ => exact .of_monitors_eq rfl

theorem continues_apply (n : Network) (op : Operation) : Continues n (n.apply op) := by
  rcases eq_or_step_of_apply rfl with heq | hstep
  · rw [heq]
    exact .refl n
  · exact continues_of_step hstep

end Vigil.Network
