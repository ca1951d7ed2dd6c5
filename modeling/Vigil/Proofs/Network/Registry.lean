import Vigil.Network.Registration
import Vigil.Proofs.Network.Checks

/-!
# Registries and bindings

Which monitor a layer registers under a name, and which sink is bound to a monitor,
are two views of a network.  Deliveries and checks leave both as they are.
Registration and removal change both, and only what they are asked to.
-/

namespace Vigil.Network

/-- The name of the monitor under a handle, and the sink bound to it. -/
def binding? (n : Network) (id : MonitorId) : Option (String × Option Sink) :=
  n.monitors[id]?.map fun m => (m.name, m.sink)

/-- Whether any layer registers the monitor under a handle. -/
def isRegistered (n : Network) (id : MonitorId) : Bool :=
  n.layers.any fun l => l.registry.values.contains id

theorem lookup?_eq_some_iff {n : Network} {layer : LayerId} {name : String} {id : MonitorId} :
    n.lookup? layer name = some id ↔
      ∃ l, n.layers[layer]? = some l ∧ l.registry.find? name = some id := by
  simp [lookup?, Option.bind_eq_some_iff]

theorem binding?_eq_some_iff {n : Network} {id : MonitorId} {name : String}
    {sink : Option Sink} :
    n.binding? id = some (name, sink) ↔
      ∃ m, n.monitors[id]? = some m ∧ m.name = name ∧ m.sink = sink := by
  simp [binding?, Option.map_eq_some_iff]

theorem isRegistered_eq_true_iff {n : Network} {id : MonitorId} :
    n.isRegistered id = true ↔ ∃ layer name, n.lookup? layer name = some id := by
  simp only [isRegistered, Array.any_eq_true, List.contains_iff_mem, Dictionary.mem_values_iff,
    lookup?_eq_some_iff]
  constructor
  · rintro ⟨layer, hlt, name, hname⟩
    exact ⟨layer, name, n.layers[layer], Array.getElem?_eq_getElem hlt, hname⟩
  · rintro ⟨layer, name, l, hl, hname⟩
    obtain ⟨hlt, rfl⟩ := Array.getElem?_eq_some_iff.mp hl
    exact ⟨layer, hlt, name, hname⟩

section Views

variable {n n' : Network}

theorem binding?_congr (h : n'.monitors = n.monitors) (id : MonitorId) :
    n'.binding? id = n.binding? id := by
  simp only [binding?, h]

theorem lookup?_modifyLayer (layer other : LayerId) (f : Layer → Layer) (name : String) :
    (n.modifyLayer layer f).lookup? other name =
      if layer = other then n.layers[other]?.bind fun l => (f l).registry.find? name
      else n.lookup? other name := by
  unfold lookup?
  rw [getElem?_layers_modifyLayer]
  split
  · rw [Option.bind_map]
    rfl
  · rfl

theorem lookup?_modifyLayer_of_registry {f : Layer → Layer} (hf : ∀ l, (f l).registry = l.registry)
    (layer other : LayerId) (name : String) :
    (n.modifyLayer layer f).lookup? other name = n.lookup? other name := by
  rw [lookup?_modifyLayer]
  simp only [hf]
  split <;> rfl

theorem binding?_modifyMonitor (id other : MonitorId) (f : Monitor Sink → Monitor Sink) :
    (n.modifyMonitor id f).binding? other =
      if id = other then n.monitors[other]?.map fun m => ((f m).name, (f m).sink)
      else n.binding? other := by
  unfold binding?
  rw [getElem?_monitors_modifyMonitor]
  split
  · rw [Option.map_map]
    rfl
  · rfl

theorem binding?_modifyMonitor_of_ne {id other : MonitorId} (h : id ≠ other)
    (f : Monitor Sink → Monitor Sink) :
    (n.modifyMonitor id f).binding? other = n.binding? other := by
  rw [binding?_modifyMonitor, if_neg h]

/-- A monitor that is changed in neither its name nor its sink keeps its binding. -/
theorem binding?_modifyMonitor_of_fixed {id other : MonitorId} {f : Monitor Sink → Monitor Sink}
    (hf : ∀ m, n.monitors[id]? = some m → (f m).name = m.name ∧ (f m).sink = m.sink) :
    (n.modifyMonitor id f).binding? other = n.binding? other := by
  rw [binding?_modifyMonitor]
  split
  · rename_i heq
    unfold binding?
    cases hm : n.monitors[other]? with
    | none => rfl
    | some m =>
        obtain ⟨hname, hsink⟩ := hf m (heq ▸ hm)
        simp only [Option.map_some, hname, hsink]
  · rfl

end Views

section Delivery

variable {n n' : Network}

theorem lookup?_deliver {sink : Sink} {e : Escalation} (h : n.deliver sink e = (.ok (), n'))
    (layer : LayerId) (name : String) : n'.lookup? layer name = n.lookup? layer name := by
  rcases deliver_ok_cases h with ⟨id, -, -, rfl⟩ | ⟨id, o, -, rfl⟩
  · exact lookup?_modifyLayer_of_registry (f := (·.accept e)) (fun _ => rfl) id layer name
  · rfl

variable {id : MonitorId} {output : Json} {outcome : Except MonitorError Ternary}

theorem lookup?_check? (h : n.check? id output = some (outcome, n')) (layer : LayerId)
    (name : String) : n'.lookup? layer name = n.lookup? layer name := by
  obtain ⟨m, -, rfl | ⟨sink, e, d, hdel, rfl⟩⟩ := eq_counted_or_delivered h
  · rfl
  · exact lookup?_deliver hdel layer name

theorem binding?_counted {m : Monitor Sink} (hm : n.monitors[id]? = some m) (other : MonitorId) :
    (n.counted id m output).binding? other = n.binding? other := by
  apply binding?_modifyMonitor_of_fixed
  intro o ho
  have hom : m = o := Option.some.inj (hm.symm.trans ho)
  rw [← hom]
  exact ⟨rfl, rfl⟩

theorem binding?_check? (h : n.check? id output = some (outcome, n')) (other : MonitorId) :
    n'.binding? other = n.binding? other := by
  obtain ⟨m, hm, rfl | ⟨sink, e, d, hdel, rfl⟩⟩ := eq_counted_or_delivered h
  · exact binding?_counted hm other
  · rw [binding?_modifyMonitor_of_fixed (f := (·.acknowledge)) (fun _ _ => ⟨rfl, rfl⟩),
      binding?_congr (monitors_deliver hdel)]
    exact binding?_counted hm other

end Delivery

section Registration

variable {n n' : Network} {layer : LayerId}

/-- A registration that is not refused finds the name free and the monitor unbound. -/
theorem register?_eq_ok {id : MonitorId} (h : n.register? layer id = some (.ok (), n')) :
    ∃ l m, n.layers[layer]? = some l ∧ n.monitors[id]? = some m ∧
      l.registry.find? m.name = none ∧ m.sink = none ∧
      n' = (n.setMonitor id (m.bind (.layer layer))).modifyLayer layer fun l =>
        { l with registry := l.registry.insert m.name id } := by
  simp only [register?, Option.bind_eq_bind, Option.bind_eq_some_iff] at h
  obtain ⟨l, hl, m, hm, h⟩ := h
  split at h
  · cases h
  · rename_i hfree
    have hnone : l.registry.find? m.name = none := by
      simpa [Dictionary.contains] using hfree
    cases hbound : m.isBound with
    | true =>
        rw [Monitor.tryBind_of_bound hbound] at h
        cases h
    | false =>
        have hsink : m.sink = none := by simpa [Monitor.isBound] using hbound
        rw [Monitor.tryBind_of_free hbound] at h
        cases h
        exact ⟨l, m, hl, hm, hnone, hsink, rfl⟩

/-- A refused registration changes nothing: the name is looked up before anything is
written, and what refuses to be bound is as it was. -/
theorem eq_of_register?_error {id : MonitorId} {err : MonitorError}
    (h : n.register? layer id = some (.error err, n')) : n' = n := by
  simp only [register?, Option.bind_eq_bind, Option.bind_eq_some_iff] at h
  obtain ⟨l, hl, m, hm, h⟩ := h
  split at h
  · cases h
    rfl
  · cases hbound : m.isBound with
    | true =>
        rw [Monitor.tryBind_of_bound hbound] at h
        cases h
        exact setMonitor_self hm
    | false =>
        rw [Monitor.tryBind_of_free hbound] at h
        cases h

/-- A layer takes a monitor that is not bound and whose name is free. -/
theorem register?_of_free {id : MonitorId} {l : Layer} {m : Monitor Sink}
    (hl : n.layers[layer]? = some l) (hm : n.monitors[id]? = some m)
    (hfree : l.registry.find? m.name = none) (hsink : m.sink = none) :
    n.register? layer id = some (.ok (), (n.setMonitor id (m.bind (.layer layer))).modifyLayer
      layer fun l => { l with registry := l.registry.insert m.name id }) := by
  have hcontains : l.registry.contains m.name = false := by
    rw [Dictionary.contains, hfree]
    rfl
  have hbind : m.tryBind (.layer layer) = (true, m.bind (.layer layer)) :=
    Monitor.tryBind_of_free (by rw [Monitor.isBound, hsink, Option.isSome_none]) _
  simp only [register?, hl, hm, Option.bind_eq_bind, Option.bind_some, hcontains,
    Bool.false_eq_true, if_false, hbind]
  rfl

theorem deregister?_cases {name : String} {o : Option MonitorId}
    (h : n.deregister? layer name = some (o, n')) :
    (n.lookup? layer name = none ∧ o = none ∧ n' = n) ∨
    ∃ id, n.lookup? layer name = some id ∧ o = some id ∧
      n' = (n.modifyLayer layer fun l => { l with registry := l.registry.erase name }).modifyMonitor
        id fun m => (m.unbindFrom (.layer layer)).2 := by
  simp only [deregister?, Option.bind_eq_bind, Option.bind_eq_some_iff] at h
  obtain ⟨l, hl, h⟩ := h
  have hlookup : n.lookup? layer name = l.registry.find? name := by
    simp only [lookup?, hl, Option.bind_some]
  split at h
  · rename_i hnone
    cases h
    exact Or.inl ⟨hlookup.trans hnone, rfl, rfl⟩
  · rename_i id hsome
    cases h
    exact Or.inr ⟨id, hlookup.trans hsome, rfl, rfl⟩

theorem clearAttention?_eq_some {name : String} {count : Nat}
    (h : n.clearAttention? layer name = some (count, n')) :
    ∃ l, n.layers[layer]? = some l ∧ count = (l.queue.clearMonitor name).1 ∧
      n' = n.modifyLayer layer fun l' => { l' with queue := (l.queue.clearMonitor name).2 } := by
  simp only [clearAttention?, Option.bind_eq_bind, Option.bind_eq_some_iff] at h
  obtain ⟨l, hl, h⟩ := h
  cases h
  exact ⟨l, hl, rfl, rfl⟩

end Registration

end Vigil.Network
