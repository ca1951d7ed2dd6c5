import Vigil.Proofs.Network.Operations

/-!
# Registered monitors are bound

A layer registers a monitor and binds it to its own sink, and a removal undoes both.
As long as nobody binds or unbinds a registered monitor by hand, the two stay
together: a monitor registered in a layer has the name it is registered under, and
its sink is the layer's.

What nobody else undoes is a binding.  A monitor that has a sink keeps it through
every operation that does not name the monitor, whatever happens around it.
-/

namespace Vigil.Network

/-- A monitor that is registered in a layer is bound to it, and has the name it is
registered under. -/
def Faithful (n : Network) : Prop :=
  ∀ layer name id, n.lookup? layer name = some id →
    n.binding? id = some (name, some (.layer layer))

/-- Whether an operation is none of those that bind a monitor anew, unbind it or remove
it from a layer. -/
def spares (n : Network) (id : MonitorId) : Operation → Bool
  | .bind other _ | .unbind other | .unbindFrom other _ => other != id
  | .deregister layer name => n.lookup? layer name != some id
  | _ => true

/-- Whether an operation leaves the binding of registered monitors to the layers. -/
def permits (n : Network) : Operation → Bool
  | .bind id _ | .unbind id | .unbindFrom id _ => !n.isRegistered id
  | _ => true

/-- Whether each operation of a run is permitted when its turn comes. -/
def permitsAll (n : Network) : List Operation → Bool
  | [] => true
  | op :: ops => n.permits op && (n.apply op).permitsAll ops

theorem binding?_addMonitor {n : Network} {id : MonitorId} {b : String × Option Sink}
    (h : n.binding? id = some b) (m : Monitor Sink) : (n.addMonitor m).2.binding? id = some b := by
  obtain ⟨o, ho, hb⟩ := Option.map_eq_some_iff.mp h
  obtain ⟨hlt, -⟩ := Array.getElem?_eq_some_iff.mp ho
  unfold binding?
  change (n.monitors.push m)[id]?.map _ = some b
  rw [Array.getElem?_push_lt hlt, ← Array.getElem?_eq_getElem hlt]
  exact h

theorem lookup?_addLayer {n : Network} {l : Layer} (hl : l.registry = .empty) (layer : LayerId)
    (name : String) : (n.addLayer l).2.lookup? layer name = n.lookup? layer name := by
  unfold lookup?
  change (n.layers.push l)[layer]?.bind _ = _
  rw [Array.getElem?_push]
  split
  · rename_i heq
    rw [heq, Array.getElem?_eq_none (Nat.le_refl _)]
    simp [hl]
  · rfl

section Apply

variable {n n' : Network} {op : Operation}

/-- What is bound stays bound, unless an operation says otherwise. -/
theorem binding?_of_step (hstep : Step n op n') {id : MonitorId} {name : String} {sink : Sink}
    (h : n.binding? id = some (name, some sink)) (hspares : n.spares id op = true) :
    n'.binding? id = some (name, some sink) := by
  cases hstep with
  | addLayer _ => exact h
  | addMonitor _ => exact binding?_addMonitor h _
  | addOutlet o => exact h
  | @register layer other _ hregister =>
      obtain ⟨l, m, -, hm, -, hfree, rfl⟩ := register?_eq_ok hregister
      have hne : other ≠ id := by
        rintro rfl
        obtain ⟨o, ho, -, hsink⟩ := binding?_eq_some_iff.mp h
        have hom : o = m := Option.some.inj (ho.symm.trans hm)
        rw [hom, hfree] at hsink
        cases hsink
      exact (binding?_modifyMonitor_of_ne hne _).trans h
  | @deregister layer other removed hlookup =>
      have hne : removed ≠ id := by
        rintro rfl
        simp [spares, hlookup] at hspares
      exact (binding?_modifyMonitor_of_ne hne _).trans h
  | check hcheck => exact (binding?_check? hcheck id).trans h
  | deliver hdeliver => exact (binding?_congr (monitors_deliver hdeliver) id).trans h
  | bind other target =>
      have hne : other ≠ id := by simpa [spares] using hspares
      exact (binding?_modifyMonitor_of_ne hne _).trans h
  | unbind other =>
      have hne : other ≠ id := by simpa [spares] using hspares
      exact (binding?_modifyMonitor_of_ne hne _).trans h
  | tryBind other target =>
      by_cases heq : other = id
      · -- Something is bound already, so the attempt changes nothing.
        obtain ⟨m, hm, -, hsink⟩ := binding?_eq_some_iff.mp h
        rw [← h]
        apply binding?_modifyMonitor_of_fixed
        intro o ho
        have hom : m = o := Option.some.inj (hm.symm.trans (heq ▸ ho))
        rw [hom] at hsink
        simp [Monitor.tryBind, Monitor.isBound, hsink]
      · exact (binding?_modifyMonitor_of_ne heq _).trans h
  | unbindFrom other target =>
      have hne : other ≠ id := by simpa [spares] using hspares
      exact (binding?_modifyMonitor_of_ne hne _).trans h
  | clearAttention _ => exact h
  | resetAttention layer => exact h
  | receive _ _ => exact h
  | closeChannel _ => exact h

/-- What is registered after an operation was so before it, and has not been removed, or
it was unbound and has been registered and bound just now. -/
theorem lookup?_of_step (hstep : Step n op n') {layer : LayerId} {name : String}
    {id : MonitorId} (h : n'.lookup? layer name = some id) :
    (n.lookup? layer name = some id ∧ op ≠ .deregister layer name) ∨
      op = .register layer id ∧ n.binding? id = some (name, none) ∧
        n'.binding? id = some (name, some (.layer layer)) := by
  cases hstep with
  | addLayer hnew =>
      obtain ⟨-, rfl⟩ := Layer.new_eq_ok_iff.mp hnew
      rw [lookup?_addLayer rfl] at h
      exact Or.inl ⟨h, by simp⟩
  | addMonitor _ => exact Or.inl ⟨h, by simp⟩
  | addOutlet o => exact Or.inl ⟨h, by simp⟩
  | @register target other _ hregister =>
      obtain ⟨l, m, hl, hm, -, hfree, rfl⟩ := register?_eq_ok hregister
      rw [lookup?_modifyLayer] at h
      split at h
      · rename_i heq
        subst heq
        change (n.layers[target]?.bind _) = some id at h
        rw [hl, Option.bind_some, Dictionary.find?_insert] at h
        split at h
        · rename_i hname
          obtain rfl : other = id := Option.some.inj h
          refine Or.inr ⟨rfl, binding?_eq_some_iff.mpr ⟨m, hm, hname, hfree⟩, ?_⟩
          change (n.setMonitor other (m.bind (.layer target))).binding? other = _
          rw [setMonitor, binding?_modifyMonitor, if_pos rfl, hm, Option.map_some, ← hname]
          rfl
        · have hbefore : n.lookup? target name = some id := lookup?_eq_some_iff.mpr ⟨l, hl, h⟩
          exact Or.inl ⟨hbefore, by simp⟩
      · exact Or.inl ⟨h, by simp⟩
  | @deregister left other removed _ =>
      change (n.modifyLayer left _).lookup? layer name = some id at h
      rw [lookup?_modifyLayer] at h
      split at h
      · rename_i heq
        subst heq
        obtain ⟨l, hl, hfind⟩ := Option.bind_eq_some_iff.mp h
        rw [Dictionary.find?_erase] at hfind
        split at hfind
        · cases hfind
        · rename_i hne
          refine Or.inl ⟨lookup?_eq_some_iff.mpr ⟨l, hl, hfind⟩, ?_⟩
          rintro ⟨rfl, rfl⟩
          exact hne rfl
      · rename_i hne
        refine Or.inl ⟨h, ?_⟩
        rintro ⟨rfl, rfl⟩
        exact hne rfl
  | check hcheck =>
      rw [lookup?_check? hcheck] at h
      exact Or.inl ⟨h, by simp⟩
  | deliver hdeliver =>
      rw [lookup?_deliver hdeliver] at h
      exact Or.inl ⟨h, by simp⟩
  | bind other target => exact Or.inl ⟨h, by simp⟩
  | unbind other => exact Or.inl ⟨h, by simp⟩
  | tryBind other target => exact Or.inl ⟨h, by simp⟩
  | unbindFrom other target => exact Or.inl ⟨h, by simp⟩
  | clearAttention _ =>
      rw [lookup?_modifyLayer_of_registry] at h
      · exact Or.inl ⟨h, by simp⟩
      · exact fun _ => rfl
  | resetAttention target =>
      rw [resetAttention, lookup?_modifyLayer_of_registry] at h
      · exact Or.inl ⟨h, by simp⟩
      · exact fun _ => rfl
  | receive _ _ =>
      rw [lookup?_modifyLayer_of_registry] at h
      · exact Or.inl ⟨h, by simp⟩
      · exact fun _ => rfl
  | closeChannel _ => exact Or.inl ⟨h, by simp⟩

end Apply

theorem faithful_empty : Faithful empty := by
  intro layer name id h
  cases h

namespace Faithful

variable {n : Network}

/-- A permitted operation that does not take the monitor's entry out leaves its binding. -/
theorem spares (h : n.Faithful) {op : Operation} (hpermits : n.permits op = true)
    {layer : LayerId} {name : String} {id : MonitorId} (hlookup : n.lookup? layer name = some id)
    (hkept : op ≠ .deregister layer name) : n.spares id op = true := by
  have hregistered : n.isRegistered id = true :=
    isRegistered_eq_true_iff.mpr ⟨layer, name, hlookup⟩
  have hother : ∀ {other}, (!n.isRegistered other) = true → (other != id) = true := by
    intro other hfree
    rw [bne_iff_ne]
    rintro rfl
    simp [hregistered] at hfree
  cases op with
  | bind other sink => exact hother hpermits
  | unbind other => exact hother hpermits
  | unbindFrom other sink => exact hother hpermits
  | deregister other name' =>
      -- Another entry for the same monitor would give it another binding.
      simp only [Network.spares, bne_iff_ne]
      intro hlookup'
      have hbinding := (h other name' id hlookup').symm.trans (h layer name id hlookup)
      simp only [Option.some.injEq, Prod.mk.injEq, Sink.layer.injEq] at hbinding
      obtain ⟨rfl, rfl⟩ := hbinding
      exact hkept rfl
  | _ => rfl

theorem apply (h : n.Faithful) {op : Operation} (hpermits : n.permits op = true) :
    (n.apply op).Faithful := by
  rcases eq_or_step_of_apply rfl with heq | hstep
  · rw [heq]
    exact h
  · intro layer name id hlookup
    rcases lookup?_of_step hstep hlookup with ⟨hbefore, hkept⟩ | ⟨-, -, hbound⟩
    · exact binding?_of_step hstep (h layer name id hbefore) (h.spares hpermits hbefore hkept)
    · exact hbound

theorem run (h : n.Faithful) {ops : List Operation} (hpermits : n.permitsAll ops = true) :
    (n.run ops).Faithful := by
  induction ops generalizing n with
  | nil => exact h
  | cons op ops ih =>
      simp only [permitsAll, Bool.and_eq_true] at hpermits
      rw [run_cons]
      exact ih (h.apply hpermits.1) hpermits.2

/-- No layer registers a monitor under two names, and no two layers register it. -/
theorem lookup?_unique (h : n.Faithful) {layer layer' : LayerId} {name name' : String}
    {id : MonitorId} (hlookup : n.lookup? layer name = some id)
    (hlookup' : n.lookup? layer' name' = some id) : layer' = layer ∧ name' = name := by
  have hbinding := (h layer' name' id hlookup').symm.trans (h layer name id hlookup)
  simp only [Option.some.injEq, Prod.mk.injEq, Sink.layer.injEq] at hbinding
  exact ⟨hbinding.2, hbinding.1⟩

end Faithful

end Vigil.Network
