import Vigil.Proofs.Attention.Operations
import Vigil.Proofs.Engine.Assessment

/-!
# The start of an engine

A valid configuration starts an engine, for what its sections promise is what the
parts of the engine ask for.  The monitor of verdicts stands under the first
handle, registered in the layer and bound to it.
-/

namespace Vigil

namespace Config

variable {c : Config}

theorem sections_of_validate (h : c.validate = .ok ()) :
    ∃ capacity constraint, c.capacity = .ok capacity ∧ c.constraint = .ok constraint ∧
      c.validateMonitor = .ok () := by
  cases hcapacity : c.capacity with
  | error err => simp [validate, hcapacity, bind, Except.bind] at h
  | ok capacity =>
      cases hconstraint : c.constraint with
      | error err => simp [validate, hcapacity, hconstraint, bind, Except.bind] at h
      | ok constraint =>
          refine ⟨capacity, constraint, rfl, rfl, ?_⟩
          simpa [validate, hcapacity, hconstraint, bind, Except.bind] using h

theorem capacity_pos {capacity : Nat} (h : c.capacity = .ok capacity) : 0 < capacity := by
  unfold Config.capacity at h
  cases hraw : Attention.validateCapacity c.attention.maxAttentionItems with
  | error err =>
      rw [hraw] at h
      cases h
  | ok given =>
      rw [hraw] at h
      cases h
      exact ((Attention.validateCapacity_eq_ok_iff _ _).mp hraw).1

theorem isAllBlank_name (h : c.validateMonitor = .ok ()) (henabled : c.pacMonitor.enabled = true) :
    Text.isAllBlank c.pacMonitor.name = false := by
  unfold validateMonitor at h
  split at h
  · cases h
  · rename_i hvisible
    simpa [henabled] using hvisible

end Config

namespace Engine

/-- The engine before its first operation. -/
def fresh (c : Config) (constraint : Constraint Float) (capacity : Nat) : Engine :=
  let queue : Attention.Queue := ⟨capacity, [], 0, 0⟩
  if c.pacMonitor.enabled then
    { config := c
      constraint
      network :=
        { layers := #[{ queue, registry := Dictionary.empty.insert c.pacMonitor.name 0 }]
          monitors := #[⟨c.pacMonitor.name, judgeVerdict, some (.layer layer), {}⟩] }
      pacMonitor := some 0
      tracker := .default }
  else
    { config := c, constraint, network := { layers := #[{ queue }] }, pacMonitor := none
      tracker := .default }

theorem registerPacMonitor_of_visible (l : Layer) {name : String}
    (hregistry : l.registry = .empty) (hname : Text.isAllBlank name = false) :
    registerPacMonitor { layers := #[l] } name =
      .ok (0, { layers := #[{ l with registry := Dictionary.empty.insert name 0 }]
                monitors := #[⟨name, judgeVerdict, some (.layer layer), {}⟩] }) := by
  have hnew : Monitor.new name judgeVerdict =
      .ok (⟨name, judgeVerdict, none, {}⟩ : Monitor Sink) := by
    simp only [Monitor.new, hname, Bool.false_eq_true, if_false]
  have hadd : Network.addMonitor { layers := #[l] } ⟨name, judgeVerdict, none, {}⟩ =
      (0, ⟨#[l], #[⟨name, judgeVerdict, none, {}⟩], #[]⟩) := rfl
  have hregister : Network.register? ⟨#[l], #[⟨name, judgeVerdict, none, {}⟩], #[]⟩ layer 0 =
      some (.ok (), ⟨#[{ l with registry := Dictionary.empty.insert name 0 }],
        #[⟨name, judgeVerdict, some (.layer layer), {}⟩], #[]⟩) := by
    simp [Network.register?, layer, hregistry, Dictionary.contains, Monitor.tryBind,
      Monitor.isBound, Monitor.bind, Network.setMonitor, Network.modifyMonitor,
      Network.modifyLayer]
  simp only [registerPacMonitor, hnew, hadd, hregister, bind, Except.bind, Option.getD_some]
  rfl

theorem new_of_validate {c : Config} (h : c.validate = .ok ()) :
    ∃ constraint capacity, c.constraint = .ok constraint ∧ c.capacity = .ok capacity ∧
      new c = .ok (fresh c constraint capacity) := by
  obtain ⟨capacity, constraint, hcapacity, hconstraint, hmonitor⟩ := Config.sections_of_validate h
  refine ⟨constraint, capacity, hconstraint, hcapacity, ?_⟩
  have hlayer : Layer.new capacity = .ok { queue := ⟨capacity, [], 0, 0⟩ } :=
    Layer.new_eq_ok_iff.mpr ⟨Config.capacity_pos hcapacity, rfl⟩
  cases henabled : c.pacMonitor.enabled with
  | false =>
      simp only [new, fresh, h, hcapacity, hconstraint, hlayer, henabled, bind, Except.bind]
      rfl
  | true =>
      have hname := Config.isAllBlank_name hmonitor henabled
      have hregister := registerPacMonitor_of_visible { queue := ⟨capacity, [], 0, 0⟩ } rfl hname
      simp only [new, fresh, h, hcapacity, hconstraint, hlayer, henabled, bind, Except.bind]
      change (registerPacMonitor { layers := #[{ queue := ⟨capacity, [], 0, 0⟩ }] }
        c.pacMonitor.name).bind _ = _
      rw [hregister]
      rfl

theorem watches_fresh (c : Config) (constraint : Constraint Float) (capacity : Nat) :
    (fresh c constraint capacity).Watches := by
  unfold fresh
  split
  · intro id hid
    cases hid
    exact ⟨⟨c.pacMonitor.name, judgeVerdict, some (.layer layer), {}⟩, rfl, rfl, rfl⟩
  · intro id hid
    cases hid

@[simp] theorem config_fresh (c : Config) (constraint : Constraint Float) (capacity : Nat) :
    (fresh c constraint capacity).config = c := by
  unfold fresh
  split <;> rfl

@[simp] theorem constraint_fresh (c : Config) (constraint : Constraint Float) (capacity : Nat) :
    (fresh c constraint capacity).constraint = constraint := by
  unfold fresh
  split <;> rfl

theorem pacMonitor_fresh (c : Config) (constraint : Constraint Float) (capacity : Nat) :
    (fresh c constraint capacity).pacMonitor = if c.pacMonitor.enabled then some 0 else none := by
  unfold fresh
  split <;> rfl

@[simp] theorem tracker_fresh (c : Config) (constraint : Constraint Float) (capacity : Nat) :
    (fresh c constraint capacity).tracker = .default := by
  unfold fresh
  split <;> rfl

end Engine
end Vigil
