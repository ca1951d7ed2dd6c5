import Vigil.Proofs.Network.Faithful

/-!
# One layer for a monitor

No layer keeps a list of what other layers register.  A layer takes a monitor for
free if nothing is bound to it, and this is right as long as registered monitors
are bound.  Binding one anew does no harm.  Unbinding one by hand does: from then
on it looks free to every other layer.
-/

namespace Vigil.Network

/-- Whether an operation takes the sink from a monitor that some layer registers, and
leaves the entry. -/
def frees (n : Network) (id : MonitorId) : Operation → Bool
  | .unbind other => other == id && n.isRegistered id
  | .unbindFrom other sink =>
    other == id && n.isRegistered id && (n.binding? id).any fun b => b.2 == some sink
  | _ => false

/-- Every entry has the name of its monitor. -/
def Named (n : Network) : Prop :=
  ∀ layer name id, n.lookup? layer name = some id →
    ∃ m, n.monitors[id]? = some m ∧ m.name = name

theorem named_empty : Named empty := by
  intro layer name id h
  cases h

theorem Named.apply {n : Network} (h : n.Named) (op : Operation) : (n.apply op).Named := by
  rcases eq_or_step_of_apply rfl with heq | hstep
  · rw [heq]
    exact h
  · intro layer name id hlookup
    rcases lookup?_of_step hstep hlookup with ⟨hbefore, -⟩ | ⟨-, -, hbound⟩
    · obtain ⟨m, hm, hname⟩ := h layer name id hbefore
      obtain ⟨m', hm', hname', -⟩ := continues_of_step hstep id m hm
      exact ⟨m', hm', hname'.trans hname⟩
    · obtain ⟨m, hm, hname, -⟩ := binding?_eq_some_iff.mp hbound
      exact ⟨m, hm, hname⟩

theorem Named.run {n : Network} (h : n.Named) (ops : List Operation) : (n.run ops).Named := by
  induction ops generalizing n with
  | nil => exact h
  | cons op ops ih =>
      rw [run_cons]
      exact ih (h.apply op)

/-- What holds of a monitor that nobody has unbound by hand: it is bound wherever it is
registered, and it has one entry at most. -/
structure Exclusive (n : Network) (id : MonitorId) : Prop where
  bound : ∀ {layer name}, n.lookup? layer name = some id →
    ∃ sink, n.binding? id = some (name, some sink)
  unique : ∀ {layer name layer' name'}, n.lookup? layer name = some id →
    n.lookup? layer' name' = some id → layer' = layer ∧ name' = name

theorem exclusive_empty (id : MonitorId) : Exclusive empty id :=
  ⟨nofun, nofun⟩

namespace Exclusive

variable {n n' : Network} {op : Operation} {layer : LayerId} {name : String} {id : MonitorId}

/-- An entry that an operation leaves in place keeps a sink. -/
theorem bound_of_step (h : n.Exclusive id) (hstep : Step n op n') (hkeeps : n.frees id op = false)
    (hlookup : n.lookup? layer name = some id) (hkept : op ≠ .deregister layer name) :
    ∃ sink, n'.binding? id = some (name, some sink) := by
  obtain ⟨sink, hsink⟩ := h.bound hlookup
  have hregistered : n.isRegistered id = true :=
    isRegistered_eq_true_iff.mpr ⟨layer, name, hlookup⟩
  by_cases hspares : n.spares id op = true
  · exact ⟨sink, binding?_of_step hstep hsink hspares⟩
  · cases hstep with
    | bind other target =>
        obtain rfl : other = id := by simpa [spares] using hspares
        obtain ⟨m, hm, hname, -⟩ := binding?_eq_some_iff.mp hsink
        refine ⟨target, ?_⟩
        rw [binding?_modifyMonitor, if_pos rfl, hm, ← hname]
        rfl
    | unbind other =>
        obtain rfl : other = id := by simpa [spares] using hspares
        simp [frees, hregistered] at hkeeps
    | unbindFrom other target =>
        obtain rfl : other = id := by simpa [spares] using hspares
        have hne : sink ≠ target := by simpa [frees, hregistered, hsink] using hkeeps
        refine ⟨sink, ?_⟩
        rw [← hsink]
        apply binding?_modifyMonitor_of_fixed
        intro m hm
        obtain ⟨m', hm', -, hbound⟩ := binding?_eq_some_iff.mp hsink
        obtain rfl : m' = m := Option.some.inj (hm'.symm.trans hm)
        simp [Monitor.unbindFrom, hbound, hne]
    | @deregister left other removed hleft =>
        obtain rfl : removed = id := by
          simpa [spares, hleft] using hspares
        obtain ⟨rfl, rfl⟩ := h.unique hlookup hleft
        exact absurd rfl hkept
    | _ => exact absurd rfl hspares

theorem apply (h : n.Exclusive id) (hkeeps : n.frees id op = false) :
    (n.apply op).Exclusive id := by
  rcases eq_or_step_of_apply rfl with heq | hstep
  · rw [heq]
    exact h
  · constructor
    · intro layer name hlookup
      rcases lookup?_of_step hstep hlookup with ⟨hbefore, hkept⟩ | ⟨-, -, hbound⟩
      · exact h.bound_of_step hstep hkeeps hbefore hkept
      · exact ⟨.layer layer, hbound⟩
    · -- What has just been registered was not bound, so it had no entry before.
      have hfresh : ∀ {layer name name'}, n.binding? id = some (name', none) →
          ¬ n.lookup? layer name = some id := by
        intro layer name name' hfree hbefore
        obtain ⟨sink, hsink⟩ := h.bound hbefore
        cases hsink.symm.trans hfree
      intro layer name layer' name' hlookup hlookup'
      rcases lookup?_of_step hstep hlookup with ⟨hbefore, -⟩ | ⟨hop, hfree, -⟩
      · rcases lookup?_of_step hstep hlookup' with ⟨hbefore', -⟩ | ⟨-, hfree', -⟩
        · exact h.unique hbefore hbefore'
        · exact absurd hbefore (hfresh hfree')
      · rcases lookup?_of_step hstep hlookup' with ⟨hbefore', -⟩ | ⟨hop', hfree', -⟩
        · exact absurd hbefore' (hfresh hfree)
        · obtain ⟨rfl, -⟩ := Operation.register.inj (hop.symm.trans hop')
          rw [hfree, Option.some.injEq, Prod.mk.injEq] at hfree'
          exact ⟨rfl, hfree'.1.symm⟩

/-- A run after which a monitor is not exclusive has freed it on the way. -/
theorem of_run (h : n.Exclusive id) (ops : List Operation) :
    (n.run ops).Exclusive id ∨
      ∃ before op after, ops = before ++ op :: after ∧ (n.run before).frees id op = true := by
  induction ops generalizing n with
  | nil => exact Or.inl h
  | cons op ops ih =>
      cases hfrees : n.frees id op with
      | true => exact Or.inr ⟨[], op, ops, rfl, hfrees⟩
      | false =>
          rcases ih (h.apply hfrees) with hafter | ⟨before, op', after, rfl, hafter⟩
          · exact Or.inl hafter
          · exact Or.inr ⟨op :: before, op', after, rfl, hafter⟩

end Exclusive

/-- A registered monitor that is unbound by hand stays in its layer, and any other layer in
which its name is free takes it as well. -/
theorem Named.run_unbind_register {n : Network} (h : n.Named) {layer layer' : LayerId}
    {name : String} {id : MonitorId} (hlookup : n.lookup? layer name = some id)
    (hlt : layer' < n.layers.size) (hfree : n.lookup? layer' name = none) :
    (n.run [.unbind id, .register layer' id]).lookup? layer name = some id ∧
      (n.run [.unbind id, .register layer' id]).lookup? layer' name = some id := by
  obtain ⟨m, hm, rfl⟩ := h layer name id hlookup
  have hl : n.layers[layer']? = some n.layers[layer'] := Array.getElem?_eq_getElem hlt
  have hnone : n.layers[layer'].registry.find? m.name = none := by
    simpa only [lookup?, hl, Option.bind_some] using hfree
  have hunbound : (n.modifyMonitor id (·.unbind)).monitors[id]? = some m.unbind := by
    rw [getElem?_monitors_modifyMonitor, if_pos rfl, hm]
    rfl
  have hregister := register?_of_free (n := n.modifyMonitor id (·.unbind)) hl hunbound hnone rfl
  have hne : layer' ≠ layer := by
    rintro rfl
    cases hlookup.symm.trans hfree
  simp only [run_cons, run_nil, Network.apply, hregister]
  constructor
  · rw [lookup?_modifyLayer, if_neg hne]
    exact hlookup
  · rw [lookup?_modifyLayer, if_pos rfl]
    change (n.layers[layer']?.bind _) = some id
    rw [hl, Option.bind_some, Dictionary.find?_insert]
    exact if_pos rfl

/-- Whatever happens in a network, an entry has the name of its monitor, so no layer holds a
monitor twice.  If two layers hold it, somebody has unbound it by hand while it was
registered; and whenever somebody does, a second layer can take it. -/
theorem run_empty_exclusive_unless_freed (ops : List Operation) :
    let n := empty.run ops
    (∀ layer name id, n.lookup? layer name = some id →
      ∃ m, n.monitors[id]? = some m ∧ m.name = name) ∧
    (∀ layer name layer' name' id, n.lookup? layer name = some id →
      n.lookup? layer' name' = some id → layer' ≠ layer →
      ∃ before op after, ops = before ++ op :: after ∧ (empty.run before).frees id op = true) ∧
    ∀ layer name layer' id, n.lookup? layer name = some id → layer' < n.layers.size →
      n.lookup? layer' name = none →
      (empty.run (ops ++ [.unbind id, .register layer' id])).lookup? layer name = some id ∧
      (empty.run (ops ++ [.unbind id, .register layer' id])).lookup? layer' name = some id := by
  intro n
  have hnamed : n.Named := named_empty.run ops
  refine ⟨hnamed, ?_, ?_⟩
  · intro layer name layer' name' id hlookup hlookup' hne
    rcases (exclusive_empty id).of_run ops with hexclusive | hfreed
    · exact absurd (hexclusive.unique hlookup hlookup').1 hne
    · exact hfreed
  · intro layer name layer' id hlookup hlt hfree
    rw [run_append]
    exact hnamed.run_unbind_register hlookup hlt hfree

def handedTwice : List Operation :=
  [.addLayer 1, .addLayer 1, .addMonitor "m" fun _ => none, .register 0 0, .bind 0 (.layer 1),
    .unbindFrom 0 (.layer 1), .register 1 0]

theorem run_empty_exclusive_unless_freed_handedTwice :
    (empty.run handedTwice).lookup? 0 "m" = some 0 ∧
      (empty.run handedTwice).lookup? 1 "m" = some 0 ∧
      ∃ before op after, handedTwice = before ++ op :: after ∧
        (empty.run before).frees 0 op = true := by
  have hfirst : (empty.run handedTwice).lookup? 0 "m" = some 0 := by decide +kernel
  have hsecond : (empty.run handedTwice).lookup? 1 "m" = some 0 := by decide +kernel
  exact ⟨hfirst, hsecond, (run_empty_exclusive_unless_freed handedTwice).2.1 0 "m" 1 "m" 0
    hfirst hsecond (by decide)⟩

/-- Exclusiveness fails as soon as a registered monitor is unbound and registered again. -/
theorem registered_twice_of_unbound :
    ¬ ∀ (ops : List Operation) (layer layer' : LayerId) (name name' : String) (id : MonitorId),
      (empty.run ops).lookup? layer name = some id →
      (empty.run ops).lookup? layer' name' = some id → layer' = layer := by
  intro h
  have hsame := h [.addLayer 1, .addLayer 1, .addMonitor "m" fun _ => none, .register 0 0,
    .unbind 0, .register 1 0] 0 1 "m" "m" 0 (by decide +kernel) (by decide +kernel)
  cases hsame

end Vigil.Network
