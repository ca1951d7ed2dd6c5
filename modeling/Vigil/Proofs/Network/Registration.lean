import Vigil.Proofs.Network.Traffic

/-!
# Registration and its undoing

A registration looks at two things, the registry of a layer and the sink of a monitor.
It is refused by the first before it comes to the second, and changes both or neither.
A removal right after it takes both back, and what is left is the network as it was.
Nothing here asks how the network came about: its entries may be under any names, and
its monitors bound to anything.
-/

namespace Vigil

namespace Network

/-- Two networks that differ in the registry of one layer and in the sink of one monitor,
if in anything. -/
structure AlikeBut (layer : LayerId) (id : MonitorId) (n n' : Network) : Prop where
  queues : ∀ other, n'.queue? other = n.queue? other
  registries : ∀ other name, other ≠ layer → n'.lookup? other name = n.lookup? other name
  monitors : ∀ other, other ≠ id → n'.monitors[other]? = n.monitors[other]?
  monitor : ∀ m, n.monitors[id]? = some m →
    ∃ sink, n'.monitors[id]? = some { m with sink := sink }
  outlets : n'.outlets = n.outlets

theorem ext_getElem? {n n' : Network}
    (hlayers : ∀ id : LayerId, n'.layers[id]? = n.layers[id]?)
    (hmonitors : ∀ id : MonitorId, n'.monitors[id]? = n.monitors[id]?)
    (houtlets : n'.outlets = n.outlets) : n' = n := by
  have hl : n'.layers = n.layers := Array.ext_getElem? hlayers
  have hm : n'.monitors = n.monitors := Array.ext_getElem? hmonitors
  cases n
  cases n'
  simp_all

section Views

variable {n : Network} {layer : LayerId} {id : MonitorId}

theorem alikeBut_modify (f : Layer → Dictionary MonitorId) {g : Monitor Sink → Monitor Sink}
    (hg : ∀ m, n.monitors[id]? = some m → ∃ sink, g m = { m with sink := sink }) :
    AlikeBut layer id n
      ((n.modifyLayer layer fun l => { l with registry := f l }).modifyMonitor id g) where
  queues other := queue?_modifyRegistry layer other f
  registries other name hother := by
    change (n.modifyLayer layer _).lookup? other name = _
    rw [lookup?_modifyLayer, if_neg (Ne.symm hother)]
  monitors other hother := by
    rw [getElem?_monitors_modifyMonitor, if_neg (Ne.symm hother)]
    rfl
  monitor m hm := by
    obtain ⟨sink, hsink⟩ := hg m hm
    refine ⟨sink, ?_⟩
    rw [getElem?_monitors_modifyMonitor, if_pos rfl, monitors_modifyLayer, hm, Option.map_some,
      hsink]
  outlets := rfl

theorem exists_layer (h : layer < n.layers.size) :
    ∃ l, n.layers[layer]? = some l ∧ ∀ name, n.lookup? layer name = l.registry.find? name := by
  refine ⟨n.layers[layer], Array.getElem?_eq_getElem h, fun name => ?_⟩
  rw [lookup?, Array.getElem?_eq_getElem h, Option.bind_some]

end Views

section Registration

variable {n n' : Network} {layer : LayerId} {id : MonitorId} {m : Monitor Sink}

theorem register?_of_taken (hlayer : layer < n.layers.size) (hm : n.monitors[id]? = some m)
    (htaken : n.lookup? layer m.name ≠ none) :
    n.register? layer id = some (.error (.duplicateName m.name), n) := by
  obtain ⟨l, hl, hlookup⟩ := exists_layer hlayer
  have hcontains : l.registry.contains m.name = true := by
    rwa [hlookup, Option.ne_none_iff_isSome] at htaken
  simp only [register?, hl, hm, Option.bind_eq_bind, Option.bind_some, hcontains, if_true]
  rfl

theorem register?_of_bound (hlayer : layer < n.layers.size) (hm : n.monitors[id]? = some m)
    (hfree : n.lookup? layer m.name = none) (hbound : m.sink ≠ none) :
    n.register? layer id = some (.error (.alreadyBound m.name), n) := by
  obtain ⟨l, hl, hlookup⟩ := exists_layer hlayer
  have hcontains : l.registry.contains m.name = false := by
    rw [Dictionary.contains, ← hlookup, hfree]
    rfl
  have htry : m.tryBind (.layer layer) = (false, m) :=
    Monitor.tryBind_of_bound (Option.ne_none_iff_isSome.mp hbound) (.layer layer)
  simp only [register?, hl, hm, Option.bind_eq_bind, Option.bind_some, hcontains,
    Bool.false_eq_true, if_false, htry, setMonitor_self hm]
  rfl

/-- A registration has three outcomes, and the registry decides before the sink does. -/
theorem register?_cases (hlayer : layer < n.layers.size) (hm : n.monitors[id]? = some m) :
    (n.lookup? layer m.name ≠ none ∧
      n.register? layer id = some (.error (.duplicateName m.name), n)) ∨
    (n.lookup? layer m.name = none ∧ m.sink ≠ none ∧
      n.register? layer id = some (.error (.alreadyBound m.name), n)) ∨
    (n.lookup? layer m.name = none ∧ m.sink = none ∧
      n.register? layer id = some (.ok (), (n.modifyLayer layer fun l =>
        { l with registry := l.registry.insert m.name id }).setMonitor id
          (m.bind (.layer layer)))) := by
  by_cases hfree : n.lookup? layer m.name = none
  · by_cases hsink : m.sink = none
    · obtain ⟨l, hl, hlookup⟩ := exists_layer hlayer
      exact Or.inr (Or.inr
        ⟨hfree, hsink, register?_of_free hl hm ((hlookup m.name).symm.trans hfree) hsink⟩)
    · exact Or.inr (Or.inl ⟨hfree, hsink, register?_of_bound hlayer hm hfree hsink⟩)
  · exact Or.inl ⟨hfree, register?_of_taken hlayer hm hfree⟩

theorem register?_eq_duplicateName_iff (hlayer : layer < n.layers.size)
    (hm : n.monitors[id]? = some m) :
    n.register? layer id = some (.error (.duplicateName m.name), n) ↔
      n.lookup? layer m.name ≠ none := by
  obtain ⟨htaken, h⟩ | ⟨hfree, -, h⟩ | ⟨hfree, -, h⟩ := register?_cases hlayer hm
  · simp [h, htaken]
  · simp [h, hfree]
  · simp [h, hfree]

theorem register?_eq_alreadyBound_iff (hlayer : layer < n.layers.size)
    (hm : n.monitors[id]? = some m) :
    n.register? layer id = some (.error (.alreadyBound m.name), n) ↔
      n.lookup? layer m.name = none ∧ m.sink ≠ none := by
  obtain ⟨htaken, h⟩ | ⟨hfree, hbound, h⟩ | ⟨-, hsink, h⟩ := register?_cases hlayer hm
  · simp [h, htaken]
  · simp [h, hfree, hbound]
  · simp [h, hsink]

theorem exists_register?_ok_iff (hlayer : layer < n.layers.size) (hm : n.monitors[id]? = some m) :
    (∃ n', n.register? layer id = some (.ok (), n')) ↔
      n.lookup? layer m.name = none ∧ m.sink = none := by
  obtain ⟨htaken, h⟩ | ⟨-, hbound, h⟩ | ⟨hfree, hsink, h⟩ := register?_cases hlayer hm
  · simp [h, htaken]
  · simp [h, hbound]
  · exact ⟨fun _ => ⟨hfree, hsink⟩, fun _ => ⟨_, h⟩⟩

theorem apply_register_of_error {e : MonitorError}
    (h : n.register? layer id = some (.error e, n')) : n.apply (.register layer id) = n := by
  simp only [apply, h]
  exact eq_of_register?_error h

section Accepted

variable (hm : n.monitors[id]? = some m) (h : n.register? layer id = some (.ok (), n'))

include hm h

theorem eq_of_register?_ok :
    layer < n.layers.size ∧ n.lookup? layer m.name = none ∧ m.sink = none ∧
      n' = (n.modifyLayer layer fun l =>
        { l with registry := l.registry.insert m.name id }).setMonitor id
          (m.bind (.layer layer)) := by
  obtain ⟨l, o, hl, ho, hfree, hsink, rfl⟩ := register?_eq_ok h
  obtain rfl : m = o := Option.some.inj (hm.symm.trans ho)
  refine ⟨(Array.getElem?_eq_some_iff.mp hl).1, ?_, hsink, rfl⟩
  rw [lookup?, hl, Option.bind_some, hfree]

theorem lookup?_register? (other : LayerId) (name : String) :
    n'.lookup? other name =
      if other = layer ∧ name = m.name then some id else n.lookup? other name := by
  obtain ⟨hlayer, -, -, rfl⟩ := eq_of_register?_ok hm h
  obtain ⟨l, hl, hlookup⟩ := exists_layer hlayer
  change (n.modifyLayer layer _).lookup? other name = _
  rw [lookup?_modifyLayer]
  by_cases hother : other = layer
  · subst hother
    simp only [if_true, hl, Option.bind_some, Dictionary.find?_insert, hlookup, true_and,
      eq_comm (a := name)]
  · rw [if_neg (Ne.symm hother), if_neg fun hboth => hother hboth.1]

theorem monitor_register? : n'.monitors[id]? = some (m.bind (.layer layer)) := by
  obtain ⟨-, -, -, rfl⟩ := eq_of_register?_ok hm h
  rw [setMonitor, getElem?_monitors_modifyMonitor, if_pos rfl, monitors_modifyLayer, hm]
  rfl

theorem alikeBut_register? : AlikeBut layer id n n' := by
  obtain ⟨-, -, -, rfl⟩ := eq_of_register?_ok hm h
  refine alikeBut_modify _ fun o ho => ?_
  obtain rfl : m = o := Option.some.inj (hm.symm.trans ho)
  exact ⟨_, rfl⟩

end Accepted

end Registration

section Removal

variable {n : Network} {layer : LayerId} {id : MonitorId} {m : Monitor Sink} {name : String}

theorem deregister?_of_absent (hlayer : layer < n.layers.size)
    (habsent : n.lookup? layer name = none) : n.deregister? layer name = some (none, n) := by
  obtain ⟨l, hl, hlookup⟩ := exists_layer hlayer
  have hnone : l.registry.find? name = none := (hlookup name).symm.trans habsent
  simp only [deregister?, hl, Option.bind_eq_bind, Option.bind_some, hnone]
  rfl

/-- The network after an entry has been removed. -/
def removed (n : Network) (layer : LayerId) (name : String) (id : MonitorId) : Network :=
  (n.modifyLayer layer fun l => { l with registry := l.registry.erase name }).modifyMonitor id
    fun m => (m.unbindFrom (.layer layer)).2

theorem deregister?_of_present (hpresent : n.lookup? layer name = some id) :
    n.deregister? layer name = some (some id, n.removed layer name id) := by
  obtain ⟨l, hl, hfind⟩ := lookup?_eq_some_iff.mp hpresent
  simp only [deregister?, hl, Option.bind_eq_bind, Option.bind_some, hfind]
  rfl

theorem lookup?_removed (other : LayerId) (name' : String) :
    (n.removed layer name id).lookup? other name' =
      if other = layer ∧ name' = name then none else n.lookup? other name' := by
  change (n.modifyLayer layer _).lookup? other name' = _
  rw [lookup?_modifyLayer]
  by_cases hother : other = layer
  · subst hother
    unfold lookup?
    cases n.layers[other]? with
    | none => simp
    | some l =>
        simp only [if_true, Option.bind_some, Dictionary.find?_erase, true_and,
          eq_comm (a := name')]
  · rw [if_neg (Ne.symm hother), if_neg fun hboth => hother hboth.1]

theorem monitor_removed (hm : n.monitors[id]? = some m) :
    (n.removed layer name id).monitors[id]? =
      some { m with sink := if m.sink = some (.layer layer) then none else m.sink } := by
  unfold removed
  rw [getElem?_monitors_modifyMonitor, if_pos rfl, monitors_modifyLayer, hm, Option.map_some,
    Monitor.unbindFrom]
  split <;> rfl

theorem alikeBut_removed : AlikeBut layer id n (n.removed layer name id) := by
  refine alikeBut_modify _ fun m _ => ?_
  unfold Monitor.unbindFrom
  split
  · exact ⟨none, rfl⟩
  · exact ⟨m.sink, rfl⟩

/-- A removal takes back the registration before it, and leaves no trace of either. -/
theorem removed_of_register? {n' : Network} (hm : n.monitors[id]? = some m)
    (h : n.register? layer id = some (.ok (), n')) : n'.removed layer m.name id = n := by
  obtain ⟨hlayer, hfree, hsink, rfl⟩ := eq_of_register?_ok hm h
  obtain ⟨l, hl, hlookup⟩ := exists_layer hlayer
  have hnone : l.registry.find? m.name = none := (hlookup m.name).symm.trans hfree
  apply ext_getElem?
  · intro other
    rw [removed, layers_modifyMonitor, getElem?_layers_modifyLayer, setMonitor,
      layers_modifyMonitor, getElem?_layers_modifyLayer]
    by_cases hother : layer = other
    · subst hother
      simp only [if_true, hl, Option.map_some, Dictionary.erase_insert,
        Dictionary.erase_of_find?_eq_none hnone]
    · rw [if_neg hother, if_neg hother]
  · intro other
    by_cases hother : other = id
    · subst hother
      rw [monitor_removed (monitor_register? hm h), hm]
      cases m
      simp_all [Monitor.bind]
    · rw [alikeBut_removed.monitors other hother, (alikeBut_register? hm h).monitors other hother]
  · rfl

/-- Another layer with the name free can have the monitor that was removed, unless a third
thing is bound to it. -/
theorem exists_register?_removed_iff (hm : n.monitors[id]? = some m) {other : LayerId}
    (hlt : other < n.layers.size) (hother : other ≠ layer)
    (hfree : n.lookup? other m.name = none) :
    (∃ n', (n.removed layer name id).register? other id = some (.ok (), n')) ↔
      m.sink = none ∨ m.sink = some (.layer layer) := by
  have hlt' : other < (n.removed layer name id).layers.size := by
    simpa [removed] using hlt
  rw [exists_register?_ok_iff hlt' (monitor_removed hm)]
  simp only [lookup?_removed, hother, false_and, if_false, hfree, true_and]
  by_cases hsink : m.sink = some (.layer layer) <;> simp [hsink]

end Removal

/-- A registration is refused for a name that is taken, else for a monitor that is bound, and
else it is not refused.  Refused, it changes nothing; accepted, it makes one entry and one
binding, and a removal right after it restores the network.  A removal takes out the one
entry, and unbinds the monitor if it is bound to this layer; any other layer in which its
name is free can have the monitor then, unless something else is still bound to it. -/
theorem register?_both_or_neither {n : Network} {layer : LayerId} {id : MonitorId}
    {m : Monitor Sink} (hlayer : layer < n.layers.size) (hm : n.monitors[id]? = some m) :
    (n.register? layer id = some (.error (.duplicateName m.name), n) ↔
      n.lookup? layer m.name ≠ none) ∧
    (n.register? layer id = some (.error (.alreadyBound m.name), n) ↔
      n.lookup? layer m.name = none ∧ m.sink ≠ none) ∧
    ((∃ n', n.register? layer id = some (.ok (), n')) ↔
      n.lookup? layer m.name = none ∧ m.sink = none) ∧
    (∀ e n', n.register? layer id = some (.error e, n') →
      n' = n ∧ n.apply (.register layer id) = n ∧
      (n.lookup? layer m.name = none → m.tryBind (.layer layer) = (false, m))) ∧
    (∀ n', n.register? layer id = some (.ok (), n') →
      AlikeBut layer id n n' ∧
      (∀ name, n'.lookup? layer name = if name = m.name then some id else n.lookup? layer name) ∧
      n'.monitors[id]? = some (m.bind (.layer layer)) ∧
      n'.deregister? layer m.name = some (some id, n)) ∧
    (∀ name, n.lookup? layer name = none → n.deregister? layer name = some (none, n)) ∧
    ∀ name, n.lookup? layer name = some id →
      ∃ n', n.deregister? layer name = some (some id, n') ∧
        AlikeBut layer id n n' ∧
        (∀ name', n'.lookup? layer name' =
          if name' = name then none else n.lookup? layer name') ∧
        n'.monitors[id]? =
          some { m with sink := if m.sink = some (.layer layer) then none else m.sink } ∧
        ∀ other, other < n.layers.size → other ≠ layer → n.lookup? other m.name = none →
          ((∃ n'', n'.register? other id = some (.ok (), n'')) ↔
            m.sink = none ∨ m.sink = some (.layer layer)) := by
  refine ⟨register?_eq_duplicateName_iff hlayer hm, register?_eq_alreadyBound_iff hlayer hm,
    exists_register?_ok_iff hlayer hm, ?_, ?_, ?_, ?_⟩
  · intro e n' he
    refine ⟨eq_of_register?_error he, apply_register_of_error he,
      fun hfree => Monitor.tryBind_of_bound (Option.ne_none_iff_isSome.mp ?_) _⟩
    intro hsink
    obtain ⟨n', hok⟩ := (exists_register?_ok_iff hlayer hm).mpr ⟨hfree, hsink⟩
    rw [hok] at he
    cases he
  · intro n' h
    refine ⟨alikeBut_register? hm h, ?_, monitor_register? hm h, ?_⟩
    · intro name
      simp only [lookup?_register? hm h, true_and]
    · have hpresent : n'.lookup? layer m.name = some id := by simp [lookup?_register? hm h]
      rw [deregister?_of_present hpresent, removed_of_register? hm h]
  · exact fun name habsent => deregister?_of_absent hlayer habsent
  · intro name hpresent
    refine ⟨_, deregister?_of_present hpresent, alikeBut_removed, ?_, monitor_removed hm, ?_⟩
    · intro name'
      simp only [lookup?_removed, true_and]
    · exact fun other hlt hother hfree => exists_register?_removed_iff hm hlt hother hfree

/-- Two monitors of one name; a layer has registered the first and heard from it. -/
def namesakes : Network :=
  empty.run [.addLayer 1, .addLayer 2, .addMonitor "m" fun _ => none,
    .addMonitor "m" fun _ => none, .register 0 0, .check 0 .null]

theorem register?_both_or_neither_namesakes :
    namesakes.register? 0 1 = some (.error (.duplicateName "m"), namesakes) ∧
      namesakes.register? 1 0 = some (.error (.alreadyBound "m"), namesakes) ∧
      ∃ n' n'', namesakes.deregister? 0 "m" = some (some 0, n') ∧
        n'.register? 1 0 = some (.ok (), n'') := by
  have hfirst : namesakes.binding? 0 = some ("m", some (.layer 0)) := by decide +kernel
  have hsecond : namesakes.binding? 1 = some ("m", none) := by decide +kernel
  obtain ⟨m, hm, hname, hsink⟩ := binding?_eq_some_iff.mp hfirst
  obtain ⟨o, ho, honame, -⟩ := binding?_eq_some_iff.mp hsecond
  have hentry : namesakes.lookup? 0 "m" = some 0 := by decide +kernel
  have hfree : namesakes.lookup? 1 "m" = none := by decide +kernel
  have hlayer : 0 < namesakes.layers.size := by decide +kernel
  have hother : 1 < namesakes.layers.size := by decide +kernel
  refine ⟨?_, ?_, ?_⟩
  · rw [← honame]
    apply (register?_both_or_neither hlayer ho).1.mpr
    rw [honame, hentry]
    exact Option.some_ne_none 0
  · rw [← hname]
    apply (register?_both_or_neither hother hm).2.1.mpr
    rw [hname, hsink]
    exact ⟨hfree, Option.some_ne_none _⟩
  · obtain ⟨-, -, -, -, -, -, hremoval⟩ := register?_both_or_neither hlayer hm
    obtain ⟨n', hn', -, -, -, hmoves⟩ := hremoval "m" hentry
    obtain ⟨n'', hn''⟩ := (hmoves 1 hother (by decide) (hname ▸ hfree)).mpr (Or.inr hsink)
    exact ⟨n', n'', hn', hn''⟩

end Network
end Vigil
