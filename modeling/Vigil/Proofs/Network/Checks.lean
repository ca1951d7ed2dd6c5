import Vigil.Network.Delivery

/-!
# Deliveries and checks

A delivery leaves all monitors as they are, and a refused one is as if it had not
been tried.  A check has three outcomes: there is nothing to deliver, the sink
refuses, or the sink accepts.
-/

namespace Vigil.Network

theorem deliver_ok_cases {n n' : Network} {sink : Sink} {e : Escalation}
    (h : n.deliver sink e = (.ok (), n')) :
    (∃ id, sink = .layer id ∧ id < n.layers.size ∧ n' = n.modifyLayer id (·.accept e)) ∨
    ∃ id o, sink = .outlet id ∧ n' = n.setOutlet id o := by
  cases sink with
  | layer id =>
      simp only [deliver] at h
      split at h
      · rename_i hid
        cases h
        exact Or.inl ⟨id, rfl, hid, rfl⟩
      · cases h
  | outlet id =>
      simp only [deliver] at h
      split at h
      · rename_i o _
        rcases haccept : o.accept e with ⟨outcome, o'⟩
        simp only [haccept] at h
        cases h
        exact Or.inr ⟨id, o', rfl, rfl⟩
      · cases h

theorem monitors_deliver {n n' : Network} {sink : Sink} {e : Escalation}
    (h : n.deliver sink e = (.ok (), n')) : n'.monitors = n.monitors := by
  rcases deliver_ok_cases h with ⟨id, -, -, rfl⟩ | ⟨id, o, -, rfl⟩
  · rfl
  · rfl

/-- A refused delivery changes nothing. -/
theorem eq_of_deliver_error {n n' : Network} {sink : Sink} {e : Escalation} {err : MonitorError}
    (h : n.deliver sink e = (.error err, n')) : n' = n := by
  cases sink with
  | layer id =>
      simp only [deliver] at h
      split at h
      · cases h
      · cases h
        rfl
  | outlet id =>
      simp only [deliver] at h
      split at h
      · rename_i o ho
        rcases haccept : o.accept e with ⟨outcome, o'⟩
        simp only [haccept] at h
        cases h
        rw [Outlet.eq_of_accept_error haccept, setOutlet_self ho]
      · cases h
        rfl

/-- Whether a sink refuses, and why, is the matter of layers and outlets alone. -/
theorem fst_deliver_congr {n n' : Network} (hlayers : n'.layers = n.layers)
    (houtlets : n'.outlets = n.outlets) (sink : Sink) (e : Escalation) :
    (n'.deliver sink e).1 = (n.deliver sink e).1 := by
  cases sink with
  | layer id =>
      simp only [deliver, hlayers]
      split <;> rfl
  | outlet id =>
      simp only [deliver, houtlets]
      cases n.outlets[id]? <;> rfl

theorem deliver_eq_error_congr {n n' : Network} (hlayers : n'.layers = n.layers)
    (houtlets : n'.outlets = n.outlets) {sink : Sink} {e : Escalation} {err : MonitorError}
    (h : n'.deliver sink e = (.error err, n')) : n.deliver sink e = (.error err, n) := by
  have hfst : (n.deliver sink e).1 = .error err := by
    rw [← fst_deliver_congr hlayers houtlets, h]
  rcases hdel : n.deliver sink e with ⟨outcome, d⟩
  rw [hdel] at hfst
  cases hfst
  rw [eq_of_deliver_error hdel]

theorem receive?_eq_some {n n' : Network} {outlet : OutletId} {layer : LayerId}
    (h : n.receive? outlet layer = some n') :
    ∃ c e rest, n.outlets[outlet]? = some (.channel c) ∧ c.receive? = some (e, rest) ∧
      n' = (n.setOutlet outlet (.channel rest)).modifyLayer layer (·.accept e) := by
  unfold receive? at h
  split at h
  · rename_i c hc
    obtain ⟨⟨e, rest⟩, hrest, rfl⟩ := Option.map_eq_some_iff.mp h
    exact ⟨c, e, rest, hc, hrest, rfl⟩
  · cases h

theorem closeChannel?_eq_some {n n' : Network} {outlet : OutletId} {wasOpen : Bool}
    (h : n.closeChannel? outlet = some (wasOpen, n')) :
    ∃ c, n.outlets[outlet]? = some (.channel c) ∧ wasOpen = c.isOpen ∧
      n' = n.setOutlet outlet (.channel c.close) := by
  unfold closeChannel? at h
  split at h
  · rename_i c hc
    cases h
    exact ⟨c, hc, rfl, rfl⟩
  · cases h

/-- The network after the monitor under a handle has judged an output. -/
def counted (n : Network) (id : MonitorId) (m : Monitor Sink) (output : Json) : Network :=
  n.setMonitor id (m.observe output).2

@[simp] theorem layers_counted (n : Network) (id : MonitorId) (m : Monitor Sink) (output : Json) :
    (n.counted id m output).layers = n.layers := rfl

@[simp] theorem outlets_counted (n : Network) (id : MonitorId) (m : Monitor Sink)
    (output : Json) : (n.counted id m output).outlets = n.outlets := rfl

variable {n : Network} {id : MonitorId} {m : Monitor Sink}

theorem check?_cases (hm : n.monitors[id]? = some m) (output : Json) :
    ((m.observe output).2.destination? (m.observe output).1 = none ∧
      n.check? id output = some (.ok (m.observe output).1, n.counted id m output)) ∨
    (∃ sink err, m.sink = some sink ∧ (m.observe output).1 ≠ .positive ∧
      n.deliver sink ⟨m.name, (m.observe output).1⟩ = (.error err, n) ∧
      n.check? id output = some (.error err, n.counted id m output)) ∨
    ∃ sink n', m.sink = some sink ∧ (m.observe output).1 ≠ .positive ∧
      (n.counted id m output).deliver sink ⟨m.name, (m.observe output).1⟩ = (.ok (), n') ∧
      n.check? id output =
        some (.ok (m.observe output).1, n'.modifyMonitor id (·.acknowledge)) := by
  cases hdest : (m.observe output).2.destination? (m.observe output).1 with
  | none =>
      left
      refine ⟨rfl, ?_⟩
      simp only [check?, hm, Option.bind_eq_bind, Option.bind_some, hdest]
      rfl
  | some sink =>
      right
      have hboth : (m.observe output).1 ≠ .positive ∧ m.sink = some sink := by
        unfold Monitor.destination? at hdest
        split at hdest
        · cases hdest
        · rename_i hne
          exact ⟨hne, hdest⟩
      rcases hdel : (n.counted id m output).deliver sink ⟨m.name, (m.observe output).1⟩ with
        ⟨outcome, n'⟩
      cases outcome with
      | error err =>
          left
          obtain rfl := eq_of_deliver_error hdel
          refine ⟨sink, err, hboth.2, hboth.1, deliver_eq_error_congr
            (layers_counted n id m output) (outlets_counted n id m output) hdel, ?_⟩
          unfold counted at hdel
          simp only [check?, hm, Option.bind_eq_bind, Option.bind_some, hdest, hdel]
          rfl
      | ok =>
          right
          refine ⟨sink, n', hboth.2, hboth.1, hdel, ?_⟩
          unfold counted at hdel
          simp only [check?, hm, Option.bind_eq_bind, Option.bind_some, hdest, hdel]
          rfl

theorem exists_check? (hm : n.monitors[id]? = some m) (output : Json) :
    ∃ outcome n', n.check? id output = some (outcome, n') := by
  obtain ⟨-, hcheck⟩ | ⟨_, _, -, -, -, hcheck⟩ | ⟨_, _, -, -, -, hcheck⟩ := check?_cases hm output
  · exact ⟨_, _, hcheck⟩
  · exact ⟨_, _, hcheck⟩
  · exact ⟨_, _, hcheck⟩

section Outcomes

variable {n' : Network} {output : Json}

theorem check?_eq_ok (hm : n.monitors[id]? = some m) {value : Ternary}
    (h : n.check? id output = some (.ok value, n')) : value = (m.observe output).1 := by
  obtain ⟨-, hcheck⟩ | ⟨_, _, -, -, -, hcheck⟩ | ⟨_, _, -, -, -, hcheck⟩ := check?_cases hm output
  · cases hcheck.symm.trans h
    rfl
  · cases hcheck.symm.trans h
  · cases hcheck.symm.trans h
    rfl

/-- Only a sink that is given a value other than the best can refuse it. -/
theorem check?_eq_error (hm : n.monitors[id]? = some m) {err : MonitorError}
    (h : n.check? id output = some (.error err, n')) :
    ∃ sink, m.sink = some sink ∧ (m.observe output).1 ≠ .positive ∧
      n.deliver sink ⟨m.name, (m.observe output).1⟩ = (.error err, n) ∧
      n' = n.counted id m output := by
  obtain ⟨-, hcheck⟩ | ⟨sink, _, hsink, hne, hdel, hcheck⟩ | ⟨_, _, -, -, -, hcheck⟩ :=
    check?_cases hm output
  · cases hcheck.symm.trans h
  · cases hcheck.symm.trans h
    exact ⟨sink, hsink, hne, hdel, rfl⟩
  · cases hcheck.symm.trans h

/-- Whatever comes of a check, the monitor has counted it; and some sink has accepted
something and the monitor has counted that as well, or nothing else has happened. -/
theorem eq_counted_or_delivered {outcome : Except MonitorError Ternary}
    (h : n.check? id output = some (outcome, n')) :
    ∃ m, n.monitors[id]? = some m ∧
      (n' = n.counted id m output ∨
        ∃ sink e d, (n.counted id m output).deliver sink e = (.ok (), d) ∧
          n' = d.modifyMonitor id (·.acknowledge)) := by
  cases hm : n.monitors[id]? with
  | none => simp [check?, hm] at h
  | some m =>
      refine ⟨m, rfl, ?_⟩
      obtain ⟨-, hcheck⟩ | ⟨_, _, -, -, -, hcheck⟩ | ⟨sink, d, -, -, hdel, hcheck⟩ :=
        check?_cases hm output
      · cases hcheck.symm.trans h
        exact Or.inl rfl
      · cases hcheck.symm.trans h
        exact Or.inl rfl
      · cases hcheck.symm.trans h
        exact Or.inr ⟨sink, _, d, hdel, rfl⟩

/-- After a check the monitor has counted it, and possibly an escalation. -/
theorem monitor_check? (hm : n.monitors[id]? = some m) {outcome : Except MonitorError Ternary}
    (h : n.check? id output = some (outcome, n')) :
    n'.monitors[id]? = some (m.observe output).2 ∨
      n'.monitors[id]? = some (m.observe output).2.acknowledge := by
  have hcounted : (n.counted id m output).monitors[id]? = some (m.observe output).2 := by
    rw [counted, setMonitor, getElem?_monitors_modifyMonitor, if_pos rfl, hm]
    rfl
  obtain ⟨o, ho, heq⟩ := eq_counted_or_delivered h
  obtain rfl : m = o := Option.some.inj (hm.symm.trans ho)
  rcases heq with rfl | ⟨sink, e, d, hdel, rfl⟩
  · exact Or.inl hcounted
  · right
    rw [getElem?_monitors_modifyMonitor, if_pos rfl, monitors_deliver hdel, hcounted]
    rfl

end Outcomes

end Vigil.Network
