import Vigil.Proofs.Network.Faithful
import Vigil.Proofs.Network.Traffic

/-!
# Escalations arrive

A check of a registered monitor comes through, and what is not the best arrives in
the queue of the monitor's layer and in no other.  What has arrived is held there
until it is evicted or cleared, and both are counted.
-/

namespace Vigil.Network

open Attention (pushed)

section Conservation

variable {n : Network} {layer : LayerId}

/-- Operations leave the layers that there are where they are, and bring at most an empty one. -/
theorem layers_of_step {n' : Network} {op : Operation} (hstep : Step n op n') :
    n'.layers.size = n.layers.size ∨
      ∃ capacity, 0 < capacity ∧ n'.layers = n.layers.push { queue := ⟨capacity, [], 0, 0⟩ } := by
  cases hstep with
  | addLayer hnew =>
      obtain ⟨hpos, rfl⟩ := Layer.new_eq_ok_iff.mp hnew
      exact Or.inr ⟨_, hpos, rfl⟩
  | register hregister =>
      obtain ⟨l, m, -, -, -, -, rfl⟩ := register?_eq_ok hregister
      exact Or.inl (size_layers_modifyLayer _ _ _)
  | check hcheck => exact Or.inl (size_layers_check? hcheck)
  | deliver hdeliver => exact Or.inl (size_layers_deliver hdeliver)
  | deregister _ => exact Or.inl (size_layers_modifyLayer _ _ _)
  | clearAttention _ => exact Or.inl (size_layers_modifyLayer _ _ _)
  | resetAttention layer => exact Or.inl (size_layers_modifyLayer _ _ _)
  | receive _ _ => exact Or.inl (size_layers_modifyLayer _ _ _)
  | _ => exact Or.inl rfl

/-- Where there was no layer, there is a new one at most, and its queue is empty. -/
theorem queue?_apply_of_none (h : n.queue? layer = none) (op : Operation) :
    (n.apply op).queue? layer = none ∨
      ∃ capacity, 0 < capacity ∧ (n.apply op).queue? layer = some ⟨capacity, [], 0, 0⟩ := by
  rcases eq_or_step_of_apply rfl with heq | hstep
  · rw [heq]
    exact Or.inl h
  · have hlayer := queue?_eq_none_iff.mp h
    rcases layers_of_step hstep with hsize | ⟨capacity, hpos, hpush⟩
    · left
      rw [queue?_eq_none_iff, hsize]
      exact hlayer
    · unfold queue?
      rw [hpush, Array.getElem?_push]
      split
      · exact Or.inr ⟨capacity, hpos, rfl⟩
      · exact Or.inl h

def Sound (n : Network) : Prop := ∀ layer q, n.queue? layer = some q → q.Sound

theorem sound_empty : empty.Sound := by
  intro layer q h
  cases h

theorem Sound.apply (h : n.Sound) (op : Operation) : (n.apply op).Sound := by
  intro layer q' hq'
  cases hq : n.queue? layer with
  | some q =>
      rw [queue?_apply hq] at hq'
      cases hq'
      exact (h layer q hq).run _
  | none =>
      rcases queue?_apply_of_none hq op with hnone | ⟨capacity, hpos, hsome⟩
      · rw [hnone] at hq'
        cases hq'
      · rw [hsome] at hq'
        cases hq'
        exact .of_items_eq_nil hpos rfl

theorem Sound.run (h : n.Sound) (ops : List Operation) : (n.run ops).Sound := by
  induction ops generalizing n with
  | nil => exact h
  | cons op ops ih =>
      rw [run_cons]
      exact ih (h.apply op)

/-- What a layer's queue has to show for: the items it holds and those it has evicted. -/
def held (n : Network) (layer : LayerId) : Nat :=
  (n.queue? layer).elim 0 fun q => q.items.length + q.evicted

theorem pushed_traffic (n : Network) (layer : LayerId) (op : Operation) :
    pushed (n.traffic layer op) = n.acceptedBy layer op := by
  cases op with
  | clearAttention other name =>
      simp only [traffic]
      split <;> rfl
  | resetAttention other =>
      simp only [traffic]
      split <;> rfl
  | _ => exact Attention.pushed_pushes _

theorem clearings_traffic {q : Attention.Queue} (h : n.queue? layer = some q) (op : Operation) :
    q.clearings (n.traffic layer op) = n.clearedBy layer op := by
  cases op with
  | clearAttention other name =>
      obtain ⟨l, hl, rfl⟩ := Option.map_eq_some_iff.mp h
      simp only [traffic, clearedBy, clearAttention?, hl, Option.bind_eq_bind, Option.bind_some]
      split <;> rfl
  | resetAttention other =>
      simp only [traffic, clearedBy, h]
      split <;> rfl
  | _ => exact q.clearings_pushes _

theorem clearedBy_of_none (h : n.queue? layer = none) (op : Operation) :
    n.clearedBy layer op = 0 := by
  cases op with
  | clearAttention other name =>
      have hnone : n.layers[layer]? = none := Option.map_eq_none_iff.mp h
      simp only [clearedBy, clearAttention?, hnone, Option.bind_eq_bind, Option.bind_none,
        Option.elim_none, ite_self]
  | resetAttention other =>
      simp only [clearedBy, h, Option.elim_none, ite_self]
  | _ => rfl

theorem held_apply (h : n.Sound) (layer : LayerId) (op : Operation) :
    (n.apply op).held layer + n.clearedBy layer op =
      n.held layer + (n.acceptedBy layer op).length := by
  cases hq : n.queue? layer with
  | some q =>
      have hcount := Attention.Queue.length_add_evicted_run (h layer q hq).positive
        (n.traffic layer op)
      rw [pushed_traffic, clearings_traffic hq] at hcount
      simp only [held, queue?_apply hq, hq, Option.elim_some]
      exact hcount
  | none =>
      rw [acceptedBy_of_none hq, clearedBy_of_none hq]
      simp only [held, hq]
      rcases queue?_apply_of_none hq op with hnone | ⟨capacity, -, hsome⟩
      · rw [hnone]
        rfl
      · rw [hsome]
        rfl

/-- Nothing that a layer's sink has accepted is lost without being counted. -/
theorem held_run (h : n.Sound) (layer : LayerId) (ops : List Operation) :
    (n.run ops).held layer + n.cleared layer ops =
      n.held layer + (n.accepted layer ops).length := by
  induction ops generalizing n with
  | nil => rfl
  | cons op ops ih =>
      have hstep := held_apply h layer op
      have hrest := ih (h.apply op)
      rw [run_cons, cleared, accepted, List.length_append]
      omega

end Conservation

section Delivery

variable {n : Network} {layer : LayerId} {name : String} {id : MonitorId}

/-- The sink of a registered monitor does not refuse, and nobody else is told. -/
theorem Faithful.exists_check? (h : n.Faithful) (hlookup : n.lookup? layer name = some id)
    (output : Json) :
    ∃ value q n', n.check? id output = some (.ok value, n') ∧ n.queue? layer = some q ∧
      ∀ other, n'.queue? other =
        if value ≠ .positive ∧ layer = other then some (q.push name value).2
        else n.queue? other := by
  obtain ⟨l, hl, -⟩ := lookup?_eq_some_iff.mp hlookup
  have hq : n.queue? layer = some l.queue := Option.map_eq_some_iff.mpr ⟨l, hl, rfl⟩
  obtain ⟨m, hm, hname, hsink⟩ := binding?_eq_some_iff.mp (h layer name id hlookup)
  obtain ⟨outcome, n', hcheck⟩ := Network.exists_check? hm output
  have hok : outcome = .ok (m.observe output).1 := by
    cases outcome with
    | ok value => rw [check?_eq_ok hm hcheck]
    | error err =>
        -- The layer exists, so it does not refuse.
        obtain ⟨sink, hbound, -, hrefused, -⟩ := check?_eq_error hm hcheck
        obtain rfl : sink = .layer layer := Option.some.inj (hbound.symm.trans hsink)
        have haccepts := (isOk_deliver_layer ⟨m.name, (m.observe output).1⟩).mpr
          (lt_size_of_queue? hq)
        rw [hrefused] at haccepts
        cases haccepts
  rw [hok] at hcheck
  refine ⟨(m.observe output).1, l.queue, n', hcheck, hq, ?_⟩
  intro other
  rw [queue?_check? hm hcheck other, hsink, hname]
  by_cases heq : layer = other
  · subst heq
    simp only [hq, Option.map_some, and_true]
  · simp only [Option.some.injEq, Sink.layer.injEq, heq, and_false, if_false]

end Delivery

/-- Whatever happens in a network, as long as nobody binds or unbinds a registered monitor by
hand: it stands under one name, its own, in one layer, and is bound to that layer.  Its
checks come through, and leave one item in the layer's queue if the value is not the best.
Nothing a layer has accepted is lost without being counted. -/
theorem run_empty_escalates {ops : List Operation} (hpermits : empty.permitsAll ops = true) :
    let n := empty.run ops
    (∀ layer name id, n.lookup? layer name = some id →
      (∃ m, n.monitors[id]? = some m ∧ m.name = name ∧ m.sink = some (.layer layer)) ∧
      (∀ layer' name', n.lookup? layer' name' = some id → layer' = layer ∧ name' = name) ∧
      ∀ output, ∃ value q n', n.check? id output = some (.ok value, n') ∧
        n.queue? layer = some q ∧
        (value = .positive → ∀ other, n'.queue? other = n.queue? other) ∧
        (value ≠ .positive →
          n'.queue? layer = some (q.push name value).2 ∧
          (∃ kept, kept.Sublist q.items ∧ (q.isFull = false → kept = q.items) ∧
            (q.push name value).2.items = kept ++ [⟨name, value, q.next⟩]) ∧
          ∀ other, other ≠ layer → n'.queue? other = n.queue? other)) ∧
    ∀ layer q, n.queue? layer = some q →
      q.items.length + q.evicted + empty.cleared layer ops =
        (empty.accepted layer ops).length := by
  intro n
  have hfaithful : n.Faithful := faithful_empty.run hpermits
  have hsound : n.Sound := sound_empty.run ops
  constructor
  · intro layer name id hlookup
    refine ⟨binding?_eq_some_iff.mp (hfaithful layer name id hlookup), ?_, ?_⟩
    · intro layer' name' hlookup'
      exact hfaithful.lookup?_unique hlookup hlookup'
    · intro output
      obtain ⟨value, q, n', hcheck, hq, hqueues⟩ := hfaithful.exists_check? hlookup output
      refine ⟨value, q, n', hcheck, hq, ?_, ?_⟩
      · intro hpositive other
        rw [hqueues other, if_neg (fun hboth => hboth.1 hpositive)]
      · intro hne
        refine ⟨?_, Attention.Queue.items_push_cases (hsound layer q hq).positive name value, ?_⟩
        · rw [hqueues layer, if_pos ⟨hne, rfl⟩]
        · intro other hother
          rw [hqueues other, if_neg (fun hboth => hother hboth.2.symm)]
  · intro layer q hq
    have hcount := held_run sound_empty layer ops
    have hheld : n.held layer = q.items.length + q.evicted := by
      rw [held, hq, Option.elim_some]
    rw [← hheld]
    exact hcount.trans (Nat.zero_add _)

/-- A monitor moves from one layer to another.  In between it is bound by hand, and the other
layer refuses it until it is unbound again. -/
def handOver : List Operation :=
  [.addLayer 2, .addLayer 1, .addMonitor "m" fun _ => some .borderline, .register 0 0,
    .register 1 0, .check 0 .null, .deregister 0 "m", .check 0 .null, .tryBind 0 (.layer 1),
    .register 1 0, .unbind 0, .register 1 0, .tryBind 0 (.layer 0), .check 0 .null,
    .check 0 .null, .clearAttention 1 "m", .deliver (.layer 1) ⟨"x", .neutral⟩, .check 0 .null]

theorem run_empty_escalates_handOver :
    empty.permitsAll handOver = true ∧
      (∃ m, (empty.run handOver).monitors[0]? = some m ∧ m.name = "m" ∧
        m.sink = some (.layer 1)) ∧
      1 + 2 + empty.cleared 1 handOver = (empty.accepted 1 handOver).length := by
  have hpermits : empty.permitsAll handOver = true := by decide +kernel
  obtain ⟨hregistered, hcounts⟩ := run_empty_escalates hpermits
  have hlookup : (empty.run handOver).lookup? 1 "m" = some 0 := by decide +kernel
  have hqueue : (empty.run handOver).queue? 1 = some ⟨1, [⟨"m", .neutral, 3⟩], 4, 2⟩ := by
    decide +kernel
  exact ⟨hpermits, (hregistered 1 "m" 0 hlookup).1, hcounts 1 _ hqueue⟩

end Vigil.Network
