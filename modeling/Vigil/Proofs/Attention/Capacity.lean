import Vigil.Proofs.Attention.Operations

/-!
# Queues of different capacities

Two queues of different capacities go through the same operations.  They evict at
different moments, and clearings leave them with different room.  Still the
smaller one holds nothing that the larger one lacks.

What rules out the opposite is a bound on the difference of their lengths: it
never exceeds the difference of the capacities, so the larger queue evicts only
when the smaller one does.
-/

namespace Vigil.Attention.Queue

/-- The state of two queues that have gone through the same operations. -/
structure Contains (large small : Queue) : Prop where
  sublist : small.items.Sublist large.items
  next : small.next = large.next
  lengths : large.items.length + small.capacity ≤ small.items.length + large.capacity
  evicted : large.evicted ≤ small.evicted

namespace Contains

variable {large small : Queue}

theorem isFull (h : large.Contains small) (hfull : large.isFull = true) :
    small.isFull = true := by
  rw [isFull_eq_true_iff] at hfull ⊢
  have hlen := h.lengths
  omega

/-- What goes first from the larger queue goes first from the smaller one, or is
not held there. -/
theorem erase_sublist_erase (hlarge : large.Sound) (hsmall : small.Sound)
    (hsub : small.items.Sublist large.items) {v w : Item} (hv : victim? large.items = some v)
    (hw : victim? small.items = some w) :
    (small.items.erase w).Sublist (large.items.erase v) := by
  by_cases hmem : v ∈ small.items
  · have hfirst : victim? small.items = some v := by
      apply victim?_eq_some_of_outranked hsmall.ascending hmem
      intro i hi hne
      exact outranks_victim hlarge.ascending hv (hsub.subset hi) hne
    have hvw : w = v := Option.some.inj (hw.symm.trans hfirst)
    rw [hvw]
    exact hsub.erase v
  · have hkeep : (small.items.erase v).Sublist (large.items.erase v) := hsub.erase v
    rw [List.erase_of_not_mem hmem] at hkeep
    exact List.erase_sublist.trans hkeep

theorem push (h : large.Contains small) (hlarge : large.Sound) (hsmall : small.Sound)
    (monitor : String) (value : Ternary) :
    (large.push monitor value).2.Contains (small.push monitor value).2 := by
  have hlen := h.lengths
  have hnext := h.next
  have hevicted := h.evicted
  have hbounded := hsmall.bounded
  rcases push_cases hlarge.positive monitor value with ⟨hroom, hl⟩ | ⟨v, hfull, hv, hl⟩ <;>
    rcases push_cases hsmall.positive monitor value with ⟨hroom', hs⟩ | ⟨w, hfull', hw, hs⟩ <;>
    rw [hl, hs]
  · refine ⟨?_, ?_, ?_, hevicted⟩
    · rw [items_append, items_append, hnext]
      exact h.sublist.append_right _
    · simp only [append, hnext]
    · simp only [append, List.length_append, List.length_singleton]
      omega
  · -- Only the smaller queue is full, and falls behind by one more item.
    have herase := List.length_erase_of_mem (mem_of_victim? hw)
    have hpos := List.length_pos_of_mem (mem_of_victim? hw)
    refine ⟨?_, ?_, ?_, ?_⟩
    · rw [items_append, hnext]
      exact (List.erase_sublist.trans h.sublist).append_right _
    · simp only [append, hnext]
    · simp only [append, List.length_append, List.length_singleton]
      omega
    · simp only [append]
      omega
  · -- The larger queue is not full alone.
    omega
  · have herase := List.length_erase_of_mem (mem_of_victim? hv)
    have herase' := List.length_erase_of_mem (mem_of_victim? hw)
    have hpos := List.length_pos_of_mem (mem_of_victim? hv)
    have hpos' := List.length_pos_of_mem (mem_of_victim? hw)
    refine ⟨?_, ?_, ?_, ?_⟩
    · simp only [hnext]
      exact (erase_sublist_erase hlarge hsmall h.sublist hv hw).append_right _
    · simp only [hnext]
    · simp only [List.length_append, List.length_singleton]
      omega
    · exact Nat.succ_le_succ hevicted

theorem clearMonitor (h : large.Contains small) (monitor : String) :
    (large.clearMonitor monitor).2.Contains (small.clearMonitor monitor).2 := by
  refine ⟨h.sublist.filter _, h.next, ?_, h.evicted⟩
  -- The larger queue loses at least the items that the smaller one loses.
  have hlost := h.sublist.countP_le (p := fun i => ¬ ((i.monitor != monitor) = true))
  have hsmall := List.length_eq_countP_add_countP (fun i => i.monitor != monitor)
    (l := small.items)
  have hlarge := List.length_eq_countP_add_countP (fun i => i.monitor != monitor)
    (l := large.items)
  have hlen := h.lengths
  change (large.items.filter _).length + small.capacity ≤
    (small.items.filter _).length + large.capacity
  rw [← List.countP_eq_length_filter, ← List.countP_eq_length_filter]
  omega

theorem clear (h : large.Contains small) (hcap : small.capacity ≤ large.capacity) :
    large.clear.Contains small.clear := by
  refine ⟨List.Sublist.refl [], h.next, ?_, h.evicted⟩
  change 0 + small.capacity ≤ 0 + large.capacity
  omega

theorem apply (h : large.Contains small) (hlarge : large.Sound) (hsmall : small.Sound)
    (hcap : small.capacity ≤ large.capacity) (op : Operation) :
    (large.apply op).Contains (small.apply op) := by
  cases op with
  | push monitor value => exact h.push hlarge hsmall monitor value
  | clearMonitor monitor => exact h.clearMonitor monitor
  | clear => exact h.clear hcap

theorem run (h : large.Contains small) (hlarge : large.Sound) (hsmall : small.Sound)
    (hcap : small.capacity ≤ large.capacity) (ops : List Operation) :
    (large.run ops).Contains (small.run ops) := by
  induction ops generalizing large small with
  | nil => exact h
  | cons op ops ih =>
      rw [run_cons, run_cons]
      apply ih (h.apply hlarge hsmall hcap op) (hlarge.apply op) (hsmall.apply op)
      rw [capacity_apply, capacity_apply]
      exact hcap

end Contains

/-- More capacity hides no item: at every point of a run from new queues, what the
smaller queue holds stands in the same order in the larger one. -/
theorem run_sublist_run_of_capacity_le {c c' : Nat} (hc : 1 ≤ c) (hle : c ≤ c') :
    ∃ small large, new c = .ok small ∧ new c' = .ok large ∧
      ∀ (ops : List Operation) (count : Nat),
        (small.run (ops.take count)).items.Sublist (large.run (ops.take count)).items ∧
        ((large.run (ops.take count)).isFull = true →
          (small.run (ops.take count)).isFull = true) ∧
        (large.run (ops.take count)).evicted ≤ (small.run (ops.take count)).evicted := by
  refine ⟨⟨c, [], 0, 0⟩, ⟨c', [], 0, 0⟩, new_eq_ok hc, new_eq_ok (Nat.le_trans hc hle), ?_⟩
  intro ops count
  have hstart : Contains ⟨c', [], 0, 0⟩ ⟨c, [], 0, 0⟩ :=
    ⟨List.Sublist.refl [], rfl, by simpa using hle, Nat.le_refl 0⟩
  have h := hstart.run (Sound.of_items_eq_nil (Nat.le_trans hc hle) rfl)
    (Sound.of_items_eq_nil hc rfl) hle (ops.take count)
  exact ⟨h.sublist, h.isFull, h.evicted⟩

/-- A clearing leaves the larger queue with room for one more than the smaller. -/
theorem run_sublist_run_two_three :
    1 ≤ 2 ∧ 2 ≤ 3 ∧
      ((⟨2, [], 0, 0⟩ : Queue).run [.push "a" .negative, .push "b" .neutral,
        .push "c" .neutral, .clearMonitor "a", .push "b" .positive]).items.Sublist
      ((⟨3, [], 0, 0⟩ : Queue).run [.push "a" .negative, .push "b" .neutral,
        .push "c" .neutral, .clearMonitor "a", .push "b" .positive]).items ∧
      ((⟨2, [], 0, 0⟩ : Queue).run [.push "a" .negative, .push "b" .neutral,
        .push "c" .neutral]).isFull = true := by
  have hone : 1 ≤ 2 := by decide
  have htwo : 2 ≤ 3 := by decide
  obtain ⟨small, large, hsmall, hlarge, h⟩ := run_sublist_run_of_capacity_le hone htwo
  cases hsmall
  cases hlarge
  have hend := h [.push "a" .negative, .push "b" .neutral, .push "c" .neutral,
    .clearMonitor "a", .push "b" .positive] 5
  have hthree := h [.push "a" .negative, .push "b" .neutral, .push "c" .neutral] 3
  exact ⟨hone, htwo, hend.1, hthree.2.1 (by decide)⟩

end Vigil.Attention.Queue
