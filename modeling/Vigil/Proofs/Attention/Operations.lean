import Vigil.Monitor.Basic
import Vigil.Proofs.Attention.Rank

/-!
# Runs of a queue

A run applies pushes and clearings in turn.  Every run keeps the queue sound:
no more items than the capacity, in the order of their numbers, all numbers
given out before.
-/

namespace Vigil.Attention

inductive Operation
  | push (monitor : String) (value : Ternary)
  | clearMonitor (monitor : String)
  | clear
deriving DecidableEq, Repr

/-- The pushes of some escalations, in turn. -/
def pushes (es : List Escalation) : List Operation :=
  es.map fun e => .push e.monitor e.value

theorem pushes_concat (es : List Escalation) (e : Escalation) :
    pushes (es ++ [e]) = pushes es ++ [.push e.monitor e.value] := by
  simp [pushes]

/-- The items that escalations become, numbered on from the given number. -/
def numbered (first : Nat) (es : List Escalation) : List Item :=
  (es.zipIdx first).map fun e => ⟨e.1.monitor, e.1.value, e.2⟩

@[simp] theorem numbered_nil (first : Nat) : numbered first [] = [] := rfl

theorem numbered_concat (first : Nat) (es : List Escalation) (e : Escalation) :
    numbered first (es ++ [e]) =
      numbered first es ++ [⟨e.monitor, e.value, first + es.length⟩] := by
  simp [numbered, List.zipIdx_append]

@[simp] theorem length_numbered (first : Nat) (es : List Escalation) :
    (numbered first es).length = es.length := by
  simp [numbered]

namespace Queue

def apply (q : Queue) : Operation → Queue
  | .push monitor value => (q.push monitor value).2
  | .clearMonitor monitor => (q.clearMonitor monitor).2
  | .clear => q.clear

def run (q : Queue) (ops : List Operation) : Queue := ops.foldl apply q

@[simp] theorem run_nil (q : Queue) : q.run [] = q := rfl

theorem run_cons (q : Queue) (op : Operation) (ops : List Operation) :
    q.run (op :: ops) = (q.apply op).run ops := rfl

theorem run_concat (q : Queue) (ops : List Operation) (op : Operation) :
    q.run (ops ++ [op]) = (q.run ops).apply op := by
  simp [run]

theorem capacity_apply (q : Queue) (op : Operation) : (q.apply op).capacity = q.capacity := by
  cases op with
  | push monitor value => exact capacity_push q monitor value
  | clearMonitor monitor => rfl
  | clear => rfl

theorem capacity_run (q : Queue) (ops : List Operation) : (q.run ops).capacity = q.capacity := by
  induction ops generalizing q with
  | nil => rfl
  | cons op ops ih => rw [run_cons, ih, capacity_apply]

/-- What holds of a queue at all times. -/
structure Sound (q : Queue) : Prop where
  positive : 0 < q.capacity
  bounded : q.items.length ≤ q.capacity
  ascending : Ascending q.items
  below : ∀ i ∈ q.items, i.sequence < q.next

theorem Sound.of_items_eq_nil {q : Queue} (hcap : 0 < q.capacity) (h : q.items = []) :
    q.Sound := by
  refine ⟨hcap, ?_, ?_, ?_⟩
  · simp [h]
  · rw [h]
    exact List.Pairwise.nil
  · simp [h]

/-- A push appends to a queue with room, and a full queue first gives up the item
that goes first. -/
theorem push_cases {q : Queue} (hcap : 0 < q.capacity) (monitor : String) (value : Ternary) :
    (q.items.length < q.capacity ∧ q.push monitor value = (none, q.append monitor value)) ∨
    ∃ v, q.capacity ≤ q.items.length ∧ victim? q.items = some v ∧
      q.push monitor value = (some v,
        { q with
          items := q.items.erase v ++ [⟨monitor, value, q.next⟩]
          next := q.next + 1
          evicted := q.evicted + 1 }) := by
  by_cases hfull : q.isFull = true
  · right
    have hlen := q.isFull_eq_true_iff.mp hfull
    have hne : q.items ≠ [] := by
      intro hnil
      simp only [hnil, List.length_nil] at hlen
      omega
    obtain ⟨v, hv⟩ := exists_victim hne
    refine ⟨v, hlen, hv, ?_⟩
    simp only [push, hfull, if_true, evict, hv, append]
  · left
    have hlen : ¬ q.capacity ≤ q.items.length := fun h => hfull (q.isFull_eq_true_iff.mpr h)
    refine ⟨by omega, ?_⟩
    simp only [push, hfull]
    rfl

theorem length_add_evicted_push {q : Queue} (hcap : 0 < q.capacity) (monitor : String)
    (value : Ternary) :
    (q.push monitor value).2.items.length + (q.push monitor value).2.evicted =
      q.items.length + q.evicted + 1 := by
  rcases push_cases hcap monitor value with ⟨_, hpush⟩ | ⟨v, _, hv, hpush⟩
  · rw [hpush, items_append, List.length_append, List.length_singleton]
    simp only [append]
    omega
  · have hlen := List.length_erase_of_mem (mem_of_victim? hv)
    have hpos := List.length_pos_of_mem (mem_of_victim? hv)
    rw [hpush]
    simp only [List.length_append, List.length_singleton]
    omega

namespace Sound

variable {q : Queue}

theorem push (h : q.Sound) (monitor : String) (value : Ternary) :
    (q.push monitor value).2.Sound := by
  rcases push_cases h.positive monitor value with ⟨hroom, hpush⟩ | ⟨v, hfull, hv, hpush⟩
  · rw [hpush]
    refine ⟨h.positive, ?_, h.ascending.concat h.below, lt_succ_of_mem_concat h.below⟩
    change (q.items ++ [_]).length ≤ q.capacity
    rw [List.length_append, List.length_singleton]
    omega
  · rw [hpush]
    have hsub : (q.items.erase v).Sublist q.items := List.erase_sublist
    have hbelow : ∀ i ∈ q.items.erase v, i.sequence < q.next :=
      fun i hi => h.below i (hsub.subset hi)
    refine ⟨h.positive, ?_, (h.ascending.sublist hsub).concat hbelow,
      lt_succ_of_mem_concat hbelow⟩
    have hlen := List.length_erase_of_mem (mem_of_victim? hv)
    have hbounded := h.bounded
    have hcap := h.positive
    simp only [List.length_append, List.length_singleton]
    omega

theorem clearMonitor (h : q.Sound) (monitor : String) : (q.clearMonitor monitor).2.Sound := by
  have hsub : (q.clearMonitor monitor).2.items.Sublist q.items := List.filter_sublist
  refine ⟨h.positive, Nat.le_trans hsub.length_le h.bounded, h.ascending.sublist hsub, ?_⟩
  intro i hi
  exact h.below i (hsub.subset hi)

theorem apply (h : q.Sound) (op : Operation) : (q.apply op).Sound := by
  cases op with
  | push monitor value => exact h.push monitor value
  | clearMonitor monitor => exact h.clearMonitor monitor
  | clear => exact of_items_eq_nil h.positive rfl

theorem run (h : q.Sound) (ops : List Operation) : (q.run ops).Sound := by
  induction ops generalizing q with
  | nil => exact h
  | cons op ops ih =>
      rw [run_cons]
      exact ih (h.apply op)

end Sound

theorem new_eq_ok {capacity : Nat} (h : 0 < capacity) :
    new capacity = .ok ⟨capacity, [], 0, 0⟩ := by
  have hne : capacity ≠ 0 := Nat.ne_of_gt h
  simp only [new, if_neg hne]

end Queue
end Vigil.Attention
