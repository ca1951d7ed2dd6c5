import Vigil.Proofs.Attention.Operations

/-!
# The ledger of a queue

Every item that was ever pushed into a queue is still held, or has been evicted, or
has been cleared, and the three counts add up to the pushes.  Numbers are given out
in turn, whatever is cleared in between.
-/

namespace Vigil.Attention

def Operation.pushed? : Operation → Option Escalation
  | .push monitor value => some ⟨monitor, value⟩
  | _ => none

/-- What the pushes among some operations bring, in turn. -/
def pushed (ops : List Operation) : List Escalation := ops.filterMap Operation.pushed?

theorem pushed_cons (op : Operation) (ops : List Operation) :
    pushed (op :: ops) = pushed [op] ++ pushed ops := by
  cases op <;> rfl

@[simp] theorem pushed_pushes (es : List Escalation) : pushed (pushes es) = es := by
  induction es with
  | nil => rfl
  | cons e es ih =>
      change e :: pushed (pushes es) = e :: es
      rw [ih]

theorem numbered_append (first : Nat) (es es' : List Escalation) :
    numbered first (es ++ es') = numbered first es ++ numbered (first + es.length) es' := by
  simp [numbered, List.zipIdx_append]

namespace Queue

theorem getLast?_items_push (q : Queue) (monitor : String) (value : Ternary) :
    (q.push monitor value).2.items.getLast? = some ⟨monitor, value, q.next⟩ := by
  unfold push
  split <;> simp

/-- The item that an operation brings: the one behind all others after a push. -/
def arrived (q : Queue) : Operation → List Item
  | .push monitor value => (q.push monitor value).2.items.getLast?.toList
  | _ => []

/-- All items that a run brings, in turn, whether or not they stay. -/
def arrivals (q : Queue) : List Operation → List Item
  | [] => []
  | op :: ops => q.arrived op ++ (q.apply op).arrivals ops

def cleared (q : Queue) : Operation → Nat
  | .push _ _ => 0
  | .clearMonitor monitor => (q.clearMonitor monitor).1
  | .clear => q.items.length

def clearings (q : Queue) : List Operation → Nat
  | [] => 0
  | op :: ops => q.cleared op + (q.apply op).clearings ops

@[simp] theorem clearings_pushes (q : Queue) (es : List Escalation) :
    q.clearings (pushes es) = 0 := by
  induction es generalizing q with
  | nil => rfl
  | cons e es ih => exact (Nat.zero_add _).trans (ih _)

theorem arrived_eq_numbered (q : Queue) (op : Operation) :
    q.arrived op = numbered q.next (pushed [op]) := by
  cases op with
  | push monitor value =>
      simp only [arrived, getLast?_items_push]
      rfl
  | clearMonitor monitor => rfl
  | clear => rfl

theorem next_apply (q : Queue) (op : Operation) :
    (q.apply op).next = q.next + (pushed [op]).length := by
  cases op with
  | push monitor value => exact next_push q monitor value
  | clearMonitor monitor => rfl
  | clear => rfl

theorem next_run (q : Queue) (ops : List Operation) :
    (q.run ops).next = q.next + (pushed ops).length := by
  induction ops generalizing q with
  | nil => rfl
  | cons op ops ih =>
      rw [run_cons, ih, next_apply, pushed_cons op ops, List.length_append, Nat.add_assoc]

theorem arrivals_eq_numbered (q : Queue) (ops : List Operation) :
    q.arrivals ops = numbered q.next (pushed ops) := by
  induction ops generalizing q with
  | nil => rfl
  | cons op ops ih =>
      rw [arrivals, ih, arrived_eq_numbered, next_apply, pushed_cons op ops, numbered_append]

theorem length_clearMonitor (q : Queue) (monitor : String) :
    (q.clearMonitor monitor).2.items.length + (q.clearMonitor monitor).1 = q.items.length := by
  have hle : (q.clearMonitor monitor).2.items.length ≤ q.items.length :=
    List.length_filter_le _ q.items
  change _ + (q.items.length - (q.clearMonitor monitor).2.items.length) = _
  omega

theorem length_add_evicted_apply {q : Queue} (hcap : 0 < q.capacity) (op : Operation) :
    (q.apply op).items.length + (q.apply op).evicted + q.cleared op =
      q.items.length + q.evicted + (pushed [op]).length := by
  cases op with
  | push monitor value => exact length_add_evicted_push hcap monitor value
  | clearMonitor monitor =>
      have hlen := length_clearMonitor q monitor
      change (q.clearMonitor monitor).2.items.length + q.evicted + (q.clearMonitor monitor).1 =
        q.items.length + q.evicted + 0
      omega
  | clear =>
      change 0 + q.evicted + q.items.length = q.items.length + q.evicted + 0
      omega

theorem length_add_evicted_run {q : Queue} (hcap : 0 < q.capacity) (ops : List Operation) :
    (q.run ops).items.length + (q.run ops).evicted + q.clearings ops =
      q.items.length + q.evicted + (pushed ops).length := by
  induction ops generalizing q with
  | nil => rfl
  | cons op ops ih =>
      have hstep := length_add_evicted_apply hcap op
      have hrest := ih (q := q.apply op) (by rwa [capacity_apply])
      rw [pushed_cons op ops, List.length_append, run_cons, clearings]
      omega

section Eviction

variable {q : Queue} {monitor : String} {value : Ternary}

theorem isSome_push_iff (hcap : 0 < q.capacity) :
    (q.push monitor value).1.isSome = true ↔ q.isFull = true := by
  rw [isFull_eq_true_iff]
  rcases push_cases hcap monitor value with ⟨hroom, hpush⟩ | ⟨v, hfull, -, hpush⟩
  · have hnot : ¬ q.capacity ≤ q.items.length := by omega
    simp [hpush, hnot]
  · simp [hpush, hfull]

/-- A push puts one item behind all others, and takes at most one of them out. -/
theorem items_push_cases (hcap : 0 < q.capacity) (monitor : String) (value : Ternary) :
    ∃ kept, kept.Sublist q.items ∧ (q.isFull = false → kept = q.items) ∧
      (q.push monitor value).2.items = kept ++ [⟨monitor, value, q.next⟩] := by
  rcases push_cases hcap monitor value with ⟨-, hpush⟩ | ⟨v, hfull, -, hpush⟩
  · refine ⟨q.items, List.Sublist.refl _, fun _ => rfl, ?_⟩
    rw [hpush, items_append]
  · refine ⟨q.items.erase v, List.erase_sublist, ?_, ?_⟩
    · intro hroom
      rw [q.isFull_eq_true_iff.mpr hfull] at hroom
      cases hroom
    · rw [hpush]

theorem items_push_of_none (hcap : 0 < q.capacity) (h : (q.push monitor value).1 = none) :
    (q.push monitor value).2.items = q.items ++ [⟨monitor, value, q.next⟩] := by
  obtain ⟨kept, -, hkept, hitems⟩ := items_push_cases hcap monitor value
  have hroom : q.isFull = false := by
    rw [← Bool.not_eq_true, ← isSome_push_iff hcap, h]
    exact Bool.false_ne_true
  rw [hitems, hkept hroom]

/-- What a push gives up is the oldest of the least severe items, and it takes its place
from nobody else. -/
theorem push_gives_up (h : q.Sound) {v : Item} (hv : (q.push monitor value).1 = some v) :
    ∃ older newer, q.items = older ++ v :: newer ∧
      (q.push monitor value).2.items = older ++ newer ++ [⟨monitor, value, q.next⟩] ∧
      (∀ i ∈ q.items, v.severity ≤ i.severity) ∧
      ∀ i ∈ q.items, i.severity = v.severity → v.sequence ≤ i.sequence := by
  rcases push_cases h.positive monitor value with ⟨-, hpush⟩ | ⟨w, -, hw, hpush⟩
  · rw [hpush] at hv
    cases hv
  · have hwv : w = v := by
      rw [hpush] at hv
      exact Option.some.inj hv
    subst hwv
    obtain ⟨hleast, older, newer, hsplit, hbefore⟩ := victim?_eq_some_iff_append.mp hw
    have hnot : w ∉ older := fun hmem => hbefore w hmem rfl
    have herase : q.items.erase w = older ++ newer := by
      rw [hsplit, List.erase_append_right _ hnot, List.erase_cons_head]
    refine ⟨older, newer, hsplit, ?_, hleast, ?_⟩
    · rw [hpush, herase]
    · intro i hi hsev
      by_cases heq : i = w
      · exact Nat.le_of_eq (congrArg Item.sequence heq.symm)
      · have hrank := outranks_victim h.ascending hw hi heq
        unfold Item.Outranks at hrank
        omega

end Eviction

theorem mem_clearMonitor {q : Queue} {monitor : String} {i : Item} :
    i ∈ (q.clearMonitor monitor).2.items ↔ i ∈ q.items ∧ i.monitor ≠ monitor := by
  simp [List.mem_filter]

/-- Whatever happens to a new queue: it stays within its capacity and in the order of
its numbers, the `k`-th push carries the number `k`, every item is accounted for, and
an operation takes out of the queue what it says and nothing else. -/
theorem run_new_accounts {c : Nat} (hc : 1 ≤ c) :
    ∃ start, new c = .ok start ∧ ∀ ops : List Operation,
      let q := start.run ops
      let count := (pushed ops).length
      q.items.length ≤ c ∧ Ascending q.items ∧ (∀ i ∈ q.items, i.sequence < count) ∧
      start.arrivals ops = numbered 0 (pushed ops) ∧
      count = q.items.length + q.evicted + start.clearings ops ∧
      (∀ (monitor : String) (value : Ternary),
        ((q.push monitor value).1.isSome = true ↔ q.isFull = true) ∧
        ((q.push monitor value).1 = none →
          (q.push monitor value).2.items = q.items ++ [⟨monitor, value, count⟩]) ∧
        ∀ v, (q.push monitor value).1 = some v → ∃ older newer,
          q.items = older ++ v :: newer ∧
          (q.push monitor value).2.items = older ++ newer ++ [⟨monitor, value, count⟩] ∧
          (∀ i ∈ q.items, v.severity ≤ i.severity) ∧
          ∀ i ∈ q.items, i.severity = v.severity → v.sequence ≤ i.sequence) ∧
      ∀ monitor : String,
        (q.clearMonitor monitor).2.items.Sublist q.items ∧
        (q.clearMonitor monitor).1 + (q.clearMonitor monitor).2.items.length = q.items.length ∧
        ∀ i, i ∈ (q.clearMonitor monitor).2.items ↔ i ∈ q.items ∧ i.monitor ≠ monitor := by
  refine ⟨⟨c, [], 0, 0⟩, new_eq_ok hc, ?_⟩
  intro ops q count
  have hstart : Sound ⟨c, [], 0, 0⟩ := Sound.of_items_eq_nil hc rfl
  have hsound : q.Sound := hstart.run ops
  have hcapacity : q.capacity = c := capacity_run _ ops
  have hnext : q.next = count := by
    have hrun := next_run ⟨c, [], 0, 0⟩ ops
    rwa [Nat.zero_add] at hrun
  have hcount := length_add_evicted_run (q := ⟨c, [], 0, 0⟩) hc ops
  refine ⟨?_, hsound.ascending, ?_, arrivals_eq_numbered _ ops, ?_, ?_, ?_⟩
  · rw [← hcapacity]
    exact hsound.bounded
  · rw [← hnext]
    exact hsound.below
  · rw [hcount]
    exact (Nat.zero_add count).symm
  · intro monitor value
    rw [← hnext]
    exact ⟨isSome_push_iff hsound.positive, items_push_of_none hsound.positive,
      fun v hv => push_gives_up hsound hv⟩
  · intro monitor
    refine ⟨List.filter_sublist, ?_, fun i => mem_clearMonitor⟩
    rw [Nat.add_comm]
    exact length_clearMonitor q monitor

/-- A run that evicts once, clears twice, and goes on counting. -/
theorem run_new_accounts_two :
    1 ≤ 2 ∧ ∃ start, new 2 = .ok start ∧
      start.arrivals [.push "a" .negative, .push "b" .neutral, .push "c" .neutral,
        .clearMonitor "a", .clear, .push "b" .positive] =
          [⟨"a", .negative, 0⟩, ⟨"b", .neutral, 1⟩, ⟨"c", .neutral, 2⟩, ⟨"b", .positive, 3⟩] ∧
      4 = 1 + 1 + start.clearings [.push "a" .negative, .push "b" .neutral,
        .push "c" .neutral, .clearMonitor "a", .clear, .push "b" .positive] := by
  have hone : 1 ≤ 2 := by decide
  obtain ⟨start, hnew, hrun⟩ := run_new_accounts hone
  cases hnew
  obtain ⟨-, -, -, harrivals, hcount, -, -⟩ := hrun [.push "a" .negative, .push "b" .neutral,
    .push "c" .neutral, .clearMonitor "a", .clear, .push "b" .positive]
  exact ⟨hone, _, rfl, harrivals, hcount⟩

end Queue
end Vigil.Attention
