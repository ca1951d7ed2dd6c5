import Mathlib.Data.List.Count
import Mathlib.Data.List.Induction
import Vigil.Proofs.Attention.Ledger

/-!
# What a queue retains

A queue never looks at more than the items it holds: it gives up one of them for
each newcomer.  The items that it retains are nevertheless the best of all that
have arrived, with the newest one beside them.

The induction runs over the arrivals.  What it carries is not the retained list
itself but what the list is good for: whatever arrives later, the best of the
retained and the later items are the best of all past and the later items.
-/

namespace Vigil.Attention

/-- The items outranked by fewer than `k` of their list, in the order of the list. -/
def best (k : Nat) (items : List Item) : List Item :=
  items.filter fun i => items.countP (fun j => j.Outranks i) < k

theorem best_of_length_le {k : Nat} {items : List Item} (h : items.length ≤ k) :
    best k items = items := by
  apply List.filter_eq_self.mpr
  intro i hi
  have hlt : items.countP (fun j => j.Outranks i) < items.length :=
    List.countP_lt_length_iff.mpr ⟨i, hi, by simpa using i.not_outranks_self⟩
  simpa using Nat.lt_of_lt_of_le hlt h

/-- An item that is not among the best can go without a change to the best. -/
theorem best_erase {k : Nat} {items : List Item} {v : Item}
    (h : k ≤ items.countP (fun j => j.Outranks v)) : best k (items.erase v) = best k items := by
  by_cases hv : v ∈ items
  · have hcount (i : Item) : items.countP (fun j => j.Outranks i) =
        (items.erase v).countP (fun j => j.Outranks i) + if v.Outranks i then 1 else 0 := by
      rw [(List.perm_cons_erase hv).countP_eq, List.countP_cons]
      simp only [decide_eq_true_eq]
    have hout : v ∉ best k items := by
      intro hmem
      have hlt := (List.mem_filter.mp hmem).2
      simp only [decide_eq_true_eq] at hlt
      omega
    calc
      best k (items.erase v) =
          (items.erase v).filter fun i => items.countP (fun j => j.Outranks i) < k := by
        apply List.filter_congr
        intro i _
        -- Only the count of an item that `v` outranks changes, and such an item is
        -- outranked by all that outrank `v`.
        by_cases hvi : v.Outranks i
        · have hmono : items.countP (fun j => j.Outranks v) ≤
              (items.erase v).countP (fun j => j.Outranks i) := by
            have hself := hcount v
            rw [if_neg v.not_outranks_self] at hself
            rw [hself]
            apply List.countP_mono_left
            intro j _ hj
            simp only [decide_eq_true_eq] at hj ⊢
            exact hj.trans hvi
          have hi := hcount i
          rw [if_pos hvi] at hi
          rw [decide_eq_decide]
          omega
        · rw [hcount i, if_neg hvi, Nat.add_zero]
      _ = (best k items).erase v := (List.erase_filter).symm
      _ = best k items := List.erase_of_not_mem hout
  · rw [List.erase_of_not_mem hv]

theorem Ascending.nodup {items : List Item} (h : Ascending items) : items.Nodup := by
  apply List.Pairwise.imp _ h
  intro i j hij heq
  rw [heq] at hij
  exact Nat.lt_irrefl _ hij

theorem countP_outranks_victim {items : List Item} (hasc : Ascending items) {v : Item}
    (hv : Queue.victim? items = some v) :
    items.countP (fun j => j.Outranks v) + 1 = items.length := by
  have hmem := Queue.mem_of_victim? hv
  have hall : (items.erase v).countP (fun j => j.Outranks v) = (items.erase v).length := by
    apply List.countP_eq_length.mpr
    intro j hj
    have hjv := (hasc.nodup.mem_erase_iff).mp hj
    simpa using Queue.outranks_victim hasc hv hjv.2 hjv.1
  have hlen := List.length_erase_of_mem hmem
  have hpos := List.length_pos_of_mem hmem
  rw [(List.perm_cons_erase hmem).countP_eq, List.countP_cons_of_neg
    (by simpa using v.not_outranks_self), hall]
  omega

theorem length_best (k : Nat) {items : List Item} (hasc : Ascending items) :
    (best k items).length = min k items.length := by
  obtain ⟨excess, hexcess⟩ : ∃ excess, items.length ≤ k + excess :=
    ⟨items.length, Nat.le_add_left _ _⟩
  induction excess generalizing items with
  | zero =>
      rw [Nat.add_zero] at hexcess
      rw [best_of_length_le hexcess]
      omega
  | succ excess ih =>
      by_cases hle : items.length ≤ k
      · rw [best_of_length_le hle]
        omega
      · have hne : items ≠ [] := by
          intro hnil
          simp [hnil] at hle
        obtain ⟨v, hv⟩ := Queue.exists_victim hne
        have hcount := countP_outranks_victim hasc hv
        have hlen := List.length_erase_of_mem (Queue.mem_of_victim? hv)
        have hrest := ih (hasc.sublist (List.erase_sublist (a := v))) (by omega)
        rw [best_erase (by omega)] at hrest
        rw [hrest]
        omega

theorem ascending_numbered (first : Nat) (es : List Escalation) :
    Ascending (numbered first es) ∧ ∀ i ∈ numbered first es, i.sequence < first + es.length := by
  induction es using List.reverseRecOn with
  | nil => exact ⟨List.Pairwise.nil, by simp⟩
  | append_singleton es e ih =>
      rw [numbered_concat]
      refine ⟨ih.1.concat ih.2, ?_⟩
      rw [List.length_append, List.length_singleton, ← Nat.add_assoc]
      exact lt_succ_of_mem_concat ih.2

namespace Queue

/-- The queue holds its newest item, and of the past all that can still matter. -/
def Retains (q : Queue) (past : List Item) (newest : Item) : Prop :=
  ∃ kept, q.items = kept ++ [newest] ∧
    ∀ later, best (q.capacity - 1) (kept ++ later) = best (q.capacity - 1) (past ++ later)

theorem Retains.push {q : Queue} {past : List Item} {newest : Item}
    (h : q.Retains past newest) (hq : q.Sound) (monitor : String) (value : Ternary) :
    (q.push monitor value).2.Retains (past ++ [newest]) ⟨monitor, value, q.next⟩ := by
  obtain ⟨kept, hitems, hbest⟩ := h
  rcases push_cases hq.positive monitor value with ⟨hroom, hpush⟩ | ⟨v, hfull, hv, hpush⟩
  · rw [hpush]
    refine ⟨kept ++ [newest], ?_, ?_⟩
    · rw [items_append, hitems]
    · intro later
      change best (q.capacity - 1) _ = best (q.capacity - 1) _
      simpa only [List.append_assoc] using hbest ([newest] ++ later)
  · rw [hpush]
    refine ⟨q.items.erase v, rfl, ?_⟩
    intro later
    have hcount : q.capacity - 1 ≤ (q.items ++ later).countP (fun j => j.Outranks v) := by
      have hvictim := countP_outranks_victim hq.ascending hv
      rw [List.countP_append]
      omega
    have herase : q.items.erase v ++ later = (q.items ++ later).erase v :=
      (List.erase_append_left later (mem_of_victim? hv)).symm
    change best (q.capacity - 1) (q.items.erase v ++ later) = _
    rw [herase, best_erase hcount, hitems]
    simpa only [List.append_assoc] using hbest ([newest] ++ later)

theorem Retains.items_eq {q : Queue} {past : List Item} {newest : Item}
    (h : q.Retains past newest) (hq : q.Sound) :
    q.items = best (q.capacity - 1) past ++ [newest] := by
  obtain ⟨kept, hitems, hbest⟩ := h
  have hlen : kept.length ≤ q.capacity - 1 := by
    have hbounded := hq.bounded
    rw [hitems, List.length_append, List.length_singleton] at hbounded
    omega
  have hkept := hbest []
  rw [List.append_nil, List.append_nil, best_of_length_le hlen] at hkept
  rw [hitems, hkept]

section Pushes

variable {q : Queue}

theorem next_run_pushes (q : Queue) (es : List Escalation) :
    (q.run (pushes es)).next = q.next + es.length := by
  rw [next_run, pushed_pushes]

/-- What pushes add is held or has been evicted. -/
theorem length_add_evicted_run_pushes (hcap : 0 < q.capacity) (es : List Escalation) :
    (q.run (pushes es)).items.length + (q.run (pushes es)).evicted =
      q.items.length + q.evicted + es.length := by
  have hcount := length_add_evicted_run hcap (pushes es)
  rwa [clearings_pushes, pushed_pushes] at hcount

theorem retains_run_pushes (hcap : 0 < q.capacity) (hempty : q.items = [])
    (earlier : List Escalation) (last : Escalation) :
    (q.run (pushes (earlier ++ [last]))).Retains (numbered q.next earlier)
      ⟨last.monitor, last.value, q.next + earlier.length⟩ := by
  induction earlier using List.reverseRecOn generalizing last with
  | nil =>
      have hroom : ¬ q.isFull = true := by
        rw [isFull_eq_true_iff, hempty, List.length_nil]
        omega
      refine ⟨[], ?_, fun later => rfl⟩
      change (q.push last.monitor last.value).2.items = _
      simp [push, hroom, hempty]
  | append_singleton es e ih =>
      have hsound : (q.run (pushes (es ++ [e]))).Sound :=
        (Sound.of_items_eq_nil hcap hempty).run _
      have hstep := (ih e).push hsound last.monitor last.value
      rw [next_run_pushes] at hstep
      rw [pushes_concat (es ++ [e]), run_concat, numbered_concat]
      exact hstep

/-- After pushes into an empty queue, it holds the newest item after the best of
the earlier ones, so many as there is room for, and all others are evicted. -/
theorem run_pushes_eq_best (hcap : 0 < q.capacity) (hempty : q.items = [])
    (earlier : List Escalation) (last : Escalation) :
    (q.run (pushes (earlier ++ [last]))).items =
        best (q.capacity - 1) (numbered q.next earlier) ++
          [⟨last.monitor, last.value, q.next + earlier.length⟩] ∧
      (best (q.capacity - 1) (numbered q.next earlier)).length =
        min (q.capacity - 1) earlier.length ∧
      (earlier.length ≤ q.capacity - 1 →
        best (q.capacity - 1) (numbered q.next earlier) = numbered q.next earlier) ∧
      (q.run (pushes (earlier ++ [last]))).evicted =
        q.evicted + (earlier.length + 1 - q.capacity) := by
  have hsound : (q.run (pushes (earlier ++ [last]))).Sound :=
    (Sound.of_items_eq_nil hcap hempty).run _
  have hitems := (retains_run_pushes hcap hempty earlier last).items_eq hsound
  rw [capacity_run] at hitems
  have hlen := length_best (q.capacity - 1) (ascending_numbered q.next earlier).1
  rw [length_numbered] at hlen
  refine ⟨hitems, hlen, ?_, ?_⟩
  · intro hle
    exact best_of_length_le (by rwa [length_numbered])
  · have hcount := length_add_evicted_run_pushes hcap (earlier ++ [last])
    rw [hitems, hempty] at hcount
    simp only [List.length_append, List.length_singleton, List.length_nil] at hcount
    omega

/-- A queue that was cleared before: the neutral items make room for a positive one. -/
theorem run_pushes_into_cleared :
    0 < (⟨3, [], 6, 2⟩ : Queue).capacity ∧ (⟨3, [], 6, 2⟩ : Queue).items = [] ∧
      ((⟨3, [], 6, 2⟩ : Queue).run (pushes [⟨"a", .neutral⟩, ⟨"b", .negative⟩,
        ⟨"a", .negative⟩, ⟨"c", .neutral⟩, ⟨"b", .positive⟩])).items =
          [⟨"b", .negative, 7⟩, ⟨"a", .negative, 8⟩, ⟨"b", .positive, 10⟩] ∧
      ((⟨3, [], 6, 2⟩ : Queue).run (pushes [⟨"a", .neutral⟩, ⟨"b", .negative⟩,
        ⟨"a", .negative⟩, ⟨"c", .neutral⟩, ⟨"b", .positive⟩])).evicted = 4 := by
  have h := run_pushes_eq_best (q := ⟨3, [], 6, 2⟩) (by decide) rfl
    [⟨"a", .neutral⟩, ⟨"b", .negative⟩, ⟨"a", .negative⟩, ⟨"c", .neutral⟩] ⟨"b", .positive⟩
  exact ⟨by decide, rfl, h.1.trans (by decide), h.2.2.2⟩

end Pushes
end Queue
end Vigil.Attention
