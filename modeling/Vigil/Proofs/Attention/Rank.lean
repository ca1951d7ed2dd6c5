import Vigil.Attention.Queue

/-!
# The rank of items

The worse of two items outranks the other, and of two equally bad ones the newer
does.  Among items of different numbers this is a strict total order.  A full
queue gives up the item that all others outrank.
-/

namespace Vigil.Attention

/-- Whether an item is kept in preference to another. -/
def Item.Outranks (i j : Item) : Prop :=
  j.severity < i.severity ∨ (j.severity = i.severity ∧ j.sequence < i.sequence)

instance : DecidableRel Item.Outranks := fun i j =>
  inferInstanceAs (Decidable
    (j.severity < i.severity ∨ (j.severity = i.severity ∧ j.sequence < i.sequence)))

/-- The items stand in the order of their numbers. -/
def Ascending (items : List Item) : Prop :=
  items.Pairwise fun i j => i.sequence < j.sequence

namespace Item

theorem not_outranks_self (i : Item) : ¬ i.Outranks i := by
  rintro (h | h)
  · exact Int.lt_irrefl _ h
  · exact Nat.lt_irrefl _ h.2

theorem Outranks.trans {i j k : Item} (hij : i.Outranks j) (hjk : j.Outranks k) :
    i.Outranks k := by
  unfold Outranks at *
  omega

theorem Outranks.asymm {i j : Item} (hij : i.Outranks j) : ¬ j.Outranks i := by
  intro hji
  exact not_outranks_self i (hij.trans hji)

end Item

theorem Ascending.sublist {small large : List Item} (h : Ascending large)
    (hsub : small.Sublist large) : Ascending small :=
  List.Pairwise.sublist hsub h

theorem Ascending.concat {items : List Item} {i : Item} (h : Ascending items)
    (hnew : ∀ j ∈ items, j.sequence < i.sequence) : Ascending (items ++ [i]) := by
  refine List.pairwise_append.mpr ⟨h, List.pairwise_singleton _ _, ?_⟩
  intro j hj k hk
  have hki : k = i := by simpa using hk
  rw [hki]
  exact hnew j hj

theorem lt_succ_of_mem_concat {items : List Item} {i : Item}
    (h : ∀ j ∈ items, j.sequence < i.sequence) :
    ∀ j ∈ items ++ [i], j.sequence < i.sequence + 1 := by
  intro j hj
  rcases List.mem_append.mp hj with hold | hnew
  · exact Nat.lt_succ_of_lt (h j hold)
  · have hji : j = i := by simpa using hnew
    rw [hji]
    exact Nat.lt_succ_self i.sequence

namespace Queue

/-- The item to go first is the oldest of the least severe. -/
theorem victim?_eq_some_iff_append {items : List Item} {v : Item} :
    victim? items = some v ↔ (∀ i ∈ items, v.severity ≤ i.severity) ∧
      ∃ older newer, items = older ++ v :: newer ∧
        ∀ i ∈ older, i.severity ≠ v.severity := by
  constructor
  · intro h
    obtain ⟨s, hs, hfind⟩ := Option.bind_eq_some_iff.mp h
    obtain ⟨hv, older, newer, hsplit, holder⟩ := List.find?_eq_some_iff_append.mp hfind
    have hvs : v.severity = s := by simpa using hv
    subst hvs
    have hmin := (List.min?_eq_some_iff.mp hs).2
    refine ⟨fun i hi => hmin _ (List.mem_map_of_mem hi), older, newer, hsplit, ?_⟩
    intro i hi
    simpa using holder i hi
  · rintro ⟨hmin, older, newer, hsplit, holder⟩
    have hs : leastSeverity? items = some v.severity := by
      refine List.min?_eq_some_iff.mpr ⟨List.mem_map_of_mem (by simp [hsplit]), ?_⟩
      intro s hs
      obtain ⟨i, hi, rfl⟩ := List.mem_map.mp hs
      exact hmin i hi
    have hfind : items.find? (fun i => i.severity == v.severity) = some v := by
      refine List.find?_eq_some_iff_append.mpr ⟨by simp, older, newer, hsplit, ?_⟩
      intro i hi
      simpa using holder i hi
    simp only [victim?, hs, Option.bind_some, hfind]

theorem mem_of_victim? {items : List Item} {v : Item} (h : victim? items = some v) :
    v ∈ items := by
  obtain ⟨_, older, newer, hsplit, _⟩ := victim?_eq_some_iff_append.mp h
  simp [hsplit]

/-- In the order of arrival, the item to go first is outranked by all others. -/
theorem outranks_victim {items : List Item} (hasc : Ascending items) {v : Item}
    (h : victim? items = some v) {i : Item} (hi : i ∈ items) (hne : i ≠ v) :
    i.Outranks v := by
  obtain ⟨hmin, older, newer, hsplit, holder⟩ := victim?_eq_some_iff_append.mp h
  have hle : v.severity ≤ i.severity := hmin i hi
  rw [hsplit] at hi hasc
  rcases List.mem_append.mp hi with hold | hrest
  · have hsev := holder i hold
    exact Or.inl (by omega)
  · have hnewer : i ∈ newer := (List.mem_cons.mp hrest).resolve_left hne
    have hlater := (List.pairwise_cons.mp (List.pairwise_append.mp hasc).2.1).1 i hnewer
    unfold Item.Outranks
    omega

theorem exists_victim {items : List Item} (h : items ≠ []) : ∃ v, victim? items = some v := by
  obtain ⟨s, hs⟩ := Option.isSome_iff_exists.mp
    (List.isSome_min?_of_ne_nil (l := items.map Item.severity) (by simpa using h))
  have hmem := (List.min?_eq_some_iff.mp hs).1
  obtain ⟨i, hi, hsev⟩ := List.mem_map.mp hmem
  have hfound : (items.find? fun i => i.severity == s).isSome := by
    rw [List.find?_isSome]
    exact ⟨i, hi, by simpa using hsev⟩
  obtain ⟨v, hv⟩ := Option.isSome_iff_exists.mp hfound
  exact ⟨v, by simp only [victim?, leastSeverity?, hs, Option.bind_some, hv]⟩

/-- In the order of arrival, an item that all others outrank goes first. -/
theorem victim?_eq_some_of_outranked {items : List Item} (hasc : Ascending items) {v : Item}
    (hv : v ∈ items) (hall : ∀ i ∈ items, i ≠ v → i.Outranks v) :
    victim? items = some v := by
  obtain ⟨w, hw⟩ := exists_victim (List.ne_nil_of_mem hv)
  have hwv : w = v := by
    by_cases heq : w = v
    · exact heq
    · have hup := hall w (mem_of_victim? hw) heq
      have hdown := outranks_victim hasc hw hv (Ne.symm heq)
      exact absurd hdown hup.asymm
  rw [hw, hwv]

end Queue
end Vigil.Attention
