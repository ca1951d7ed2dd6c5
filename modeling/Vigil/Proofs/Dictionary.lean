import Mathlib.Data.List.Nodup
import Mathlib.Data.List.Perm.Basic
import Vigil.Dictionary

/-!
# Dictionaries by their entries

The entries of a dictionary are in one order only, so they are known from what is found
under each name.
-/

namespace Vigil.Dictionary

variable {α : Type} {d e : Dictionary α} {name : String} {a : α}

theorem nodup_names (d : Dictionary α) : d.names.Nodup := by
  apply List.Pairwise.map _ _ d.ascending
  rintro x y hlt heq
  exact String.lt_irrefl x.1 (heq ▸ hlt)

theorem nodup_entries (d : Dictionary α) : d.entries.Nodup :=
  List.Nodup.of_map Prod.fst d.nodup_names

theorem eq_of_perm (h : d.entries.Perm e.entries) : d = e := by
  apply ext
  refine h.eq_of_pairwise ?_ d.ascending e.ascending
  intro x y _ _ hxy hyx
  exact absurd (String.lt_trans hxy hyx) (String.lt_irrefl x.1)

theorem eq_of_find?_eq_some_iff
    (h : ∀ name a, d.find? name = some a ↔ e.find? name = some a) : d = e := by
  apply eq_of_perm
  rw [List.perm_ext_iff_of_nodup d.nodup_entries e.nodup_entries]
  rintro ⟨name, a⟩
  rw [← find?_eq_some_iff_mem, ← find?_eq_some_iff_mem, h]

theorem find?_map {β : Type} (f : α → β) (d : Dictionary α) (name : String) :
    (d.map f).find? name = (d.find? name).map f := by
  simp only [find?, map, List.find?_map, Option.map_map]
  rfl

/-- Under a new name an entry joins the others. -/
theorem entries_insert_perm (h : d.find? name = none) (a : α) :
    (d.insert name a).entries.Perm ((name, a) :: d.entries) := by
  have hfresh : (name, a) ∉ d.entries := by
    rw [← find?_eq_some_iff_mem, h]
    simp
  rw [List.perm_ext_iff_of_nodup (nodup_entries _) (List.nodup_cons.mpr ⟨hfresh, d.nodup_entries⟩)]
  rintro ⟨other, b⟩
  rw [← find?_eq_some_iff_mem, find?_insert, List.mem_cons, ← find?_eq_some_iff_mem]
  by_cases hname : name = other
  · simp [hname ▸ h, hname, eq_comm]
  · simp [hname, Ne.symm hname]

/-- One entry only has a value of a kind. -/
theorem length_filter_eq_one_iff (d : Dictionary α) (p : α → Bool) :
    (d.values.filter p).length = 1 ↔ ∃! name, ∃ a, d.find? name = some a ∧ p a = true := by
  have hmem : ∀ name a, (d.find? name = some a ∧ p a = true) ↔
      (name, a) ∈ d.entries.filter fun e => p e.2 := by
    simp [find?_eq_some_iff_mem]
  have hnodup : ((d.entries.filter fun e => p e.2).map (·.1)).Nodup :=
    d.nodup_names.sublist ((List.filter_sublist (l := d.entries)).map _)
  rw [values, List.filter_map, List.length_map]
  simp only [hmem]
  change (d.entries.filter fun e => p e.2).length = 1 ↔ _
  -- From here on the entries may be any of distinct names.
  generalize d.entries.filter (fun e => p e.2) = es at hnodup
  constructor
  · intro hone
    obtain ⟨e, rfl⟩ := List.length_eq_one_iff.mp hone
    refine ⟨e.1, ⟨e.2, List.mem_cons_self⟩, ?_⟩
    rintro name ⟨a, ha⟩
    exact congrArg Prod.fst (List.mem_singleton.mp ha)
  · rintro ⟨name, ⟨a, ha⟩, hunique⟩
    rcases es with _ | ⟨e, _ | ⟨f, es⟩⟩
    · cases ha
    · rfl
    · have he : e.1 = name := hunique e.1 ⟨e.2, by simp⟩
      have hf : f.1 = name := hunique f.1 ⟨f.2, by simp⟩
      simp [he, hf] at hnodup

end Vigil.Dictionary
