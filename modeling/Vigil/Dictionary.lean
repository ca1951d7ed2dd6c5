/-!
# Dictionaries

A dictionary assigns values to distinct names and lists them by name, in the
order of code points.  The entries determine the dictionary and are determined
by it, so two dictionaries with the same assignments are equal.
-/

namespace Vigil

/-- Entries in strictly ascending order of their names. -/
structure Dictionary (α : Type) where
  entries : List (String × α)
  ascending : entries.Pairwise fun e f => e.1 < f.1

namespace Dictionary

variable {α : Type}

/-- Puts an entry at its place, in exchange for one of the same name. -/
def insertEntry (name : String) (a : α) : List (String × α) → List (String × α)
  | [] => [(name, a)]
  | e :: es =>
    if name < e.1 then (name, a) :: e :: es
    else if e.1 < name then e :: insertEntry name a es
    else (name, a) :: es

theorem mem_insertEntry {name : String} {a : α} {es : List (String × α)}
    {e : String × α} (h : e ∈ insertEntry name a es) : e = (name, a) ∨ e ∈ es := by
  induction es with
  | nil => simpa [insertEntry] using h
  | cons f fs ih =>
      simp only [insertEntry] at h
      split at h
      · simpa using h
      · split at h
        · rcases List.mem_cons.mp h with rfl | h
          · simp
          · rcases ih h with rfl | h <;> simp [*]
        · rcases List.mem_cons.mp h with rfl | h <;> simp [*]

theorem pairwise_insertEntry (name : String) (a : α) {es : List (String × α)}
    (h : es.Pairwise fun e f => e.1 < f.1) :
    (insertEntry name a es).Pairwise fun e f => e.1 < f.1 := by
  induction es with
  | nil => simp [insertEntry]
  | cons f fs ih =>
      obtain ⟨hf, hfs⟩ := List.pairwise_cons.mp h
      simp only [insertEntry]
      split
      · rename_i hlt
        refine List.pairwise_cons.mpr ⟨fun e he => ?_, h⟩
        rcases List.mem_cons.mp he with rfl | he
        · exact hlt
        · exact String.lt_trans hlt (hf e he)
      · split
        · rename_i hlt
          refine List.pairwise_cons.mpr ⟨fun e he => ?_, ih hfs⟩
          rcases mem_insertEntry he with rfl | he
          · exact hlt
          · exact hf e he
        · rename_i h₁ h₂
          have heq : f.1 = name :=
            String.le_antisymm (String.not_lt.mp h₁) (String.not_lt.mp h₂)
          refine List.pairwise_cons.mpr ⟨fun e he => ?_, hfs⟩
          simpa [heq] using hf e he

def empty : Dictionary α := ⟨[], List.Pairwise.nil⟩

instance : Inhabited (Dictionary α) := ⟨empty⟩
instance : EmptyCollection (Dictionary α) := ⟨empty⟩

/-- Assigns a value to a name, whatever was assigned before. -/
def insert (d : Dictionary α) (name : String) (a : α) : Dictionary α :=
  ⟨insertEntry name a d.entries, pairwise_insertEntry name a d.ascending⟩

def erase (d : Dictionary α) (name : String) : Dictionary α :=
  ⟨d.entries.filter fun e => e.1 != name, d.ascending.filter _⟩

def find? (d : Dictionary α) (name : String) : Option α :=
  (d.entries.find? fun e => e.1 == name).map (·.2)

def contains (d : Dictionary α) (name : String) : Bool :=
  (d.find? name).isSome

def size (d : Dictionary α) : Nat := d.entries.length

/-- The names, ascending. -/
def names (d : Dictionary α) : List String := d.entries.map (·.1)

def values (d : Dictionary α) : List α := d.entries.map (·.2)

def map {β : Type} (f : α → β) (d : Dictionary α) : Dictionary β where
  entries := d.entries.map fun e => (e.1, f e.2)
  ascending := List.pairwise_map.mpr d.ascending

@[ext] theorem ext {d e : Dictionary α} (h : d.entries = e.entries) : d = e := by
  cases d
  cases e
  simp_all

@[simp] theorem find?_empty (name : String) : (empty : Dictionary α).find? name = none := rfl

theorem find?_insertEntry (name other : String) (a : α) (es : List (String × α)) :
    ((insertEntry name a es).find? fun e => e.1 == other).map (·.2) =
      if name = other then some a else (es.find? fun e => e.1 == other).map (·.2) := by
  induction es with
  | nil => by_cases h : name = other <;> simp [insertEntry, h]
  | cons f fs ih =>
      simp only [insertEntry]
      split
      · by_cases h : name = other <;> simp [h]
      · split
        · rename_i hlt
          by_cases hf : f.1 = other
          · have hne : name ≠ other := by
              rintro rfl
              exact String.lt_irrefl f.1 (hf ▸ hlt)
            simp [hf, hne]
          · simp [hf, ih]
        · rename_i h₁ h₂
          have heq : f.1 = name :=
            String.le_antisymm (String.not_lt.mp h₁) (String.not_lt.mp h₂)
          by_cases h : name = other <;> simp [heq, h]

theorem find?_insert (d : Dictionary α) (name other : String) (a : α) :
    (d.insert name a).find? other = if name = other then some a else d.find? other :=
  find?_insertEntry name other a d.entries

theorem find?_erase (d : Dictionary α) (name other : String) :
    (d.erase name).find? other = if name = other then none else d.find? other := by
  simp only [find?, erase]
  induction d.entries with
  | nil => simp
  | cons e es ih =>
      by_cases he : e.1 = name
      · by_cases h : name = other
        · simp [he, h]
        · simpa [he, h] using ih
      · by_cases ho : e.1 = other
        · have hne : name ≠ other := fun h => he (ho.trans h.symm)
          simp [ho, hne, Ne.symm hne]
        · simpa [he, ho] using ih

theorem filter_insertEntry (name : String) (a : α) (es : List (String × α)) :
    (insertEntry name a es).filter (fun e => e.1 != name) = es.filter fun e => e.1 != name := by
  induction es with
  | nil => simp [insertEntry]
  | cons e es ih =>
      simp only [insertEntry]
      split
      · simp
      · split
        · simp only [List.filter_cons, ih]
        · rename_i h₁ h₂
          have heq : e.1 = name :=
            String.le_antisymm (String.not_lt.mp h₁) (String.not_lt.mp h₂)
          simp [heq]

theorem erase_insert (d : Dictionary α) (name : String) (a : α) :
    (d.insert name a).erase name = d.erase name :=
  ext (filter_insertEntry name a d.entries)

theorem erase_of_find?_eq_none {d : Dictionary α} {name : String} (h : d.find? name = none) :
    d.erase name = d := by
  apply ext
  rw [find?, Option.map_eq_none_iff, List.find?_eq_none] at h
  exact List.filter_eq_self.mpr fun e he => by simpa [bne] using h e he

theorem find?_eq_some_iff_mem {d : Dictionary α} {name : String} {a : α} :
    d.find? name = some a ↔ (name, a) ∈ d.entries := by
  obtain ⟨entries, ascending⟩ := d
  simp only [find?]
  induction entries with
  | nil => simp
  | cons e es ih =>
      obtain ⟨hfirst, hrest⟩ := List.pairwise_cons.mp ascending
      by_cases heq : e.1 = name
      · have hnot : (name, a) ∉ es := by
          intro hmem
          have hlt : e.1 < name := hfirst (name, a) hmem
          rw [heq] at hlt
          exact String.lt_irrefl name hlt
        simp [heq, hnot, Prod.ext_iff, eq_comm]
      · have hne : (name, a) ≠ e := fun h => heq (congrArg Prod.fst h).symm
        simp [heq, hne, ih hrest]

theorem mem_values_iff {d : Dictionary α} {a : α} :
    a ∈ d.values ↔ ∃ name, d.find? name = some a := by
  simp [values, find?_eq_some_iff_mem]

@[simp] theorem names_map {β : Type} (f : α → β) (d : Dictionary α) :
    (d.map f).names = d.names := by
  simp [map, names]

@[simp] theorem values_map {β : Type} (f : α → β) (d : Dictionary α) :
    (d.map f).values = d.values.map f := by
  simp [map, values]

end Dictionary
end Vigil
