import Vigil.Choice.Moral
import Vigil.Proofs.Choice.Scores
import Vigil.Proofs.Dictionary

/-!
# Weights of dimensions

A list of weights is refused for the first of them that does not count, also where a later
one would replace it.  Otherwise the last weight of every dimension stands, and the order
of the list leaves no trace: the same last weights are the same state.
-/

namespace Vigil.MoralState

variable {α : Type}

/-- The weight of a dimension that no later one replaces. -/
def LastWeight (pairs : List (String × α)) (dimension : String) (w : α) : Prop :=
  ∃ before after, pairs = before ++ (dimension, w) :: after ∧ ∀ p ∈ after, p.1 ≠ dimension

theorem LastWeight.mem {pairs : List (String × α)} {dimension : String} {w : α}
    (h : LastWeight pairs dimension w) : (dimension, w) ∈ pairs := by
  obtain ⟨before, after, rfl, -⟩ := h
  exact List.mem_append_right _ List.mem_cons_self

@[simp] theorem not_lastWeight_nil (dimension : String) (w : α) :
    ¬ LastWeight [] dimension w := fun h => List.not_mem_nil h.mem

theorem lastWeight_cons_iff (p : String × α) (pairs : List (String × α)) (dimension : String)
    (w : α) : LastWeight (p :: pairs) dimension w ↔
      LastWeight pairs dimension w ∨ (p = (dimension, w) ∧ ∀ q ∈ pairs, q.1 ≠ dimension) := by
  constructor
  · rintro ⟨before, after, heq, hafter⟩
    cases before with
    | nil =>
        obtain ⟨rfl, rfl⟩ := List.cons.inj heq
        exact Or.inr ⟨rfl, hafter⟩
    | cons first before =>
        obtain ⟨rfl, rfl⟩ := List.cons.inj heq
        exact Or.inl ⟨before, after, rfl, hafter⟩
  · rintro (⟨before, after, rfl, hafter⟩ | ⟨rfl, hafter⟩)
    · exact ⟨p :: before, after, rfl, hafter⟩
    · exact ⟨[], pairs, rfl, hafter⟩

/-- If no dimension occurs twice then every weight is the last one of its dimension. -/
theorem lastWeight_iff_mem {pairs : List (String × α)} (h : (pairs.map (·.1)).Nodup)
    (dimension : String) (w : α) : LastWeight pairs dimension w ↔ (dimension, w) ∈ pairs := by
  refine ⟨LastWeight.mem, fun hmem => ?_⟩
  obtain ⟨before, after, rfl⟩ := List.append_of_mem hmem
  refine ⟨before, after, rfl, fun p hp heq => ?_⟩
  rw [List.map_append, List.map_cons] at h
  have honce : dimension ∉ after.map (·.1) :=
    (List.nodup_cons.mp (List.nodup_append.mp h).2.1).1
  have htwice : p.1 ∈ after.map (·.1) := List.mem_map_of_mem hp
  exact honce (heq ▸ htwice)

variable [Scalar α]

/-- A finite number that is not negative. -/
def IsWeight (w : α) : Prop := Scalar.isFinite w = true ∧ ¬ w < Scalar.zero

theorem isWeight_eq_true_iff (w : α) : isWeight w = true ↔ IsWeight w := by
  simp [isWeight, IsWeight]

theorem addWeights_cons_of_pos {p : String × α} (h : IsWeight p.2) (state : Dictionary α)
    (pairs : List (String × α)) :
    addWeights state (p :: pairs) = addWeights (state.insert p.1 p.2) pairs := by
  rw [addWeights, if_pos ((isWeight_eq_true_iff p.2).mpr h)]

theorem addWeights_cons_of_neg {p : String × α} (h : ¬ IsWeight p.2) (state : Dictionary α)
    (pairs : List (String × α)) :
    addWeights state (p :: pairs) = .error (.moralWeight p.1 p.2) := by
  rw [addWeights, if_neg (mt (isWeight_eq_true_iff p.2).mp h)]

theorem addWeights_of_invalid {before : List (String × α)} (hbefore : ∀ p ∈ before, IsWeight p.2)
    {p : String × α} (h : ¬ IsWeight p.2) (after : List (String × α)) (state : Dictionary α) :
    addWeights state (before ++ p :: after) = .error (.moralWeight p.1 p.2) := by
  induction before generalizing state with
  | nil => exact addWeights_cons_of_neg h state after
  | cons q before ih =>
      obtain ⟨hq, hbefore⟩ := List.forall_mem_cons.mp hbefore
      rw [List.cons_append, addWeights_cons_of_pos hq, ih hbefore]

/-- Each name has the last weight that was added under it, or the one it had before. -/
theorem addWeights_of_valid {pairs : List (String × α)} (h : ∀ p ∈ pairs, IsWeight p.2)
    (state : Dictionary α) : ∃ d, addWeights state pairs = .ok d ∧
      ∀ dimension w, d.find? dimension = some w ↔ LastWeight pairs dimension w ∨
        (state.find? dimension = some w ∧ ∀ p ∈ pairs, p.1 ≠ dimension) := by
  induction pairs generalizing state with
  | nil => exact ⟨state, rfl, by simp⟩
  | cons p pairs ih =>
      obtain ⟨hp, hpairs⟩ := List.forall_mem_cons.mp h
      obtain ⟨d, hd, hfind⟩ := ih hpairs (state.insert p.1 p.2)
      rw [addWeights_cons_of_pos hp]
      refine ⟨d, hd, fun dimension w => ?_⟩
      rw [hfind, lastWeight_cons_iff, Dictionary.find?_insert, List.forall_mem_cons]
      by_cases hname : p.1 = dimension
      · simp [hname, Prod.ext_iff]
      · simp [hname, Prod.ext_iff]

theorem valid_or_first_invalid (pairs : List (String × α)) :
    (∀ p ∈ pairs, IsWeight p.2) ∨ ∃ before p after, pairs = before ++ p :: after ∧
      (∀ q ∈ before, IsWeight q.2) ∧ ¬ IsWeight p.2 := by
  cases hfind : pairs.find? fun p => !isWeight p.2 with
  | none =>
      left
      simpa [isWeight_eq_true_iff] using hfind
  | some p =>
      obtain ⟨hp, before, after, heq, hbefore⟩ := List.find?_eq_some_iff_append.mp hfind
      refine Or.inr ⟨before, p, after, heq, fun q hq => ?_, ?_⟩
      · simpa [isWeight_eq_true_iff] using hbefore q hq
      · simpa [← isWeight_eq_true_iff] using hp

theorem ofWeights_of_invalid {before : List (String × α)} (hbefore : ∀ p ∈ before, IsWeight p.2)
    {p : String × α} (h : ¬ IsWeight p.2) (after : List (String × α)) :
    ofWeights (before ++ p :: after) = .error (.moralWeight p.1 p.2) := by
  rw [ofWeights, addWeights_of_invalid hbefore h]
  rfl

theorem ofWeights_of_valid {pairs : List (String × α)} (h : ∀ p ∈ pairs, IsWeight p.2) :
    ∃ m, ofWeights pairs = .ok m ∧
      ∀ dimension w, m.weights.find? dimension = some w ↔ LastWeight pairs dimension w := by
  obtain ⟨d, hd, hfind⟩ := addWeights_of_valid h .empty
  refine ⟨⟨d⟩, ?_, fun dimension w => ?_⟩
  · rw [ofWeights, hd]
    rfl
  · simpa using hfind dimension w

theorem ofWeights_eq_error_iff {pairs : List (String × α)} {e : ChoiceError α} :
    ofWeights pairs = .error e ↔ ∃ before dimension w after,
      pairs = before ++ (dimension, w) :: after ∧ (∀ p ∈ before, IsWeight p.2) ∧
      ¬ IsWeight w ∧ e = .moralWeight dimension w := by
  constructor
  · intro h
    rcases valid_or_first_invalid pairs with hvalid | ⟨before, p, after, rfl, hbefore, hp⟩
    · obtain ⟨m, hm, -⟩ := ofWeights_of_valid hvalid
      rw [hm] at h
      cases h
    · rw [ofWeights_of_invalid hbefore hp] at h
      exact ⟨before, p.1, p.2, after, rfl, hbefore, hp, (Except.error.inj h).symm⟩
  · rintro ⟨before, dimension, w, after, rfl, hbefore, hw, rfl⟩
    exact ofWeights_of_invalid hbefore hw after

theorem ofWeights_eq_ok_iff {pairs : List (String × α)} {m : MoralState α} :
    ofWeights pairs = .ok m ↔ (∀ p ∈ pairs, IsWeight p.2) ∧
      ∀ dimension w, m.weights.find? dimension = some w ↔ LastWeight pairs dimension w := by
  constructor
  · intro h
    rcases valid_or_first_invalid pairs with hvalid | ⟨before, p, after, rfl, hbefore, hp⟩
    · obtain ⟨m', hm', hfind⟩ := ofWeights_of_valid hvalid
      obtain rfl : m' = m := Except.ok.inj (hm'.symm.trans h)
      exact ⟨hvalid, hfind⟩
    · rw [ofWeights_of_invalid hbefore hp] at h
      cases h
  · rintro ⟨hvalid, hfind⟩
    obtain ⟨m', hm', hfind'⟩ := ofWeights_of_valid hvalid
    have hsame : m'.weights = m.weights :=
      Dictionary.eq_of_find?_eq_some_iff fun name w => (hfind' name w).trans (hfind name w).symm
    rw [hm']
    cases m
    cases m'
    cases hsame
    rfl

/-- All weights of the state count, as they do for every list that is accepted. -/
def IsValid (m : MoralState α) : Prop := ∀ w ∈ m.weights.values, IsWeight w

theorem isValid_of_ofWeights {pairs : List (String × α)} {m : MoralState α}
    (h : ofWeights pairs = .ok m) : m.IsValid := by
  obtain ⟨hvalid, hfind⟩ := ofWeights_eq_ok_iff.mp h
  intro w hw
  obtain ⟨dimension, hdimension⟩ := Dictionary.mem_values_iff.mp hw
  exact hvalid (dimension, w) ((hfind dimension w).mp hdimension).mem

/-- If no dimension occurs twice then the state has the weights of the list and no others. -/
theorem entries_perm_of_nodup {pairs : List (String × α)} (hnodup : (pairs.map (·.1)).Nodup)
    {m : MoralState α} (h : ofWeights pairs = .ok m) : m.weights.entries.Perm pairs := by
  rw [List.perm_ext_iff_of_nodup m.weights.nodup_entries (List.Nodup.of_map _ hnodup)]
  rintro ⟨dimension, w⟩
  rw [← Dictionary.find?_eq_some_iff_mem, (ofWeights_eq_ok_iff.mp h).2,
    lastWeight_iff_mem hnodup]

theorem ofWeights_of_entries_perm {pairs : List (String × α)} {m : MoralState α} (h : m.IsValid)
    (hperm : pairs.Perm m.weights.entries) : ofWeights pairs = .ok m := by
  have hnodup : (pairs.map (·.1)).Nodup := (hperm.map _).nodup_iff.mpr m.weights.nodup_names
  refine ofWeights_eq_ok_iff.mpr ⟨fun p hp => ?_, fun dimension w => ?_⟩
  · exact h p.2 (List.mem_map_of_mem (hperm.mem_iff.mp hp))
  · rw [lastWeight_iff_mem hnodup, Dictionary.find?_eq_some_iff_mem, hperm.mem_iff]

theorem eq_of_lastWeight_iff {pairs others : List (String × α)} {m m' : MoralState α}
    (h : ofWeights pairs = .ok m) (h' : ofWeights others = .ok m')
    (hsame : ∀ dimension w, LastWeight others dimension w ↔ LastWeight pairs dimension w) :
    m' = m := by
  obtain ⟨hvalid, hfind'⟩ := ofWeights_eq_ok_iff.mp h'
  have heq : ofWeights others = .ok m :=
    ofWeights_eq_ok_iff.mpr ⟨hvalid, fun dimension w =>
      ((ofWeights_eq_ok_iff.mp h).2 dimension w).trans (hsame dimension w).symm⟩
  exact Except.ok.inj (h'.symm.trans heq)

/-- A list of weights is refused if and only if one of them does not count, and then the
first of these is reported.  A state that is built has the last weight of every dimension
in the list, and nothing else.  So lists with the same last weights give the same state,
whose entropy is that of every evaluation, and so does a list in which no dimension occurs
twice, in any order, and the state's own list. -/
theorem ofWeights_keeps_last (pairs : List (String × α)) :
    (∀ e, ofWeights pairs = .error e ↔ ∃ before dimension w after,
      pairs = before ++ (dimension, w) :: after ∧ (∀ p ∈ before, IsWeight p.2) ∧
      ¬ IsWeight w ∧ e = .moralWeight dimension w) ∧
    ((∃ e, ofWeights pairs = .error e) ↔ ∃ p ∈ pairs, ¬ IsWeight p.2) ∧
    (∀ m, ofWeights pairs = .ok m ↔ (∀ p ∈ pairs, IsWeight p.2) ∧
      ∀ dimension w, m.weights.find? dimension = some w ↔ LastWeight pairs dimension w) ∧
    (∀ m, ofWeights pairs = .ok m →
      (∀ others m', ofWeights others = .ok m' →
        (∀ dimension w, LastWeight others dimension w ↔ LastWeight pairs dimension w) →
          m' = m ∧ ∀ {A : Type} (c : Constraint α) (actions : List A)
            (score : A → Except String α) (viable : A → Except String Bool) (r : Evaluation α),
              (c.evaluate m' actions score viable).outcome = .ok r →
                r.moralEntropy = m.entropy) ∧
      (∀ others : List (String × α), (pairs.map (·.1)).Nodup → others.Perm pairs →
        ofWeights others = .ok m) ∧
      ofWeights m.weights.entries = .ok m) := by
  refine ⟨fun e => ofWeights_eq_error_iff, ?_, fun m => ofWeights_eq_ok_iff, fun m hm => ?_⟩
  · constructor
    · rintro ⟨e, he⟩
      obtain ⟨before, dimension, w, after, rfl, -, hw, -⟩ := ofWeights_eq_error_iff.mp he
      exact ⟨(dimension, w), by simp, hw⟩
    · rintro ⟨p, hp, hinvalid⟩
      cases hbuilt : ofWeights pairs with
      | error e => exact ⟨e, rfl⟩
      | ok m => exact absurd ((ofWeights_eq_ok_iff.mp hbuilt).1 p hp) hinvalid
  · have hvalid : m.IsValid := isValid_of_ofWeights hm
    refine ⟨fun others m' hm' hsame => ?_, fun others hnodup hperm => ?_, ?_⟩
    · obtain rfl := eq_of_lastWeight_iff hm hm' hsame
      exact ⟨rfl, fun c actions score viable r hr => Constraint.moralEntropy_of_ok hr⟩
    · exact ofWeights_of_entries_perm hvalid
        (hperm.trans (entries_perm_of_nodup hnodup hm).symm)
    · exact ofWeights_of_entries_perm hvalid (List.Perm.refl _)

/-- A weight that does not count is reported though a later one replaces it.  The state of
two dimensions does not depend on their order. -/
theorem ofWeights_keeps_last_replaced :
    ofWeights [("care", 0.5), ("care", -0.25), ("care", (1.0 : Float))] =
      .error (.moralWeight "care" (-0.25)) ∧
    ∃ m, ofWeights [("care", 0.5), ("autonomy", (0.25 : Float))] = .ok m ∧
      ofWeights [("autonomy", 0.25), ("care", 0.5)] = .ok m ∧
      ofWeights m.weights.entries = .ok m := by
  have hhalf : IsWeight (0.5 : Float) := (isWeight_eq_true_iff _).mp (by decide +kernel)
  have hquarter : IsWeight (0.25 : Float) := (isWeight_eq_true_iff _).mp (by decide +kernel)
  have hnegative : ¬ IsWeight (-0.25 : Float) :=
    mt (isWeight_eq_true_iff _).mpr (by decide +kernel)
  have hvalid : ∀ p ∈ [("care", 0.5), ("autonomy", (0.25 : Float))], IsWeight p.2 := by
    simp [hhalf, hquarter]
  obtain ⟨m, hm, -⟩ := ofWeights_of_valid hvalid
  obtain ⟨-, horder, hentries⟩ := (ofWeights_keeps_last _).2.2.2 m hm
  refine ⟨((ofWeights_keeps_last _).1 _).mpr ⟨[("care", 0.5)], "care", -0.25, [("care", 1.0)],
    rfl, ?_, hnegative, rfl⟩, m, hm, horder _ (by decide) (List.Perm.swap _ _ []), hentries⟩
  simp [hhalf]

end Vigil.MoralState
