import Vigil.Ternary.Kleene

/-!
# Judgments on a sequence

The conjunction of a sequence is the greatest judgment below all its members, and the
disjunction the least one above them.  So neither depends on more than which judgments
occur.  Every judgment is below all members of the empty sequence, and above them, so
here the conjunction is the greatest of all judgments and the disjunction the least.
-/

namespace Vigil.Ternary

variable {u v w : Ternary} {vs ws : List Ternary}

theorem neutral_le_iff : neutral ≤ v ↔ v ≠ negative := by
  cases v <;> decide

theorem positive_le_iff : positive ≤ v ↔ v = positive := by
  cases v <;> decide

theorem le_and_iff : u ≤ v.and w ↔ u ≤ v ∧ u ≤ w := by
  cases u <;> cases v <;> cases w <;> decide

theorem not_le_not_iff : v.not ≤ w.not ↔ w ≤ v := by
  rw [le_iff_toInt_le, le_iff_toInt_le, toInt_not, toInt_not]
  omega

theorem not_le_iff : v.not ≤ w ↔ w.not ≤ v := by
  rw [← not_le_not_iff, not_not]

/-! ## Conjunction -/

theorem foldl_and (v : Ternary) (vs : List Ternary) : vs.foldl and v = v.and (conj vs) := by
  induction vs generalizing v with
  | nil => exact (and_positive v).symm
  | cons w ws ih =>
      have hrest : conj (w :: ws) = w.and (conj ws) := by
        rw [conj, List.foldl_cons, positive_and, ih]
      rw [List.foldl_cons, ih, hrest, and_assoc]

theorem conj_cons (v : Ternary) (vs : List Ternary) : conj (v :: vs) = v.and (conj vs) := by
  rw [conj, List.foldl_cons, positive_and, foldl_and]

theorem conj_append (vs ws : List Ternary) : conj (vs ++ ws) = (conj vs).and (conj ws) := by
  rw [conj, List.foldl_append, foldl_and]
  rfl

/-- The conjunction is the greatest judgment below all members. -/
theorem le_conj_iff : u ≤ conj vs ↔ ∀ v ∈ vs, u ≤ v := by
  induction vs with
  | nil => simp [le_positive]
  | cons v vs ih => rw [conj_cons, le_and_iff, ih, List.forall_mem_cons]

theorem conj_le (h : v ∈ vs) : conj vs ≤ v :=
  le_conj_iff.mp (le_refl _) v h

theorem conj_eq_positive_iff : conj vs = positive ↔ ∀ v ∈ vs, v = positive := by
  rw [← positive_le_iff, le_conj_iff]
  simp only [positive_le_iff]

theorem conj_eq_negative_iff : conj vs = negative ↔ negative ∈ vs := by
  by_cases hmem : negative ∈ vs
  · exact iff_of_true (le_antisymm (conj_le hmem) (negative_le _)) hmem
  · have hall : ∀ v ∈ vs, neutral ≤ v := by
      intro v hv
      refine neutral_le_iff.mpr ?_
      rintro rfl
      exact hmem hv
    exact iff_of_false (neutral_le_iff.mp (le_conj_iff.mpr hall)) hmem

/-- Only what occurs counts, not how often or in which order. -/
theorem conj_congr (h : ∀ v, v ∈ vs ↔ v ∈ ws) : conj vs = conj ws := by
  apply le_antisymm
  · exact le_conj_iff.mpr fun v hv => conj_le ((h v).mpr hv)
  · exact le_conj_iff.mpr fun v hv => conj_le ((h v).mp hv)

/-! ## Disjunction -/

theorem foldl_or (v : Ternary) (vs : List Ternary) :
    vs.foldl or v = ((vs.map not).foldl and v.not).not := by
  induction vs generalizing v with
  | nil => exact (not_not v).symm
  | cons w ws ih =>
      have hstep : (v.or w).not = v.not.and w.not := by
        rw [← not_not (v.not.and w.not), not_and, not_not, not_not]
      rw [List.foldl_cons, ih, hstep, List.map_cons, List.foldl_cons]

theorem disj_eq_not_conj_not (vs : List Ternary) : disj vs = (conj (vs.map not)).not :=
  foldl_or negative vs

theorem disj_append (vs ws : List Ternary) : disj (vs ++ ws) = (disj vs).or (disj ws) := by
  simp only [disj_eq_not_conj_not, List.map_append, conj_append, not_and]

/-- The disjunction is the least judgment above all members. -/
theorem disj_le_iff : disj vs ≤ u ↔ ∀ v ∈ vs, v ≤ u := by
  rw [disj_eq_not_conj_not, not_le_iff, le_conj_iff, List.forall_mem_map]
  simp only [not_le_not_iff]

theorem le_disj (h : v ∈ vs) : v ≤ disj vs :=
  disj_le_iff.mp (le_refl _) v h

theorem disj_congr (h : ∀ v, v ∈ vs ↔ v ∈ ws) : disj vs = disj ws := by
  apply le_antisymm
  · exact disj_le_iff.mpr fun v hv => le_disj ((h v).mp hv)
  · exact disj_le_iff.mpr fun v hv => le_disj ((h v).mpr hv)

theorem conj_le_disj_iff : conj vs ≤ disj vs ↔ vs ≠ [] := by
  constructor
  · rintro h rfl
    revert h
    decide
  · intro hne
    obtain ⟨v, hv⟩ := List.exists_mem_of_ne_nil vs hne
    exact le_trans (conj_le hv) (le_disj hv)

/-- The conjunction says whether some member is negative, or else whether all are positive;
the disjunction is its dual.  Both take a sequence in parts, and see nothing of the order or
of repetitions.  They bound every member, and each other unless there is none. -/
theorem conj_and_disj_quantify (vs : List Ternary) :
    ((conj vs = negative ↔ negative ∈ vs) ∧
      (conj vs = positive ↔ ∀ v ∈ vs, v = positive) ∧
      (conj vs = neutral ↔ negative ∉ vs ∧ ¬ ∀ v ∈ vs, v = positive)) ∧
    disj vs = (conj (vs.map not)).not ∧
    (∀ ws, conj (vs ++ ws) = (conj vs).and (conj ws) ∧ disj (vs ++ ws) = (disj vs).or (disj ws)) ∧
    (∀ ws, (∀ v, v ∈ vs ↔ v ∈ ws) → conj vs = conj ws ∧ disj vs = disj ws) ∧
    (∀ v ∈ vs, conj vs ≤ v ∧ v ≤ disj vs) ∧
    (conj vs ≤ disj vs ↔ vs ≠ []) := by
  refine ⟨⟨conj_eq_negative_iff, conj_eq_positive_iff, ?_⟩, disj_eq_not_conj_not vs, ?_, ?_, ?_,
    conj_le_disj_iff⟩
  · rw [← conj_eq_negative_iff, ← conj_eq_positive_iff]
    cases conj vs <;> decide
  · exact fun ws => ⟨conj_append vs ws, disj_append vs ws⟩
  · exact fun ws h => ⟨conj_congr h, disj_congr h⟩
  · exact fun v hv => ⟨conj_le hv, le_disj hv⟩

/-- A sequence with a doubt in it, and the same in another order and with repetitions. -/
theorem conj_and_disj_quantify_doubted :
    let doubted := [positive, neutral, positive]
    let others := [neutral, positive, neutral, neutral]
    conj doubted = neutral ∧ disj doubted = positive ∧ conj others = neutral ∧
      disj others = positive ∧ neutral ∈ doubted ∧ conj doubted ≤ neutral := by
  intro doubted others
  have hmembers : ∀ v, v ∈ doubted ↔ v ∈ others := by
    intro v
    cases v <;> decide
  obtain ⟨⟨-, -, hneutral⟩, hdual, -, hsame, hbounds, -⟩ := conj_and_disj_quantify doubted
  have hconj : conj doubted = neutral := hneutral.mpr (by decide)
  have hdisj : disj doubted = positive := hdual.trans (by decide)
  obtain ⟨hconjs, hdisjs⟩ := hsame others hmembers
  have hmem : neutral ∈ doubted := by decide
  exact ⟨hconj, hdisj, hconjs ▸ hconj, hdisjs ▸ hdisj, hmem, (hbounds neutral hmem).1⟩

end Vigil.Ternary
