import Mathlib.Data.List.Perm.Subperm
import Mathlib.Data.Rat.Floor
import Vigil.Proofs.Choice.Ceiling

/-!
# The bins of the unit interval

Bins of equal width divide the unit interval: each holds its lower end and not its upper
one, but for the top bin, which holds both.  When the number of bins is a multiple of
another, each of the fewer bins is a union of the more, as the whole part of a whole part
is that of the quotient.  The last bin of all is no exception, because the cap at the
last of the finer bins is divided along with the rest.
-/

namespace Vigil.Diversity

variable {bins k : ℕ} {s t : ℝ} {scores : List ℝ}

/-- Rational arithmetic is enough for the bin of a rational score. -/
theorem binIndex_ratCast (q : ℚ) (bins : ℕ) :
    binIndex (q : ℝ) bins = min ⌊q * bins⌋₊ (bins - 1) := by
  have hcast : (q : ℝ) * bins = ((q * bins : ℚ) : ℝ) := by push_cast; rfl
  rw [binIndex_real, hcast, ← Int.floor_toNat, Rat.floor_cast, Int.floor_toNat]

theorem binIndex_one (bins : ℕ) : binIndex (1 : ℝ) bins = bins - 1 := by
  rw [binIndex_real, one_mul, Nat.floor_natCast]
  exact Nat.min_eq_right (Nat.sub_le bins 1)

/-- Below one the cap does nothing. -/
theorem binIndex_of_lt_one (hbins : 0 < bins) (h : s < 1) : binIndex s bins = ⌊s * bins⌋₊ := by
  have hpos : (0 : ℝ) < bins := Nat.cast_pos.mpr hbins
  have hlt : ⌊s * bins⌋₊ < bins := by
    rw [Nat.floor_lt' hbins.ne']
    exact mul_lt_of_lt_one_left hpos h
  rw [binIndex_real]
  exact Nat.min_eq_left (by omega)

theorem binIndex_eq_iff (hbins : 0 < bins) (h₀ : 0 ≤ s) (h₁ : s ≤ 1) (i : ℕ) :
    binIndex s bins = i ↔ i < bins ∧
      (((i : ℝ) / bins ≤ s ∧ s < ((i : ℝ) + 1) / bins) ∨ (i = bins - 1 ∧ s = 1)) := by
  have hpos : (0 : ℝ) < bins := Nat.cast_pos.mpr hbins
  rcases h₁.lt_or_eq with hlt | rfl
  · have hfloor : ⌊s * bins⌋₊ = i ↔ (i : ℝ) / bins ≤ s ∧ s < ((i : ℝ) + 1) / bins := by
      rw [Nat.floor_eq_iff (mul_nonneg h₀ hpos.le), div_le_iff₀ hpos, lt_div_iff₀ hpos]
    have hbelow : binIndex s bins = i → i < bins := fun h => h ▸ binIndex_lt s hbins
    rw [binIndex_of_lt_one hbins hlt, hfloor] at hbelow ⊢
    simp only [hlt.ne, and_false, or_false]
    exact (and_iff_right_of_imp hbelow).symm
  · -- No bin but the top one reaches up to one.
    have hend : 1 < ((i : ℝ) + 1) / bins ↔ bins < i + 1 := by
      rw [lt_div_iff₀ hpos, one_mul]
      exact_mod_cast Iff.rfl
    rw [binIndex_one, hend, and_iff_left rfl]
    constructor
    · intro htop
      exact ⟨by omega, Or.inr htop.symm⟩
    · rintro ⟨hbelow, ⟨-, habove⟩ | htop⟩
      · omega
      · exact htop.symm

theorem binIndex_mono (bins : ℕ) : Monotone fun s : ℝ => binIndex s bins := by
  intro s t hle
  have hfloor : ⌊s * bins⌋₊ ≤ ⌊t * bins⌋₊ :=
    Nat.floor_mono (mul_le_mul_of_nonneg_right hle (Nat.cast_nonneg bins))
  simp only [binIndex_real]
  exact min_le_min_right _ hfloor

/-- The lower end of a bin lies in it. -/
theorem binIndex_lower {i : ℕ} (h : i < bins) : binIndex (((i / bins : ℚ)) : ℝ) bins = i := by
  have hne : (bins : ℚ) ≠ 0 := Nat.cast_ne_zero.mpr (Nat.ne_zero_of_lt h)
  rw [binIndex_ratCast, div_mul_cancel₀ _ hne, Nat.floor_natCast]
  exact Nat.min_eq_left (by omega)

/-- A bin consists of the finer bins that its index is the quotient of. -/
theorem binIndex_mul_div (hk : 0 < k) (s : ℝ) (bins : ℕ) :
    binIndex s (k * bins) / k = binIndex s bins := by
  have hne : (k : ℝ) ≠ 0 := Nat.cast_ne_zero.mpr hk.ne'
  have hquotient : s * bins = s * ((k * bins : ℕ) : ℝ) / k := by
    rw [Nat.cast_mul]
    field_simp
  have hfloor : ⌊s * ((k * bins : ℕ) : ℝ)⌋₊ / k = ⌊s * bins⌋₊ := by
    rw [hquotient, Nat.floor_div_natCast]
  have hcap : (k * bins - 1) / k = bins - 1 := by
    rcases Nat.eq_zero_or_pos bins with rfl | hbins
    · simp
    · rw [Nat.mul_sub_div 0 k bins (Nat.mul_pos hk hbins), Nat.zero_div]
  have hmono : Monotone fun n : ℕ => n / k := fun _ _ h => Nat.div_le_div_right h
  rw [binIndex_real, binIndex_real, hmono.map_min, hfloor, hcap]

theorem binIndex_eq_of_finer (hk : 0 < k) (h : binIndex s (k * bins) = binIndex t (k * bins)) :
    binIndex s bins = binIndex t bins := by
  rw [← binIndex_mul_div hk, h, binIndex_mul_div hk]

theorem length_occupied_le_of_finer (hbins : 0 < bins) (hk : 0 < k) (scores : List ℝ) :
    (occupied bins scores).length ≤ (occupied (k * bins) scores).length := by
  have hfine : 0 < k * bins := Nat.mul_pos hk hbins
  have hsubset : occupied bins scores ⊆ (occupied (k * bins) scores).map (· / k) := by
    intro i hi
    obtain ⟨s, hs, rfl⟩ := (mem_occupied hbins).mp hi
    exact List.mem_map.mpr ⟨_, (mem_occupied hfine).mpr ⟨s, hs, rfl⟩, binIndex_mul_div hk s bins⟩
  simpa using (List.subperm_of_subset (nodup_occupied bins scores) hsubset).length_le

/-- Every number of the unit interval, rational or not, is in the bin whose ends enclose it,
where the upper end counts in the top bin alone.  The index rises with the score and takes
every value below the number of bins.  Bins that are fewer by a factor are made up of the
others, so that scores which share a bin go on to share one, and fewer bins are occupied,
or as many. -/
theorem binIndex_partitions_and_nests {bins : ℕ} (hbins : 0 < bins) :
    (∀ s : ℝ, 0 ≤ s → s ≤ 1 → ∀ i : ℕ, binIndex s bins = i ↔ i < bins ∧
      (((i : ℝ) / bins ≤ s ∧ s < ((i : ℝ) + 1) / bins) ∨ (i = bins - 1 ∧ s = 1))) ∧
    (∀ q : ℚ, binIndex (q : ℝ) bins = min ⌊q * bins⌋₊ (bins - 1)) ∧
    Monotone (fun s : ℝ => binIndex s bins) ∧
    (∀ i < bins, ∃ q : ℚ, 0 ≤ q ∧ q ≤ 1 ∧ binIndex (q : ℝ) bins = i) ∧
    ∀ k, 0 < k →
      (∀ s : ℝ, binIndex s bins = binIndex s (k * bins) / k) ∧
      (∀ s t : ℝ, binIndex s (k * bins) = binIndex t (k * bins) →
        binIndex s bins = binIndex t bins) ∧
      ∀ scores : List ℝ,
        (histogram bins scores).countP (0 < ·) ≤ (histogram (k * bins) scores).countP (0 < ·) := by
  refine ⟨fun s h₀ h₁ i => binIndex_eq_iff hbins h₀ h₁ i, fun q => binIndex_ratCast q bins,
    binIndex_mono bins, ?_, ?_⟩
  · intro i hi
    have hpos : (0 : ℚ) < bins := Nat.cast_pos.mpr hbins
    have hle : (i : ℚ) ≤ bins := Nat.cast_le.mpr hi.le
    exact ⟨i / bins, by positivity, (div_le_one hpos).mpr hle, binIndex_lower hi⟩
  · intro k hk
    refine ⟨fun s => (binIndex_mul_div hk s bins).symm, fun s t => binIndex_eq_of_finer hk, ?_⟩
    intro scores
    rw [countP_histogram, countP_histogram]
    exact length_occupied_le_of_finer hbins hk scores

/-- Two scores in neighbouring bins of ten share one of two, together with the greatest. -/
theorem binIndex_partitions_and_nests_merging :
    0 < 10 ∧ binIndex (0.6 : ℝ) 10 = 6 ∧ binIndex (0.7 : ℝ) 10 = 7 ∧
    0 < 2 ∧ 0 < 5 ∧ binIndex (0.6 : ℝ) 2 = 1 ∧ binIndex (0.7 : ℝ) 2 = 1 ∧
    binIndex (1 : ℝ) 2 = 1 := by
  obtain ⟨hten, -⟩ := binIndex_partitions_and_nests (show 0 < 10 by decide)
  obtain ⟨htwo, -, -, -, hnest⟩ := binIndex_partitions_and_nests (show 0 < 2 by decide)
  obtain ⟨hquotient, -⟩ := hnest 5 (by decide)
  have hsix : binIndex (0.6 : ℝ) 10 = 6 :=
    (hten 0.6 (by norm_num) (by norm_num) 6).mpr ⟨by decide, Or.inl (by norm_num)⟩
  have hseven : binIndex (0.7 : ℝ) 10 = 7 :=
    (hten 0.7 (by norm_num) (by norm_num) 7).mpr ⟨by decide, Or.inl (by norm_num)⟩
  have hsix' : binIndex (0.6 : ℝ) 2 = 1 := (hquotient 0.6).trans (congrArg (· / 5) hsix)
  have hseven' : binIndex (0.7 : ℝ) 2 = 1 := (hquotient 0.7).trans (congrArg (· / 5) hseven)
  have htop : binIndex (1 : ℝ) 2 = 1 :=
    (htwo 1 (by norm_num) le_rfl 1).mpr ⟨by decide, Or.inr ⟨rfl, rfl⟩⟩
  exact ⟨by decide, hsix, hseven, by decide, by decide, hsix', hseven', htop⟩

end Vigil.Diversity
