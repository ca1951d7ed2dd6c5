import Mathlib.Data.Int.Notation
import Mathlib.Data.List.Induction
import Vigil.Decimal.Integer

/-!
# The grammar of integers

A numeral is one or more ASCII digits behind one sign or none, and the digits count by
their places.  The reader accepts numerals and nothing else, and finds the integer they
denote.  The text that an integer is printed as is one of its numerals.
-/

namespace Vigil.Decimal

/-- The texts of one or more ASCII digits, with the number that they denote. -/
inductive Digits : List Char → ℕ → Prop
  | single {d : ℕ} (hd : d < 10) : Digits [d.digitChar] d
  | concat {cs : List Char} {n d : ℕ} (hcs : Digits cs n) (hd : d < 10) :
      Digits (cs ++ [d.digitChar]) (10 * n + d)

/-- Digits behind one sign or none, with the integer that they denote. -/
inductive Numeral : List Char → ℤ → Prop
  | bare {cs : List Char} {n : ℕ} (hcs : Digits cs n) : Numeral cs n
  | plus {cs : List Char} {n : ℕ} (hcs : Digits cs n) : Numeral ('+' :: cs) n
  | minus {cs : List Char} {n : ℕ} (hcs : Digits cs n) : Numeral ('-' :: cs) (-n)

theorem digitValue?_digitChar : ∀ d < 10, digitValue? d.digitChar = some d := by decide

theorem digitValue?_eq_some_iff {c : Char} {d : ℕ} :
    digitValue? c = some d ↔ d < 10 ∧ c = d.digitChar := by
  constructor
  · intro h
    unfold digitValue? at h
    split at h
    · rename_i hc
      have hlow : 48 ≤ c.toNat := hc.1
      have hhigh : c.toNat ≤ 57 := hc.2
      have hd : c.toNat - 48 = d := Option.some.inj h
      refine ⟨by omega, Char.toNat_inj.mp ?_⟩
      rw [Nat.toNat_digitChar_of_lt_ten (by omega)]
      omega
    · cases h
  · rintro ⟨hd, rfl⟩
    exact digitValue?_digitChar d hd

theorem readDigits_concat (acc : ℕ) (cs : List Char) (c : Char) :
    readDigits acc (cs ++ [c]) =
      (readDigits acc cs).bind fun n => (digitValue? c).map fun d => 10 * n + d := by
  induction cs generalizing acc with
  | nil =>
      rw [List.nil_append, readDigits_cons, readDigits_nil, Option.bind_some]
      cases digitValue? c <;> rfl
  | cons b bs ih =>
      rw [List.cons_append, readDigits_cons, readDigits_cons]
      cases digitValue? b with
      | none => rfl
      | some d => exact ih (10 * acc + d)

theorem readNatural_of_ne_nil {cs : List Char} (h : cs ≠ []) :
    readNatural cs = readDigits 0 cs := by
  cases cs with
  | nil => exact absurd rfl h
  | cons c cs => rfl

theorem readNatural_of_digits {cs : List Char} {n : ℕ} (h : Digits cs n) :
    readNatural cs = some n := by
  induction h with
  | @single d hd =>
      rw [readNatural_of_ne_nil (by simp), readDigits_cons, digitValue?_digitChar d hd]
      simp
  | @concat cs n d hcs hd ih =>
      have hne : cs ≠ [] := by
        rintro rfl
        cases ih
      rw [readNatural_of_ne_nil hne] at ih
      rw [readNatural_of_ne_nil (by simp), readDigits_concat, ih, digitValue?_digitChar d hd]
      rfl

theorem digits_of_readNatural {cs : List Char} {n : ℕ} (h : readNatural cs = some n) :
    Digits cs n := by
  induction cs using List.reverseRecOn generalizing n with
  | nil => cases h
  | append_singleton cs c ih =>
      rw [readNatural_of_ne_nil (by simp), readDigits_concat] at h
      obtain ⟨k, hk, h⟩ := Option.bind_eq_some_iff.mp h
      obtain ⟨d, hd, rfl⟩ := Option.map_eq_some_iff.mp h
      obtain ⟨hlt, rfl⟩ := digitValue?_eq_some_iff.mp hd
      by_cases hne : cs = []
      · subst hne
        obtain rfl : 0 = k := Option.some.inj hk
        simpa using Digits.single hlt
      · rw [← readNatural_of_ne_nil hne] at hk
        exact .concat (ih hk) hlt

/-- No digits begin with a character that is none. -/
theorem not_digits_cons {c : Char} (hc : digitValue? c = none) (cs : List Char) (n : ℕ) :
    ¬ Digits (c :: cs) n := by
  intro h
  have hread := readNatural_of_digits h
  rw [readNatural_of_ne_nil (by simp), readDigits_cons, hc] at hread
  cases hread

theorem readInteger_eq_some_iff {cs : List Char} {n : ℤ} :
    readInteger cs = some n ↔ Numeral cs n := by
  constructor
  · intro h
    unfold readInteger at h
    split at h <;> obtain ⟨k, hk, rfl⟩ := Option.map_eq_some_iff.mp h
    · exact .plus (digits_of_readNatural hk)
    · exact .minus (digits_of_readNatural hk)
    · exact .bare (digits_of_readNatural hk)
  · intro h
    cases h with
    | bare hcs =>
        rw [readInteger.eq_3, readNatural_of_digits hcs]
        · rfl
        · rintro ds rfl
          exact not_digits_cons rfl _ _ hcs
        · rintro ds rfl
          exact not_digits_cons rfl _ _ hcs
    | plus hcs => simp [readInteger, readNatural_of_digits hcs]
    | minus hcs => simp [readInteger, readNatural_of_digits hcs]

theorem digits_toDigits (n : ℕ) : Digits (Nat.toDigits 10 n) n := by
  induction n using Nat.strongRecOn with
  | ind n ih =>
      rcases Nat.lt_or_ge n 10 with hlt | hge
      · rw [Nat.toDigits_of_lt_base hlt]
        exact .single hlt
      · have hconcat := Digits.concat (ih (n / 10) (by omega)) (Nat.mod_lt n (by decide : 0 < 10))
        rw [Nat.div_add_mod] at hconcat
        rwa [Nat.toDigits_of_base_le (by decide) hge]

theorem numeral_toString (n : ℤ) : Numeral (toString n).toList n := by
  cases n with
  | ofNat k =>
      have htext : (toString (Int.ofNat k)).toList = Nat.toDigits 10 k := Nat.toList_repr
      rw [htext]
      exact .bare (digits_toDigits k)
  | negSucc k =>
      have htext : (toString (Int.negSucc k)).toList = '-' :: Nat.toDigits 10 (k + 1) := by
        change ("-" ++ (k + 1).repr).toList = _
        rw [String.toList_append, Nat.toList_repr]
        rfl
      rw [htext]
      exact .minus (digits_toDigits (k + 1))

theorem Digits.exists_digit {cs : List Char} {n : ℕ} (h : Digits cs n) :
    ∃ d < 10, d.digitChar ∈ cs := by
  cases h with
  | single hd => exact ⟨_, hd, List.mem_singleton.mpr rfl⟩
  | concat _ hd => exact ⟨_, hd, List.mem_append_right _ (List.mem_singleton.mpr rfl)⟩

theorem Digits.eq_digitChar_of_mem {cs : List Char} {n : ℕ} (h : Digits cs n) {c : Char}
    (hc : c ∈ cs) : ∃ d < 10, c = d.digitChar := by
  induction h with
  | single hd => exact ⟨_, hd, List.mem_singleton.mp hc⟩
  | concat _ hd ih =>
      rcases List.mem_append.mp hc with hc | hc
      · exact ih hc
      · exact ⟨_, hd, List.mem_singleton.mp hc⟩

theorem Numeral.exists_digit {cs : List Char} {n : ℤ} (h : Numeral cs n) :
    ∃ d < 10, d.digitChar ∈ cs := by
  cases h with
  | bare hcs => exact hcs.exists_digit
  | plus hcs =>
      obtain ⟨d, hd, hmem⟩ := hcs.exists_digit
      exact ⟨d, hd, List.mem_cons_of_mem _ hmem⟩
  | minus hcs =>
      obtain ⟨d, hd, hmem⟩ := hcs.exists_digit
      exact ⟨d, hd, List.mem_cons_of_mem _ hmem⟩

theorem Numeral.cases_of_mem {cs : List Char} {n : ℤ} (h : Numeral cs n) {c : Char}
    (hc : c ∈ cs) : c = '+' ∨ c = '-' ∨ ∃ d < 10, c = d.digitChar := by
  cases h with
  | bare hcs => exact Or.inr (Or.inr (hcs.eq_digitChar_of_mem hc))
  | plus hcs =>
      rcases List.mem_cons.mp hc with rfl | hc
      · exact Or.inl rfl
      · exact Or.inr (Or.inr (hcs.eq_digitChar_of_mem hc))
  | minus hcs =>
      rcases List.mem_cons.mp hc with rfl | hc
      · exact Or.inr (Or.inl rfl)
      · exact Or.inr (Or.inr (hcs.eq_digitChar_of_mem hc))

end Vigil.Decimal
