import Vigil.Decimal.Layout
import Vigil.Json.Reader
import Vigil.Proofs.Decimal.Integer
import Vigil.Proofs.Decimal.Shortest

/-!
# The figures of a number

A layout sets the digits of a decimal with a point among them, or with zeros between them
and the point.  Whichever it is, the digits before and behind the point are worth as much
as the decimal.
-/

namespace Vigil.Decimal

/-- Two characters differ if only one of them is of a kind. -/
theorem ne_of_kind {p : Char → Bool} {c d : Char} (hc : p c = true) (hd : p d = false) :
    c ≠ d := by
  rintro rfl
  rw [hc] at hd
  cases hd

/-- A sign before digits. -/
def signed (negative : Bool) (cs : List Char) : List Char := if negative then '-' :: cs else cs

theorem signed_append (negative : Bool) (ds cs : List Char) :
    signed negative ds ++ cs = signed negative (ds ++ cs) := by
  unfold signed
  split <;> rfl

theorem toList_toString_int (n : ℤ) :
    (toString n).toList = signed (decide (n < 0)) (Nat.toDigits 10 n.natAbs) := by
  cases n with
  | ofNat m =>
      have hn : decide (Int.ofNat m < 0) = false := decide_eq_false (by simp)
      rw [hn]
      exact Nat.toList_repr
  | negSucc m =>
      have hn : decide (Int.negSucc m < 0) = true := decide_eq_true (Int.negSucc_lt_zero m)
      rw [hn]
      change ("-" ++ (m + 1).repr).toList = _
      rw [String.toList_append, Nat.toList_repr]
      rfl

theorem signed_natAbs (n : ℤ) :
    (if decide (n < 0) = true then -Int.ofNat n.natAbs else Int.ofNat n.natAbs) = n := by
  split <;> rename_i h <;> rw [decide_eq_true_eq] at h <;> rw [Int.ofNat_eq_natCast] <;> omega

/-! ## Runs of digits -/

/-- Digits only. -/
def AllDigits (ds : List Char) : Prop := ∀ c ∈ ds, Json.isDigit c = true

/-- Digits without a leading zero, or a single zero. -/
def Plain (ds : List Char) : Prop :=
  AllDigits ds ∧ (ds = ['0'] ∨ ∃ c cs, ds = c :: cs ∧ c ≠ '0')

theorem isDigit_eq (c : Char) : Json.isDigit c = c.isDigit := by
  unfold Json.isDigit digitValue?
  split <;> rename_i h <;> simp_all [Char.isDigit, Char.le_def]

theorem allDigits_toDigits (n : ℕ) : AllDigits (Nat.toDigits 10 n) := by
  intro c hc
  rw [isDigit_eq]
  exact Nat.isDigit_of_mem_toDigits (by decide) le_rfl hc

theorem allDigits_zeros (k : ℕ) : AllDigits (List.replicate k '0') := by
  intro c hc
  rw [List.eq_of_mem_replicate hc]
  rfl

theorem AllDigits.append {ds es : List Char} (hds : AllDigits ds) (hes : AllDigits es) :
    AllDigits (ds ++ es) := by
  intro c hc
  rcases List.mem_append.mp hc with hc | hc
  · exact hds c hc
  · exact hes c hc

theorem AllDigits.sublist {ds es : List Char} (hds : AllDigits ds) (h : es.Sublist ds) :
    AllDigits es :=
  fun c hc => hds c (h.subset hc)

/-- A number above zero has no leading zero. -/
theorem exists_toDigits_eq_cons {n : ℕ} (hn : 0 < n) :
    ∃ c cs, Nat.toDigits 10 n = c :: cs ∧ c ≠ '0' := by
  induction n using Nat.strongRecOn with
  | ind n ih =>
      rcases Nat.lt_or_ge n 10 with hlt | hge
      · refine ⟨_, _, Nat.toDigits_of_lt_base hlt, ?_⟩
        rw [Ne, Nat.digitChar_eq_zero]
        exact hn.ne'
      · obtain ⟨c, cs, hdigits, hc⟩ := ih (n / 10) (by omega) (by omega)
        refine ⟨c, cs ++ [(n % 10).digitChar], ?_, hc⟩
        rw [Nat.toDigits_of_base_le (by decide) hge, hdigits]
        rfl

theorem plain_toDigits (n : ℕ) : Plain (Nat.toDigits 10 n) := by
  refine ⟨allDigits_toDigits n, ?_⟩
  rcases Nat.eq_zero_or_pos n with rfl | hn
  · exact .inl rfl
  · exact .inr (exists_toDigits_eq_cons hn)

theorem toDigits_eq_zero_iff (n : ℕ) : Nat.toDigits 10 n = ['0'] ↔ n = 0 := by
  constructor
  · intro h
    by_contra hn
    obtain ⟨c, cs, hdigits, hc⟩ := exists_toDigits_eq_cons (Nat.pos_of_ne_zero hn)
    exact hc (List.cons.inj (hdigits.symm.trans h)).1
  · rintro rfl
    rfl

namespace Plain

variable {ds : List Char}

theorem exists_cons (h : Plain ds) : ∃ c cs, ds = c :: cs ∧ Json.isDigit c = true := by
  obtain ⟨hdigits, rfl | ⟨c, cs, rfl, -⟩⟩ := h
  · exact ⟨'0', [], rfl, rfl⟩
  · exact ⟨c, cs, rfl, hdigits c List.mem_cons_self⟩

theorem append {es : List Char} (hds : Plain ds) (hes : AllDigits es)
    (h : ds = ['0'] → es = []) : Plain (ds ++ es) := by
  refine ⟨hds.1.append hes, ?_⟩
  rcases hds.2 with hzero | ⟨c, cs, rfl, hc⟩
  · rw [h hzero, List.append_nil]
    exact .inl hzero
  · exact .inr ⟨c, cs ++ es, rfl, hc⟩

theorem take (hds : Plain ds) {k : ℕ} (hk : 0 < k) : Plain (ds.take k) := by
  obtain ⟨k, rfl⟩ : ∃ j, k = j + 1 := ⟨k - 1, by omega⟩
  refine ⟨hds.1.sublist (List.take_sublist _ _), ?_⟩
  rcases hds.2 with rfl | ⟨c, cs, rfl, hc⟩
  · exact .inl (by simp)
  · exact .inr ⟨c, cs.take k, rfl, hc⟩

end Plain

/-! ## What digits are worth -/

namespace Digits

variable {ds : List Char} {n : ℕ}

theorem zeros_append (h : Digits ds n) (k : ℕ) : Digits (List.replicate k '0' ++ ds) n := by
  have hzero {ds : List Char} {n : ℕ} (h : Digits ds n) : Digits ('0' :: ds) n := by
    induction h with
    | single hd =>
        have hconcat := Digits.concat (.single (by decide : 0 < 10)) hd
        rwa [mul_zero, zero_add] at hconcat
    | concat _ hd ih => exact .concat ih hd
  induction k with
  | zero => exact h
  | succ k ih => exact hzero ih

theorem append_zeros (h : Digits ds n) (k : ℕ) :
    Digits (ds ++ List.replicate k '0') (n * 10 ^ k) := by
  induction k with
  | zero => simpa using h
  | succ k ih =>
      have hconcat := Digits.concat ih (by decide : 0 < 10)
      have hvalue : 10 * (n * 10 ^ k) + 0 = n * 10 ^ (k + 1) := by ring
      rw [hvalue] at hconcat
      rw [List.replicate_succ', ← List.append_assoc]
      exact hconcat

end Digits

/-! ## Numbers with a point -/

/-- A text sets a number with a point, and digits on both sides of it. -/
def SetsPoint (text : List Char) (x : ℚ) : Prop :=
  ∃ whole fraction n, text = whole ++ '.' :: fraction ∧ Plain whole ∧ AllDigits fraction ∧
    fraction ≠ [] ∧ Digits (whole ++ fraction) n ∧ (n : ℚ) * 10 ^ (-(fraction.length : ℤ)) = x

section SetPoint

variable {ds : List Char} {n : ℕ}

theorem setsPoint_zeros_before (hds : AllDigits ds) (hn : Digits ds n) (hne : ds ≠ []) (k : ℕ) :
    SetsPoint (['0', '.'] ++ List.replicate k '0' ++ ds) (n * 10 ^ (-(k : ℤ) - ds.length)) := by
  refine ⟨['0'], List.replicate k '0' ++ ds, n, List.append_assoc _ _ _,
    ⟨allDigits_zeros 1, .inl rfl⟩, (allDigits_zeros k).append hds,
    List.append_ne_nil_of_right_ne_nil _ hne, hn.zeros_append (k + 1), ?_⟩
  rw [List.length_append, List.length_replicate]
  congr 2
  push_cast
  ring

theorem setsPoint_zeros_after (hds : Plain ds) (hn : Digits ds n) {k : ℕ}
    (hzero : ds = ['0'] → k = 0) :
    SetsPoint (ds ++ List.replicate k '0' ++ ['.', '0']) (n * 10 ^ k) := by
  refine ⟨ds ++ List.replicate k '0', ['0'], n * 10 ^ (k + 1), rfl,
    hds.append (allDigits_zeros k) ?_, allDigits_zeros 1, List.cons_ne_nil _ _, ?_, ?_⟩
  · intro h
    rw [hzero h]
    rfl
  · have hall := hn.append_zeros (k + 1)
    rwa [List.replicate_succ', ← List.append_assoc] at hall
  · rw [List.length_singleton, pow_succ]
    push_cast
    norm_num
    ring

theorem setsPoint_between (hds : Plain ds) (hn : Digits ds n) {k : ℕ} (hpos : 0 < k)
    (hlt : k < ds.length) :
    SetsPoint (ds.take k ++ '.' :: ds.drop k) (n * 10 ^ ((k : ℤ) - ds.length)) := by
  refine ⟨ds.take k, ds.drop k, n, rfl, hds.take hpos, hds.1.sublist (List.drop_sublist _ _), ?_,
    ?_, ?_⟩
  · rw [Ne, List.drop_eq_nil_iff]
    omega
  · rwa [List.take_append_drop]
  · rw [List.length_drop]
    congr 2
    omega

variable {l : Layout}

/-- The point after so many of the digits of a number; zero has it after its only digit. -/
theorem setsPoint_setPoint (hl : l.wholeFraction = true) (hds : Plain ds) (hn : Digits ds n)
    {p : ℤ} (hp : ds = ['0'] → p = 1) :
    SetsPoint (l.setPoint ds p) (n * 10 ^ (p - ds.length)) := by
  obtain ⟨c, cs, hcons, -⟩ := hds.exists_cons
  have hne : ds ≠ [] := fun h => List.cons_ne_nil c cs (hcons.symm.trans h)
  unfold Layout.setPoint
  rw [hl]
  split
  · obtain ⟨k, rfl⟩ : ∃ k : ℕ, p = -k := ⟨(-p).toNat, by omega⟩
    rw [neg_neg, Int.toNat_natCast]
    exact setsPoint_zeros_before hds.1 hn hne k
  · obtain ⟨k, rfl⟩ : ∃ k : ℕ, p = k := ⟨p.toNat, by omega⟩
    rw [Int.toNat_natCast]
    split
    · rename_i hle
      have hzero : ds = ['0'] → k - ds.length = 0 := by
        intro h
        have hone : (k : ℤ) = 1 := hp h
        rw [h, List.length_singleton]
        omega
      have hshift : (k : ℤ) - ds.length = ((k - ds.length : ℕ) : ℤ) := by omega
      rw [hshift, zpow_natCast]
      exact setsPoint_zeros_after hds hn hzero
    · exact setsPoint_between hds hn (by omega) (by omega)

/-- The place of the point among the digits of a decimal. -/
def Scientific.point (d : Scientific) : ℤ :=
  if d.digits = 0 then 1 else d.exponent + Int.ofNat (figures d.digits).length

theorem setsPoint_figures (hl : l.wholeFraction = true) (d : Scientific) :
    SetsPoint (l.setPoint (figures d.digits) d.point) d.value := by
  have hset := setsPoint_setPoint hl (plain_toDigits d.digits) (digits_toDigits d.digits)
    (p := d.point) (fun h => if_pos ((toDigits_eq_zero_iff _).mp h))
  have hvalue : (d.digits : ℚ) * 10 ^ (d.point - (Nat.toDigits 10 d.digits).length) = d.value := by
    rw [Scientific.value, Scientific.point]
    split
    · rename_i hzero
      rw [hzero, Nat.cast_zero, zero_mul, zero_mul]
    · rw [Int.ofNat_eq_natCast, figures, add_sub_cancel_right]
  rwa [hvalue] at hset

/-- A decimal is set with a point, or with an exponent behind its digits. -/
theorem set_cases (hl : l.wholeFraction = true) (d : Scientific) :
    SetsPoint (l.set d) d.value ∨
      l.positional d.point = false ∧ l.set d = setExponent (figures d.digits) d.point := by
  have hset : l.set d = if l.positional d.point then l.setPoint (figures d.digits) d.point
      else setExponent (figures d.digits) d.point := rfl
  rw [hset]
  cases hpositional : l.positional d.point with
  | true =>
      left
      rw [if_pos rfl]
      exact setsPoint_figures hl d
  | false =>
      right
      exact ⟨rfl, if_neg Bool.false_ne_true⟩

end SetPoint

theorem not_special_of_isFinite {x : Float} (hx : x.isFinite = true) :
    x.isNaN = false ∧ x.isInf = false := by
  change x.toModel.unpack.isFinite = true at hx
  change x.toModel.unpack.isNaN = false ∧ x.toModel.unpack.isInf = false
  generalize x.toModel.unpack = u at hx
  cases u with
  | notANumber => cases hx
  | infinity s => cases hx
  | zero s => exact ⟨rfl, rfl⟩
  | finite s m e hm => exact ⟨rfl, rfl⟩

end Vigil.Decimal
