import Vigil.Proofs.Decimal.Figures
import Vigil.Toml.Document
import Vigil.Toml.Writer

/-!
# Numbers in a document

A number that is written at the end of a line is read back as it is.  It is no date and
no time, because neither a dash nor a colon follows its digits; an integer is no double,
because neither a point nor an exponent follows; and a double has the digits of its
shortest decimal.
-/

namespace Vigil.Toml

open Decimal (AllDigits Plain SetsPoint ne_of_kind signed)

/-! ## Runs of digits -/

theorem hexValue?_digitChar : ∀ n < 16, Json.hexValue? n.digitChar = some n := by decide

theorem readMoreDigits_append {ds : List Char} (hds : AllDigits ds) {c : Char}
    (hc : Json.isDigit c = false) (hunderscore : c ≠ '_') (cs : List Char) :
    readMoreDigits Json.isDigit (ds ++ c :: cs) = (ds, c :: cs) := by
  induction ds with
  | nil =>
      rw [List.nil_append, readMoreDigits]
      · simp [hc]
      · intro d ds heq
        exact absurd heq hunderscore
  | cons d ds ih =>
      have hd := hds d List.mem_cons_self
      have hrest := ih fun e he => hds e (List.mem_cons_of_mem _ he)
      rw [List.cons_append, readMoreDigits]
      · simp [hd, hrest]
      · intro e es heq
        exact absurd heq (ne_of_kind hd rfl)

theorem readDigitRun_append {ds : List Char} (hds : AllDigits ds) (hne : ds ≠ []) {c : Char}
    (hc : Json.isDigit c = false) (hunderscore : c ≠ '_') (cs : List Char) :
    readDigitRun Json.isDigit (ds ++ c :: cs) = some (ds, c :: cs) := by
  cases ds with
  | nil => exact absurd rfl hne
  | cons d ds =>
      have hrest := readMoreDigits_append (fun e he => hds e (List.mem_cons_of_mem _ he)) hc
        hunderscore cs
      simp [readDigitRun, hds d List.mem_cons_self, hrest]

theorem readPlainDigits_append {ds : List Char} (hds : Plain ds) {c : Char}
    (hc : Json.isDigit c = false) (hunderscore : c ≠ '_') (cs : List Char) :
    readPlainDigits (ds ++ c :: cs) = some (ds, c :: cs) := by
  obtain ⟨hdigits, rfl | ⟨d, rest, rfl, hd⟩⟩ := hds
  · rfl
  · rw [List.cons_append, readPlainDigits]
    · exact readDigitRun_append hdigits (List.cons_ne_nil _ _) hc hunderscore cs
    · intro es heq
      exact hd (List.cons.inj heq).1

theorem inBase_of_digits {ds : List Char} {n : ℕ} (h : Decimal.Digits ds n) :
    inBase 10 ds = n := by
  induction h with
  | @single d hd => simp [inBase, hexValue?_digitChar d (by omega)]
  | @concat cs n d hcs hd ih =>
      unfold inBase at ih ⊢
      rw [List.foldl_append, ih, List.foldl_cons, List.foldl_nil,
        hexValue?_digitChar d (by omega), Option.getD_some, Nat.mul_comm]

/-! ## No dates -/

theorem readField_eq_some {ds : List Char} {c : Char} (hc : Json.isDigit c = false)
    {count least greatest n : ℕ} {cs rest : List Char}
    (h : readField count least greatest (ds ++ c :: cs) = some (n, rest)) :
    count ≤ ds.length ∧ rest = ds.drop count ++ c :: cs := by
  unfold readField at h
  simp only [Bool.and_eq_true, decide_eq_true_eq] at h
  split at h
  · rename_i hcond
    obtain ⟨⟨⟨hlen, hall⟩, -⟩, -⟩ := hcond
    have hle : count ≤ ds.length := by
      by_contra hgt
      have hmem : c ∈ (ds ++ c :: cs).take count := by
        rw [List.take_append, List.mem_append]
        right
        obtain ⟨k, hk⟩ : ∃ k, count - ds.length = k + 1 := ⟨count - ds.length - 1, by omega⟩
        rw [hk, List.take_succ_cons]
        exact List.mem_cons_self
      have := List.all_eq_true.mp hall c hmem
      rw [hc] at this
      cases this
    cases h
    exact ⟨hle, List.drop_append_of_le_length hle⟩
  · cases h

/-- Neither a date nor a time begins with digits that are followed by something else than a
dash or a colon. -/
theorem readDateTime_append {ds : List Char} (hds : AllDigits ds) {c : Char}
    (hc : Json.isDigit c = false) (hmark : ds ≠ [] → c ≠ '-' ∧ c ≠ ':') (cs : List Char) :
    readDateTime (ds ++ c :: cs) = none := by
  have hnext {mark : Char} (hmark' : Json.isDigit mark = false) (hne : c ≠ mark) (k : ℕ) :
      readMark mark (ds.drop k ++ c :: cs) = none := by
    cases hdrop : ds.drop k with
    | nil => exact if_neg hne
    | cons d rest =>
        have hd := hds d (List.mem_of_mem_drop (hdrop ▸ List.mem_cons_self))
        exact if_neg (ne_of_kind hd hmark')
  have hnonempty {count : ℕ} (hcount : 0 < count) (h : count ≤ ds.length) : ds ≠ [] := by
    rintro rfl
    exact absurd h (Nat.not_le.mpr hcount)
  have hdate : readDate (ds ++ c :: cs) = none := by
    unfold readDate
    cases hfield : readField 4 0 9999 (ds ++ c :: cs) with
    | none => rfl
    | some r =>
        obtain ⟨year, rest⟩ := r
        obtain ⟨hle, rfl⟩ := readField_eq_some hc hfield
        have hdash := hnext rfl (hmark (hnonempty (by decide) hle)).1 4
        simp only [Option.bind_eq_bind, Option.bind_some, hdash, Option.bind_none]
  have htime : readTime (ds ++ c :: cs) = none := by
    unfold readTime
    cases hfield : readField 2 0 23 (ds ++ c :: cs) with
    | none => rfl
    | some r =>
        obtain ⟨hour, rest⟩ := r
        obtain ⟨hle, rfl⟩ := readField_eq_some hc hfield
        have hcolon := hnext rfl (hmark (hnonempty (by decide) hle)).2 2
        simp only [Option.bind_eq_bind, Option.bind_some, hcolon, Option.bind_none]
  simp only [readDateTime, hdate, htime]

/-! ## Signs and magnitudes -/

section Plain

variable {ds : List Char} {c : Char}

theorem readSign_signed (hds : Plain ds) (negative : Bool) (cs : List Char) :
    readSign (signed negative (ds ++ cs)) = (negative, ds ++ cs) := by
  cases negative with
  | true => rfl
  | false =>
      obtain ⟨d, rest, rfl, hd⟩ := hds.exists_cons
      apply readSign.eq_3
      · intro es heq
        exact ne_of_kind hd rfl (List.cons.inj heq).1
      · intro es heq
        exact ne_of_kind hd rfl (List.cons.inj heq).1

theorem readDateTime_signed (hds : Plain ds) (hc : Json.isDigit c = false) (hdash : c ≠ '-')
    (hcolon : c ≠ ':') (negative : Bool) (cs : List Char) :
    readDateTime (signed negative (ds ++ c :: cs)) = none := by
  cases negative with
  | true =>
      have hnone : AllDigits [] := fun e he => absurd he List.not_mem_nil
      exact readDateTime_append hnone rfl (fun hne => absurd rfl hne) _
  | false => exact readDateTime_append hds.1 hc (fun _ => ⟨hdash, hcolon⟩) cs

theorem readMagnitude_append (hds : Plain ds) (hc : Json.isDigit c = false) (hunderscore : c ≠ '_')
    (cs : List Char) :
    readMagnitude (ds ++ c :: cs) = (readDoubleTail (c :: cs)).map fun r =>
      (Decimal.nearest (inBase 10 (ds ++ r.1.1)) (r.1.2 - r.1.1.length), r.2) := by
  have hplain := readPlainDigits_append hds hc hunderscore cs
  obtain ⟨d, rest, rfl, hd⟩ := hds.exists_cons
  rw [readMagnitude.eq_3, hplain]
  · cases htail : readDoubleTail (c :: cs) <;>
      simp only [Option.bind_eq_bind, Option.bind_some, htail] <;> rfl
  · intro es heq
    exact ne_of_kind hd rfl (List.cons.inj heq).1
  · intro es heq
    exact ne_of_kind hd rfl (List.cons.inj heq).1

/-! ## Integers -/

theorem readFloat_integer (hds : Plain ds) (negative : Bool) (cs : List Char) :
    readFloat (signed negative (ds ++ '\n' :: cs)) = none := by
  have htail : readDoubleTail ('\n' :: cs) = none := rfl
  have hmagnitude := readMagnitude_append hds (c := '\n') rfl (by decide) cs
  rw [htail, Option.map_none] at hmagnitude
  simp only [readFloat, readSign_signed hds, hmagnitude]
  rfl

theorem readDecimal_signed (hds : Plain ds) (negative : Bool) (cs : List Char) :
    readDecimal (signed negative (ds ++ '\n' :: cs)) =
      some (if negative then -Int.ofNat (inBase 10 ds) else Int.ofNat (inBase 10 ds),
        '\n' :: cs) := by
  simp only [readDecimal, readSign_signed hds,
    readPlainDigits_append hds (c := '\n') rfl (by decide) cs]
  rfl

theorem readAnyInteger_signed (hds : Plain ds) (negative : Bool) (cs : List Char) :
    readAnyInteger (signed negative (ds ++ '\n' :: cs)) =
      readDecimal (signed negative (ds ++ '\n' :: cs)) := by
  have hbase {mark : Char} (hne : '\n' ≠ mark)
      (es : List Char) : signed negative (ds ++ '\n' :: cs) ≠ '0' :: mark :: es := by
    intro heq
    obtain ⟨hdigits, rfl | ⟨d, rest, rfl, hd⟩⟩ := hds
    · cases negative with
      | true => exact absurd (List.cons.inj heq).1 (by decide)
      | false => exact hne (List.cons.inj (List.cons.inj heq).2).1
    · cases negative with
      | true => exact absurd (List.cons.inj heq).1 (by decide)
      | false => exact hd (List.cons.inj heq).1
  exact readAnyInteger.eq_4 _ (hbase (by decide)) (hbase (by decide)) (hbase (by decide))

end Plain

/-- An integer is read as it is written before the end of a line. -/
theorem readNumber_integer {n : ℤ} (hn : Decimal.fitsInt64 n = true) (cs : List Char) :
    readNumber ((toString n).toList ++ '\n' :: cs) = some (.integer n, '\n' :: cs) := by
  have hds := Decimal.plain_toDigits n.natAbs
  have htext : (toString n).toList ++ '\n' :: cs =
      signed (decide (n < 0)) (Nat.toDigits 10 n.natAbs ++ '\n' :: cs) := by
    rw [Decimal.toList_toString_int, Decimal.signed_append]
  have hinteger : readInteger (signed (decide (n < 0)) (Nat.toDigits 10 n.natAbs ++ '\n' :: cs)) =
      some (n, '\n' :: cs) := by
    rw [readInteger, readAnyInteger_signed hds, readDecimal_signed hds,
      inBase_of_digits (Decimal.digits_toDigits _), Decimal.signed_natAbs, Option.filter_some,
      if_pos hn]
  rw [htext, readNumber, readDateTime_signed hds rfl (by decide) (by decide),
    readFloat_integer hds, hinteger]
  rfl

/-! ## Doubles -/

theorem readDoubleTail_fraction {ds : List Char} (hds : AllDigits ds) (hne : ds ≠ [])
    (cs : List Char) :
    readDoubleTail ('.' :: (ds ++ '\n' :: cs)) = some ((ds, 0), '\n' :: cs) := by
  have hrun := readDigitRun_append hds hne (c := '\n') rfl (by decide) cs
  have hexponent : readExponent ('\n' :: cs) = none := rfl
  simp only [readDoubleTail, readFraction, hrun, hexponent]

theorem toList_write_fractional {x : Float} (hx : x.isFinite = true) :
    (Decimal.fractional.write x).toList =
      signed (Decimal.isNegative x)
        (Decimal.fractional.set (Decimal.shortest Decimal.tiesUp x)) := by
  obtain ⟨hnan, hinf⟩ := Decimal.not_special_of_isFinite hx
  simp only [Decimal.Layout.write, hnan, hinf, Bool.false_eq_true, if_false, String.toList_ofList]
  unfold signed
  split <;> rfl

theorem setsPoint_fractional (d : Decimal.Scientific) :
    SetsPoint (Decimal.fractional.set d) d.value :=
  (Decimal.set_cases rfl d).resolve_right fun h => nomatch h.1

/-- A double is read as it is written before the end of a line. -/
theorem readNumber_float {x : Float} (hx : x.isFinite = true) (cs : List Char) :
    readNumber ((Decimal.fractional.write x).toList ++ '\n' :: cs) =
      some (.float x, '\n' :: cs) := by
  obtain ⟨whole, fraction, n, htext, hplain, hdigits, hnonempty, hn, hvalue⟩ :=
    setsPoint_fractional (Decimal.shortest Decimal.tiesUp x)
  have hline : (Decimal.fractional.write x).toList ++ '\n' :: cs =
      signed (Decimal.isNegative x) (whole ++ '.' :: (fraction ++ '\n' :: cs)) := by
    rw [toList_write_fractional hx, htext, Decimal.signed_append, List.append_assoc,
      List.cons_append]
  have hnearest := Decimal.nearest_of_value_eq hx hvalue
  have hmagnitude := readMagnitude_append hplain (c := '.') rfl (by decide) (fraction ++ '\n' :: cs)
  rw [readDoubleTail_fraction hdigits hnonempty, Option.map_some] at hmagnitude
  simp only [zero_sub, inBase_of_digits hn] at hmagnitude
  generalize Decimal.nearest n (-(fraction.length : ℤ)) = y at *
  have hfinite : (y.isInf && !Decimal.isNegative x) = false := by
    cases hsign : Decimal.isNegative x with
    | true => exact Bool.and_false _
    | false =>
        rw [hsign, if_neg Bool.false_ne_true] at hnearest
        rw [hnearest, (Decimal.not_special_of_isFinite hx).2]
        rfl
  have hfloat :
      readFloat (signed (Decimal.isNegative x) (whole ++ '.' :: (fraction ++ '\n' :: cs))) =
      some (x, '\n' :: cs) := by
    simp only [readFloat, readSign_signed hplain, hmagnitude, Option.bind_eq_bind, Option.bind_some,
      hfinite, Bool.false_and, Bool.false_eq_true, if_false, hnearest]
    rfl
  rw [hline, readNumber, readDateTime_signed hplain rfl (by decide) (by decide), hfloat]

end Vigil.Toml
