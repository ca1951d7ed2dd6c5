import Vigil.Json.Writer
import Vigil.Proofs.Decimal.Figures

/-!
# Strings and numbers in a text

A string that is written is read back as it is: a character stands for itself or behind a
backslash, and no escape of the writer is half of a pair of surrogates.  A whole number is
read back as it is.  A double is read back as a decimal that is worth as much as its
shortest one, whether it has a point or an exponent.
-/

namespace Vigil.Json

open Decimal (AllDigits Plain Digits signed ne_of_kind)

/-! ## Strings -/

theorem hexFour?_hexDigit : ∀ n < 0x20,
    hexFour? '0' '0' (hexDigit (n / 16)) (hexDigit (n % 16)) = some n := by
  decide

/-- A character is escaped by a letter or by its code point, or stands as it is. -/
theorem escapeChar_cases (c : Char) :
    (∃ e, escapeChar c = ['\\', e] ∧ e ≠ 'u' ∧ shortEscape? e = some c) ∨
    (c.toNat < 0x20 ∧ escapeChar c =
      ['\\', 'u', '0', '0', hexDigit (c.toNat / 16), hexDigit (c.toNat % 16)]) ∨
    (escapeChar c = [c] ∧ c ≠ '"' ∧ c ≠ '\\' ∧ ¬ c.toNat < 0x20) := by
  unfold escapeChar
  -- seven characters have a letter for an escape
  iterate 7
    split
    · rename_i h
      subst h
      exact .inl ⟨_, rfl, by decide, rfl⟩
  split
  · exact .inr (.inl ⟨‹_›, rfl⟩)
  · exact .inr (.inr ⟨rfl, ‹_›, ‹_›, ‹_›⟩)

theorem readText_escapeChar (c : Char) (cs : List Char) :
    readText none (escapeChar c ++ cs) = prepend (some c) (readText none cs) := by
  rcases escapeChar_cases c with
    ⟨e, htext, hu, he⟩ | ⟨hlt, htext⟩ | ⟨htext, hquote, hslash, hshown⟩
  · rw [htext]
    change readText none ('\\' :: e :: cs) = _
    rw [readText.eq_4, he]
    · rfl
    · rintro _ _ _ _ _ rfl
      exact absurd rfl hu
  · have hhigh : isHighSurrogate c.toNat = false := by
      simp only [isHighSurrogate, Bool.and_eq_false_iff, decide_eq_false_iff_not]
      omega
    have hlow : isLowSurrogate c.toNat = false := by
      simp only [isLowSurrogate, Bool.and_eq_false_iff, decide_eq_false_iff_not]
      omega
    rw [htext]
    change readText none ('\\' :: 'u' :: '0' :: '0' :: hexDigit _ :: hexDigit _ :: cs) = _
    simp only [readText, hexFour?_hexDigit _ hlt, hhigh, hlow, Bool.false_eq_true, if_false,
      Char.ofNat_toNat]
    rfl
  · rw [htext]
    change readText none (c :: cs) = _
    rw [readText.eq_5, if_neg hshown]
    · rfl
    · exact hquote
    · exact fun _ _ _ _ _ h => absurd h hslash
    · exact fun _ _ h => absurd h hslash

theorem readText_flatMap (text cs : List Char) :
    readText none (text.flatMap escapeChar ++ '"' :: cs) = some (some text, cs) := by
  induction text with
  | nil => rfl
  | cons c text ih =>
      rw [List.flatMap_cons, List.append_assoc, readText_escapeChar, ih]
      rfl

theorem toList_writeText (s : String) :
    (writeText s).toList = '"' :: (s.toList.flatMap escapeChar ++ ['"']) := by
  rw [writeText, String.toList_ofList, List.cons_append]

/-! ## Numbers -/

/-- What may follow a value: the end of the text, a comma, or the end of a line. -/
def Ends (cs : List Char) : Prop := ∀ c, cs.head? = some c → c = ',' ∨ c = '\n'

theorem Ends.nil : Ends [] := fun _ h => nomatch h

theorem ends_comma (cs : List Char) : Ends (',' :: cs) := by
  rintro c ⟨⟩
  exact .inl rfl

theorem ends_line (cs : List Char) : Ends ('\n' :: cs) := by
  rintro c ⟨⟩
  exact .inr rfl

/-- A text that does not go on with a character of a kind. -/
def StopsAt (p : Char → Bool) (cs : List Char) : Prop := ∀ c, cs.head? = some c → p c = false

theorem Ends.stopsAt {cs : List Char} (h : Ends cs) {p : Char → Bool} (hcomma : p ',' = false)
    (hline : p '\n' = false) : StopsAt p cs := by
  intro c hc
  rcases h c hc with rfl | rfl
  · exact hcomma
  · exact hline

theorem stopsAt_cons {p : Char → Bool} {c : Char} (hc : p c = false) (cs : List Char) :
    StopsAt p (c :: cs) := by
  rintro d ⟨⟩
  exact hc

section Digits

variable {ds cs : List Char}

theorem takeWhile_digits (hds : AllDigits ds) (hcs : StopsAt isDigit cs) :
    (ds ++ cs).takeWhile isDigit = ds := by
  rw [List.takeWhile_append_of_pos hds]
  cases cs with
  | nil => simp
  | cons c cs => rw [List.takeWhile_cons_of_neg (by simp [hcs c rfl]), List.append_nil]

theorem dropWhile_digits (hds : AllDigits ds) (hcs : StopsAt isDigit cs) :
    (ds ++ cs).dropWhile isDigit = cs := by
  rw [List.dropWhile_append_of_pos hds]
  cases cs with
  | nil => rfl
  | cons c cs => exact List.dropWhile_cons_of_neg (by simp [hcs c rfl])

theorem digitsValue_of_digits {n : ℕ} (h : Digits ds n) : digitsValue ds = n := by
  have hne : ds ≠ [] := by
    rintro rfl
    obtain ⟨d, -, hd⟩ := h.exists_digit
    exact List.not_mem_nil hd
  have hread := Decimal.readNatural_of_digits h
  rw [Decimal.readNatural_of_ne_nil hne] at hread
  rw [digitsValue, hread, Option.getD_some]

theorem isEmpty_eq_false {α : Type} {xs : List α} (h : xs ≠ []) : xs.isEmpty = false := by
  cases xs with
  | nil => exact absurd rfl h
  | cons x xs => rfl

theorem readMinus_signed (hds : Plain ds) (negative : Bool) :
    readMinus (signed negative (ds ++ cs)) = (negative, ds ++ cs) := by
  cases negative with
  | true => rfl
  | false =>
      obtain ⟨d, rest, rfl, hd⟩ := hds.exists_cons
      exact readMinus.eq_2 _ fun es heq => ne_of_kind hd rfl (List.cons.inj heq).1

/-- The digits before the point are taken as they are. -/
theorem readNumeral_signed (hds : Plain ds) (hcs : StopsAt isDigit cs) (negative : Bool) :
    readNumeral (signed negative (ds ++ cs)) = (readFraction cs).bind fun f =>
      (readExponent f.2).map fun e =>
        ({ negative
           digits := digitsValue (ds ++ f.1)
           exponent := e.1.getD 0 - f.1.length
           whole := f.1.isEmpty && e.1.isNone }, e.2) := by
  have hplain : (ds.isEmpty || (ds.head? == some '0' && ds.length != 1)) = false := by
    obtain ⟨-, rfl | ⟨c, es, rfl, hc⟩⟩ := hds
    · rfl
    · simp [hc]
  unfold readNumeral
  simp only [readMinus_signed hds, takeWhile_digits hds.1 hcs, dropWhile_digits hds.1 hcs, hplain,
    Bool.false_eq_true, if_false]
  cases readFraction cs with
  | none => rfl
  | some f =>
      obtain ⟨fraction, after⟩ := f
      cases hexponent : readExponent after with
      | none => simp [hexponent]
      | some e => simp [hexponent]

theorem readFraction_of_stopsAt (hcs : StopsAt (· == '.') cs) :
    readFraction cs = some ([], cs) := by
  rw [readFraction.eq_2]
  rintro rest rfl
  exact absurd (hcs '.' rfl) (by decide)

theorem readFraction_point (hds : AllDigits ds) (hne : ds ≠ []) (hcs : StopsAt isDigit cs) :
    readFraction ('.' :: (ds ++ cs)) = some (ds, cs) := by
  simp only [readFraction, takeWhile_digits hds hcs, dropWhile_digits hds hcs,
    isEmpty_eq_false hne, Bool.false_eq_true, if_false]

theorem readExponent_of_ends (hcs : Ends cs) : readExponent cs = some (none, cs) := by
  cases cs with
  | nil => rfl
  | cons c cs =>
      have hmark : ¬ (c = 'e' ∨ c = 'E') := by
        rcases hcs c rfl with rfl | rfl <;> decide
      exact if_neg hmark

theorem readSign_signed (hds : Plain ds) (negative : Bool) :
    readSign (signed negative (ds ++ cs)) = (if negative then -1 else 1, ds ++ cs) := by
  cases negative with
  | true => rfl
  | false =>
      obtain ⟨d, rest, rfl, hd⟩ := hds.exists_cons
      exact readSign.eq_3 _ (fun es heq => ne_of_kind hd rfl (List.cons.inj heq).1)
        fun es heq => ne_of_kind hd rfl (List.cons.inj heq).1

/-- An exponent is read as the integer that is written. -/
theorem readExponent_toString (n : ℤ) (hcs : Ends cs) :
    readExponent ('e' :: ((toString n).toList ++ cs)) = some (some n, cs) := by
  have hds := Decimal.plain_toDigits n.natAbs
  have hstops : StopsAt isDigit cs := hcs.stopsAt rfl rfl
  have hempty : (Nat.toDigits 10 n.natAbs).isEmpty = false := by
    obtain ⟨d, rest, hcons, -⟩ := hds.exists_cons
    rw [hcons]
    rfl
  have hvalue : (if decide (n < 0) = true then -1 else 1) * (n.natAbs : ℤ) = n := by
    split <;> rename_i h <;> rw [decide_eq_true_eq] at h <;> omega
  rw [Decimal.toList_toString_int, Decimal.signed_append]
  simp only [readExponent, true_or, if_true, readSign_signed hds,
    takeWhile_digits hds.1 hstops, dropWhile_digits hds.1 hstops, hempty, Bool.false_eq_true,
    if_false, digitsValue_of_digits (Decimal.digits_toDigits _), hvalue]

/-! ## Whole numbers -/

theorem readNumeral_ofInt (n : ℤ) (hcs : Ends cs) :
    readNumeral ((writeNumeral (.ofInt n)).toList ++ cs) = some (.ofInt n, cs) := by
  have htext : (writeNumeral (.ofInt n)).toList ++ cs =
      signed (decide (n < 0)) (Nat.toDigits 10 n.natAbs ++ cs) := by
    rw [← Decimal.signed_append, writeNumeral, String.toList_ofList]
    rfl
  rw [htext, readNumeral_signed (Decimal.plain_toDigits _) (hcs.stopsAt rfl rfl),
    readFraction_of_stopsAt (hcs.stopsAt rfl rfl), Option.bind_some, readExponent_of_ends hcs,
    Option.map_some, List.append_nil, digitsValue_of_digits (Decimal.digits_toDigits _)]
  rfl

/-! ## Doubles -/

/-- What a text of a double is read as: a decimal that has this double as the nearest. -/
def IsDecimalOf (n : Numeral) (x : Float) : Prop := n.whole = false ∧ n.signedNearest = x

theorem isDecimalOf {x : Float} (hx : x.isFinite = true) {n : ℕ} {f : ℤ}
    (hvalue : (n : ℚ) * 10 ^ f = (Decimal.shortest Decimal.tiesToEven x).value) :
    IsDecimalOf ⟨Decimal.isNegative x, n, f, false⟩ x :=
  ⟨rfl, Decimal.nearest_of_value_eq hx hvalue⟩

theorem toList_writeNumeral_ofFloat (x : Float) :
    (writeNumeral (.ofFloat x)).toList = signed (Decimal.isNegative x)
      (Decimal.compact.set (Decimal.shortest Decimal.tiesToEven x)) := by
  rw [writeNumeral, String.toList_ofList]
  rfl

/-- The digits of a decimal with an exponent are read as they are. -/
theorem readNumeral_setExponent (n : ℕ) (p : ℤ) (negative : Bool) (hcs : Ends cs) :
    readNumeral (signed negative (Decimal.setExponent (Nat.toDigits 10 n) p ++ cs)) =
      some (⟨negative, n, p - (Nat.toDigits 10 n).length, false⟩, cs) := by
  have hplain := Decimal.plain_toDigits n
  have hvalue := digitsValue_of_digits (Decimal.digits_toDigits n)
  generalize Nat.toDigits 10 n = ds at hplain hvalue
  obtain ⟨d, fraction, rfl, hd⟩ := hplain.exists_cons
  have hfirst : Plain [d] := by
    have := hplain.take (k := 1) (by decide)
    simpa using this
  have hfraction : AllDigits fraction := fun c hc => hplain.1 c (List.mem_cons_of_mem _ hc)
  have hexponent := readExponent_toString (p - 1) hcs
  have hlength : p - 1 - (fraction.length : ℤ) = p - ((d :: fraction).length : ℤ) := by
    rw [List.length_cons]
    push_cast
    ring
  cases fraction with
  | nil =>
      change readNumeral (signed negative ([d] ++ ('e' :: ((toString (p - 1)).toList ++ cs)))) = _
      rw [readNumeral_signed hfirst (stopsAt_cons rfl _),
        readFraction_of_stopsAt (stopsAt_cons rfl _), Option.bind_some, hexponent, Option.map_some,
        List.append_nil, hvalue]
      simp only [Option.getD_some, hlength, Option.isNone_some, Bool.and_false]
  | cons e es =>
      have htext : Decimal.setExponent (d :: e :: es) p ++ cs =
          [d] ++ '.' :: (e :: es ++ ('e' :: ((toString (p - 1)).toList ++ cs))) := by
        simp [Decimal.setExponent]
      rw [htext, readNumeral_signed hfirst (stopsAt_cons rfl _),
        readFraction_point hfraction (List.cons_ne_nil _ _) (stopsAt_cons rfl _),
        Option.bind_some, hexponent, Option.map_some, List.singleton_append, hvalue]
      simp only [Option.getD_some, hlength, Option.isNone_some, Bool.and_false]

theorem readNumeral_ofFloat {x : Float} (hx : x.isFinite = true) : ∃ n, IsDecimalOf n x ∧
    ∀ cs, Ends cs → readNumeral ((writeNumeral (.ofFloat x)).toList ++ cs) = some (n, cs) := by
  rw [toList_writeNumeral_ofFloat]
  rcases Decimal.set_cases (l := Decimal.compact) rfl
      (Decimal.shortest Decimal.tiesToEven x) with
    ⟨whole, fraction, n, htext, hplain, hdigits, hne, hn, hvalue⟩ | ⟨hpositional, htext⟩
  · refine ⟨_, isDecimalOf hx hvalue, fun cs hcs => ?_⟩
    rw [Decimal.signed_append, htext, List.append_assoc, List.cons_append,
      readNumeral_signed hplain (stopsAt_cons rfl _),
      readFraction_point hdigits hne (hcs.stopsAt rfl rfl), Option.bind_some,
      readExponent_of_ends hcs, Option.map_some, digitsValue_of_digits hn]
    simp only [Option.getD_none, zero_sub, isEmpty_eq_false hne, Bool.false_and]
  · have hpos : 0 < (Decimal.shortest Decimal.tiesToEven x).digits := by
      rw [Nat.pos_iff_ne_zero]
      intro hzero
      rw [Decimal.Scientific.point, if_pos hzero] at hpositional
      cases hpositional
    refine ⟨_, isDecimalOf hx rfl, fun cs hcs => ?_⟩
    rw [Decimal.signed_append, htext, Decimal.figures, readNumeral_setExponent _ _ _ hcs,
      Decimal.Scientific.point, if_neg hpos.ne', Int.ofNat_eq_natCast, Decimal.figures,
      add_sub_cancel_right]

theorem exists_set_eq_cons (d : Decimal.Scientific) :
    ∃ c cs, Decimal.compact.set d = c :: cs ∧ isDigit c = true := by
  rcases Decimal.set_cases (l := Decimal.compact) rfl d with
    ⟨whole, fraction, n, htext, hplain, -⟩ | ⟨-, htext⟩
  · obtain ⟨c, cs, rfl, hc⟩ := hplain.exists_cons
    exact ⟨c, _, htext, hc⟩
  · obtain ⟨c, cs, hdigits, hc⟩ := (Decimal.plain_toDigits d.digits).exists_cons
    rw [htext, Decimal.figures, hdigits]
    exact ⟨c, _, rfl, hc⟩

end Digits

end Vigil.Json
