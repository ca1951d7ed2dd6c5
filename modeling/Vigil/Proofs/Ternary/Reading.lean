import Mathlib.Data.List.TakeWhile
import Vigil.Proofs.Decimal.Integer
import Vigil.Ternary.Reading

/-!
# What reads as a judgment

A text reads as a judgment if it is, up to the blanks around it, the tag in any mixture of
cases or a numeral of the integer.  What does not is reported by the integer it denotes, if
that has sixty-four bits, and by itself otherwise.
-/

namespace Vigil

namespace Text

/-- A text without the blanks around it. -/
structure Stripped (cs inner : List Char) : Prop where
  around : ∃ before after, cs = before ++ inner ++ after ∧
    (∀ c ∈ before, isBlank c = true) ∧ ∀ c ∈ after, isBlank c = true
  first : ∀ c ∈ inner.head?, isBlank c = false
  last : ∀ c ∈ inner.getLast?, isBlank c = false

theorem exists_blank_append_dropWhile (cs : List Char) :
    ∃ before, cs = before ++ cs.dropWhile isBlank ∧ ∀ c ∈ before, isBlank c = true :=
  ⟨cs.takeWhile isBlank, List.takeWhile_append_dropWhile.symm, fun _ => List.mem_takeWhile_imp⟩

theorem isBlank_of_mem_head?_dropWhile {cs : List Char} {c : Char}
    (h : c ∈ (cs.dropWhile isBlank).head?) : isBlank c = false := by
  have hhead := List.head?_dropWhile_not isBlank cs
  rw [Option.mem_def.mp h] at hhead
  simpa using hhead

theorem stripped_trim (cs : List Char) : Stripped cs (trim cs) := by
  obtain ⟨before, hcs, hbefore⟩ := exists_blank_append_dropWhile cs
  obtain ⟨after, hrest, hafter⟩ := exists_blank_append_dropWhile (cs.dropWhile isBlank).reverse
  have hinner : cs.dropWhile isBlank = trim cs ++ after.reverse := by
    rw [← List.reverse_inj, List.reverse_append, List.reverse_reverse, trim, List.reverse_reverse]
    exact hrest
  constructor
  · refine ⟨before, after.reverse, ?_, hbefore, ?_⟩
    · rw [List.append_assoc, ← hinner]
      exact hcs
    · exact fun c hc => hafter c (List.mem_reverse.mp hc)
  · intro c hc
    have hhead : c ∈ (cs.dropWhile isBlank).head? := by
      rw [hinner, List.head?_append, Option.mem_def.mp hc]
      rfl
    exact isBlank_of_mem_head?_dropWhile hhead
  · intro c hc
    rw [trim, List.getLast?_reverse] at hc
    exact isBlank_of_mem_head?_dropWhile hc

theorem dropWhile_isBlank_append {before : List Char} (hbefore : ∀ c ∈ before, isBlank c = true)
    {cs : List Char} (hcs : ∀ c ∈ cs.head?, isBlank c = false) :
    (before ++ cs).dropWhile isBlank = cs := by
  rw [List.dropWhile_append_of_pos hbefore]
  cases cs with
  | nil => rfl
  | cons c cs => exact List.dropWhile_cons_of_neg (by simp [hcs c rfl])

/-- Only one text is left without the blanks. -/
theorem Stripped.trim_eq {cs inner : List Char} (h : Stripped cs inner) : trim cs = inner := by
  obtain ⟨⟨before, after, rfl, hbefore, hafter⟩, hfirst, hlast⟩ := h
  cases inner with
  | nil =>
      rw [trim_eq_nil_iff, List.all_eq_true]
      intro c hc
      rw [List.append_nil, List.mem_append] at hc
      exact hc.elim (hbefore c) (hafter c)
  | cons d ds =>
      have hhead : ∀ c ∈ (d :: ds ++ after).head?, isBlank c = false := hfirst
      have hback : ∀ c ∈ after.reverse, isBlank c = true :=
        fun c hc => hafter c (List.mem_reverse.mp hc)
      have hend : ∀ c ∈ (d :: ds).reverse.head?, isBlank c = false := by
        rwa [List.head?_reverse]
      rw [trim, List.append_assoc, dropWhile_isBlank_append hbefore hhead, List.reverse_append,
        dropWhile_isBlank_append hback hend, List.reverse_reverse]

theorem stripped_iff {cs inner : List Char} : Stripped cs inner ↔ inner = trim cs := by
  constructor
  · exact fun h => h.trim_eq.symm
  · rintro rfl
    exact stripped_trim cs

end Text

namespace Ternary

/-! ## Tags -/

/-- A text is the tag of a judgment, up to ASCII case. -/
def Spells (cs : List Char) (v : Ternary) : Prop :=
  cs.map Char.toLower = v.tag.toList.map Char.toLower

theorem cases_of_ascii : ∀ n < 128, (capital (Char.ofNat n)).toLower = (Char.ofNat n).toLower ∧
    capital (Char.ofNat n).toLower = capital (Char.ofNat n) := by
  decide +kernel

theorem capital_of_not_ascii {c : Char} (hc : 128 ≤ c.toNat) : capital c = c := by
  have hnot : ¬ ('a' ≤ c ∧ c ≤ 'z') := by
    rintro ⟨-, hle⟩
    have hz : c.toNat ≤ 122 := hle
    omega
  rw [capital, if_neg hnot]

theorem toLower_of_not_ascii {c : Char} (hc : 128 ≤ c.toNat) : c.toLower = c := by
  unfold Char.toLower
  split
  · rename_i h
    have hz : c.toNat ≤ 90 := h.2
    omega
  · rfl

theorem toLower_capital (c : Char) : (capital c).toLower = c.toLower := by
  rcases Nat.lt_or_ge c.toNat 128 with hlt | hge
  · simpa using (cases_of_ascii c.toNat hlt).1
  · rw [capital_of_not_ascii hge]

theorem capital_toLower (c : Char) : capital c.toLower = capital c := by
  rcases Nat.lt_or_ge c.toNat 128 with hlt | hge
  · simpa using (cases_of_ascii c.toNat hlt).2
  · rw [toLower_of_not_ascii hge]

theorem map_capital_tag (v : Ternary) : v.tag.toList.map capital = v.tag.toList := by
  cases v <;> decide

theorem spells_iff {cs : List Char} {v : Ternary} :
    Spells cs v ↔ cs.map capital = v.tag.toList := by
  constructor
  · intro h
    have hcapital := congrArg (List.map capital) h
    simp only [List.map_map, Function.comp_def, capital_toLower] at hcapital
    rw [hcapital, map_capital_tag]
  · intro h
    have hlower := congrArg (List.map Char.toLower) h
    simp only [List.map_map, Function.comp_def, toLower_capital] at hlower
    exact hlower

theorem ofSpelling?_eq_some_iff {cs : List Char} {v : Ternary} :
    ofSpelling? cs = some v ↔ Spells cs v := by
  rw [spells_iff]
  constructor
  · intro h
    have hfound := List.find?_some h
    exact (eq_of_beq hfound).symm
  · intro h
    rw [ofSpelling?, h]
    cases v <;> decide

theorem ofSpelling?_eq_none_iff {cs : List Char} :
    ofSpelling? cs = none ↔ ∀ v, ¬ Spells cs v := by
  simp only [Option.eq_none_iff_forall_ne_some, ne_eq, ofSpelling?_eq_some_iff]

/-! ## Integers -/

theorem integer?_eq_some_iff {cs : List Char} {n : ℤ} :
    integer? cs = some n ↔ Decimal.Numeral cs n ∧ Decimal.fitsInt64 n = true := by
  rw [integer?, Option.filter_eq_some_iff, Decimal.readInteger_eq_some_iff]

theorem fitsInt64_toInt (v : Ternary) : Decimal.fitsInt64 v.toInt = true := by
  cases v <;> decide

theorem ofInt_cases (n : ℤ) :
    (∃ v : Ternary, n = v.toInt ∧ ofInt n = .ok v) ∨
    ((∀ v : Ternary, n ≠ v.toInt) ∧ ofInt n = .error (.value (toString n))) := by
  by_cases hjudgment : ∃ v : Ternary, n = v.toInt
  · obtain ⟨v, rfl⟩ := hjudgment
    exact Or.inl ⟨v, rfl, ofInt_toInt v⟩
  · push Not at hjudgment
    have h₁ : n ≠ -1 := hjudgment negative
    have h₂ : n ≠ 0 := hjudgment neutral
    have h₃ : n ≠ 1 := hjudgment positive
    exact Or.inr ⟨hjudgment, by rw [ofInt, if_neg h₁, if_neg h₂, if_neg h₃]⟩

theorem ofInt_eq_ok_iff {n : ℤ} {v : Ternary} : ofInt n = .ok v ↔ n = v.toInt := by
  constructor
  · intro h
    rcases ofInt_cases n with ⟨w, hw, hok⟩ | ⟨-, herror⟩
    · cases hok.symm.trans h
      exact hw
    · cases herror.symm.trans h
  · rintro rfl
    exact ofInt_toInt v

theorem ofInt_eq_error_iff {n : ℤ} {e : Error} :
    ofInt n = .error e ↔ (∀ v : Ternary, n ≠ v.toInt) ∧ e = .value (toString n) := by
  rcases ofInt_cases n with ⟨w, hw, hok⟩ | ⟨hnone, herror⟩
  · rw [hok]
    exact ⟨nofun, fun h => absurd hw (h.1 w)⟩
  · rw [herror, Except.error.injEq, eq_comm]
    exact ⟨fun h => ⟨hnone, h⟩, fun h => h.2⟩

/-- No numeral is the tag of a judgment. -/
theorem not_spells_of_numeral {cs : List Char} {n : ℤ} (h : Decimal.Numeral cs n) (v : Ternary) :
    ¬ Spells cs v := by
  intro hspells
  obtain ⟨d, hd, hmem⟩ := h.exists_digit
  have htag : d.digitChar.toLower ∈ v.tag.toList.map Char.toLower :=
    hspells ▸ List.mem_map_of_mem hmem
  have hno : ∀ d < 10, d.digitChar.toLower ∉ v.tag.toList.map Char.toLower := by
    cases v <;> decide
  exact hno d hd htag

theorem isBlank_of_mem_numeral {cs : List Char} {n : ℤ} (h : Decimal.Numeral cs n) {c : Char}
    (hc : c ∈ cs) : Text.isBlank c = false := by
  have hdigit : ∀ d < 10, Text.isBlank d.digitChar = false := by decide
  rcases h.cases_of_mem hc with rfl | rfl | ⟨d, hd, rfl⟩
  · rfl
  · rfl
  · exact hdigit d hd

/-! ## Judgments -/

theorem parse_of_spells {s : String} {v : Ternary} (h : Spells (Text.trim s.toList) v) :
    parse s = .ok v := by
  rw [parse, ofSpelling?_eq_some_iff.mpr h]

theorem parse_of_numeral {s : String} {n : ℤ} (h : Decimal.Numeral (Text.trim s.toList) n)
    (hn : Decimal.fitsInt64 n = true) : parse s = ofInt n := by
  simp only [parse, ofSpelling?_eq_none_iff.mpr (not_spells_of_numeral h),
    integer?_eq_some_iff.mpr ⟨h, hn⟩]

theorem parse_of_neither {s : String} (hspells : ∀ v, ¬ Spells (Text.trim s.toList) v)
    (hnumeral : ∀ n, Decimal.Numeral (Text.trim s.toList) n → Decimal.fitsInt64 n = false) :
    parse s = .error (.value s) := by
  have hnone : integer? (Text.trim s.toList) = none := by
    rw [Option.eq_none_iff_forall_ne_some]
    intro n hn
    obtain ⟨hnum, hfits⟩ := integer?_eq_some_iff.mp hn
    rw [hnumeral n hnum] at hfits
    cases hfits
  simp only [parse, ofSpelling?_eq_none_iff.mpr hspells, hnone]

/-- The three ways a text can be read. -/
theorem parse_cases (s : String) :
    (∃ v, Spells (Text.trim s.toList) v ∧ parse s = .ok v) ∨
    (∃ n, Decimal.Numeral (Text.trim s.toList) n ∧ Decimal.fitsInt64 n = true ∧
      parse s = ofInt n) ∨
    ((∀ v, ¬ Spells (Text.trim s.toList) v) ∧
      (∀ n, Decimal.Numeral (Text.trim s.toList) n → Decimal.fitsInt64 n = false) ∧
      parse s = .error (.value s)) := by
  by_cases hspells : ∃ v, Spells (Text.trim s.toList) v
  · obtain ⟨v, hv⟩ := hspells
    exact Or.inl ⟨v, hv, parse_of_spells hv⟩
  · by_cases hnumeral :
        ∃ n, Decimal.Numeral (Text.trim s.toList) n ∧ Decimal.fitsInt64 n = true
    · obtain ⟨n, hn, hfits⟩ := hnumeral
      exact Or.inr (Or.inl ⟨n, hn, hfits, parse_of_numeral hn hfits⟩)
    · push Not at hspells hnumeral
      have hbeyond : ∀ n, Decimal.Numeral (Text.trim s.toList) n →
          Decimal.fitsInt64 n = false := fun n hn => Bool.eq_false_iff.mpr (hnumeral n hn)
      exact Or.inr (Or.inr ⟨hspells, hbeyond, parse_of_neither hspells hbeyond⟩)

theorem parse_eq_ok_iff {s : String} {v : Ternary} :
    parse s = .ok v ↔
      Spells (Text.trim s.toList) v ∨ Decimal.Numeral (Text.trim s.toList) v.toInt := by
  constructor
  · intro h
    rcases parse_cases s with ⟨w, hw, hparse⟩ | ⟨n, hn, -, hparse⟩ | ⟨-, -, hparse⟩
    · cases hparse.symm.trans h
      exact Or.inl hw
    · rw [hparse, ofInt_eq_ok_iff] at h
      exact Or.inr (h ▸ hn)
    · cases hparse.symm.trans h
  · rintro (h | h)
    · exact parse_of_spells h
    · rw [parse_of_numeral h (fitsInt64_toInt v), ofInt_toInt]

theorem parse_eq_error_iff {s : String} {e : Error} :
    parse s = .error e ↔
      (∀ v : Ternary, ¬ (Spells (Text.trim s.toList) v ∨
        Decimal.Numeral (Text.trim s.toList) v.toInt)) ∧
      ((∃ n, Decimal.Numeral (Text.trim s.toList) n ∧ Decimal.fitsInt64 n = true ∧
          e = .value (toString n)) ∨
        (∀ n, Decimal.Numeral (Text.trim s.toList) n → Decimal.fitsInt64 n = false) ∧
          e = .value s) := by
  constructor
  · intro h
    constructor
    · intro v hv
      rw [parse_eq_ok_iff.mpr hv] at h
      cases h
    · rcases parse_cases s with ⟨v, -, hparse⟩ | ⟨n, hn, hfits, hparse⟩ | ⟨-, hbeyond, hparse⟩
      · cases hparse.symm.trans h
      · rw [hparse, ofInt_eq_error_iff] at h
        exact Or.inl ⟨n, hn, hfits, h.2⟩
      · cases hparse.symm.trans h
        exact Or.inr ⟨hbeyond, rfl⟩
  · rintro ⟨hnone, ⟨n, hn, hfits, rfl⟩ | ⟨hbeyond, rfl⟩⟩
    · rw [parse_of_numeral hn hfits, ofInt_eq_error_iff]
      refine ⟨?_, rfl⟩
      rintro v rfl
      exact hnone v (Or.inr hn)
    · exact parse_of_neither (fun v hv => hnone v (Or.inl hv)) hbeyond

/-- Between blanks a printed integer is what is left when they are stripped. -/
theorem stripped_toString (n : ℤ) {before after : String}
    (hbefore : Text.isAllBlank before = true) (hafter : Text.isAllBlank after = true) :
    Text.Stripped (before ++ toString n ++ after).toList (toString n).toList := by
  have hnumeral := Decimal.numeral_toString n
  refine ⟨⟨before.toList, after.toList, ?_, ?_, ?_⟩, ?_, ?_⟩
  · rw [String.toList_append, String.toList_append]
  · exact (Text.isAllBlank_eq_true_iff before).mp hbefore
  · exact (Text.isAllBlank_eq_true_iff after).mp hafter
  · exact fun c hc => isBlank_of_mem_numeral hnumeral (List.mem_of_mem_head? hc)
  · exact fun c hc => isBlank_of_mem_numeral hnumeral (List.mem_of_mem_getLast? hc)

theorem parse_toString {n : ℤ} (hfits : Decimal.fitsInt64 n = true) {before after : String}
    (hbefore : Text.isAllBlank before = true) (hafter : Text.isAllBlank after = true) :
    parse (before ++ toString n ++ after) = ofInt n := by
  apply parse_of_numeral _ hfits
  rw [(stripped_toString n hbefore hafter).trim_eq]
  exact Decimal.numeral_toString n

/-- A text reads as a judgment if, without the blanks around it, it is the tag up to case or a
numeral of the integer.  Else it is reported by the integer that it denotes, if there is one of
sixty-four bits, and just as it is otherwise.  So the decimal of an integer of sixty-four bits
reads, with any blanks around it, as the integer itself does. -/
theorem parse_follows_grammar :
    (∀ s : String, ∃ inner, (∀ t, Text.Stripped s.toList t ↔ t = inner) ∧
      (∀ v, parse s = .ok v ↔ Spells inner v ∨ Decimal.Numeral inner v.toInt) ∧
      ∀ e, parse s = .error e ↔
        (∀ v : Ternary, ¬ (Spells inner v ∨ Decimal.Numeral inner v.toInt)) ∧
        ((∃ n, Decimal.Numeral inner n ∧ Decimal.fitsInt64 n = true ∧ e = .value (toString n)) ∨
          (∀ n, Decimal.Numeral inner n → Decimal.fitsInt64 n = false) ∧ e = .value s)) ∧
    ∀ (n : ℤ) (before after : String), Decimal.fitsInt64 n = true →
      Text.isAllBlank before = true → Text.isAllBlank after = true →
      parse (before ++ toString n ++ after) = ofInt n := by
  constructor
  · intro s
    exact ⟨Text.trim s.toList, fun t => Text.stripped_iff, fun v => parse_eq_ok_iff,
      fun e => parse_eq_error_iff⟩
  · intro n before after hfits hbefore hafter
    exact parse_toString hfits hbefore hafter

/-- The least integer of sixty-four bits is read between two kinds of blanks, and refused as the
number that it is. -/
theorem parse_follows_grammar_least :
    Decimal.fitsInt64 Decimal.minInt64 = true ∧
      parse ("\u00a0\t" ++ toString Decimal.minInt64 ++ "\u3000") =
        .error (.value "-9223372036854775808") := by
  have hfits : Decimal.fitsInt64 Decimal.minInt64 = true := by decide
  have hparse := parse_follows_grammar.2 Decimal.minInt64 "\u00a0\t" "\u3000" hfits
    (by decide) (by decide)
  exact ⟨hfits, hparse⟩

end Ternary
end Vigil
