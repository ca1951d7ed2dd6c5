import Vigil.Toml.Document
import Vigil.Toml.Writer

/-!
# Strings in a document

A string that is written in any of the four quotings is read back as it is.  Between
single quotes nothing is escaped, so the quoting is only taken for what can stand there.
Between double quotes a character is written as itself or as an escape that stands for
it.  Quotes that stand before the closing three count as text, which is why no more than
two may do so.
-/

namespace Vigil.Toml

/-! ## Escapes -/

/-- One of the four digits of a code point. -/
def hexDigit (n : Nat) : Char := (Nat.digitChar n).toUpper

theorem hexFour?_hexFour : ∀ n < 128, Json.hexFour? (hexDigit (n / 4096))
    (hexDigit (n / 256 % 16)) (hexDigit (n / 16 % 16)) (hexDigit (n % 16)) = some n := by
  decide +kernel

theorem toNat_lt_of_needsEscape {c : Char} (h : needsEscape c = true) : c.toNat < 128 := by
  unfold needsEscape at h
  simp only [Bool.or_eq_true, Bool.and_eq_true, decide_eq_true_eq, beq_iff_eq] at h
  omega

theorem isLineChar_of_shown {c : Char} (h : needsEscape c = false) (hline : c ≠ '\n') :
    isLineChar c = true := by
  unfold needsEscape at h
  unfold isLineChar
  by_cases htab : c = '\t'
  · simp [htab]
  · simp_all

theorem scalar?_toNat (c : Char) : scalar? c.toNat = some c := by
  have hvalid : c.toNat.isValidChar := c.valid
  rw [scalar?, if_pos hvalid, Char.ofNat_toNat]

theorem endsLine_of_escape? {e c : Char} (h : escape? e = some c) (cs : List Char) :
    endsLine (e :: cs) = false := by
  unfold escape? at h
  split at h <;> first | rfl | cases h

/-- A character is escaped by a letter or by its code point, or stands as it is. -/
theorem escapeChar_cases (longForm : Bool) (c : Char) :
    (∃ e, escapeChar longForm c = ['\\', e] ∧ escape? e = some c) ∨
    (escapeChar longForm c = '\\' :: 'u' :: hexFour c.toNat ∧ c.toNat < 128) ∨
    (escapeChar longForm c = [c] ∧ c ≠ '\\' ∧ c ≠ '\r' ∧
      (isLineChar c = true ∨ longForm = true ∧ c = '\n')) := by
  unfold escapeChar
  iterate 2
    split
    · rename_i h
      subst h
      exact .inl ⟨_, rfl, rfl⟩
  split
  · rename_i h
    subst h
    split
    · exact .inr (.inr ⟨rfl, by decide, by decide, .inr ⟨‹_›, rfl⟩⟩)
    · exact .inl ⟨_, rfl, rfl⟩
  iterate 3
    split
    · rename_i h
      subst h
      exact .inl ⟨_, rfl, rfl⟩
  split
  · exact .inr (.inl ⟨rfl, toNat_lt_of_needsEscape ‹_›⟩)
  · refine .inr (.inr ⟨rfl, ‹_›, ‹_›, .inl (isLineChar_of_shown ?_ ‹_›)⟩)
    simpa using ‹¬ needsEscape c = true›

/-! ## One line -/

theorem readBasic_escape {e c : Char} (h : escape? e = some c) (cs : List Char) :
    readBasic ('\\' :: e :: cs) = prepend (some c) (readBasic cs) := by
  rw [readBasic.eq_5, h]
  · rintro _ _ _ _ _ rfl
    cases h
  · rintro _ _ _ _ _ _ _ _ _ rfl
    cases h

theorem readBasic_lineChar {c : Char} (hquote : c ≠ '"') (hslash : c ≠ '\\')
    (hline : isLineChar c = true) (cs : List Char) :
    readBasic (c :: cs) = prepend (some c) (readBasic cs) := by
  rw [readBasic.eq_6, if_pos hline]
  · exact hquote
  · exact fun _ _ _ _ _ h => absurd h hslash
  · exact fun _ _ _ _ _ _ _ _ _ h => absurd h hslash
  · exact fun _ _ h => absurd h hslash

theorem readBasic_escapeChar {c : Char} (hquote : c ≠ '"') (cs : List Char) :
    readBasic (escapeChar false c ++ cs) = prepend (some c) (readBasic cs) := by
  rcases escapeChar_cases false c with
    ⟨e, htext, he⟩ | ⟨htext, hlt⟩ | ⟨htext, hslash, -, hline | ⟨hfalse, -⟩⟩
  · rw [htext]
    exact readBasic_escape he cs
  · rw [htext]
    change readBasic ('\\' :: 'u' :: hexDigit _ :: hexDigit _ :: hexDigit _ :: hexDigit _ :: cs) = _
    rw [readBasic, hexFour?_hexFour _ hlt, Option.bind_some, scalar?_toNat]
  · rw [htext]
    exact readBasic_lineChar hquote hslash hline cs
  · cases hfalse

theorem readBasic_escapeText (text cs : List Char) :
    readBasic (escapeText false (spareQuotes false) text ++ '"' :: cs) = some (text, cs) := by
  induction text with
  | nil => rfl
  | cons c text ih =>
      unfold escapeText
      split
      · rename_i hquote
        subst hquote
        rw [spareQuotes, if_neg Bool.false_ne_true, List.cons_append, List.cons_append,
          readBasic_escape rfl]
        exact congrArg (prepend (some '"')) ih
      · rw [List.append_assoc, readBasic_escapeChar ‹_›, ih]
        rfl

theorem readLiteral_append {text : List Char}
    (h : ∀ c ∈ text, needsEscape c = false ∧ c ≠ '\n' ∧ c ≠ '\'') (cs : List Char) :
    readLiteral (text ++ '\'' :: cs) = some (text, cs) := by
  induction text with
  | nil => rfl
  | cons c text ih =>
      obtain ⟨hshown, hline, hquote⟩ := h c List.mem_cons_self
      rw [List.cons_append, readLiteral, if_pos (isLineChar_of_shown hshown hline),
        ih fun d hd => h d (List.mem_cons_of_mem _ hd)]
      · rfl
      · exact hquote

/-! ## Many lines -/

section Long

variable {cs : List Char}

theorem readClosing_of_ne {quote : Char} (count : Nat) (hcount : count ≤ 2)
    (hcs : cs.head? ≠ some quote) :
    readClosing quote (List.replicate count quote ++ cs) = (List.replicate count quote, cs) := by
  have htake : cs.takeWhile (· == quote) = [] := by
    cases cs with
    | nil => rfl
    | cons c cs =>
        have hne : c ≠ quote := fun h => hcs (congrArg some h)
        exact List.takeWhile_cons_of_neg (by simpa using hne)
  have hrun : (List.replicate count quote ++ cs).takeWhile (· == quote) =
      List.replicate count quote := by
    rw [List.takeWhile_append_of_pos (by simp), htake, List.append_nil]
  rw [readClosing, hrun, List.length_replicate, Nat.min_eq_right hcount, List.drop_left' (by simp)]

/-- Quotes before the closing three may as well stand after them. -/
theorem closing_comm (quote : Char) (count : Nat) (cs : List Char) :
    List.replicate count quote ++ quote :: quote :: quote :: cs =
      quote :: quote :: quote :: (List.replicate count quote ++ cs) := by
  rw [List.append_cons, ← List.replicate_succ', List.append_cons, ← List.replicate_succ',
    List.append_cons, ← List.replicate_succ']
  rfl

theorem readLongBasic_escape {e c : Char} (h : escape? e = some c) (cs : List Char) :
    readLongBasic false ('\\' :: e :: cs) = prepend (some c) (readLongBasic false cs) := by
  rw [readLongBasic.eq_6, endsLine_of_escape? h, h]
  · rfl
  · rintro _ _ _ _ _ rfl
    cases h
  · rintro _ _ _ _ _ _ _ _ _ rfl
    cases h

theorem readLongBasic_shown {c : Char} (hslash : c ≠ '\\') (hreturn : c ≠ '\r')
    (hline : isLineChar c = true ∨ c = '\n')
    (hquotes : c = '"' → ∀ rest, cs ≠ '"' :: '"' :: rest) :
    readLongBasic false (c :: cs) = prepend (some c) (readLongBasic false cs) := by
  rw [readLongBasic.eq_7, Bool.false_and, if_neg Bool.false_ne_true,
    if_pos (by simpa using hline)]
  · exact fun rest h => hquotes h rest
  · exact fun _ h => absurd h hreturn
  · exact fun _ _ _ _ _ h => absurd h hslash
  · exact fun _ _ _ _ _ _ _ _ _ h => absurd h hslash
  · exact fun _ _ h => absurd h hslash

theorem readLongBasic_escapeChar {c : Char} (hquote : c ≠ '"') (cs : List Char) :
    readLongBasic false (escapeChar true c ++ cs) =
      prepend (some c) (readLongBasic false cs) := by
  rcases escapeChar_cases true c with
    ⟨e, htext, he⟩ | ⟨htext, hlt⟩ | ⟨htext, hslash, hreturn, hline⟩
  · rw [htext]
    exact readLongBasic_escape he cs
  · rw [htext]
    change readLongBasic false
      ('\\' :: 'u' :: hexDigit _ :: hexDigit _ :: hexDigit _ :: hexDigit _ :: cs) = _
    rw [readLongBasic, hexFour?_hexFour _ hlt, Option.bind_some, scalar?_toNat]
  · rw [htext]
    exact readLongBasic_shown hslash hreturn (hline.imp id And.right)
      fun h => absurd h hquote

/-- Neither an escaped quote nor the written form of another character begins with a
quote. -/
theorem head?_escapeText_ne {c : Char} {room : Nat} (h : c = '"' → room = 0) (longForm : Bool)
    (text cs : List Char) : (escapeText longForm room (c :: text) ++ cs).head? ≠ some '"' := by
  unfold escapeText
  split
  · rw [h ‹_›]
    simp
  · rename_i hquote
    rcases escapeChar_cases longForm c with ⟨e, htext, -⟩ | ⟨htext, -⟩ | ⟨htext, -⟩ <;>
      simp [htext, hquote]

theorem ne_cons_of_head? {quote : Char} (h : cs.head? ≠ some quote) (rest : List Char) :
    cs ≠ quote :: rest := by
  rintro rfl
  exact h rfl

theorem readLongBasic_closing (count : Nat) (hcount : count ≤ 2) (hcs : cs.head? ≠ some '"') :
    readLongBasic false (List.replicate count '"' ++ '"' :: '"' :: '"' :: cs) =
      some (List.replicate count '"', cs) := by
  rw [closing_comm, readLongBasic, readClosing_of_ne count hcount hcs]

theorem escapeText_of_ne {c : Char} (h : c ≠ '"') (longForm : Bool) (room : Nat)
    (text : List Char) : escapeText longForm room (c :: text) =
      escapeChar longForm c ++ escapeText longForm (spareQuotes longForm) text := by
  cases room with
  | zero => rw [escapeText.eq_2, if_neg h]
  | succ room => rw [escapeText.eq_3, if_neg h]

theorem escapeText_quote_zero (longForm : Bool) (text : List Char) :
    escapeText longForm 0 ('"' :: text) =
      '\\' :: '"' :: escapeText longForm (spareQuotes longForm) text := by
  rw [escapeText.eq_2, if_pos rfl]

theorem escapeText_quote_succ (longForm : Bool) (room : Nat) (text : List Char) :
    escapeText longForm (room + 1) ('"' :: text) = '"' :: escapeText longForm room text := by
  rw [escapeText.eq_3, if_pos rfl]

/-- Behind a quote that stands as it is, two more only stand at the end of the text. -/
theorem escapeText_behind_quote {room : Nat} (hroom : room ≤ 1) {text : List Char}
    (hend : text ≠ []) (hpair : room = 1 → text ≠ ['"']) (tail rest : List Char) :
    escapeText true room text ++ tail ≠ '"' :: '"' :: rest := by
  match text with
  | [] => exact absurd rfl hend
  | c :: text =>
      by_cases hraw : c = '"' ∧ room = 1
      · obtain ⟨rfl, rfl⟩ := hraw
        match text with
        | [] => exact absurd rfl (hpair rfl)
        | d :: text =>
            rw [escapeText_quote_succ, List.cons_append]
            intro h
            exact ne_cons_of_head? (head?_escapeText_ne (fun _ => rfl) true text tail) rest
              (List.cons.inj h).2
      · refine ne_cons_of_head? (head?_escapeText_ne (fun hquote => ?_) true text tail) _
        have hone : room ≠ 1 := fun h => hraw ⟨hquote, h⟩
        omega

/-- Quotes that stand as they are either end the text, and then the closing three take
them along, or have another character behind the second of them at the latest. -/
theorem readLongBasic_escapeText (hcs : cs.head? ≠ some '"') (text : List Char) (room : Nat)
    (hroom : room ≤ 2) :
    readLongBasic false (escapeText true room text ++ '"' :: '"' :: '"' :: cs) =
      some (text, cs) := by
  induction text generalizing room with
  | nil => exact readLongBasic_closing 0 (by decide) hcs
  | cons c text ih =>
      have hspare : spareQuotes true ≤ 2 := by decide
      by_cases hquote : c = '"'
      · subst hquote
        cases room with
        | zero =>
            rw [escapeText_quote_zero, List.cons_append, List.cons_append,
              readLongBasic_escape rfl, ih _ hspare]
            rfl
        | succ room =>
            rw [escapeText_quote_succ, List.cons_append]
            by_cases hend : text = []
            · subst hend
              exact readLongBasic_closing 1 (by decide) hcs
            by_cases hpair : room = 1 ∧ text = ['"']
            · obtain ⟨rfl, rfl⟩ := hpair
              exact readLongBasic_closing 2 (by decide) hcs
            have hbehind := escapeText_behind_quote (by omega) hend (fun h ht => hpair ⟨h, ht⟩)
              ('"' :: '"' :: '"' :: cs)
            rw [readLongBasic_shown (by decide) (by decide) (.inl (by decide)) fun _ => hbehind,
              ih _ (by omega)]
            rfl
      · rw [escapeText_of_ne hquote, List.append_assoc, readLongBasic_escapeChar hquote,
          ih _ hspare]
        rfl

theorem readLongLiteral_closing (count : Nat) (hcount : count ≤ 2) (hcs : cs.head? ≠ some '\'') :
    readLongLiteral (List.replicate count '\'' ++ '\'' :: '\'' :: '\'' :: cs) =
      some (List.replicate count '\'', cs) := by
  rw [closing_comm, readLongLiteral, readClosing_of_ne count hcount hcs]

theorem readLongLiteral_shown {c : Char} (hreturn : c ≠ '\r')
    (hline : isLineChar c = true ∨ c = '\n')
    (hquotes : c = '\'' → ∀ rest, cs ≠ '\'' :: '\'' :: rest) :
    readLongLiteral (c :: cs) = prepend (some c) (readLongLiteral cs) := by
  rw [readLongLiteral.eq_4, if_pos (by simpa using hline)]
  · exact fun rest h => hquotes h rest
  · exact fun _ h => absurd h hreturn

theorem hasThree_tail {mark c : Char} {text : List Char} (h : hasThree mark (c :: text) = false) :
    hasThree mark text = false := by
  match text with
  | [] | [_] => rfl
  | _ :: _ :: _ => exact (Bool.or_eq_false_iff.mp h).2

theorem append_behind_quote {text : List Char} (hend : text ≠ []) (hpair : text ≠ ['\''])
    (hthree : hasThree '\'' ('\'' :: text) = false) (tail rest : List Char) :
    text ++ tail ≠ '\'' :: '\'' :: rest := by
  match text with
  | [] => exact absurd rfl hend
  | [c] =>
      rintro ⟨⟩
      exact hpair rfl
  | c :: d :: text =>
      rintro ⟨⟩
      exact Bool.false_ne_true hthree.symm

theorem readLongLiteral_append (hcs : cs.head? ≠ some '\'') {text : List Char}
    (hshown : ∀ c ∈ text, needsEscape c = false) (hthree : hasThree '\'' text = false) :
    readLongLiteral (text ++ '\'' :: '\'' :: '\'' :: cs) = some (text, cs) := by
  induction text with
  | nil => exact readLongLiteral_closing 0 (by decide) hcs
  | cons c text ih =>
      have hc : needsEscape c = false := hshown c List.mem_cons_self
      have hreturn : c ≠ '\r' := by
        rintro rfl
        exact Bool.false_ne_true hc.symm
      have hline : isLineChar c = true ∨ c = '\n' := by
        by_cases h : c = '\n'
        · exact .inr h
        · exact .inl (isLineChar_of_shown hc h)
      by_cases hends : c = '\'' ∧ (text = [] ∨ text = ['\''])
      · obtain ⟨rfl, rfl | rfl⟩ := hends
        · exact readLongLiteral_closing 1 (by decide) hcs
        · exact readLongLiteral_closing 2 (by decide) hcs
      have hquotes : c = '\'' →
          ∀ rest, text ++ '\'' :: '\'' :: '\'' :: cs ≠ '\'' :: '\'' :: rest := by
        rintro rfl
        exact append_behind_quote (fun h => hends ⟨rfl, .inl h⟩) (fun h => hends ⟨rfl, .inr h⟩)
          hthree _
      rw [List.cons_append, readLongLiteral_shown hreturn hline hquotes,
        ih (fun d hd => hshown d (List.mem_cons_of_mem _ hd)) (hasThree_tail hthree)]
      rfl

end Long

/-! ## Every quoting -/

/-- What a text holds when it is set in a quoting, and that the line end behind the
opening quotes comes only with three of them. -/
theorem quotingOf_cases (text : List Char) :
    (quotingOf text = .basic ∧ '\n' ∉ text) ∨
    (quotingOf text = .literal ∧ '\n' ∉ text ∧ '\'' ∉ text ∧ ∀ c ∈ text, needsEscape c = false) ∨
    quotingOf text = .longBasic ∨
    (quotingOf text = .longLiteral ∧ hasThree '\'' text = false ∧
      ∀ c ∈ text, needsEscape c = false) := by
  unfold quotingOf
  dsimp only
  split
  · rename_i h
    simp only [Bool.and_eq_true, Bool.not_eq_true', List.contains_eq_mem, decide_eq_false_iff_not]
      at h
    exact .inl ⟨rfl, h.2⟩
  split
  · rename_i h
    simp only [Bool.and_eq_true, Bool.not_eq_true', List.contains_eq_mem, decide_eq_false_iff_not,
      List.any_eq_false] at h
    exact .inr (.inl ⟨rfl, h.2, h.1.2, by simpa using h.1.1⟩)
  split
  · exact .inr (.inr (.inl rfl))
  split
  · rename_i h
    simp only [Bool.and_eq_true, Bool.not_eq_true', List.any_eq_false] at h
    exact .inr (.inr (.inr ⟨rfl, h.2, by simpa using h.1⟩))
  split
  · rename_i h
    simp only [Bool.not_eq_true', List.contains_eq_mem, decide_eq_false_iff_not] at h
    exact .inl ⟨rfl, h⟩
  · exact .inr (.inr (.inl rfl))

theorem toList_writeString (s : String) :
    (writeString s).toList = (quotingOf s.toList).delimiter.toList ++
      ((if '\n' ∈ s.toList then ['\n'] else []) ++ ((quotingOf s.toList).body s.toList ++
        (quotingOf s.toList).delimiter.toList)) := by
  unfold writeString
  simp only [String.toList_append, String.toList_ofList, List.append_assoc, List.contains_eq_mem,
    decide_eq_true_eq]
  split <;> rfl

theorem skipFirstNewline_of_head? {cs : List Char} (hline : cs.head? ≠ some '\n')
    (hreturn : cs.head? ≠ some '\r') : skipFirstNewline cs = cs := by
  match cs with
  | [] => rfl
  | c :: cs =>
      unfold skipFirstNewline
      split
      · rename_i h
        cases h
        exact absurd rfl hline
      · rename_i h
        cases h
        exact absurd rfl hreturn
      · rfl

theorem head?_escapeText_ne_lineEnd {text : List Char} (h : '\n' ∉ text) (tail : List Char) :
    (escapeText true (spareQuotes true) text ++ '"' :: tail).head? ≠ some '\n' ∧
      (escapeText true (spareQuotes true) text ++ '"' :: tail).head? ≠ some '\r' := by
  match text with
  | [] => exact ⟨by simp [escapeText], by simp [escapeText]⟩
  | c :: text =>
      by_cases hquote : c = '"'
      · subst hquote
        rw [spareQuotes, if_pos rfl, escapeText_quote_succ]
        exact ⟨by simp, by simp⟩
      · have hline : c ≠ '\n' := fun hc => h (by rw [hc]; exact List.mem_cons_self)
        rw [escapeText_of_ne hquote]
        rcases escapeChar_cases true c with ⟨e, htext, -⟩ | ⟨htext, -⟩ | ⟨htext, -, hreturn, -⟩
        · simp [htext]
        · simp [htext]
        · simp [htext, hline, hreturn]

/-- The line end behind the opening quotes is written, and left out again, only for a
text with line ends; any other text begins otherwise. -/
theorem skipFirstNewline_opening {text : List Char} {rest : List Char}
    (h : '\n' ∉ text → rest.head? ≠ some '\n' ∧ rest.head? ≠ some '\r') :
    skipFirstNewline ((if '\n' ∈ text then ['\n'] else []) ++ rest) = rest := by
  split
  · rfl
  · obtain ⟨hline, hreturn⟩ := h ‹_›
    exact skipFirstNewline_of_head? hline hreturn

theorem readString_basic (text cs : List Char) :
    readString ('"' :: (escapeText false (spareQuotes false) text ++ '"' :: '\n' :: cs)) =
      some (text, '\n' :: cs) := by
  have hone : ∀ rest, escapeText false (spareQuotes false) text ++ '"' :: '\n' :: cs ≠
      '"' :: '"' :: rest := by
    match text with
    | [] =>
        rintro rest ⟨⟩
    | c :: text =>
        intro rest
        exact ne_cons_of_head? (head?_escapeText_ne (fun _ => rfl) false text _) _
  rw [readString.eq_2 _ hone, readBasic_escapeText]

theorem readString_literal {text : List Char} (hline : '\n' ∉ text) (hquote : '\'' ∉ text)
    (hshown : ∀ c ∈ text, needsEscape c = false) (cs : List Char) :
    readString ('\'' :: (text ++ '\'' :: '\n' :: cs)) = some (text, '\n' :: cs) := by
  have hone : ∀ rest, text ++ '\'' :: '\n' :: cs ≠ '\'' :: '\'' :: rest := by
    match text with
    | [] =>
        rintro rest ⟨⟩
    | c :: text =>
        intro rest h
        rw [List.cons_append] at h
        exact hquote (by rw [(List.cons.inj h).1]; exact List.mem_cons_self)
  rw [readString.eq_4 _ hone, readLiteral_append]
  exact fun c hc => ⟨hshown c hc, fun h => hline (h ▸ hc), fun h => hquote (h ▸ hc)⟩

theorem readString_longBasic (text cs : List Char) :
    readString ('"' :: '"' :: '"' :: ((if '\n' ∈ text then ['\n'] else []) ++
      (escapeText true (spareQuotes true) text ++ '"' :: '"' :: '"' :: '\n' :: cs))) =
        some (text, '\n' :: cs) := by
  rw [readString, skipFirstNewline_opening fun hline => head?_escapeText_ne_lineEnd hline _]
  exact readLongBasic_escapeText (by simp) text _ (by decide)

theorem readString_longLiteral {text : List Char} (hthree : hasThree '\'' text = false)
    (hshown : ∀ c ∈ text, needsEscape c = false) (cs : List Char) :
    readString ('\'' :: '\'' :: '\'' :: ((if '\n' ∈ text then ['\n'] else []) ++
      (text ++ '\'' :: '\'' :: '\'' :: '\n' :: cs))) = some (text, '\n' :: cs) := by
  have hopening : '\n' ∉ text →
      (text ++ '\'' :: '\'' :: '\'' :: '\n' :: cs).head? ≠ some '\n' ∧
        (text ++ '\'' :: '\'' :: '\'' :: '\n' :: cs).head? ≠ some '\r' := by
    intro hline
    match text with
    | [] => exact ⟨by simp, by simp⟩
    | c :: text =>
        have hc : needsEscape c = false := hshown c List.mem_cons_self
        refine ⟨fun h => hline ?_, fun h => ?_⟩
        · rw [← Option.some.inj h]
          exact List.mem_cons_self
        · rw [Option.some.inj h] at hc
          exact Bool.false_ne_true hc.symm
  rw [readString, skipFirstNewline_opening hopening]
  exact readLongLiteral_append (by simp) hshown hthree

theorem readString_writeString (s : String) (cs : List Char) :
    readString ((writeString s).toList ++ '\n' :: cs) = some (s.toList, '\n' :: cs) := by
  rw [toList_writeString]
  generalize s.toList = text
  rcases quotingOf_cases text with
    ⟨hquoting, hline⟩ | ⟨hquoting, hline, hquote, hshown⟩ | hquoting | ⟨hquoting, hthree, hshown⟩
  · rw [hquoting, if_neg hline]
    simpa [Quoting.delimiter, Quoting.body] using readString_basic text cs
  · rw [hquoting, if_neg hline]
    simpa [Quoting.delimiter, Quoting.body] using readString_literal hline hquote hshown cs
  · rw [hquoting]
    simpa [Quoting.delimiter, Quoting.body] using readString_longBasic text cs
  · rw [hquoting]
    simpa [Quoting.delimiter, Quoting.body] using readString_longLiteral hthree hshown cs

theorem head?_writeString (s : String) :
    ∃ cs, (writeString s).toList = '"' :: cs ∨ (writeString s).toList = '\'' :: cs := by
  rw [toList_writeString]
  cases quotingOf s.toList with
  | basic => exact ⟨_, .inl rfl⟩
  | literal => exact ⟨_, .inr rfl⟩
  | longBasic => exact ⟨_, .inl rfl⟩
  | longLiteral => exact ⟨_, .inr rfl⟩

end Vigil.Toml
