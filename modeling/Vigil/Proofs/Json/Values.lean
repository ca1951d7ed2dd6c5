import Mathlib.Data.List.Forall2
import Vigil.Proofs.Json.Scalars

/-!
# Values in a text

Items and fields are written on lines of their own.  Each line has a reader that takes
exactly that line, so the lines of an array or an object are read one after the other, and
a value is read back by induction on how deep it nests.  Every second nested call of the
reader takes a character, which is why its fuel lasts.
-/

namespace Vigil.Json

/-- A text that is read as a value before whatever may follow one. -/
structure Reads (text : List Char) (j : Json) : Prop where
  begins : ∃ c cs, text = c :: cs ∧ isSpace c = false ∧ c ≠ ']'
  read : ∀ fuel cs, Ends cs → 2 * text.length ≤ fuel →
    readValue fuel (text ++ cs) = some (j, cs)

/-! ## Blanks -/

/-- So many blanks. -/
def blanks (k : ℕ) : List Char := List.replicate k ' '

theorem toList_indentation (depth : ℕ) : (indentation depth).toList = blanks (2 * depth) := by
  rw [indentation, String.toList_ofList, blanks]

theorem skipSpace_cons {c : Char} (hc : isSpace c = false) (cs : List Char) :
    skipSpace (c :: cs) = c :: cs :=
  List.dropWhile_cons_of_neg (by simp [hc])

theorem isSpace_comma : isSpace ',' = false := rfl

theorem isSpace_bracket : isSpace ']' = false := rfl

theorem isSpace_brace : isSpace '\x7d' = false := rfl

theorem skipSpace_line (cs : List Char) : skipSpace ('\n' :: cs) = skipSpace cs :=
  List.dropWhile_cons_of_pos rfl

theorem skipSpace_skipSpace (cs : List Char) : skipSpace (skipSpace cs) = skipSpace cs :=
  List.dropWhile_idempotent _ cs

theorem skipSpace_blanks (k : ℕ) (cs : List Char) : skipSpace (blanks k ++ cs) = skipSpace cs :=
  List.dropWhile_append_of_pos fun c hc => by rw [List.eq_of_mem_replicate hc]; rfl

/-- Blanks before a value make no difference. -/
theorem readValue_skipSpace (fuel : ℕ) (cs : List Char) :
    readValue fuel (skipSpace cs) = readValue fuel cs := by
  cases fuel with
  | zero => rfl
  | succ fuel => rw [readValue, readValue, skipSpace_skipSpace]

theorem readItems_skipSpace (fuel : ℕ) (cs : List Char) :
    readItems fuel (skipSpace cs) = readItems fuel cs := by
  cases fuel with
  | zero => rfl
  | succ fuel => rw [readItems, readItems, readValue_skipSpace]

theorem readFields_skipSpace (fuel : ℕ) (cs : List Char) :
    readFields fuel (skipSpace cs) = readFields fuel cs := by
  cases fuel with
  | zero => rfl
  | succ fuel => rw [readFields, readFields, skipSpace_skipSpace]

namespace Reads

variable {text : List Char} {j : Json}

theorem skipSpace_eq (h : Reads text j) (cs : List Char) : skipSpace (text ++ cs) = text ++ cs := by
  obtain ⟨c, rest, rfl, hc, -⟩ := h.begins
  exact skipSpace_cons hc _

theorem read_blanks (h : Reads text j) (k fuel : ℕ) {cs : List Char} (hcs : Ends cs)
    (hfuel : 2 * text.length ≤ fuel) :
    readValue fuel (blanks k ++ (text ++ cs)) = some (j, cs) := by
  rw [← readValue_skipSpace, skipSpace_blanks, h.skipSpace_eq, h.read fuel cs hcs hfuel]

/-- It is enough to look at a positive fuel and at a text that begins with no blank. -/
theorem of_cons {c : Char} {cs : List Char} (hc : isSpace c = false) (hbracket : c ≠ ']')
    (hread : ∀ fuel after, Ends after → 2 * cs.length ≤ fuel →
      readValue (fuel + 1) (c :: (cs ++ after)) = some (j, after)) : Reads (c :: cs) j where
  begins := ⟨c, cs, rfl, hc, hbracket⟩
  read fuel after hafter hfuel := by
    rw [List.length_cons] at hfuel
    obtain ⟨fuel, rfl⟩ : ∃ n, fuel = n + 1 := ⟨fuel - 1, by omega⟩
    exact hread fuel after hafter (by omega)

end Reads

/-! ## Values that do not nest -/

theorem reads_null : Reads "null".toList .null :=
  .of_cons rfl (by decide) fun _ _ _ _ => rfl

theorem reads_boolean (b : Bool) :
    Reads (if b then "true" else "false" : String).toList (.boolean b) := by
  cases b with
  | true => exact .of_cons rfl (by decide) fun _ _ _ _ => rfl
  | false => exact .of_cons rfl (by decide) fun _ _ _ _ => rfl

theorem reads_string (s : String) : Reads (writeText s).toList (.string s) := by
  rw [toList_writeText]
  refine .of_cons rfl (by decide) fun fuel cs _ _ => ?_
  rw [readValue, skipSpace_cons rfl, List.append_assoc, List.singleton_append]
  simp only [readText_flatMap, Option.map_some, ofText, String.ofList_toList]

/-- A character that a number begins with. -/
def BeginsNumeral (c : Char) : Prop := c = '-' ∨ isDigit c = true

theorem BeginsNumeral.ne {c d : Char} (hc : BeginsNumeral c) (hminus : d ≠ '-')
    (hdigit : isDigit d = false) : c ≠ d := by
  rintro rfl
  rcases hc with rfl | hc
  · exact hminus rfl
  · exact Decimal.ne_of_kind hc hdigit rfl

theorem isSpace_iff (c : Char) :
    isSpace c = true ↔ c = ' ' ∨ c = '\t' ∨ c = '\n' ∨ c = '\r' := by
  simp [isSpace, or_assoc]

theorem BeginsNumeral.isSpace_eq_false {c : Char} (hc : BeginsNumeral c) : isSpace c = false := by
  rw [← Bool.not_eq_true, isSpace_iff]
  rintro (h | h | h | h)
  all_goals exact hc.ne (by decide) rfl h

theorem readValue_numeral {c : Char} (hc : BeginsNumeral c) (fuel : ℕ) (cs : List Char) :
    readValue (fuel + 1) (c :: cs) = (readNumeral (c :: cs)).map fun r => (.number r.1, r.2) := by
  rw [readValue, skipSpace_cons hc.isSpace_eq_false]
  split
  case h_7 => rfl
  all_goals exact absurd (List.cons.inj ‹_›).1 (hc.ne (by decide) rfl)

theorem reads_numeral {text : List Char} {n : Numeral}
    (hbegins : ∃ c cs, text = c :: cs ∧ BeginsNumeral c)
    (hread : ∀ cs, Ends cs → readNumeral (text ++ cs) = some (n, cs)) :
    Reads text (.number n) := by
  obtain ⟨c, cs, rfl, hc⟩ := hbegins
  refine .of_cons hc.isSpace_eq_false (hc.ne (by decide) rfl) fun fuel after hafter _ => ?_
  have hnumeral := hread after hafter
  rw [List.cons_append] at hnumeral
  rw [readValue_numeral hc, hnumeral, Option.map_some]

theorem exists_signed_eq_cons {ds : List Char} (h : ∃ c cs, ds = c :: cs ∧ isDigit c = true)
    (negative : Bool) :
    ∃ c cs, Decimal.signed negative ds = c :: cs ∧ BeginsNumeral c := by
  cases negative with
  | true => exact ⟨'-', ds, rfl, .inl rfl⟩
  | false =>
      obtain ⟨c, cs, rfl, hc⟩ := h
      exact ⟨c, cs, rfl, .inr hc⟩

theorem reads_integer (n : ℤ) : Reads (writeNumeral (.ofInt n)).toList (.ofInt n) := by
  refine reads_numeral ?_ fun cs hcs => readNumeral_ofInt n hcs
  rw [writeNumeral, String.toList_ofList]
  exact exists_signed_eq_cons (Decimal.plain_toDigits _).exists_cons _

theorem reads_float {x : Float} (hx : x.isFinite = true) :
    ∃ n, IsDecimalOf n x ∧ Reads (writeNumeral (.ofFloat x)).toList (.number n) := by
  obtain ⟨n, hn, hread⟩ := readNumeral_ofFloat hx
  refine ⟨n, hn, reads_numeral ?_ hread⟩
  rw [toList_writeNumeral_ofFloat]
  exact exists_signed_eq_cons (exists_set_eq_cons _) _

/-! ## Lines -/

/-- Parts on lines of their own between a first line and a last one. -/
def listing (depth : ℕ) (closing : Char) : List Char → List (List Char) → List Char
  | part, [] => blanks (2 * (depth + 1)) ++ (part ++ '\n' :: (blanks (2 * depth) ++ [closing]))
  | part, next :: parts =>
      blanks (2 * (depth + 1)) ++ (part ++ ',' :: '\n' :: listing depth closing next parts)

theorem toList_indented (depth : ℕ) {opening closing : String} {o c : Char}
    (hopening : opening.toList = [o]) (hclosing : closing.toList = [c]) (part : String)
    (parts : List String) : (indented depth opening closing (part :: parts)).toList =
      o :: '\n' :: listing depth c part.toList (parts.map String.toList) := by
  have hlines (part : String) (parts : List String) :
      (",\n".intercalate
          ((part :: parts).map fun part => indentation (depth + 1) ++ part)).toList ++
          '\n' :: (blanks (2 * depth) ++ [c]) =
        listing depth c part.toList (parts.map String.toList) := by
    induction parts generalizing part with
    | nil => simp [listing, toList_indentation]
    | cons next parts ih =>
        have hrest := ih next
        simp only [List.map_cons, listing] at hrest ⊢
        rw [← hrest, String.intercalate_cons_cons]
        simp [toList_indentation]
  rw [← hlines]
  simp [indented, toList_indentation, hopening, hclosing]

theorem listing_nil_append (depth : ℕ) (closing : Char) (part cs : List Char) :
    listing depth closing part [] ++ cs = blanks (2 * (depth + 1)) ++
      (part ++ '\n' :: (blanks (2 * depth) ++ closing :: cs)) := by
  simp [listing]

theorem listing_cons_append (depth : ℕ) (closing : Char) (part next : List Char)
    (parts : List (List Char)) (cs : List Char) :
    listing depth closing part (next :: parts) ++ cs = blanks (2 * (depth + 1)) ++
      (part ++ ',' :: '\n' :: (listing depth closing next parts ++ cs)) := by
  simp [listing]

/-- Fuel for a listing is fuel for its first part, after one call. -/
theorem exists_succ_of_listing {depth fuel : ℕ} {closing : Char} {part : List Char}
    {parts : List (List Char)} (h : 2 * (listing depth closing part parts).length ≤ fuel) :
    ∃ n, fuel = n + 1 ∧ 2 * part.length ≤ n := by
  have hlength : part.length < (listing depth closing part parts).length := by
    cases parts with
    | nil => simp [listing]; omega
    | cons next parts => simp [listing]; omega
  exact ⟨fuel - 1, by omega, by omega⟩

/-- It is fuel for the parts after the first one as well. -/
theorem length_listing_lt (depth : ℕ) (closing : Char) (part next : List Char)
    (parts : List (List Char)) :
    (listing depth closing next parts).length <
      (listing depth closing part (next :: parts)).length := by
  rw [listing]
  simp only [List.length_append, List.length_cons]
  omega

theorem exists_listing_append_eq (depth : ℕ) (closing : Char) (part : List Char)
    (parts : List (List Char)) (cs : List Char) : ∃ rest,
      listing depth closing part parts ++ cs = blanks (2 * (depth + 1)) ++ (part ++ rest) := by
  cases parts with
  | nil => exact ⟨_, listing_nil_append depth closing part cs⟩
  | cons next parts => exact ⟨_, listing_cons_append depth closing part next parts cs⟩

/-- The first part comes next after the first line. -/
theorem exists_skipSpace_listing (depth : ℕ) (closing : Char) {c : Char} {cs : List Char}
    (hc : isSpace c = false) (parts : List (List Char)) (after : List Char) : ∃ rest,
      skipSpace ('\n' :: (listing depth closing (c :: cs) parts ++ after)) = c :: rest := by
  obtain ⟨rest, hlisting⟩ := exists_listing_append_eq depth closing (c :: cs) parts after
  rw [skipSpace_line, hlisting, skipSpace_blanks, List.cons_append, skipSpace_cons hc]
  exact ⟨_, rfl⟩

/-- The items of an array are read one after the other. -/
theorem readItems_listing (depth : ℕ) {part : List Char} {parts : List (List Char)} {j : Json}
    {items : List Json} (hpart : Reads part j) (hparts : List.Forall₂ Reads parts items)
    {fuel : ℕ} (hfuel : 2 * (listing depth ']' part parts).length ≤ fuel) (cs : List Char) :
    readItems fuel (listing depth ']' part parts ++ cs) = some (j :: items, cs) := by
  induction hparts generalizing part j fuel with
  | nil =>
      obtain ⟨fuel, rfl, hfirst⟩ := exists_succ_of_listing hfuel
      rw [listing_nil_append, readItems, hpart.read_blanks _ fuel (ends_line _) hfirst]
      simp only [skipSpace_line, skipSpace_blanks, skipSpace_cons isSpace_bracket]
  | @cons next k parts items hnext _ ih =>
      obtain ⟨fuel, rfl, hfirst⟩ := exists_succ_of_listing hfuel
      have hlength := length_listing_lt depth ']' part next parts
      have hrest := ih hnext (show 2 * _ ≤ fuel by omega)
      rw [← readItems_skipSpace, ← skipSpace_line, readItems_skipSpace] at hrest
      rw [listing_cons_append, readItems, hpart.read_blanks _ fuel (ends_comma _) hfirst]
      simp only [skipSpace_cons isSpace_comma, hrest, Option.map_some]

/-- A text that is read as a field before whatever may follow one. -/
def ReadsField (text : List Char) (f : String × Json) : Prop :=
  ∃ value, text = '"' :: (f.1.toList.flatMap escapeChar ++ '"' :: ':' :: ' ' :: value) ∧
    Reads value f.2

theorem readsField {name text : String} {f : String × Json} (hname : name = f.1)
    (h : Reads text.toList f.2) : ReadsField (writeText name ++ ": " ++ text).toList f :=
  ⟨text.toList, by simp [toList_writeText, hname], h⟩

/-- A field as it is read, where its name might be no text. -/
def asRead (f : String × Json) : Option (List Char) × Json := (some f.1.toList, f.2)

theorem ofFields_asRead (fields : List (String × Json)) :
    ofFields (fields.map asRead) = .object fields := by
  have hall : (fields.map asRead).mapM (fun f => f.1.map fun name => (String.ofList name, f.2)) =
      some fields := by
    induction fields with
    | nil => rfl
    | cons f fields ih => simp [asRead, ih]
  rw [ofFields, hall]

/-- A field is read, and what comes after it decides whether another one has to follow. -/
theorem readFields_field {part : List Char} {f : String × Json} (h : ReadsField part f)
    (k fuel : ℕ) {after : List Char} (hafter : Ends after) (hfuel : 2 * part.length ≤ fuel) :
    (∀ cs, skipSpace after = '\x7d' :: cs →
      readFields (fuel + 1) (blanks k ++ (part ++ after)) = some ([asRead f], cs)) ∧
    ∀ cs, skipSpace after = ',' :: cs →
      readFields (fuel + 1) (blanks k ++ (part ++ after)) =
        (readFields fuel cs).map fun r => (asRead f :: r.1, r.2) := by
  obtain ⟨value, rfl, hvalue⟩ := h
  simp only [List.length_append, List.length_cons] at hfuel
  have hread : readValue fuel (' ' :: (value ++ after)) = some (f.2, after) :=
    hvalue.read_blanks 1 fuel hafter (by omega)
  rw [readFields, skipSpace_blanks, List.cons_append, skipSpace_cons rfl]
  simp only [List.append_assoc, List.cons_append, readText_flatMap]
  rw [skipSpace_cons rfl]
  simp only [hread]
  refine ⟨fun cs hcs => ?_, fun cs hcs => ?_⟩
  · rw [hcs]
    rfl
  · rw [hcs]
    rfl

/-- The fields of an object are read one after the other. -/
theorem readFields_listing (depth : ℕ) {part : List Char} {parts : List (List Char)}
    {f : String × Json} {fields : List (String × Json)} (hpart : ReadsField part f)
    (hparts : List.Forall₂ ReadsField parts fields) {fuel : ℕ}
    (hfuel : 2 * (listing depth '\x7d' part parts).length ≤ fuel) (cs : List Char) :
    readFields fuel (listing depth '\x7d' part parts ++ cs) =
      some ((f :: fields).map asRead, cs) := by
  induction hparts generalizing part f fuel with
  | nil =>
      obtain ⟨fuel, rfl, hfirst⟩ := exists_succ_of_listing hfuel
      rw [listing_nil_append]
      refine (readFields_field hpart _ fuel (ends_line _) hfirst).1 cs ?_
      rw [skipSpace_line, skipSpace_blanks, skipSpace_cons isSpace_brace]
  | @cons next g parts fields hnext _ ih =>
      obtain ⟨fuel, rfl, hfirst⟩ := exists_succ_of_listing hfuel
      have hlength := length_listing_lt depth '\x7d' part next parts
      have hrest := ih hnext (show 2 * _ ≤ fuel by omega)
      rw [← readFields_skipSpace, ← skipSpace_line, readFields_skipSpace] at hrest
      have hcomma := (readFields_field hpart (2 * (depth + 1)) fuel (ends_comma _) hfirst).2 _
        (skipSpace_cons isSpace_comma ('\n' :: (listing depth '\x7d' next parts ++ cs)))
      rw [listing_cons_append, hcomma, hrest, Option.map_some]
      rfl

/-! ## Values that nest -/

theorem reads_array (depth : ℕ) {texts : List String} {items : List Json}
    (h : List.Forall₂ (fun (text : String) j => Reads text.toList j) texts items) :
    Reads (indented depth "[" "]" texts).toList (.array items) := by
  cases h with
  | nil =>
      have htext : (indented depth "[" "]" []).toList = ['[', ']'] := by simp [indented]
      rw [htext]
      exact .of_cons rfl (by decide) fun _ _ _ _ => rfl
  | @cons text j texts items hj hrest =>
      rw [toList_indented depth (o := '[') (c := ']') (by decide) (by decide)]
      refine .of_cons rfl (by decide) fun fuel after _ hfuel => ?_
      rw [List.length_cons] at hfuel
      have hitems := readItems_listing depth hj (List.forall₂_map_left_iff.mpr hrest)
        (show 2 * _ ≤ fuel by omega) after
      obtain ⟨c, cs, htext, hc, hbracket⟩ := hj.begins
      rw [htext] at hitems ⊢
      obtain ⟨rest, hskip⟩ := exists_skipSpace_listing depth ']' hc (texts.map String.toList) after
      rw [← readItems_skipSpace, ← skipSpace_line, hskip] at hitems
      rw [readValue, skipSpace_cons rfl, List.cons_append]
      simp only [hskip]
      split
      · exact absurd (List.cons.inj ‹_›).1 hbracket
      · rw [hitems, Option.map_some]

theorem reads_object (depth : ℕ) {texts : List String} {fields : List (String × Json)}
    (h : List.Forall₂ (fun (text : String) f => ReadsField text.toList f) texts fields) :
    Reads (indented depth "\x7b" "\x7d" texts).toList (.object fields) := by
  cases h with
  | nil =>
      have htext : (indented depth "\x7b" "\x7d" []).toList = ['\x7b', '\x7d'] := by simp [indented]
      rw [htext]
      exact .of_cons rfl (by decide) fun _ _ _ _ => rfl
  | @cons text f texts fields hf hrest =>
      rw [toList_indented depth (o := '\x7b') (c := '\x7d') (by decide) (by decide)]
      refine .of_cons rfl (by decide) fun fuel after _ hfuel => ?_
      rw [List.length_cons] at hfuel
      have hfields := readFields_listing depth hf (List.forall₂_map_left_iff.mpr hrest)
        (show 2 * _ ≤ fuel by omega) after
      obtain ⟨value, htext, -⟩ := hf
      rw [htext] at hfields ⊢
      obtain ⟨rest, hskip⟩ := exists_skipSpace_listing depth '\x7d' (c := '"') rfl
        (texts.map String.toList) after
      rw [← readFields_skipSpace, ← skipSpace_line, hskip] at hfields
      rw [readValue, skipSpace_cons rfl, List.cons_append]
      simp only [hskip]
      split
      · exact absurd (List.cons.inj ‹_›).1 (by decide)
      · rw [hfields, Option.map_some, ofFields_asRead]

/-! ## The codec -/

theorem writeItems_eq_map (arrange : Arrangement) (colon : String) (depth : ℕ)
    (items : List Json) :
    writeItems arrange colon depth items = items.map (writeValue arrange colon depth) := by
  induction items with
  | nil => rfl
  | cons j items ih => rw [writeItems, ih, List.map_cons]

theorem writeFields_eq_map (arrange : Arrangement) (colon : String) (depth : ℕ)
    (fields : List (String × Json)) : writeFields arrange colon depth fields =
      fields.map fun f => (f.1, writeValue arrange colon depth f.2) := by
  induction fields with
  | nil => rfl
  | cons f fields ih => rw [writeFields, ih, List.map_cons]

theorem byName_of_sorted {fields : List (String × String)}
    (h : (fields.map Prod.fst).Pairwise (· < ·)) : byName fields = fields := by
  refine List.mergeSort_of_pairwise ?_
  rw [List.pairwise_map] at h
  exact h.imp fun hlt => decide_eq_true (String.lt_asymm hlt)

theorem exists_forall₂ {α β : Type} {R : α → β → Prop} {xs : List α}
    (h : ∀ x ∈ xs, ∃ y, R x y) : ∃ ys, List.Forall₂ R xs ys := by
  induction xs with
  | nil => exact ⟨[], .nil⟩
  | cons x xs ih =>
      obtain ⟨y, hy⟩ := h x List.mem_cons_self
      obtain ⟨ys, hys⟩ := ih fun x hx => h x (List.mem_cons_of_mem _ hx)
      exact ⟨y :: ys, .cons hy hys⟩

/-- What is written of a value is read again, and shows it. -/
theorem exists_reads {nesting : ℕ} {j : Json} (h : IsPrintable nesting j) (depth : ℕ) :
    ∃ shown, Shows j shown ∧ Reads (writeValue indented ": " depth j).toList shown := by
  induction h generalizing depth with
  | null => exact ⟨_, .null, reads_null⟩
  | boolean b => exact ⟨_, .boolean b, reads_boolean b⟩
  | string s => exact ⟨_, .string s, reads_string s⟩
  | integer n => exact ⟨_, .integer n, reads_integer n⟩
  | float hx =>
      obtain ⟨n, hn, hreads⟩ := reads_float hx
      exact ⟨_, .float hn.1 hn.2, hreads⟩
  | @array _ items _ ih =>
      obtain ⟨shown, hshown⟩ := exists_forall₂ fun j hj => ih j hj (depth + 1)
      refine ⟨.array shown, .array hshown.length_eq fun p hp => ?_, ?_⟩
      · exact (List.forall₂_iff_zip.mp hshown).2 hp |>.1
      · rw [writeValue, writeItems_eq_map]
        exact reads_array depth (List.forall₂_map_left_iff.mpr (hshown.imp fun _ _ h => h.2))
  | @object _ fields hsorted _ ih =>
      obtain ⟨shown, hshown⟩ := exists_forall₂ (R := fun f g : String × Json => f.1 = g.1 ∧
          Shows f.2 g.2 ∧ Reads (writeValue indented ": " (depth + 1) f.2).toList g.2)
        fun f hf => by
          obtain ⟨j, hj⟩ := ih f hf (depth + 1)
          exact ⟨(f.1, j), rfl, hj⟩
      have hnames : fields.map Prod.fst = shown.map Prod.fst := by
        rw [← List.forall₂_eq_eq_eq, List.forall₂_map_left_iff, List.forall₂_map_right_iff]
        exact hshown.imp fun _ _ h => h.1
      refine ⟨.object shown, .object hnames fun p hp => ?_, ?_⟩
      · exact ((List.forall₂_iff_zip.mp hshown).2 hp).2.1
      · rw [writeValue, writeFields_eq_map, byName_of_sorted]
        · refine reads_object depth ?_
          rw [List.map_map, List.forall₂_map_left_iff]
          exact hshown.imp fun _ _ h => readsField h.1 h.2.2
        · rw [List.map_map]
          exact hsorted

/-- The reader takes back what the writer writes. -/
theorem isFaithful_standard : Codec.standard.IsFaithful where
  parse?_pretty j hj := by
    obtain ⟨shown, hshown, hreads⟩ := exists_reads hj 0
    refine ⟨shown, ?_, hshown⟩
    have hread := hreads.read (2 * (pretty j).toList.length + 2) [] .nil (Nat.le_add_right _ _)
    rw [List.append_nil] at hread
    change readValue (2 * (pretty j).toList.length + 2) (pretty j).toList = _ at hread
    change parse? (pretty j) = some shown
    simp only [parse?, hread]
    rfl

end Vigil.Json
