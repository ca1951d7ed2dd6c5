import Vigil.Proofs.Toml.Numbers
import Vigil.Proofs.Toml.Strings

/-!
# Documents

The sections that are written are the table that is read.  Every line has a reader that
takes exactly that line, so the lines are read one after the other: a header opens a new
table at the end, and an assignment puts a new entry at the end of that table.
-/

namespace Vigil.Toml

open Decimal (ne_of_kind signed)

/-! ## Scalars -/

/-- A scalar in a document that is being read. -/
def Scalar.toNode : Scalar → Node
  | .string s => .string s
  | .integer n => .integer n
  | .float x => .float x
  | .boolean b => .boolean b

/-- A character that a number begins with. -/
def BeginsNumber (c : Char) : Prop := c = '-' ∨ Json.isDigit c = true

theorem BeginsNumber.ne {c d : Char} (hc : BeginsNumber c) (hdash : d ≠ '-')
    (hdigit : Json.isDigit d = false) : c ≠ d := by
  rintro rfl
  rcases hc with rfl | hc
  · exact hdash rfl
  · exact ne_of_kind hc hdigit rfl

theorem isSpace_eq_false {c : Char} (hblank : c ≠ ' ') (htab : c ≠ '\t') : isSpace c = false := by
  simp [isSpace, hblank, htab]

theorem BeginsNumber.isSpace_eq_false {c : Char} (hc : BeginsNumber c) : isSpace c = false :=
  Toml.isSpace_eq_false (hc.ne (by decide) rfl) (hc.ne (by decide) rfl)

theorem exists_signed_eq_cons {ds : List Char} (h : ∃ c cs, ds = c :: cs ∧ Json.isDigit c = true)
    (negative : Bool) : ∃ c cs, signed negative ds = c :: cs ∧ BeginsNumber c := by
  cases negative with
  | true => exact ⟨'-', ds, rfl, .inl rfl⟩
  | false =>
      obtain ⟨c, cs, rfl, hc⟩ := h
      exact ⟨c, cs, rfl, .inr hc⟩

theorem exists_integer_eq_cons (n : ℤ) :
    ∃ c cs, (toString n).toList = c :: cs ∧ BeginsNumber c := by
  rw [Decimal.toList_toString_int]
  exact exists_signed_eq_cons (Decimal.plain_toDigits _).exists_cons _

theorem exists_float_eq_cons {x : Float} (hx : x.isFinite = true) :
    ∃ c cs, (Decimal.fractional.write x).toList = c :: cs ∧ BeginsNumber c := by
  obtain ⟨whole, fraction, -, htext, hplain, -⟩ :=
    setsPoint_fractional (Decimal.shortest Decimal.tiesUp x)
  obtain ⟨c, cs, rfl, hc⟩ := hplain.exists_cons
  rw [toList_write_fractional hx]
  exact exists_signed_eq_cons ⟨c, cs ++ '.' :: fraction, htext, hc⟩ _

theorem readScalar_number {c : Char} (hc : BeginsNumber c) (cs : List Char) :
    readScalar (c :: cs) = readNumber (c :: cs) := by
  have hne {d : Char} (hdash : d ≠ '-') (hdigit : Json.isDigit d = false) (es : List Char) :
      c :: cs ≠ d :: es := fun h => hc.ne hdash hdigit (List.cons.inj h).1
  rw [readScalar.eq_5]
  · exact hne (by decide) rfl
  · exact hne (by decide) rfl
  · exact fun _ => hne (by decide) rfl _
  · exact fun _ => hne (by decide) rfl _

/-- What a scalar is written as begins neither a blank nor an array nor a table, and is
read back. -/
theorem readScalar_write {v : Scalar} (h : v.IsWritable) (cs : List Char) :
    ∃ c es, v.write.toList = c :: es ∧ isSpace c = false ∧ c ≠ '[' ∧ c ≠ '\x7b' ∧
      readScalar (c :: (es ++ '\n' :: cs)) = some (v.toNode, '\n' :: cs) := by
  cases v with
  | string s =>
      have hread := readString_writeString s cs
      obtain ⟨es, htext | htext⟩ := head?_writeString s
      · rw [htext, List.cons_append] at hread
        refine ⟨'"', es, htext, rfl, by decide, by decide, ?_⟩
        rw [readScalar, hread, Option.map_some, String.ofList_toList]
        rfl
      · rw [htext, List.cons_append] at hread
        refine ⟨'\'', es, htext, rfl, by decide, by decide, ?_⟩
        rw [readScalar, hread, Option.map_some, String.ofList_toList]
        rfl
  | integer n =>
      obtain ⟨c, es, htext, hc⟩ := exists_integer_eq_cons n
      have hread := readNumber_integer h cs
      rw [htext, List.cons_append, ← readScalar_number hc] at hread
      exact ⟨c, es, htext, hc.isSpace_eq_false, hc.ne (by decide) rfl, hc.ne (by decide) rfl, hread⟩
  | float x =>
      obtain ⟨c, es, htext, hc⟩ := exists_float_eq_cons h
      have hread := readNumber_float h cs
      rw [htext, List.cons_append, ← readScalar_number hc] at hread
      exact ⟨c, es, htext, hc.isSpace_eq_false, hc.ne (by decide) rfl, hc.ne (by decide) rfl, hread⟩
  | boolean b =>
      cases b with
      | true => exact ⟨'t', ['r', 'u', 'e'], rfl, rfl, by decide, by decide, rfl⟩
      | false => exact ⟨'f', ['a', 'l', 's', 'e'], rfl, rfl, by decide, by decide, rfl⟩

theorem readValue_write {v : Scalar} (h : v.IsWritable) (cs : List Char) :
    readValue maxDepth (skipSpace (' ' :: (v.write.toList ++ '\n' :: cs))) =
      some (v.toNode, '\n' :: cs) := by
  obtain ⟨c, es, htext, hspace, hbracket, hbrace, hread⟩ := readScalar_write h cs
  have hskip : skipSpace (' ' :: c :: (es ++ '\n' :: cs)) = c :: (es ++ '\n' :: cs) := by
    rw [skipSpace, List.dropWhile_cons_of_pos rfl, List.dropWhile_cons_of_neg (by simp [hspace])]
  rw [htext, List.cons_append, hskip, readValue.eq_3, hread]
  · exact fun _ _ _ h => hbracket (List.cons.inj h).1
  · exact fun _ _ _ h => hbrace (List.cons.inj h).1

/-! ## Keys -/

theorem IsBare.isBareChar_of_mem {name : String} (h : IsBare name) {c : Char}
    (hc : c ∈ name.toList) : isBareChar c = true :=
  List.all_eq_true.mp h.2 c hc

theorem isSpace_eq_false_of_isBareChar {c : Char} (hc : isBareChar c = true) :
    isSpace c = false :=
  isSpace_eq_false (ne_of_kind hc rfl) (ne_of_kind hc rfl)

theorem IsBare.exists_cons {name : String} (h : IsBare name) :
    ∃ c cs, name.toList = c :: cs ∧ isBareChar c = true := by
  obtain ⟨c, cs, hname⟩ := List.exists_cons_of_ne_nil h.1
  exact ⟨c, cs, hname, h.isBareChar_of_mem (by rw [hname]; exact List.mem_cons_self)⟩

theorem skipSpace_cons_of_isBareChar {c : Char} (hc : isBareChar c = true) (cs : List Char) :
    skipSpace (c :: cs) = c :: cs :=
  List.dropWhile_cons_of_neg (by simp [isSpace_eq_false_of_isBareChar hc])

theorem readKeyPart_bare {name : String} (h : IsBare name) {c : Char}
    (hc : isBareChar c = false) (cs : List Char) :
    readKeyPart (name.toList ++ c :: cs) = some (name, c :: cs) := by
  obtain ⟨d, ds, hname, hd⟩ := h.exists_cons
  have htake : (name.toList ++ c :: cs).takeWhile isBareChar = name.toList := by
    rw [List.takeWhile_append_of_pos fun _ => h.isBareChar_of_mem,
      List.takeWhile_cons_of_neg (by simp [hc]), List.append_nil]
  have hdrop : (name.toList ++ c :: cs).dropWhile isBareChar = c :: cs := by
    rw [List.dropWhile_append_of_pos fun _ => h.isBareChar_of_mem,
      List.dropWhile_cons_of_neg (by simp [hc])]
  have hempty : name.toList.isEmpty = false := by
    rw [hname]
    rfl
  rw [readKeyPart.eq_3, htake, hdrop, hempty, if_neg Bool.false_ne_true, String.ofList_toList]
  · rw [hname]
    exact fun _ heq => ne_of_kind hd rfl (List.cons.inj heq).1
  · rw [hname]
    exact fun _ heq => ne_of_kind hd rfl (List.cons.inj heq).1

theorem readKey_bare {name : String} (h : IsBare name) {c : Char} (hc : isBareChar c = false)
    {cs : List Char} (hpoint : ∀ rest, skipSpace (c :: cs) ≠ '.' :: rest) :
    readKey maxDepth (name.toList ++ c :: cs) = some (([], name), skipSpace (c :: cs)) := by
  obtain ⟨d, ds, hname, hd⟩ := h.exists_cons
  have hskip : skipSpace (name.toList ++ c :: cs) = name.toList ++ c :: cs := by
    rw [hname]
    exact skipSpace_cons_of_isBareChar hd _
  rw [maxDepth, readKey, hskip, readKeyPart_bare h hc]
  simp only [Option.bind_eq_bind, Option.bind_some]
  rfl

/-! ## Lines -/

variable {name key : String}

theorem readHeader_bare (h : IsBare name) (cs : List Char) :
    readHeader [']'] (name.toList ++ ']' :: '\n' :: cs) = some (([], name), cs) := by
  have hskip : skipSpace (']' :: '\n' :: cs) = ']' :: '\n' :: cs := rfl
  have hpoint (rest : List Char) : skipSpace (']' :: '\n' :: cs) ≠ '.' :: rest := by
    simp [hskip]
  rw [readHeader, readKey_bare h rfl hpoint]
  rfl

theorem readAssignment_bare (h : IsBare key) {v : Scalar} (hv : v.IsWritable) (cs : List Char) :
    readAssignment (readValue maxDepth)
        (key.toList ++ ' ' :: '=' :: ' ' :: (v.write.toList ++ '\n' :: cs)) =
      some (([], key, v.toNode), '\n' :: cs) := by
  have hskip (rest : List Char) : skipSpace (' ' :: '=' :: rest) = '=' :: rest := rfl
  have hpoint (es rest : List Char) : skipSpace (' ' :: '=' :: es) ≠ '.' :: rest := by
    simp [hskip]
  rw [readAssignment, readKey_bare h rfl (hpoint _)]
  simp only [Option.bind_eq_bind, Option.bind_some, hskip, readMark, if_pos, readValue_write hv]
  rfl

namespace Tree

variable {t u : Tree} {v : Node}

theorem find?_eq_none_iff : t.find? key = none ↔ key ∉ t.map Prod.fst := by
  induction t with
  | nil => simp
  | cons e t ih =>
      by_cases h : e.1 = key
      · simp [find?, h]
      · simp [find?, h, ih, Ne.symm h]

theorem find?_append_of_none (h : t.find? key = none) : (t ++ u).find? key = u.find? key := by
  induction t with
  | nil => rfl
  | cons e t ih =>
      by_cases he : e.1 = key
      · simp [find?, he] at h
      · simp only [find?, he, if_false] at h
        simp only [List.cons_append, find?, he, if_false, ih h]

theorem put_append_of_none (h : t.find? key = none) : (t ++ u).put key v = t ++ u.put key v := by
  induction t with
  | nil => rfl
  | cons e t ih =>
      by_cases he : e.1 = key
      · simp [find?, he] at h
      · simp only [find?, he, if_false] at h
        simp only [List.cons_append, put, he, if_false, ih h]

theorem put_of_none (h : t.find? key = none) : t.put key v = t ++ [(key, v)] := by
  have hput := put_append_of_none (u := []) (v := v) h
  rwa [List.append_nil] at hput

theorem openTable_of_none (h : t.find? name = none) :
    t.openTable [] name = some (t ++ [(name, .table .header [])]) := by
  simp only [openTable, change, h, put_of_none h]

/-- An assignment below a header with one part goes to the end of its table. -/
theorem assignBelow_last {entries : Tree} (h : t.find? name = none)
    (hnew : entries.find? key = none) :
    assignBelow (t ++ [(name, .table .header entries)]) [name] [] key v =
      some (t ++ [(name, .table .header (entries ++ [(key, v)]))]) := by
  have hfind : (t ++ [(name, Node.table .header entries)]).find? name =
      some (.table .header entries) := by
    rw [find?_append_of_none h]
    simp [find?]
  have hput : (t ++ [(name, Node.table .header entries)]).put name
      (.table .header (entries ++ [(key, v)])) =
        t ++ [(name, .table .header (entries ++ [(key, v)]))] := by
    rw [put_append_of_none h]
    simp [put]
  simp [assignBelow, change, hfind, assign, hnew, put_of_none hnew, hput]

end Tree

theorem readLine_header {d : Draft} (h : IsBare name) (hnew : d.tree.find? name = none)
    (cs : List Char) :
    readLine d ('[' :: (name.toList ++ ']' :: '\n' :: cs)) =
      some (⟨d.tree ++ [(name, .table .header [])], [name]⟩, cs) := by
  obtain ⟨c, es, hname, hc⟩ := h.exists_cons
  rw [readLine.eq_2, readHeader_bare h]
  · simp only [Option.bind_eq_bind, Option.bind_some, Tree.openTable_of_none hnew]
    rfl
  · rw [hname]
    exact fun _ heq => ne_of_kind hc rfl (List.cons.inj heq).1

theorem readLine_entry {t entries : Tree} (h : IsBare key) {v : Scalar} (hv : v.IsWritable)
    (hname : t.find? name = none) (hnew : entries.find? key = none) (cs : List Char) :
    readLine ⟨t ++ [(name, .table .header entries)], [name]⟩
        (key.toList ++ ' ' :: '=' :: ' ' :: (v.write.toList ++ '\n' :: cs)) =
      some (⟨t ++ [(name, .table .header (entries ++ [(key, v.toNode)]))], [name]⟩, cs) := by
  obtain ⟨c, es, hkey, hc⟩ := h.exists_cons
  have hend : endLine? ('\n' :: cs) = some cs := rfl
  rw [readLine.eq_3, readAssignment_bare h hv]
  · simp only [Option.bind_eq_bind, Option.bind_some, hend, Tree.assignBelow_last hname hnew]
    rfl
  · rw [hkey]
    exact fun _ heq => ne_of_kind hc rfl (List.cons.inj heq).1
  · rw [hkey]
    exact fun _ heq => ne_of_kind hc rfl (List.cons.inj heq).1

/-! ## Sections -/

/-- Lines that, added to what has been read so far, make a table. -/
def Reads (d : Draft) (cs : List Char) (t : Tree) : Prop :=
  ∀ fuel, cs.length < fuel → readLines fuel d cs = some t

namespace Reads

variable {d d' : Draft} {t : Tree} {cs cs' : List Char}

theorem nil (d : Draft) : Reads d [] d.tree := by
  intro fuel hfuel
  obtain ⟨fuel, rfl⟩ : ∃ k, fuel = k + 1 := ⟨fuel - 1, by omega⟩
  rfl

theorem blank (h : Reads d cs t) : Reads d ('\n' :: cs) t := by
  intro fuel hfuel
  rw [List.length_cons] at hfuel
  obtain ⟨fuel, rfl⟩ : ∃ k, fuel = k + 1 := ⟨fuel - 1, by omega⟩
  exact h fuel (by omega)

theorem line {c : Char} (hc : isBareChar c = true ∨ c = '[')
    (hread : readLine d (c :: cs) = some (d', cs')) (hless : cs'.length ≤ cs.length)
    (h : Reads d' cs' t) : Reads d (c :: cs) t := by
  intro fuel hfuel
  rw [List.length_cons] at hfuel
  obtain ⟨fuel, rfl⟩ : ∃ k, fuel = k + 1 := ⟨fuel - 1, by omega⟩
  have hskip : skipSpace (c :: cs) = c :: cs := by
    rcases hc with hc | rfl
    · exact skipSpace_cons_of_isBareChar hc cs
    · rfl
  have hne {e : Char} (he : isBareChar e = false) (hbracket : e ≠ '[') : c ≠ e := by
    rcases hc with hc | rfl
    · exact ne_of_kind hc he
    · exact hbracket.symm
  rw [readLines, hskip]
  split
  · cases ‹c :: cs = []›
  · exact absurd (List.cons.inj ‹_›).1 (hne rfl (by decide))
  · exact absurd (List.cons.inj ‹_›).1 (hne rfl (by decide))
  · exact absurd (List.cons.inj ‹_›).1 (hne rfl (by decide))
  · simp only [hread, Option.bind_eq_bind, Option.bind_some]
    exact h fuel (by omega)

end Reads

/-- The line of an assignment. -/
def entryLine (e : String × Scalar) : List Char :=
  e.1.toList ++ ' ' :: '=' :: ' ' :: (e.2.write.toList ++ ['\n'])

theorem Section.toList_write (s : Section) :
    s.write.toList = '[' :: (s.name.toList ++ ']' :: '\n' :: s.entries.flatMap entryLine) := by
  have hlines : s.entries.flatMap entryLine = (s.entries.map fun e =>
      e.1 ++ " = " ++ e.2.write ++ "\n").flatMap String.toList := by
    rw [List.flatMap_map]
    exact List.flatMap_congr fun e _ => by simp [entryLine]
  simp [Section.write, String.toList_join, hlines]

def Section.toTree (s : Section) : Tree := s.entries.map fun e => (e.1, e.2.toNode)

/-- A sequence of sections in a document that is being read. -/
def Section.listToTree (sections : List Section) : Tree :=
  sections.map fun s => (s.name, .table .header s.toTree)

variable {t : Tree} {cs : List Char}

theorem Reads.entry {done entries : Tree} {e : String × Scalar} (hkey : IsBare e.1)
    (hvalue : e.2.IsWritable) (hname : done.find? name = none) (hnew : entries.find? e.1 = none)
    (h : Reads ⟨done ++ [(name, .table .header (entries ++ [(e.1, e.2.toNode)]))], [name]⟩ cs t) :
    Reads ⟨done ++ [(name, .table .header entries)], [name]⟩ (entryLine e ++ cs) t := by
  have hread := readLine_entry hkey hvalue hname hnew cs
  obtain ⟨c, es, htext, hc⟩ := hkey.exists_cons
  have hline : entryLine e ++ cs =
      c :: (es ++ ' ' :: '=' :: ' ' :: (e.2.write.toList ++ '\n' :: cs)) := by
    simp [entryLine, htext]
  rw [htext, List.cons_append] at hread
  rw [hline]
  exact .line (.inl hc) hread (by simp; omega) h

theorem Reads.entries {done : Tree} (hname : done.find? name = none)
    (es : List (String × Scalar)) (hkeys : ∀ e ∈ es, IsBare e.1)
    (hscalars : ∀ e ∈ es, e.2.IsWritable) (read : Tree)
    (hdistinct : (read.map Prod.fst ++ es.map Prod.fst).Nodup)
    (h : Reads ⟨done ++ [(name, .table .header (read ++ es.map fun e => (e.1, e.2.toNode)))],
      [name]⟩ cs t) :
    Reads ⟨done ++ [(name, .table .header read)], [name]⟩ (es.flatMap entryLine ++ cs) t := by
  induction es generalizing read with
  | nil => simpa using h
  | cons e es ih =>
      have hnew : read.find? e.1 = none := by
        rw [Tree.find?_eq_none_iff]
        intro hmem
        exact (List.nodup_append.mp hdistinct).2.2 _ hmem _ List.mem_cons_self rfl
      rw [List.flatMap_cons, List.append_assoc]
      refine .entry (hkeys e List.mem_cons_self) (hscalars e List.mem_cons_self) hname hnew
        (ih (fun e he => hkeys e (List.mem_cons_of_mem _ he))
          (fun e he => hscalars e (List.mem_cons_of_mem _ he)) _ ?_ ?_)
      · simpa using hdistinct
      · simpa using h

theorem Reads.section {d : Draft} {s : Section} (hs : s.IsWritable)
    (hnew : d.tree.find? s.name = none)
    (h : Reads ⟨d.tree ++ [(s.name, .table .header s.toTree)], [s.name]⟩ cs t) :
    Reads d (s.write.toList ++ cs) t := by
  have hheader := readLine_header (d := d) hs.name hnew (s.entries.flatMap entryLine ++ cs)
  have htext : s.write.toList ++ cs =
      '[' :: (s.name.toList ++ ']' :: '\n' :: (s.entries.flatMap entryLine ++ cs)) := by
    simp [Section.toList_write]
  rw [htext]
  refine .line (.inr rfl) hheader (by simp; omega) ?_
  exact .entries hnew s.entries (fun e he => hs.keys _ (List.mem_map_of_mem he))
    (fun e he => hs.scalars _ (List.mem_map_of_mem he)) [] (by simpa using hs.distinct) h

theorem Reads.sections (sections : List Section) (hwritable : ∀ s ∈ sections, s.IsWritable)
    (d : Draft) (hdistinct : (d.tree.map Prod.fst ++ sections.map Section.name).Nodup) :
    Reads d (write sections).toList (d.tree ++ Section.listToTree sections) := by
  induction sections generalizing d with
  | nil => simpa [write, Section.listToTree] using Reads.nil d
  | cons s rest ih =>
      have hnew : d.tree.find? s.name = none := by
        rw [Tree.find?_eq_none_iff]
        intro hmem
        exact (List.nodup_append.mp hdistinct).2.2 _ hmem _ List.mem_cons_self rfl
      have hrest := ih (fun r hr => hwritable r (List.mem_cons_of_mem _ hr))
        ⟨d.tree ++ [(s.name, .table .header s.toTree)], [s.name]⟩ (by simpa using hdistinct)
      rw [List.append_assoc] at hrest
      cases rest with
      | nil =>
          have htext : (write [s]).toList = s.write.toList ++ (write []).toList := by
            simp [write]
          rw [htext]
          exact .section (hwritable s List.mem_cons_self) hnew hrest
      | cons r rest =>
          have htext : (write (s :: r :: rest)).toList =
              s.write.toList ++ '\n' :: (write (r :: rest)).toList := by
            simp [write, String.intercalate_cons_cons]
          rw [htext]
          exact .section (hwritable s List.mem_cons_self) hnew hrest.blank

theorem readDocument_write {sections : List Section} (hwritable : ∀ s ∈ sections, s.IsWritable)
    (hdistinct : (sections.map Section.name).Nodup) :
    readDocument (write sections) = some (Section.listToTree sections) := by
  have hreads := Reads.sections sections hwritable {} (by simpa using hdistinct)
  have hmark : (write sections).toList.head? ≠ some '\uFEFF' := by
    match sections with
    | [] => simp [write]
    | [s] => simp [write, Section.toList_write]
    | s :: r :: rest => simp [write, String.intercalate_cons_cons, Section.toList_write]
  unfold readDocument
  generalize (write sections).toList = text at hreads hmark
  dsimp only
  split
  · exact absurd rfl hmark
  · exact hreads _ (Nat.lt_succ_self _)

/-! ## The codec -/

theorem Scalar.toValue_toNode (v : Scalar) : v.toNode.toValue = v.toValue := by
  cases v <;> rfl

theorem Section.toTable_toTree (s : Section) : s.toTree.toTable = s.toTable := by
  rw [Tree.toTable_eq_map, toTree, toTable, List.map_map]
  exact List.map_congr_left fun e _ => by simp [Scalar.toValue_toNode]

theorem Section.toTable_listToTree (sections : List Section) :
    Tree.toTable (listToTree sections) = listToTable sections := by
  rw [Tree.toTable_eq_map, listToTree, listToTable, List.map_map]
  refine List.map_congr_left fun s _ => ?_
  change (s.name, Value.table (Tree.toTable s.toTree)) = _
  rw [toTable_toTree]

theorem Scalar.IsWritable.fits {v : Scalar} (h : v.IsWritable) : v.fits = true := by
  cases v with
  | integer n => exact h
  | _ => rfl

/-- The reader takes back what the writer writes, and the writer knows its bounds. -/
theorem isFaithful_standard : Codec.standard.IsFaithful where
  parse?_write? sections hwritable hdistinct := by
    have hfits : (sections.all fun s => s.entries.all fun e => e.2.fits) = true := by
      simp only [List.all_eq_true]
      exact fun s hs e he => ((hwritable s hs).scalars _ (List.mem_map_of_mem he)).fits
    refine ⟨write sections, if_pos hfits, ?_⟩
    change (readDocument (write sections)).map Tree.toTable = _
    rw [readDocument_write hwritable hdistinct, Option.map_some, Section.toTable_listToTree]
  write?_eq_none sections s hs n hn hbeyond := by
    obtain ⟨e, he, hen⟩ := List.mem_map.mp hn
    refine if_neg fun hall => ?_
    simp only [List.all_eq_true] at hall
    have hfits := hall s hs e he
    rw [hen] at hfits
    exact Bool.false_ne_true (hbeyond.symm.trans hfits)

end Vigil.Toml
