import Vigil.Command.Arguments
import Vigil.Proofs.Config.Faults
import Vigil.Proofs.Toml.Document

/-!
# Configurations that are printed and loaded again

A table describes a configuration field by field: what is given for a field decides about
that field alone, and a field for which nothing is given has its default value.  A valid
configuration is printed as sections that describe it, so what is printed is loaded as
the configuration it was; and what can be loaded can be printed, because a document has
no integer that cannot be written.  Of documents nothing is assumed but that their reader
and writer are faithful.
-/

namespace Vigil.Config

open Toml (Table Value Scalar Section)

/-! ## Field by field -/

/-- What a document gives for a field of a section, if it has both. -/
def given (t : Table) (part key : String) : Option Value :=
  (t.lookup part).bind fun v => (readSection (keysOf part) v).bind (·.lookup key)

/-- A field has the value that is given for it, or its default if none is given. -/
def Holds {β : Type} (read : Value → Option β) (value fallback : β) : Option Value → Prop
  | none => value = fallback
  | some v => read v = some value

/-- The sections of a configuration. -/
def parts : List String := ["attention", "choice", "pac_monitor"]

/-- Every section that is there is one, and every field holds what is given for it. -/
structure DescribedBy (c : Config) (t : Table) : Prop where
  sections : ∀ part ∈ parts, ∀ v, t.lookup part = some v →
    (readSection (keysOf part) v).isSome = true
  maxAttentionItems : Holds readInt c.attention.maxAttentionItems 10
    (given t "attention" "max_attention_items")
  lowThreshold : Holds readFloat c.choice.lowThreshold Thresholds.defaultLow
    (given t "choice" "low_threshold")
  highThreshold : Holds readFloat c.choice.highThreshold Thresholds.defaultHigh
    (given t "choice" "high_threshold")
  minDiversity : Holds (fun v => (readFloat v).map some) c.choice.minDiversity none
    (given t "choice" "min_diversity")
  bins : Holds readNat c.choice.bins Diversity.defaultBins (given t "choice" "bins")
  enabled : Holds readBool c.pacMonitor.enabled true (given t "pac_monitor" "enabled")
  name : Holds readString c.pacMonitor.name "pac" (given t "pac_monitor" "name")

variable {t entries : Table} {part key : String} {toml : Toml.Codec}

theorem fieldOr_eq_some_iff {β : Type} {read : Value → Option β} {fallback value : β} :
    fieldOr t key fallback read = some value ↔ Holds read value fallback (t.lookup key) := by
  unfold fieldOr
  cases t.lookup key with
  | none => exact ⟨fun h => (Option.some.inj h).symm, fun h => congrArg some h.symm⟩
  | some v => exact Iff.rfl

theorem lookup_of_part (h : sectionOf t part = some entries) (key : String) :
    entries.lookup key = given t part key := by
  unfold sectionOf fieldOr at h
  unfold given
  cases hfind : t.lookup part with
  | none =>
      rw [hfind] at h
      cases h
      rfl
  | some v =>
      rw [hfind] at h
      change readSection (keysOf part) v = some entries at h
      rw [Option.bind_some, h, Option.bind_some]

theorem exists_part_iff : (∃ entries, sectionOf t part = some entries) ↔
    ∀ v, t.lookup part = some v → (readSection (keysOf part) v).isSome = true := by
  unfold sectionOf fieldOr
  cases t.lookup part with
  | none => simp
  | some v => simp [Option.isSome_iff_exists]

theorem attentionOf_eq_some_iff (a : AttentionConfig) : attentionOf t = some a ↔
    Holds readInt a.maxAttentionItems 10 (t.lookup "max_attention_items") := by
  simp only [attentionOf, Option.bind_eq_bind, Option.bind_eq_some_iff, fieldOr_eq_some_iff]
  constructor
  · rintro ⟨n, hn, heq⟩
    cases heq
    exact hn
  · intro h
    exact ⟨_, h, rfl⟩

theorem choiceOf_eq_some_iff (a : ChoiceConfig) : choiceOf t = some a ↔
    Holds readFloat a.lowThreshold Thresholds.defaultLow (t.lookup "low_threshold") ∧
    Holds readFloat a.highThreshold Thresholds.defaultHigh (t.lookup "high_threshold") ∧
    Holds (fun v => (readFloat v).map some) a.minDiversity none (t.lookup "min_diversity") ∧
    Holds readNat a.bins Diversity.defaultBins (t.lookup "bins") := by
  simp only [choiceOf, Option.bind_eq_bind, Option.bind_eq_some_iff, fieldOr_eq_some_iff]
  constructor
  · rintro ⟨low, hlow, high, hhigh, floor, hfloor, bins, hbins, heq⟩
    cases heq
    exact ⟨hlow, hhigh, hfloor, hbins⟩
  · rintro ⟨hlow, hhigh, hfloor, hbins⟩
    exact ⟨_, hlow, _, hhigh, _, hfloor, _, hbins, rfl⟩

theorem pacMonitorOf_eq_some_iff (a : PacMonitorConfig) : pacMonitorOf t = some a ↔
    Holds readBool a.enabled true (t.lookup "enabled") ∧
    Holds readString a.name "pac" (t.lookup "name") := by
  simp only [pacMonitorOf, Option.bind_eq_bind, Option.bind_eq_some_iff, fieldOr_eq_some_iff]
  constructor
  · rintro ⟨enabled, henabled, name, hname, heq⟩
    cases heq
    exact ⟨henabled, hname⟩
  · rintro ⟨henabled, hname⟩
    exact ⟨_, henabled, _, hname, rfl⟩

theorem ofTable?_eq_some_iff (c : Config) : ofTable? t = some c ↔ c.DescribedBy t := by
  simp only [ofTable?, Option.bind_eq_bind, Option.bind_eq_some_iff]
  constructor
  · rintro ⟨as, has, a, ha, cs, hcs, b, hb, ps, hps, p, hp, heq⟩
    cases heq
    rw [attentionOf_eq_some_iff, lookup_of_part has] at ha
    rw [choiceOf_eq_some_iff, lookup_of_part hcs, lookup_of_part hcs, lookup_of_part hcs,
      lookup_of_part hcs] at hb
    rw [pacMonitorOf_eq_some_iff, lookup_of_part hps, lookup_of_part hps] at hp
    refine ⟨?_, ha, hb.1, hb.2.1, hb.2.2.1, hb.2.2.2, hp.1, hp.2⟩
    intro part hpart
    rw [← exists_part_iff]
    obtain rfl | rfl | rfl : part = "attention" ∨ part = "choice" ∨ part = "pac_monitor" := by
      simpa [parts] using hpart
    · exact ⟨_, has⟩
    · exact ⟨_, hcs⟩
    · exact ⟨_, hps⟩
  · intro h
    obtain ⟨as, has⟩ := exists_part_iff.mpr (h.sections "attention" (by decide))
    obtain ⟨cs, hcs⟩ := exists_part_iff.mpr (h.sections "choice" (by decide))
    obtain ⟨ps, hps⟩ := exists_part_iff.mpr (h.sections "pac_monitor" (by decide))
    refine ⟨as, has, c.attention, ?_, cs, hcs, c.choice, ?_, ps, hps, c.pacMonitor, ?_, rfl⟩
    · rw [attentionOf_eq_some_iff, lookup_of_part has]
      exact h.maxAttentionItems
    · rw [choiceOf_eq_some_iff, lookup_of_part hcs, lookup_of_part hcs, lookup_of_part hcs,
        lookup_of_part hcs]
      exact ⟨h.lowThreshold, h.highThreshold, h.minDiversity, h.bins⟩
    · rw [pacMonitorOf_eq_some_iff, lookup_of_part hps, lookup_of_part hps]
      exact ⟨h.enabled, h.name⟩

/-! ## Printing -/

theorem finite_of_validate {c : Config} (h : c.validate = .ok ()) :
    c.choice.lowThreshold.isFinite = true ∧ c.choice.highThreshold.isFinite = true ∧
      ∀ x, c.choice.minDiversity = some x → x.isFinite = true := by
  have hsound := sound_of_validate h
  have hfinite {x : Float} (hx : ¬ Outside x) : x.isFinite = true := by
    rw [← inUnit_eq_false_iff, Bool.not_eq_false] at hx
    exact isFinite_of_inUnit hx
  exact ⟨hfinite fun hout => hsound .band (.inl hout),
    hfinite fun hout => hsound .band (.inr hout),
    fun x hx => hfinite fun hout => hsound .floor ⟨x, hx, hout⟩⟩

/-- The names of all sections and fields. -/
def names : List String :=
  parts ++ ["max_attention_items", "low_threshold", "high_threshold", "min_diversity", "bins",
    "enabled", "name"]

theorem isBare_of_mem_names : ∀ name ∈ names, Toml.IsBare name := by decide

theorem isWritable_of_subset {s : Section} (hname : s.name ∈ names)
    (hkeys : s.entries.map Prod.fst ⊆ names) (hdistinct : (s.entries.map Prod.fst).Nodup)
    (hscalars : ∀ v ∈ s.entries.map Prod.snd, v.IsWritable) : s.IsWritable where
  name := isBare_of_mem_names _ hname
  keys key h := isBare_of_mem_names key (hkeys h)
  scalars := hscalars
  distinct := hdistinct

theorem isWritable_toSections {c : Config} (hvalid : c.validate = .ok ())
    (hcapacity : Decimal.fitsInt64 c.attention.maxAttentionItems = true)
    (hbins : Decimal.fitsInt64 c.choice.bins = true) : ∀ s ∈ c.toSections, s.IsWritable := by
  obtain ⟨hlow, hhigh, hfloor⟩ := finite_of_validate hvalid
  unfold toSections
  rw [List.forall_mem_cons, List.forall_mem_cons, List.forall_mem_singleton]
  refine ⟨isWritable_of_subset ?_ ?_ ?_ (List.forall_mem_singleton.mpr hcapacity), ?choice,
    isWritable_of_subset ?_ ?_ ?_
      (List.forall_mem_cons.mpr ⟨trivial, List.forall_mem_singleton.mpr trivial⟩)⟩
  case choice =>
    cases hgiven : c.choice.minDiversity with
    | none =>
        refine isWritable_of_subset ?_ ?_ ?_ (List.forall_mem_cons.mpr ⟨hlow,
          List.forall_mem_cons.mpr ⟨hhigh, List.forall_mem_singleton.mpr hbins⟩⟩)
        all_goals simp [names, parts]
    | some x =>
        refine isWritable_of_subset ?_ ?_ ?_ (List.forall_mem_cons.mpr ⟨hlow,
          List.forall_mem_cons.mpr ⟨hhigh, List.forall_mem_cons.mpr ⟨hfloor x hgiven,
            List.forall_mem_singleton.mpr hbins⟩⟩⟩)
        all_goals simp [names, parts]
  all_goals simp [names, parts]

theorem toInt_ofInt_of_fits {n : ℤ} (h : Decimal.fitsInt64 n = true) :
    (Int64.ofInt n).toInt = n := by
  rw [Decimal.fitsInt64_eq_true_iff, Decimal.minInt64, Decimal.maxInt64] at h
  exact Int64.toInt_ofInt_of_le (by omega) (by omega)

theorem fitsInt64_toInt (n : Int64) : Decimal.fitsInt64 n.toInt = true := by
  have hle := n.le_toInt
  have hlt := n.toInt_lt
  rw [Decimal.fitsInt64_eq_true_iff, Decimal.minInt64, Decimal.maxInt64]
  omega

theorem readNat_ofInt_of_fits {n : ℕ} (h : Decimal.fitsInt64 n = true) :
    readNat (.integer (.ofInt n)) = some n := by
  rw [readNat, toInt_ofInt_of_fits h, if_pos (Int.natCast_nonneg n), Int.toNat_natCast]

/-- The sections of a configuration describe it. -/
theorem describedBy_toSections {c : Config}
    (hcapacity : Decimal.fitsInt64 c.attention.maxAttentionItems = true)
    (hbins : Decimal.fitsInt64 c.choice.bins = true) :
    c.DescribedBy (Section.listToTable c.toSections) := by
  have hint := congrArg some (toInt_ofInt_of_fits hcapacity)
  have hnat := readNat_ofInt_of_fits hbins
  obtain ⟨attention, ⟨low, high, floor, bins⟩, monitor⟩ := c
  have hsections (floor : Option Float) : ∀ part ∈ parts, ∀ v,
      (Section.listToTable (toSections ⟨attention, ⟨low, high, floor, bins⟩, monitor⟩)).lookup
        part = some v → (readSection (keysOf part) v).isSome = true := by
    intro part hpart v hv
    obtain rfl | rfl | rfl : part = "attention" ∨ part = "choice" ∨ part = "pac_monitor" := by
      simpa [parts] using hpart
    all_goals
      cases hv
      rfl
  cases floor with
  | none => exact ⟨hsections none, hint, rfl, rfl, rfl, hnat, rfl, rfl⟩
  | some x => exact ⟨hsections (some x), hint, rfl, rfl, rfl, hnat, rfl, rfl⟩

theorem given_minDiversity_toSections (c : Config) :
    given (Section.listToTable c.toSections) "choice" "min_diversity" = none ↔
      c.choice.minDiversity = none := by
  obtain ⟨attention, ⟨low, high, floor, bins⟩, monitor⟩ := c
  cases floor with
  | none => exact ⟨fun _ => rfl, fun _ => rfl⟩
  | some x => exact ⟨fun h => (nomatch h), fun h => (nomatch h)⟩

theorem exists_toText (htoml : toml.IsFaithful) {c : Config} (hvalid : c.validate = .ok ())
    (hcapacity : Decimal.fitsInt64 c.attention.maxAttentionItems = true)
    (hbins : Decimal.fitsInt64 c.choice.bins = true) : ∃ text, c.toText toml = .ok text ∧
      toml.parse? text = some (Section.listToTable c.toSections) := by
  obtain ⟨text, hwrite, hparse⟩ := htoml.parse?_write? c.toSections
    (isWritable_toSections hvalid hcapacity hbins) (by simp [toSections])
  exact ⟨text, by rw [toText, hwrite], hparse⟩

theorem toText_of_beyond (htoml : toml.IsFaithful) {c : Config}
    (hbins : Decimal.fitsInt64 c.choice.bins = false) : c.toText toml = .error .malformed := by
  obtain ⟨s, hs, hmem⟩ : ∃ s ∈ c.toSections,
      Scalar.integer c.choice.bins ∈ s.entries.map Prod.snd := by
    simp [toSections]
  rw [toText, htoml.write?_eq_none _ s hs _ hmem hbins]

theorem fitsInt64_bins_iff (c : Config) :
    Decimal.fitsInt64 c.choice.bins = true ↔ (c.choice.bins : ℤ) ≤ Decimal.maxInt64 := by
  rw [Decimal.fitsInt64_eq_true_iff, Decimal.minInt64, Decimal.maxInt64]
  omega

/-- A valid configuration whose integers have sixty-four signed bits is printed, and what is
printed is read again as the configuration it was. -/
theorem ofTextOr_toText (htoml : toml.IsFaithful) {c : Config} (hvalid : c.validate = .ok ())
    (hcapacity : Decimal.fitsInt64 c.attention.maxAttentionItems = true)
    (hbins : Decimal.fitsInt64 c.choice.bins = true) : ∃ text t, c.toText toml = .ok text ∧
      toml.parse? text = some t ∧
      (given t "choice" "min_diversity" = none ↔ c.choice.minDiversity = none) ∧
      ∀ fault, ofTextOr toml fault text = .ok c := by
  obtain ⟨text, htext, hparse⟩ := exists_toText htoml hvalid hcapacity hbins
  refine ⟨text, _, htext, hparse, given_minDiversity_toSections c, fun fault => ?_⟩
  have htable := (ofTable?_eq_some_iff c).mpr (describedBy_toSections hcapacity hbins)
  rw [ofTextOr, hparse, Option.bind_some, htable]
  exact (validated_eq_ok_iff _ _).mpr ⟨hvalid, rfl⟩

theorem exists_toText_iff (htoml : toml.IsFaithful) {c : Config} (hvalid : c.validate = .ok ())
    (hcapacity : Decimal.fitsInt64 c.attention.maxAttentionItems = true) :
    (∃ text, c.toText toml = .ok text) ↔ (c.choice.bins : ℤ) ≤ Decimal.maxInt64 := by
  rw [← fitsInt64_bins_iff]
  constructor
  · rintro ⟨text, htext⟩
    by_contra hbeyond
    rw [toText_of_beyond htoml (Bool.not_eq_true _ ▸ hbeyond)] at htext
    cases htext
  · intro hbins
    obtain ⟨text, htext, -⟩ := exists_toText htoml hvalid hcapacity hbins
    exact ⟨text, htext⟩

/-! ## Loading -/

theorem ofFile_toUTF8 (path text : String) :
    ofFile toml path (some text.toUTF8) = ofTextOr toml (.unparsable path) text := by
  have hdecode : String.fromUTF8? text.toUTF8 = some text := dif_pos text.isValidUTF8
  rw [ofFile, Option.bind_some, hdecode]

theorem Holds.imp {β : Type} {read : Value → Option β} {value fallback : β} {p : β → Prop}
    {v : Option Value} (h : Holds read value fallback v) (hfallback : p fallback)
    (hread : ∀ w, v = some w → ∀ b, read w = some b → p b) : p value := by
  cases v with
  | none => exact h ▸ hfallback
  | some w => exact hread w rfl value h

theorem fitsInt64_of_readInt {v : Value} {n : ℤ} (h : readInt v = some n) :
    Decimal.fitsInt64 n = true := by
  cases v with
  | integer k =>
      cases h
      exact fitsInt64_toInt k
  | _ => cases h

theorem fitsInt64_of_readNat {v : Value} {n : ℕ} (h : readNat v = some n) :
    Decimal.fitsInt64 n = true := by
  cases v with
  | integer k =>
      rw [readNat, Option.ite_none_right_eq_some, Option.some.injEq] at h
      rw [← h.2, Int.toNat_of_nonneg h.1]
      exact fitsInt64_toInt k
  | _ => cases h

/-- The integers of a configuration that a document describes have sixty-four signed
bits. -/
theorem fitsInt64_of_describedBy {c : Config} (hc : c.DescribedBy t) :
    Decimal.fitsInt64 c.attention.maxAttentionItems = true ∧
      Decimal.fitsInt64 c.choice.bins = true :=
  ⟨hc.maxAttentionItems.imp (p := fun n : ℤ => Decimal.fitsInt64 n = true) rfl
      fun _ _ _ hread => fitsInt64_of_readInt hread,
    hc.bins.imp (p := fun n : ℕ => Decimal.fitsInt64 n = true) rfl
      fun _ _ _ hread => fitsInt64_of_readNat hread⟩

theorem exists_describedBy_of_ofTextOr {fault : EngineError} {text : String} {c : Config}
    (h : ofTextOr toml fault text = .ok c) :
    ∃ t, toml.parse? text = some t ∧ c.DescribedBy t ∧ c.validate = .ok () := by
  unfold ofTextOr at h
  split at h
  · cases h
  · rename_i d hd
    obtain ⟨hvalid, rfl⟩ := (validated_eq_ok_iff _ _).mp h
    obtain ⟨t, hparse, htable⟩ := Option.bind_eq_some_iff.mp hd
    exact ⟨t, hparse, (ofTable?_eq_some_iff _).mp htable, hvalid⟩

theorem exists_text_of_ofFile {path : String} {contents : Option ByteArray} {c : Config}
    (h : ofFile toml path contents = .ok c) :
    ∃ text, ofTextOr toml (.unparsable path) text = .ok c := by
  unfold ofFile at h
  split at h
  · cases h
  · exact ⟨_, h⟩

/-- What can be loaded can be printed, and is then loaded again as it was. -/
theorem exists_toText_of_ofFile (htoml : toml.IsFaithful) {path : String}
    {contents : Option ByteArray} {c : Config} (h : ofFile toml path contents = .ok c) :
    ∃ text, c.toText toml = .ok text ∧ ∀ fault, ofTextOr toml fault text = .ok c := by
  obtain ⟨source, hsource⟩ := exists_text_of_ofFile h
  obtain ⟨t, hparse, hc, hvalid⟩ := exists_describedBy_of_ofTextOr hsource
  obtain ⟨hcapacity, hbins⟩ := fitsInt64_of_describedBy hc
  obtain ⟨text, -, htext, -, -, hread⟩ := ofTextOr_toText htoml hvalid hcapacity hbins
  exact ⟨text, htext, hread⟩

theorem check_of_load {host : Command.Host} {path text : String} {c : Config}
    (hload : ofFile host.toml path (host.files path) = .ok c)
    (htext : c.toText host.toml = .ok text) :
    Command.check host path = .ok ("Configuration OK\n\n" ++ text ++ "\n") := by
  have hconfig : Command.loadConfig host (some path) = .ok c := by
    rw [Command.loadConfig, hload]
  rw [Command.check, hconfig]
  change (do
    let text ← (c.toText host.toml).mapError Command.Stop.ofError
    return "Configuration OK\n\n" ++ text ++ "\n") = _
  rw [htext]
  rfl

/-- A text is a valid configuration, a configuration that is not valid, or no
configuration at all, and only in the last case a file with that text is reported in
another way than the text. -/
theorem load_cases (toml : Toml.Codec) (path text : String) :
    (∃ t, ∃ c : Config, toml.parse? text = some t ∧ c.DescribedBy t ∧
      ofText toml text = c.validated ∧ ofFile toml path (some text.toUTF8) = c.validated) ∨
    ((∀ t, toml.parse? text = some t → ∀ c : Config, ¬ c.DescribedBy t) ∧
      ofText toml text = .error .malformed ∧
      ofFile toml path (some text.toUTF8) = .error (.unparsable path)) := by
  rw [ofFile_toUTF8, ofText]
  unfold ofTextOr
  cases hdescribed : (toml.parse? text).bind ofTable? with
  | none =>
      refine .inr ⟨fun t hparse c hc => ?_, rfl, rfl⟩
      rw [hparse, Option.bind_some, (ofTable?_eq_some_iff c).mpr hc] at hdescribed
      cases hdescribed
  | some c =>
      obtain ⟨t, hparse, htable⟩ := Option.bind_eq_some_iff.mp hdescribed
      exact .inl ⟨t, c, hparse, (ofTable?_eq_some_iff c).mp htable, rfl, rfl⟩

/-- A valid configuration, whose capacity is an integer of sixty-four signed bits as every
capacity is, has a text exactly if its count of bins fits into a document, and that text is
the configuration, with a floor only if there is one.  A file is loaded as its text is read,
field by field.  And what is checked is printed and can be loaded again as it was. -/
theorem prints_and_reloads {toml : Toml.Codec} (htoml : toml.IsFaithful) :
    (∀ c : Config, c.validate = .ok () →
      Decimal.fitsInt64 c.attention.maxAttentionItems = true →
      ((∃ text, c.toText toml = .ok text) ↔ (c.choice.bins : ℤ) ≤ Decimal.maxInt64) ∧
      ∀ text, c.toText toml = .ok text → ofText toml text = .ok c ∧
        ∃ t, toml.parse? text = some t ∧
          (given t "choice" "min_diversity" = none ↔ c.choice.minDiversity = none)) ∧
    (∀ path text : String,
      (∃ t, ∃ c : Config, toml.parse? text = some t ∧ c.DescribedBy t ∧
        ofText toml text = c.validated ∧ ofFile toml path (some text.toUTF8) = c.validated) ∨
      ((∀ t, toml.parse? text = some t → ∀ c : Config, ¬ c.DescribedBy t) ∧
        ofText toml text = .error .malformed ∧
        ofFile toml path (some text.toUTF8) = .error (.unparsable path))) ∧
    (∀ (host : Command.Host) (args : List String) (path : String) (c : Config),
      host.toml = toml → host.arguments args = .ok (.check path) →
      ofFile toml path (host.files path) = .ok c →
      ∃ text, Command.run host args = { output := "Configuration OK\n\n" ++ text ++ "\n" } ∧
        c.toText toml = .ok text ∧ ofText toml text = .ok c ∧
        ∀ saved, ofFile toml saved (some text.toUTF8) = .ok c) := by
  refine ⟨fun c hvalid hcapacity => ⟨exists_toText_iff htoml hvalid hcapacity,
    fun text htext => ?_⟩, load_cases toml, ?_⟩
  · have hbins := (fitsInt64_bins_iff c).mpr
      ((exists_toText_iff htoml hvalid hcapacity).mp ⟨text, htext⟩)
    obtain ⟨text', t, htext', hparse, hfloor, hread⟩ :=
      ofTextOr_toText htoml hvalid hcapacity hbins
    cases htext.symm.trans htext'
    exact ⟨hread _, t, hparse, hfloor⟩
  · rintro host args path c rfl hargs hload
    obtain ⟨text, htext, hread⟩ := exists_toText_of_ofFile htoml hload
    refine ⟨text, ?_, htext, hread _, fun saved => ?_⟩
    · simp only [Command.run, hargs, check_of_load hload htext]
      rfl
    · rw [ofFile_toUTF8]
      exact hread _

/-- A host with a file that gives nothing but a floor. -/
def flooredHost : Command.Host :=
  .standard fun _ => some "[choice]\nmin_diversity = 0.4\n".toUTF8

/-- A file that gives nothing but a floor is printed with every field and loaded again. -/
theorem prints_and_reloads_floored : ∃ c : Config,
    ofFile .standard "seraa.toml" (flooredHost.files "seraa.toml") = .ok c ∧
      c.attention.maxAttentionItems = 10 ∧ c.choice.minDiversity = some 0.4 ∧
      ∃ text, Command.run flooredHost ["check"] =
          { output := "Configuration OK\n\n" ++ text ++ "\n" } ∧
        ofText .standard text = .ok c ∧
        ∃ t, Toml.parse? text = some t ∧ given t "choice" "min_diversity" ≠ none := by
  have hfields : (ofFile .standard "seraa.toml" (flooredHost.files "seraa.toml")).toOption.map
      (fun c => (c.attention.maxAttentionItems, c.choice.minDiversity)) = some (10, some 0.4) := by
    decide +kernel
  cases hload : ofFile .standard "seraa.toml" (flooredHost.files "seraa.toml") with
  | error err =>
      rw [hload] at hfields
      cases hfields
  | ok c =>
      rw [hload] at hfields
      obtain ⟨hitems, hfloor⟩ := Prod.mk.inj (Option.some.inj hfields)
      obtain ⟨hprint, -, hcheck⟩ := prints_and_reloads Toml.isFaithful_standard
      obtain ⟨text, hrun, htext, hread, -⟩ :=
        hcheck flooredHost ["check"] "seraa.toml" c rfl (by rfl) hload
      obtain ⟨-, t, hparse, hgiven⟩ :=
        (hprint c (validate_of_ofFile hload) (by rw [hitems]; rfl)).2 text htext
      refine ⟨c, rfl, hitems, hfloor, text, hrun, hread, t, hparse, fun hnone => ?_⟩
      cases hfloor.symm.trans (hgiven.mp hnone)

end Vigil.Config
