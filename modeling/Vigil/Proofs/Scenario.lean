import Mathlib.Data.List.Forall2
import Vigil.Proofs.Decimal.Unit
import Vigil.Scenario

/-!
# What a scenario says of its actions

An action of a scenario is read from an item of the data, and says what the item says: a
field stands under its name, or at its place if the item is an array.
-/

namespace Vigil.Scenario

open Json (Codec)

/-- The value of a field: what stands under its name, or at its place in an array. -/
def valueOf? (names : List String) (name : String) : Json → Option Json
  | .array items => items[names.idxOf name]?
  | j => j.field? name

/-- Whether an action is on offer: it is viable, or does not say whether it is. -/
def onOffer (item : Json) : Bool :=
  match valueOf? Action.fieldNames "viable" item with
  | none => true
  | some answer => answer.boolean? == some true

def scoreOf? (json : Codec) (item : Json) : Option Float :=
  (valueOf? Action.fieldNames "pac_score" item).bind json.readFloat?

/-- The items that a scenario has actions for. -/
def itemsOf? (j : Json) : Option (List Json) := (valueOf? fieldNames "actions" j).bind Json.items?

/-- An action says what the data says that it is read from. -/
structure ReadFrom (json : Codec) (item : Json) (a : Action) : Prop where
  viable : onOffer item = a.viable
  score : scoreOf? json item = some a.pacScore

variable {json : Codec} {names : List String} {name : String} {items : List Json}

theorem mem_zip_iff (hnames : names.Nodup) {j : Json} :
    (name, j) ∈ names.zip items ↔ name ∈ names ∧ items[names.idxOf name]? = some j := by
  rw [List.mem_iff_getElem?]
  simp only [List.getElem?_zip_eq_some]
  constructor
  · rintro ⟨i, hname, hj⟩
    have hidx : names.idxOf name = i := by
      obtain ⟨hi, rfl⟩ := List.getElem?_eq_some_iff.mp hname
      exact hnames.idxOf_getElem i hi
    exact ⟨List.mem_of_getElem? hname, hidx ▸ hj⟩
  · rintro ⟨hmem, hj⟩
    exact ⟨names.idxOf name, List.getElem?_idxOf hmem, hj⟩

/-- In a record made of an array a field stands at its place. -/
theorem field?_zip (hnames : names.Nodup) (hname : name ∈ names) :
    (Json.object (names.zip items)).field? name = items[names.idxOf name]? := by
  change ((names.zip items).reverse.find? fun f => f.1 == name).map (·.2) = _
  cases hfind : (names.zip items).reverse.find? fun f => f.1 == name with
  | none =>
      cases hitem : items[names.idxOf name]? with
      | none => rfl
      | some j =>
          have hmem := List.mem_reverse.mpr ((mem_zip_iff hnames).mpr ⟨hname, hitem⟩)
          exact absurd (beq_self_eq_true name) (List.find?_eq_none.mp hfind _ hmem)
  | some f =>
      have hmem := List.mem_reverse.mp (List.mem_of_find?_eq_some hfind)
      obtain rfl : f.1 = name := by simpa using List.find?_some hfind
      exact ((mem_zip_iff hnames).mp hmem).2.symm

theorem field?_of_record? {j record : Json} (h : record? names j = some record)
    (hnames : names.Nodup) (hname : name ∈ names) :
    record.field? name = valueOf? names name j := by
  cases j with
  | object fields =>
      obtain ⟨-, h⟩ := Option.ite_none_right_eq_some.mp h
      cases h
      rfl
  | array items =>
      obtain ⟨-, h⟩ := Option.ite_none_right_eq_some.mp h
      cases h
      exact field?_zip hnames hname
  | _ => cases h

theorem readFrom_of_readAction {item : Json} {a : Action} (h : readAction json item = some a) :
    ReadFrom json item a := by
  obtain ⟨record, hrecord, h⟩ := Option.bind_eq_some_iff.mp h
  obtain ⟨text, -, h⟩ := Option.bind_eq_some_iff.mp h
  obtain ⟨pacScore, hscore, h⟩ := Option.bind_eq_some_iff.mp h
  obtain ⟨viable, hviable, h⟩ := Option.bind_eq_some_iff.mp h
  cases h
  rw [field?_of_record? hrecord (by decide) (by decide)] at hscore
  rw [Form.fieldOr, field?_of_record? hrecord (by decide) (by decide)] at hviable
  refine ⟨?_, hscore⟩
  unfold onOffer
  cases hvalue : valueOf? Action.fieldNames "viable" item with
  | none =>
      rw [hvalue] at hviable
      exact Option.some.inj hviable
  | some answer =>
      rw [hvalue] at hviable
      replace hviable : answer.boolean? = some viable := hviable
      simp [hviable]

theorem readFrom_of_mapM {actions : List Action}
    (h : items.mapM (readAction json) = some actions) :
    List.Forall₂ (ReadFrom json) items actions := by
  induction items generalizing actions with
  | nil =>
      cases h
      exact .nil
  | cons item items ih =>
      rw [List.mapM_cons] at h
      obtain ⟨a, ha, h⟩ := Option.bind_eq_some_iff.mp h
      obtain ⟨rest, hrest, h⟩ := Option.bind_eq_some_iff.mp h
      cases h
      exact .cons (readFrom_of_readAction ha) (ih hrest)

theorem items_of_ofText? {text : String} {s : Scenario} (h : ofText? json text = some s) :
    ∃ j items, json.parse? text = some j ∧ itemsOf? j = some items ∧
      List.Forall₂ (ReadFrom json) items s.actions := by
  obtain ⟨j, hj, h⟩ := Option.bind_eq_some_iff.mp h
  obtain ⟨record, hrecord, h⟩ := Option.bind_eq_some_iff.mp h
  obtain ⟨moral, -, h⟩ := Option.bind_eq_some_iff.mp h
  obtain ⟨field, hfield, h⟩ := Option.bind_eq_some_iff.mp h
  obtain ⟨items, hitems, h⟩ := Option.bind_eq_some_iff.mp h
  obtain ⟨actions, hactions, h⟩ := Option.bind_eq_some_iff.mp h
  cases h
  rw [field?_of_record? hrecord (by decide) (by decide)] at hfield
  exact ⟨j, items, hj, by rw [itemsOf?, hfield, Option.bind_some, hitems],
    readFrom_of_mapM hactions⟩

section ReadFrom

variable {actions : List Action}

theorem countP_onOffer (h : List.Forall₂ (ReadFrom json) items actions) :
    items.countP onOffer = actions.countP (·.viable) := by
  induction h with
  | nil => rfl
  | cons hread _ ih => rw [List.countP_cons, List.countP_cons, ih, hread.viable]

theorem exists_item_of_action (h : List.Forall₂ (ReadFrom json) items actions) {i : Nat}
    {a : Action} (ha : actions[i]? = some a) :
    ∃ item, items[i]? = some item ∧ ReadFrom json item a := by
  obtain ⟨hi, rfl⟩ := List.getElem?_eq_some_iff.mp ha
  have hi' : i < items.length := h.length_eq ▸ hi
  exact ⟨items[i], List.getElem?_eq_getElem hi', h.get hi' hi⟩

theorem exists_outside_iff (h : List.Forall₂ (ReadFrom json) items actions) :
    (∃ item ∈ items, onOffer item = true ∧ ∃ x, scoreOf? json item = some x ∧ Outside x) ↔
      ∃ a ∈ actions, a.viable = true ∧ Outside a.pacScore := by
  induction h with
  | nil => simp
  | cons hread _ ih =>
      simp only [List.mem_cons, or_and_right, exists_or, exists_eq_left, ih, hread.viable,
        hread.score, Option.some.injEq, exists_eq_left']

end ReadFrom

end Vigil.Scenario
