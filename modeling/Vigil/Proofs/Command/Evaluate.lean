import Vigil.Command.Arguments
import Vigil.Proofs.Choice.Course
import Vigil.Proofs.Engine.Escalated
import Vigil.Proofs.Engine.Start
import Vigil.Proofs.Json.Values
import Vigil.Proofs.Scenario

/-!
# What the evaluation of a scenario prints

A scenario is refused if an action on offer has a score outside the unit interval.
Otherwise the assessment and the attention queue are printed, and they tell the same:
the queue of the new engine was empty, so it holds the verdict if that was escalated,
and nothing else.  Of the formats nothing is assumed but that what is printed can be read
again, and of the host that it has memory for the queue, and for a histogram if scores are
counted.
-/

namespace Vigil

namespace Constraint

variable {α A : Type} [Scalar α]

theorem viableCount_summarize (c : Constraint α) (moralEntropy : α) (n : Nat) (scores : List α) :
    (c.summarize moralEntropy n scores).viableCount = scores.length := by
  cases scores <;> rfl

section Answers

variable {A : Type} {actions : List A} {score : A → Float} {viable : A → Bool}

/-- If every viable action has a score that counts, none is outside the unit interval. -/
theorem not_outside_of_scored {scores : List Float}
    (h : List.Forall₂ (fun a x => askScore (fun a => .ok (score a)) a = .ok x)
      (viableActions (fun a => .ok (viable a)) actions) scores)
    {a : A} (ha : a ∈ actions) (hviable : viable a = true) : ¬ Outside (score a) := by
  intro hout
  obtain ⟨i, hi, rfl⟩ := List.getElem_of_mem ha
  have hmem : (actions[i], i) ∈ viableActions (fun a => .ok (viable a)) actions :=
    mem_viableActions (List.getElem?_eq_getElem hi) hviable
  obtain ⟨k, hk, hget⟩ := List.getElem_of_mem hmem
  have hasked := h.get hk (h.length_eq ▸ hk)
  rw [List.get_eq_getElem, hget, askScore_eq_ok_iff, ← acceptsScore_eq_true_iff,
    Except.ok.injEq] at hasked
  rw [← acceptsScore_eq_false_iff, hasked.1, hasked.2] at hout
  cases hout

/-- A viable action whose score does not count is reported with that score, which is
outside the unit interval. -/
theorem outside_of_refused {a : A × Nat} {err : ChoiceError Float}
    (h : askScore (fun a => .ok (score a)) a = .error err) :
    Outside (score a.1) ∧ err = .scoreOutOfRange a.2 (score a.1) := by
  by_cases hscore : IsScore (score a.1)
  · have hscored : askScore (fun a => .ok (score a)) a = .ok (score a.1) :=
      askScore_of_ok rfl hscore
    cases hscored.symm.trans h
  · have hrefused : askScore (fun a => .ok (score a)) a =
        .error (.scoreOutOfRange a.2 (score a.1)) := askScore_of_not_isScore rfl hscore
    cases hrefused.symm.trans h
    rw [← acceptsScore_eq_true_iff, Bool.not_eq_true, acceptsScore_eq_false_iff] at hscore
    exact ⟨hscore, rfl⟩

/-- With an answer to every question, an evaluation fails if a viable action has a score
outside the unit interval, and otherwise counts the viable actions. -/
theorem evaluate_of_answers (c : Constraint Float) (moral : MoralState Float) (actions : List A)
    (score : A → Float) (viable : A → Bool) :
    (∃ i a, actions[i]? = some a ∧ viable a = true ∧ Outside (score a) ∧
      (c.evaluate moral actions (fun a => .ok (score a)) fun a => .ok (viable a)).outcome =
        .error (.scoreOutOfRange i (score a))) ∨
    (∀ a ∈ actions, viable a = true → ¬ Outside (score a)) ∧
      ∃ r, (c.evaluate moral actions (fun a => .ok (score a)) fun a => .ok (viable a)).outcome =
          .ok r ∧
        r.viableCount = actions.countP viable := by
  have hchecked : ∀ a ∈ actions, ∃ answer, (.ok (viable a) : Except String Bool) = .ok answer :=
    fun a _ => ⟨viable a, rfl⟩
  rw [evaluate_of_checked hchecked]
  rcases answers_or_first_failure (askScore fun a => .ok (score a))
      (viableActions (fun a => .ok (viable a)) actions) with
    ⟨scores, hall⟩ | ⟨before, b, after, err, hsplit, hbefore, hfails⟩
  · right
    refine ⟨fun a => not_outside_of_scored hall, _, by rw [survey_of_forall₂ hall]; rfl, ?_⟩
    rw [viableCount_summarize, ← hall.length_eq, List.countP_eq_length_filter,
      ← List.length_map (f := Prod.fst), map_fst_viableActions]
    rfl
  · left
    have hmem : b ∈ viableActions (fun a => .ok (viable a)) actions := by
      rw [hsplit]
      exact List.mem_append_right _ List.mem_cons_self
    obtain ⟨hout, rfl⟩ := outside_of_refused hfails
    refine ⟨b.2, b.1, getElem?_of_mem_viableActions hmem, affirms_of_mem_viableActions hmem,
      hout, ?_⟩
    rw [hsplit, survey_of_fails after hbefore hfails]
    rfl

end Answers

end Constraint

namespace Engine

variable {c : Config} {constraint : Constraint Float} {capacity : Nat} {A : Type}
  {moral : MoralState Float} {actions : List A} {score : A → Except String Float}
  {viable : A → Except String Bool} {r : Evaluation Float}

/-- Whether the verdict on a result is escalated by a new engine. -/
def escalates (c : Config) (r : Evaluation Float) : Bool :=
  c.pacMonitor.enabled && r.verdict != .positive

theorem attention_of_queue? {e : Engine} {q : Attention.Queue}
    (h : e.network.queue? layer = some q) : e.attention = q.items := by
  obtain ⟨l, hl, rfl⟩ := Option.map_eq_some_iff.mp h
  rw [attention, hl]

theorem watch_fresh_ne_error (r : Evaluation Float) (err : MonitorError) (n : Network) :
    (fresh c constraint capacity).watch r ≠ (.error err, n) := by
  intro h
  obtain ⟨id, m, sink, hpac, hm, hsink, -, hrefused, -⟩ := watch_of_error (watches_fresh _ _ _) h
  have henabled : c.pacMonitor.enabled = true := by
    by_contra hdisabled
    rw [pacMonitor_fresh, if_neg hdisabled] at hpac
    cases hpac
  rw [pacMonitor_fresh, if_pos henabled] at hpac
  cases hpac
  obtain ⟨m', hm', -, hsink'⟩ :=
    Network.binding?_eq_some_iff.mp (binding?_fresh henabled constraint capacity)
  cases hm.symm.trans hm'
  cases hsink.symm.trans hsink'
  have haccepts := (Network.isOk_deliver_layer
    ⟨(fresh c constraint capacity).config.pacMonitor.name, r.verdict⟩).mpr
      (Network.lt_size_of_queue? (queue?_fresh c constraint capacity))
  rw [hrefused] at haccepts
  cases haccepts

/-- What an empty queue with room for an item makes of its first push. -/
theorem items_push_empty {q : Attention.Queue} (hitems : q.items = []) (hpos : 0 < q.capacity)
    (monitor : String) (value : Ternary) :
    (q.push monitor value).2.items = [⟨monitor, value, q.next⟩] := by
  have hroom : ¬ q.isFull = true := by
    rw [Attention.Queue.isFull_eq_true_iff, hitems]
    exact Nat.not_le.mpr hpos
  rw [Attention.Queue.push, if_neg hroom, Attention.Queue.items_append, hitems]
  rfl

theorem alerts_record_default (count : Nat) : (Tracker.default.record count).alerts = false := rfl

/-- The first assessment of a new engine comes through if the evaluation does, and the
layer's queue holds the verdict afterwards if it was escalated. -/
theorem assess_fresh_of_ok (hpos : 0 < capacity)
    (hr : (constraint.evaluate moral actions score viable).outcome = .ok r) :
    ∃ e', (fresh c constraint capacity).assess moral actions score viable =
        (.ok { result := r
               monitorValue := if c.pacMonitor.enabled then some r.verdict else none
               escalated := escalates c r
               erosionAlert := false }, e') ∧
      e'.attention = if escalates c r then [⟨c.pacMonitor.name, r.verdict, 0⟩] else [] := by
  obtain ⟨err, herr, -⟩ | ⟨r', err, n, -, hwatch, -⟩ | ⟨r', value, n, hr', hwatch, hassess⟩ :=
    (fresh c constraint capacity).assess_cases moral actions score viable
  · rw [constraint_fresh, hr] at herr
    cases herr
  · exact absurd hwatch (watch_fresh_ne_error _ _ _)
  · rw [constraint_fresh, hr] at hr'
    cases hr'
    rw [tracker_fresh, alerts_record_default] at hassess
    cases henabled : c.pacMonitor.enabled with
    | false =>
        have hpac : (fresh c constraint capacity).pacMonitor = none := by
          rw [pacMonitor_fresh, henabled, if_neg Bool.false_ne_true]
        rw [watch_of_disabled hpac] at hwatch
        cases hwatch
        refine ⟨_, hassess.trans (Prod.ext ?_ rfl), ?_⟩
        · simp only [escalates, henabled]
          rfl
        · simp only [escalates, henabled]
          exact attention_of_queue? (queue?_fresh c constraint capacity)
    | true =>
        have hpac : (fresh c constraint capacity).pacMonitor = some 0 := by
          rw [pacMonitor_fresh, henabled, if_pos rfl]
        obtain ⟨m, hm, hname, hsink⟩ :=
          Network.binding?_eq_some_iff.mp (binding?_fresh henabled constraint capacity)
        have hqueue := (escalated_of_assess (watches_fresh _ _ _) hpac hm hassess).2 layer
        rcases watch_of_ok (watches_fresh _ _ _) hwatch with
          ⟨hnone, -, -⟩ | ⟨-, -, -, -, -, -, -, rfl⟩
        · cases hpac.symm.trans hnone
        · refine ⟨_, hassess.trans (Prod.ext ?_ rfl), ?_⟩
          · simp only [escalates, henabled]
            rfl
          · simp only [escalates, henabled, Bool.true_and, bne_iff_ne]
            rw [hsink, queue?_fresh] at hqueue
            split at hqueue
            · rename_i hne
              rw [if_pos hne.1, attention_of_queue? hqueue, items_push_empty rfl hpos, hname]
            · rename_i hnot
              have heq : ¬ r.verdict ≠ .positive := fun hne => hnot ⟨hne, rfl⟩
              rw [if_neg heq, attention_of_queue? hqueue]

end Engine

namespace Command

open Engine (escalates)
open Json (IsPrintable Shows)

/-- A count as it is written. -/
def numeral (n : ℕ) : Json :=
  .number { negative := false, digits := n, exponent := 0, whole := true }

/-- What is printed of an evaluation: its result, what the monitor of verdicts found,
and the one item that was escalated, if any. -/
def report (c : Config) (r : Evaluation Float) : Json := .object [
  ("assessment", .object [
    ("erosion_alert", .boolean false),
    ("escalated", .boolean (escalates c r)),
    ("monitor_value", if c.pacMonitor.enabled then .string r.verdict.tag else .null),
    ("result", .object [
      ("aggregate_pac", .ofFloat r.aggregate),
      ("diversity", .ofFloat r.diversity),
      ("max_pac", .ofFloat r.best),
      ("moral_entropy", .ofFloat r.moralEntropy),
      ("total_count", numeral r.totalCount),
      ("verdict", .string r.verdict.tag),
      ("viable_count", numeral r.viableCount)])]),
  ("attention_queue", .array <|
    if escalates c r then
      [.object [("monitor", .string c.pacMonitor.name), ("sequence", numeral 0),
        ("value", .string r.verdict.tag)]]
    else [])]

theorem ofNat_eq_numeral (n : ℕ) : Json.ofNat n = numeral n := by
  have hsign : decide ((n : ℤ) < 0) = false := decide_eq_false (by omega)
  rw [Json.ofNat, Numeral.ofInt, hsign]
  rfl

/-- The report is the form of the assessment and of the queue after it. -/
theorem assessed_eq_report (c : Config) (r : Evaluation Float) :
    assessed ⟨r, if c.pacMonitor.enabled then some r.verdict else none, escalates c r, false⟩
        (if escalates c r then [⟨c.pacMonitor.name, r.verdict, 0⟩] else []) =
      report c r := by
  unfold report
  rw [← ofNat_eq_numeral, ← ofNat_eq_numeral, ← ofNat_eq_numeral]
  cases c.pacMonitor.enabled <;> cases escalates c r <;> rfl

theorem isPrintable_ofFloat (depth : ℕ) (x : Float) : IsPrintable depth (.ofFloat x) := by
  unfold Json.ofFloat
  split
  · exact .float ‹_›
  · exact .null

theorem isPrintable_numeral (depth n : ℕ) : IsPrintable depth (numeral n) := by
  rw [← ofNat_eq_numeral]
  exact .integer n

theorem isPrintable_object (depth : ℕ) {fields : List (String × Json)} (names : List String)
    (hsorted : names.Pairwise (· < ·)) (hnames : fields.map Prod.fst = names)
    (h : ∀ f ∈ fields, IsPrintable depth f.2) : IsPrintable (depth + 1) (.object fields) :=
  .object (hnames ▸ hsorted) h

/-- A report nests three levels deep at most. -/
theorem isPrintable_report (c : Config) (r : Evaluation Float) :
    IsPrintable Json.deepest (report c r) := by
  have hvalue (depth : ℕ) : IsPrintable depth
      (if c.pacMonitor.enabled then .string r.verdict.tag else .null) := by
    split
    · exact .string _
    · exact .null
  have hqueue (depth : ℕ) : ∀ j ∈ (if escalates c r then
      [.object [("monitor", .string c.pacMonitor.name), ("sequence", numeral 0),
        ("value", .string r.verdict.tag)]]
      else [] : List Json), IsPrintable (depth + 1) j := by
    split
    · refine List.forall_mem_singleton.mpr
        (isPrintable_object depth ["monitor", "sequence", "value"] (by decide) rfl ?_)
      simp only [List.forall_mem_cons, List.not_mem_nil, false_imp_iff, implies_true, and_true]
      exact ⟨.string _, isPrintable_numeral _ _, .string _⟩
    · exact fun _ h => absurd h List.not_mem_nil
  refine isPrintable_object _ ["assessment", "attention_queue"] (by decide) rfl ?_
  simp only [List.forall_mem_cons, List.not_mem_nil, false_imp_iff, implies_true, and_true]
  refine ⟨isPrintable_object _ ["erosion_alert", "escalated", "monitor_value", "result"]
    (by decide) rfl ?_, .array (hqueue _)⟩
  simp only [List.forall_mem_cons, List.not_mem_nil, false_imp_iff, implies_true, and_true]
  refine ⟨.boolean _, .boolean _, hvalue _, isPrintable_object _ ["aggregate_pac", "diversity",
    "max_pac", "moral_entropy", "total_count", "verdict", "viable_count"] (by decide) rfl ?_⟩
  simp only [List.forall_mem_cons, List.not_mem_nil, false_imp_iff, implies_true, and_true]
  exact ⟨isPrintable_ofFloat _ _, isPrintable_ofFloat _ _, isPrintable_ofFloat _ _,
    isPrintable_ofFloat _ _, isPrintable_numeral _ _, .string _, isPrintable_numeral _ _⟩

section Run

variable {host : Host} {args : List String} {input : String} {config : Option String}
  {c : Config} {s : Scenario}

theorem validate_of_loadConfig (h : loadConfig host config = .ok c) : c.validate = .ok () := by
  cases config with
  | none =>
      cases h
      rfl
  | some path =>
      unfold loadConfig at h
      cases hfile : Config.ofFile host.toml path (host.files path) with
      | error err =>
          simp only [hfile] at h
          cases h
      | ok d =>
          simp only [hfile] at h
          cases h
          exact Config.validate_of_ofFile hfile

theorem ofText?_of_loadScenario (h : loadScenario host input = .ok s) :
    ∃ text, (host.files input).bind String.fromUTF8? = some text ∧
      Scenario.ofText? host.json text = some s := by
  unfold loadScenario at h
  cases htext : (host.files input).bind String.fromUTF8? with
  | none =>
      simp only [htext] at h
      cases h
  | some text =>
      simp only [htext] at h
      cases hs : Scenario.ofText? host.json text with
      | none =>
          simp only [hs] at h
          cases h
      | some s' =>
          simp only [hs] at h
          cases h
          exact ⟨text, rfl, hs⟩

theorem reserve_of_granted {bytes : ℕ} (h : host.refusal? bytes = none) :
    reserve host bytes = .ok () := by
  rw [reserve, h]

theorem reserve_of_refused {bytes : ℕ} {outcome : Outcome}
    (h : host.refusal? bytes = some outcome) : reserve host bytes = .error (.refused outcome) := by
  rw [reserve, h]

section Assess

variable {e e' : Engine}

theorem start_of_granted (hqueue : host.refusal? (queueBytes c) = none)
    (hnew : Engine.new c = .ok e) : start host c = .ok e := by
  simp only [start, hnew, reserve_of_granted hqueue]
  rfl

theorem assess_of_ok {a : Assessment}
    (hhistogram : 1 < min a.result.viableCount c.choice.bins →
      host.refusal? (histogramBytes c) = none)
    (h : e.assess s.moral s.actions (fun a => .ok a.pacScore) (fun a => .ok a.viable) =
      (.ok a, e')) : assess host c e s = .ok (a, e') := by
  simp only [assess, h, Except.mapError, bind, Except.bind]
  by_cases hcounts : 1 < min a.result.viableCount c.choice.bins
  · rw [if_pos hcounts, reserve_of_granted (hhistogram hcounts)]
    rfl
  · rw [if_neg hcounts]
    rfl

theorem assess_of_error {err : EngineError}
    (h : e.assess s.moral s.actions (fun a => .ok a.pacScore) (fun a => .ok a.viable) =
      (.error err, e')) : assess host c e s = .error (.failed err.message) := by
  simp only [assess, h]
  rfl

theorem run_of_assess (hargs : host.arguments args = .ok (.evaluate input config))
    (hconfig : loadConfig host config = .ok c) (hscenario : loadScenario host input = .ok s)
    (hstart : start host c = .ok e) :
    run host args = .ofResult ((assess host c e s).map fun r =>
      host.json.pretty (assessed r.1 r.2.attention) ++ "\n") := by
  simp only [run, hargs, evaluate, hconfig, hstart, hscenario, bind, Except.bind]
  cases assess host c e s <;> rfl

end Assess

/-- A queue for which there is no memory ends the run, before the scenario is read. -/
theorem run_evaluate_of_refused (hargs : host.arguments args = .ok (.evaluate input config))
    (hconfig : loadConfig host config = .ok c) {outcome : Outcome}
    (hqueue : host.refusal? (queueBytes c) = some outcome) : run host args = outcome := by
  obtain ⟨constraint, capacity, -, -, hnew⟩ :=
    Engine.new_of_validate (validate_of_loadConfig hconfig)
  simp only [run, hargs, evaluate, hconfig, start, hnew, reserve_of_refused hqueue, bind,
    Except.bind, Except.mapError]
  rfl

/-- For every configuration and every scenario that can be read, if there is memory for the
queue: the evaluation fails if an action on offer has a score outside the unit interval, and
otherwise, if there is memory for a histogram or nothing to count in it, prints a report on
its result, which counts the actions on offer.  An item takes forty bytes, a bin eight. -/
theorem run_evaluate_reports (hjson : host.json.IsFaithful)
    (hargs : host.arguments args = .ok (.evaluate input config))
    (hconfig : loadConfig host config = .ok c) (hscenario : loadScenario host input = .ok s)
    (hqueue : host.refusal? (c.attention.maxAttentionItems.toNat * 40) = none) :
    ∃ text j items, (host.files input).bind String.fromUTF8? = some text ∧
      host.json.parse? text = some j ∧ Scenario.itemsOf? j = some items ∧
      let refused := ∃ item ∈ items, Scenario.onOffer item = true ∧
        ∃ x, Scenario.scoreOf? host.json item = some x ∧ Outside x
      (refused → ∃ i item x, items[i]? = some item ∧ Scenario.onOffer item = true ∧
        Scenario.scoreOf? host.json item = some x ∧ Outside x ∧
        run host args =
          { exitCode := 1, error := some (EngineError.choice (.scoreOutOfRange i x)).message }) ∧
      (¬ refused → (1 < min (items.countP Scenario.onOffer) c.choice.bins →
          host.refusal? (c.choice.bins * 8) = none) →
        ∃ (r : Evaluation Float) (printed : String) (tree : Json),
        run host args = { output := printed ++ "\n" } ∧
        host.json.parse? printed = some tree ∧ Shows (report c r) tree ∧
        r.viableCount = items.countP Scenario.onOffer ∧
        ∃ constraint, c.constraint = .ok constraint ∧
          (constraint.evaluate s.moral s.actions (fun a => .ok a.pacScore)
            (fun a => .ok a.viable)).outcome = .ok r) := by
  obtain ⟨text, htext, hparse⟩ := ofText?_of_loadScenario hscenario
  obtain ⟨j, items, hj, hitems, hread⟩ := Scenario.items_of_ofText? hparse
  refine ⟨text, j, items, htext, hj, hitems, ?_⟩
  obtain ⟨constraint, capacity, hconstraint, hcapacity, hnew⟩ :=
    Engine.new_of_validate (validate_of_loadConfig hconfig)
  have hrun := run_of_assess hargs hconfig hscenario (start_of_granted hqueue hnew)
  rw [Scenario.exists_outside_iff hread, Scenario.countP_onOffer hread]
  rcases constraint.evaluate_of_answers s.moral s.actions (·.pacScore) (·.viable) with
    ⟨i, a, ha, hviable, hout, herr⟩ | ⟨hall, r, hr, hcount⟩
  · have hrefused : ∃ a ∈ s.actions, a.viable = true ∧ Outside a.pacScore :=
      ⟨a, List.mem_of_getElem? ha, hviable, hout⟩
    obtain ⟨item, hitem, hfrom⟩ := Scenario.exists_item_of_action hread ha
    have hassess := Engine.assess_of_evaluate_error (e := Engine.fresh c constraint capacity)
      (by rw [Engine.constraint_fresh, herr])
    rw [assess_of_error hassess] at hrun
    exact ⟨fun _ => ⟨i, item, a.pacScore, hitem, hfrom.viable.trans hviable, hfrom.score, hout,
      hrun⟩, fun hnot => absurd hrefused hnot⟩
  · refine ⟨?_, fun _ hhistogram => ?_⟩
    · rintro ⟨a, ha, hviable, hout⟩
      exact absurd hout (hall a ha hviable)
    · obtain ⟨e', hassess, hattention⟩ :=
        Engine.assess_fresh_of_ok (c := c) (Config.capacity_pos hcapacity) hr
      obtain ⟨tree, htree, hshows⟩ := hjson.parse?_pretty _ (isPrintable_report c r)
      rw [← hcount] at hhistogram
      rw [assess_of_ok hhistogram hassess, Except.map, hattention, assessed_eq_report] at hrun
      exact ⟨r, _, tree, hrun, htree, hshows, hcount, constraint, hconstraint, hr⟩

/-- A monitor with a name of its own, an action with a score in the unit interval, and one
that is not on offer. -/
def oneOnOffer : Host := .standard fun path =>
  if path = "vigil.toml" then some "[pac_monitor]\nname = \"watch\"\n".toUTF8
  else some ("\x7b\"moral_state\": \x7b\x7d, \"actions\": [" ++
    "\x7b\"name\": \"wait\", \"pac_score\": 0.5\x7d, " ++
    "\x7b\"name\": \"act\", \"pac_score\": 7, \"viable\": false\x7d]\x7d").toUTF8

theorem run_evaluate_reports_oneOnOffer :
    let args := ["evaluate", "-i", "s.json", "-c", "vigil.toml"]
    oneOnOffer.arguments args = .ok (.evaluate "s.json" (some "vigil.toml")) ∧
      ∃ c s r printed tree, loadConfig oneOnOffer (some "vigil.toml") = .ok c ∧
        c.pacMonitor.name = "watch" ∧ loadScenario oneOnOffer "s.json" = .ok s ∧
        run oneOnOffer args = { output := printed ++ "\n" } ∧ Json.parse? printed = some tree ∧
        Shows (report c r) tree ∧ r.viableCount = 1 := by
  intro args
  have hargs : oneOnOffer.arguments args = .ok (.evaluate "s.json" (some "vigil.toml")) := by
    rfl
  have hfields : (loadConfig oneOnOffer (some "vigil.toml")).toOption.map (fun c =>
      (c.pacMonitor.name, oneOnOffer.refusal? (queueBytes c))) = some ("watch", none) := by
    decide +kernel
  have hloaded : (loadScenario oneOnOffer "s.json").toOption.isSome = true := by decide +kernel
  have hread : ((((oneOnOffer.files "s.json").bind String.fromUTF8?).bind
      oneOnOffer.json.parse?).bind Scenario.itemsOf?).map (fun items =>
        (items.countP Scenario.onOffer, items.all fun item =>
          !Scenario.onOffer item ||
            (Scenario.scoreOf? oneOnOffer.json item).all Scalar.inUnit)) = some (1, true) := by
    decide +kernel
  cases hconfig : loadConfig oneOnOffer (some "vigil.toml") with
  | error err =>
      rw [hconfig] at hfields
      cases hfields
  | ok c =>
      cases hscenario : loadScenario oneOnOffer "s.json" with
      | error err =>
          rw [hscenario] at hloaded
          cases hloaded
      | ok s =>
          rw [hconfig] at hfields
          obtain ⟨hname, hqueue⟩ := Prod.mk.inj (Option.some.inj hfields)
          obtain ⟨text, j, items, htext, hj, hitems, -, hreports⟩ :=
            run_evaluate_reports Json.isFaithful_standard hargs hconfig hscenario hqueue
          rw [htext, Option.bind_some, hj, Option.bind_some, hitems, Option.map_some,
            Option.some.injEq, Prod.mk.injEq, List.all_eq_true] at hread
          obtain ⟨hcount, hall⟩ := hread
          have hsound : ¬ ∃ item ∈ items, Scenario.onOffer item = true ∧
              ∃ x, Scenario.scoreOf? oneOnOffer.json item = some x ∧ Outside x := by
            rintro ⟨item, hitem, honOffer, x, hx, hout⟩
            have hunit := hall item hitem
            rw [honOffer, hx] at hunit
            rw [← inUnit_eq_false_iff] at hout
            simp [hout] at hunit
          -- a single score is not counted
          have hfew : ¬ 1 < min (items.countP Scenario.onOffer) c.choice.bins := by omega
          obtain ⟨r, printed, tree, hrun, htree, hshows, hviable, -⟩ :=
            hreports hsound fun hcounts => absurd hcounts hfew
          exact ⟨hargs, c, s, r, printed, tree, rfl, hname, rfl, hrun, htree, hshows,
            hviable.trans hcount⟩

end Run

end Command

end Vigil
