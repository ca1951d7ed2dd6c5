import Vigil.Proofs.Monitor.Operations

/-!
# The accounts of a monitor

What a monitor has counted after a run, and what its sinks were handed, can be read off
the run: which outputs were checked, which judgment the checker passes on each, and
which sink was bound at the time.
-/

namespace Vigil.Monitor

variable {σ ω : Type}

/-- What the checks of some outputs leave in the statistics. -/
structure Counts (checker : Checker) (outputs : List Json) (s : Statistics) : Prop where
  total : s.totalChecks = outputs.length
  optimal : s.optimal = (outputs.map checker.value).count .positive
  borderline : s.borderline = (outputs.map checker.value).count .neutral
  nonOptimal : s.nonOptimal = (outputs.map checker.value).count .negative
  failed : s.failedChecks = outputs.countP fun output => (checker output).isNone
  last : s.lastValue = (outputs.map checker.value).getLast?

theorem Counts.record {checker : Checker} {outputs : List Json} {s : Statistics}
    (h : Counts checker outputs s) (output : Json) :
    Counts checker (outputs ++ [output]) (s.record (checker output)) := by
  obtain ⟨htotal, hoptimal, hborderline, hnonOptimal, hfailed, -⟩ := h
  cases hfinding : checker output with
  | none =>
      have hvalue := Checker.value_of_none hfinding
      constructor <;>
        simp [Statistics.record, Statistics.count, hvalue, hfinding, htotal, hoptimal,
          hborderline, hnonOptimal, hfailed, Judgment.toTernary]
  | some judgment =>
      have hvalue : checker.value output = judgment.toTernary := by
        rw [Checker.value, hfinding, Option.getD_some]
      cases judgment <;> constructor <;>
        simp [Statistics.record, Statistics.count, hvalue, hfinding, htotal, hoptimal,
          hborderline, hnonOptimal, hfailed, Judgment.toTernary]

/-- What a check owes to a sink: the value, unless it is the best or nothing is bound. -/
def due (label : String) (judge : Checker) (c : Option σ × Json) : Option (σ × Escalation) :=
  if judge.value c.2 = .positive then none
  else c.1.map fun sink => (sink, ⟨label, judge.value c.2⟩)

theorem due_eq_none {label : String} {judge : Checker} {c : Option σ × Json}
    (h : judge.value c.2 = .positive ∨ c.1 = none) : due label judge c = none := by
  unfold due
  split
  · rfl
  · rename_i hne
    rw [h.resolve_left hne]
    rfl

/-- The books of a monitor after some checks, with what sinks were handed in them. -/
structure Accounts (label : String) (judge : Checker) (made : List (Option σ × Json))
    (tried : List (Attempt σ)) (m : Monitor σ) : Prop where
  name : m.name = label
  checker : m.checker = judge
  counts : Counts judge (made.map Prod.snd) m.statistics
  handed : tried.map (fun a => (a.sink, a.escalation)) = made.filterMap (due label judge)
  escalations : m.statistics.escalations = tried.countP Attempt.isAccepted

namespace Accounts

variable {label : String} {judge : Checker} {made : List (Option σ × Json)}
  {tried : List (Attempt σ)} {m : Monitor σ}

theorem check {hand : Handing σ ω} {world : ω × List (Attempt σ)}
    (h : Accounts label judge made world.2 m) (output : Json) :
    Accounts label judge (made ++ [(m.sink, output)])
      (m.check (recording hand) output world).2.2.2
      (m.check (recording hand) output world).2.1 := by
  obtain ⟨rfl, rfl, hcounts, hhanded, hescalations⟩ := h
  -- The check is booked before anything is handed over.
  have hrecorded : Counts m.checker ((made ++ [(m.sink, output)]).map Prod.snd)
      (m.observe output).2.statistics := by
    rw [List.map_append]
    exact hcounts.record output
  have hbefore : (m.observe output).2.statistics.escalations =
      world.2.countP Attempt.isAccepted :=
    (Statistics.escalations_record _ _).trans hescalations
  obtain ⟨own, hcheck, ⟨rfl, hnothing, -, hafter⟩ |
    ⟨a, rfl, hne, hsink, hescalation, -, hafter⟩⟩ := check_recording hand m output world
  · have hdue : due m.name m.checker (m.sink, output) = none := due_eq_none hnothing
    rw [hcheck, hafter, List.append_nil]
    refine ⟨rfl, rfl, hrecorded, ?_, hbefore⟩
    simp [hhanded, hdue]
  · have hdue : due m.name m.checker (m.sink, output) = some (a.sink, a.escalation) := by
      rw [due, if_neg hne, hsink, hescalation]
      rfl
    have hlog : (world.2 ++ [a]).map (fun a => (a.sink, a.escalation)) =
        (made ++ [(m.sink, output)]).filterMap (due m.name m.checker) := by
      simp [hhanded, hdue]
    rw [hcheck, hafter]
    cases haccepted : a.isAccepted with
    | true =>
        refine ⟨rfl, rfl, ?_, hlog, ?_⟩
        · exact ⟨hrecorded.total, hrecorded.optimal, hrecorded.borderline, hrecorded.nonOptimal,
            hrecorded.failed, hrecorded.last⟩
        · rw [List.countP_append, List.countP_singleton, haccepted, ← hbefore]
          rfl
    | false =>
        refine ⟨rfl, rfl, hrecorded, hlog, ?_⟩
        rw [List.countP_append, List.countP_singleton, haccepted, ← hbefore]
        rfl

/-- Binding is not booked. -/
theorem of_statistics_eq (h : Accounts label judge made tried m) {m' : Monitor σ}
    (hname : m'.name = m.name) (hchecker : m'.checker = m.checker)
    (hstatistics : m'.statistics = m.statistics) : Accounts label judge made tried m' := by
  refine ⟨hname.trans h.name, hchecker.trans h.checker, ?_, h.handed, ?_⟩
  · rw [hstatistics]
    exact h.counts
  · rw [hstatistics]
    exact h.escalations

end Accounts

section Runs

variable [DecidableEq σ]

/-- What is bound after an operation. -/
def Operation.rebind (bound : Option σ) : Operation σ → Option σ
  | .check _ => bound
  | .bind sink => some sink
  | .unbind => none
  | .tryBind sink => bound.or (some sink)
  | .unbindFrom sink => if bound = some sink then none else bound

/-- The checks of a run in turn: what was bound at the time, and the output. -/
def checks (bound : Option σ) : List (Operation σ) → List (Option σ × Json)
  | [] => []
  | .check output :: ops => (bound, output) :: checks bound ops
  | op :: ops => checks (op.rebind bound) ops

theorem sink_apply (hand : Handing σ ω) (s : Monitor σ × ω) (op : Operation σ) :
    (apply hand s op).1.sink = op.rebind s.1.sink := by
  cases op with
  | check output =>
      obtain ⟨own, -, hcases⟩ := check_recording hand s.1 output (s.2, [])
      change (check hand s.1 output s.2).2.1.sink = s.1.sink
      rcases hcases with ⟨-, -, -, hafter⟩ | ⟨a, -, -, -, -, -, hafter⟩
      · rw [hafter, sink_observe]
      · rw [hafter]
        split <;> rfl
  | bind sink => rfl
  | unbind => rfl
  | tryBind sink =>
      change (s.1.tryBind sink).2.sink = s.1.sink.or (some sink)
      cases hsink : s.1.sink <;> simp [tryBind, isBound, Monitor.bind, hsink]
  | unbindFrom sink =>
      change (s.1.unbindFrom sink).2.sink = if s.1.sink = some sink then none else s.1.sink
      unfold unbindFrom
      split <;> rfl

namespace Accounts

variable {label : String} {judge : Checker} {made : List (Option σ × Json)}
  {tried : List (Attempt σ)} {m : Monitor σ}
  {hand : Handing σ ω} {s : Monitor σ × ω × List (Attempt σ)}

theorem apply (h : Accounts label judge made s.2.2 s.1) (op : Operation σ)
    (rest : List (Operation σ)) :
    ∃ made', made ++ checks s.1.sink (op :: rest) =
        made' ++ checks (Monitor.apply (recording hand) s op).1.sink rest ∧
      Accounts label judge made' (Monitor.apply (recording hand) s op).2.2
        (Monitor.apply (recording hand) s op).1 := by
  rw [sink_apply]
  cases op with
  | check output =>
      refine ⟨made ++ [(s.1.sink, output)], ?_, h.check output⟩
      rw [checks, List.append_assoc]
      rfl
  | bind sink => exact ⟨made, rfl, h.of_statistics_eq rfl rfl rfl⟩
  | unbind => exact ⟨made, rfl, h.of_statistics_eq rfl rfl rfl⟩
  | tryBind sink =>
      refine ⟨made, rfl, h.of_statistics_eq (name_tryBind s.1 sink) (checker_tryBind s.1 sink) ?_⟩
      change (s.1.tryBind sink).2.statistics = s.1.statistics
      unfold tryBind
      split <;> rfl
  | unbindFrom sink =>
      refine ⟨made, rfl,
        h.of_statistics_eq (name_unbindFrom s.1 sink) (checker_unbindFrom s.1 sink) ?_⟩
      change (s.1.unbindFrom sink).2.statistics = s.1.statistics
      unfold unbindFrom
      split <;> rfl

theorem run (h : Accounts label judge made s.2.2 s.1) (hand : Handing σ ω)
    (ops : List (Operation σ)) :
    Accounts label judge (made ++ checks s.1.sink ops) (Monitor.run (recording hand) s ops).2.2
      (Monitor.run (recording hand) s ops).1 := by
  induction ops generalizing s made with
  | nil =>
      rw [checks, List.append_nil]
      exact h
  | cons op ops ih =>
      obtain ⟨made', hmade, hstep⟩ := h.apply op ops
      rw [hmade, run_cons]
      exact ih hstep

end Accounts

end Runs

end Vigil.Monitor
