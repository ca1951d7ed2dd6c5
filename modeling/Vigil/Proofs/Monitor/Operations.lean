import Vigil.Proofs.Network.Checks

/-!
# Runs of a monitor

What a sink does with an escalation is its own affair: it answers, and the world may
have changed.  All that is asked of sinks here is that they leave the monitor alone.
A check in a network is such a check, with the network for the world.
-/

namespace Vigil

/-- The judgment that a checker passes on an output.  A checker that fails finds the worst. -/
def Checker.value (checker : Checker) (output : Json) : Ternary :=
  ((checker output).getD .nonOptimal).toTernary

theorem Checker.value_of_none {checker : Checker} {output : Json} (h : checker output = none) :
    checker.value output = .negative := by
  rw [value, h]
  rfl

namespace Monitor

variable {σ ω : Type}

theorem fst_observe (m : Monitor σ) (output : Json) :
    (m.observe output).1 = m.checker.value output := rfl

/-- How sinks of identity `σ` answer in a world `ω`. -/
abbrev Handing (σ ω : Type) := σ → Escalation → ω → Except MonitorError Unit × ω

def check (hand : Handing σ ω) (m : Monitor σ) (output : Json) (world : ω) :
    Except MonitorError Ternary × Monitor σ × ω :=
  let (value, observed) := m.observe output
  match observed.destination? value with
  | none => (.ok value, observed, world)
  | some sink =>
    match hand sink ⟨m.name, value⟩ world with
    | (.error err, world) => (.error err, observed, world)
    | (.ok _, world) => (.ok value, observed.acknowledge, world)

/-- One escalation that was handed to a sink, and what the sink made of it. -/
structure Attempt (σ : Type) where
  sink : σ
  escalation : Escalation
  answer : Except MonitorError Unit

def Attempt.isAccepted (a : Attempt σ) : Bool := a.answer.isOk

/-- The same sinks, with a record of all that is handed to them. -/
def recording (hand : Handing σ ω) : Handing σ (ω × List (Attempt σ)) :=
  fun sink e world =>
    let (answer, world') := hand sink e world.1
    (answer, world', world.2 ++ [⟨sink, e, answer⟩])

theorem destination?_eq_none_iff {m : Monitor σ} {value : Ternary} :
    m.destination? value = none ↔ value = .positive ∨ m.sink = none := by
  unfold destination?
  split <;> simp_all

theorem destination?_eq_some_iff {m : Monitor σ} {value : Ternary} {sink : σ} :
    m.destination? value = some sink ↔ value ≠ .positive ∧ m.sink = some sink := by
  unfold destination?
  split <;> simp_all

section Checks

variable (hand : Handing σ ω) (m : Monitor σ) (output : Json)

/-- A check hands over nothing, or one escalation to the bound sink, whose answer decides
what comes of the check.  A record of it changes nothing. -/
theorem check_recording (world : ω × List (Attempt σ)) :
    ∃ own, check (recording hand) m output world =
        ((check hand m output world.1).1, (check hand m output world.1).2.1,
          (check hand m output world.1).2.2, world.2 ++ own) ∧
      ((own = [] ∧ (m.checker.value output = .positive ∨ m.sink = none) ∧
        (check hand m output world.1).1 = .ok (m.checker.value output) ∧
        (check hand m output world.1).2.1 = (m.observe output).2) ∨
      ∃ a, own = [a] ∧ m.checker.value output ≠ .positive ∧ m.sink = some a.sink ∧
        a.escalation = ⟨m.name, m.checker.value output⟩ ∧
        (check hand m output world.1).1 = a.answer.map (fun _ => m.checker.value output) ∧
        (check hand m output world.1).2.1 =
          if a.isAccepted then (m.observe output).2.acknowledge else (m.observe output).2) := by
  rw [← fst_observe]
  cases hdest : (m.observe output).2.destination? (m.observe output).1 with
  | none =>
      refine ⟨[], ?_, Or.inl ⟨rfl, destination?_eq_none_iff.mp hdest, ?_, ?_⟩⟩
      · simp only [check, hdest, List.append_nil]
      · simp only [check, hdest]
      · simp only [check, hdest]
  | some sink =>
      obtain ⟨hne, hsink⟩ := destination?_eq_some_iff.mp hdest
      obtain ⟨answer, world', hanswer⟩ :
          ∃ answer world', hand sink ⟨m.name, (m.observe output).1⟩ world.1 = (answer, world') :=
        ⟨_, _, rfl⟩
      refine ⟨[⟨sink, ⟨m.name, (m.observe output).1⟩, answer⟩], ?_,
        Or.inr ⟨_, rfl, hne, hsink, rfl, ?_, ?_⟩⟩
      · cases answer <;> simp only [check, hdest, recording, hanswer]
      · cases answer <;> simp only [check, hdest, hanswer] <;> rfl
      · cases answer <;> simp only [check, hdest, hanswer] <;> rfl

end Checks

inductive Operation (σ : Type)
  | check (output : Json)
  | bind (sink : σ)
  | unbind
  | tryBind (sink : σ)
  | unbindFrom (sink : σ)

section Runs

variable [DecidableEq σ]

def apply (hand : Handing σ ω) (s : Monitor σ × ω) : Operation σ → Monitor σ × ω
  | .check output => (s.1.check hand output s.2).2
  | .bind sink => (s.1.bind sink, s.2)
  | .unbind => (s.1.unbind, s.2)
  | .tryBind sink => ((s.1.tryBind sink).2, s.2)
  | .unbindFrom sink => ((s.1.unbindFrom sink).2, s.2)

def run (hand : Handing σ ω) (s : Monitor σ × ω) (ops : List (Operation σ)) : Monitor σ × ω :=
  ops.foldl (apply hand) s

theorem run_cons (hand : Handing σ ω) (s : Monitor σ × ω) (op : Operation σ)
    (ops : List (Operation σ)) : run hand s (op :: ops) = run hand (apply hand s op) ops := rfl

theorem run_concat (hand : Handing σ ω) (s : Monitor σ × ω) (ops : List (Operation σ))
    (op : Operation σ) : run hand s (ops ++ [op]) = apply hand (run hand s ops) op := by
  simp [run]

end Runs
end Monitor

namespace Network

/-- How the sinks of a network answer, as far as the network is concerned. -/
def hand : Monitor.Handing Sink Network := fun sink e n => n.deliver sink e

end Network
end Vigil
