import Vigil.Config.Text
import Vigil.Forms.Config
import Vigil.Scenario
/-!
# Running a command

A run yields what is printed, an error if there is one, and the exit code.  It
reads its arguments, files and formats by what its host provides, which is also
where memory comes from.  Configuration comes before the scenario: a fault in
the first hides one in the second.
-/

namespace Vigil.Command

structure Outcome where
  exitCode : Nat := 0
  output : String := ""
  error : Option String := none
deriving DecidableEq, Repr

/-- What a command line asks for. -/
inductive Invocation
  | banner
  | evaluate (input : String) (config : Option String)
  | check (config : String)
deriving DecidableEq, Repr

/-- What a run takes from its surroundings. -/
structure Host where
  /-- The contents of the file that a path leads to, if there is one. -/
  files : String → Option ByteArray
  /-- What a command line asks for.  Help, and a line that is not understood, are
  answered right away. -/
  arguments : List String → Except Outcome Invocation
  toml : Toml.Codec
  json : Json.Codec
  /-- How a run ends that asks for so many bytes in one piece, if it cannot have them. -/
  refusal? : Nat → Option Outcome

/-- The bytes of an attention queue: a text, a number, and a judgment for each item. -/
def queueBytes (c : Config) : Nat := c.attention.maxAttentionItems.toNat * 40

/-- The bytes of a histogram: a number for each bin. -/
def histogramBytes (c : Config) : Nat := c.choice.bins * 8

/-- What stops a command before its end: an error, or memory that is refused. -/
inductive Stop
  | failed (message : String)
  | refused (outcome : Outcome)
deriving DecidableEq, Repr

def Stop.ofError (e : EngineError) : Stop := .failed e.message

def Outcome.ofResult : Except Stop String → Outcome
  | .ok output => { output }
  | .error (.failed message) => { exitCode := 1, error := some message }
  | .error (.refused outcome) => outcome

def banner : String := "SERAA v0.1.0 - Use --help for commands\n"

/-- What is printed of an assessment and of the attention queue after it. -/
def assessed (a : Assessment) (attention : List Attention.Item) : Json :=
  .object [("assessment", toJson a), ("attention_queue", toJson attention)]

section Host

variable (host : Host)

def reserve (bytes : Nat) : Except Stop Unit :=
  match host.refusal? bytes with
  | none => .ok ()
  | some outcome => .error (.refused outcome)

def loadConfig : Option String → Except Stop Config
  | none => .ok .default
  | some path =>
    match Config.ofFile host.toml path (host.files path) with
    | .ok c => .ok c
    | .error _ => .error (.failed s!"Invalid configuration in {path}")

def loadScenario (path : String) : Except Stop Scenario :=
  match (host.files path).bind String.fromUTF8? with
  | none => .error (.failed s!"Failed to read scenario {path}")
  | some text =>
    match Scenario.ofText? host.json text with
    | none => .error (.failed s!"Failed to parse scenario {path}")
    | some s => .ok s

def start (c : Config) : Except Stop Engine := do
  let engine ← (Engine.new c).mapError Stop.ofError
  reserve host (queueBytes c)
  return engine

/-- Assesses the actions of a scenario.  Scores are counted in a histogram if there are
two of them at least, and two bins. -/
def assess (c : Config) (engine : Engine) (s : Scenario) :
    Except Stop (Assessment × Engine) := do
  let (outcome, engine) := engine.assess s.moral s.actions
    (fun a => .ok a.pacScore) (fun a => .ok a.viable)
  let assessment ← outcome.mapError Stop.ofError
  if 1 < min assessment.result.viableCount c.choice.bins then reserve host (histogramBytes c)
  return (assessment, engine)

def evaluate (input : String) (config : Option String) : Except Stop String := do
  let c ← loadConfig host config
  let engine ← start host c
  let s ← loadScenario host input
  let (assessment, engine) ← assess host c engine s
  return host.json.pretty (assessed assessment engine.attention) ++ "\n"

def check (config : String) : Except Stop String := do
  let c ← loadConfig host (some config)
  let text ← (c.toText host.toml).mapError Stop.ofError
  return "Configuration OK\n\n" ++ text ++ "\n"

def run (args : List String) : Outcome :=
  match host.arguments args with
  | .error outcome => outcome
  | .ok .banner => { output := banner }
  | .ok (.evaluate input config) => .ofResult (evaluate host input config)
  | .ok (.check config) => .ofResult (check host config)

end Host

end Vigil.Command
