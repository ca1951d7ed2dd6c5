import Vigil.Command.Run
import Vigil.Json.Writer
import Vigil.Toml.Writer
/-!
# Command lines

A command line names a command and its options.  An option takes one value, in
the next argument or attached to its name; it occurs once at most before the
command and once at most after it.  The level of the log may be set in both
places, everything else belongs to its command.  The word for help stands in the
place of a command, and at most one topic comes after it.  With this reader, and
those of the two formats, a host needs nothing but files.
-/

namespace Vigil.Command

inductive Flag
  | logLevel
  | input
  | config
deriving DecidableEq, Repr

inductive Name
  | evaluate
  | check
deriving DecidableEq, Repr

inductive Request
  | help
  | invoke (i : Invocation)
deriving DecidableEq, Repr

/-- The configuration file that is checked if none is named. -/
def defaultConfig : String := "seraa.toml"

def Name.ofString? : String → Option Name
  | "evaluate" => some .evaluate
  | "check" => some .check
  | _ => none

/-- The option with a long name, among those of the command if there is one. -/
def longFlag? (command : Option Name) : String → Option Flag
  | "log-level" => some .logLevel
  | "input" => if command = some .evaluate then some .input else none
  | "config" => if command.isSome then some .config else none
  | _ => none

def shortFlag? (command : Option Name) : Char → Option Flag
  | 'i' => if command = some .evaluate then some .input else none
  | 'c' => if command.isSome then some .config else none
  | _ => none

/-- One argument, apart from what an option before it may take. -/
inductive Word
  /-- From here on nothing is an option. -/
  | escape
  | help
  /-- An option, with its value if that is attached. -/
  | option (flag : Flag) (value : Option String)
  | unknownOption
  | plain (text : String)
deriving DecidableEq, Repr

def readLong (command : Option Name) (cs : List Char) : Word :=
  let name := String.ofList (cs.takeWhile (· != '='))
  let value := match cs.dropWhile (· != '=') with
    | [] => none
    | _ :: rest => some (String.ofList rest)
  match longFlag? command name with
  | some flag => .option flag value
  | none => if name == "help" && value.isNone then .help else .unknownOption

def readShort (command : Option Name) (c : Char) (cs : List Char) : Word :=
  match shortFlag? command c with
  | some flag =>
    match cs with
    | [] => .option flag none
    | '=' :: rest => .option flag (some (String.ofList rest))
    | rest => .option flag (some (String.ofList rest))
  | none => if c == 'h' then .help else .unknownOption

def readWord (command : Option Name) (arg : String) : Word :=
  match arg.toList with
  | ['-', '-'] => .escape
  | '-' :: '-' :: cs => readLong command cs
  | '-' :: c :: cs => readShort command c cs
  | _ => .plain arg

/-- The options found so far, each with its value. -/
abbrev Found := List (Flag × String)

/-- A path must not be empty; the level of the log may be. -/
def acceptsValue (flag : Flag) (value : String) : Bool := flag == .logLevel || value != ""

/-- Adds an option that has not been found yet. -/
def addOption (found : Found) (flag : Flag) (value : String) : Option Found :=
  if acceptsValue flag value && !(found.map (·.1)).contains flag then
    some ((flag, value) :: found)
  else none

/-- The request that a command and its options make. -/
def conclude (command : Option Name) (found : Found) : Option Request :=
  match command with
  | none => some (.invoke .banner)
  | some .check => some (.invoke (.check ((found.lookup .config).getD defaultConfig)))
  | some .evaluate =>
    (found.lookup .input).map fun input => .invoke (.evaluate input (found.lookup .config))

/-- The request for help that the word for it makes, with a topic or without
one.  Help is a topic itself. -/
def readHelp : List String → Option Request
  | [] => some .help
  | [topic] => if topic == "help" || (Name.ofString? topic).isSome then some .help else none
  | _ => none

/-- Reads arguments one after the other; none for a command line that is not
understood. -/
def readArguments (command : Option Name) (found : Found) : List String → Option Request
  | [] => conclude command found
  | [arg] =>
    match readWord command arg with
    | .escape => conclude command found
    | .help => some .help
    | .option flag (some value) => (addOption found flag value).bind (conclude command)
    | .option _ none => none
    | .unknownOption => none
    | .plain text =>
      if command.isSome then none
      else if text == "help" then readHelp []
      else (Name.ofString? text).bind fun c => conclude (some c) []
  | arg :: next :: rest =>
    match readWord command arg with
    | .escape => none
    | .help => some .help
    | .option flag (some value) =>
      (addOption found flag value).bind fun found => readArguments command found (next :: rest)
    | .option flag none =>
      match readWord command next with
      | .plain value =>
        (addOption found flag value).bind fun found => readArguments command found rest
      | _ => none
    | .unknownOption => none
    | .plain text =>
      if command.isSome then none
      else if text == "help" then readHelp (next :: rest)
      else (Name.ofString? text).bind fun c => readArguments (some c) [] (next :: rest)

def parse? (args : List String) : Option Request := readArguments none [] args

def help : String :=
  "SERAA - ternary monitoring and choice-preservation checks\n\n" ++
  "Usage: seraa [OPTIONS] [COMMAND]\n\n" ++
  "Commands:\n" ++
  "  evaluate  Evaluate a JSON scenario\n" ++
  "  check     Check configuration validity\n" ++
  "  help      Print this message\n"

/-- What a command line asks for, or how it is answered right away. -/
def arguments (args : List String) : Except Outcome Invocation :=
  match parse? args with
  | none => .error { exitCode := 2, error := some "usage" }
  | some .help => .error { output := help }
  | some (.invoke i) => .ok i

/-- No piece of memory has more bytes. -/
def mostBytes : Nat := 0x7FFFFFFFFFFFFFFF

/-- What is left of a run that asks for more. -/
def Outcome.crash : Outcome := { exitCode := 101 }

/-- A host with some files and with the readers and writers of this library. -/
def Host.standard (files : String → Option ByteArray) : Host where
  files := files
  arguments := Command.arguments
  toml := .standard
  json := .standard
  refusal? bytes := if bytes ≤ mostBytes then none else some .crash

/-- The files that a command line names. -/
def paths (args : List String) : List String :=
  match arguments args with
  | .ok (.evaluate input config) => input :: config.toList
  | .ok (.check config) => [config]
  | _ => []

end Vigil.Command
