import Vigil.Command.Arguments
/-!
# The program

Reads the files that the command line names, runs the command, and prints what
it yields.
-/

open Vigil

/-- The contents of a file, if it can be read. -/
def contents? (path : String) : IO (Option ByteArray) := do
  try
    return some (← IO.FS.readBinFile path)
  catch _ =>
    return none

def main (args : List String) : IO UInt32 := do
  let mut found : List (String × ByteArray) := []
  for path in Command.paths args do
    if let some bytes ← contents? path then
      found := (path, bytes) :: found
  let outcome := Command.run (.standard fun path => found.lookup path) args
  IO.print outcome.output
  if let some e := outcome.error then
    IO.eprintln s!"Error: {e}"
  return outcome.exitCode.toUInt32
