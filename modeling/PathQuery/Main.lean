import PathQuery.CommandLine.Run

/-!
# The program

The outer layer of the command line: it reads the files that the arguments name, runs the call, and
prints the result or the message.
-/

namespace PathQuery.CommandLine

/-- A short reminder of the options. -/
def usage : String :=
  "usage: --path FILE [--input FILE] [--mode lax|strict] [--param NAME=JSON]...\n" ++
  "       [--function exists|value|query] [--on-error WORD] [--on-empty WORD]\n" ++
  "       [--wrapper without|conditional|unconditional] [--returning TYPE] [--default JSON]\n" ++
  "       [--verbose] [--help]"

/-- The text of a file, if it can be read. -/
def readFile? (file : String) : IO (Option String) := do
  try
    return some (← IO.FS.readFile file)
  catch _ =>
    return none

/-- Everything that standard input holds. -/
partial def readAll (stream : IO.FS.Stream) (text : String) : IO String := do
  let line ← stream.getLine
  if line.isEmpty then return text else readAll stream (text ++ line)

/-- Run with the files that the arguments name, print the result, and give the exit code. -/
def Arguments.perform (args : Arguments) : IO UInt32 := do
  let path ← readFile? args.path
  let input ← match args.input with
    | some file => readFile? file
    | none => pure none
  let standardInput ← match args.input with
    | some _ => pure ""
    | none => readAll (← IO.getStdin) ""
  let files : Files := fun file => if file = args.path then path else input
  match args.run files standardInput with
  | .ok v =>
      IO.println v.pretty
      return 0
  | .error e =>
      IO.eprintln ("Error: " ++ e.message)
      return 1

/-- The exit code of a run for the words of a command line. -/
def exitCode (words : List String) : IO UInt32 := do
  match Arguments.read words with
  | .ok args => args.perform
  | .error .displayHelp =>
      IO.println usage
      return 0
  | .error _ =>
      IO.eprintln usage
      return 2

end PathQuery.CommandLine

def main (words : List String) : IO UInt32 :=
  PathQuery.CommandLine.exitCode words
