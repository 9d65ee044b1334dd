import Formula.CommandLine.Invocation

/-! The program: what it prints goes to the standard output, an error to the standard error. -/

namespace Formula

def usage : String :=
  "Usage: eval EXPR [-v|--values JSON] [-p|--pretty]\n" ++
  "       compile EXPR [-n|--name NAME]...\n" ++
  "       lint EXPR [-n|--name NAME]... [--ignore-unknown-variables]\n" ++
  "            [--ignore-unknown-functions]\n" ++
  "       tokens EXPR\n" ++
  "       parse EXPR [-n|--name NAME]..."

/-- All lines up to the end of a stream. -/
partial def readLines (stream : IO.FS.Stream) (taken : String) : IO String := do
  let line ← stream.getLine
  if line == "" then return taken else readLines stream (taken ++ line)

def runProgram (words : List String) : IO UInt32 := do
  match CommandLine.Invocation.ofWords? words with
  | none =>
    IO.eprintln usage
    return 2
  | some invocation =>
    let stdin ← IO.getStdin
    let input ← if invocation.readsInput && !(← stdin.isTty) then readLines stdin "" else pure ""
    match invocation.run input with
    | .ok text =>
      IO.println text
      return 0
    | .error e =>
      IO.eprintln e.message
      return 1

end Formula

def main (words : List String) : IO UInt32 := Formula.runProgram words
