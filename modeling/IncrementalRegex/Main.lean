import IncrementalRegex.CommandLine

open IncrementalRegex.CommandLine

def main (arguments : List String) : IO UInt32 := do
  match request? arguments with
  | none =>
    (← IO.getStderr).putStr usage
    return 2
  | some request =>
    let input ← match request.file with
      | some file => IO.FS.readFile file
      | none => (← IO.getStdin).readToEnd
    let outcome := run request input
    (← IO.getStdout).putStr outcome.stdout
    (← IO.getStderr).putStr outcome.stderr
    return outcome.code.toUInt32
