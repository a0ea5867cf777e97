import PropertyGraph.Social.Report

/-!
# Command line

`run` creates the social sample in memory and prints the answers to its questions.
-/

open PropertyGraph in
def main (args : List String) : IO UInt32 := do
  match args with
  | ["run"] =>
    match Social.reportInMemory with
    | .ok lines =>
      lines.forM IO.println
      return 0
    | .error e =>
      IO.eprintln s!"Error: {e.message}"
      return 1
  | _ =>
    IO.eprintln "Usage: propertygraph run"
    return 2
