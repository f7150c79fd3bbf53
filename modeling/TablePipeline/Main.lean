import TablePipeline.Pipeline.Report

/-! # The command line

Prints the answer to the arguments. A refusal goes to the error stream and makes the exit code 2.
-/

open TablePipeline

def main (arguments : List String) : IO UInt32 := do
  match CommandAnswer.ofArguments arguments with
  | .output text =>
    IO.print text
    return 0
  | .refused reason =>
    IO.eprintln reason
    return 2
