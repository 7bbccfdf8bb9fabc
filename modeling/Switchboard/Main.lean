import Switchboard.Command.Offline

/-!
# Main — the command line

The arguments are read, the command is run, and what it printed is written out.
-/

/-- Runs the program and returns its exit code. -/
def main (args : List String) : IO UInt32 := do
  let report := Switchboard.Arguments.runOffline args
  (← IO.getStdout).write (ByteArray.mk report.output.toArray)
  (← IO.getStderr).putStr report.errors
  return UInt32.ofNat report.code
