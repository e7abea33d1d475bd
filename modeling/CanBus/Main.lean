import CanBus.Command

/-! The command line. It runs on a kernel without interfaces, so that it
only reads its arguments. -/

def main (args : List String) : IO UInt32 := do
  let (outcome, _) := (CanBus.Command.run args).run {}
  (← IO.getStdout).putStr outcome.out
  (← IO.getStderr).putStr outcome.err
  return outcome.exit
