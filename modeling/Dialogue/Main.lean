import Dialogue.Launch
/-!
# The command line

Writes what a launch comes to and ends with its exit code.
-/

/-- Runs the program. -/
def main : IO UInt32 := do
  let launch := Dialogue.Launch.withoutEngine
  (← IO.getStdout).putStr launch.output
  (← IO.getStderr).putStr launch.error
  return launch.exitCode
