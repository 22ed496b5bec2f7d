/-!
# Launching

A build without an inference engine answers every launch with a notice.
-/

namespace Dialogue

/-- What a launch of the program comes to. -/
structure Launch where
  /-- The exit code. -/
  exitCode : UInt32
  /-- What is written to the standard output. -/
  output : String
  /-- What is written to the standard error. -/
  error : String
deriving DecidableEq, Repr

/-- The launch of a build without an inference engine, whatever its arguments and its input.
Follows `main`. -/
def Launch.withoutEngine : Launch where
  exitCode := 1
  output := ""
  error :=
    "kvsession requires the 'llama-cpp' feature.\n"
      ++ "Run with: cargo run --features llama-cpp -- -m <model.gguf> -i\n"

end Dialogue
