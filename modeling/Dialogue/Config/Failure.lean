import Dialogue.Fault
import Dialogue.Number.Shortest
/-!
# Rejected configurations

Why a configuration cannot be read, or cannot be run with.
-/

namespace Dialogue

/-- Why an argument string is not a list of options. -/
inductive OptionError where
  /-- No option has this name, or the argument belongs to none. -/
  | unknownArgument
  /-- An option lacks its value. -/
  | invalidValue
  /-- A value cannot be read. -/
  | valueValidation
  /-- An option that may stand once stands twice. -/
  | argumentConflict
  /-- An option without a value is given one. -/
  | tooManyValues
  /-- Help is asked for. -/
  | displayHelp
deriving DecidableEq, Repr

/-- Why a text is not the JSON form of a configuration. -/
inductive DocumentError where
  /-- The text is not JSON. -/
  | syntactic
  /-- A value is of the wrong kind or out of range, or a field stands twice. -/
  | data
  /-- The text ends early. -/
  | truncated
deriving DecidableEq, Repr

/-- Why a configuration is rejected. Follows `ParameterError`. -/
inductive ConfigError where
  /-- The argument string cannot be read. -/
  | arguments (error : OptionError)
  /-- The file cannot be read. -/
  | unreadable (fault : Fault)
  /-- The file is not the JSON form of a configuration. -/
  | malformed (error : DocumentError)
  /-- Batches would be empty. -/
  | zeroBatch
  /-- The guidance strength is not finite or below one. -/
  | guidanceScale (scale : Number.Single)
  /-- The prompt leaves no room in the context. -/
  | promptTooLong (size max : Nat)
deriving DecidableEq, Repr

/-- The message for the user. -/
def ConfigError.message : ConfigError → String
  | arguments _ => "could not parse the input parameters"
  | unreadable fault => "failed to read config file: " ++ fault.message
  | malformed _ => "invalid config file"
  | zeroBatch => "batch size must be at least 1"
  | guidanceScale scale => "guidance scale must be finite and at least 1 (got " ++ scale.text ++ ")"
  | promptTooLong size max =>
    "prompt is too long (" ++ toString size ++ " tokens, max " ++ toString max ++ ")"

end Dialogue
