import Dialogue.Config.Setting
import Dialogue.Text.Argument
/-!
# Options

A configuration is read from a list of arguments. Long options stand behind two dashes and have an
attached value behind `=` or a detached one in the next argument; one-letter flags may be bundled,
and a value may follow its letter at once. A detached value is applied only when the next option is
met or the arguments end, so a name that is not known is reported before it.
-/

namespace Dialogue

/-- What an option's name stands for. -/
inductive Switch where
  /-- A setting. -/
  | setting (s : Setting)
  /-- The request for help. -/
  | help
deriving DecidableEq, Repr

namespace Switch

/-- The switch with a long name. -/
def ofLong? (name : String) : Option Switch :=
  if name = "help" then some help else (Setting.longNames.lookup name).map setting

/-- The switch with a one-letter name. -/
def ofShort? (letter : Char) : Option Switch :=
  if letter = 'h' then some help else (Setting.shortNames.lookup letter).map setting

end Switch

/-- How far a list of arguments was read. -/
structure OptionReader where
  /-- The configuration so far. -/
  config : Config := {}
  /-- The settings that were given. -/
  given : List Setting := []
  /-- The setting met last, if it takes a value, and the value once it was met. -/
  pending : Option (Setting × Option String) := none
  /-- Whether the end of the options was marked. -/
  ended : Bool := false

namespace OptionReader

/-- Counts a setting as given. Only some may be given twice. -/
def claim (r : OptionReader) (s : Setting) : Except OptionError OptionReader :=
  if s ∈ r.given ∧ !s.repeats then .error .argumentConflict
  else .ok { r with given := s :: r.given }

/-- Gives a setting its value. -/
def assign (r : OptionReader) (s : Setting) (value : String) : Except OptionError OptionReader := do
  let r ← r.claim s
  let config ← s.assign r.config value
  return { r with config }

/-- Turns a flag on. -/
def turnOn (r : OptionReader) (s : Setting) : Except OptionError OptionReader := do
  let r ← r.claim s
  return { r with config := s.turnOn r.config }

/-- Applies the detached value that was met last. -/
def settle (r : OptionReader) : Except OptionError OptionReader :=
  match r.pending with
  | none => .ok r
  | some (_, none) => .error .invalidValue
  | some (s, some value) => { r with pending := none }.assign s value

/-- Takes an argument that is not an option: the value that is waited for. -/
def takeValue (r : OptionReader) (argument : String) : Except OptionError OptionReader :=
  match r.pending with
  | some (s, none) => .ok { r with pending := some (s, some argument) }
  | _ => .error .unknownArgument

/-- Reads a long option, with its attached value if it has one. -/
def readLong (r : OptionReader) (name : String) (attached : Option String) :
    Except OptionError OptionReader :=
  match Switch.ofLong? name, attached with
  | none, _ => .error .unknownArgument
  | some .help, some _ => .error .tooManyValues
  | some .help, none => do
    let _ ← r.settle
    throw .displayHelp
  | some (.setting s), some value =>
    if s.isFlag then .error .tooManyValues
    else do (← r.settle).assign s value
  | some (.setting s), none => do
    let r ← r.settle
    if s.isFlag then r.turnOn s else return { r with pending := some (s, none) }

/-- Reads a bundle of one-letter options. The first that takes a value takes the rest of it. -/
def readBundle (r : OptionReader) : List Char → Except OptionError OptionReader
  | [] => .ok r
  | letter :: rest =>
    match Switch.ofShort? letter with
    | none => .error .unknownArgument
    | some .help => do
      let _ ← r.settle
      throw .displayHelp
    | some (.setting s) => do
      let r ← r.settle
      if s.isFlag then readBundle (← r.turnOn s) rest
      else
        match rest with
        | [] => return { r with pending := some (s, none) }
        | '=' :: value => r.assign s (String.ofList value)
        | value => r.assign s (String.ofList value)

/-- Cuts the text of a long option at the first `=`. -/
def cutAttached (text : List Char) : String × Option String :=
  let name := String.ofList (text.takeWhile (· ≠ '='))
  match text.dropWhile (· ≠ '=') with
  | [] => (name, none)
  | _ :: value => (name, some (String.ofList value))

/-- Whether the setting that waits for its value would take this bundle as a negative number. -/
def awaitsNumber (r : OptionReader) (bundle : List Char) : Bool :=
  match r.pending with
  | some (s, none) => s.allowsNegative && Number.looksNumeric bundle
  | _ => false

/-- Reads one argument. -/
def read (r : OptionReader) (argument : String) : Except OptionError OptionReader :=
  if r.ended then .error .unknownArgument
  else
    match argument.toList with
    | ['-', '-'] => .ok { r with ended := true }
    | '-' :: '-' :: text =>
      let (name, attached) := cutAttached text
      r.readLong name attached
    | ['-'] => r.takeValue argument
    | '-' :: bundle => if r.awaitsNumber bundle then r.takeValue argument else r.readBundle bundle
    | _ => r.takeValue argument

end OptionReader

namespace Config

/-- The configuration that a list of arguments gives. -/
def ofArguments (arguments : List String) : Except OptionError Config := do
  let r ← arguments.foldlM OptionReader.read {}
  return (← r.settle).config

/-- The configuration that an argument string gives. Follows `ContextConfig.from_arg_string`. -/
def ofArgumentString (s : String) : Except ConfigError Config :=
  (ofArguments (Text.Argument.split s)).mapError .arguments

end Config

end Dialogue
