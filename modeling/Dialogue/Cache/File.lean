import Dialogue.Bytes.LittleEndian
import Dialogue.Engine.Failure
import Dialogue.Fault
/-!
# Session files

A session file holds the evaluated tokens and a snapshot of the context: four letters, the version,
the number of tokens and the tokens as words of four bytes, the size of the snapshot as a word of
eight bytes, and the snapshot. Nothing may follow.
-/

namespace Dialogue

/-- Why some bytes are not a session file. -/
inductive FileDefect where
  /-- The bytes end within the first three words. -/
  | truncatedHeader
  /-- The first four letters are others. -/
  | badMagic
  /-- The version is another. -/
  | unsupportedVersion (version : Nat)
  /-- There are more tokens than the context can hold. -/
  | tooLarge (size capacity : Nat)
  /-- The bytes end within the tokens. -/
  | truncatedTokens
  /-- The bytes end within the size of the snapshot. -/
  | truncatedStateSize
  /-- The bytes end within the snapshot. -/
  | truncatedState
  /-- Something follows the snapshot. -/
  | trailingBytes
deriving DecidableEq, Repr

/-- Why a session file cannot be used. Follows `SessionIoError`. -/
inductive FileError where
  /-- The file cannot be read. -/
  | unreadable (path : String) (fault : Fault)
  /-- The file cannot be written. -/
  | unwritable (path : String) (fault : Fault)
  /-- The file is not a session file, or holds too much. -/
  | defective (path : String) (defect : FileDefect)
  /-- The engine gives or takes no snapshot. -/
  | state (path : String) (error : EngineError)
deriving DecidableEq, Repr

namespace FileDefect

/-- What is said of a file with this defect, behind its path. -/
def reason : FileDefect → String
  | truncatedHeader => "is corrupt: truncated header"
  | badMagic => "is corrupt: bad magic"
  | unsupportedVersion version => "is corrupt: unsupported version " ++ toString version
  | tooLarge size capacity =>
    "holds " ++ toString size ++ " tokens, more than the context capacity " ++ toString capacity
  | truncatedTokens => "is corrupt: truncated token list"
  | truncatedStateSize => "is corrupt: truncated state length"
  | truncatedState => "is corrupt: truncated state"
  | trailingBytes => "is corrupt: trailing bytes"

end FileDefect

/-- The message for the user. -/
def FileError.message : FileError → String
  | unreadable path fault => "failed to read session file " ++ path ++ ": " ++ fault.message
  | unwritable path fault => "failed to write session file " ++ path ++ ": " ++ fault.message
  | defective path defect => "session file " ++ path ++ " " ++ defect.reason
  | state path error => "session file " ++ path ++ ": " ++ error.message

namespace SessionFile

/-- The first four bytes, the letters `kvss`. -/
def magic : List UInt8 := [107, 118, 115, 115]

/-- The version of the layout. -/
def version : Nat := 1

/-- The four bytes of a token. -/
def tokenBytes (t : Token) : List UInt8 := Bytes.ofInt 4 t.toInt

/-- The bytes of a session file. Part of `save`. -/
def encode (tokens : List Token) (state : List UInt8) : List UInt8 :=
  magic ++ Bytes.ofNat 4 version ++ Bytes.ofNat 4 tokens.length ++ tokens.flatMap tokenBytes
    ++ Bytes.ofNat 8 state.length ++ state

/-- The next bytes and the rest, or the defect if the bytes end too early. Follows `Reader.take`. -/
def takeOr (defect : FileDefect) (n : Nat) (bytes : List UInt8) :
    Except FileDefect (List UInt8 × List UInt8) :=
  (Bytes.take? n bytes).elim (.error defect) .ok

/-- The next `n` tokens and the rest. Part of `load`. -/
def decodeTokens : Nat → List UInt8 → Except FileDefect (List Token × List UInt8)
  | 0, bytes => .ok ([], bytes)
  | n + 1, bytes => do
    let (word, rest) ← takeOr .truncatedTokens 4 bytes
    let (tokens, rest) ← decodeTokens n rest
    return (Int32.ofInt (Bytes.toInt word) :: tokens, rest)

/-- The tokens and the snapshot of a session file, for a context of a given capacity.
Part of `load`. -/
def decode (capacity : Nat) (bytes : List UInt8) :
    Except FileDefect (List Token × List UInt8) := do
  let (letters, rest) ← takeOr .truncatedHeader 4 bytes
  if letters ≠ magic then throw .badMagic
  let (word, rest) ← takeOr .truncatedHeader 4 rest
  if Bytes.toNat word ≠ version then throw (.unsupportedVersion (Bytes.toNat word))
  let (word, rest) ← takeOr .truncatedHeader 4 rest
  let size := Bytes.toNat word
  if capacity < size then throw (.tooLarge size capacity)
  let (tokens, rest) ← decodeTokens size rest
  let (word, rest) ← takeOr .truncatedStateSize 8 rest
  let (state, rest) ← takeOr .truncatedState (Bytes.toNat word) rest
  if rest ≠ [] then throw .trailingBytes
  return (tokens, state)

end SessionFile

end Dialogue
