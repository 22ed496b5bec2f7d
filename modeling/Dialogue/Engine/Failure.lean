import Dialogue.Token
/-!
# Engine failures

Why a call to the engine fails, and where a run of decode calls was cut short.
-/

namespace Dialogue

/-- Why a call to the engine fails. Follows `BackendError`. -/
inductive EngineError where
  /-- A text cannot be turned into tokens. -/
  | tokenizer (reason : String)
  /-- Decoding or sampling fails. -/
  | inference (reason : String)
  /-- Cells cannot be removed or moved. -/
  | cells (reason : String)
  /-- A snapshot cannot be taken or restored. -/
  | state (reason : String)
  /-- The engine has no such context. -/
  | missingStream (stream : Stream)
deriving DecidableEq, Repr

/-- The message for the user. -/
def EngineError.message : EngineError → String
  | tokenizer reason => "tokenizer error: " ++ reason
  | inference reason => "inference error: " ++ reason
  | cells reason => "kv cache error: " ++ reason
  | state reason => "state error: " ++ reason
  | missingStream stream => "no " ++ stream.name ++ " context available"

/-- A batch of tokens that could not be decoded. The batches before it were.
Follows `DecodeError`. -/
structure DecodeError where
  /-- The context that was fed. -/
  stream : Stream
  /-- Where the batch would have begun. -/
  position : Int
  /-- The size of the batch. -/
  size : Nat
  /-- How many tokens were decoded before it. -/
  evaluated : Nat
  /-- What the engine said. -/
  cause : EngineError
deriving DecidableEq, Repr

/-- The message for the user. -/
def DecodeError.message (e : DecodeError) : String :=
  "failed to decode " ++ toString e.size ++ " tokens at position " ++ toString e.position ++ " on "
    ++ e.stream.name ++ " stream"

end Dialogue
