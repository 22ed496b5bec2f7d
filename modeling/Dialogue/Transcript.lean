import Dialogue.Directory
import Dialogue.Json.Quoted
import Dialogue.Text.Line
import Dialogue.Token
/-!
# Transcripts

A transcript records what was said. The tokens of a step of several, such as a prompt, are input;
single tokens and the user's turns are output. It is written as a JSON object, one token a line.
-/

namespace Dialogue

/-- What was said. Follows `Transcript`. -/
structure Transcript where
  /-- The tokens shown in steps of several. -/
  inputTokens : Array Token := #[]
  /-- The tokens shown one by one, and those of the user's turns. -/
  outputTokens : Array Token := #[]
  /-- The text of the output tokens. -/
  outputText : String := ""
deriving DecidableEq, Repr, Inhabited

/-- Why a transcript is not written. -/
inductive TranscriptError where
  /-- Its file cannot be opened. -/
  | unopened (fault : Fault)
  /-- Its file takes no more bytes. -/
  | unwritten
deriving DecidableEq, Repr

namespace Transcript

/-- Records a token as input. -/
def recordInput (t : Transcript) (token : Token) : Transcript :=
  { t with inputTokens := t.inputTokens.push token }

/-- Records a token as output. -/
def recordOutput (t : Transcript) (token : Token) : Transcript :=
  { t with
    outputTokens := t.outputTokens.push token
    outputText := t.outputText ++ token.text }

/-- A list of tokens as a JSON list within the object. -/
def jsonTokens (tokens : Array Token) : String :=
  if tokens.isEmpty then "[]"
  else
    "[\n" ++ String.intercalate ",\n" (tokens.toList.map fun t => "    " ++ toString t.toInt)
      ++ "\n  ]"

/-- The transcript as a JSON object. Part of `Transcript.write_json`. -/
def json (t : Transcript) : String :=
  "\x7b\n  \"input_tokens\": " ++ jsonTokens t.inputTokens
    ++ ",\n  \"output_tokens\": " ++ jsonTokens t.outputTokens
    ++ ",\n  \"output_text\": " ++ Json.quote t.outputText ++ "\n\x7d"

/-- How many bytes are held back when the transcript is written. Whether a device takes these at the
end is not looked at. -/
def heldBack : Nat := 8192

/-- Writes the transcript to a file, over one that stands there already.
Follows `Transcript.write_json`. -/
def write (t : Transcript) (path : String) (d : Directory) : Except TranscriptError Directory :=
  let bytes := Text.utf8 t.json
  match d.write path bytes with
  | .ok d => .ok d
  | .error .deviceFull => if heldBack < bytes.length then .error .unwritten else .ok d
  | .error fault => .error (.unopened fault)

end Transcript

end Dialogue
