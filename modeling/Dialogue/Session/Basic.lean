import Dialogue.Config.Report
import Dialogue.Guidance
import Dialogue.Transcript
import Dialogue.Window
/-!
# Sessions

A session is a workbench with a configuration and what was settled when it began, the transcript,
and the output that the user sees. A computation that fails leaves the session as it was then.
-/

namespace Dialogue

/-- Why a session cannot begin or go on. Follows `ControllerError`. -/
inductive SessionError where
  /-- The configuration is rejected. -/
  | config (error : ConfigError)
  /-- The engine fails. -/
  | engine (error : EngineError)
  /-- Decoding failed too often in a row. -/
  | decodeFailed (consecutive : Nat) (error : DecodeError)
  /-- Input or output fails. -/
  | io (fault : Fault)
  /-- The transcript cannot be written. -/
  | transcript
deriving DecidableEq, Repr

/-- The message for the user. -/
def SessionError.message : SessionError → String
  | config error => error.message
  | engine error => error.message
  | decodeFailed consecutive error =>
    "decode failed " ++ toString consecutive ++ " times in a row: " ++ error.message
  | io fault => "i/o error: " ++ fault.message
  | transcript => "failed to write transcript: No space left on device (os error 28)"

/-- What the user sees. -/
structure Output where
  /-- The bytes that were written. -/
  shown : Array UInt8 := #[]
  /-- How many more bytes can be written, if that is bounded. -/
  room : Option Nat := none
deriving DecidableEq, Repr, Inhabited

namespace Output

/-- Writes as much of a text as there is room for. -/
def write (o : Output) (text : String) : Output :=
  match o.room with
  | none => { o with shown := o.shown ++ Text.utf8 text }
  | some n =>
    { shown := o.shown ++ (Text.utf8 text).take n, room := some (n - (Text.utf8 text).length) }

/-- Whether there is room for a text. -/
def takes (o : Output) (text : String) : Bool := o.room.all ((Text.utf8 text).length ≤ ·)

end Output

/-- A session. Follows `TurnController`. -/
structure Session extends Workbench where
  /-- The resolved configuration. -/
  config : Config
  /-- The bounds of the main context. -/
  window : Window
  /-- What the guidance context is fed, if there is guidance. -/
  guidance : Option Guidance
  /-- The tokens put before the user's turns in instruct mode. -/
  instructLead : List Token
  /-- The tokens put after the user's turns in instruct mode. -/
  instructTail : List Token
  /-- How much of the prompt the session file held at the beginning. -/
  matched : Nat
  /-- What was said. -/
  transcript : Transcript := {}
  /-- Where the session stands within a turn. -/
  phase : Phase := .processingQueue
  /-- How many steps in a row could not be decoded. -/
  decodeFailures : Nat := 0
  /-- Whether the session was closed. -/
  closed : Bool := false
  /-- What the user sees. -/
  output : Output := {}
deriving Inhabited

/-- A computation on a session. -/
abbrev SessionM := EStateM SessionError Session

namespace Session

/-- The text put before the user's turns in instruct mode. -/
def leadText : String := "\n\n### Instruction:\n\n"

/-- The text put after the user's turns in instruct mode. -/
def tailText : String := "\n\n### Response:\n\n"

/-- Works on the workbench of the session. -/
def onBench {ε α : Type} (wrap : ε → SessionError) (x : WorkM ε α) : SessionM α :=
  (Effect.onPart Session.toWorkbench (fun s w => { s with toWorkbench := w }) x).adaptExcept wrap

/-- Works on the workbench of the session, and takes a failure as a value. -/
def tryOnBench {ε α : Type} (x : WorkM ε α) : SessionM (Except ε α) :=
  onBench id (Effect.attempt x)

/-- Calls the engine. -/
def call {α : Type} (x : EngineM α) : SessionM α := onBench .engine (Workbench.call x)

/-- Reports an event. -/
def report (e : Event) : SessionM Unit := modify fun s => { s with journal := s.journal.push e }

/-- Changes the progress. -/
def advance (f : Progress → Progress) : SessionM Unit :=
  modify fun s => { s with progress := f s.progress }

/-- Says where the session stands. -/
def enter (phase : Phase) : SessionM Unit := modify ({ · with phase })

/-- Shows a text to the user. -/
def write (text : String) : SessionM Unit := do
  let output := (← get).output
  modify ({ · with output := output.write text })
  Effect.failIf (!output.takes text) (.io .outputFull)

/-- How far guidance reaches beyond the prompt; nothing without guidance. -/
def offset (s : Session) : Int := (s.guidance.map Guidance.offset).getD 0

/-- Begins the dialogue anew. The prompt stays queued, and the engine, the session cache and what
was logged stay as they are. Follows `TurnController.reset`. -/
def reset (s : Session) : Session :=
  { s with
    progress :=
      { s.progress with
        pending := []
        queueRead := 0
        guidanceInput := []
        loggedRead := 0
        past := 0
        guidancePast := 0
        remaining := s.config.predict
        userTurn := s.config.userFirst
        atAntiprompt := false
        echo := true
        savePending := s.cache.isActive && s.matched < s.progress.queue.length
        guidanceReady := false }
    transcript := {}
    decodeFailures := 0
    phase := .processingQueue }

end Session

end Dialogue
