import Dialogue.Effect
import Dialogue.Engine.Failure
import Dialogue.Engine.Snapshot
/-!
# The engine

A deterministic engine. Its samples are played from a script and end with the end-of-sequence
token once the script is over; texts become one token per character unless a spelling is given for
them; each context keeps its cells. Calls are logged, and for every kind of call there is a
schedule that says which of the next ones fail.
-/

namespace Dialogue

/-- A call to the engine. -/
inductive Call where
  /-- Turns a text into tokens. -/
  | tokenize (text : String) (addBos special : Bool)
  /-- Decodes tokens from a position on. -/
  | decode (stream : Stream) (tokens : List Token) (start : Int)
  /-- Draws the next token. -/
  | sample (guided : Bool)
  /-- Tells the sampler of a token. -/
  | accept (token : Token) (sampled : Bool)
  /-- Clears what the sampler keeps from turn to turn. -/
  | resetSampler
  /-- Empties a range of cells, of one sequence or of all. -/
  | removeCells (stream : Stream) (sequence : Option Nat) (first : Int) (last : Option Int)
  /-- Moves a range of cells. -/
  | shiftCells (stream : Stream) (sequence : Nat) (first : Int) (last : Option Int) (delta : Int)
  /-- Takes a snapshot of the main context. -/
  | takeSnapshot
  /-- Restores the main context from a snapshot. -/
  | restoreSnapshot (bytes : List UInt8)
  /-- Seeds the sampler. -/
  | seed
deriving DecidableEq, Repr

/-- A batch that was decoded. Follows `DecodeCall`. -/
structure Batch where
  /-- The context it went to. -/
  stream : Stream
  /-- Its tokens. -/
  tokens : List Token
  /-- The position of its first token. -/
  start : Int
deriving DecidableEq, Repr

/-- The kinds of calls that can be made to fail. -/
inductive Service where
  /-- Decode calls on a context. -/
  | decode (stream : Stream)
  /-- Draws. -/
  | sample
  /-- Removals of cells. -/
  | remove
  /-- Moves of cells. -/
  | shift
  /-- Snapshots taken. -/
  | takeSnapshot
  /-- Snapshots restored. -/
  | restoreSnapshot
deriving DecidableEq, Repr

/-- Which of the next calls of each kind fail. A schedule that has run out fails none. -/
structure Faults where
  /-- Decode calls on the main context. -/
  decodeMain : List Bool := []
  /-- Decode calls on the guidance context. -/
  decodeGuidance : List Bool := []
  /-- Draws. -/
  sample : List Bool := []
  /-- Removals of cells. -/
  remove : List Bool := []
  /-- Moves of cells. -/
  shift : List Bool := []
  /-- Snapshots taken. -/
  takeSnapshot : List Bool := []
  /-- Snapshots restored. -/
  restoreSnapshot : List Bool := []
deriving DecidableEq, Repr, Inhabited

namespace Faults

/-- The schedule of a kind of call. -/
def schedule (f : Faults) : Service → List Bool
  | .decode .main => f.decodeMain
  | .decode .guidance => f.decodeGuidance
  | .sample => f.sample
  | .remove => f.remove
  | .shift => f.shift
  | .takeSnapshot => f.takeSnapshot
  | .restoreSnapshot => f.restoreSnapshot

/-- The schedules behind the next call of a kind. -/
def next (f : Faults) : Service → Faults
  | .decode .main => { f with decodeMain := f.decodeMain.tail }
  | .decode .guidance => { f with decodeGuidance := f.decodeGuidance.tail }
  | .sample => { f with sample := f.sample.tail }
  | .remove => { f with remove := f.remove.tail }
  | .shift => { f with shift := f.shift.tail }
  | .takeSnapshot => { f with takeSnapshot := f.takeSnapshot.tail }
  | .restoreSnapshot => { f with restoreSnapshot := f.restoreSnapshot.tail }

/-- One schedule after the other, for each kind of call. -/
def append (a b : Faults) : Faults where
  decodeMain := a.decodeMain ++ b.decodeMain
  decodeGuidance := a.decodeGuidance ++ b.decodeGuidance
  sample := a.sample ++ b.sample
  remove := a.remove ++ b.remove
  shift := a.shift ++ b.shift
  takeSnapshot := a.takeSnapshot ++ b.takeSnapshot
  restoreSnapshot := a.restoreSnapshot ++ b.restoreSnapshot

/-- Failures to come are followed by others, service by service. -/
instance : Append Faults := ⟨append⟩

/-- The schedule that lets `n` calls pass and fails the next.
Follows `ScriptedBackend.fail_decode_after`. -/
def after (n : Nat) : List Bool := List.replicate n false ++ [true]

/-- A schedule fails once less behind a call that fails. -/
theorem count_tail (l : List Bool) : l.tail.count true + (l.headD false).toNat = l.count true := by
  cases l with
  | nil => rfl
  | cons b l => cases b <;> simp

end Faults

/-- An engine and what became of it so far. Follows `ScriptedBackend`. -/
structure Engine where
  /-- The number of positions of the main context. -/
  contextSize : Nat := 64
  /-- Whether there is a guidance context. -/
  hasGuidance : Bool := false
  /-- Whether prompts begin with the token that opens a sequence. -/
  addsBos : Bool := false
  /-- Texts with a spelling of their own. -/
  spellings : List (String × List Token) := []
  /-- Texts that cannot be turned into tokens. -/
  refused : List String := []
  /-- The samples to come. -/
  script : List Token := []
  /-- The failures to come. -/
  faults : Faults := {}
  /-- The cells of the main context. -/
  mainCells : Cells := .empty
  /-- The cells of the guidance context. -/
  guidanceCells : Cells := .empty
  /-- The seed of the sampler, once it was given. -/
  seed : Option Nat := none
  /-- All calls, failed ones too, oldest first. -/
  calls : Array Call := #[]
  /-- The batches that were decoded, oldest first. -/
  batches : Array Batch := #[]
deriving Repr, Inhabited

/-- A computation on the engine. When it fails the engine stays as it was left. -/
abbrev EngineM := EStateM EngineError Engine

namespace Engine

open Effect

/-- The number of positions the engine's model was made for. Follows `Backend.n_ctx_train`. -/
def trainedContextSize : Nat := 4096

/-- The cells of a context. -/
def cells (e : Engine) : Stream → Cells
  | .main => e.mainCells
  | .guidance => e.guidanceCells

/-- Puts other cells into a context. -/
def setCells (e : Engine) (stream : Stream) (c : Cells) : Engine :=
  match stream with
  | .main => { e with mainCells := c }
  | .guidance => { e with guidanceCells := c }

/-- The tokens of a text, without the opening token. -/
def spell (e : Engine) (text : String) : List Token :=
  (e.spellings.lookup text).getD (Token.ofText text)

/-- All tokens decoded on a context, in order. Follows `ScriptedBackend.decoded`. -/
def decoded (e : Engine) (stream : Stream) : List Token :=
  (e.batches.toList.filter (·.stream = stream)).flatMap (·.tokens)

/-- Adds samples and failures to those still to come. -/
def extend (e : Engine) (script : List Token) (faults : Faults) : Engine :=
  { e with script := e.script ++ script, faults := e.faults ++ faults }

/-- Logs a call. -/
def note (c : Call) : EngineM Unit := modify fun e => { e with calls := e.calls.push c }

/-- Whether the next call of a kind fails; it is taken off the schedule. -/
def fails (s : Service) : EngineM Bool :=
  modifyGet fun e => ((e.faults.schedule s).headD false, { e with faults := e.faults.next s })

/-- The tokens of a text, after the opening token if that is asked for.
Follows `Backend.tokenize`. -/
def tokenize (text : String) (addBos special : Bool) : EngineM (List Token) := do
  note (.tokenize text addBos special)
  let e ← get
  failIf (text ∈ e.refused) (.tokenizer "scripted failure")
  return (if addBos then [Token.bos] else []) ++ e.spell text

/-- Decodes tokens into a context, at the positions from `start` on. Follows `Backend.decode`. -/
def decode (stream : Stream) (tokens : List Token) (start : Int) : EngineM Unit := do
  note (.decode stream tokens start)
  failIf (stream = .guidance && !(← get).hasGuidance) (.missingStream stream)
  failIf (← fails (.decode stream)) (.inference "scripted failure")
  modify fun e =>
    { e.setCells stream ((e.cells stream).write start tokens) with
      batches := e.batches.push ⟨stream, tokens, start⟩ }

/-- Draws the next token of the script, and the end-of-sequence token when it is over.
Follows `Backend.sample`. -/
def sample (guided : Bool) : EngineM Token := do
  note (.sample guided)
  failIf (← fails .sample) (.inference "scripted sample failure")
  modifyGet fun e => (e.script.headD Token.eos, { e with script := e.script.tail })

/-- Tells the sampler of a token, drawn by it or queued by the session. Follows `Backend.accept`. -/
def accept (token : Token) (sampled : Bool) : EngineM Unit := note (.accept token sampled)

/-- Clears what the sampler keeps from turn to turn. Follows `Backend.reset_sampler`. -/
def resetSampler : EngineM Unit := note .resetSampler

/-- Empties a range of cells. Follows `Backend.cache_remove`. -/
def removeCells (stream : Stream) (sequence : Option Nat) (first : Int) (last : Option Int) :
    EngineM Unit := do
  note (.removeCells stream sequence first last)
  failIf (← fails .remove) (.cells "scripted remove failure")
  modify fun e => e.setCells stream ((e.cells stream).remove first last)

/-- Moves a range of cells by `delta`. Follows `Backend.cache_shift`. -/
def shiftCells (stream : Stream) (sequence : Nat) (first : Int) (last : Option Int) (delta : Int) :
    EngineM Unit := do
  note (.shiftCells stream sequence first last delta)
  failIf (← fails .shift) (.cells "scripted shift failure")
  modify fun e => e.setCells stream ((e.cells stream).shift first last delta)

/-- The snapshot of the main context. Follows `Backend.state_data`. -/
def takeSnapshot : EngineM (List UInt8) := do
  note .takeSnapshot
  failIf (← fails .takeSnapshot) (.state "scripted state failure")
  return (← get).mainCells.snapshot

/-- Restores the main context from a snapshot. Follows `Backend.restore_state`. -/
def restoreSnapshot (bytes : List UInt8) : EngineM Unit := do
  note (.restoreSnapshot bytes)
  failIf (← fails .restoreSnapshot) (.state "scripted restore failure")
  let cells ← orFail (.state "truncated state") (Cells.ofSnapshot? bytes)
  modify fun e => { e with mainCells := cells }

/-- Seeds the sampler. Follows `Backend.set_seed`. -/
def setSeed (seed : Nat) : EngineM Unit := do
  note .seed
  modify fun e => { e with seed := some seed }

end Engine

end Dialogue
