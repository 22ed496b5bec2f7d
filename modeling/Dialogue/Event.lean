import Dialogue.Token
import Dialogue.Turn
/-!
# Journal

What a session reports while it works. Every event has a level, a message and named fields.
-/

namespace Dialogue

/-- How important an event is. -/
inductive Level where
  | error | warn | info | debug | trace
deriving DecidableEq, Repr

/-- The name used in the journal. -/
def Level.name : Level → String
  | error => "ERROR"
  | warn => "WARN"
  | info => "INFO"
  | debug => "DEBUG"
  | trace => "TRACE"

/-- What a session reports. -/
inductive Event where
  /-- The context asked for is too small. -/
  | contextRaised (requested : Nat)
  /-- The context is larger than the model was made for. -/
  | contextBeyondTraining (trained : Nat) (contextSize : Int)
  /-- The session file is looked for. -/
  | cacheTried (path : String)
  /-- There is no session file yet. -/
  | cacheAbsent
  /-- A session file was read. -/
  | fileLoaded (path : String) (size stateSize : Nat)
  /-- The tokens of the session file are used. -/
  | cacheLoaded (size : Nat)
  /-- A session file was written. -/
  | fileSaved (path : String) (size : Nat)
  /-- The session file cannot be used. -/
  | cacheDisabled (error : String)
  /-- The session file no longer agrees with the context. -/
  | cacheInvalidated (path : String)
  /-- The session file supplies the whole prompt. -/
  | promptFromCache
  /-- The session file holds the whole prompt. -/
  | promptCached
  /-- The session file holds a small part of the prompt. -/
  | promptHardlyCached (matched size : Nat)
  /-- The session file holds a part of the prompt. -/
  | promptPartlyCached (matched size : Nat)
  /-- The session goes on past the prompt, whose last token is evaluated again. -/
  | logitsRecalculated (sessionSize promptSize : Nat)
  /-- The negative prompt and the prompt were turned into tokens. -/
  | guidancePrompt (size promptSize : Nat)
  /-- Guidance is wanted of an engine that has no context for it. -/
  | guidanceUnavailable
  /-- The prompt is queued. -/
  | promptQueued (size : Nat) (keep : Int)
  /-- A reverse prompt of the session. -/
  | reversePrompt (antiprompt : String)
  /-- User turns begin with the token that opens a sequence. -/
  | inputBos
  /-- The text put before user turns. -/
  | inputLead (lead : String)
  /-- The text put after user turns. -/
  | inputTail (tail : String)
  /-- The session can begin. -/
  | ready (contextSize : Int) (batchSize : Nat) (predict keep : Int)
  /-- A batch is decoded. -/
  | decoding (stream : Stream) (position : Int) (size : Nat)
  /-- All batches of a step were decoded. -/
  | decoded (stream : Stream) (past : Int)
  /-- A step could not be decoded. -/
  | decodeFailed (error : String) (consecutive : Nat)
  /-- A step of guidance could not be decoded. -/
  | guidanceFailed (error : String)
  /-- Half of what is not pinned is evicted. -/
  | swapping (past left contextSize keep discarded : Int)
  /-- There is nothing to evict. -/
  | nothingToDiscard (past keep : Int)
  /-- The context is full and must not be swapped. -/
  | contextFull
  /-- Swapping left no room. -/
  | noRoom (past keep : Int)
  /-- The end of a step is cut off. -/
  | inputCut (skipped : Nat)
  /-- Queued tokens are moved into the next step. -/
  | drainingQueue (queued read : Nat)
  /-- The prompt was written to the session file. -/
  | cacheSaved (size : Nat)
  /-- A token was drawn. -/
  | sampled (token : Token) (guided : Bool) (remaining : Int)
  /-- No draw is left. -/
  | budgetSpent
  /-- A reverse prompt stands at the end of the text. -/
  | antipromptFound (antiprompt : String)
  /-- The generation ended and control goes to the user. -/
  | endOfSequenceFound
  /-- The generation and the session end. -/
  | endOfText
  /-- A turn ended. -/
  | turnFinished (outcome : Outcome) (past : Int)
  /-- The user's turn begins with the token that opens a sequence. -/
  | bosQueued
  /-- The user said something. -/
  | inputQueued (size : Nat) (remaining : Int)
  /-- The user said nothing. -/
  | inputEmpty
  /-- The user's input is over. -/
  | endOfInput
  /-- All that was evaluated is written to the session file. -/
  | finalSave (size : Nat)
  /-- The session could not be closed in order. -/
  | closeFailed (error : String)
deriving DecidableEq, Repr

namespace Event

/-- How important the event is. -/
def level : Event → Level
  | decodeFailed .. | closeFailed .. => .error
  | contextRaised .. | contextBeyondTraining .. | cacheDisabled .. | promptHardlyCached ..
  | guidanceUnavailable | guidanceFailed .. | nothingToDiscard .. | noRoom .. | inputCut .. => .warn
  | cacheTried .. | cacheAbsent | cacheLoaded .. | promptFromCache | promptCached
  | promptPartlyCached .. | reversePrompt .. | inputBos | inputLead .. | inputTail .. | ready ..
  | contextFull | endOfText | endOfInput | finalSave .. => .info
  | decoding .. => .trace
  | _ => .debug

/-- The text of the event, without its fields. -/
def message : Event → String
  | contextRaised .. => "minimum context size is 8, using minimum size"
  | contextBeyondTraining trained _ =>
    "model was trained on only " ++ toString trained ++ " context tokens"
  | cacheTried .. => "attempting to load saved session"
  | cacheAbsent => "session file does not exist, will create"
  | fileLoaded .. => "loaded session"
  | cacheLoaded .. => "loaded a session with prompt size"
  | fileSaved .. => "saved session"
  | cacheDisabled .. => "session cache disabled"
  | cacheInvalidated .. => "session cache invalidated"
  | promptFromCache => "using full prompt from session file"
  | promptCached => "session file has exact match for prompt"
  | promptHardlyCached .. => "session file has low similarity to prompt; will mostly be reevaluated"
  | promptPartlyCached .. => "session file matches prompt prefix"
  | logitsRecalculated .. => "recalculate the cached logits"
  | guidancePrompt .. => "guidance prompt"
  | guidanceUnavailable =>
    "guidance scale set but backend has no guidance context, sampling unguided"
  | promptQueued .. => "prompt"
  | reversePrompt .. => "reverse prompt"
  | inputBos => "input prefix with BOS"
  | inputLead .. => "input prefix"
  | inputTail .. => "input suffix"
  | ready .. => "generate"
  | decoding .. => "eval"
  | decoded .. => "evaluated"
  | decodeFailed .. => "failed to eval"
  | guidanceFailed .. => "guidance evaluation failed, next sample is unguided"
  | swapping .. => "context full, swapping"
  | nothingToDiscard .. => "nothing to discard, window cannot make room"
  | contextFull => "context full and n_predict == -2, stopping"
  | noRoom .. => "no room left after swapping"
  | inputCut .. => "input too long"
  | drainingQueue .. => "processing queued input"
  | cacheSaved .. => "saved session to cache"
  | sampled .. => "sampled"
  | budgetSpent => "sampling budget already spent"
  | antipromptFound .. => "found antiprompt"
  | endOfSequenceFound => "found EOS token"
  | endOfText => "end of text"
  | turnFinished .. => "turn finished"
  | bosQueued => "adding input prefix BOS token"
  | inputQueued .. => "queued user input"
  | inputEmpty => "empty line, passing control back"
  | endOfInput => "end of input"
  | finalSave .. => "saving final output to session file"
  | closeFailed .. => "shutdown failed"

/-- The fields of the event, by name. -/
def fields : Event → List (String × String)
  | contextRaised requested => [("requested", toString requested)]
  | contextBeyondTraining trained contextSize =>
    [("n_ctx_train", toString trained), ("n_ctx", toString contextSize)]
  | cacheTried path | cacheInvalidated path => [("path", path)]
  | fileLoaded path size stateSize =>
    [("path", path), ("n_tokens", toString size), ("n_state", toString stateSize)]
  | fileSaved path size => [("path", path), ("n_tokens", toString size)]
  | cacheLoaded size | cacheSaved size | finalSave size => [("n_tokens", toString size)]
  | cacheDisabled error | guidanceFailed error | closeFailed error => [("error", error)]
  | promptHardlyCached matched size | promptPartlyCached matched size =>
    [("matched", toString matched), ("n_prompt", toString size)]
  | logitsRecalculated sessionSize promptSize =>
    [("n_session", toString sessionSize), ("n_prompt", toString promptSize)]
  | guidancePrompt size promptSize =>
    [("n_guidance", toString size), ("original_prompt_len", toString promptSize)]
  | promptQueued size keep => [("n_prompt", toString size), ("n_keep", toString keep)]
  | reversePrompt antiprompt | antipromptFound antiprompt => [("antiprompt", antiprompt)]
  | inputLead lead => [("prefix", lead)]
  | inputTail tail => [("suffix", tail)]
  | ready contextSize batchSize predict keep =>
    [("n_ctx", toString contextSize), ("n_batch", toString batchSize),
     ("n_predict", toString predict), ("n_keep", toString keep)]
  | decoding stream position size =>
    [("stream", stream.name), ("position", toString position), ("n_eval", toString size)]
  | decoded stream past => [("stream", stream.name), ("n_past", toString past)]
  | decodeFailed error consecutive => [("error", error), ("consecutive", toString consecutive)]
  | swapping past left contextSize keep discarded =>
    [("n_past", toString past), ("n_left", toString left), ("n_ctx", toString contextSize),
     ("n_keep", toString keep), ("n_discard", toString discarded)]
  | nothingToDiscard past keep | noRoom past keep =>
    [("n_past", toString past), ("n_keep", toString keep)]
  | inputCut skipped => [("skipped", toString skipped)]
  | drainingQueue queued read => [("n_inp", toString queued), ("n_consumed", toString read)]
  | sampled token guided remaining =>
    [("token", toString token.toInt), ("guided", if guided then "true" else "false"),
     ("n_remain", toString remaining)]
  | turnFinished outcome past =>
    [("phase", outcome.phase.name), ("reason", outcome.reason.name), ("n_past", toString past)]
  | inputQueued size remaining => [("n_tokens", toString size), ("n_remain", toString remaining)]
  | cacheAbsent | promptFromCache | promptCached | guidanceUnavailable | inputBos | contextFull
  | budgetSpent | endOfSequenceFound | endOfText | bosQueued | inputEmpty | endOfInput => []

end Event

/-- What was reported, oldest first. -/
abbrev Journal := Array Event

end Dialogue
