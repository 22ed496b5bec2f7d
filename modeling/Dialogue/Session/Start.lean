import Dialogue.Cache.Reuse
import Dialogue.Session.Basic
/-!
# Beginning a session

A session begins with its configuration resolved, its file loaded and its prompt queued; nothing is
evaluated yet.
-/

namespace Dialogue

namespace Config

/-- How many tokens of a prompt are kept when the context is swapped.
Part of `TurnController.new`. -/
def keptTokens (c : Config) (size : Nat) : Int :=
  match c.keep with
  | some k => if 0 ≤ k ∧ k ≤ size ∧ !c.instruct then k else size
  | none => size

/-- Whether the prompt is taken from the configuration even if the session file has tokens.
Part of `TurnController.new`. -/
def hasOwnPrompt (c : Config) : Bool := c.userFirst || c.instruct || c.prompt ≠ ""

/-- What is reported of the texts around the turns. -/
def turnEvents (c : Config) : List Event :=
  if c.interactive then
    c.antiprompts.map .reversePrompt
      ++ (if c.inputBos then [.inputBos] else [])
      ++ (if c.inputLead ≠ "" then [.inputLead c.inputLead] else [])
      ++ (if c.inputTail ≠ "" then [.inputTail c.inputTail] else [])
  else []

end Config

namespace Workbench

open Effect

/-- A workbench on which nothing was done yet. -/
def fresh (engine : Engine) (directory : Directory) : Workbench :=
  { engine, directory, progress := { remaining := 0 } }

/-- The number of positions of the engine's context, as a signed word. -/
def contextPositions (w : Workbench) : Int := Number.signedWord w.engine.contextSize

/-- Calls the engine while a session begins. -/
def ask {α : Type} (x : EngineM α) : WorkM SessionError α :=
  (call x).adaptExcept .engine

/-- The configuration as the session takes it. Part of `TurnController.new`. -/
def settle (now : Nat) (config : Config) : WorkM SessionError Config := do
  match config.resolveReported now with
  | .error error => throw (.config error)
  | .ok (config, events) =>
    events.forM fun e => report e
    return config

/-- The tokens of the prompt, of which there is at least one. Part of `TurnController.new`. -/
def promptTokens (config : Config) (logged : List Token) : WorkM SessionError (List Token) := do
  let w ← get
  let tokens ←
    if config.hasOwnPrompt || logged = [] then
      ask (Engine.tokenize config.prompt w.engine.addsBos true)
    else pure logged
  return if tokens = [] then [Token.bos] else tokens

/-- What the guidance context is to be fed, if guidance is wanted and the engine has it.
Part of `TurnController.new`. -/
def startGuidance (config : Config) : WorkM SessionError (Option Guidance) := do
  let engine := (← get).engine
  if !config.guidanceScale.aboveOne then return none
  else if !engine.hasGuidance then
    report .guidanceUnavailable
    return none
  else
    return some (← (Guidance.ofPrompts config.negativePrompt config.prompt
      engine.addsBos).adaptExcept .engine)

/-- How much of the prompt the session file holds; what else it holds is dropped.
Part of `TurnController.new`. -/
def startCache (config : Config) (queue logged : List Token) : WorkM SessionError Nat := do
  if logged = [] then return 0
  else (Cache.align queue (config.prompt = "")).adaptExcept .engine

/-- Begins a session, with `now` for a seed that is not set. Follows `TurnController.new`. -/
def startSession (now : Nat) (config : Config) : WorkM SessionError Session := do
  let config ← settle now config
  let w ← get
  let size := w.contextPositions
  onlyIf (Engine.trainedContextSize < w.engine.contextSize)
    (report (.contextBeyondTraining Engine.trainedContextSize size))
  Cache.replace ⟨config.cachePath, config.cacheReadOnly⟩
  let logged ← Cache.loadOrColdStart size.toNat
  ask (Engine.setSeed (config.seed.getD now))
  let queue ← promptTokens config logged
  let max := Window.maxStep ⟨size, 0⟩
  failIf (max < queue.length) (.config (.promptTooLong queue.length max))
  let keep := config.keptTokens queue.length
  let guidance ← startGuidance config
  advance fun _ => { remaining := config.predict, queue, logged }
  let matched ← startCache config queue logged
  let instructLead ← ask (Engine.tokenize Session.leadText w.engine.addsBos true)
  let instructTail ← ask (Engine.tokenize Session.tailText false true)
  report (.promptQueued queue.length keep)
  config.turnEvents.forM fun e => report e
  report (.ready size config.batchSize config.predict keep)
  let window : Window := ⟨size, keep⟩
  let bench ← get
  return Session.reset { bench with config, window, guidance, instructLead, instructTail, matched }

end Workbench

/-- Begins a session with an engine and the files of a directory, with `now` for a seed that is not
set. A session that cannot begin leaves the workbench as it was then. -/
def Session.start (now : Nat) (config : Config) (engine : Engine) (directory : Directory) :
    EStateM.Result SessionError Workbench Session :=
  Workbench.startSession now config (Workbench.fresh engine directory)

end Dialogue
