import Dialogue.Cache.Reuse
import Dialogue.Session.Basic
/-!
# Evaluating a step

A step is cut to what the context can take, room is made for it, what the session file holds of it
is skipped, and the rest is fed to both contexts. Failures of guidance cost the guidance of the next
draw only; a step that fails on the main context is given up, and the turn with it if that happens
too often in a row.
-/

namespace Dialogue.Session

open Effect

/-- What the user is told when tokens are cut off. -/
def cutNotice (skipped : Nat) : String :=
  "<<input too long: skipped " ++ toString skipped ++ " token" ++ (if skipped = 1 then "" else "s")
    ++ ">>"

/-- Cuts the pending tokens to a number, and tells the user if some are lost.
Follows `TurnController.truncate_pending`. -/
def cutPending (max : Nat) : SessionM Unit := do
  let n := (← get).progress.pending.length
  onlyIf (max < n) do
    advance fun p => { p with pending := p.pending.take max }
    report (.inputCut (n - max))
    write (cutNotice (n - max))

/-- Empties the next step. Part of `TurnController.answer`. -/
def clearPending : SessionM Unit :=
  advance ({ · with pending := [], guidanceInput := [] })

/-- Logs the first `n` pending tokens, which are resident now, for the session file.
Follows `TurnController.mirror_to_session`. -/
def logPending (n : Nat) : SessionM Unit := do
  let active := (← get).cache.isActive
  onlyIf (0 < n && active) do
    advance fun p =>
      { p with
        logged := p.logged ++ p.pending.take n
        loggedRead := (p.logged ++ p.pending.take n).length }

/-- Feeds the guidance context, if there is guidance. Part of `TurnController.evaluate_pending`. -/
def feedGuidance : SessionM Unit := do
  let s ← get
  match s.guidance with
  | none => return ()
  | some g =>
    match ← tryOnBench (g.step s.config.batchSize) with
    | .ok () => return ()
    | .error error => report (.guidanceFailed error.message)

/-- Gives the turn up if decoding failed too often in a row.
Part of `TurnController.evaluate_pending`. -/
def giveUpStep (error : DecodeError) : SessionM Unit := do
  let s ← get
  onlyIf (0 < s.config.maxDecodeFailures && s.config.maxDecodeFailures ≤ s.decodeFailures) do
    clearPending
    advance ({ · with guidanceReady := false })
    throw (.decodeFailed s.decodeFailures error)

/-- Counts a step that could not be decoded. Part of `TurnController.evaluate_pending`. -/
def failStep (error : DecodeError) : SessionM Unit := do
  modify fun s => { s with decodeFailures := s.decodeFailures + 1 }
  report (.decodeFailed error.message (← get).decodeFailures)
  logPending error.evaluated
  giveUpStep error

/-- Feeds the main context. Part of `TurnController.evaluate_pending`. -/
def feedMain : SessionM Unit := do
  let s ← get
  match ← tryOnBench (Feed.feed .main s.progress.pending s.config.batchSize) with
  | .ok () =>
    modify ({ · with decodeFailures := 0 })
    logPending s.progress.pending.length
  | .error error => failStep error

/-- Whether the pending tokens do not fit into the context as it is. -/
def overflows (s : Session) : Bool :=
  s.window.overflows s.progress.past s.progress.pending.length s.offset

/-- How many tokens fit into the context as it is. -/
def room (s : Session) : Nat := s.window.room s.progress.past s.offset

/-- Makes room for the pending tokens. Part of `TurnController.evaluate_pending`. -/
def makeRoom : SessionM Unit := do
  let s ← get
  discard (onBench .engine (s.window.ensureRoom (s.guidance.map Guidance.offset)))

/-- Feeds both contexts with what is not resident of the pending tokens, cut to the room there is.
Part of `TurnController.evaluate_pending`. -/
def feedPending (room : Nat) : SessionM Unit := do
  cutPending room
  advance Progress.reuse
  feedGuidance
  feedMain

/-- Makes room for the pending tokens and feeds them. If there is no room, the session cannot go on.
Part of `TurnController.evaluate_pending`. -/
def swapAndFeed : SessionM (Option StopReason) := do
  makeRoom
  let s ← get
  if s.room = 0 then
    report (.noRoom s.progress.past s.window.keep)
    return some .contextFull
  else
    feedPending s.room
    return none

/-- Evaluates the pending tokens. The reason is given if the session cannot go on.
Follows `TurnController.evaluate_pending`. -/
def evaluate : SessionM (Option StopReason) := do
  cutPending (← get).window.maxStep
  let s ← get
  if s.config.predict = -2 && s.overflows then
    report .contextFull
    return some .contextFull
  else swapAndFeed

end Dialogue.Session
