import Dialogue.Cache.File
import Dialogue.Workbench
/-!
# The session cache

Loading a session file restores the engine and gives the tokens that were evaluated; a file that is
missing gives none. A session goes on without its file when that cannot be used.
-/

namespace Dialogue.Cache

open Workbench

/-- Restores the engine from a session file and gives its tokens. Follows `load`. -/
def load (path : String) (capacity : Nat) : WorkM FileError (List Token) := do
  match (← get).directory.read path with
  | .error .notFound => return []
  | .error fault => throw (.unreadable path fault)
  | .ok bytes =>
    match SessionFile.decode capacity bytes with
    | .error defect => throw (.defective path defect)
    | .ok (tokens, state) =>
      (call (Engine.restoreSnapshot state)).adaptExcept (.state path)
      report (.fileLoaded path tokens.length state.length)
      return tokens

/-- Writes tokens and the state of the engine to a session file. Follows `save`. -/
def save (path : String) (tokens : List Token) : WorkM FileError Unit := do
  let state ← (call Engine.takeSnapshot).adaptExcept (.state path)
  match (← get).directory.write path (SessionFile.encode tokens state) with
  | .error fault => throw (.unwritable path fault)
  | .ok directory =>
    modify fun w => { w with directory }
    report (.fileSaved path tokens.length)

/-- Puts another cache on the workbench. -/
def replace {ε : Type} (c : Cache) : WorkM ε Unit := modify fun w => { w with cache := c }

/-- Goes on without the session file. -/
def disable {ε : Type} : WorkM ε Unit :=
  modify fun w => { w with cache := { w.cache with path := none } }

/-- Goes on without the session file, because the engine has been moved away from it.
Follows `SessionCache.invalidate`. -/
def invalidate {ε : Type} : WorkM ε Unit := do
  match (← get).cache.path with
  | none => return ()
  | some path =>
    disable
    report (.cacheInvalidated path)

/-- Goes on without the session file, because it cannot be used. -/
def giveUp {ε : Type} (error : FileError) : WorkM ε Unit := do
  report (.cacheDisabled error.message)
  disable

/-- The tokens of a session file, none if it cannot be used.
Part of `SessionCache.load_or_cold_start`. -/
def loadOrGiveUp {ε : Type} (path : String) (capacity : Nat) : WorkM ε (List Token) := do
  match ← Effect.attempt (load path capacity) with
  | .ok tokens =>
    report (.cacheLoaded tokens.length)
    return tokens
  | .error error =>
    giveUp error
    return []

/-- The tokens of the session file, none if there is no such file or it cannot be used.
Follows `SessionCache.load_or_cold_start`. -/
def loadOrColdStart {ε : Type} (capacity : Nat) : WorkM ε (List Token) := do
  match (← get).cache.path with
  | none => return []
  | some path =>
    report (.cacheTried path)
    if (← get).directory.contains path then loadOrGiveUp path capacity
    else
      report .cacheAbsent
      return []

/-- Writes a session file; whether that was done. Part of `SessionCache.save_or_disable`. -/
def saveOrGiveUp {ε : Type} (path : String) (tokens : List Token) : WorkM ε Bool := do
  match ← Effect.attempt (save path tokens) with
  | .ok () => return true
  | .error error =>
    giveUp error
    return false

/-- Writes the session file if it is to be written; whether that was done.
Follows `SessionCache.save_or_disable`. -/
def saveOrDisable {ε : Type} (tokens : List Token) : WorkM ε Bool := do
  let cache := (← get).cache
  match cache.path with
  | none => return false
  | some path => if cache.readOnly then return false else saveOrGiveUp path tokens

end Dialogue.Cache
