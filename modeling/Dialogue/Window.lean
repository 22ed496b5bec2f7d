import Dialogue.Cache.Storage
import Dialogue.Number.Word
/-!
# The context window

When the next step would not fit, the older half of what is not pinned is evicted and the rest moves
down. The tokens of the kept part of the prompt and one more are pinned. Evictions go on until the
step fits or nothing is left to evict.
-/

namespace Dialogue

/-- The bounds of a context. Follows `ContextWindow`. -/
structure Window where
  /-- How many positions there are. -/
  size : Int
  /-- How many tokens are kept; one more is pinned. -/
  keep : Int
deriving DecidableEq, Repr, Inhabited

/-- What was evicted. Follows `SwapReport`. -/
structure Eviction where
  /-- How many tokens were not pinned. -/
  left : Int
  /-- How many of them were evicted. -/
  discarded : Int
  /-- How many tokens were resident before. -/
  before : Int
  /-- How many tokens are resident since. -/
  after : Int
deriving DecidableEq, Repr, Inhabited

/-- An eviction and one that follows it, taken as one. Part of `ContextWindow.ensure_room`. -/
def Eviction.andThen (a b : Eviction) : Eviction :=
  { a with discarded := a.discarded + b.discarded, after := b.after }

namespace Window

open Effect Workbench

/-- The greatest number of tokens of a step. Follows `ContextWindow.max_step`. -/
def maxStep (w : Window) : Nat := (w.size - 4).toNat

/-- Whether a step of some size does not fit behind the resident tokens. A positive guidance offset
takes room too. Follows `ContextWindow.would_overflow`. -/
def overflows (w : Window) (past : Int) (step : Nat) (offset : Int) : Bool :=
  w.size < past + Number.signedWord step + max offset 0

/-- How many tokens fit behind the resident ones. Follows `ContextWindow.room`. -/
def room (w : Window) (past offset : Int) : Nat := (w.size - past - max offset 0).toNat

/-- Where the tokens that are not pinned begin. Part of `ContextWindow.swap`. -/
def pinned (w : Window) : Int := w.keep + 1

/-- How many resident tokens are not pinned. Part of `ContextWindow.swap`. -/
def evictable (w : Window) (past : Int) : Int := past - w.pinned

/-- How many tokens an eviction drops, if that is positive. Part of `ContextWindow.swap`. -/
def discard (w : Window) (past : Int) : Int := (w.evictable past).tdiv 2

/-- Of the tokens that are not pinned, those dropped are the older half. -/
theorem discard_eq {w : Window} {past : Int} (h : 0 < w.discard past) :
    2 ≤ w.evictable past ∧ w.discard past = w.evictable past / 2 := by
  rcases Int.le_total 0 (w.evictable past) with hn | hn
  · have hd : w.discard past = w.evictable past / 2 := Int.tdiv_eq_ediv_of_nonneg hn
    omega
  · have hd : w.discard past = -((-w.evictable past) / 2) := by
      rw [← Int.tdiv_eq_ediv_of_nonneg (by omega), Int.neg_tdiv, Int.neg_neg, discard]
    omega

/-- How many tokens are resident before each of the evictions that make room for a step.
Part of `ContextWindow.ensure_room`. -/
def evictions (w : Window) (step : Nat) (offset past : Int) : List Int :=
  if w.overflows past step offset then
    if 0 < w.discard past then past :: evictions w step offset (past - w.discard past) else [past]
  else []
termination_by (w.evictable past).toNat
decreasing_by
  have h := discard_eq ‹0 < w.discard past›
  simp only [evictable] at h ⊢
  omega

/-- Evicts `n` tokens behind the pinned ones, of as many as are resident. The guidance counter falls
along if guidance is active. Part of `ContextWindow.swap`. -/
def evict (w : Window) (guided : Bool) (past n : Int) : WorkM EngineError Unit := do
  call (Engine.removeCells .main (some 0) w.pinned (some (w.pinned + n)))
  call (Engine.shiftCells .main 0 (w.pinned + n) (some past) (-n))
  advance (·.rewind .main n)
  onlyIf guided (advance (·.rewind .guidance n))

/-- Evicts the older half of what is not pinned, of as many tokens as are resident.
Part of `ContextWindow.swap`. -/
def evictHalf (w : Window) (guided : Bool) (past : Int) : WorkM EngineError Unit :=
  if 0 < w.discard past then w.evict guided past (w.discard past)
  else report (.nothingToDiscard past w.keep)

/-- Evicts the older half of what is not pinned. The session file no longer agrees with the context
then. Follows `ContextWindow.swap`. -/
def swap (w : Window) (guided : Bool) : WorkM EngineError Eviction := do
  let past := (← get).progress.past
  report (.swapping past (w.evictable past) w.size w.keep (w.discard past))
  w.evictHalf guided past
  Cache.invalidate
  return ⟨w.evictable past, max (w.discard past) 0, past, (← get).progress.past⟩

/-- Makes room for the pending tokens as far as possible; what was evicted, taken as one, if the
step did not fit at once. Follows `ContextWindow.ensure_room`. -/
def ensureRoom (w : Window) (offset : Option Int) : WorkM EngineError (Option Eviction) := do
  let p := (← get).progress
  let done ← (w.evictions p.pending.length (offset.getD 0) p.past).mapM fun _ =>
    w.swap offset.isSome
  return match done with
    | [] => none
    | first :: rest => some (rest.foldl Eviction.andThen first)

end Window

end Dialogue
