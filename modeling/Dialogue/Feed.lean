import Dialogue.Workbench
/-!
# Feeding a context

Tokens are decoded in batches of a bounded size, one call per batch, at consecutive positions. A
batch that fails is the last one: those before it stay decoded, and the counter of the context
covers just these.
-/

namespace Dialogue

/-- Cuts a list into pieces of `n` entries, or of one if `n` is zero; the last may be shorter. Part
of `evaluate`. -/
def pieces {α : Type} (n : Nat) (l : List α) : List (List α) :=
  if l = [] then [] else l.take (max n 1) :: pieces n (l.drop (max n 1))
termination_by l.length
decreasing_by
  have : l.length ≠ 0 := fun h => by simp_all
  simp only [List.length_drop]
  omega

/-- The pieces of a list make it up. -/
theorem flatten_pieces {α : Type} (n : Nat) (l : List α) : (pieces n l).flatten = l := by
  fun_induction pieces n l with
  | case1 => rfl
  | case2 l h ih => rw [List.flatten_cons, ih, List.take_append_drop]

namespace Feed

open Workbench

/-- Decodes batches from a position on, after `evaluated` tokens; the position behind the last. Part
of `evaluate`. -/
def batches (stream : Stream) : List (List Token) → Int → Nat → WorkM DecodeError Int
  | [], position, _ => return position
  | batch :: rest, position, evaluated => do
    report (.decoding stream position batch.length)
    (call (Engine.decode stream batch position)).adaptExcept
      fun cause => ⟨stream, position, batch.length, evaluated, cause⟩
    batches stream rest (position + batch.length) (evaluated + batch.length)

/-- Decodes tokens from a position on; the position behind the last. Follows `evaluate`. -/
def evaluate (stream : Stream) (tokens : List Token) (start : Int) (batchSize : Nat) :
    WorkM DecodeError Int :=
  batches stream (pieces batchSize tokens) start 0

/-- Decodes tokens behind those resident in a context, and counts them.
Follows `DecodeStream.feed`. -/
def feed (stream : Stream) (tokens : List Token) (batchSize : Nat) : WorkM DecodeError Unit := do
  let start := (← get).progress.pastOn stream
  match ← Effect.attempt (evaluate stream tokens start batchSize) with
  | .ok past =>
    advance (·.setPast stream past)
    report (.decoded stream past)
  | .error e =>
    advance (·.setPast stream e.position)
    throw e

end Feed

end Dialogue
