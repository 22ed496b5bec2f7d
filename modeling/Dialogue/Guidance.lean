import Dialogue.Feed
import Dialogue.Number.Word
/-!
# Guidance

The guidance context is fed the negative prompt in place of the real one and every later token after
it, so that both contexts end alike. A step of guidance that fails leaves the next draw unguided.
-/

namespace Dialogue

/-- What a guidance context is fed in place of the prompt. Follows `GuidanceStream`. -/
structure Guidance where
  /-- The tokens of the negative prompt. -/
  input : List Token
  /-- How many tokens the real prompt has. -/
  promptSize : Nat
deriving DecidableEq, Repr, Inhabited

namespace Guidance

open Effect Workbench

/-- How much longer the negative prompt is than the real one. Follows `GuidanceStream.offset`. -/
def offset (g : Guidance) : Int :=
  Number.signedWord g.input.length - Number.signedWord g.promptSize

/-- Turns the negative and the real prompt into tokens, both the same way.
Follows `GuidanceStream.from_prompts`. -/
def ofPrompts (negative prompt : String) (addBos : Bool) : WorkM EngineError Guidance := do
  let input ← call (Engine.tokenize negative addBos true)
  let tokens ← call (Engine.tokenize prompt addBos true)
  report (.guidancePrompt input.length tokens.length)
  return ⟨input, tokens.length⟩

/-- Whether the negative prompt is still to be fed. Follows `GuidanceStream.needs_prompt`. -/
def needsPrompt (g : Guidance) (past : Int) : Bool := past < g.input.length

/-- What is fed next: the pending tokens, behind the negative prompt in place of the real one as
long as the negative prompt is not resident. Follows `GuidanceStream.build_input`. -/
def nextInput (g : Guidance) (past : Int) (pending : List Token) : List Token :=
  if g.needsPrompt past then g.input ++ pending.drop g.promptSize else pending

/-- Feeds the guidance context for the pending tokens, and says whether the next draw can be guided.
Follows `GuidanceStream.step`. -/
def step (g : Guidance) (batchSize : Nat) : WorkM DecodeError Unit := do
  let p := (← get).progress
  let input := g.nextInput p.guidancePast p.pending
  onlyIf (g.needsPrompt p.guidancePast) (advance ({ · with guidanceInput := input }))
  match ← attempt (Feed.feed .guidance input batchSize) with
  | .ok () => advance ({ · with guidanceReady := true })
  | .error e =>
    advance ({ · with guidanceReady := false })
    throw e

end Guidance

end Dialogue
