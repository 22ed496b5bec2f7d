import Dialogue.Config.Failure
/-!
# Configuration

What a session is run with. Once read, a configuration is resolved: invalid combinations are
rejected, the context is raised to its least size, a seed is filled in, and instruct mode implies
that the user speaks first, which implies interactive mode.
-/

namespace Dialogue

/-- What a session is run with. Follows `ContextConfig`. -/
structure Config where
  /-- The wanted number of positions of the context; zero leaves it to the engine. -/
  contextSize : Nat := 512
  /-- How many tokens of the prompt a swap of the context keeps; all if unset or negative. -/
  keep : Option Int := none
  /-- The greatest number of tokens per decode call. -/
  batchSize : Nat := 512
  /-- How many tokens to draw per turn: without end if -1, until the context is full if -2. -/
  predict : Int := -1
  /-- The initial prompt. -/
  prompt : String := ""
  /-- The texts that hand control back to the user. -/
  antiprompts : List String := []
  /-- Whether the user takes turns. -/
  interactive : Bool := false
  /-- Whether the user speaks first. -/
  userFirst : Bool := false
  /-- Whether user turns are wrapped as instructions. -/
  instruct : Bool := false
  /-- Whether a turn goes on until a line ends in a backslash. -/
  multiline : Bool := false
  /-- Whether escape sequences in user turns are replaced. -/
  escapes : Bool := false
  /-- Whether every user turn begins with the token that opens a sequence. -/
  inputBos : Bool := false
  /-- The text put before every user turn. -/
  inputLead : String := ""
  /-- The text put after every user turn. -/
  inputTail : String := ""
  /-- The file that keeps the evaluated prompt between runs. -/
  cachePath : Option String := none
  /-- Whether the file also takes what was said since, at the end. -/
  cacheAll : Bool := false
  /-- Whether the file is only read. -/
  cacheReadOnly : Bool := false
  /-- The prompt that guidance steers away from. -/
  negativePrompt : String := ""
  /-- The strength of guidance; one turns it off. -/
  guidanceScale : Number.Single := .one
  /-- The seed of the sampler. -/
  seed : Option Nat := none
  /-- After how many decode failures in a row a turn is given up; never if zero. -/
  maxDecodeFailures : Nat := 4
  /-- The file that takes the transcript. -/
  transcriptPath : Option String := none
deriving DecidableEq, Repr, Inhabited

namespace Config

/-- The least context a session runs with. -/
def minContextSize : Nat := 8

/-- The reverse prompt of instruct mode. -/
def instructAntiprompt : String := "### Instruction:\n\n"

/-- Whether the context asked for is too small, and not left to the engine. -/
def isTooSmall (c : Config) : Bool := c.contextSize ≠ 0 && c.contextSize < minContextSize

/-- Whether the number of draws per turn is bounded. Follows `ContextConfig.finite_budget`. -/
def hasFiniteBudget (c : Config) : Bool := 0 ≤ c.predict

/-- Raises a context that is too small to the least size. Part of `ContextConfig.resolve`. -/
def raiseContext (c : Config) : Config :=
  if c.isTooSmall then { c with contextSize := minContextSize } else c

/-- Fills in a seed where there is none. Part of `ContextConfig.resolve`. -/
def fillSeed (now : Nat) (c : Config) : Config := { c with seed := some (c.seed.getD now) }

/-- Instruct mode lets the user speak first and has a reverse prompt of its own.
Part of `ContextConfig.resolve`. -/
def applyInstruct (c : Config) : Config :=
  if c.instruct then
    { c with
      userFirst := true
      antiprompts :=
        if instructAntiprompt ∈ c.antiprompts then c.antiprompts
        else c.antiprompts ++ [instructAntiprompt] }
  else c

/-- A user who speaks first takes turns. Part of `ContextConfig.resolve`. -/
def applyUserFirst (c : Config) : Config :=
  if c.userFirst then { c with interactive := true } else c

/-- The configuration as the session takes it, with `now` for a seed that is not set.
Follows `ContextConfig.resolve`. -/
def resolve (now : Nat) (c : Config) : Except ConfigError Config :=
  if c.batchSize = 0 then .error .zeroBatch
  else if !c.guidanceScale.isStrength then .error (.guidanceScale c.guidanceScale)
  else .ok (((c.raiseContext.fillSeed now).applyInstruct).applyUserFirst)

/-! ### What a configuration is resolved to -/

variable {now : Nat} {c r : Config}

/-- The size of the context, raised if it is too small. -/
def raisedSize (c : Config) : Nat := if c.isTooSmall then minContextSize else c.contextSize

/-- The reverse prompts, in instruct mode with its own. -/
def allAntiprompts (c : Config) : List String :=
  if c.instruct = true ∧ instructAntiprompt ∉ c.antiprompts then
    c.antiprompts ++ [instructAntiprompt]
  else c.antiprompts

/-- The configuration with all that follows from it, and with `now` for a seed that is not set. -/
def completed (now : Nat) (c : Config) : Config :=
  { c with
    contextSize := c.raisedSize
    seed := some (c.seed.getD now)
    antiprompts := c.allAntiprompts
    userFirst := c.userFirst || c.instruct
    interactive := c.interactive || (c.userFirst || c.instruct) }

private theorem raiseContext_eq (c : Config) :
    c.raiseContext = { c with contextSize := c.raisedSize } := by
  unfold raiseContext raisedSize
  split <;> rfl

private theorem applyInstruct_eq (c : Config) : c.applyInstruct =
    { c with userFirst := c.userFirst || c.instruct, antiprompts := c.allAntiprompts } := by
  unfold applyInstruct allAntiprompts
  split
  · next h =>
    have hfirst : (c.userFirst || c.instruct) = true := by rw [h, Bool.or_true]
    by_cases hmem : instructAntiprompt ∈ c.antiprompts
    · rw [hfirst, if_pos hmem, if_neg fun hadds => hadds.2 hmem]
    · rw [hfirst, if_neg hmem, if_pos ⟨h, hmem⟩]
  · next h =>
    have hfirst : (c.userFirst || c.instruct) = c.userFirst := by
      rw [Bool.eq_false_iff.mpr h, Bool.or_false]
    rw [hfirst, if_neg fun hadds => h hadds.1]

private theorem applyUserFirst_eq (c : Config) :
    c.applyUserFirst = { c with interactive := c.interactive || c.userFirst } := by
  unfold applyUserFirst
  split
  · next h => rw [h, Bool.or_true]
  · next h =>
    have hinteractive : (c.interactive || c.userFirst) = c.interactive := by
      rw [Bool.eq_false_iff.mpr h, Bool.or_false]
    rw [hinteractive]

/-- A configuration is resolved unless its batch size is zero or its guidance scale is no strength.
-/
theorem resolve_eq (now : Nat) (c : Config) :
    c.resolve now =
      if c.batchSize = 0 then .error .zeroBatch
      else if !c.guidanceScale.isStrength then .error (.guidanceScale c.guidanceScale)
      else .ok (c.completed now) := by
  have hcompleted : ((c.raiseContext.fillSeed now).applyInstruct).applyUserFirst =
      c.completed now := by
    rw [applyUserFirst_eq, applyInstruct_eq, raiseContext_eq]
    rfl
  rw [resolve, hcompleted]

/-- What a configuration is resolved to, and when it is. -/
theorem resolve_eq_ok_iff : c.resolve now = .ok r ↔
    c.batchSize ≠ 0 ∧ c.guidanceScale.isStrength = true ∧ c.completed now = r := by
  rw [resolve_eq]
  by_cases hbatch : c.batchSize = 0
  · simp [hbatch]
  · cases hscale : c.guidanceScale.isStrength <;> simp [hbatch]

end Config

end Dialogue
