/-!
# Turns

Where a session stands within a turn, and how a turn ends.
-/

namespace Dialogue

/-- Where a session stands within a turn. Follows `TurnPhase`. -/
inductive Phase where
  /-- Queued tokens are moved into the next step. -/
  | processingQueue
  /-- A token is drawn. -/
  | sampling
  /-- The tokens of the next step are shown. -/
  | displaying
  /-- Control is with the user. -/
  | awaitingUser
  /-- The session is over. -/
  | terminated
deriving DecidableEq, Repr, Inhabited

/-- Why a turn ends. Follows `StopReason`. -/
inductive StopReason where
  /-- A reverse prompt hands control to the user. -/
  | antiprompt
  /-- The generation ended. -/
  | endOfSequence
  /-- The draws of the turn are used up. -/
  | budgetExhausted
  /-- The context is full and is not to be swapped, or cannot be. -/
  | contextFull
  /-- It was the user's turn already. -/
  | userTurn
deriving DecidableEq, Repr, Inhabited

/-- How a turn ends. Follows `TurnOutcome`. -/
structure Outcome where
  /-- Where the session stands then. -/
  phase : Phase
  /-- Why it ends. -/
  reason : StopReason
deriving DecidableEq, Repr, Inhabited

/-- The name used in the journal. -/
def Phase.name : Phase → String
  | processingQueue => "ProcessingQueue"
  | sampling => "Sampling"
  | displaying => "Displaying"
  | awaitingUser => "AwaitingUser"
  | terminated => "Terminated"

/-- The name used in the journal. -/
def StopReason.name : StopReason → String
  | antiprompt => "Antiprompt"
  | endOfSequence => "EndOfSequence"
  | budgetExhausted => "BudgetExhausted"
  | contextFull => "ContextFull"
  | userTurn => "UserTurn"

end Dialogue
