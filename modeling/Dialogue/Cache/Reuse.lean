import Dialogue.Workbench
/-!
# Reusing a session

The tokens of a session file agree with the prompt up to some point; what the engine holds past it
is dropped. Queued tokens that the session holds at the same place are resident already and need not
be decoded.
-/

namespace Dialogue

/-- The length of the longest common beginning of two token lists. Follows `match_prefix`. -/
def commonLength : List Token → List Token → Nat
  | a :: r, b :: s => if a = b then commonLength r s + 1 else 0
  | _, _ => 0

/-- It does not matter which of two lists is compared with the other. -/
theorem commonLength_comm (a b : List Token) : commonLength a b = commonLength b a := by
  induction a generalizing b with
  | nil => cases b <;> rfl
  | cons x a ih =>
    cases b with
    | nil => rfl
    | cons y b => simp only [commonLength, ih b, eq_comm]

/-- What a list has in common with another one is no longer than itself. -/
theorem commonLength_le_left (a b : List Token) : commonLength a b ≤ a.length := by
  induction a generalizing b with
  | nil => cases b <;> exact Nat.le_refl _
  | cons x a ih =>
    cases b with
    | nil => exact Nat.zero_le _
    | cons y b =>
      have h := ih b
      simp only [commonLength, List.length_cons]
      split <;> omega

/-- What a list has in common with another one is no longer than that. -/
theorem commonLength_le_right (a b : List Token) : commonLength a b ≤ b.length :=
  commonLength_comm a b ▸ commonLength_le_left b a

/-- Two lists are the same as far as they agree. -/
theorem take_commonLength (a b : List Token) :
    a.take (commonLength a b) = b.take (commonLength a b) := by
  induction a generalizing b with
  | nil => cases b <;> rfl
  | cons x a ih =>
    cases b with
    | nil => rfl
    | cons y b =>
      simp only [commonLength]
      split
      · next h => simp [h, ih b]
      · rfl

/-- How a session relates to a prompt. Follows `Similarity`. -/
inductive Similarity where
  /-- No prompt was given; the session supplies it. -/
  | fullPrompt
  /-- The session holds the whole prompt. -/
  | exact
  /-- Less than half of the prompt agrees. -/
  | low
  /-- At least half of the prompt agrees. -/
  | partly
deriving DecidableEq, Repr

/-- How a session relates to a prompt of some size that agrees with it up to `matched`.
Follows `classify`. -/
def Similarity.classify (matched size : Nat) (promptEmpty : Bool) : Similarity :=
  if promptEmpty && matched = size then .fullPrompt
  else if size ≤ matched then .exact
  else if matched < size / 2 then .low
  else .partly

/-- What is reported of a session and a prompt. -/
def Similarity.event (matched size : Nat) : Similarity → Event
  | fullPrompt => .promptFromCache
  | exact => .promptCached
  | low => .promptHardlyCached matched size
  | partly => .promptPartlyCached matched size

namespace Cache

open Effect Workbench

/-- Drops what the engine holds past the common beginning of the session and the prompt, and gives
the length of that. A session that goes on past the whole prompt is cut before the last token of it,
so that this is evaluated again and the next draw has fresh logits. Follows `align_with_prompt`. -/
def align (prompt : List Token) (promptEmpty : Bool) : WorkM EngineError Nat := do
  let logged := (← get).progress.logged
  let matched := commonLength logged prompt
  report ((Similarity.classify matched prompt.length promptEmpty).event matched prompt.length)
  call (Engine.removeCells .main none matched none)
  onlyIf (prompt ≠ [] ∧ matched = prompt.length ∧ prompt.length < logged.length) do
    report (.logitsRecalculated logged.length prompt.length)
    advance fun p => { p with logged := logged.take (prompt.length - 1) }
  return matched

end Cache

/-- Counts the pending tokens that the session holds as resident, instead of decoding them. At the
first pending token that differs the rest of the session is dropped. Follows `reuse_prefix`. -/
def Progress.reuse (p : Progress) : Progress :=
  let k := commonLength (p.logged.drop p.loggedRead) p.pending
  let differs := k < p.pending.length && p.loggedRead + k < p.logged.length
  { p with
    pending := p.pending.drop k
    past := p.past + k
    loggedRead := p.loggedRead + k
    logged := if differs then p.logged.take (p.loggedRead + k) else p.logged }

end Dialogue
