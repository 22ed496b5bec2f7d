import Dialogue.Proofs.GuidanceFailures
import Dialogue.Proofs.RedactedSessions
/-!
# Actions

What is asked of a session until it is let go: requests, and to be closed, in any order. Where two
sessions look the same under a redaction, and turns and closing are in step there, they reply the
same to every action and go on to look the same.
-/

namespace Dialogue

open Effect

/-- What can be asked of a session until it is let go. -/
inductive Action where
  /-- To serve a request. -/
  | request (r : Request)
  /-- To be closed. -/
  | close
deriving DecidableEq, Repr

namespace Session

/-- The session after an action. -/
def perform (s : Session) : Action → Session
  | .request r => s.serve r
  | .close => left (shutdown s)

/-- The session after actions. -/
def performAll (s : Session) (actions : List Action) : Session := actions.foldl perform s

/-- What an action gives. -/
def answerTo (s : Session) : Action → Except SessionError (Option Outcome)
  | .request r => s.reply r
  | .close => (outcome (shutdown s)).map fun _ => none

/-- What every action of some kind preserves holds after all of them. -/
theorem performAll_of_perform {P : Session → Prop} (actions : List Action)
    (h : ∀ s, ∀ e ∈ actions, P s → P (s.perform e)) {s : Session} (hs : P s) :
    P (s.performAll actions) := by
  induction actions generalizing s with
  | nil => exact hs
  | cons e es ih =>
    exact ih (fun s e he => h s e (List.mem_cons_of_mem _ he)) (h s e List.mem_cons_self hs)

/-! ### Sessions that look the same under a redaction -/

/-- Whether two sessions cannot be told apart under a redaction by anything that is asked of them.
-/
structure Indistinct (m : Redaction) (s t : Session) : Prop where
  /-- They look the same. -/
  redacted : s.redacted m = t.redacted m
  /-- Every action gives the same. -/
  answerTo : ∀ e, s.answerTo e = t.answerTo e
  /-- They look the same once they were let go. -/
  drop : s.drop.redacted m = t.drop.redacted m

section

variable {m : Redaction} {s t : Session}

/-- Sessions that look the same do so also when the output takes only so much. -/
theorem redacted_showing (h : s.redacted m = t.redacted m) (room : Option Nat) :
    (s.showing room).redacted m = (t.showing room).redacted m :=
  congrArg (·.showing room) h

/-- Sessions that look the same cannot be told apart if answering and closing depend on what shows
only. -/
theorem indistinct_of_redacted (hanswers : Heedless m (answer : SessionM Outcome))
    (hcloses : Heedless m shutdown) (h : s.redacted m = t.redacted m) : s.Indistinct m t where
  redacted := h
  answerTo := fun e => by
    match e with
    | .request (.answer room) =>
      exact congrArg (Except.map some) (hanswers.outcome_eq (redacted_showing h room))
    | .request (.query text room) =>
      exact congrArg (Except.map fun _ => none)
        ((unaware_query text).outcome_eq (redacted_showing h room))
    | .request .reset => rfl
    | .close => exact congrArg (Except.map fun _ => none) (hcloses.outcome_eq h)
  drop := by
    unfold Session.drop
    cases hs : shutdown s with
    | ok u s' =>
      obtain ⟨t', ht, hp⟩ := hcloses.exists_ok h hs
      rw [ht]
      exact hp
    | error e s' =>
      obtain ⟨t', ht, hp⟩ := hcloses.exists_error h hs
      rw [ht]
      exact (unaware_report (.closeFailed e.message)).left_eq hp

/-- Sessions that look the same do so after every action, if beginning anew depends on nothing that
is hidden. -/
theorem redacted_performAll (hanswers : Heedless m (answer : SessionM Outcome))
    (hcloses : Heedless m shutdown)
    (hresets : ∀ s t : Session,
      s.redacted m = t.redacted m → s.reset.redacted m = t.reset.redacted m)
    (h : s.redacted m = t.redacted m) (actions : List Action) :
    (s.performAll actions).redacted m = (t.performAll actions).redacted m := by
  induction actions generalizing s t with
  | nil => exact h
  | cons e es ih =>
    apply ih
    match e with
    | .request (.answer room) => exact hanswers.left_eq (redacted_showing h room)
    | .request (.query text room) => exact (unaware_query text).left_eq (redacted_showing h room)
    | .request .reset => exact hresets s t h
    | .close => exact hcloses.left_eq h

/-- What is hidden stays as it was. -/
theorem hidden_performAll (hanswers : Heedless m (answer : SessionM Outcome))
    (hcloses : Heedless m shutdown) (s : Session) (actions : List Action) :
    (s.performAll actions).hidden m = s.hidden m := by
  refine performAll_of_perform (P := fun t => t.hidden m = s.hidden m) actions
    (fun t e _ ht => ?_) rfl
  refine Eq.trans ?_ ht
  match e with
  | .request (.answer room) => exact hanswers.keeps_left (t.showing room)
  | .request (.query text room) => exact (unaware_query text).heedless.keeps_left (t.showing room)
  | .request .reset => rfl
  | .close => exact hcloses.keeps_left t

end

end Session

end Dialogue
