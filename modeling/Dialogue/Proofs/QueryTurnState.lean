import Dialogue.Proofs.Requests
/-!
# Whose turn it is after a query

What a query can make of the turn state, whatever it queues: one that succeeds takes the tokens of
the user's input off the draws that are left, lets the sampler begin anew, forgets what was accepted
and gives the turn to the session; one that fails leaves all of this as it was.
-/

namespace Dialogue

open Effect

namespace TurnState

/-- The turn state apart from the queue. -/
def unqueued (v : TurnState) : TurnState := { v with queue := [], queueRead := 0 }

/-- The turn state with fewer draws left. -/
def lowered (v : TurnState) (n : Nat) : TurnState := { v with remaining := v.remaining - n }

/-- What a query can make of the turn state, and with what result. -/
inductive Heard (v : TurnState) : Except SessionError Unit → TurnState → Prop
  /-- The query fails. -/
  | failed (queue : List Token) (queueRead : Nat) (error : SessionError) :
      Heard v (.error error) { v with queue, queueRead }
  /-- The input is queued. -/
  | heard (queue : List Token) (queueRead inputSize : Nat) :
      Heard v (.ok ())
        { v.lowered inputSize with
          calls := v.calls ++ [.resetSampler]
          queue
          queueRead
          userTurn := false
          recent := [] }

private theorem lowered_zero (v : TurnState) : v.lowered 0 = v := by simp [lowered]

private theorem eq_of_unqueued {v u : TurnState} (h : u.unqueued = v.unqueued) :
    u = { v with queue := u.queue, queueRead := u.queueRead } := by
  cases v
  cases u
  cases h
  rfl

end TurnState

namespace Session

/-- What queuing leaves alone. -/
def unqueuedAndConfig (s : Session) : TurnState × Config := (s.turnState.unqueued, s.config)

section

variable {s : Session} {α : Type} {x : SessionM α}

private theorem keeps_unqueuedAndConfig_of_turnAndConfig (h : Keeps turnAndConfig x) : Keeps
    unqueuedAndConfig x := fun s =>
  congrArg (fun p => (p.1.unqueued, p.2)) (h s)

private theorem keeps_unqueuedAndConfig_queueTokens (tokens : List Token) : Keeps unqueuedAndConfig
    (queueTokens tokens) :=
  .modify fun _ => rfl

private theorem keeps_unqueuedAndConfig_queueBos : Keeps unqueuedAndConfig queueBos :=
  .bind (keeps_unqueuedAndConfig_of_turnAndConfig (frame_turnAndConfig.keeps_report rfl)) fun _ =>
    keeps_unqueuedAndConfig_queueTokens _

private theorem keeps_unqueuedAndConfig_queueInstructLead :
    Keeps unqueuedAndConfig queueInstructLead :=
  .bind .get fun _ => .onlyIf _
    (.bind (.modify fun _ => rfl) fun _ => keeps_unqueuedAndConfig_queueTokens _)

private theorem keeps_unqueuedAndConfig_tokenize (text : String) (addBos special : Bool) :
    Keeps unqueuedAndConfig (call (Engine.tokenize text addBos special)) :=
  keeps_unqueuedAndConfig_of_turnAndConfig
    (keeps_turnAndConfig_call (Engine.frame_sampling.keeps_tokenize _ _ _))

/-- What queuing the user's input comes to. -/
theorem ends_queueInput_unqueuedAndConfig (text : String) {t : Session}
    (h : t.unqueuedAndConfig = s.unqueuedAndConfig) :
    Ends (queueInput text) t fun r u => u.config = s.config ∧
      match r with
      | .ok _ => ∃ inputSize, u.turnState.unqueued = s.turnState.unqueued.lowered inputSize
      | .error _ => u.turnState.unqueued = s.turnState.unqueued := by
  have hfails (e : SessionError) (u : Session) (hu : u.unqueuedAndConfig = s.unqueuedAndConfig) :
      u.config = s.config ∧ u.turnState.unqueued = s.turnState.unqueued :=
    ⟨congrArg Prod.snd hu, congrArg Prod.fst hu⟩
  refine ends_bind_of_keeps .get h (fun _ t h => ?_) hfails
  refine ends_bind_of_keeps
    (keeps_unqueuedAndConfig_of_turnAndConfig (frame_turnAndConfig.keeps_write _)) h
    (fun _ t h => ?_) hfails
  refine ends_bind_of_keeps keeps_unqueuedAndConfig_queueInstructLead h (fun _ t h => ?_) hfails
  refine ends_bind_of_keeps (keeps_unqueuedAndConfig_tokenize _ _ _) h (fun lead t h => ?_) hfails
  refine ends_bind_of_keeps (keeps_unqueuedAndConfig_tokenize _ _ _) h (fun input t h => ?_) hfails
  refine ends_bind_of_keeps (keeps_unqueuedAndConfig_tokenize _ _ _) h (fun tail t h => ?_) hfails
  refine ends_bind_of_keeps (keeps_unqueuedAndConfig_queueTokens _) h (fun _ t h => ?_) hfails
  refine ends_bind_of_keeps (.onlyIf _ (keeps_unqueuedAndConfig_queueTokens _)) h (fun _ t h => ?_)
    hfails
  refine ends_bind_of_keeps (.modify fun _ => rfl) h (fun _ t h => ?_) hfails
  obtain ⟨hturnState, hconfig⟩ := Prod.mk.inj h
  exact ⟨hconfig, input.length, congrArg (TurnState.lowered · input.length) hturnState⟩

/-- What a query comes to. -/
theorem ends_query_turnState (text : String) (s : Session) :
    Ends (query text) s fun r t => t.config = s.config ∧ s.turnState.Heard r t.turnState := by
  have hfails (e : SessionError) (u : Session) (hu : u.unqueuedAndConfig = s.unqueuedAndConfig) :
      u.config = s.config ∧ s.turnState.Heard (.error e) u.turnState := by
    obtain ⟨hturnState, hconfig⟩ := Prod.mk.inj hu
    rw [TurnState.eq_of_unqueued hturnState]
    exact ⟨hconfig, .failed _ _ e⟩
  refine ends_bind_of_keeps .get rfl (fun _ t h => ?_) hfails
  refine ends_bind_of_keeps
    (.onlyIf _ (keeps_unqueuedAndConfig_of_turnAndConfig (frame_turnAndConfig.keeps_write _))) h
    (fun _ t h => ?_) hfails
  refine ends_bind_of_keeps (.onlyIf _ keeps_unqueuedAndConfig_queueBos) h (fun _ t h => ?_) hfails
  refine ends_bind_of_keeps
    (keeps_unqueuedAndConfig_of_turnAndConfig (frame_turnAndConfig.keeps_write _)) h
    (fun _ t h => ?_) hfails
  -- The steps behind the input, with which a query that says nothing ends too.
  have hgives (t : Session) (inputSize : Nat) (hc : t.config = s.config)
      (ht : t.turnState.unqueued = s.turnState.unqueued.lowered inputSize) :
      Ends (do
        advance ({ · with echo := false })
        call Engine.resetSampler
        advance fun p => { p.forget with userTurn := false }
        enter .processingQueue) t fun r u => u.config = s.config ∧ s.turnState.Heard r
          u.turnState := by
    refine ⟨hc, ?_⟩
    change s.turnState.Heard _ { t.turnState with
      calls := (t.engine.calls.push .resetSampler).toList.filter Call.onSampler
      userTurn := false
      recent := [] }
    rw [Engine.samplerCalls_push rfl]
    change s.turnState.Heard _ { t.turnState with
      calls := t.turnState.calls ++ [.resetSampler]
      userTurn := false
      recent := [] }
    rw [TurnState.eq_of_unqueued (v := s.turnState.lowered inputSize) ht]
    exact .heard _ _ _
  split
  · rw [ends_bind]
    apply (ends_queueInput_unqueuedAndConfig text h).mono
    rintro r t ⟨hc, ht⟩
    cases r with
    | error e => exact hfails e t (Prod.ext ht hc)
    | ok _ =>
      obtain ⟨inputSize, ht⟩ := ht
      exact hgives t inputSize hc ht
  · rw [ends_bind, ends_report]
    obtain ⟨hturnState, hconfig⟩ := Prod.mk.inj h
    apply hgives _ 0 hconfig
    rw [TurnState.lowered_zero]
    exact hturnState

end

/-- A new beginning reads the queue again from its start, with all draws allowed. -/
theorem turnState_reset (s : Session) :
    s.reset.turnState =
      { s.turnState with
        queueRead := 0
        remaining := s.config.predict
        userTurn := s.config.userFirst } :=
  rfl

/-! ### The calls to the sampler -/

/-- The calls to the sampler since an earlier state of the session. -/
def samplerCallsSince (s t : Session) : List Call :=
  t.engine.samplerCalls.drop s.engine.samplerCalls.length

/-- The calls to the sampler that were added are those since then. -/
theorem samplerCallsSince_of_eq_append {s t : Session} {calls : List Call}
    (h : t.turnState.calls = s.turnState.calls ++ calls) : s.samplerCallsSince t = calls := by
  change t.turnState.calls.drop s.turnState.calls.length = calls
  rw [h, List.drop_left]

end Session

end Dialogue
