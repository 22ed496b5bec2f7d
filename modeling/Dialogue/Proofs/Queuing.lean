import Dialogue.Proofs.Querying
/-!
# What a query queues

A query that succeeds queues the token that opens a sequence, if that is asked for, and the user's
text with what is put around it. In instruct mode, unless a reverse prompt was said last, it passes
over all that is queued in front of its own instruction.
-/

namespace Dialogue

open Effect

/-- What is put around the user's turns, and what that depends on. -/
@[ext] structure Template where
  /-- The configuration. -/
  config : Config
  /-- Whether a reverse prompt was said last. -/
  atAntiprompt : Bool
  /-- Texts with a spelling of their own. -/
  spellings : List (String × List Token)
  /-- The tokens put before the user's turns in instruct mode. -/
  lead : List Token
  /-- The tokens put after the user's turns in instruct mode. -/
  tail : List Token

namespace Template

/-- The tokens of a text. -/
def spell (v : Template) (text : String) : List Token :=
  (v.spellings.lookup text).getD (Token.ofText text)

/-- What is queued in front of every turn, one that is empty too. -/
def opening (v : Template) : List Token := if v.config.inputBos then [Token.bos] else []

/-- Whether a turn brings an instruction of its own. -/
def leads (v : Template) : Bool := v.config.instruct && !v.atAntiprompt

/-- The user's text, in tokens. -/
def said (v : Template) (text : String) : List Token :=
  v.spell (if v.config.escapes then Text.Escape.process text else text)

/-- What is queued of a turn behind the user's text. -/
def after (v : Template) : List Token :=
  v.spell v.config.inputTail ++ if v.config.instruct then v.tail else []

end Template

/-- The queue with what is put around the user's turns. -/
@[ext] structure QueryState extends Template where
  /-- The tokens queued so far. -/
  queue : List Token
  /-- How many of the queued tokens were moved into a step. -/
  queueRead : Nat

namespace QueryState

/-- The query state with tokens queued. -/
def queued (v : QueryState) (tokens : List Token) : QueryState :=
    { v with queue := v.queue ++ tokens }

/-- The query state with the instruction of a turn queued, if it brings one, and what stood in front
of it passed over. -/
def led (v : QueryState) : QueryState :=
  if v.leads then { v.queued v.lead with queueRead := v.queue.length } else v

/-- The query state with the user's turn queued. -/
def turned (v : QueryState) (text : String) : QueryState :=
  v.led.queued (v.spell v.config.inputLead ++ v.said text ++ v.after)

/-- The query state after a query. -/
def heard (v : QueryState) (text : String) : QueryState :=
  if 1 < text.utf8ByteSize then (v.queued v.opening).turned text else v.queued v.opening

/-- No tokens are queued. -/
theorem queued_nil (v : QueryState) : v.queued [] = v := by simp [queued]

/-- What stands in the queue once an instruction was queued, and from where on it is read. -/
theorem led_eq (v : QueryState) : v.led =
    { v with
      queue := v.queue ++ if v.leads then v.lead else []
      queueRead := if v.leads then v.queue.length else v.queueRead } := by
  unfold led queued
  cases v.leads <;> simp

/-- An instruction leaves what is put around the user's turns. -/
@[simp] theorem toTemplate_led (v : QueryState) : v.led.toTemplate = v.toTemplate := by
  unfold led
  split <;> rfl

/-- A query leaves what is put around the user's turns. -/
@[simp] theorem toTemplate_heard (v : QueryState) (text : String) :
    (v.heard text).toTemplate = v.toTemplate := by
  unfold heard
  split
  · exact toTemplate_led _
  · rfl

end QueryState

/-- A text that is spelled comes out in its tokens. -/
theorem Engine.tokenize_eq_ok {text : String} {addBos special : Bool} {e e' : Engine}
    {tokens : List Token} (h : tokenize text addBos special e = .ok tokens e') :
    tokens = (if addBos then [Token.bos] else []) ++ e.spell text ∧ e'.spellings = e.spellings := by
  obtain ⟨_, e₁, h₁, h⟩ := bind_eq_ok h
  cases h₁
  obtain ⟨_, e₂, h₂, h⟩ := bind_eq_ok h
  cases h₂
  obtain ⟨_, e₃, h₃, h⟩ := bind_eq_ok h
  obtain ⟨-, rfl⟩ := failIf_eq_ok h₃
  cases h
  exact ⟨rfl, rfl⟩

namespace Session

variable {s t : Session} {text : String}

/-- The queue with what is put around the user's turns. -/
def queryState (s : Session) : QueryState where
  config := s.config
  atAntiprompt := s.progress.atAntiprompt
  spellings := s.engine.spellings
  lead := s.instructLead
  tail := s.instructTail
  queue := s.progress.queue
  queueRead := s.progress.queueRead

/-- Whether the queue is passed over can be read off the configuration and the text. -/
instance (s : Session) (text : String) : Decidable (s.passesOver text) :=
  inferInstanceAs (Decidable (_ ∧ _ ∧ _))

private theorem call_eq_ok {α : Type} {x : EngineM α} {a : α} (h : call x s = .ok a t) :
    ∃ e, x s.engine = .ok a e ∧ t = { s with engine := e } := by
  have hends : Ends (call x) s fun r t =>
      ∀ a, r = .ok a → ∃ e, x s.engine = .ok a e ∧ t = { s with engine := e } := by
    rw [ends_call]
    unfold Ends
    cases hx : x s.engine with
    | ok b e =>
      rintro _ ⟨⟩
      exact ⟨e, rfl, rfl⟩
    | error error e => exact fun _ h => nomatch h
  exact hends.of_ok h a rfl

/-- A report leaves the queue alone. -/
theorem keeps_queryState_report (e : Event) : Keeps queryState (report e) := .modify fun _ => rfl

/-- What is shown leaves the queue alone. -/
theorem keeps_queryState_write (text : String) : Keeps queryState (write text) :=
  .bind .get fun _ => .bind (.modify fun _ => rfl) fun _ => .failIf _ _

/-- A text that a session spells comes out in its tokens, and nothing is queued. -/
theorem tokenize_eq_ok {special : Bool} {tokens : List Token}
    (h : call (Engine.tokenize text false special) s = .ok tokens t) :
    t.queryState = s.queryState ∧ tokens = t.queryState.spell text := by
  obtain ⟨e, he, rfl⟩ := call_eq_ok h
  obtain ⟨htokens, hspellings⟩ := Engine.tokenize_eq_ok he
  have hqueryState : ({ s with engine := e } : Session).queryState = s.queryState := by simp only
    [queryState, hspellings]
  rw [hqueryState]
  exact ⟨rfl, htokens⟩

private theorem queueInstructLead_eq_ok (h : queueInstructLead s = .ok () t) : t.queryState =
    s.queryState.led := by
  obtain ⟨_, _, h₀, h⟩ := bind_eq_ok h
  cases h₀
  change onlyIf s.queryState.leads _ s = _ at h
  unfold QueryState.led
  cases hleads : s.queryState.leads <;> rw [hleads] at h <;> cases h <;> rfl

private theorem queryState_queueTokens (c : Bool) (tokens : List Token)
    (h : onlyIf c (queueTokens tokens) s = .ok () t) :
    t.queryState = s.queryState.queued (if c then tokens else []) := by
  cases c
  · cases h
    exact s.queryState.queued_nil.symm
  · cases h
    rfl

/-- The beginning of a sequence is queued in front of a turn if that is asked for. -/
theorem queryState_queueBos (c : Bool) (h : onlyIf c queueBos s = .ok () t) :
    t.queryState = s.queryState.queued (if c then [Token.bos] else []) := by
  cases c
  · cases h
    exact s.queryState.queued_nil.symm
  · cases h
    rfl

/-- What queuing the user's turn comes to. -/
theorem queueInput_eq_ok (h : queueInput text s = .ok () t) :
    t.queryState = s.queryState.turned text := by
  obtain ⟨_, _, h₀, h⟩ := bind_eq_ok h
  cases h₀
  obtain ⟨_, s₁, h₁, h⟩ := bind_eq_ok h
  obtain ⟨_, s₂, h₂, h⟩ := bind_eq_ok h
  obtain ⟨lead, s₃, h₃, h⟩ := bind_eq_ok h
  obtain ⟨input, s₄, h₄, h⟩ := bind_eq_ok h
  obtain ⟨tail, s₅, h₅, h⟩ := bind_eq_ok h
  obtain ⟨_, s₆, h₆, h⟩ := bind_eq_ok h
  obtain ⟨_, s₇, h₇, h⟩ := bind_eq_ok h
  have hv₂ := queueInstructLead_eq_ok h₂
  rw [(keeps_queryState_write _).of_ok h₁] at hv₂
  obtain ⟨hv₃, hlead⟩ := tokenize_eq_ok h₃
  obtain ⟨hv₄, hinput⟩ := tokenize_eq_ok h₄
  obtain ⟨hv₅, htail⟩ := tokenize_eq_ok h₅
  have hv₆ : s₆.queryState = s₅.queryState.queued (lead ++ input ++ tail) :=
    queryState_queueTokens true _ h₆
  have hv₇ := queryState_queueTokens _ _ h₇
  have hv : t.queryState = s₇.queryState := by
    refine Keeps.of_ok (x := do
      recordQueued _
      advance fun p => { p with remaining := p.remaining - input.length }
      report (.inputQueued input.length (← get).progress.remaining)) ?_ h
    refine .bind (.modify fun _ => rfl) fun _ => ?_
    refine .bind (.modify fun _ => rfl) fun _ => ?_
    exact .bind .get fun _ => keeps_queryState_report _
  rw [hv₅, hv₄, hv₃, hv₂] at htail hv₆
  rw [hv₄, hv₃, hv₂] at hinput
  rw [hv₃, hv₂] at hlead
  rw [hv, hv₇, hv₆, hlead, hinput, htail, QueryState.toTemplate_led]
  simp only [QueryState.turned, QueryState.queued, Template.after, Template.said, List.append_assoc]
  rfl

/-- What a query that succeeds queues and passes over. -/
theorem query_eq_ok (h : query text s = .ok () t) : t.queryState = s.queryState.heard text := by
  obtain ⟨_, _, h₀, h⟩ := bind_eq_ok h
  cases h₀
  obtain ⟨_, s₁, h₁, h⟩ := bind_eq_ok h
  obtain ⟨_, s₂, h₂, h⟩ := bind_eq_ok h
  obtain ⟨_, s₃, h₃, h⟩ := bind_eq_ok h
  have hv₁ : s₁.queryState = s.queryState := (Keeps.onlyIf _ (keeps_queryState_write _)).of_ok h₁
  have hv₃ : s₃.queryState = s₂.queryState := (keeps_queryState_write _).of_ok h₃
  have hv₂ : s₂.queryState = s₁.queryState.queued s.queryState.opening := queryState_queueBos _ h₂
  have hrest : Keeps queryState (do
      advance ({ · with echo := false })
      call Engine.resetSampler
      advance fun p => { p.forget with userTurn := false }
      enter .processingQueue) := by
    refine .bind (.modify fun _ => rfl) fun _ => ?_
    refine .bind (fun _ => rfl) fun _ => ?_
    exact .bind (.modify fun _ => rfl) fun _ => .modify fun _ => rfl
  rw [hv₂, hv₁] at hv₃
  unfold QueryState.heard
  split at h
  · next hl =>
    obtain ⟨_, s₄, h₄, h⟩ := bind_eq_ok h
    rw [hrest.of_ok h, queueInput_eq_ok h₄, hv₃, if_pos hl]
  · next hl =>
    obtain ⟨_, s₄, h₄, h⟩ := bind_eq_ok h
    rw [hrest.of_ok h, (keeps_queryState_report _).of_ok h₄, hv₃, if_neg hl]

end Session

end Dialogue
