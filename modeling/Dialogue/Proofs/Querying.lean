import Dialogue.Proofs.Passing
import Dialogue.Session.Query
import Dialogue.Session.TurnState
/-!
# Hearing the user

What a query can make of the main context: tokens are queued, and in instruct mode what stood in the
queue before them can be passed over.
-/

namespace Dialogue

open Effect

/-- What a query can make of the main context, if it may pass over what is queued or not. -/
inductive Queried (passes : Prop) (v : MainContext) : MainContext → Prop
  /-- Tokens are queued. -/
  | queued (tokens : List Token) : Queried passes v { v with queue := v.queue ++ tokens }
  /-- Tokens are queued, and the ones before some of them are passed over. -/
  | passedOver (h : passes) (before after : List Token) :
      Queried passes v
        { v with
          queue := v.queue ++ before ++ after
          queueRead := (v.queue ++ before).length }

private theorem Queried.mono {p q : Prop} {v u : MainContext} (h : Queried p v u) (hpq : p → q) :
    Queried q v u := by
  cases h with
  | queued tokens => exact .queued tokens
  | passedOver hp before after => exact .passedOver (hpq hp) before after

/-- A query makes nothing resident. -/
theorem Queried.past_eq {passes : Prop} {v u : MainContext} (h : Queried passes v u) :
    u.past = v.past := by
  cases h <;> rfl

/-- A query makes no calls on the main context. -/
theorem Queried.calls_eq {passes : Prop} {v u : MainContext} (h : Queried passes v u) :
    u.calls = v.calls := by
  cases h <;> rfl

/-- No token is taken from the queue for good. -/
theorem Queried.prefix_queue {passes : Prop} {v u : MainContext} (h : Queried passes v u) :
    v.queue <+: u.queue := by
  cases h with
  | queued tokens => exact List.prefix_append _ _
  | passedOver _ before after => exact ⟨before ++ after, (List.append_assoc ..).symm⟩

namespace Session

/-- Whether a query would pass over what is queued. -/
def passesOver (s : Session) (text : String) : Prop :=
  s.config.instruct = true ∧ s.progress.atAntiprompt = false ∧ 1 < text.utf8ByteSize

/-- What a query can make of a session. -/
def Heard (passes : Prop) (s t : Session) : Prop :=
  t.settled = s.settled ∧ Queried passes s.mainContext t.mainContext

/-- Whether no more was done so far than to queue tokens. -/
def Led (s t : Session) : Prop :=
  t.settled = s.settled ∧ t.progress.atAntiprompt = s.progress.atAntiprompt ∧
    ∃ tokens, t.mainContext = { s.mainContext with queue := s.mainContext.queue ++ tokens }

section

variable {passes : Prop} {α β : Type} {x : SessionM α} {g : α → SessionM β} {s t : Session}

private theorem Led.refl (s : Session) : Led s s := by
  refine ⟨rfl, rfl, [], ?_⟩
  rw [List.append_nil]

private theorem Led.heard (h : Led s t) : Heard passes s t := by
  obtain ⟨hs, -, tokens, hv⟩ := h
  refine ⟨hs, ?_⟩
  rw [hv]
  exact Queried.queued tokens

/-- As long as no more is done than to queue tokens, it depends on what follows. -/
theorem Led.bind (h : Led s t) (hq : Queues x) (hk : Keeps (·.progress.atAntiprompt) x)
    (hg : ∀ a u, Led s u → Ends (g a) u fun _ u => Heard passes s u) :
    Ends (x >>= g) t fun _ u => Heard passes s u := by
  obtain ⟨hs, ha, tokens, hv⟩ := h
  rw [ends_bind]
  apply ((hq t).and (Ends.keeps hk)).mono
  rintro r u ⟨⟨hs', more, hv'⟩, ha'⟩
  have hu : Led s u := by
    refine ⟨hs'.trans hs, ha'.trans ha, tokens ++ more, ?_⟩
    rw [hv', hv, List.append_assoc]
  cases r with
  | error e => exact hu.heard
  | ok a => exact hg a u hu

/-- Queuing more tokens later makes no difference. -/
theorem Queues.afterHearing (hx : Ends x t fun _ u => Heard passes s u)
    (hg : ∀ a, Queues (g a)) : Ends (x >>= g) t fun _ u => Heard passes s u := by
  rw [ends_bind]
  apply hx.mono
  rintro r u ⟨hs, hv⟩
  cases r with
  | error e => exact ⟨hs, hv⟩
  | ok a =>
    apply (hg a u).mono
    rintro r u' ⟨hs', tokens, hv'⟩
    refine ⟨hs'.trans hs, ?_⟩
    rw [hv']
    generalize u.mainContext = v at hv
    cases hv with
    | queued more =>
      have hq : Queried passes s.mainContext _ := Queried.queued (more ++ tokens)
      rwa [← List.append_assoc] at hq
    | passedOver h before after =>
      have hq := Queried.passedOver (v := s.mainContext) h before (after ++ tokens)
      rwa [← List.append_assoc] at hq

end

private theorem queues_queueTokens (tokens : List Token) : Queues (queueTokens tokens) :=
  fun _ => ⟨rfl, tokens, rfl⟩

private theorem queues_onlyIf (c : Bool) {x : SessionM Unit} (hx : Queues x) :
    Queues (onlyIf c x) := by
  cases c
  · exact Queues.of_keeps (Keeps.pure _)
  · exact hx

private theorem keeps_atAntiprompt_write (text : String) :
    Keeps (·.progress.atAntiprompt) (write text) := by
  intro s
  exact congrArg (fun p => p.1.progress.atAntiprompt) (keeps_benchAndConfig_write text s)

/-- What the text in front of the user's words comes to in instruct mode. -/
theorem ends_queueInstructLead {s t : Session} (h : Led s t) :
    Ends queueInstructLead t fun _ u =>
      Heard (s.config.instruct = true ∧ s.progress.atAntiprompt = false) s u := by
  have hheard : Heard (s.config.instruct = true ∧ s.progress.atAntiprompt = false) s t := h.heard
  obtain ⟨hs, ha, tokens, hv⟩ := h
  have hc := config_of_settled hs
  simp only [queueInstructLead, ends_bind, ends_get, ends_onlyIf]
  split
  · next hi =>
    simp only [hc, ha, Bool.and_eq_true, Bool.not_eq_true'] at hi
    refine ⟨hs, ?_⟩
    change Queried _ s.mainContext
      { t.mainContext with
        queue := t.mainContext.queue ++ t.instructLead
        queueRead := t.mainContext.queue.length }
    rw [hv]
    exact Queried.passedOver hi tokens t.instructLead
  · exact hheard

private theorem queues_queueBos : Queues queueBos := by
  apply Queues.bind (Queues.of_keeps (keeps_settledAndMain_report _))
  intro _
  exact queues_queueTokens _

private theorem queues_tokenize (text : String) (addBos special : Bool) :
    Queues (call (Engine.tokenize text addBos special)) := by
  apply Queues.of_keeps
  exact keeps_settledAndMain_call (Engine.keeps_mainPart_tokenize _ _ _)

private theorem ends_queueInput (text : String) {s t : Session} (h : Led s t) :
    Ends (queueInput text) t fun _ u =>
      Heard (s.config.instruct = true ∧ s.progress.atAntiprompt = false) s u := by
  apply h.bind (Queues.of_keeps Keeps.get) Keeps.get
  intro s' u hu
  apply hu.bind (Queues.of_keeps (keeps_settledAndMain_write _)) (keeps_atAntiprompt_write _)
  intro _ u hu
  apply Queues.afterHearing (ends_queueInstructLead hu)
  intro _
  apply Queues.bind (queues_tokenize _ _ _)
  intro lead
  apply Queues.bind (queues_tokenize _ _ _)
  intro input
  apply Queues.bind (queues_tokenize _ _ _)
  intro tail
  apply Queues.bind (queues_queueTokens _)
  intro _
  apply Queues.bind (queues_onlyIf _ (queues_queueTokens _))
  intro _
  apply Queues.of_keeps
  apply Keeps.bind
  · exact Keeps.modify fun _ => rfl
  · intro _
    apply Keeps.bind (keeps_settledAndMain_advance fun _ => rfl)
    intro _
    apply Keeps.bind Keeps.get
    intro _
    exact keeps_settledAndMain_report _

/-- What a query comes to. -/
theorem ends_query (text : String) (s : Session) :
    Ends (query text) s fun _ t => Heard (s.passesOver text) s t := by
  apply (Led.refl s).bind (Queues.of_keeps Keeps.get) Keeps.get
  intro s₀ u hu
  dsimp only
  apply hu.bind
  · exact queues_onlyIf _ (Queues.of_keeps (keeps_settledAndMain_write _))
  · exact Keeps.onlyIf _ (keeps_atAntiprompt_write _)
  intro _ u hu
  apply hu.bind (queues_onlyIf _ queues_queueBos)
  · exact Keeps.onlyIf _ (fun _ => rfl)
  intro _ u hu
  apply hu.bind (Queues.of_keeps (keeps_settledAndMain_write _)) (keeps_atAntiprompt_write _)
  intro _ u hu
  have hrest : Queues (do
      advance ({ · with echo := false })
      call Engine.resetSampler
      advance fun p => { p.forget with userTurn := false }
      enter .processingQueue) := by
    apply Queues.of_keeps
    apply Keeps.bind (keeps_settledAndMain_advance fun _ => rfl)
    intro _
    apply Keeps.bind
    · apply keeps_settledAndMain_call
      exact Engine.keeps_mainPart_note rfl
    · intro _
      apply Keeps.bind (keeps_settledAndMain_advance fun _ => rfl)
      intro _
      exact keeps_settledAndMain_enter _
  split
  · next hl =>
    refine Queues.afterHearing ?_ fun _ => hrest
    apply (ends_queueInput text hu).mono
    rintro _ t ⟨hs, hv⟩
    refine ⟨hs, hv.mono ?_⟩
    rintro ⟨hi, ha⟩
    exact ⟨hi, ha, hl⟩
  · exact Queues.afterHearing (x := report .inputEmpty) hu.heard fun _ => hrest

end Session

end Dialogue
