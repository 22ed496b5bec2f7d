import Dialogue.Proofs.Queuing
import Dialogue.Proofs.Starting
import Dialogue.Session.TurnSteps
/-!
# What is put around the user's turns stays

What is put around the user's turns is settled when the session begins. A pass changes no more of it
than whether a reverse prompt was said last, and that only where the queue is read: it queues the
first reverse prompt then, if the generation came to its end.
-/

namespace Dialogue

open Effect

/-! ### The engine -/

namespace Engine

/-- What the engine has of what is put around the user's turns. -/
def templatePart (e : Engine) : List (String × List Token) := e.spellings

private theorem keeps_templatePart_note (c : Call) : Keeps templatePart (note c) :=
  .modify fun _ => rfl

private theorem frame_templatePart : Frame templatePart where
  calls _ _ _ := rfl
  faults _ _ _ := rfl
  cells _ stream _ := by cases stream <;> rfl

private theorem keeps_templatePart_decode (stream : Stream) (tokens : List Token) (start : Int) :
    Keeps templatePart (decode stream tokens start) :=
  frame_templatePart.keeps_decode (fun _ _ _ => rfl) (fun _ _ _ => rfl) tokens start

private theorem keeps_templatePart_sample (guided : Bool) : Keeps templatePart (sample guided) := by
  refine .bind (keeps_templatePart_note _) fun _ => ?_
  refine .bind (fun _ => rfl) fun _ => ?_
  exact .bind (.failIf _ _) fun _ _ => rfl

private theorem keeps_templatePart_setSeed (seed : Nat) : Keeps templatePart (setSeed seed) :=
  .bind (keeps_templatePart_note _) fun _ => .modify fun _ => rfl

end Engine

/-! ### Work on the bench -/

namespace Workbench

variable {ε α : Type}

/-- What the workbench has of what is put around the user's turns. -/
def templatePart (w : Workbench) : List (String × List Token) × Bool :=
  (w.engine.templatePart, w.progress.atAntiprompt)

private theorem keeps_templatePart_report (e : Event) :
    Keeps templatePart (report e : WorkM ε Unit) :=
  .modify fun _ => rfl

private theorem keeps_templatePart_advance {f : Progress → Progress}
    (hf : ∀ p, (f p).atAntiprompt = p.atAntiprompt) : Keeps templatePart
      (advance f : WorkM ε Unit) :=
  .modify fun w => congrArg (w.engine.templatePart, ·) (hf w.progress)

private theorem keeps_templatePart_call {x : EngineM α} (h : Keeps Engine.templatePart x) :
    Keeps templatePart (call x) :=
  .onPart h fun w _ he => congrArg (·, w.progress.atAntiprompt) he

private theorem keeps_templatePart_giveUp (error : FileError) :
    Keeps templatePart (Cache.giveUp error : WorkM ε Unit) :=
  .bind (keeps_templatePart_report _) fun _ => .modify fun _ => rfl

end Workbench

/-- The tokens of the first reverse prompt. -/
def Template.cue (v : Template) : List Token :=
  match v.config.antiprompts with
  | [] => []
  | first :: _ => v.spell first

/-- The query state once control was handed over, or not. -/
def QueryState.handed (v : QueryState) (h : Handback) : QueryState :=
  { v.queued (if h.injects then v.cue else []) with atAntiprompt := h.atAntiprompt }

/-! ### A session -/

namespace Session

variable {α : Type}

/-- What is put around the user's turns. -/
def template (s : Session) : Template := s.queryState.toTemplate

/-- A call that leaves the spellings alone leaves the query state alone. -/
theorem keeps_queryState_call {x : EngineM α} (h : Keeps Engine.templatePart x) (s : Session) :
    Keeps (fun w => queryState { s with toWorkbench := w }) (Workbench.call x) :=
  Workbench.keeps_call fun w e =>
    congrArg (fun spellings => { queryState { s with toWorkbench := w } with spellings }) (h e)

/-- Evaluating a step, saving the prompt and ending a turn leave the query state alone. -/
theorem frame_queryState : StepFrame queryState where
  bench s :=
    { engine := fun w => Engine.frame_templatePart.map fun spellings =>
        { queryState { s with toWorkbench := w } with spellings }
      decodes := fun _ _ => keeps_queryState_call (Engine.keeps_templatePart_decode _ _ _) s
      reports := fun _ _ _ => rfl
      progress := fun _ _ _ _ _ => rfl
      files := fun _ _ _ => rfl }
  progress _ _ _ _ _ _ _ := rfl
  turn _ _ _ := rfl
  decodes s _ _ := keeps_queryState_call (Engine.keeps_templatePart_decode _ _ _) s
  cuts _ _ := rfl
  fails _ _ := rfl

/-- Evaluating a step leaves what is put around the user's turns. -/
theorem frame_template : StepFrame template := frame_queryState.map QueryState.toTemplate

private theorem keeps_template_advance {f : Progress → Progress}
    (hf : ∀ p, (f p).atAntiprompt = p.atAntiprompt) : Keeps template (advance f) :=
  .modify fun s => by simp only [template, queryState, hf]

private theorem keeps_template_call {x : EngineM α} (h : Keeps Engine.templatePart x) :
    Keeps template (call x) :=
  keeps_onBench_of_keeps _ fun s w => congrArg QueryState.toTemplate (keeps_queryState_call h s w)

/-! ### Taking the next step -/

private theorem keeps_template_accept (token : Token) (sampled : Bool) :
    Keeps template (accept token sampled) :=
  .bind (keeps_template_call (Engine.keeps_templatePart_note _)) fun _ => keeps_template_advance
    fun _ => rfl

/-- Filling the next step leaves what is put around the user's turns. -/
theorem keeps_template_refill : Keeps template refill := by
  have hdraws : Keeps template drawNext := by
    refine .bind frame_template.keeps_savePrompt fun _ => ?_
    refine .bind .get fun _ => ?_
    refine .bind (keeps_template_call (Engine.keeps_templatePart_sample _)) fun _ => ?_
    refine .bind (keeps_template_accept _ _) fun _ => ?_
    exact .bind (frame_template.keeps_report rfl) fun _ => keeps_template_advance fun _ => rfl
  have htakes (token : Token) : Keeps template (takeQueued token) :=
    .bind (keeps_template_accept _ _) fun _ => keeps_template_advance fun _ => rfl
  have hdrains : Keeps template drainQueue := by
    refine .bind .get fun _ => ?_
    exact .bind (frame_template.keeps_report rfl) fun _ => .forM fun token _ => htakes token
  refine .bind .get fun _ => ?_
  refine .ite ?_ (.bind (frame_template.keeps_enter _) fun _ => hdrains)
  exact .bind (frame_template.keeps_enter _) fun _ => .ite (frame_template.keeps_report rfl) hdraws

/-- Showing a step leaves what is put around the user's turns. -/
theorem keeps_template_display : Keeps template display := by
  refine .bind .get fun _ => ?_
  refine .onlyIf _ ?_
  refine .bind (frame_template.keeps_enter _) fun _ => ?_
  exact .forM fun _ _ => .bind (frame_template.keeps_write _) fun _ => .modify fun _ => rfl

/-! ### Deciding whose turn it is -/

variable {s t : Session}

/-- What queuing the first reverse prompt comes to, if that is to be done. -/
private theorem queueAntiprompt_eq_ok {c : Bool} (h : onlyIf c queueAntiprompt s = .ok () t) :
    t.queryState = s.queryState.queued (if c then s.template.cue else []) := by
  cases c with
  | false =>
    cases h
    exact s.queryState.queued_nil.symm
  | true =>
    obtain ⟨_, _, h₀, h⟩ := bind_eq_ok h
    cases h₀
    change t.queryState = s.queryState.queued (match s.config.antiprompts with
      | [] => []
      | first :: _ => s.queryState.spell first)
    cases hfirst : s.config.antiprompts with
    | nil =>
      rw [hfirst] at h
      cases h
      exact s.queryState.queued_nil.symm
    | cons first rest =>
      rw [hfirst] at h
      obtain ⟨tokens, s₁, h₁, h⟩ := bind_eq_ok h
      obtain ⟨hqueryState, htokens⟩ := tokenize_eq_ok h₁
      rw [hqueryState] at htokens
      cases h
      change s₁.queryState.queued tokens = s.queryState.queued (s.queryState.spell first)
      rw [htokens, hqueryState]

/-- What handing control over comes to. -/
theorem handOver_eq_ok {hand : Handback} (h : handOver s = .ok hand t) :
    hand = s.handback ∧ t.queryState = s.queryState.handed s.handback := by
  obtain ⟨_, s₁, h₁, h⟩ := bind_eq_ok h
  obtain ⟨_, _, h₀, h⟩ := bind_eq_ok h
  cases h₀
  obtain ⟨_, s₂, h₂, h⟩ := bind_eq_ok h
  obtain ⟨_, s₃, h₃, h⟩ := bind_eq_ok h
  cases h
  have hstays : s₁.queryState = s.queryState ∧ s₁.handback = s.handback := by
    obtain ⟨_, _, h₀, h₁⟩ := bind_eq_ok h₁
    cases h₀
    cases hfound : s.antiprompt? <;> rw [hfound] at h₁ <;> cases h₁ <;> exact ⟨rfl, rfl⟩
  obtain ⟨hqueryState, hhand⟩ := hstays
  have hv₂ := queueAntiprompt_eq_ok h₂
  have hv₃ : s₃.queryState = s₂.queryState :=
    (Keeps.onlyIf _ (.bind (keeps_queryState_report _) fun _ => keeps_queryState_write _)).of_ok h₃
  refine ⟨hhand, ?_⟩
  have htemplate : s₁.template = s.template := congrArg QueryState.toTemplate hqueryState
  change { s₃.queryState with atAntiprompt := s₁.handback.atAntiprompt } = _
  rw [hv₃, hv₂, hqueryState, htemplate, hhand]
  rfl

/-- What deciding whose turn it is comes to: once the queue is read, control is handed over as the
last step has it. -/
theorem conclude_eq_ok {o : Option Outcome} (h : conclude s = .ok o t)
    (hi : s.config.interactive = true) :
    t.queryState = if s.turnState.drained then s.queryState.handed s.handback else
      s.queryState := by
  obtain ⟨_, _, h₀, h⟩ := bind_eq_ok h
  cases h₀
  obtain ⟨_, s₁, h₁, h⟩ := bind_eq_ok h
  have hstays : s₁.queryState = s.queryState ∧ s₁.handback = s.handback := by
    cases hspent : s.budgetSpent <;> rw [hspent] at h₁ <;> cases h₁ <;> exact ⟨rfl, rfl⟩
  obtain ⟨hqueryState, hhand⟩ := hstays
  rw [hi, Bool.not_true, Bool.and_false, if_neg Bool.false_ne_true] at h
  change (if s.turnState.drained then _ else _ : SessionM (Option Outcome)) s₁ = _ at h
  rw [← hqueryState, ← hhand]
  cases hd : s.turnState.drained with
  | false =>
    rw [hd] at h
    exact (frame_queryState.keeps_finishIfUserTurn _).of_ok h
  | true =>
    rw [hd] at h
    obtain ⟨hand, s₂, h₂, h⟩ := bind_eq_ok h
    obtain ⟨-, hv₂⟩ := handOver_eq_ok h₂
    rw [if_pos rfl, ← hv₂]
    have hends : Keeps queryState (if hand.terminates then do
        report .endOfText
        return some (← finish .terminated .endOfSequence)
      else finishIfUserTurn (reasonOf s.budgetSpent hand)) :=
      .ite (.bind (keeps_queryState_report _) fun _ =>
          .bind (frame_queryState.keeps_finish _ _) fun _ => .pure _)
        (frame_queryState.keeps_finishIfUserTurn _)
    exact hends.of_ok h

/-- What a pass of an interactive session comes to: it ends where the pending tokens are evaluated,
or it fills the next step, after which control is handed over if the queue is read. -/
theorem pass_eq_ok {o : Option Outcome} (h : pass s = .ok o t)
    (hi : s.config.interactive = true) :
    (t.turnState = s.turnState ∧ t.template = s.template) ∨ ∃ u : Session, u.config = s.config ∧
      s.turnState.Filled s.config (.ok ()) u.turnState ∧ u.template = s.template ∧
      (t.queryState = if u.turnState.drained then u.queryState.handed u.handback else
        u.queryState) ∧
      t.turnState.calls = u.turnState.calls ∧ t.turnState.recent = u.turnState.recent := by
  obtain ⟨r, s₁, h₁, h⟩ := bind_eq_ok h
  obtain ⟨hturnState₁, hconfig₁⟩ := turnAndConfig_eq
    (frame_turnAndConfig.keeps_evaluatePending.of_ok h₁)
  have htemplate₁ := frame_template.keeps_evaluatePending.of_ok h₁
  cases r with
  | some reason =>
    cases h
    exact .inl ⟨hturnState₁, htemplate₁⟩
  | none =>
    obtain ⟨_, s₂, h₂, h⟩ := bind_eq_ok h
    obtain ⟨_, s₃, h₃, h⟩ := bind_eq_ok h
    obtain ⟨_, u, h₄, h⟩ := bind_eq_ok h
    obtain ⟨hturnState₂, hconfig₂⟩ :=
      turnAndConfig_eq (frame_turnAndConfig.keeps_clearPending.of_ok h₂)
    obtain ⟨hconfig₃, hfilled⟩ := (ends_refill_turnState s₂).of_ok h₃
    obtain ⟨hturnState₄, hconfig₄⟩ := turnAndConfig_eq (keeps_turnAndConfig_display.of_ok h₄)
    have htemplate : u.template = s.template :=
      (keeps_template_display.of_ok h₄).trans <| (keeps_template_refill.of_ok h₃).trans <|
        (frame_template.keeps_clearPending.of_ok h₂).trans htemplate₁
    have hconfig : u.config = s.config :=
      hconfig₄.trans <| hconfig₃.trans <| hconfig₂.trans hconfig₁
    rw [← hturnState₄, hturnState₂, hconfig₂, hturnState₁, hconfig₁] at hfilled
    obtain ⟨_, _, _, hturnState, -⟩ := ((ends_conclude_turnState u).of_ok h).2.exists_eq
    refine .inr ⟨u, hconfig, hfilled, htemplate, conclude_eq_ok h (hconfig ▸ hi), ?_, ?_⟩
    · rw [hturnState]
    · rw [hturnState]

end Session

/-! ### Beginning a session -/

namespace Workbench

variable {w t : Workbench}

private theorem keeps_templatePart_load (path : String) (capacity : Nat) :
    Keeps templatePart (Cache.load path capacity) := by
  refine .bind .get fun w => ?_
  split
  · exact .pure _
  · exact .throw _
  · split
    · exact .throw _
    · refine .bind (.adaptExcept _ ?_) fun _ => ?_
      · exact keeps_templatePart_call (Engine.frame_templatePart.keeps_restoreSnapshot _)
      · exact .bind (keeps_templatePart_report _) fun _ => .pure _

private theorem keeps_templatePart_loadOrColdStart {ε : Type} (capacity : Nat) :
    Keeps templatePart (Cache.loadOrColdStart capacity : WorkM ε (List Token)) := by
  have hloads (path : String) :
      Keeps templatePart (Cache.loadOrGiveUp path capacity : WorkM ε (List Token)) := by
    refine .bind (.attempt (keeps_templatePart_load _ _)) fun r => ?_
    cases r with
    | ok tokens => exact .bind (keeps_templatePart_report _) fun _ => .pure _
    | error e => exact .bind (keeps_templatePart_giveUp _) fun _ => .pure _
  refine .bind .get fun w => ?_
  split
  · exact .pure _
  · refine .bind (keeps_templatePart_report _) fun _ => ?_
    refine .bind .get fun _ => ?_
    exact .ite (hloads _) (.bind (keeps_templatePart_report _) fun _ => .pure _)

private theorem keeps_templatePart_ask {α : Type} {x : EngineM α}
    (h : Keeps Engine.templatePart x) :
    Keeps templatePart (ask x) := .adaptExcept _ (keeps_templatePart_call h)

private theorem keeps_templatePart_promptTokens (config : Config) (logged : List Token) :
    Keeps templatePart (promptTokens config logged) := by
  refine .bind .get fun _ => ?_
  refine .ite ?_ (.bind (.pure _) fun _ => .pure _)
  refine .bind (keeps_templatePart_ask (Engine.frame_templatePart.keeps_tokenize _ _ _)) fun _ => ?_
  exact .pure _

private theorem keeps_templatePart_startGuidance (config : Config) : Keeps templatePart
    (startGuidance config) := by
  have htokenizes (text : String) (addBos : Bool) :
      Keeps templatePart (call (Engine.tokenize text addBos true)) :=
    keeps_templatePart_call (Engine.frame_templatePart.keeps_tokenize _ _ _)
  refine .bind .get fun _ => ?_
  refine .ite (.pure _) ?_
  refine .ite (.bind (keeps_templatePart_report _) fun _ => .pure _) ?_
  refine .bind (.adaptExcept _ ?_) fun _ => .pure _
  refine .bind (htokenizes _ _) fun _ => ?_
  refine .bind (htokenizes _ _) fun _ => ?_
  exact .bind (keeps_templatePart_report _) fun _ => .pure _

private theorem keeps_templatePart_startCache (config : Config) (queue logged : List Token) :
    Keeps templatePart (startCache config queue logged) := by
  have haligns : Keeps templatePart (Cache.align queue (config.prompt = "")) := by
    refine .bind .get fun _ => ?_
    refine .bind (keeps_templatePart_report _) fun _ => ?_
    refine .bind (keeps_templatePart_call (Engine.frame_templatePart.keeps_removeCells _ _ _ _))
      fun _ => ?_
    refine .bind (.onlyIf _ ?_) fun _ => .pure _
    exact .bind (keeps_templatePart_report _) fun _ => keeps_templatePart_advance fun _ => rfl
  exact .ite (.pure _) (.adaptExcept _ haligns)

private theorem keeps_templatePart_settle (now : Nat) (config : Config) :
    Keeps templatePart (settle now config) := by
  unfold settle
  split
  · exact .throw _
  · exact .bind (.forM fun e _ => keeps_templatePart_report e) fun _ => .pure _

private theorem keeps_templatePart_openCache (config : Config) (size : Nat) :
    Keeps templatePart (openCache config size) :=
  .bind (.onlyIf _ (keeps_templatePart_report _)) fun _ =>
    .bind (.modify fun _ => rfl) fun _ => keeps_templatePart_loadOrColdStart _

private theorem keeps_templatePart_announce (config : Config) (size : Int) (count : Nat) :
    Keeps templatePart (announce config size count) :=
  .bind (keeps_templatePart_report _) fun _ =>
    .bind (.forM fun e _ => keeps_templatePart_report e) fun _ => keeps_templatePart_report _

private theorem keeps_spellings {ε α : Type} {x : WorkM ε α} (h : Keeps templatePart x) :
    Keeps (·.engine.spellings) x := fun w => congrArg Prod.fst (h w)

private theorem keeps_spellings_queuePrompt (now : Nat) (config : Config) (size : Int)
    (logged : List Token) : Keeps (·.engine.spellings) (queuePrompt now config size logged) := by
  refine .bind (keeps_spellings (keeps_templatePart_ask (Engine.keeps_templatePart_setSeed _)))
    fun _ => ?_
  refine .bind (keeps_spellings (keeps_templatePart_promptTokens _ _)) fun _ => ?_
  refine .bind (.failIf _ _) fun _ => ?_
  refine .bind (keeps_spellings (keeps_templatePart_startGuidance _)) fun _ => ?_
  refine .bind (.modify fun _ => rfl) fun _ => ?_
  exact .bind (keeps_spellings (keeps_templatePart_startCache _ _ _)) fun _ => .pure _

private theorem ask_tokenize_eq_ok {text : String} {addBos special : Bool} {tokens : List Token}
    (h : ask (Engine.tokenize text addBos special) w = .ok tokens t) :
    tokens = (if addBos then [Token.bos] else []) ++ w.engine.spell text := by
  have hends : Ends (ask (Engine.tokenize text addBos special)) w fun r _ =>
      ∀ l, r = .ok l → l = (if addBos then [Token.bos] else []) ++ w.engine.spell text := by
    rw [ask, ends_adaptExcept, ends_call]
    unfold Ends
    cases hx : Engine.tokenize text addBos special w.engine with
    | ok l e =>
      rintro _ ⟨⟩
      exact (Engine.tokenize_eq_ok hx).1
    | error error e => exact fun _ h => nomatch h
  exact hends.of_ok h tokens rfl

end Workbench

namespace Session

variable {s : Session} {config : Config} {engine : Engine} {directory : Directory} {now : Nat}

/-- What is put around the user's turns when a session begins. The instruction of a turn may begin
with the token that opens a sequence. -/
theorem template_of_start {w : Workbench} (h : start now config engine directory = .ok s w) :
    config.resolve now = .ok s.config ∧ ∃ opening,
      s.template = ⟨s.config, false, engine.spellings, opening ++ engine.spell leadText,
        engine.spell tailText⟩ := by
  obtain ⟨c, logged, queue, guidance, matched, lead, tail, w₁, w₂, w₃, w₄, hsettled, hopened,
    hqueued, hspelled, hannounced, rfl⟩ := Workbench.stages_of_start h
  obtain ⟨_, w₅, hlead, hspelled⟩ := bind_eq_ok hspelled
  obtain ⟨_, _, htail, hspelled⟩ := bind_eq_ok hspelled
  cases hspelled
  obtain ⟨-, -, hresolve⟩ := Workbench.settle_eq_ok hsettled
  have hw₃ : w₃.engine.spellings = engine.spellings := by
    rw [(Workbench.keeps_spellings_queuePrompt _ _ _ _).of_ok hqueued,
      (Workbench.keeps_spellings (Workbench.keeps_templatePart_openCache _ _)).of_ok hopened,
      (Workbench.keeps_spellings (Workbench.keeps_templatePart_settle _ _)).of_ok hsettled]
    rfl
  have htokenizes (text : String) (addBos : Bool) :
      Keeps (·.engine.spellings) (Workbench.ask (Engine.tokenize text addBos true)) :=
    Workbench.keeps_spellings
      (Workbench.keeps_templatePart_ask (Engine.frame_templatePart.keeps_tokenize _ _ _))
  have hw₅ : w₅.engine.spellings = engine.spellings := ((htokenizes _ _).of_ok hlead).trans hw₃
  have hw : w.engine.spellings = engine.spellings := by
    rw [(Workbench.keeps_spellings (Workbench.keeps_templatePart_announce _ _ _)).of_ok hannounced,
      (htokenizes _ _).of_ok htail, hw₅]
  have hspell {w : Workbench} (hw : w.engine.spellings = engine.spellings) (text : String) :
      w.engine.spell text = engine.spell text := by
    rw [Engine.spell, hw]
    rfl
  replace hlead := Workbench.ask_tokenize_eq_ok hlead
  replace htail := Workbench.ask_tokenize_eq_ok htail
  rw [hspell hw₃] at hlead
  rw [hspell hw₅, if_neg Bool.false_ne_true, List.nil_append] at htail
  exact ⟨hresolve, _, Template.ext rfl rfl hw hlead htail⟩

end Session

end Dialogue
