import Dialogue.Proofs.Budget
import Dialogue.Proofs.HandingOver
import Dialogue.Proofs.Prompting
import Dialogue.Proofs.FileState
import Dialogue.Proofs.TemplateSteps
/-!
# Stops that are kept

In interactive mode a token that ends the generation, or that completes a reverse prompt, is to stop
the turn. The turn is handed over at the end of the pass that draws it, behind all that can fail
there: showing the token, spelling the reverse prompt that is queued, and showing a line break. So a
stop is kept if nothing of that fails, or if the draw used up those of the turn, which is told from
the draws that are left. Then nothing is drawn before the next query or new beginning, whatever
fails. Otherwise the stop is forgotten, and where nothing was queued the next turn draws again.
-/

namespace Dialogue

open Effect

namespace TurnState

variable {c : Config} {v u : TurnState}

/-- Whether nothing is drawn before the turn is given to the session again: the user has it, or the
draws are used up. -/
def Halted (c : Config) (v : TurnState) : Prop := v.userTurn = true ∨ v.spent c = true

/-- What was accepted last is what is judged once the queue is read. -/
theorem toUser_of_handsOver (hi : c.interactive = true) (h : HandsOver c.antiprompts v.recent) :
    (v.handback c).toUser = true := by
  simp only [handback, Handback.decide, hi]
  rcases h with hend | ⟨a, ha, hne, hsuffix⟩
  · simp [hend]
  · simp [Antiprompt.find?_isSome_of_suffix ha hne hsuffix]

private theorem Filled.queue_eq {r : Except SessionError Unit} (h : v.Filled c r u) :
    u.queue = v.queue := by
  cases h <;> rfl

/-! ### Staying halted -/

/-- No step of a halted turn state is filled with a draw. -/
theorem Filled.of_halted {r : Except SessionError Unit} (h : v.Filled c r u) (hv : v.Halted c) :
    u.Halted c ∧ ∃ calls, u.calls = v.calls ++ calls ∧ ∀ guided, .sample guided ∉ calls := by
  have hnone : ∃ calls, v.calls = v.calls ++ calls ∧ ∀ guided, Call.sample guided ∉ calls :=
    ⟨[], by simp, by simp⟩
  have hdraws (hu : v.userTurn = false) (hs : v.spent c = false) : False := by
    rcases hv with hv | hv
    · cases hu.symm.trans hv
    · cases hs.symm.trans hv
  cases h with
  | spent => exact ⟨hv, hnone⟩
  | stopped => exact ⟨hv, hnone⟩
  | undrawn _ hu hs => exact (hdraws hu hs).elim
  | drawn _ hu hs => exact (hdraws hu hs).elim
  | taken => exact ⟨hv, _, rfl, fun _ => not_mem_accepted nofun⟩

/-- However it is decided whose turn it is, a halted turn state stays so: draws that are used up are
renewed for the next turn only, and that is the user's. -/
theorem Concluded.halted {r : Except SessionError (Option Outcome)} (h : v.Concluded c r u)
    (hv : v.Halted c) : u.Halted c := by
  have hsettled : (v.settle c).userTurn = true := by
    unfold settle
    split
    · rfl
    · next hs => exact hv.resolve_right hs
  cases h with
  | exhausted => exact .inl hsettled
  | undrained => exact .inl hsettled
  | failed => exact .inl hsettled
  | handed => exact .inl (Bool.or_eq_true_iff.mpr (.inl hsettled))

/-- A pass that begins in a halted turn state draws nothing and leaves it so, whether or not it
fails. -/
theorem Passed.of_halted {r : Except SessionError (Option Outcome)} (h : v.Passed c r u)
    (hv : v.Halted c) :
    u.Halted c ∧ ∃ calls, u.calls = v.calls ++ calls ∧ ∀ guided, .sample guided ∉ calls := by
  cases h with
  | ended => exact ⟨hv, [], by simp, by simp⟩
  | broken hf => exact hf.of_halted hv
  | stepped hf hc =>
    obtain ⟨hu, hcalls⟩ := hf.of_halted hv
    rw [hc.calls_eq]
    exact ⟨hc.halted hu, hcalls⟩

/-! ### Drawing a stop -/

/-- A step for which a token was drawn. -/
theorem Filled.of_drawn {r : Except SessionError Unit} {guided : Bool} {token : Token}
    (h : v.Filled c r u) (hcalls : u.calls = v.calls ++ [.sample guided, .accept token true]) :
    v.drained = true ∧ v.userTurn = false ∧ v.spent c = false ∧ u = v.draw guided := by
  have hnone {calls more : List Call} (h : v.calls ++ calls = v.calls ++ more) : calls = more :=
    List.append_cancel_left h
  cases h with
  | spent => cases hnone ((List.append_nil _).trans hcalls)
  | stopped => cases hnone ((List.append_nil _).trans hcalls)
  | undrawn => cases hnone hcalls
  | drawn hq hu hs hf guided' =>
    have heq := hnone ((List.append_assoc v.calls _ _).symm.trans hcalls)
    cases heq
    exact ⟨hq, hu, hs, rfl⟩
  | taken =>
    have hmem := hnone hcalls
    have hsample : Call.sample guided ∈
        (v.unread.take (max c.batchSize 1)).map (Call.accept · false) := by
      rw [hmem]
      exact List.mem_cons_self
    exact absurd hsample (not_mem_accepted nofun)

/-- After a draw the session has the turn, so the turn state is halted if the draws are used up. -/
theorem halted_draw_iff {P : Prop} {guided : Bool} (hu : v.userTurn = false) (hP : ¬ P) :
    (v.draw guided).Halted c ↔ P ∨ (v.draw guided).spent c = true := by
  have hturn : ¬ (v.draw guided).userTurn = true := Bool.eq_false_iff.mp hu
  rw [Halted, or_iff_right hturn, or_iff_right hP]

/-- After a draw that hands over, the turn state is halted if the pass succeeds, or if the draw used
up what was left; else the turn stays with the session. -/
theorem Passed.of_drawn {r : Except SessionError (Option Outcome)} {guided : Bool} {token : Token}
    (h : v.Passed c r u) (hi : c.interactive = true)
    (hcalls : u.calls = v.calls ++ [.sample guided, .accept token true])
    (hover : HandsOver c.antiprompts u.recent) :
    r ≠ .ok none ∧ (u.Halted c ↔ (∃ o, r = .ok o) ∨ (v.draw guided).spent c = true) := by
  cases h with
  | ended => cases List.append_cancel_left ((List.append_nil _).trans hcalls)
  | broken hf error =>
    obtain ⟨-, hu, -, rfl⟩ := hf.of_drawn hcalls
    exact ⟨nofun, halted_draw_iff hu nofun⟩
  | @stepped r d u hf hc =>
    rw [hc.calls_eq] at hcalls
    obtain ⟨hq, hu, -, rfl⟩ := hf.of_drawn hcalls
    have huser : ((v.draw guided).handback c).toUser = true := by
      obtain ⟨_, _, _, rfl, -⟩ := hc.exists_eq
      exact toUser_of_handsOver hi hover
    cases hc with
    | exhausted _ hi' => cases hi.symm.trans hi'
    | undrained hq' => cases hq.symm.trans hq'
    | failed _ tokens error =>
      refine ⟨nofun, ?_⟩
      unfold settle
      split
      · next hs => exact ⟨fun _ => .inr hs, fun _ => .inl rfl⟩
      · change (v.draw guided).Halted c ↔ _
        exact halted_draw_iff hu nofun
    | handed _ tokens _ hr =>
      have hturn : ((((v.draw guided).settle c).queued tokens).handed
          ((v.draw guided).handback c)).userTurn = true :=
        Bool.or_eq_true_iff.mpr (.inr huser)
      refine ⟨?_, fun _ => .inl ⟨_, rfl⟩, fun _ => .inl hturn⟩
      intro hnone
      cases hturn.symm.trans (hr (Except.ok.inj hnone)).2

end TurnState

namespace Session

variable {s t p : Session}

/-- Whether nothing is drawn before the turn is given to the session again. -/
def Halted (s : Session) : Prop := s.turnState.Halted s.config

/-- As long as only turns are taken, a session that is halted draws nothing and stays so. -/
theorem invariant_halted (s : Session) :
    Invariant (fun _ r => ∃ room, r = .answer room) fun t => t.config = s.config ∧ t.Halted ∧
      ∃ calls, t.turnState.calls = s.turnState.calls ++ calls ∧ ∀ guided, .sample guided ∉ calls
        where
  showing _ _ h := h
  pass := by
    rintro t ⟨hconfig, hhalted, calls, hcalls, hnone⟩
    obtain ⟨r, ⟨hsame, hpassed⟩, -⟩ := (ends_pass_turnState t).exists_left
    obtain ⟨hhalted', more, hmore, hnone'⟩ := hpassed.of_halted hhalted
    refine ⟨hsame.trans hconfig, ?_, calls ++ more, ?_, fun guided => ?_⟩
    · rwa [Halted, hsame]
    · rw [hmore, hcalls, List.append_assoc]
    · rw [List.mem_append]
      exact not_or.mpr ⟨hnone guided, hnone' guided⟩
  query := by
    rintro t text room - ⟨_, ⟨⟩⟩
  reset := by
    rintro t - ⟨_, ⟨⟩⟩

/-- A session that is halted draws nothing, however often turns are taken. -/
theorem Halted.draws (h : s.Halted) {answers : List Request}
    (ha : ∀ r ∈ answers, ∃ room, r = .answer room) (guided : Bool) :
    .sample guided ∉ s.samplerCallsSince (s.serveAll answers) := by
  obtain ⟨-, -, calls, hcalls, hnone⟩ := (invariant_halted s).serveAll
    ⟨rfl, h, [], (List.append_nil _).symm, by simp⟩ (allAllowed_of_forall (fun _ => ha) s)
  rw [samplerCallsSince_of_eq_append hcalls]
  exact hnone guided

/-! ### Drawing again -/

/-- Where the queue is read, the session has the turn and the draws are not used up, a draw is
asked for. -/
theorem ends_drawNext_asks (s : Session) :
    Ends drawNext s fun _ t => ∃ guided, s.turnState.calls ++ [.sample guided] <+:
      t.turnState.calls := by
  simp only [drawNext, ends_bind]
  apply ((ends_savePrompt_ok s).and (Ends.keeps frame_turnAndConfig.keeps_savePrompt)).mono
  rintro _ s₁ ⟨rfl, h₁⟩
  obtain ⟨hturnState, -⟩ := turnAndConfig_eq h₁
  rw [← hturnState]
  simp only [ends_get, ends_call, Engine.ends_sample]
  generalize (s₁.guidance.isSome && s₁.progress.guidanceReady) = guided
  split
  · refine ⟨guided, ?_⟩
    rw [turnState_asked]
    exact List.prefix_rfl
  · refine ⟨guided, ?_⟩
    change _ <+: ((s₁.engine.calls.push (.sample guided)).push
      (.accept s₁.turnState.next true)).toList.filter Call.onSampler
    rw [Engine.samplerCalls_push rfl, Engine.samplerCalls_push rfl]
    exact List.prefix_append _ _

/-- A step is filled with a draw where the queue is read, the session has the turn and the draws
are not used up. -/
theorem ends_refill_asks (hq : s.turnState.drained = true) (hs : ¬ s.Halted) :
    Ends refill s fun _ t => ∃ guided, s.turnState.calls ++ [.sample guided] <+:
      t.turnState.calls := by
  rw [Halted, TurnState.Halted, not_or, Bool.not_eq_true, Bool.not_eq_true] at hs
  obtain ⟨hturn, hspent⟩ := hs
  have hdraws : (s.progress.queueDrained && !s.progress.userTurn) = true :=
    Bool.and_eq_true_iff.mpr ⟨hq, congrArg not hturn⟩
  simp only [refill, ends_bind, ends_get, enter, ends_modify, ends_ite]
  rw [if_pos hdraws]
  change if s.turnState.spent s.config = true then _ else _
  rw [if_neg (Bool.eq_false_iff.mp hspent)]
  exact ends_drawNext_asks _

private theorem ends_takeStep_asks (hq : s.turnState.drained = true) (hs : ¬ s.Halted) :
    Ends takeStep s fun _ t => ∃ guided, s.turnState.calls ++ [.sample guided] <+:
      t.turnState.calls := by
  simp only [takeStep, ends_bind]
  apply ((ends_clearPending s).and (Ends.keeps frame_turnAndConfig.keeps_clearPending)).mono
  rintro _ s₁ ⟨⟨rfl, -⟩, h₁⟩
  obtain ⟨hturnState, hconfig⟩ := turnAndConfig_eq h₁
  rw [Halted, ← hturnState, ← hconfig] at hs
  rw [← hturnState] at hq ⊢
  apply (ends_refill_asks hq hs).mono
  rintro r t ⟨guided, ht⟩
  cases r with
  | error e => exact ⟨guided, ht⟩
  | ok _ =>
    apply (Ends.keeps keeps_turnAndConfig_display).mono
    intro r u hu
    rw [← (turnAndConfig_eq hu).1] at ht
    cases r with
    | error e => exact ⟨guided, ht⟩
    | ok _ =>
      apply (ends_conclude_turnState u).mono
      rintro r v ⟨-, hv⟩
      rw [← hv.calls_eq] at ht
      exact ⟨guided, ht⟩

/-- As long as only turns are taken, no call is lost. -/
theorem invariant_calls (calls : List Call) :
    Invariant (fun _ r => ∃ room, r = .answer room) fun t => calls <+: t.turnState.calls where
  showing _ _ h := h
  pass := by
    intro t h
    obtain ⟨r, ⟨-, hpassed⟩, -⟩ := (ends_pass_turnState t).exists_left
    exact h.trans hpassed.prefix_calls
  query := by
    rintro t text room - ⟨_, ⟨⟩⟩
  reset := by
    rintro t - ⟨_, ⟨⟩⟩

/-- A turn that gets through its first evaluation asks for a draw where the queue is read, the
session has the turn and the draws are not used up. -/
theorem answer_asks {u : Session} (he : evaluatePending s = .ok none u)
    (hq : s.turnState.drained = true) (hs : ¬ s.Halted) :
    ∃ guided, .sample guided ∈ s.samplerCallsSince (left (answer s)) := by
  obtain ⟨hturnState, hconfig⟩ :=
    turnAndConfig_eq (frame_turnAndConfig.keeps_evaluatePending.of_ok he)
  have hasks : ∃ guided, s.turnState.calls ++ [.sample guided] <+:
    (left (pass s)).turnState.calls := by
    rw [pass_eq_takeStep he, ← hturnState]
    rw [← hturnState] at hq
    rw [Halted, ← hturnState, ← hconfig] at hs
    exact (ends_takeStep_asks hq hs).left
  obtain ⟨guided, hasks⟩ := hasks
  have hcalls : s.turnState.calls ++ [.sample guided] <+: (left (answer s)).turnState.calls := by
    rw [answer_eq]
    match hpass : pass s with
    | .error e t => rwa [hpass] at hasks
    | .ok (some outcome) t => rwa [hpass] at hasks
    | .ok none t =>
      rw [hpass] at hasks
      exact (invariant_calls _).answer hasks
  obtain ⟨more, hmore⟩ := hcalls
  rw [List.append_assoc] at hmore
  rw [samplerCallsSince_of_eq_append hmore.symm]
  exact ⟨guided, List.mem_cons_self⟩

/-! ### Queuing the reverse prompt -/

/-- Whether no more was queued since than the first reverse prompt. -/
def Cue (s t : Session) : Prop :=
  t.progress.queue = s.progress.queue ∨ t.progress.queue = s.progress.queue ++ s.template.cue

/-- The tokens queued so far, and what the first reverse prompt depends on. -/
def cueing (s : Session) : List Token × Template := (s.progress.queue, s.template)

private theorem Cue.of_cueing (h : s.cueing = p.cueing) (ht : s.Cue t) : p.Cue t := by
  obtain ⟨hqueue, htemplate⟩ := Prod.mk.inj h
  rwa [Cue, ← hqueue, ← htemplate]

private theorem keeps_cueing_of_queryState {α : Type} {x : SessionM α} (h : Keeps queryState x) :
    Keeps cueing x :=
  fun s => congrArg (fun v : QueryState => (v.queue, v.toTemplate)) (h s)

private theorem ends_cue_of_keeps {α : Type} {x : SessionM α} (hx : Keeps cueing x)
    (h : s.cueing = p.cueing) : Ends x s fun _ t => p.Cue t := by
  apply (Ends.keeps hx).mono
  intro r t ht
  exact .of_cueing (ht.trans h) (.inl rfl)

/-- What comes after a computation that keeps the queue can queue the first reverse prompt. -/
theorem ends_bind_cue {α β : Type} {x : SessionM α} {g : α → SessionM β} (hx : Keeps cueing x)
    (hg : ∀ a u, Ends (g a) u fun _ t => u.Cue t) : Ends (x >>= g) s fun _ t => s.Cue t :=
  ends_bind_of_keeps hx rfl (fun a u hu => (hg a u).mono fun _ _ => .of_cueing hu) fun _ _ hu =>
    .of_cueing hu (.inl rfl)

/-- What comes after at most the first reverse prompt was queued queues nothing more. -/
theorem cue_bind {α β : Type} {x : SessionM α} {g : α → SessionM β}
    (hx : Ends x s fun _ t => p.Cue t) (hg : ∀ a, Keeps (·.progress.queue) (g a)) :
    Ends (x >>= g) s fun _ t => p.Cue t := by
  rw [ends_bind]
  apply hx.mono
  intro r t ht
  cases r with
  | error e => exact ht
  | ok a =>
    apply (Ends.keeps (hg a)).mono
    intro r u hu
    rwa [Cue, show u.progress.queue = t.progress.queue from hu]

private theorem ends_queueAntiprompt_cue (s : Session) :
    Ends queueAntiprompt s fun _ t => s.Cue t := by
  simp only [queueAntiprompt, ends_bind, ends_get]
  split
  · exact .inl rfl
  · next first rest hfirst =>
    rw [ends_bind]
    match htokens : call (Engine.tokenize first false true) s with
    | .error e t =>
      have hturnAndConfig : t.turnAndConfig = s.turnAndConfig := by
        have hkeeps :=
          keeps_turnAndConfig_call (Engine.frame_sampling.keeps_tokenize first false true) s
        rwa [htokens] at hkeeps
      rw [ends_iff_of_eq_error htokens]
      exact .inl (congrArg TurnState.queue (turnAndConfig_eq hturnAndConfig).1)
    | .ok tokens t =>
      obtain ⟨hqueryState, hspelled⟩ := tokenize_eq_ok htokens
      rw [ends_iff_of_eq_ok htokens]
      have hqueue : t.progress.queue = s.progress.queue := congrArg QueryState.queue hqueryState
      have hcue : s.template.cue = tokens := by
        rw [hspelled, hqueryState, Template.cue,
          show s.template.config.antiprompts = first :: rest from hfirst]
        rfl
      refine .inr ?_
      rw [hcue, ← hqueue]

private theorem ends_handOver_cue (s : Session) : Ends handOver s fun _ t => s.Cue t := by
  have hreports : Keeps queryState reportAntiprompt := by
    refine .bind .get fun s => ?_
    split
    · exact .pure _
    · exact keeps_queryState_report _
  have hshows : Keeps (·.progress.queue) (do report .endOfSequenceFound; write "\n") := by
    refine .bind (.modify fun _ => rfl) fun _ => ?_
    refine .bind .get fun _ => ?_
    exact .bind (.modify fun _ => rfl) fun _ => .failIf _ _
  refine ends_bind_cue (keeps_cueing_of_queryState hreports) fun _ u => ?_
  rw [ends_bind, ends_get]
  refine cue_bind ?_ fun _ => ?_
  · rw [ends_onlyIf]
    split
    · exact ends_queueAntiprompt_cue u
    · exact .inl rfl
  · exact .bind (.onlyIf _ hshows) fun _ => .bind (.modify fun _ => rfl) fun _ => .pure _

/-- Deciding whose turn it is queues the first reverse prompt at most, also if it fails. -/
theorem ends_conclude_cue (s : Session) : Ends conclude s fun _ t => s.Cue t := by
  have hrenews : Keeps queryState renewBudget := .bind .get fun _ => .modify fun _ => rfl
  have hends (phase : Phase) (reason : StopReason) :
      Keeps queryState (do return some (← finish phase reason)) :=
    .bind (frame_queryState.keeps_finish _ _) fun _ => .pure _
  have hfinishes (phase : Phase) (reason : StopReason) :
      Keeps (·.progress.queue) (finish phase reason) := by
    refine .bind (.modify fun _ => rfl) fun _ => ?_
    refine .bind .get fun _ => ?_
    exact .bind (.modify fun _ => rfl) fun _ => .pure _
  unfold conclude
  rw [ends_bind, ends_get]
  refine ends_bind_cue (keeps_cueing_of_queryState (.onlyIf _ hrenews)) fun _ u => ?_
  rw [ends_ite, ends_ite]
  split
  · exact ends_cue_of_keeps (keeps_cueing_of_queryState (hends _ _)) rfl
  · split
    · refine cue_bind (ends_handOver_cue u) fun _ => ?_
      exact .ite (.bind (.modify fun _ => rfl) fun _ => .bind (hfinishes _ _) fun _ => .pure _)
        (.bind .get fun _ => .ite (.bind (hfinishes _ _) fun _ => .pure _) (.pure _))
    · exact ends_cue_of_keeps
        (keeps_cueing_of_queryState (frame_queryState.keeps_finishIfUserTurn _)) rfl

private theorem keeps_cueing_of_turnAndConfig {α : Type} {x : SessionM α}
    (hturnAndConfig : Keeps turnAndConfig x)
    (htemplate : Keeps template x) : Keeps cueing x := fun s =>
  Prod.ext (congrArg TurnState.queue (turnAndConfig_eq (hturnAndConfig s)).1) (htemplate s)

/-- A pass queues the first reverse prompt at most, also if it fails. -/
theorem ends_pass_cue (s : Session) : Ends pass s fun _ t => s.Cue t := by
  have hrefill : Keeps cueing refill := fun s =>
    Prod.ext ((ends_refill_turnState s).mono fun _ _ h => h.2.queue_eq).left
      (keeps_template_refill s)
  have hsteps (u : Session) : Ends takeStep u fun _ t => u.Cue t := by
    refine ends_bind_cue (keeps_cueing_of_turnAndConfig frame_turnAndConfig.keeps_clearPending
      frame_template.keeps_clearPending) fun _ u => ?_
    refine ends_bind_cue hrefill fun _ u => ?_
    exact ends_bind_cue (keeps_cueing_of_turnAndConfig keeps_turnAndConfig_display
      keeps_template_display)
      fun _ u => ends_conclude_cue u
  refine ends_bind_cue (keeps_cueing_of_turnAndConfig frame_turnAndConfig.keeps_evaluatePending
    frame_template.keeps_evaluatePending) fun a u => ?_
  cases a with
  | none => exact hsteps u
  | some reason =>
    exact ends_cue_of_keeps
      (keeps_cueing_of_queryState (.bind (frame_queryState.keeps_finish _ _) fun _ => .pure _)) rfl

/-! ### What becomes of a stop -/

/-- A pass that does not let the turn go on ends it. -/
theorem left_answer_of_ends (h : ∀ t, pass s ≠ .ok none t) :
    left (answer s) = left (pass s) ∧
      ((∃ outcome t, answer s = .ok outcome t) ↔ ∃ o t, pass s = .ok o t) := by
  rw [answer_eq]
  match hpass : pass s with
  | .error e t => exact ⟨rfl, by simp⟩
  | .ok (some outcome) t => exact ⟨rfl, by simp⟩
  | .ok none t => exact absurd hpass (h t)

private theorem spent_draw_iff {v : TurnState} {c : Config} {guided : Bool} :
    (v.draw guided).spent c = true ↔ c.hasFiniteBudget = true ∧ v.remaining ≤ 1 := by
  have hle : v.remaining - 1 ≤ 0 ↔ v.remaining ≤ 1 := by omega
  simp only [TurnState.spent, TurnState.draw, TurnState.ask, Bool.and_eq_true, decide_eq_true_eq,
    hle]

/-- In an interactive session, where a pass draws a token that ends the generation, or that
completes a reverse prompt at the end of what was accepted last, the turn does not go on. The stop
is kept if that turn ends with an outcome, or if the draw was the last of the turn, and only then:
no token is drawn then as long as only turns are taken, whatever fails. Otherwise the session has
the turn again. No more than the first reverse prompt was queued then, and if it was not, the next
turn that gets through its first evaluation asks for a draw. -/
theorem stop_kept_unless_turn_fails (hi : p.config.interactive = true) (ht : left (pass p) = t)
    {guided : Bool} {token : Token}
    (hdraw : p.samplerCallsSince t = [.sample guided, .accept token true])
    (hover : HandsOver p.config.antiprompts t.progress.recent) :
    left (answer p) = t ∧
      (t.Halted ↔ (∃ outcome u, answer p = .ok outcome u) ∨
        p.config.hasFiniteBudget = true ∧ p.progress.remaining ≤ 1) ∧
      (t.Halted → ∀ answers, (∀ r ∈ answers, ∃ room, r = .answer room) →
        ∀ guided', .sample guided' ∉ t.samplerCallsSince (t.serveAll answers)) ∧
      (¬ t.Halted → t.progress.userTurn = false ∧
        (t.progress.queue = p.progress.queue ∨
          t.progress.queue = p.progress.queue ++ p.template.cue) ∧
        (t.progress.queueDrained = true → ∀ room u,
          evaluatePending (t.showing room) = .ok none u →
            ∃ guided', .sample guided' ∈ t.samplerCallsSince (t.serve (.answer room)))) := by
  subst ht
  have hcue : p.Cue (left (pass p)) := (ends_pass_cue p).left
  obtain ⟨r, ⟨hconfig, hpassed⟩, hok, -⟩ := (ends_pass_turnState p).exists_left
  obtain ⟨calls, hcalls⟩ := hpassed.prefix_calls
  rw [samplerCallsSince_of_eq_append hcalls.symm] at hdraw
  rw [hdraw] at hcalls
  obtain ⟨hr, hhalted⟩ := hpassed.of_drawn hi hcalls.symm hover
  have hends (u : Session) : pass p ≠ .ok none u := fun h => hr ((hok none).mpr ⟨u, h⟩)
  obtain ⟨hleft, houtcome⟩ := left_answer_of_ends hends
  refine ⟨hleft, ?_, fun h answers ha guided' => h.draws ha guided', fun h => ⟨?_, hcue, ?_⟩⟩
  · rw [Halted, hconfig, hhalted, spent_draw_iff, houtcome]
    exact or_congr_left ⟨fun ⟨o, ho⟩ => ⟨o, (hok o).mp ho⟩, fun ⟨o, ho⟩ => ⟨o, (hok o).mpr ho⟩⟩
  · exact Bool.eq_false_iff.mpr fun hturn => h (.inl hturn)
  · intro hq room u he
    exact answer_asks he hq h

/-- The output fails when a reverse prompt is completed with the last draw of the turn. The stop is
kept. -/
theorem stop_kept_unless_turn_fails_of_last_draw :
    ∃ s w p, start 0
        { prompt := "B", interactive := true, antiprompts := ["B:"], predict := 1 }
        { script := Token.ofText ":x" } {} = .ok s w ∧
      pass (s.showing (some 1)) = .ok none p ∧ p.config.interactive = true ∧
      p.samplerCallsSince (left (pass p)) = [.sample false, .accept (Token.ofChar ':') true] ∧
      HandsOver p.config.antiprompts (left (pass p)).progress.recent ∧
      (∀ outcome u, answer p ≠ .ok outcome u) ∧
      ∀ answers, (∀ r ∈ answers, ∃ room, r = .answer room) → ∀ guided,
        .sample guided ∉ (left (pass p)).samplerCallsSince ((left (pass p)).serveAll answers) := by
  obtain ⟨s, w, h, htest⟩ := exists_of_gives
    (fun s : Session => goesOn (fun p : Session => p.config.interactive ∧
        p.samplerCallsSince (left (pass p)) =
          [.sample false, .accept (Token.ofChar ':') true] ∧
        HandsOver p.config.antiprompts (left (pass p)).progress.recent ∧
        gives (fun _ => true) (answer p) = false ∧
        (p.config.hasFiniteBudget = true ∧ p.progress.remaining ≤ 1)) (s.showing (some 1)))
    (r := start 0 { prompt := "B", interactive := true, antiprompts := ["B:"], predict := 1 }
      { script := Token.ofText ":x" } {}) (by decide +kernel)
  obtain ⟨p, hp, htest⟩ := exists_pass_of_goesOn htest
  obtain ⟨hi, hdraw, hover, hfails, hspent⟩ := of_decide_eq_true htest
  obtain ⟨-, hhalted, hdraws, -⟩ := stop_kept_unless_turn_fails hi rfl hdraw hover
  refine ⟨s, w, p, h, hp, hi, hdraw, hover, ?_, hdraws (hhalted.mpr (.inr hspent))⟩
  intro outcome u hu
  simp [gives, hu] at hfails

/-- The output fails when a reverse prompt is completed, with draws left. The next turn draws. -/
theorem stop_forgotten_of_full_output :
    ∃ s w p, start 0 { prompt := "B", interactive := true, antiprompts := ["B:"] }
        { script := Token.ofText ":x" } {} = .ok s w ∧
      pass (s.showing (some 1)) = .ok none p ∧
      p.samplerCallsSince (left (pass p)) = [.sample false, .accept (Token.ofChar ':') true] ∧
      HandsOver p.config.antiprompts (left (pass p)).progress.recent ∧
      left (pass p) = s.serve (.answer (some 1)) ∧
      .sample false ∈ (left (pass p)).samplerCallsSince ((left (pass p)).serve (.answer none)) := by
  obtain ⟨s, w, h, htest⟩ := exists_of_gives
    (fun s : Session => goesOn (fun p : Session => gives (fun _ => true) (pass p) = false ∧
        p.samplerCallsSince (left (pass p)) =
          [.sample false, .accept (Token.ofChar ':') true] ∧
        HandsOver p.config.antiprompts (left (pass p)).progress.recent ∧
        .sample false ∈ (left (pass p)).samplerCallsSince
          ((left (pass p)).serve (.answer none))) (s.showing (some 1)))
    (r := start 0 { prompt := "B", interactive := true, antiprompts := ["B:"] }
      { script := Token.ofText ":x" } {}) (by decide +kernel)
  obtain ⟨p, hp, htest⟩ := exists_pass_of_goesOn htest
  obtain ⟨hfails, hdraw, hover, hdraws⟩ := of_decide_eq_true htest
  have hends (u : Session) : pass p ≠ .ok none u := fun hu => by simp [gives, hu] at hfails
  refine ⟨s, w, p, h, hp, hdraw, hover, ?_, hdraws⟩
  rw [serve, answer_eq, hp]
  exact (left_answer_of_ends hends).1.symm

end Session

end Dialogue
