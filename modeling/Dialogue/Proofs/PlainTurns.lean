import Dialogue.Proofs.Notices
import Dialogue.Proofs.Prompting
/-!
# Turns without a user

A session without guidance that nobody answers shows the tokens that it draws, one by one, and
nothing else: no notice of a cut, since a single token is never cut, and no line of its own at the
end.
-/

namespace Dialogue

open Effect

/-- The calls by which a token is drawn without guidance. -/
def Call.drawing (token : Token) : List Call := [.sample false, .accept token true]

namespace Session

/-- A session that draws by itself: nobody answers it, it has no guidance, and its queue is read. -/
structure Drawing (s : Session) : Prop where
  /-- Nobody answers. -/
  interactive : s.config.interactive = false
  /-- No instructions are given. -/
  instruct : s.config.instruct = false
  /-- There is no guidance. -/
  guidance : s.guidance = none
  /-- The output is not bounded. -/
  room : s.output.room = none
  /-- A step can have a token. -/
  maxStep : 0 < s.window.maxStep
  /-- The queue is read. -/
  drained : s.progress.queueDrained = true
  /-- Control is with the session. -/
  turn : s.progress.userTurn = false

variable {s : Session}

/-- A session goes on drawing by itself while what was settled at the beginning stays. -/
theorem Drawing.of_settled {t : Session} (h : s.Drawing) (hs : t.settled = s.settled)
    (hroom : t.output.room = none) (hdrained : t.progress.queueDrained = true)
    (hturn : t.progress.userTurn = false) : t.Drawing where
  interactive := config_of_settled hs ▸ h.interactive
  instruct := config_of_settled hs ▸ h.instruct
  guidance := guidance_of_settled hs ▸ h.guidance
  room := hroom
  maxStep := window_of_settled hs ▸ h.maxStep
  drained := hdrained
  turn := hturn

/-- What is shown, and the next step. -/
def outputAndPending (s : Session) : Output × List Token := (s.output, s.progress.pending)

/-! ### Evaluating a token -/

/-- Nothing is shown while a single token is evaluated. -/
theorem ends_evaluatePending_shown (h : s.progress.pending.length ≤ 1)
    (hmax : 0 < s.window.maxStep) : Ends evaluatePending s fun _ t => t.output = s.output := by
  have harrive : Ends arrive s fun _ t => t.output = s.output := by
    simp only [arrive, ends_bind, ends_get, ends_cutPending_of_le (Nat.le_trans h hmax), ends_ite,
      ends_report, ends_pure]
    split
    · trivial
    · apply ((ends_makeRoom s).and (Ends.keeps keeps_output_makeRoom)).mono
      rintro r t ⟨⟨-, hswaps, -⟩, hout⟩
      cases r with
      | error e => exact hout
      | ok _ =>
        dsimp only
        split
        · exact hout
        · next hroom =>
          have hpending : t.progress.pending = s.progress.pending := hswaps.pending_eq
          rw [ends_cutPending_of_le (by rw [hpending]; omega)]
          exact hout
  apply ends_evaluatePending_of
  · exact fun _ => rfl
  · exact harrive.mono fun _ _ ht _ => ht
  · intro u hu
    rw [← harrive.of_ok hu]
    exact Ends.keeps keeps_output_feedRest

/-! ### Drawing a token -/

/-- What is shown, what the sampler was told, and the step: what is left alone by the work before a
draw. -/
private theorem ends_savePrompt_shown (s : Session) :
    Ends savePrompt s fun _ t => t.output = s.output ∧ t.guidance = s.guidance ∧
      t.config = s.config ∧ t.turnState = s.turnState ∧ t.progress.pending =
        s.progress.pending := by
  have houtput : Keeps Session.output savePrompt := by
    refine .bind .get fun _ => ?_
    refine .onlyIf _ ?_
    refine .bind (.modify fun _ => rfl) fun _ => ?_
    refine .bind (.bind (keeps_onBench (fun _ _ => rfl) _ _) fun _ => .pure _) fun _ => ?_
    exact .modify fun _ => rfl
  apply ((ends_savePrompt s).and
    ((Ends.keeps houtput).and (Ends.keeps frame_turnAndConfig.keeps_savePrompt))).mono
  rintro r t ⟨⟨hsettled, hsaved⟩, hout, hturnAndConfig⟩
  obtain ⟨hturnState, hconfig⟩ := turnAndConfig_eq hturnAndConfig
  refine ⟨hout, guidance_of_settled hsettled, hconfig, hturnState, ?_⟩
  change t.mainContext.pending = s.mainContext.pending
  generalize t.mainContext = u at hsaved
  cases hsaved <;> rfl

/-- Without guidance a token at most is drawn, and the sampler is told of it. -/
theorem ends_refill_drawing (hg : s.guidance = none) (hpending : s.progress.pending = [])
    (hq : s.progress.queueDrained = true) (hu : s.progress.userTurn = false) :
    Ends refill s fun r t => r = .ok () →
      t.progress.pending.length ≤ 1 ∧ t.output = s.output ∧ t.config = s.config ∧
        t.turnState.calls = s.turnState.calls ++ t.progress.pending.flatMap Call.drawing ∧
        (t.progress.pending = [] ∨ t.progress.echo = true) := by
  have hdraws : (s.progress.queueDrained && !s.progress.userTurn) = true := by
    rw [hq, hu]
    rfl
  simp only [refill, ends_bind, ends_get, hdraws, if_true, enter, ends_modify, ends_ite]
  split
  · intro _
    refine ⟨?_, rfl, rfl, ?_, .inl hpending⟩
    · rw [show _ = _ from hpending]
      exact Nat.zero_le _
    · change s.turnState.calls = s.turnState.calls ++ s.progress.pending.flatMap Call.drawing
      rw [hpending, List.flatMap_nil, List.append_nil]
  · simp only [drawNext, ends_bind]
    apply (ends_savePrompt_shown _).mono
    rintro r t ⟨hout, hguidance, hconfig, hturnState, hnone⟩
    replace hnone : t.progress.pending = [] := hnone.trans hpending
    replace hguidance : t.guidance = none := hguidance.trans hg
    cases r with
    | error e => rintro ⟨⟩
    | ok _ =>
      simp only [ends_get, hguidance, Option.isSome_none, Bool.false_and, ends_call,
        Engine.ends_sample]
      split
      · rintro ⟨⟩
      · intro _
        generalize t.engine.script.headD Token.eos = token
        refine ⟨?_, hout, hconfig, ?_, .inr rfl⟩
        · change (t.progress.pending ++ [token]).length ≤ 1
          rw [hnone]
          exact Nat.le_refl _
        · change
            ((t.engine.calls.push (.sample false)).push (.accept token true)).toList.filter
              Call.onSampler =
            s.turnState.calls ++ (t.progress.pending ++ [token]).flatMap Call.drawing
          rw [Engine.samplerCalls_push rfl, Engine.samplerCalls_push rfl, hnone]
          change t.turnState.calls ++ _ ++ _ = _
          rw [hturnState, List.append_assoc]
          rfl

/-- Nothing is shown, and the step stays, when a turn is concluded that nobody answers. -/
theorem ends_conclude_alone (hi : s.config.interactive = false)
    (hins : s.config.instruct = false) :
    Ends conclude s fun _ t => t.outputAndPending = s.outputAndPending := by
  have hfinish (phase : Phase) (reason : StopReason) :
      Keeps outputAndPending (finish phase reason) := by
    refine .bind (.modify fun _ => rfl) fun _ => ?_
    refine .bind .get fun _ => ?_
    exact .bind (.modify fun _ => rfl) fun _ => .pure _
  have hturn (reason : StopReason) : Keeps outputAndPending (finishIfUserTurn reason) :=
    .bind .get fun _ => .ite (.bind (hfinish _ _) fun _ => .pure _) (.pure _)
  have hrenew : Ends (onlyIf s.budgetSpent renewBudget) s fun r t =>
      r = .ok () ∧ t.config = s.config ∧ t.outputAndPending = s.outputAndPending := by
    rw [ends_onlyIf]
    split <;> exact ⟨rfl, rfl, rfl⟩
  have hhands (spent : Bool) {t : Session} (ht : t.config = s.config) :
      Ends (concludeDrained spent) t fun _ u => u.outputAndPending = t.outputAndPending := by
    simp only [concludeDrained, handOver, ends_bind]
    apply (ends_reportAntiprompt t).mono
    rintro _ u ⟨rfl, journal, rfl⟩
    have hback : ({ t with journal } : Session).handback.injects = false ∧
        ({ t with journal } : Session).handback.toUser = false := by
      simp [handback, Handback.decide, ht, hi, hins]
    simp only [ends_get, ends_onlyIf, hback.1, hback.2, Bool.and_false, Bool.false_eq_true,
      if_false, ends_advance, ends_pure, ends_ite, ends_bind, ends_report]
    split
    · apply (Ends.keeps (hfinish _ _)).mono
      intro r v hv
      cases r <;> exact hv
    · exact Ends.keeps (hturn _)
  simp only [conclude, ends_bind, ends_get]
  apply hrenew.mono
  rintro _ t ⟨rfl, hconfig, ht⟩
  rw [← ht]
  simp only [ends_ite]
  split
  · exact Ends.keeps (.bind (hfinish _ _) fun _ => .pure _)
  · split
    · exact hhands _ hconfig
    · exact Ends.keeps (hturn _)

/-- The next step is shown as it is. -/
theorem ends_display_outputAndPending (hroom : s.output.room = none)
    (hecho : s.progress.pending = [] ∨ s.progress.echo = true) :
    Ends display s fun _ t => t.turnAndConfig = s.turnAndConfig ∧
      t.outputAndPending = (s.progress.pending.foldl (fun o t => o.write t.text) s.output,
        s.progress.pending) := by
  simp only [display, ends_bind, ends_get, ends_onlyIf, enter, ends_modify]
  split
  · have hroom' : ({ s with phase := .displaying } : Session).output.room = none := hroom
    apply (ends_forM_showToken _ _ hroom').mono
    rintro _ u ⟨rfl, transcript, rfl⟩
    exact ⟨rfl, rfl⟩
  · next hsilent =>
    refine ⟨trivial, ?_⟩
    rw [outputAndPending, hecho.resolve_right hsilent]
    rfl

/-- The next token is drawn and shown, and nothing else is. -/
theorem Drawing.ends_takeStep (h : s.Drawing) :
    Ends takeStep s fun r t => ∀ o, r = .ok o →
      t.progress.pending.length ≤ 1 ∧
        t.turnState.calls = s.turnState.calls ++ t.progress.pending.flatMap Call.drawing ∧
        t.output = t.progress.pending.foldl (fun o t => o.write t.text) s.output := by
  have hcleared : clearPending s = .ok () (left (clearPending s)) := rfl
  rw [takeStep, ends_bind, ends_iff_of_eq_ok hcleared]
  dsimp only
  rw [ends_bind]
  apply (ends_refill_drawing (s := left (clearPending s)) h.guidance rfl h.drained h.turn).mono
  intro r t ht
  cases r with
  | error e => rintro _ ⟨⟩
  | ok _ =>
    obtain ⟨hlength, hout, hconfig, hcalls, hecho⟩ := ht rfl
    have hroom : t.output.room = none := by
      rw [hout]
      exact h.room
    dsimp only
    rw [ends_bind]
    apply (ends_display_outputAndPending hroom hecho).mono
    rintro r u ⟨hturnAndConfig, houtputAndPending⟩
    cases r with
    | error e => rintro _ ⟨⟩
    | ok _ =>
      obtain ⟨hturnState, hconfig'⟩ := turnAndConfig_eq hturnAndConfig
      have hinteractive : u.config.interactive = false := by
        rw [hconfig', hconfig]
        exact h.interactive
      have hinstruct : u.config.instruct = false := by
        rw [hconfig', hconfig]
        exact h.instruct
      apply ((ends_conclude_alone hinteractive hinstruct).and (ends_conclude_turnState u)).mono
      rintro r v ⟨hv, -, hconcluded⟩ o -
      obtain ⟨houtput, hpending⟩ := Prod.mk.inj (hv.trans houtputAndPending)
      rw [hconcluded.calls_eq, hturnState, houtput, hpending, hout]
      exact ⟨hlength, hcalls, rfl⟩

/-! ### Turns -/

/-- The bytes of the texts of some tokens. -/
def textBytes (tokens : List Token) : List UInt8 := tokens.flatMap fun t => Text.utf8 t.text

/-- The bytes of two lists of tokens follow each other. -/
theorem textBytes_append (a b : List Token) : textBytes (a ++ b) = textBytes a ++ textBytes b :=
  List.flatMap_append

/-- Once the next step is evaluated, a pass draws and shows a token at most, and nothing else. -/
theorem Drawing.exists_drawn_of_goes_on {u v : Session} (h : v.Drawing)
    (hv : evaluatePending u = .ok none v) {o : Option Outcome} {t : Session}
    (hpass : pass u = .ok o t) : ∃ drawn : List Token,
      t.turnState.calls = v.turnState.calls ++ drawn.flatMap Call.drawing ∧
        t.output.shown.toList = v.output.shown.toList ++ textBytes drawn ∧
        (o = none → t.Drawing ∧ t.progress.pending.length ≤ 1) := by
  have hstep : takeStep v = .ok o t := (pass_eq_takeStep hv).symm.trans hpass
  have hturnState : v.turnState = u.turnState :=
    (turnAndConfig_eq (frame_turnAndConfig.keeps_evaluatePending.of_ok hv)).1
  have hsettled := ((Session.ends_takeStep v).of_ok hstep).1
  obtain ⟨hlength, hcalls, hshown⟩ := h.ends_takeStep.of_ok hstep o rfl
  obtain ⟨hroom, hbytes⟩ := shown_foldl_write t.progress.pending h.room
  refine ⟨t.progress.pending, hcalls, ?_, ?_⟩
  · rw [hshown, hbytes]
    rfl
  · rintro rfl
    obtain ⟨hdrained, hturn⟩ :=
      pass_drained hpass ((congrArg TurnState.drained hturnState).symm.trans h.drained)
    exact ⟨h.of_settled hsettled (hshown ▸ hroom) hdrained hturn, hlength⟩

/-- In a pass a token at most is drawn and shown, and nothing else is. -/
theorem Drawing.exists_drawn_pass (h : s.Drawing) (hpending : s.progress.pending.length ≤ 1)
    {o : Option Outcome} {t : Session} (hpass : pass s = .ok o t) : ∃ drawn : List Token,
      t.turnState.calls = s.turnState.calls ++ drawn.flatMap Call.drawing ∧
        t.output.shown.toList = s.output.shown.toList ++ textBytes drawn ∧
        (o = none → t.Drawing ∧ t.progress.pending.length ≤ 1) := by
  obtain ⟨r, v, hv, hrest⟩ := bind_eq_ok hpass
  have hout : v.output = s.output := (ends_evaluatePending_shown hpending h.maxStep).of_ok hv
  obtain ⟨hturnState, -⟩ := turnAndConfig_eq (frame_turnAndConfig.keeps_evaluatePending.of_ok hv)
  cases r with
  | some reason =>
    obtain ⟨outcome, u, hu, hrest⟩ := bind_eq_ok hrest
    cases hrest
    have hfinished : Keeps (fun s : Session => (s.turnState.calls, s.output))
        (finish .terminated reason) := by
      refine .bind (.modify fun _ => rfl) fun _ => ?_
      refine .bind .get fun _ => ?_
      exact .bind (.modify fun _ => rfl) fun _ => .pure _
    obtain ⟨hcalls, hout'⟩ := Prod.mk.inj (hfinished.of_ok hu)
    refine ⟨[], ?_, ?_, nofun⟩
    · rw [hcalls, hturnState, List.flatMap_nil, List.append_nil]
    · rw [hout', hout, textBytes, List.flatMap_nil, List.append_nil]
  | none =>
    have hsettled := ((ends_evaluatePending s).of_ok hv).1
    have hdrawing : v.Drawing := h.of_settled hsettled (hout ▸ h.room)
      ((congrArg TurnState.drained hturnState).trans h.drained)
      ((congrArg TurnState.userTurn hturnState).trans h.turn)
    rw [← hturnState, ← hout]
    exact hdrawing.exists_drawn_of_goes_on hv hpass

/-- A turn that draws by itself shows the tokens that it draws, and nothing else. -/
theorem Drawing.exists_drawn (h : s.Drawing) (hpending : s.progress.pending.length ≤ 1)
    {outcome : Outcome} {t : Session} (ht : answer s = .ok outcome t) : ∃ drawn : List Token,
      t.turnState.calls = s.turnState.calls ++ drawn.flatMap Call.drawing ∧
        t.output.shown.toList = s.output.shown.toList ++ textBytes drawn := by
  fun_induction answer s with
  | case1 s e s' hpass => cases ht
  | case2 s o s' hpass =>
    cases ht
    obtain ⟨drawn, hcalls, hshown, -⟩ := h.exists_drawn_pass hpending hpass
    exact ⟨drawn, hcalls, hshown⟩
  | case3 s s' hpass ih =>
    obtain ⟨drawn, hcalls, hshown, hgo⟩ := h.exists_drawn_pass hpending hpass
    obtain ⟨hdrawing, hpending'⟩ := hgo rfl
    obtain ⟨more, hcalls', hshown'⟩ := ih hdrawing hpending' ht
    refine ⟨drawn ++ more, ?_, ?_⟩
    · rw [hcalls', hcalls, List.append_assoc, List.flatMap_append]
    · rw [hshown', hshown, List.append_assoc, textBytes_append]

/-- Once the next step is evaluated, a turn that draws by itself shows the tokens that it draws, and
nothing else. -/
theorem Drawing.exists_drawn_of_evaluated {u v : Session} (h : v.Drawing)
    (hv : evaluatePending u = .ok none v) {outcome : Outcome} {t : Session}
    (ht : answer u = .ok outcome t) : ∃ drawn : List Token,
      t.turnState.calls = v.turnState.calls ++ drawn.flatMap Call.drawing ∧
        t.output.shown.toList = v.output.shown.toList ++ textBytes drawn := by
  rw [answer_eq] at ht
  cases hpass : pass u with
  | error e w =>
    rw [hpass] at ht
    cases ht
  | ok o w =>
    obtain ⟨drawn, hcalls, hshown, hgo⟩ := h.exists_drawn_of_goes_on hv hpass
    rw [hpass] at ht
    cases o with
    | some o =>
      cases ht
      exact ⟨drawn, hcalls, hshown⟩
    | none =>
      obtain ⟨hdrawing, hpending⟩ := hgo rfl
      obtain ⟨more, hcalls', hshown'⟩ := hdrawing.exists_drawn hpending ht
      refine ⟨drawn ++ more, ?_, ?_⟩
      · rw [hcalls', hcalls, List.append_assoc, List.flatMap_append]
      · rw [hshown', hshown, List.append_assoc, textBytes_append]

end Session

end Dialogue
