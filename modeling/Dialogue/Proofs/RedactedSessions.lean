import Dialogue.Proofs.Arriving
import Dialogue.Proofs.Requests
import Dialogue.Proofs.Redaction
import Dialogue.Session.Run
/-!
# Sessions under a redaction

What a session does is in step with itself under a redaction as far as it calls no hidden service
and reads no more of the session file than shows. Where a computation saves the session file, draws
or makes room, that it does so in step is asked for and not shown here, since this depends on the
redaction.
-/

namespace Dialogue

open Effect

namespace Session

variable {ε α : Type} {m : Redaction}

/-- The session as it shows. The session file it began with never does. -/
def redacted (m : Redaction) (s : Session) : Session :=
  { s with
    toWorkbench := s.toWorkbench.redacted m
    config := { s.config with cachePath := none } }

/-- What is kept track of, of the hidden calls and the failures to come there. -/
def hidden (m : Redaction) (s : Session) : List Call × Faults := s.toWorkbench.hidden m

/-- What there is for the session file, whether the session was closed, and what is settled. -/
def filesAndSettled (s : Session) :
    (Directory × Bool × Cache) × Bool × Config × Window × Option Guidance × Nat :=
  (s.toWorkbench.store, s.closed, s.settled)

/-- Whether all that a computation depends on shows, and all that it does, and it leaves the files
and the session cache alone and the session open. -/
abbrev Unaware (m : Redaction) (x : SessionM α) : Prop :=
  InStep (redacted m) (fun s => (s.hidden m, s.filesAndSettled)) x x

/-- Whether all that a computation depends on shows, and all that it does. -/
abbrev Heedless (m : Redaction) (x : SessionM α) : Prop := InStep (redacted m) (hidden m) x x

/-- What leaves the files alone besides depends on nothing that is hidden. -/
theorem Unaware.heedless {x : SessionM α} (h : Unaware m x) : Heedless m x := h.mono Prod.fst

/-! ### Work on the bench -/

private theorem redacted_onBench {s t : Session} {w w' : Workbench}
    (hs : s.redacted m = t.redacted m) (hw : w.redacted m = w'.redacted m) :
    ({ s with toWorkbench := w } : Session).redacted m =
      ({ t with toWorkbench := w' } : Session).redacted m := by
  simp only [redacted, Session.mk.injEq] at hs ⊢
  exact ⟨hw, hs.2⟩

private theorem unaware_onBench (wrap : ε → SessionError) {x : WorkM ε α}
    (h : Workbench.Unaware m x) :
    Unaware m (onBench wrap x) := by
  refine .adaptExcept _ (.onPart h (fun _ _ hs => congrArg Session.toWorkbench hs)
    (fun _ _ _ _ => redacted_onBench) fun s w hw => ?_)
  obtain ⟨hhidden, hstore⟩ := Prod.mk.inj hw
  exact Prod.ext hhidden (congrArg (·, s.closed, s.settled) hstore)

private theorem heedless_onBench (wrap : ε → SessionError) {x : WorkM ε α}
    (h : Workbench.Heedless m x) :
    Heedless m (onBench wrap x) :=
  .adaptExcept _ (.onPart h (fun _ _ hs => congrArg Session.toWorkbench hs)
    (fun _ _ _ _ => redacted_onBench) fun _ _ hw => hw)

/-- A call depends on nothing that is hidden if it does not on an engine. -/
theorem unaware_call {x : EngineM α} (h : Engine.Unaware m.hides x) : Unaware m (call x) :=
  unaware_onBench _ (Workbench.unaware_call h)

/-- A report depends on nothing that is hidden. -/
theorem unaware_report (e : Event) : Unaware m (report e) :=
  .modify id (fun _ => rfl) (fun _ => rfl) (fun _ => rfl) fun _ => rfl

/-- A change of the phase depends on nothing that is hidden. -/
theorem unaware_enter (phase : Phase) : Unaware m (enter phase) :=
  .change (fun _ => rfl) fun _ => rfl

private theorem unaware_write (text : String) : Unaware m (write text) :=
  .reads (fun _ => rfl) fun _ => .bind (.change (fun _ => rfl) fun _ => rfl) fun _ => .failIf _ _

/-! ### Evaluating a step -/

/-- Cutting the step depends on nothing that is hidden. -/
theorem unaware_cutPending (max : Nat) : Unaware m (cutPending max) := by
  refine .reads (fun _ => rfl) fun _ => ?_
  refine .onlyIf _ ?_
  refine .bind (.change (fun _ => rfl) fun _ => rfl) fun _ => ?_
  exact .bind (unaware_report _) fun _ => unaware_write _

private theorem heedless_makeRoom (hremove : m.hides .remove = false)
    (hshift : m.hides .shift = false) :
    Heedless m makeRoom :=
  .reads (fun _ => rfl) fun _ =>
    .bind (heedless_onBench _ (Workbench.heedless_ensureRoom hremove hshift _ _)) fun _ => .pure _

private theorem heedless_arrive (hremove : m.hides .remove = false)
    (hshift : m.hides .shift = false) :
    Heedless m arrive := by
  refine .reads (fun _ => rfl) fun _ => ?_
  refine .bind (unaware_cutPending _).heedless fun _ => ?_
  refine .reads (fun _ => rfl) fun _ => ?_
  refine .ite (.bind (unaware_report _).heedless fun _ => .pure _) ?_
  refine .bind (heedless_makeRoom hremove hshift) fun _ => ?_
  refine .reads (fun _ => rfl) fun _ => ?_
  refine .ite ?_ ?_
  · exact .bind (unaware_report _).heedless fun _ => .pure _
  · exact .bind (unaware_cutPending _).heedless fun _ => .pure _

/-- Giving the step up depends on nothing that is hidden. -/
theorem unaware_clearPending : Unaware m clearPending := .change (fun _ => rfl) fun _ => rfl

/-- Feeding the guidance context depends on nothing that is hidden if the calls for that show. -/
theorem unaware_feedGuidance (h : m.hides (.decode .guidance) = false) :
    Unaware m feedGuidance := by
  refine .reads (fun _ => rfl) fun s => ?_
  split
  · exact .pure _
  · refine .bind (unaware_onBench _ (.attempt (Workbench.unaware_step h _ _))) fun r => ?_
    cases r with
    | ok u => exact .pure _
    | error e => exact unaware_report _

/-- Feeding the main context depends on nothing that is hidden if the calls for that show and the
log does. -/
theorem unaware_feedMain (h : m.hides (.decode .main) = false)
    (hlogs : ∀ n, Unaware m (logPending n)) : Unaware m feedMain := by
  refine .reads (fun _ => rfl) fun s =>
    .bind (unaware_onBench _ (.attempt (Workbench.unaware_feed h _ _))) fun r => ?_
  cases r with
  | ok u => exact .bind (.change (fun _ => rfl) fun _ => rfl) fun _ => hlogs _
  | error e =>
    refine .bind (.change (fun _ => rfl) fun _ => rfl) fun _ => ?_
    refine .reads (fun _ => rfl) fun _ => ?_
    refine .bind (unaware_report _) fun _ => ?_
    refine .bind (hlogs _) fun _ => ?_
    refine .reads (fun _ => rfl) fun _ => ?_
    refine .onlyIf _ ?_
    refine .bind unaware_clearPending fun _ => ?_
    exact .bind (.change (fun _ => rfl) fun _ => rfl) fun _ => .throw _

/-- A step is evaluated in step if what arrives of it is fed in step. -/
theorem heedless_evaluatePending (hremove : m.hides .remove = false)
    (hshift : m.hides .shift = false) (hfeeds : Heedless m feedRest) :
    Heedless m evaluatePending := by
  refine .reads (fun _ => rfl) fun s => .ite (.pure _) ?_
  rw [evaluate_eq]
  refine .bind (heedless_arrive hremove hshift) fun r => ?_
  cases r with
  | none => exact .bind hfeeds fun _ => .pure _
  | some reason => exact .pure _

/-! ### Taking the next step -/

/-- Accepting a token depends on nothing that is hidden. -/
theorem unaware_accept (token : Token) (sampled : Bool) : Unaware m (accept token sampled) :=
  .bind (unaware_call (Engine.unaware_note rfl)) fun _ => .change (fun _ => rfl) fun _ => rfl

/-- Taking tokens from the queue depends on nothing that is hidden. -/
theorem unaware_drainQueue : Unaware m drainQueue := by
  refine .reads (fun _ => rfl) fun _ => ?_
  refine .bind (unaware_report _) fun _ => ?_
  exact .forM fun _ _ => .bind (unaware_accept _ _) fun _ => .change (fun _ => rfl) fun _ => rfl

/-- Drawing a token depends on nothing that is hidden if draws show and saving the prompt does. -/
theorem heedless_drawNext (h : m.hides .sample = false) (hsaves : Heedless m savePrompt) :
    Heedless m drawNext := by
  refine .bind hsaves fun _ => ?_
  refine .reads (fun _ => rfl) fun _ => ?_
  refine .bind (unaware_call (Engine.unaware_sample h _)).heedless fun _ => ?_
  refine .bind (unaware_accept _ _).heedless fun _ => ?_
  exact .bind (unaware_report _).heedless fun _ => .change (fun _ => rfl) fun _ => rfl

private theorem heedless_refill (hdraws : Heedless m drawNext) : Heedless m refill := by
  refine .reads (fun _ => rfl) fun _ => ?_
  refine .ite ?_ ?_
  · exact .bind (unaware_enter _).heedless fun _ => .ite (unaware_report _).heedless hdraws
  · exact .bind (unaware_enter _).heedless fun _ => unaware_drainQueue.heedless

/-- Showing a step depends on nothing that is hidden. -/
theorem unaware_display : Unaware m display := by
  refine .reads (fun _ => rfl) fun _ => ?_
  refine .onlyIf _ ?_
  refine .bind (unaware_enter _) fun _ => ?_
  exact .forM fun _ _ => .bind (unaware_write _) fun _ => .change (fun _ => rfl) fun _ => rfl

private theorem unaware_handOver : Unaware m handOver := by
  have hreports : Unaware m reportAntiprompt := by
    refine .reads (fun _ => rfl) fun s => ?_
    split
    · exact .pure _
    · exact unaware_report _
  have hqueues : Unaware m queueAntiprompt := by
    refine .reads (fun _ => rfl) fun s => ?_
    split
    · exact .pure _
    · exact .bind (unaware_call (Engine.unaware_tokenize _ _ _)) fun _ =>
        .change (fun _ => rfl) fun _ => rfl
  refine .bind hreports fun _ => ?_
  refine .reads (fun _ => rfl) fun _ => ?_
  refine .bind (.onlyIf _ hqueues) fun _ => ?_
  refine .bind (.onlyIf _ (.bind (unaware_report _) fun _ => unaware_write _)) fun _ => ?_
  exact .bind (.change (fun _ => rfl) fun _ => rfl) fun _ => .pure _

/-- Finishing a turn depends on nothing that is hidden. -/
theorem unaware_finish (phase : Phase) (reason : StopReason) : Unaware m (finish phase reason) := by
  refine .bind (unaware_enter _) fun _ => ?_
  refine .reads (fun _ => rfl) fun _ => ?_
  exact .bind (unaware_report _) fun _ => .pure _

/-- Deciding whose turn it is depends on nothing that is hidden. -/
theorem unaware_conclude : Unaware m conclude := by
  have hfinishes (reason : StopReason) : Unaware m (finishIfUserTurn reason) :=
    .reads (fun _ => rfl) fun _ => .ite (.bind (unaware_finish _ _) fun _ => .pure _) (.pure _)
  have hdrained (spent : Bool) : Unaware m (concludeDrained spent) := by
    refine .bind unaware_handOver fun _ => ?_
    refine .ite ?_ (hfinishes _)
    refine .bind (unaware_report _) fun _ => ?_
    exact .bind (unaware_finish _ _) fun _ => .pure _
  refine .reads (fun _ => rfl) fun _ => ?_
  refine .bind (.onlyIf _ (.reads (fun _ => rfl) fun _ => .change (fun _ => rfl) fun _ => rfl))
    fun _ => ?_
  exact .ite (.bind (unaware_finish _ _) fun _ => .pure _) (.ite (hdrained _) (hfinishes _))

/-- Taking the next step depends on nothing that is hidden if drawing does not. -/
theorem heedless_takeStep (hdraws : Heedless m drawNext) : Heedless m takeStep := by
  refine .bind unaware_clearPending.heedless fun _ => ?_
  refine .bind (heedless_refill hdraws) fun _ => ?_
  exact .bind unaware_display.heedless fun _ => unaware_conclude.heedless

/-! ### Turns -/

/-- A pass depends on nothing that is hidden if evaluating and drawing do not. -/
theorem heedless_pass (hevaluates : Heedless m evaluatePending) (hdraws : Heedless m drawNext) :
    Heedless m pass := by
  refine .bind hevaluates fun r => ?_
  cases r with
  | none => exact heedless_takeStep hdraws
  | some reason => exact .bind (unaware_finish _ _).heedless fun _ => .pure _

/-- Turns are in step if their passes are. -/
theorem heedless_answer (h : Heedless m pass) : Heedless m (answer : SessionM Outcome) := by
  have hkeeps : Keeps (hidden m) (answer : SessionM Outcome) := fun s => by
    fun_induction answer s with
    | case1 s e t hpass | case2 s outcome t hpass =>
      have ht := h.keeps_left s
      rwa [hpass] at ht
    | case3 s t hpass ih =>
      have ht := h.keeps_left s
      rw [hpass] at ht
      exact ih.trans ht
  refine ⟨fun s t hst => ?_, hkeeps, hkeeps⟩
  fun_induction answer s generalizing t with
  | case1 s e s' hpass =>
    obtain ⟨t', htpass, hp⟩ := h.exists_error hst hpass
    rw [answer_eq t, htpass]
    exact ⟨rfl, hp⟩
  | case2 s outcome s' hpass =>
    obtain ⟨t', htpass, hp⟩ := h.exists_ok hst hpass
    rw [answer_eq t, htpass]
    exact ⟨rfl, hp⟩
  | case3 s s' hpass ih =>
    obtain ⟨t', htpass, hp⟩ := h.exists_ok hst hpass
    rw [answer_eq t, htpass]
    exact ih t' hp

/-- A query depends on nothing that is hidden. -/
theorem unaware_query (text : String) : Unaware m (query text) := by
  have hqueues (tokens : List Token) : Unaware m (queueTokens tokens) :=
    .change (fun _ => rfl) fun _ => rfl
  have htokenizes (text : String) (addBos special : Bool) :
      Unaware m (call (Engine.tokenize text addBos special)) :=
    unaware_call (Engine.unaware_tokenize _ _ _)
  have hleads : Unaware m queueInstructLead :=
    .reads (fun _ => rfl) fun _ => .onlyIf _ (.bind (.change (fun _ => rfl) fun _ => rfl) fun _ =>
      hqueues _)
  have hinput : Unaware m (queueInput text) := by
    refine .reads (fun _ => rfl) fun _ => ?_
    refine .bind (unaware_write _) fun _ => ?_
    refine .bind hleads fun _ => ?_
    refine .bind (htokenizes _ _ _) fun _ => ?_
    refine .bind (htokenizes _ _ _) fun _ => ?_
    refine .bind (htokenizes _ _ _) fun _ => ?_
    refine .bind (hqueues _) fun _ => ?_
    refine .bind (.onlyIf _ (hqueues _)) fun _ => ?_
    refine .bind (.change (fun _ => rfl) fun _ => rfl) fun _ => ?_
    refine .bind (.change (fun _ => rfl) fun _ => rfl) fun _ => ?_
    exact .reads (fun _ => rfl) fun _ => unaware_report _
  have hrest : Unaware m
      (do
        advance ({ · with echo := false })
        call Engine.resetSampler
        advance fun p => { p.forget with userTurn := false }
        enter .processingQueue) := by
    refine .bind (.change (fun _ => rfl) fun _ => rfl) fun _ => ?_
    refine .bind (unaware_call (Engine.unaware_note rfl)) fun _ => ?_
    exact .bind (.change (fun _ => rfl) fun _ => rfl) fun _ => unaware_enter _
  refine .reads (fun _ => rfl) fun _ => ?_
  refine .bind (.onlyIf _ (unaware_write _)) fun _ => ?_
  refine .bind (.onlyIf _ (.bind (unaware_report _) fun _ => .change (fun _ => rfl) fun _ => rfl))
    fun _ => ?_
  refine .bind (unaware_write _) fun _ => ?_
  exact .ite (.bind hinput fun _ => hrest) (.bind (unaware_report _) fun _ => hrest)

/-! ### Where all of the session file shows -/

section

variable {hides : Service → Bool}

private theorem unaware_logPending (n : Nat) : Unaware (.over hides) (logPending n) :=
  .reads (fun _ => rfl) fun _ => .onlyIf _ (.change (fun _ => rfl) fun _ => rfl)

/-- Feeding what is left of a step depends on nothing that is hidden if decode calls show. -/
theorem unaware_feedRest (h : ∀ stream, hides (.decode stream) = false) :
    Unaware (.over hides) feedRest := by
  refine .bind (.change (fun _ => rfl) fun _ => rfl) fun _ => ?_
  exact .bind (unaware_feedGuidance (h _)) fun _ => unaware_feedMain (h _) unaware_logPending

/-- Saving the prompt depends on nothing that is hidden if snapshots show. -/
theorem heedless_savePrompt (h : hides .takeSnapshot = false) :
    Heedless (.over hides) savePrompt := by
  refine .reads (fun _ => rfl) fun _ => ?_
  refine .onlyIf _ ?_
  refine .bind (.change (fun _ => rfl) fun _ => rfl) fun _ => ?_
  refine .bind (.bind ?_ fun _ => .pure _) fun _ => (unaware_report _).heedless
  exact heedless_onBench _ (Workbench.heedless_saveOrDisable h _)

private theorem heedless_writeTranscript : Heedless (.over hides) writeTranscript := by
  refine .reads (fun _ => rfl) fun s => ?_
  split
  · exact .pure _
  · split
    · exact .change (fun _ => rfl) fun _ => rfl
    · exact .throw _
    · exact .throw _

/-- Closing a session depends on nothing that is hidden if snapshots show. -/
theorem heedless_shutdown (h : hides .takeSnapshot = false) :
    Heedless (.over hides) shutdown := by
  have hsaves : Heedless (.over hides) saveAll := by
    refine .reads (fun _ => rfl) fun _ => ?_
    refine .onlyIf _ ?_
    refine .bind (unaware_report _).heedless fun _ => ?_
    exact .bind (heedless_onBench _ (Workbench.heedless_saveOrDisable h _)) fun _ => .pure _
  refine .reads (fun _ => rfl) fun _ => ?_
  refine .onlyIf _ ?_
  refine .bind (.change (fun _ => rfl) fun _ => rfl) fun _ => ?_
  exact .bind hsaves fun _ => heedless_writeTranscript

end

end Session

end Dialogue
