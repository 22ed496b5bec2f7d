import Dialogue.Proofs.Prompting
import Dialogue.Proofs.FileSteps
import Dialogue.Proofs.TransientFaults
/-!
# Turns struck by transient faults

A turn that is struck while room is made, or while a token is drawn, goes on from there when it is
asked for again: a step that was cut is short enough, a prompt that was saved is not to be saved,
and what was evicted stays evicted. It comes to what it comes to where no fault is to come.
-/

namespace Dialogue

open Effect

/-- Whether a failure is the engine's. -/
def SessionError.OfEngine (e : SessionError) : Prop := ∃ cause, e = .engine cause

/-- Saving the session file leaves the progress as it was. -/
theorem Workbench.keeps_progress_saveOrDisable {ε : Type} (tokens : List Token) :
    Keeps Workbench.progress (Cache.saveOrDisable tokens : WorkM ε Bool) := by
  have hsaves (path : String) : Keeps Workbench.progress (Cache.save path tokens) := by
    refine .bind (.adaptExcept _ (.onPart (g := fun _ => ()) (fun _ => rfl) fun _ _ _ => rfl))
      fun state => .bind .get fun w => ?_
    split
    · exact .throw _
    · exact .bind (.modify fun _ => rfl) fun _ => .modify fun _ => rfl
  refine .bind .get fun w => ?_
  dsimp only
  split
  · exact .pure _
  · refine .ite (.pure _) (.bind (.attempt (hsaves _)) fun r => ?_)
    cases r with
    | ok u => exact .pure _
    | error e =>
      exact .bind (.bind (.modify fun _ => rfl) fun _ => .modify fun _ => rfl) fun _ => .pure _

namespace Session

variable {ε α : Type} {m : Redaction} {s t : Session}

/-- How many draws, removals and moves are to fail. -/
def transient (s : Session) : Nat := s.toWorkbench.transient

private theorem progress_of_redacted {hides : Service → Bool}
    (h : s.redacted (.over hides) = t.redacted (.over hides)) : s.progress = t.progress :=
  Workbench.progress_of_redacted (congrArg Session.toWorkbench h)

private theorem window_of_redacted (h : s.redacted m = t.redacted m) : s.window = t.window := by
  have hwindow := congrArg Session.window h
  exact hwindow

private theorem predict_of_redacted (h : s.redacted m = t.redacted m) :
    s.config.predict = t.config.predict := by
  have hpredict := congrArg (fun v : Session => v.config.predict) h
  exact hpredict

/-- What leaves the hidden calls alone leaves the faults that are to come there. -/
theorem keeps_transient {x : SessionM α} (h : Heedless .transient x) : Keeps transient x :=
  fun s => congrArg (fun hidden => hidden.2.transient) (h.keeps_left s)

/-- Work on the bench is struck as it is there. -/
theorem resumes_onBench (wrap : ε → SessionError) {E : ε → Workbench → Prop} {x y : WorkM ε α}
    (h : Resumes (Workbench.redacted m) Workbench.transient E x y s.toWorkbench t.toWorkbench)
    (hst : s.redacted m = t.redacted m) :
    Resumes (redacted m) transient
      (fun e u => ∃ cause, (∃ w, E cause w ∧ u = { s with toWorkbench := w }) ∧ e = wrap cause)
      (onBench wrap x) (onBench wrap y) s t := by
  refine .adaptExcept wrap ?_
  refine .onPart h hst (fun _ w he => ⟨w, he, rfl⟩)
    (fun _ _ hs => congrArg Session.toWorkbench hs) ?_ ?_ ?_ ?_
  · intro s t w w' hs hw
    simp only [redacted, Session.mk.injEq] at hs ⊢
    exact ⟨hw, hs.2⟩
  · exact fun _ => rfl
  · exact fun _ _ => rfl
  · exact fun _ _ _ => rfl

/-! ### Making room -/

/-- Making room tells nothing. -/
private theorem makeRoom_eq {w : Window} {guidance : Option Guidance} (hw : s.window = w)
    (hg : s.guidance = guidance) :
    makeRoom s = onBench .engine (discard (w.ensureRoom (guidance.map Guidance.offset))) s := by
  subst hw hg
  exact congrFun (onBench_bind .engine _ fun _ => Pure.pure ()).symm s

/-- Making room is struck only where there is not enough, and can be begun again. -/
theorem resumes_makeRoom (h : s.redacted .transient = t.redacted .transient)
    (ht : t.transient = 0) :
    Resumes (redacted .transient) transient
      (fun e u => e.OfEngine ∧ s.overflows = true ∧
        ∃ w : Workbench, w.progress.pending = s.progress.pending ∧ u = { s with toWorkbench := w })
      makeRoom makeRoom s t := by
  have hroom := resumes_onBench .engine (Workbench.resumes_ensureRoom s.window
    (s.guidance.map Guidance.offset) (congrArg Session.toWorkbench h) ht) h
  have hw := congrArg Session.window h
  have hg := congrArg Session.guidance h
  refine (hroom.congr (makeRoom_eq rfl rfl) (makeRoom_eq hw.symm hg.symm)
    (Nat.le_refl _)).again ?_ ?_
  · rintro _ _ ⟨cause, ⟨w, ⟨hpending, hover⟩, rfl⟩, rfl⟩
    exact ⟨⟨cause, rfl⟩, hover, w, hpending, rfl⟩
  · rintro _ _ ⟨cause, ⟨w, -, rfl⟩, rfl⟩ u - hu
    have hw := congrArg Session.window hu
    have hg := congrArg Session.guidance hu
    exact .of_eq (makeRoom_eq hw hg)

/-! ### Evaluating a step -/

/-- A step that is no longer than it can be is not cut. -/
theorem cutPending_of_le {n : Nat} (h : s.progress.pending.length ≤ n) :
    cutPending n s = .ok () s := by
  change onlyIf (decide (n < s.progress.pending.length)) _ s = _
  rw [decide_eq_false (Nat.not_lt.mpr h)]
  rfl

/-- Where a step is no longer than it can be, and a full context does not end the turn, room is made
for it first. -/
private theorem evaluatePending_eq (hne : s.progress.pending ≠ [])
    (hmax : s.progress.pending.length ≤ s.window.maxStep) (hp : s.config.predict ≠ -2) :
    evaluatePending s = swapAndFeed s := by
  change (if s.progress.pending = [] then Pure.pure none else evaluate : SessionM _) s = _
  rw [if_neg hne]
  change (cutPending s.window.maxStep >>= _ : SessionM _) s = _
  rw [bind_eq_of_ok (cutPending_of_le hmax)]
  change (if (decide (s.config.predict = -2) && s.overflows) = true then _ else swapAndFeed :
    SessionM _) s = _
  rw [decide_eq_false hp, Bool.false_and, if_neg Bool.false_ne_true]

/-- What comes after room was made is in step. -/
private theorem heedless_afterRoom : Heedless .transient (do
    let s ← get
    if s.room = 0 then
      report (.noRoom s.progress.past s.window.keep)
      return some StopReason.contextFull
    else
      feedPending s.room
      return none) := by
  refine .reads (fun _ => rfl) fun _ => ?_
  refine .ite (.bind (unaware_report _).heedless fun _ => .pure _) ?_
  refine .bind ?_ fun _ => .pure _
  refine .bind (unaware_cutPending _).heedless fun _ => ?_
  exact (unaware_feedRest fun stream => by cases stream <;> rfl).heedless

/-- Evaluating a step is struck where room is made for it. The step is short enough then, and can be
evaluated again. -/
theorem resumes_evaluatePending (hmax : 0 < s.window.maxStep)
    (h : s.redacted .transient = t.redacted .transient) (ht : t.transient = 0) :
    Resumes (redacted .transient) transient (fun e _ => e.OfEngine) evaluatePending evaluatePending
      s t := by
  have hprogress := progress_of_redacted h
  refine .reads ?_ (by rw [hprogress])
  split
  · exact .of_inStep (k := fun _ => ()) (.pure _) (.pure _) h
  next hne =>
  refine .reads ?_ (by rw [window_of_redacted h])
  refine .inStep_bind (unaware_cutPending _) (keeps_transient (unaware_cutPending _).heedless) h
    fun _ s₁ t₁ hs₁ ht₁ h₁ => ?_
  obtain ⟨hsettled, hcut⟩ := (ends_cutPending _ s).of_ok hs₁
  have ht₁' : t₁.transient = 0 :=
    ((keeps_transient (unaware_cutPending _).heedless).of_ok ht₁).trans ht
  have hgoes : (s₁.config.predict = -2 && s₁.overflows) =
      (t₁.config.predict = -2 && t₁.overflows) := by
    have hcongr := congrArg (fun v : Session => decide (v.config.predict = -2) && v.overflows) h₁
    exact hcongr
  refine .reads ?_ (by rw [hgoes])
  split
  · exact .of_inStep (.bind (unaware_report _) fun _ => .pure _)
      (keeps_transient (.bind (unaware_report _).heedless fun _ => .pure _)) h₁
  next hfull =>
  refine (resumes_makeRoom h₁ ht₁').bind (fun _ _ he => he.1) ?_ ?_
  -- The step was cut before room was made for it, and still does not fit: begun again, the
  -- evaluation comes to making room.
  · rintro e s' - ⟨-, hover, w, hpending, rfl⟩ u - hus' hsame
    have hpredict := predict_of_redacted hus'
    have hwindow := window_of_redacted hus'
    rw [show _ = s.window from window_of_settled hsettled] at hwindow
    have hstep : u.progress.pending = s.progress.pending.take s.window.maxStep := by
      rw [progress_of_redacted hus']
      exact hpending.trans (congrArg MainContext.pending hcut)
    have heval : evaluatePending u = swapAndFeed u := by
      refine evaluatePending_eq ?_ ?_ ?_
      · rw [hstep]
        rw [Ne, List.take_eq_nil_iff]
        exact not_or.mpr ⟨by omega, hne⟩
      · rw [hstep, hwindow]
        exact List.length_take_le _ _
      · intro hp
        exact hfull (by rw [decide_eq_true (hpredict.symm.trans hp), hover, Bool.and_self])
    exact (SameEnd.of_eq heval).trans (hsame.bind fun _ s₂ t₂ _ _ h₂ =>
      heedless_afterRoom.same s₂ t₂ h₂)
  · intro _ s₂ t₂ _ _ h₂
    exact .of_inStep heedless_afterRoom (keeps_transient heedless_afterRoom) h₂

/-! ### Drawing a token -/

/-- Draws the next token, with guidance or without, where some draws are left. -/
def drawAs (guided : Bool) (remaining : Int) : SessionM Unit := do
  let token ← call (Engine.sample guided)
  accept token true
  report (.sampled token guided remaining)
  advance fun p =>
    { p with pending := p.pending ++ [token], echo := true, remaining := p.remaining - 1 }

/-- Draws the next token once the prompt was saved. -/
def draw : SessionM Unit := do
  let s ← get
  drawAs (s.guidance.isSome && s.progress.guidanceReady) s.progress.remaining

private theorem drawNext_eq : drawNext = (do savePrompt; draw) := rfl

/-- A session that is about to draw, and has nothing to do before. -/
structure AtDraw (s : Session) : Prop where
  /-- It says so. -/
  phase : s.phase = .sampling
  /-- The queue is read. -/
  drained : s.progress.queueDrained = true
  /-- Control is with the session. -/
  turn : s.progress.userTurn = false
  /-- There is something to draw. -/
  unspent : s.budgetSpent = false
  /-- The prompt is not to be saved. -/
  saved : (s.progress.savePending && s.cache.isWritable) = false

/-- Whether a session is about to draw shows. -/
theorem AtDraw.of_redacted (hs : s.AtDraw) (h : t.redacted .transient = s.redacted .transient) :
    t.AtDraw := by
  have hv : (t.redacted .transient).AtDraw := h ▸ ⟨hs.1, hs.2, hs.3, hs.4, hs.5⟩
  exact ⟨hv.1, hv.2, hv.3, hv.4, hv.5⟩

/-- A session that is about to draw does so. -/
theorem AtDraw.refill_eq (hs : s.AtDraw) : refill s = draw s := by
  have hdraws : (s.progress.queueDrained && !s.progress.userTurn) = true := by
    rw [hs.drained, hs.turn]
    rfl
  have henters : enter .sampling s = .ok () s := by
    rw [← hs.phase]
    rfl
  have hsaves : savePrompt s = .ok () s := by
    change onlyIf (s.progress.savePending && s.cache.isWritable) _ s = _
    rw [hs.saved]
    rfl
  change (if (s.progress.queueDrained && !s.progress.userTurn) = true then
    (do enter .sampling; if s.budgetSpent = true then report .budgetSpent else drawNext)
    else _ : SessionM Unit) s = _
  rw [if_pos hdraws, bind_eq_of_ok henters, hs.unspent, if_neg Bool.false_ne_true, drawNext_eq,
    bind_eq_of_ok hsaves]

private theorem resumes_sample (guided : Bool) (h : s.redacted .transient = t.redacted .transient)
    (ht : t.transient = 0) :
    Resumes (redacted .transient) transient
      (fun e u => e.OfEngine ∧ u.redacted .transient = s.redacted .transient)
      (call (Engine.sample guided)) (call (Engine.sample guided)) s t := by
  have hbench := congrArg Session.toWorkbench h
  have hredacted {w w' : Workbench} {e e' : Engine}
      (hw : w.redacted .transient = w'.redacted .transient)
      (he : e.without Service.isTransient = e'.without Service.isTransient) :
      ({ w with engine := e } : Workbench).redacted .transient =
        ({ w' with engine := e' } : Workbench).redacted .transient := by
    simp only [Workbench.redacted, Workbench.mk.injEq] at hw ⊢
    exact ⟨he, hw.2⟩
  have hcalls : Resumes (Workbench.redacted .transient) Workbench.transient
      (fun _ w => w.redacted .transient = s.toWorkbench.redacted .transient)
      (Workbench.call (Engine.sample guided)) (Workbench.call (Engine.sample guided))
      s.toWorkbench t.toWorkbench := by
    refine .onPart (Engine.resumes_sample guided (congrArg Workbench.engine hbench) ht) hbench
      ?_ (fun _ _ hw => congrArg Workbench.engine hw) ?_ ?_ ?_ ?_
    · intro _ e he
      have hself : s.toWorkbench.redacted .transient = s.toWorkbench.redacted .transient := rfl
      exact hredacted hself he
    · exact fun _ _ _ _ hw he => hredacted hw he
    · exact fun _ => rfl
    · exact fun _ _ => rfl
    · exact fun _ _ _ => rfl
  refine (resumes_onBench .engine hcalls h).mono ?_
  rintro _ _ ⟨cause, ⟨w, hw, rfl⟩, rfl⟩
  refine ⟨⟨cause, rfl⟩, ?_⟩
  rw [redacted, redacted, hw]

/-- A draw that is struck leaves all that shows as it was. -/
theorem resumes_draw (h : s.redacted .transient = t.redacted .transient) (ht : t.transient = 0) :
    Resumes (redacted .transient) transient
      (fun e u => e.OfEngine ∧ u.redacted .transient = s.redacted .transient) draw draw s t := by
  have hrest (guided : Bool) (remaining : Int) (token : Token) : Unaware .transient (do
      accept token true
      report (.sampled token guided remaining)
      advance fun p =>
        { p with
          pending := p.pending ++ [token]
          echo := true
          remaining := p.remaining - 1 }) := by
    refine .bind (unaware_accept _ _) fun _ => ?_
    exact .bind (unaware_report _) fun _ => .change (fun _ => rfl) fun _ => rfl
  have hdraws (guided : Bool) (remaining : Int) := (resumes_sample guided h ht).bind_inStep
    (fun token => hrest guided remaining token)
    fun token => keeps_transient (hrest guided remaining token).heedless
  have hasks {u v : Session} (huv : u.redacted .transient = v.redacted .transient) :
      drawAs (u.guidance.isSome && u.progress.guidanceReady) u.progress.remaining =
        drawAs (v.guidance.isSome && v.progress.guidanceReady) v.progress.remaining := by
    have hguidance := congrArg Session.guidance huv
    rw [show u.guidance = v.guidance from hguidance, progress_of_redacted huv]
  refine .again (.reads (hdraws _ _) (hasks h.symm)) (fun _ _ he => he) ?_
  rintro e s' ⟨-, hs'⟩ u - hu
  exact .of_eq (congrFun (hasks (hu.trans hs')) u)

/-- Before a draw the prompt is saved, if it is to be saved; that is done once. -/
theorem ends_savePrompt_done (s : Session) :
    Ends savePrompt s fun _ t => (t.progress.savePending && t.cache.isWritable) = false ∧
      t.phase = s.phase ∧ t.config = s.config ∧
        { t.progress with savePending := false } = { s.progress with savePending := false } := by
  simp only [savePrompt, ends_bind, ends_get, ends_onlyIf]
  split
  · rw [ends_advance]
    simp only [ends_discard, ends_onBench]
    apply (Ends.keeps (Workbench.keeps_progress_saveOrDisable _)).mono
    intro r b hb
    replace hb : b.progress = { s.progress with savePending := false } := hb
    have hsaved : (b.progress.savePending && b.cache.isWritable) = false := by
      rw [hb]
      rfl
    have hprogress : { b.progress with savePending := false } =
        { s.progress with savePending := false } := by rw [hb]
    cases r with
    | error e => exact ⟨hsaved, trivial, trivial, hprogress⟩
    | ok x => exact ⟨hsaved, rfl, rfl, hprogress⟩
  · next h => exact ⟨Bool.eq_false_iff.mpr h, trivial, trivial, trivial⟩

/-- Filling a step is struck where a token is drawn, and can be begun again. -/
theorem resumes_refill (hp : s.progress.pending = []) (hg : s.progress.guidanceInput = [])
    (h : s.redacted .transient = t.redacted .transient) (ht : t.transient = 0) :
    Resumes (redacted .transient) transient
      (fun e u => e.OfEngine ∧ u.progress.pending = [] ∧ u.progress.guidanceInput = [])
      refill refill s t := by
  have hprogress := progress_of_redacted h
  have hspent : s.budgetSpent = t.budgetSpent := by
    have hcongr := congrArg budgetSpent h
    exact hcongr
  refine .reads ?_ (by rw [hprogress, hspent])
  split
  next hdraws =>
    obtain ⟨hdrained, hturn⟩ := Bool.and_eq_true_iff.mp hdraws
    refine .inStep_bind (unaware_enter _) (keeps_transient (unaware_enter _).heedless) h
      fun _ s₁ t₁ hs₁ ht₁ h₁ => ?_
    split
    · exact .of_inStep (unaware_report _) (keeps_transient (unaware_report _).heedless) h₁
    next hunspent =>
    rw [drawNext_eq]
    refine .inStep_bind (heedless_savePrompt rfl) (keeps_transient (heedless_savePrompt rfl)) h₁
      fun _ s₂ t₂ hs₂ ht₂ h₂ => ?_
    cases hs₁
    obtain ⟨hsaved, hphase, hconfig, hprogress₂⟩ := (ends_savePrompt_done _).of_ok hs₂
    have ht₂' : t₂.transient = 0 := by
      rw [(keeps_transient (heedless_savePrompt rfl)).of_ok ht₂]
      exact ((keeps_transient (unaware_enter _).heedless).of_ok ht₁).trans ht
    -- What comes before the draw is done, and does nothing when the step is filled once more.
    have hat : s₂.AtDraw := by
      refine ⟨hphase, ?_, ?_, ?_, hsaved⟩
      · exact (congrArg Progress.queueDrained hprogress₂).trans hdrained
      · exact (congrArg Progress.userTurn hprogress₂).trans ((Bool.not_eq_true' _).mp hturn)
      · have hremaining := congrArg Progress.remaining hprogress₂
        rw [budgetSpent, hconfig, show s₂.progress.remaining = s.progress.remaining from hremaining]
        exact Bool.eq_false_iff.mpr hunspent
    refine (resumes_draw h₂ ht₂').again ?_ ?_
    · rintro e u ⟨he, hu⟩
      have hu' := progress_of_redacted hu
      refine ⟨he, ?_, ?_⟩
      · rw [hu']
        exact (congrArg Progress.pending hprogress₂).trans hp
      · rw [hu']
        exact (congrArg Progress.guidanceInput hprogress₂).trans hg
    · rintro e s' ⟨-, hs'⟩ u - hu
      exact .of_eq (hat.of_redacted (hu.trans hs')).refill_eq
  · exact .of_inStep (.bind (unaware_enter _) fun _ => unaware_drainQueue)
      (keeps_transient (.bind (unaware_enter _).heedless fun _ => unaware_drainQueue.heedless)) h

/-! ### Turns -/

/-- A step that is empty is not emptied. -/
theorem clearPending_of_nil (hp : s.progress.pending = []) (hg : s.progress.guidanceInput = []) :
    clearPending s = .ok () s := by
  have hcleared {p : Progress} (hp : p.pending = []) (hg : p.guidanceInput = []) :
      { p with pending := [], guidanceInput := [] } = p := by
    cases p
    cases hp
    cases hg
    rfl
  change EStateM.Result.ok () { s with
    progress := { s.progress with pending := [], guidanceInput := [] } } = _
  rw [hcleared hp hg]

/-- Taking the next step is struck where a token is drawn. Nothing is to be evaluated then, and the
turn goes on from there. -/
theorem resumes_takeStep (h : s.redacted .transient = t.redacted .transient)
    (ht : t.transient = 0) :
    Resumes (redacted .transient) transient (fun e _ => e.OfEngine) takeStep pass s t := by
  have hshows : Heedless .transient (do display; conclude) :=
    .bind unaware_display.heedless fun _ => unaware_conclude.heedless
  refine .inStep_bind unaware_clearPending (keeps_transient unaware_clearPending.heedless) h
    fun _ s₁ t₁ hs₁ ht₁ h₁ => ?_
  have ht₁' : t₁.transient = 0 :=
    ((keeps_transient unaware_clearPending.heedless).of_ok ht₁).trans ht
  cases hs₁
  refine (resumes_refill rfl rfl h₁ ht₁').bind (fun _ _ he => he.1) ?_ ?_
  · rintro e s' - ⟨-, hp, hg⟩ u - hus' hsame
    rw [← progress_of_redacted hus'] at hp hg
    have hpass : pass u = (do refill; display; conclude) u := by
      rw [pass, bind_eq_of_ok (evaluatePending_of_pending_nil hp)]
      change takeStep u = _
      rw [takeStep, bind_eq_of_ok (clearPending_of_nil hp hg)]
    exact (SameEnd.of_eq hpass).trans (hsame.bind fun _ s₂ t₂ _ _ h₂ => hshows.same s₂ t₂ h₂)
  · intro _ s₂ t₂ _ _ h₂
    exact .of_inStep hshows (keeps_transient hshows) h₂

/-- What a pass does once the pending tokens are evaluated. -/
def afterEvaluation : Option StopReason → SessionM (Option Outcome)
  | some reason => return some (← finish .terminated reason)
  | none => takeStep

private theorem pass_eq : pass = evaluatePending >>= afterEvaluation := rfl

private theorem resumes_afterEvaluation (o : Option StopReason)
    (h : s.redacted .transient = t.redacted .transient) (ht : t.transient = 0) :
    Resumes (redacted .transient) transient (fun e _ => e.OfEngine) (afterEvaluation o) pass s
      t := by
  cases o with
  | none => exact resumes_takeStep h ht
  | some reason =>
    have hends : Unaware .transient (afterEvaluation (some reason)) :=
      .bind (unaware_finish _ _) fun _ => .pure _
    exact .of_inStep hends (keeps_transient hends.heedless) h

/-- A pass that is struck can be made again. -/
theorem resumes_pass (hmax : 0 < s.window.maxStep)
    (h : s.redacted .transient = t.redacted .transient) (ht : t.transient = 0) :
    Resumes (redacted .transient) transient (fun e _ => e.OfEngine) pass pass s t := by
  have hleft {u v : Session} {o : Option StopReason} (hmax : 0 < u.window.maxStep)
      (hu : u.transient = 0) (hv : evaluatePending u = .ok o v) : v.transient = 0 := by
    have hle := (resumes_evaluatePending hmax rfl hu).le
    rw [hv] at hle
    exact Nat.le_zero.mp (hu ▸ hle)
  have hmax' : 0 < t.window.maxStep := window_of_redacted h ▸ hmax
  suffices hpass : Resumes (redacted .transient) transient (fun e _ => e.OfEngine)
      (evaluatePending >>= afterEvaluation) pass s t by rwa [← pass_eq] at hpass
  refine (resumes_evaluatePending hmax h ht).bind (fun _ _ he => he) ?_ ?_
  · intro e s' hs' _ u hu hus' hsame
    have hsettled := ((ends_iff_of_eq_error hs').mp (ends_evaluatePending s)).1
    have hmaxu : 0 < u.window.maxStep := by
      rw [window_of_redacted hus', window_of_settled hsettled]
      exact hmax
    rw [pass_eq]
    exact hsame.bind fun o s₂ t₂ hs₂ ht₂ h₂ =>
      (resumes_afterEvaluation o h₂ (hleft hmax' ht ht₂)).sameEnd_of_eq_zero (hleft hmaxu hu hs₂)
  · exact fun o s₂ t₂ _ ht₂ h₂ => resumes_afterEvaluation o h₂ (hleft hmax' ht ht₂)

/-- What is left of a step after a pass, and of the faults to come. -/
private theorem of_pass {o : Option Outcome} (hmax : 0 < s.window.maxStep) (hs : s.transient = 0)
    (ht : pass s = .ok o t) : 0 < t.window.maxStep ∧ t.transient = 0 := by
  have hsettled := ((ends_pass s).of_ok ht).1
  have hle := (resumes_pass hmax rfl hs).le
  rw [ht, hs] at hle
  rw [window_of_settled hsettled]
  exact ⟨hmax, Nat.le_zero.mp hle⟩

private theorem sameEnd_answer_of_pass (h : SameEnd (redacted .transient) pass pass s t)
    (hrest : ∀ s' t', pass s = .ok none s' → pass t = .ok none t' →
      s'.redacted .transient = t'.redacted .transient →
      SameEnd (redacted .transient) (answer : SessionM Outcome) answer s' t') :
    SameEnd (redacted .transient) (answer : SessionM Outcome) answer s t := by
  unfold SameEnd
  rw [answer_eq s, answer_eq t]
  cases hs : pass s with
  | error e s' =>
    obtain ⟨t', ht, hv⟩ := h.exists_error hs
    rw [ht]
    exact ⟨rfl, hv⟩
  | ok o s' =>
    obtain ⟨t', ht, hv⟩ := h.exists_ok hs
    rw [ht]
    cases o with
    | some outcome => exact ⟨rfl, hv⟩
    | none => exact hrest s' t' hs ht hv

/-- Turns for which no faults are to come end in the same way. -/
theorem sameEnd_answer (hmax : 0 < s.window.maxStep)
    (h : s.redacted .transient = t.redacted .transient) (hs : s.transient = 0)
      (ht : t.transient = 0) :
    SameEnd (redacted .transient) (answer : SessionM Outcome) answer s t := by
  have hpass := (resumes_pass hmax h ht).sameEnd_of_eq_zero hs
  have hmax' : 0 < t.window.maxStep := window_of_redacted h ▸ hmax
  fun_induction answer s generalizing t with
  | case1 s e s' hs' =>
    exact sameEnd_answer_of_pass hpass fun _ _ hn => by cases hs'.symm.trans hn
  | case2 s outcome s' hs' =>
    exact sameEnd_answer_of_pass hpass fun _ _ hn => by cases hs'.symm.trans hn
  | case3 s s' hs' ih =>
    refine sameEnd_answer_of_pass hpass fun u v hu hv huv => ?_
    cases hs'.symm.trans hu
    obtain ⟨hmaxu, hu₀⟩ := of_pass hmax hs hu
    obtain ⟨hmaxv, hv₀⟩ := of_pass hmax' ht hv
    exact ih hmaxu huv hu₀ hv₀ ((resumes_pass hmaxu huv hv₀).sameEnd_of_eq_zero hu₀) hmaxv

/-- A turn that is struck can be taken again. -/
theorem resumes_answer (hmax : 0 < s.window.maxStep)
    (h : s.redacted .transient = t.redacted .transient) (ht : t.transient = 0) :
    Resumes (redacted .transient) transient (fun e _ => e.OfEngine) (answer : SessionM Outcome)
      answer s t := by
  have hmax' : 0 < t.window.maxStep := window_of_redacted h ▸ hmax
  fun_induction answer s generalizing t with
  | case1 s e s' hs' =>
    have hs : answer s = .error e s' := by rw [answer_eq, hs']
    cases resumes_pass hmax h ht with
    | same hsame hle =>
      refine .same (sameEnd_answer_of_pass hsame fun _ _ hn => by cases hs'.symm.trans hn) ?_
      rw [hs]
      rwa [hs'] at hle
    | struck hx he hlt hagain =>
      cases hs'.symm.trans hx
      refine .struck hs he hlt fun u hu hus' => ?_
      have hsettled := ((ends_iff_of_eq_error hs').mp (ends_pass s)).1
      have hmaxu : 0 < u.window.maxStep := by
        rw [window_of_redacted hus', window_of_settled hsettled]
        exact hmax
      refine sameEnd_answer_of_pass (hagain u hu hus') fun u' t' hu' ht' h' => ?_
      exact sameEnd_answer (of_pass hmaxu hu hu').1 h' (of_pass hmaxu hu hu').2
        (of_pass hmax' ht ht').2
  | case2 s outcome s' hs' =>
    have hs : answer s = .ok outcome s' := by rw [answer_eq, hs']
    cases resumes_pass hmax h ht with
    | same hsame hle =>
      refine .same (sameEnd_answer_of_pass hsame fun _ _ hn => by cases hs'.symm.trans hn) ?_
      rw [hs]
      rwa [hs'] at hle
    | struck hx => cases hs'.symm.trans hx
  | case3 s s' hs' ih =>
    have hs : answer s = answer s' := by rw [answer_eq, hs']
    cases resumes_pass hmax h ht with
    | same hsame hle =>
      obtain ⟨t', ht', hv⟩ := hsame.exists_ok hs'
      obtain ⟨hmaxt, ht₀⟩ := of_pass hmax' ht ht'
      have hresumes := ih (window_of_redacted hv ▸ hmaxt) hv ht₀ hmaxt
      rw [hs'] at hle
      exact hresumes.congr hs (by rw [answer_eq, ht']) hle
    | struck hx => cases hs'.symm.trans hx

end Session

end Dialogue
