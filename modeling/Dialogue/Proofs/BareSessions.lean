import Dialogue.Effect.Respects
import Dialogue.Proofs.Arriving
import Dialogue.Proofs.Requests
import Dialogue.Session.Pass
/-!
# Sessions apart from the cells

Without a session file nothing that a session does depends on what its contexts hold, since only a
snapshot reads the cells, nor on the files and the journal. On the tokens accepted last depends what
follows a step, and nothing else. So two sessions without a file that are the same apart from all of
this stay so, as long as the same follows their steps.
-/

namespace Dialogue

open Effect

/-! ### The engine -/

namespace Engine

variable {α : Type}

/-- The engine with empty contexts. -/
def emptied (e : Engine) : Engine := { e with mainCells := .empty, guidanceCells := .empty }

/-- Whether a computation does not depend on the cells. -/
abbrev Cellless (x : EngineM α) : Prop := Respects (fun e e' => e.emptied = e'.emptied) x

private theorem cellless_change {f : Engine → Engine} (F : Engine → Engine)
    (hf : ∀ e, (f e).emptied = F e.emptied) :
    Cellless (MonadState.modifyGet fun e => (PUnit.unit, f e) : EngineM PUnit) :=
  .modify fun e e' h => by rw [hf, hf, h]

/-- What is read besides the cells is the same. -/
theorem cellless_reads {g : Engine → EngineM α} (hg : ∀ e, g e = g e.emptied)
    (h : ∀ e, Cellless (g e)) : Cellless (MonadState.get >>= g) :=
  .reads (fun e e' he => by rw [hg e, hg e', he]) h

private theorem cellless_note (c : Call) : Cellless (note c) :=
  cellless_change (fun e => { e with calls := e.calls.push c }) fun _ => rfl

private theorem cellless_fails (s : Service) : Cellless (fails s) := by
  refine .modifyGet fun e e' h => ⟨?_, ?_⟩
  · have hfaults := congrArg Engine.faults h
    exact congrArg (fun f => (f.schedule s).headD false) hfaults
  · exact congrArg (fun e : Engine => { e with faults := e.faults.next s }) h

private theorem cellless_tokenize (text : String) (addBos special : Bool) :
    Cellless (tokenize text addBos special) := by
  refine .bind (cellless_note _) fun _ => ?_
  refine cellless_reads (fun _ => rfl) fun _ => ?_
  exact .bind (.failIf _ _) fun _ => .pure _

private theorem cellless_setCells (stream : Stream) (c : Engine → Cells) :
    Cellless
      (MonadState.modifyGet fun e => (PUnit.unit, e.setCells stream (c e)) : EngineM PUnit) :=
  cellless_change id fun _ => by cases stream <;> rfl

private theorem cellless_decode (stream : Stream) (tokens : List Token) (start : Int) :
    Cellless (decode stream tokens start) := by
  refine .bind (cellless_note _) fun _ => ?_
  refine cellless_reads (fun _ => rfl) fun _ => ?_
  refine .bind (.failIf _ _) fun _ => ?_
  refine .bind (cellless_fails _) fun _ => ?_
  refine .bind (.failIf _ _) fun _ => ?_
  refine cellless_change (fun e => { e with batches := e.batches.push ⟨stream, tokens, start⟩ }) ?_
  exact fun _ => by cases stream <;> rfl

private theorem cellless_sample (guided : Bool) : Cellless (sample guided) := by
  refine .bind (cellless_note _) fun _ => ?_
  refine .bind (cellless_fails _) fun _ => ?_
  refine .bind (.failIf _ _) fun _ => ?_
  refine .modifyGet fun e e' h => ⟨?_, ?_⟩
  · have hscript := congrArg Engine.script h
    exact congrArg (fun script => script.headD Token.eos) hscript
  · exact congrArg (fun e : Engine => { e with script := e.script.tail }) h

private theorem cellless_removeCells (stream : Stream) (sequence : Option Nat) (first : Int)
    (last : Option Int) : Cellless (removeCells stream sequence first last) := by
  refine .bind (cellless_note _) fun _ => ?_
  refine .bind (cellless_fails _) fun _ => ?_
  exact .bind (.failIf _ _) fun _ => cellless_setCells _ _

private theorem cellless_shiftCells (stream : Stream) (sequence : Nat) (first : Int)
    (last : Option Int) (delta : Int) : Cellless (shiftCells stream sequence first last delta) := by
  refine .bind (cellless_note _) fun _ => ?_
  refine .bind (cellless_fails _) fun _ => ?_
  exact .bind (.failIf _ _) fun _ => cellless_setCells _ _

end Engine

/-! ### The workbench -/

namespace Workbench

variable {ε α : Type} {w w' : Workbench}

/-- The workbench apart from the cells, the files, the journal and the tokens accepted last. -/
def bare (w : Workbench) : Workbench where
  engine := w.engine.emptied
  progress := { w.progress with recent := [] }
  cache := { path := w.cache.path }

/-- The session file and what is logged for it. -/
def filing (w : Workbench) : Option String × List Token := (w.cache.path, w.progress.logged)

/-- Whether two workbenches without a session file are the same apart from the cells, the files, the
journal and the tokens accepted last. -/
structure Twin (w w' : Workbench) : Prop where
  /-- They are the same. -/
  bare : w.bare = w'.bare
  /-- There is no session file, and nothing is logged for one. -/
  filing : w.filing = (none, [])

/-- Neither of the two has a session file. -/
theorem Twin.path (h : Twin w w') : w.cache.path = none ∧ w'.cache.path = none := by
  have hpath : w.cache.path = none := congrArg Prod.fst h.filing
  have hsame := congrArg (fun w => w.cache.path) h.bare
  exact ⟨hpath, hsame.symm.trans hpath⟩

private theorem twin_change {f : Workbench → Workbench} (hf : ∀ w, (f w).bare = (f w.bare).bare)
    (hfiling : ∀ w, (f w).filing = w.filing) :
    Respects Twin (MonadState.modifyGet fun w => (PUnit.unit, f w) : WorkM ε PUnit) :=
  .modify fun w w' h => ⟨by rw [hf w, hf w', h.bare], (hfiling w).trans h.filing⟩

private theorem twin_reads {g : Workbench → WorkM ε α} (hg : ∀ w, g w = g w.bare)
    (h : ∀ w, Respects Twin (g w)) : Respects Twin (MonadState.get >>= g) :=
  .reads (fun w w' hw => by rw [hg w, hg w', hw.bare]) h

private theorem twin_report (e : Event) : Respects Twin (report e : WorkM ε Unit) :=
  twin_change (fun _ => rfl) fun _ => rfl

private theorem twin_setPast (stream : Stream) (n : Int) :
    Respects Twin (advance (·.setPast stream n) : WorkM ε Unit) := by
  cases stream <;> exact twin_change (fun _ => rfl) fun _ => rfl

private theorem twin_call {x : EngineM α} (h : Engine.Cellless x) : Respects Twin (call x) := by
  refine .onPart h (fun w w' hw => congrArg Workbench.engine hw.bare) ?_
  intro w w' e e' hw he
  refine ⟨?_, hw.filing⟩
  have hbare := hw.bare
  simp only [bare, Workbench.mk.injEq] at hbare ⊢
  exact ⟨he, hbare.2⟩

/-- Without a session file there is none to give up. -/
theorem twin_invalidate : Respects Twin (Cache.invalidate : WorkM ε Unit) := by
  refine .of_idle () (fun _ _ h => h.path) fun w hw => ?_
  simp only [Cache.invalidate, ends_bind, ends_get, hw]
  exact ⟨rfl, rfl⟩

private theorem twin_swap (w : Window) (guided : Bool) : Respects Twin (w.swap guided) := by
  have hevicts (past n : Int) : Respects Twin (w.evict guided past n) := by
    refine .bind (twin_call (Engine.cellless_removeCells _ _ _ _)) fun _ => ?_
    refine .bind (twin_call (Engine.cellless_shiftCells _ _ _ _ _)) fun _ => ?_
    refine .bind (twin_change (fun _ => rfl) fun _ => rfl) fun _ => ?_
    exact .onlyIf _ (twin_change (fun _ => rfl) fun _ => rfl)
  refine twin_reads (fun _ => rfl) fun _ => ?_
  refine .bind (twin_report _) fun _ => ?_
  refine .bind (.ite (hevicts _ _) (twin_report _)) fun _ => ?_
  refine .bind twin_invalidate fun _ => ?_
  exact twin_reads (fun _ => rfl) fun _ => .pure _

private theorem twin_ensureRoom (w : Window) (offset : Option Int) :
    Respects Twin (w.ensureRoom offset) :=
  twin_reads (fun _ => rfl) fun _ => .bind (.mapM fun _ _ => twin_swap w _) fun _ => .pure _

private theorem twin_feed (stream : Stream) (tokens : List Token) (batchSize : Nat) :
    Respects Twin (Feed.feed stream tokens batchSize) := by
  have hbatches (l : List (List Token)) (position : Int) (evaluated : Nat) :
      Respects Twin (Feed.batches stream l position evaluated) := by
    induction l generalizing position evaluated with
    | nil => exact .pure _
    | cons batch rest ih =>
      exact .bind (twin_report _) fun _ =>
        .bind (.adaptExcept _ (twin_call (Engine.cellless_decode _ _ _))) fun _ => ih _ _
  refine twin_reads (fun w => by cases stream <;> rfl) fun w =>
    .bind (.attempt (hbatches _ _ _)) fun r => ?_
  cases r with
  | ok past => exact .bind (twin_setPast _ _) fun _ => twin_report _
  | error e => exact .bind (twin_setPast _ _) fun _ => .throw _

private theorem twin_step (g : Guidance) (batchSize : Nat) : Respects Twin (g.step batchSize) := by
  refine twin_reads (fun _ => rfl) fun _ => ?_
  refine .bind (.onlyIf _ (twin_change (fun _ => rfl) fun _ => rfl)) fun _ => ?_
  refine .bind (.attempt (twin_feed _ _ _)) fun r => ?_
  cases r with
  | ok u => exact twin_change (fun _ => rfl) fun _ => rfl
  | error e => exact .bind (twin_change (fun _ => rfl) fun _ => rfl) fun _ => .throw _

end Workbench

/-! ### Sessions -/

namespace Session

variable {ε α : Type} {s t : Session}

/-- The session apart from the cells, the files, the journal, the tokens accepted last, what the
session file held at the beginning, and whether the session was closed. -/
def bare (s : Session) : Session :=
  { s with toWorkbench := s.toWorkbench.bare, matched := 0, closed := false }

/-- Whether two sessions without a session file are the same apart from the cells, the files, the
journal and the tokens accepted last. -/
structure Twin (s t : Session) : Prop where
  /-- They are the same. -/
  bare : s.bare = t.bare
  /-- There is no session file, and nothing is logged for one. -/
  filing : s.filing = (none, [])

/-- The workbenches of twins are twins. -/
theorem Twin.bench (h : s.Twin t) : s.toWorkbench.Twin t.toWorkbench :=
  ⟨congrArg Session.toWorkbench h.bare, h.filing⟩

/-- Twins have the same configuration. -/
theorem Twin.config_eq (h : s.Twin t) : t.config = s.config := by
  have hconfig := congrArg Session.config h.bare
  exact hconfig.symm

private theorem twin_change {f : Session → Session} (hf : ∀ s, (f s).bare = (f s.bare).bare)
    (hfiling : ∀ s, (f s).filing = s.filing) :
    Respects Twin (MonadState.modifyGet fun s => (PUnit.unit, f s) : SessionM PUnit) :=
  .modify fun s t h => ⟨by rw [hf s, hf t, h.bare], (hfiling s).trans h.filing⟩

private theorem twin_reads {g : Session → SessionM α} (hg : ∀ s, g s = g s.bare)
    (h : ∀ s, Respects Twin (g s)) : Respects Twin (MonadState.get >>= g) :=
  .reads (fun s t hst => by rw [hg s, hg t, hst.bare]) h

private theorem twin_onBench (wrap : ε → SessionError) {x : WorkM ε α}
    (h : Respects Workbench.Twin x) : Respects Twin (onBench wrap x) := by
  refine .adaptExcept _ (.onPart h (fun s t hst => hst.bench) ?_)
  intro s t w w' hst hw
  refine ⟨?_, hw.filing⟩
  have hbare := hst.bare
  simp only [bare, Session.mk.injEq] at hbare ⊢
  exact ⟨hw.bare, hbare.2⟩

private theorem twin_call {x : EngineM α} (h : Engine.Cellless x) : Respects Twin (call x) :=
  twin_onBench _ (Workbench.twin_call h)

private theorem twin_report (e : Event) : Respects Twin (report e) :=
  twin_change (fun _ => rfl) fun _ => rfl

private theorem twin_enter (phase : Phase) : Respects Twin (enter phase) :=
  twin_change (fun _ => rfl) fun _ => rfl

private theorem twin_write (text : String) : Respects Twin (write text) :=
  twin_reads (fun _ => rfl) fun _ => .bind (twin_change (fun _ => rfl) fun _ => rfl) fun _ =>
    .failIf _ _

/-! ### Evaluating a step -/

private theorem twin_cutPending (max : Nat) : Respects Twin (cutPending max) := by
  refine twin_reads (fun _ => rfl) fun _ => ?_
  refine .onlyIf _ ?_
  refine .bind (twin_change (fun _ => rfl) fun _ => rfl) fun _ => ?_
  exact .bind (twin_report _) fun _ => twin_write _

private theorem twin_arrive : Respects Twin arrive := by
  have hmakes : Respects Twin makeRoom := twin_reads (fun _ => rfl) fun _ =>
    .bind (twin_onBench _ (Workbench.twin_ensureRoom _ _)) fun _ => .pure _
  refine twin_reads (fun _ => rfl) fun _ => ?_
  refine .bind (twin_cutPending _) fun _ => ?_
  refine twin_reads (fun _ => rfl) fun _ => ?_
  refine .ite (.bind (twin_report _) fun _ => .pure _) ?_
  refine .bind hmakes fun _ => ?_
  refine twin_reads (fun _ => rfl) fun _ => ?_
  refine .ite (.bind (twin_report _) fun _ => .pure _) ?_
  exact .bind (twin_cutPending _) fun _ => .pure _

/-- Twins stay twins when the step is given up. -/
theorem twin_clearPending : Respects Twin clearPending :=
  twin_change (fun _ => rfl) fun _ => rfl

/-- Without a session file nothing is logged. -/
theorem twin_logPending (n : Nat) : Respects Twin (logPending n) := by
  refine .of_idle () (fun _ _ h => h.bench.path) fun s hs => ?_
  simp only [logPending, ends_bind, ends_get, Cache.isActive, hs, Option.isSome_none,
    Bool.and_false]
  exact ⟨rfl, rfl⟩

/-- Where nothing is logged, nothing is skipped. -/
theorem twin_reuse : Respects Twin (advance Progress.reuse) := by
  refine .modify fun s t h => ⟨?_, ?_⟩
  · have hreuse (s : Session) :
        ({ s with progress := s.progress.reuse } : Session).bare =
          ({ s.bare with progress := s.bare.progress.reuse } : Session).bare := rfl
    change ({ s with progress := s.progress.reuse } : Session).bare =
      ({ t with progress := t.progress.reuse } : Session).bare
    rw [hreuse s, hreuse t, h.bare]
  · have hlogged : s.progress.logged = [] := congrArg Prod.snd h.filing
    refine Prod.ext h.bench.path.1 ?_
    change (Progress.reuse s.progress).logged = []
    simp [Progress.reuse, hlogged]

private theorem twin_feedGuidance : Respects Twin feedGuidance := by
  refine twin_reads (fun _ => rfl) fun s => ?_
  split
  · exact .pure _
  · refine .bind (twin_onBench _ (.attempt (Workbench.twin_step _ _))) fun r => ?_
    cases r with
    | ok u => exact .pure _
    | error e => exact twin_report _

private theorem twin_feedMain : Respects Twin feedMain := by
  refine twin_reads (fun _ => rfl) fun s =>
    .bind (twin_onBench _ (.attempt (Workbench.twin_feed _ _ _))) fun r => ?_
  cases r with
  | ok u => exact .bind (twin_change (fun _ => rfl) fun _ => rfl) fun _ => twin_logPending _
  | error e =>
    refine .bind (twin_change (fun _ => rfl) fun _ => rfl) fun _ => ?_
    refine twin_reads (fun _ => rfl) fun _ => ?_
    refine .bind (twin_report _) fun _ => ?_
    refine .bind (twin_logPending _) fun _ => ?_
    refine twin_reads (fun _ => rfl) fun _ => ?_
    refine .onlyIf _ ?_
    refine .bind twin_clearPending fun _ => ?_
    exact .bind (twin_change (fun _ => rfl) fun _ => rfl) fun _ => .throw _

/-- Twins stay twins when the pending tokens are evaluated. -/
theorem twin_evaluatePending : Respects Twin evaluatePending := by
  refine twin_reads (fun _ => rfl) fun s => .ite (.pure _) ?_
  rw [evaluate_eq]
  refine .bind twin_arrive fun r => ?_
  cases r with
  | none =>
    exact .bind (.bind twin_reuse fun _ => .bind twin_feedGuidance fun _ => twin_feedMain)
      fun _ => .pure _
  | some reason => exact .pure _

/-! ### Taking the next step -/

private theorem twin_accept (token : Token) (sampled : Bool) :
    Respects Twin (accept token sampled) :=
  .bind (twin_call (Engine.cellless_note _)) fun _ => twin_change (fun _ => rfl) fun _ => rfl

/-- Without a session file nothing is saved before a draw. -/
theorem twin_savePrompt : Respects Twin savePrompt := by
  refine .of_idle () (fun _ _ h => h.bench.path) fun s hs => ?_
  simp only [savePrompt, ends_bind, ends_get, Cache.isWritable, Cache.isActive, hs,
    Option.isSome_none, Bool.false_and, Bool.and_false]
  exact ⟨rfl, rfl⟩

/-- Twins stay twins when the next step is filled from the queue. -/
theorem twin_refill : Respects Twin refill := by
  have hdraws : Respects Twin drawNext := by
    refine .bind twin_savePrompt fun _ => ?_
    refine twin_reads (fun _ => rfl) fun _ => ?_
    refine .bind (twin_call (Engine.cellless_sample _)) fun _ => ?_
    refine .bind (twin_accept _ _) fun _ => ?_
    exact .bind (twin_report _) fun _ => twin_change (fun _ => rfl) fun _ => rfl
  have hdrains : Respects Twin drainQueue := by
    refine twin_reads (fun _ => rfl) fun _ => ?_
    refine .bind (twin_report _) fun _ => ?_
    exact .forM fun _ _ => .bind (twin_accept _ _) fun _ => twin_change (fun _ => rfl) fun _ => rfl
  refine twin_reads (fun _ => rfl) fun _ => ?_
  refine .ite ?_ ?_
  · exact .bind (twin_enter _) fun _ => .ite (twin_report _) hdraws
  · exact .bind (twin_enter _) fun _ => hdrains

/-- Twins stay twins when a step is shown. -/
theorem twin_display : Respects Twin display := by
  refine twin_reads (fun _ => rfl) fun _ => ?_
  refine .onlyIf _ ?_
  refine .bind (twin_enter _) fun _ => ?_
  exact .forM fun _ _ => .bind (twin_write _) fun _ => twin_change (fun _ => rfl) fun _ => rfl

/-- Twins stay twins when a turn is finished. -/
theorem twin_finish (phase : Phase) (reason : StopReason) :
    Respects Twin (finish phase reason) := by
  refine .bind (twin_enter _) fun _ => ?_
  refine twin_reads (fun _ => rfl) fun _ => ?_
  exact .bind (twin_report _) fun _ => .pure _

/-! ### Handing over -/

/-- Of a reverse prompt that is found nothing shows but an event. -/
theorem reportAntiprompt_eq_ok (s : Session) :
    ∃ journal, reportAntiprompt s = .ok () { s with journal } := by
  have hends : Ends reportAntiprompt s fun r t => ∃ u, r = .ok u ∧
      ∃ journal, t = { s with journal } := by
    simp only [reportAntiprompt, ends_bind, ends_get]
    split
    · exact ⟨(), rfl, s.journal, rfl⟩
    · exact ⟨(), rfl, _, rfl⟩
  obtain ⟨_, _, hs, journal, rfl⟩ := hends.exists_eq_ok
  exact ⟨journal, hs⟩

private theorem twin_queueAntiprompt : Respects Twin queueAntiprompt := by
  refine twin_reads (fun _ => rfl) fun s => ?_
  split
  · exact .pure _
  · exact .bind (twin_call (Engine.cellless_tokenize _ _ _)) fun _ =>
      twin_change (fun _ => rfl) fun _ => rfl

/-- Control is handed over in the same way if the same follows the step. -/
theorem meets_handOver (h : s.Twin t) (hh : s.handback = t.handback) :
    Meets Twin Twin handOver s t := by
  have hrest (h : Handback) : Respects Twin (do
      onlyIf h.injects queueAntiprompt
      onlyIf (h.endOfSequence && h.toUser) do
        report .endOfSequenceFound
        write "\n"
      advance fun p =>
        { p with atAntiprompt := h.atAntiprompt, userTurn := p.userTurn || h.toUser }
      return h) := by
    refine .bind (.onlyIf _ twin_queueAntiprompt) fun _ => ?_
    refine .bind (.onlyIf _ (.bind (twin_report _) fun _ => twin_write _)) fun _ => ?_
    exact .bind (twin_change (fun _ => rfl) fun _ => rfl) fun _ => .pure _
  obtain ⟨journal, hs⟩ := reportAntiprompt_eq_ok s
  obtain ⟨journal', ht⟩ := reportAntiprompt_eq_ok t
  have hreported : Twin { s with journal } { t with journal := journal' } := ⟨h.bare, h.filing⟩
  refine Meets.bind (.ok_ok hs ht hreported) fun _ s' t' hs' ht' h' => ?_
  cases hs.symm.trans hs'
  cases ht.symm.trans ht'
  have hsame : ({ s with journal } : Session).handback =
      ({ t with journal := journal' } : Session).handback := hh
  exact .reads (by rw [hsame]) (hrest _ _ _ h')

/-- A turn ends in the same way if the same follows the step once the queue is read. -/
theorem meets_conclude (h : s.Twin t)
    (hh : s.progress.queueDrained = true → s.handback = t.handback) :
    Meets Twin Twin conclude s t := by
  have hfinishes (reason : StopReason) : Respects Twin (finishIfUserTurn reason) :=
    twin_reads (fun _ => rfl) fun _ => .ite (.bind (twin_finish _ _) fun _ => .pure _) (.pure _)
  have hrenews : Respects Twin (onlyIf s.budgetSpent renewBudget) :=
    .onlyIf _ (twin_reads (fun _ => rfl) fun _ => twin_change (fun _ => rfl) fun _ => rfl)
  have hkeeps : Keeps handback (onlyIf s.budgetSpent renewBudget) :=
    .onlyIf _ (.bind .get fun _ => .modify fun _ => rfl)
  refine .reads (congrArg (fun s : Session => (do
    onlyIf s.budgetSpent renewBudget
    if s.budgetSpent && !s.config.interactive then
      return some (← finish .terminated .budgetExhausted)
    else if s.progress.queueDrained then concludeDrained s.budgetSpent
    else finishIfUserTurn (if s.budgetSpent then .budgetExhausted else .userTurn))) h.bare) ?_
  refine (hrenews s t h).bind fun _ s' t' hs ht h' => ?_
  split
  · exact (twin_finish _ _).bind (fun _ => .pure _) s' t' h'
  · split
    · next hq =>
      have hsame : s'.handback = t'.handback := by
        rw [hkeeps.of_ok hs, hkeeps.of_ok ht, hh hq]
      refine (meets_handOver h' hsame).bind fun handback s₂ t₂ _ _ h₂ => ?_
      exact Respects.ite (.bind (twin_report _) fun _ => .bind (twin_finish _ _) fun _ => .pure _)
        (hfinishes _) s₂ t₂ h₂
    · exact hfinishes _ s' t' h'

/-! ### Hearing the user -/

/-- Twins stay twins after a query. -/
theorem twin_query (text : String) : Respects Twin (query text) := by
  have hqueues (tokens : List Token) : Respects Twin (queueTokens tokens) :=
    twin_change (fun _ => rfl) fun _ => rfl
  have htokenizes (text : String) (addBos special : Bool) :
      Respects Twin (call (Engine.tokenize text addBos special)) :=
    twin_call (Engine.cellless_tokenize _ _ _)
  have hleads : Respects Twin queueInstructLead :=
    twin_reads (fun _ => rfl) fun _ => .onlyIf _ <|
      .bind (twin_change (fun _ => rfl) fun _ => rfl) fun _ => hqueues _
  have hinput : Respects Twin (queueInput text) := by
    refine twin_reads (fun _ => rfl) fun _ => ?_
    refine .bind (twin_write _) fun _ => ?_
    refine .bind hleads fun _ => ?_
    refine .bind (htokenizes _ _ _) fun _ => ?_
    refine .bind (htokenizes _ _ _) fun _ => ?_
    refine .bind (htokenizes _ _ _) fun _ => ?_
    refine .bind (hqueues _) fun _ => ?_
    refine .bind (.onlyIf _ (hqueues _)) fun _ => ?_
    refine .bind (twin_change (fun _ => rfl) fun _ => rfl) fun _ => ?_
    refine .bind (twin_change (fun _ => rfl) fun _ => rfl) fun _ => ?_
    exact twin_reads (fun _ => rfl) fun _ => twin_report _
  have hrest : Respects Twin
      (do
        advance ({ · with echo := false })
        call Engine.resetSampler
        advance fun p => { p.forget with userTurn := false }
        enter .processingQueue) := by
    refine .bind (twin_change (fun _ => rfl) fun _ => rfl) fun _ => ?_
    refine .bind (twin_call (Engine.cellless_note _)) fun _ => ?_
    exact .bind (twin_change (fun _ => rfl) fun _ => rfl) fun _ => twin_enter _
  refine twin_reads (fun _ => rfl) fun _ => ?_
  refine .bind (.onlyIf _ (twin_write _)) fun _ => ?_
  refine .bind (.onlyIf _ (.bind (twin_report _) fun _ => hqueues _)) fun _ => ?_
  refine .bind (twin_write _) fun _ => ?_
  exact .ite (.bind hinput fun _ => hrest) (.bind (twin_report _) fun _ => hrest)

end Session

end Dialogue
