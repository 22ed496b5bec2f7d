import Dialogue.Proofs.CellTokens
import Dialogue.Proofs.Unbatched
import Dialogue.Proofs.Passing
import Dialogue.Session.Run
/-!
# Sessions with the same unbatched view

What a session does besides decoding is in step with itself in the unbatched view. Decoding shows
there as one change, whatever the batches, unless a call fails: the cells take the tokens, the
counter goes on behind them, and they are logged. So two sessions with the same unbatched view of
which no decode call on the main context fails keep it while tokens are drawn one by one, to the end
of the turn.
-/

namespace Dialogue

open Effect

/-- Two lists of tokens are written one behind the other. -/
theorem Cells.write_append (c : Cells) (p : Int) (a b : List Token) :
    c.write p (a ++ b) = (c.write p a).write (p + a.length) b := by
  induction a generalizing c p with
  | nil => simp [write]
  | cons t a ih =>
    have hp : p + 1 + (a.length : Int) = p + ((t :: a).length : Nat) := by
      rw [List.length_cons]
      omega
    rw [List.cons_append, write, write, ih, hp]

/-! ### Decoding -/

namespace Workbench

/-- Puts tokens into the cells of the main context. -/
def written (w : Workbench) (position : Int) (tokens : List Token) : Workbench :=
  { w with engine := { w.engine with mainCells := w.engine.mainCells.write position tokens } }

private theorem written_append (w : Workbench) (position : Int) (a b : List Token) :
    w.written position (a ++ b) = (w.written position a).written (position + a.length) b := by
  simp only [written, Cells.write_append]

/-- Whether no decode call on the main context is to fail. -/
def Decodes (w : Workbench) : Prop := ∀ b ∈ w.mainFaults, b = false

/-- All batches are decoded. In the unbatched view they show as one. -/
theorem ends_batches_unbatched (l : List (List Token)) (position : Int) (evaluated : Nat)
    (w : Workbench) (h : l = [] ∨ w.Decodes) :
    Ends (Feed.batches .main l position evaluated) w fun r t =>
      r = .ok (position + l.flatten.length) ∧
        t.unbatched = w.unbatched.written position l.flatten ∧ (w.Decodes → t.Decodes) := by
  induction l generalizing position evaluated w with
  | nil =>
    refine ⟨?_, rfl, id⟩
    rw [List.flatten_nil, List.length_nil, Int.natCast_zero, Int.add_zero]
  | cons batch rest ih =>
    have hw : w.Decodes := h.resolve_left (List.cons_ne_nil _ _)
    unfold Feed.batches
    rw [ends_bind, ends_report, ends_bind, ends_adaptExcept, ends_call,
      ends_iff_of_eq_ok (Engine.decode_main_eq_ok (headD_of_all_false hw))]
    have htail : ∀ b ∈ w.mainFaults.tail, b = false := fun b hb => hw b (List.mem_of_mem_tail hb)
    refine (ih _ _ _ (.inr ?_)).mono ?_
    · exact htail
    rintro r t ⟨hr, ht, hdecodes⟩
    refine ⟨?_, ?_, fun _ => hdecodes htail⟩
    · rw [hr, List.flatten_cons, List.length_append, Int.natCast_add, Int.add_assoc]
    · rw [ht, List.flatten_cons, written_append]
      simp [unbatched, written, Engine.unbatched, Call.decodes]

end Workbench

namespace Session

variable {ε α : Type}

/-- Which of the next decode calls on the main context fail. -/
def mainFaults (s : Session) : List Bool := s.toWorkbench.mainFaults

/-- Whether no decode call on the main context is to fail. -/
def Decodes (s : Session) : Prop := ∀ b ∈ s.mainFaults, b = false

/-- Whether all that a computation depends on shows in the unbatched view, and all that it does, as
far as the main context is concerned. -/
abbrev Blind (x : SessionM α) : Prop := InStep unbatched mainFaults x x

/-! ### Work that decodes nothing -/

private theorem blind_onBench (wrap : ε → SessionError) {x : WorkM ε α} (h : Workbench.Blind x) :
    Blind (onBench wrap x) := by
  refine .adaptExcept _ (.onPart h (fun _ _ hs => congrArg Session.toWorkbench hs) ?_
    fun _ _ hw => hw)
  intro s t w w' hs hw
  simp only [unbatched, Session.mk.injEq] at hs ⊢
  exact ⟨hw, hs.2⟩

private theorem blind_call {x : EngineM α} (h : Engine.Blind x) : Blind (call x) :=
  blind_onBench _ (Workbench.blind_call h)

/-- Whatever is reported does not show. -/
theorem inStep_unbatched_reports (e e' : Event) :
    InStep unbatched mainFaults (report e) (report e') :=
  .modify id (fun _ => rfl) (fun _ => rfl) (fun _ => rfl) fun _ => rfl

private theorem blind_report (e : Event) : Blind (report e) := inStep_unbatched_reports e e

private theorem blind_enter (phase : Phase) : Blind (enter phase) :=
  .change (fun _ => rfl) fun _ => rfl

private theorem blind_write (text : String) : Blind (write text) :=
  .reads (fun _ => rfl) fun _ => .bind (.change (fun _ => rfl) fun _ => rfl) fun _ => .failIf _ _

private theorem blind_cutPending (max : Nat) : Blind (cutPending max) := by
  refine .reads (fun _ => rfl) fun _ => ?_
  refine .onlyIf _ ?_
  refine .bind (.change (fun _ => rfl) fun _ => rfl) fun _ => ?_
  exact .bind (blind_report _) fun _ => blind_write _

private theorem blind_makeRoom : Blind makeRoom :=
  .reads (fun _ => rfl) fun _ =>
    .bind (blind_onBench _ (Workbench.blind_ensureRoom _ _)) fun _ => .pure _

private theorem blind_arrive : Blind arrive := by
  refine .reads (fun _ => rfl) fun _ => ?_
  refine .bind (blind_cutPending _) fun _ => ?_
  refine .reads (fun _ => rfl) fun _ => ?_
  refine .ite (.bind (blind_report _) fun _ => .pure _) ?_
  refine .bind blind_makeRoom fun _ => ?_
  refine .reads (fun _ => rfl) fun _ => ?_
  exact .ite (.bind (blind_report _) fun _ => .pure _) (.bind (blind_cutPending _) fun _ => .pure _)

private theorem blind_accept (token : Token) (sampled : Bool) : Blind (accept token sampled) :=
  .bind (blind_call (Engine.blind_note rfl)) fun _ => .change (fun _ => rfl) fun _ => rfl

private theorem blind_savePrompt : Blind savePrompt := by
  refine .reads (fun _ => rfl) fun _ => ?_
  refine .onlyIf _ ?_
  refine .bind (.change (fun _ => rfl) fun _ => rfl) fun _ => ?_
  refine .bind (.bind ?_ fun _ => .pure _) fun _ => blind_report _
  exact blind_onBench _ (Workbench.blind_saveOrDisable _)

/-- Saving all that is left shows in the unbatched view altogether. -/
theorem blind_saveAll : Blind saveAll := by
  refine .reads (fun _ => rfl) fun _ => ?_
  refine .onlyIf _ ?_
  refine .bind (blind_report _) fun _ => ?_
  exact .bind (blind_onBench _ (Workbench.blind_saveOrDisable _)) fun _ => .pure _

/-- In the unbatched view nothing is left of the transcript that is written while a step is shown.
-/
theorem blind_display : Blind display := by
  refine .reads (fun _ => rfl) fun _ => ?_
  refine .onlyIf _ ?_
  refine .bind (blind_enter _) fun _ => ?_
  refine .forM fun _ _ => ?_
  refine .bind (blind_write _) fun _ => ?_
  exact .modify id (fun _ => rfl) (fun _ => rfl) (fun _ => rfl) fun _ => rfl

private theorem blind_handOver : Blind handOver := by
  have hreports : Blind reportAntiprompt := by
    refine .reads (fun _ => rfl) fun s => ?_
    split
    · exact .pure _
    · exact blind_report _
  have hqueues : Blind queueAntiprompt := by
    refine .reads (fun _ => rfl) fun s => ?_
    split
    · exact .pure _
    · exact .bind (blind_call (Engine.blind_tokenize _ _ _)) fun _ =>
        .change (fun _ => rfl) fun _ => rfl
  refine .bind hreports fun _ => ?_
  refine .reads (fun _ => rfl) fun _ => ?_
  refine .bind (.onlyIf _ hqueues) fun _ => ?_
  refine .bind (.onlyIf _ (.bind (blind_report _) fun _ => blind_write _)) fun _ => ?_
  exact .bind (.change (fun _ => rfl) fun _ => rfl) fun _ => .pure _

private theorem blind_finish (phase : Phase) (reason : StopReason) :
    Blind (finish phase reason) := by
  refine .bind (blind_enter _) fun _ => ?_
  refine .reads (fun _ => rfl) fun _ => ?_
  exact .bind (blind_report _) fun _ => .pure _

private theorem blind_conclude : Blind conclude := by
  have hfinishes (reason : StopReason) : Blind (finishIfUserTurn reason) :=
    .reads (fun _ => rfl) fun _ => .ite (.bind (blind_finish _ _) fun _ => .pure _) (.pure _)
  have hdrained (spent : Bool) : Blind (concludeDrained spent) := by
    refine .bind blind_handOver fun _ => ?_
    refine .ite ?_ (hfinishes _)
    refine .bind (blind_report _) fun _ => ?_
    exact .bind (blind_finish _ _) fun _ => .pure _
  refine .reads (fun _ => rfl) fun _ => ?_
  refine .bind (.onlyIf _ (.reads (fun _ => rfl) fun _ => .change (fun _ => rfl) fun _ => rfl))
    fun _ => ?_
  exact .ite (.bind (blind_finish _ _) fun _ => .pure _) (.ite (hdrained _) (hfinishes _))

/-! ### Evaluating a step -/

/-- The session with the pending tokens logged, if there are any and a session file is in use. -/
def withLog (s : Session) : Session :=
  if s.progress.pending ≠ [] && s.cache.isActive then
    { s with
      progress :=
        { s.progress with
          logged := s.progress.logged ++ s.progress.pending
          loggedRead := (s.progress.logged ++ s.progress.pending).length } }
  else s

/-- The session with the pending tokens in the cells, and the counter behind them. -/
def withCells (s : Session) : Session :=
  { s with
    engine := { s.engine with
      mainCells := s.engine.mainCells.write s.progress.past s.progress.pending }
    progress := { s.progress with past := s.progress.past + s.progress.pending.length }
    decodeFailures := 0 }

/-- The session once the pending tokens were skipped as far as it holds them, and the rest was
decoded and logged. -/
def evaluated (s : Session) : Session :=
  ({ s with progress := s.progress.reuse }).withCells.withLog

/-- Logging as many tokens as are pending logs the pending tokens. -/
theorem logging_eq_withLog (s : Session) {n : Nat} (h : n = s.progress.pending.length) :
    s.logging n = s.withLog := by
  have hpos : decide (0 < n) = decide (s.progress.pending ≠ []) := by
    rw [decide_eq_decide, h, List.length_pos_iff]
  have htake : s.progress.pending.take n = s.progress.pending := by rw [h, List.take_length]
  rw [logging, withLog, hpos, htake]

private theorem unbatched_withLog (s : Session) : s.withLog.unbatched = s.unbatched.withLog :=
  apply_ite unbatched _ _ _

private theorem decodes_withLog {s : Session} : s.withLog.Decodes ↔ s.Decodes := by
  unfold withLog
  split <;> exact Iff.rfl

/-- Feeding the main context shows in the unbatched view as one change. -/
theorem ends_feedMain_unbatched (s : Session) (h : s.progress.pending = [] ∨ s.Decodes) :
    Ends feedMain s fun r t =>
      r = .ok () ∧ t.unbatched = s.unbatched.withCells.withLog ∧ (s.Decodes → t.Decodes) := by
  have hpieces : pieces s.config.batchSize s.progress.pending = [] ∨ s.toWorkbench.Decodes := by
    refine h.imp_left fun hnil => ?_
    rw [hnil, pieces, if_pos rfl]
  rw [ends_feedMain_iff]
  simp only [Feed.feed, Feed.evaluate, ends_bind, ends_get, ends_attempt]
  apply (Workbench.ends_batches_unbatched _ _ _ s.toWorkbench hpieces).mono
  rintro _ b ⟨rfl, hb, hdecodes⟩
  rw [flatten_pieces] at hb ⊢
  simp only [ends_bind, Workbench.ends_advance, Workbench.ends_report]
  have hpending : s.progress.pending = b.progress.pending :=
    (congrArg (·.progress.pending) hb).symm
  rw [logging_eq_withLog _ (congrArg List.length hpending), unbatched_withLog]
  refine ⟨trivial, congrArg withLog ?_, fun hs => decodes_withLog.mpr (hdecodes hs)⟩
  change { s.unbatched with
    engine := b.unbatched.engine
    directory := b.unbatched.directory
    progress :=
      { b.unbatched.progress with past := s.progress.past + s.progress.pending.length }
    cache := b.unbatched.cache
    decodeFailures := 0 } = s.unbatched.withCells
  rw [hb]
  rfl

private theorem ends_feedGuidance_unbatched (s : Session) :
    Ends feedGuidance s fun r t =>
      r = .ok () ∧ t.unbatched = s.unbatched ∧ t.mainFaults = s.mainFaults := by
  simp only [feedGuidance, ends_bind, ends_get]
  split
  · exact ⟨rfl, rfl, rfl⟩
  · next g _ =>
    rw [ends_bind, ends_tryOnBench]
    apply (Ends.keeps (Workbench.guidanceFrame_unbatched.keeps_step g _)).mono
    intro r b hb
    obtain ⟨hunbatched, hfaults⟩ := Prod.mk.inj hb
    have hout : ({ s with toWorkbench := b } : Session).unbatched = s.unbatched :=
      congrArg (fun w => { s.unbatched with toWorkbench := w }) hunbatched
    cases r with
    | ok u => exact ⟨rfl, hout, hfaults⟩
    | error e => exact ⟨rfl, hout, hfaults⟩

/-- Evaluating a step that has arrived shows in the unbatched view as one change. -/
theorem ends_feedRest_unbatched (s : Session) (h : s.progress.reuse.pending = [] ∨ s.Decodes) :
    Ends feedRest s fun r t =>
      r = .ok () ∧ t.unbatched = s.unbatched.evaluated ∧ (s.Decodes → t.Decodes) := by
  simp only [feedRest, ends_bind, ends_advance]
  apply (ends_feedGuidance_unbatched _).mono
  rintro _ t ⟨rfl, ht, hfaults⟩
  have hpending : t.progress.pending = s.progress.reuse.pending :=
    congrArg (·.progress.pending) ht
  have hdecodes (hs : s.Decodes) : t.Decodes := by
    intro b hb
    rw [hfaults] at hb
    exact hs b hb
  rw [← hpending] at h
  apply (ends_feedMain_unbatched t (h.imp_right hdecodes)).mono
  rintro r u ⟨hr, hu, hud⟩
  refine ⟨hr, ?_, fun hs => hud (hdecodes hs)⟩
  rw [hu, ht]
  rfl

/-! ### Two sessions -/

/-- Two sessions with the same unbatched view, of which no decode call on the main context fails. -/
structure Alike (s t : Session) : Prop where
  /-- They have the same unbatched view. -/
  same : s.unbatched = t.unbatched
  /-- The one decodes what it is to decode. -/
  decodes_left : s.Decodes
  /-- The other does so too. -/
  decodes_right : t.Decodes

/-- Whether two computations give the same for two sessions, and leave sessions that are alike. -/
def EndAlike (x y : SessionM α) (s t : Session) : Prop :=
  outcome (x s) = outcome (y t) ∧ (left (x s)).Alike (left (y t))

variable {s t : Session}

/-- Computations in step end alike in sessions that are alike. -/
theorem Alike.endAlike (h : s.Alike t) {x y : SessionM α} (hxy : InStep unbatched mainFaults x y) :
    EndAlike x y s t := by
  obtain ⟨houtcome, hleft⟩ := hxy.same s t h.same
  refine ⟨houtcome, hleft, ?_, ?_⟩
  · intro b hb
    rw [hxy.keeps_left] at hb
    exact h.decodes_left b hb
  · intro b hb
    rw [hxy.keeps_right] at hb
    exact h.decodes_right b hb

/-- Where the one gives a value the other gives it too. -/
theorem EndAlike.exists_ok {x y : SessionM α} (h : EndAlike x y s t) {a : α} {s' : Session}
    (hx : x s = .ok a s') : ∃ t', y t = .ok a t' ∧ s'.Alike t' := by
  obtain ⟨houtcome, hleft⟩ := h
  rw [hx] at houtcome hleft
  cases hy : y t <;> rw [hy] at houtcome hleft <;> cases houtcome
  exact ⟨_, rfl, hleft⟩

/-- Where the one fails the other fails too. -/
theorem EndAlike.exists_error {x y : SessionM α} (h : EndAlike x y s t) {e : SessionError}
    {s' : Session} (hx : x s = .error e s') : ∃ t', y t = .error e t' ∧ s'.Alike t' := by
  obtain ⟨houtcome, hleft⟩ := h
  rw [hx] at houtcome hleft
  cases hy : y t <;> rw [hy] at houtcome hleft <;> cases houtcome
  exact ⟨_, rfl, hleft⟩

/-- Computations that read the state end alike if they do for the states that are read. -/
theorem EndAlike.get {g k : Session → SessionM α} (h : EndAlike (g s) (k t) s t) :
    EndAlike (MonadState.get >>= g) (MonadState.get >>= k) s t := h

/-- What comes after computations that end alike ends alike if it does where they succeed. -/
theorem EndAlike.bind {β : Type} {x y : SessionM α} {g k : α → SessionM β} (h : EndAlike x y s t)
    (hg : ∀ a s' t', x s = .ok a s' → y t = .ok a t' → s'.Alike t' → EndAlike (g a) (k a) s' t') :
    EndAlike (x >>= g) (y >>= k) s t := by
  unfold EndAlike
  cases hx : x s with
  | ok a s' =>
    obtain ⟨t', hy, h'⟩ := h.exists_ok hx
    rw [bind_eq_of_ok hx, bind_eq_of_ok hy]
    exact hg a s' t' hx hy h'
  | error e s' =>
    obtain ⟨t', hy, h'⟩ := h.exists_error hx
    rw [bind_eq_of_error hx, bind_eq_of_error hy]
    exact ⟨rfl, h'⟩

/-- Sessions that are alike evaluate their next steps alike. -/
theorem endAlike_evaluatePending (h : s.Alike t) :
    EndAlike evaluatePending evaluatePending s t := by
  have hfeeds {s t : Session} (h : s.Alike t) : EndAlike feedRest feedRest s t := by
    obtain ⟨hr, hs, hsd⟩ := ends_iff_outcome.mp (ends_feedRest_unbatched s (.inr h.decodes_left))
    obtain ⟨hr', ht, htd⟩ := ends_iff_outcome.mp (ends_feedRest_unbatched t (.inr h.decodes_right))
    exact ⟨hr.trans hr'.symm, by rw [hs, ht, h.same], hsd h.decodes_left, htd h.decodes_right⟩
  have hpending : s.progress.pending = t.progress.pending :=
    congrArg (·.progress.pending) h.same
  change EndAlike (if s.progress.pending = [] then pure none else evaluate)
    (if t.progress.pending = [] then pure none else evaluate) s t
  rw [← hpending]
  split
  · exact h.endAlike (.pure _)
  · rw [evaluate_eq]
    refine (h.endAlike blind_arrive).bind fun r s' t' _ _ h' => ?_
    cases r with
    | none => exact (hfeeds h').bind fun _ _ _ _ _ h'' => h''.endAlike (.pure _)
    | some reason => exact h'.endAlike (.pure _)

/-- Without guidance, sessions that are alike draw alike. -/
theorem endAlike_drawNext (h : s.Alike t) (hguidance : s.guidance = none) :
    EndAlike drawNext drawNext s t := by
  refine (h.endAlike blind_savePrompt).bind fun _ s' t' hs' _ h' => ?_
  have hs : s'.guidance = none := by
    rw [guidance_of_settled ((ends_savePrompt s).of_ok hs').1, hguidance]
  have ht : t'.guidance = none := (congrArg (·.guidance) h'.same).symm.trans hs
  refine .get ?_
  simp only [hs, ht, Option.isSome_none, Bool.false_and]
  exact (h'.endAlike (blind_call (Engine.blind_sample false))).bind fun _ _ _ _ _ h =>
    (h.endAlike (blind_accept _ _)).bind fun _ _ _ _ _ h =>
      (h.endAlike (inStep_unbatched_reports _ _)).bind fun _ _ _ _ _ h =>
        h.endAlike (.change (fun _ => rfl) fun _ => rfl)

/-- Without guidance, sessions that are alike draw alike once their queues are read. -/
theorem endAlike_refill (h : s.Alike t) (hguidance : s.guidance = none)
    (hdrained : s.progress.queueDrained = true) (hturn : s.progress.userTurn = false) :
    EndAlike refill refill s t := by
  have hprogress : s.progress.plain = t.progress.plain := congrArg (·.progress) h.same
  have hrefill {u : Session} (hu : u.progress.plain = s.progress.plain) : refill u = (do
      enter .sampling
      if u.budgetSpent then report .budgetSpent else drawNext : SessionM Unit) u := by
    have hdraws : (u.progress.queueDrained && !u.progress.userTurn) = true := by
      change (u.progress.plain.queueDrained && !u.progress.plain.userTurn) = true
      rw [hu]
      exact Bool.and_eq_true_iff.mpr ⟨hdrained, congrArg not hturn⟩
    exact congrFun (if_pos hdraws) u
  have hspent : s.budgetSpent = t.budgetSpent := by
    change s.unbatched.budgetSpent = t.unbatched.budgetSpent
    rw [h.same]
  rw [EndAlike, hrefill rfl, hrefill hprogress.symm, ← hspent]
  refine (h.endAlike (blind_enter .sampling)).bind fun _ s' t' hs' _ h' => ?_
  cases s.budgetSpent with
  | true => exact h'.endAlike (blind_report _)
  | false =>
    refine endAlike_drawNext h' ?_
    cases hs'
    exact hguidance

/-- Without guidance, sessions that are alike take their next steps alike once their queues are
read. What is pending does not matter. -/
theorem endAlike_takeStep (h : (left (clearPending s)).Alike (left (clearPending t)))
    (hguidance : s.guidance = none) (hdrained : s.progress.queueDrained = true)
    (hturn : s.progress.userTurn = false) : EndAlike takeStep takeStep s t := by
  have hcleared : EndAlike (do refill; display; conclude)
      (do refill; display; conclude) (left (clearPending s)) (left (clearPending t)) :=
    (endAlike_refill h hguidance hdrained hturn).bind fun _ _ _ _ _ h =>
      (h.endAlike blind_display).bind fun _ _ _ _ _ h => h.endAlike blind_conclude
  exact hcleared

/-! ### Turns -/

private theorem endAlike_pass (h : s.Alike t) (hguidance : s.guidance = none)
    (hdrained : s.progress.queueDrained = true) (hturn : s.progress.userTurn = false) :
    EndAlike pass pass s t := by
  refine (endAlike_evaluatePending h).bind fun r s' t' hs' _ h' => ?_
  cases r with
  | some reason =>
    exact (h'.endAlike (blind_finish _ _)).bind fun _ _ _ _ _ h => h.endAlike (.pure _)
  | none =>
    obtain ⟨hsettled, -⟩ := (ends_evaluatePending s).of_ok hs'
    obtain ⟨hturnState, -⟩ := turnAndConfig_eq (frame_turnAndConfig.keeps_evaluatePending.of_ok hs')
    have hclears : Blind clearPending := .change (fun _ => rfl) fun _ => rfl
    refine endAlike_takeStep (h'.endAlike hclears).2 ?_ ?_ ?_
    · rw [guidance_of_settled hsettled, hguidance]
    · exact (congrArg TurnState.drained hturnState).trans hdrained
    · exact (congrArg TurnState.userTurn hturnState).trans hturn

/-- A pass that does not end the turn leaves a queue read that was read before, and the turn with
the session. -/
theorem pass_drained {s t : Session} (h : pass s = .ok none t)
    (hdrained : s.progress.queueDrained = true) :
    t.progress.queueDrained = true ∧ t.progress.userTurn = false := by
  obtain ⟨-, hpassed⟩ := (ends_pass_turnState s).of_ok h
  have hs : s.turnState.drained = true := hdrained
  change t.turnState.drained = true ∧ t.turnState.userTurn = false
  generalize t.turnState = u at hpassed ⊢
  cases hpassed with
  | ended hr => exact absurd rfl hr
  | stepped hfilled hconcluded =>
    obtain ⟨rfl, -, hturn, -⟩ := hconcluded.goes_on
    refine ⟨?_, hturn⟩
    cases hfilled with
    | spent => exact hs
    | drawn => exact hs
    | taken =>
      simp only [TurnState.drained, TurnState.take, decide_eq_true_eq] at hs ⊢
      exact decide_eq_true (Nat.le_add_right_of_le hs)

/-- Two sessions take their turns alike if they take the next pass alike, without guidance and with
their queues read. -/
theorem endAlike_answer (h : EndAlike pass pass s t) (hguidance : s.guidance = none)
    (hdrained : s.progress.queueDrained = true) : EndAlike answer answer s t := by
  unfold EndAlike
  fun_induction answer s generalizing t with
  | case1 s e s' hpass =>
    obtain ⟨t', ht, h'⟩ := h.exists_error hpass
    rw [answer_eq t, ht]
    exact ⟨rfl, h'⟩
  | case2 s outcome s' hpass =>
    obtain ⟨t', ht, h'⟩ := h.exists_ok hpass
    rw [answer_eq t, ht]
    exact ⟨rfl, h'⟩
  | case3 s s' hpass ih =>
    obtain ⟨t', ht, h'⟩ := h.exists_ok hpass
    rw [answer_eq t, ht]
    obtain ⟨hsettled, -⟩ := (ends_pass s).of_ok hpass
    obtain ⟨hdrained', hturn⟩ := pass_drained hpass hdrained
    have hguidance' : s'.guidance = none := by rw [guidance_of_settled hsettled, hguidance]
    exact ih (endAlike_pass h' hguidance' hdrained' hturn) hguidance' hdrained'

end Session

end Dialogue
