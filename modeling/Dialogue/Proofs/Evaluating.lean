import Dialogue.Proofs.Arriving
import Dialogue.Proofs.Feeding
import Dialogue.Session.Pass
/-!
# Evaluating a step

What an evaluation can make of the main context: a step that has arrived is skipped as far as the
session holds it, the rest is fed, and what was decoded is logged for the session file.
-/

namespace Dialogue

open Effect

namespace MainContext

/-- Counts the pending tokens that the session holds as resident. -/
def reuse (v : MainContext) : MainContext :=
  let k := commonLength (v.logged.drop v.loggedRead) v.pending
  let differs := k < v.pending.length && v.loggedRead + k < v.logged.length
  { v with
    pending := v.pending.drop k
    past := v.past + k
    loggedRead := v.loggedRead + k
    logged := if differs then v.logged.take (v.loggedRead + k) else v.logged }

/-- No fewer tokens are resident after comparing the step with the session file. -/
theorem past_le_reuse (v : MainContext) : v.past ≤ v.reuse.past :=
  Int.le_add_of_nonneg_right (Int.natCast_nonneg _)

/-- Nothing is skipped where nothing is logged. -/
theorem reuse_of_logged_nil {v : MainContext} (h : v.logged = []) : v.reuse = v := by
  have hk : commonLength (v.logged.drop v.loggedRead) v.pending = 0 := by
    rw [h, List.drop_nil]
    rfl
  unfold reuse
  rw [hk, h]
  ext1 <;> simp [h]

/-- Logs the first `n` pending tokens for the session file, if there is one. -/
def log (v : MainContext) (n : Nat) : MainContext :=
  if 0 < n && v.path.isSome then
    { v with
      logged := v.logged ++ v.pending.take n
      loggedRead := (v.logged ++ v.pending.take n).length }
  else v

end MainContext

/-- What feeding a step in batches of `n` tokens can make of the main context. -/
inductive FedStep (n : Nat) (v : MainContext) : MainContext → Prop
  /-- All is decoded. -/
  | whole {p : Int} {u : MainContext} (h : Fed (pieces n v.pending) v.past 0 v (.ok p) u) :
      FedStep n v (MainContext.log { u with past := p } v.pending.length)
  /-- A batch fails. -/
  | partly {e : DecodeError} {u : MainContext}
      (h : Fed (pieces n v.pending) v.past 0 v (.error e) u) :
      FedStep n v (MainContext.log { u with past := e.position } e.evaluated)
  /-- A batch fails, and the step is given up. -/
  | givenUp {e : DecodeError} {u : MainContext}
      (h : Fed (pieces n v.pending) v.past 0 v (.error e) u) :
      FedStep n v ((MainContext.log { u with past := e.position } e.evaluated).cut 0)

/-- What evaluating the pending tokens can make of the main context, and with what result. -/
inductive Evaluated (w : Window) (offset : Int) (n : Nat) (v : MainContext) :
    Except SessionError (Option StopReason) → MainContext → Prop
  /-- There are none. -/
  | idle (h : v.pending = []) : Evaluated w offset n v (.ok none) v
  /-- The step cannot be fed. -/
  | stopped {r : Except SessionError (Option StopReason)} {u : MainContext}
      (h : Arrived w offset v r u) (hr : r ≠ .ok none) : Evaluated w offset n v r u
  /-- The step is fed. -/
  | fed {r : Except SessionError (Option StopReason)} {u u' : MainContext}
      (h : Arrived w offset v (.ok none) u) (hf : FedStep n u.reuse u') :
      Evaluated w offset n v r u'

namespace Session

/-! ### Feeding the main context -/

/-- The session once its first `n` pending tokens were logged for the session file, if there is one.
-/
def logging (s : Session) (n : Nat) : Session :=
  if 0 < n && s.cache.isActive then
    { s with
      progress :=
        { s.progress with
          logged := s.progress.logged ++ s.progress.pending.take n
          loggedRead := (s.progress.logged ++ s.progress.pending.take n).length } }
  else s

private theorem logPending_eq (n : Nat) (s : Session) : logPending n s = .ok () (s.logging n) := by
  change onlyIf (0 < n && s.cache.isActive) _ s = _
  rw [logging, onlyIf]
  split <;> rfl

/-- Logging changes the log, and nothing else. -/
theorem exists_logging_eq (s : Session) (n : Nat) : ∃ logged loggedRead,
    s.logging n = { s with progress := { s.progress with logged, loggedRead } } := by
  unfold logging
  split <;> exact ⟨_, _, rfl⟩

private theorem mainContext_logging (s : Session) (n : Nat) :
    (s.logging n).mainContext = s.mainContext.log n :=
  apply_ite (fun t : Session => t.mainContext) _ _ _

/-- The session once it was counted that its step could not be decoded, and the part of it that was
decoded was logged. -/
def failing (s : Session) (e : DecodeError) : Session :=
  ({ s with
    journal := s.journal.push (.decodeFailed e.message (s.decodeFailures + 1))
    decodeFailures := s.decodeFailures + 1 } : Session).logging e.evaluated

/-- Counting a failure changes the count and the log, and is reported. -/
theorem exists_failing_eq (s : Session) (e : DecodeError) : ∃ logged loggedRead,
    s.failing e =
      { s with
        journal := s.journal.push (.decodeFailed e.message (s.decodeFailures + 1))
        progress := { s.progress with logged, loggedRead }
        decodeFailures := s.decodeFailures + 1 } :=
  exists_logging_eq _ _

/-- A step that failed is logged as far as it was evaluated. -/
theorem mainContext_failing (s : Session) (e : DecodeError) :
    (s.failing e).mainContext = s.mainContext.log e.evaluated :=
  mainContext_logging _ _

/-- The session once its step was given up. -/
def givingUp (s : Session) : Session :=
  { s with
    progress := { s.progress with pending := [], guidanceInput := [], guidanceReady := false } }

private theorem mainContext_givingUp (s : Session) :
    s.givingUp.mainContext = s.mainContext.cut 0 := by
  rw [MainContext.cut, List.take_zero]
  rfl

/-- Whether one more step that cannot be decoded gives the turn up. -/
def LastStraw (s : Session) : Prop :=
  0 < s.config.maxDecodeFailures ∧ s.config.maxDecodeFailures ≤ s.decodeFailures + 1

/-- Whether a failure is the last straw is a matter of counting. -/
instance (s : Session) : Decidable s.LastStraw := instDecidableAnd

private theorem ends_giveUpStep_iff {e : DecodeError} {s : Session}
    {Q : Except SessionError Unit → Session → Prop} :
    Ends (giveUpStep e) s Q ↔
      if 0 < s.config.maxDecodeFailures ∧ s.config.maxDecodeFailures ≤ s.decodeFailures then
        Q (.error (.decodeFailed s.decodeFailures e)) s.givingUp
      else Q (.ok ()) s := by
  simp only [giveUpStep, ends_bind, ends_get, ends_onlyIf, Bool.and_eq_true, decide_eq_true_eq]
  split <;> exact Iff.rfl

private theorem ends_failStep_iff {e : DecodeError} {s : Session}
    {Q : Except SessionError Unit → Session → Prop} :
    Ends (failStep e) s Q ↔
      if s.LastStraw then Q (.error (.decodeFailed (s.decodeFailures + 1) e)) (s.failing e).givingUp
      else Q (.ok ()) (s.failing e) := by
  simp only [failStep, ends_bind, ends_get, ends_modify, ends_report,
    ends_iff_of_eq_ok (logPending_eq _ _)]
  change Ends (giveUpStep e) (s.failing e) Q ↔ _
  obtain ⟨logged, loggedRead, ht⟩ := s.exists_failing_eq e
  rw [ends_giveUpStep_iff, ht]
  exact Iff.rfl

/-- Where feeding the main context ends: a step that is decoded is logged, and the count of failures
begins anew; one that is not is counted and logged as far as it was decoded, and given up with the
turn if it is one too many. -/
theorem ends_feedMain_iff {s : Session} {Q : Except SessionError Unit → Session → Prop} :
    Ends feedMain s Q ↔
      Ends (Feed.feed .main s.progress.pending s.config.batchSize) s.toWorkbench fun r b =>
        match r with
        | .ok _ => Q (.ok ()) (({ s with toWorkbench := b, decodeFailures := 0 } : Session).logging
            s.progress.pending.length)
        | .error e =>
          let t := ({ s with toWorkbench := b } : Session).failing e
          if s.LastStraw then Q (.error (.decodeFailed (s.decodeFailures + 1) e)) t.givingUp
          else Q (.ok ()) t := by
  simp only [feedMain, ends_bind, ends_get, ends_tryOnBench]
  cases hfeed : Feed.feed .main s.progress.pending s.config.batchSize s.toWorkbench with
  | ok _ b =>
    simp only [ends_iff_of_eq_ok hfeed, ends_bind, ends_modify,
      ends_iff_of_eq_ok (logPending_eq _ _)]
  | error e b =>
    simp only [ends_iff_of_eq_error hfeed]
    exact ends_failStep_iff

/-- The rest of a step is given up, and what is settled stays. -/
theorem ends_clearPending (s : Session) :
    Ends clearPending s fun r t =>
      r = .ok () ∧ t.settled = s.settled ∧ t.mainContext = s.mainContext.cut 0 := by
  rw [MainContext.cut, List.take_zero]
  exact ⟨rfl, rfl, rfl⟩

/-- Feeding the main context is a feed step, and what is settled stays. -/
theorem ends_feedMain (s : Session) :
    Ends feedMain s fun _ t => t.settled = s.settled ∧
      FedStep s.config.batchSize s.mainContext t.mainContext := by
  rw [ends_feedMain_iff]
  apply (Feed.ends_feed_main _ _ s.toWorkbench).mono
  rintro r b ⟨r₀, v₀, hf, rfl, hb⟩
  cases r₀ with
  | ok p =>
    let t : Session := { s with toWorkbench := b, decodeFailures := 0 }
    have hwhole : (t.logging s.progress.pending.length).mainContext =
        (Fed.counted (.ok p) v₀).log s.progress.pending.length := by
      rw [mainContext_logging, ← hb]
    obtain ⟨_, _, ht⟩ := t.exists_logging_eq s.progress.pending.length
    have hsettled : (t.logging s.progress.pending.length).settled = s.settled := by
      rw [ht]
      rfl
    refine ⟨hsettled, ?_⟩
    rw [hwhole]
    exact FedStep.whole hf
  | error e =>
    let t : Session := { s with toWorkbench := b }
    have hpartly : (t.failing e).mainContext = (Fed.counted (.error e) v₀).log e.evaluated := by
      rw [mainContext_failing, ← hb]
    obtain ⟨_, _, ht⟩ := t.exists_failing_eq e
    have hsettled : (t.failing e).settled = s.settled := by
      rw [ht]
      rfl
    dsimp only [Except.map]
    split
    · refine ⟨hsettled, ?_⟩
      rw [mainContext_givingUp, hpartly]
      exact FedStep.givenUp hf
    · refine ⟨hsettled, ?_⟩
      rw [hpartly]
      exact FedStep.partly hf

/-- Feeding the guidance context never fails, and leaves the main context alone. -/
theorem ends_feedGuidance (s : Session) :
    Ends feedGuidance s fun r t =>
      r = .ok () ∧ t.settled = s.settled ∧ t.mainContext = s.mainContext := by
  simp only [feedGuidance, ends_bind, ends_get]
  split
  · exact ⟨rfl, rfl, rfl⟩
  · next g _ =>
    rw [ends_bind, ends_tryOnBench]
    apply (Ends.keeps (Workbench.guidanceFrame_mainContext.keeps_step g _)).mono
    intro r b hb
    cases r with
    | ok u => exact ⟨rfl, rfl, hb⟩
    | error e => exact ⟨rfl, rfl, hb⟩

/-- What skipping and feeding a step that has arrived comes to. -/
theorem ends_feedRest (s : Session) :
    Ends feedRest s fun _ t => t.settled = s.settled ∧
      FedStep s.config.batchSize s.mainContext.reuse t.mainContext := by
  simp only [feedRest, ends_bind, ends_advance]
  apply (ends_feedGuidance _).mono
  rintro r t ⟨rfl, hs, hv⟩
  apply (ends_feedMain t).mono
  rintro r t' ⟨hs', hf⟩
  rw [config_of_settled hs, hv] at hf
  exact ⟨hs'.trans hs, hf⟩

/-- What evaluating the pending tokens comes to. -/
theorem ends_evaluate (s : Session) :
    Ends evaluate s fun r t => t.settled = s.settled ∧
      Evaluated s.window s.offset s.config.batchSize s.mainContext r t.mainContext := by
  rw [evaluate_eq, ends_bind]
  apply (ends_arrive s).mono
  rintro r t ⟨hs, ha⟩
  match r with
  | .error e => exact ⟨hs, Evaluated.stopped ha nofun⟩
  | .ok (some reason) => exact ⟨hs, Evaluated.stopped ha nofun⟩
  | .ok none =>
    simp only [ends_bind, ends_pure]
    apply (ends_feedRest t).mono
    rintro r t' ⟨hs', hf⟩
    rw [hs] at hs'
    rw [config_of_settled hs] at hf
    cases r <;> exact ⟨hs', Evaluated.fed ha hf⟩

/-- A step that is there and arrives is skipped and fed. -/
theorem ends_evaluatePending_of_arrive {s u : Session} (hp : s.progress.pending ≠ [])
    (h : arrive s = .ok none u) :
    Ends evaluatePending s fun _ t =>
      FedStep u.config.batchSize u.mainContext.reuse t.mainContext := by
  simp only [evaluatePending, ends_bind, ends_get, if_neg hp]
  rw [evaluate_eq, ends_bind, ends_iff_of_eq_ok h]
  simp only [ends_bind, ends_pure]
  apply (ends_feedRest u).mono
  rintro r t ⟨-, hf⟩
  cases r <;> exact hf

/-- A step that does not arrive is not fed. -/
theorem ends_evaluatePending_of_stop {s : Session} (h : ∀ u, arrive s ≠ .ok none u) :
    Ends evaluatePending s fun _ t => t.mainContext = s.mainContext ∨
      ∃ r, r ≠ .ok none ∧ Arrived s.window s.offset s.mainContext r t.mainContext := by
  simp only [evaluatePending, ends_bind, ends_get, ends_ite]
  split
  · exact .inl rfl
  · rw [evaluate_eq, ends_bind]
    have ha := ends_arrive s
    cases hr : arrive s with
    | error e t =>
      rw [ends_iff_of_eq_error hr] at ha ⊢
      exact .inr ⟨.error e, by rintro ⟨⟩, ha.2⟩
    | ok stop t =>
      rw [ends_iff_of_eq_ok hr] at ha ⊢
      cases stop with
      | none => exact absurd hr (h t)
      | some reason => exact .inr ⟨.ok (some reason), by rintro ⟨⟩, ha.2⟩

/-- What evaluating the pending tokens comes to for the main context. -/
theorem ends_evaluatePending (s : Session) :
    Ends evaluatePending s fun r t => t.settled = s.settled ∧
      Evaluated s.window s.offset s.config.batchSize s.mainContext r t.mainContext := by
  simp only [evaluatePending, ends_bind, ends_get, ends_ite]
  split
  · next h => exact ⟨rfl, Evaluated.idle h⟩
  · exact ends_evaluate s

end Session

end Dialogue
