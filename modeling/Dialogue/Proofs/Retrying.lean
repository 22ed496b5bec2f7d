import Dialogue.Proofs.UnfailingTurns
import Dialogue.Proofs.Unwritable
/-!
# Taking a turn again

A session is asked to take its turn again and again for as long as the engine fails. Where draws,
removals and moves are all that is to fail, the turn ends after some of that, and as it would have
ended if none of them had failed: there is nothing to tell the two sessions by but the calls that
were made again.
-/

namespace Dialogue

open Effect

/-- A swap that is struck has counted nothing, and has removed no cell but those it evicts. -/
theorem Window.retained_of_swap_error {w : Window} {guided : Bool} {b b' : Workbench}
    {e : EngineError} (h : w.swap guided b = .error e b') :
    b'.progress = b.progress ∧ ∀ p, p < w.pinned ∨ w.pinned + w.discard b.progress.past ≤ p →
      b'.engine.mainCells.get? p = b.engine.mainCells.get? p := by
  obtain ⟨-, hredacted⟩ := (ends_iff_of_eq_error h).mp (Workbench.ends_swap_redacted w guided b)
  rcases hredacted with hredacted | ⟨-, hredacted⟩
  · have hcells := congrArg (·.engine.mainCells) hredacted
    refine ⟨Workbench.progress_of_redacted hredacted, fun p _ => ?_⟩
    rw [show b'.engine.mainCells = b.engine.mainCells from hcells]
  · have hcells := congrArg (·.engine.mainCells) hredacted
    have hprogress := congrArg Workbench.progress hredacted
    refine ⟨hprogress, fun p hp => ?_⟩
    rw [show b'.engine.mainCells = w.thinned b.progress.past b.engine.mainCells from hcells,
      Window.thinned, Cells.get?_remove, if_neg]
    rw [Cells.inRange_some]
    omega

namespace Session

variable {s t : Session} {outcome : Outcome}

/-- The session with other failures to come, and an output that shows nothing yet. -/
def facing (s : Session) (faults : Faults) : Session :=
  { s.showing none with engine := { s.engine with faults } }

/-- The session with no draw, no removal and no move to fail. -/
def steady (s : Session) : Session :=
  { s with engine := { s.engine with faults := s.engine.faults.without Service.isTransient } }

/-- A session is asked to take its turn again each time that the engine fails, until it ends. What
it shows is added to what it has shown. -/
inductive Retried : Session → Outcome → Session → Prop
  /-- The turn ends. -/
  | done {s t : Session} {outcome : Outcome} (h : answer s = .ok outcome t) : Retried s outcome t
  /-- The engine fails. -/
  | again {s u t : Session} {outcome : Outcome} {cause : EngineError}
      (h : answer s = .error (.engine cause) u) (h' : Retried u outcome t) : Retried s outcome t

/-- The sessions that can come of a session: through actions, and with samples and failures added to
those that are to come. -/
inductive Reached (s : Session) : Session → Prop
  /-- It is the session itself. -/
  | refl : Reached s s
  /-- An action is done. -/
  | action {t : Session} (h : Reached s t) (e : Action) : Reached s (t.perform e)
  /-- Samples and failures are added. -/
  | extend {t : Session} (h : Reached s t) (script : List Token) (faults : Faults) :
      Reached s { t with engine := t.engine.extend script faults }

private theorem Reached.settled_eq (h : Reached s t) : t.settled = s.settled := by
  induction h with
  | refl => rfl
  | action _ e ih => exact (fileChanges_perform _ e).settled_eq.trans ih
  | extend _ _ _ ih => exact ih

/-- What a session that is asked again ends with is determined. -/
theorem Retried.unique {outcome' : Outcome} {t' : Session} (h : Retried s outcome t)
    (h' : Retried s outcome' t') : outcome' = outcome ∧ t' = t := by
  induction h with
  | done h =>
    cases h' with
    | done h' =>
      cases h.symm.trans h'
      exact ⟨rfl, rfl⟩
    | again h' => cases h.symm.trans h'
  | again h _ ih =>
    cases h' with
    | done h' => cases h.symm.trans h'
    | again h' hrest =>
      cases h.symm.trans h'
      exact ih hrest

/-- Without the failures of draws, removals and moves a session looks the same. -/
theorem redacted_steady (s : Session) : s.steady.redacted .transient = s.redacted .transient := by
  rfl

private theorem transient_steady (s : Session) : s.steady.transient = 0 := rfl

/-- However a session is struck, it comes to what it would have come to, once it is asked again
often enough. -/
theorem exists_retried (hmax : 0 < s.window.maxStep) (h : answer s.steady = .ok outcome t) :
    ∃ u, Retried s outcome u ∧ u.redacted .transient = t.redacted .transient := by
  induction hn : s.transient using Nat.strongRecOn generalizing s t with
  | ind n ih =>
    have hresumes := resumes_answer hmax (redacted_steady s).symm (transient_steady s)
    cases hresumes with
    | same hsame =>
      obtain ⟨u, hu, hv⟩ := hsame.symm.exists_ok h
      exact ⟨u, .done hu, hv.symm⟩
    | @struck e u hu he hlt hagain =>
      obtain ⟨cause, rfl⟩ := he
      obtain ⟨v, hv, hvt⟩ :=
        (hagain u.steady (transient_steady u) (redacted_steady u)).symm.exists_ok h
      have hsettled : u.settled = s.settled := by
        have hfileChanges := (fileSteps_answer s).fileChanges.settled_eq
        rwa [hu] at hfileChanges
      have hmaxu : 0 < u.window.maxStep := by rwa [window_of_settled hsettled]
      obtain ⟨x, hx, hxv⟩ := ih u.transient (hn ▸ hlt) hmaxu hv rfl
      exact ⟨x, .again hu hx, hxv.trans hvt.symm⟩

/-- A turn that draws, removals and moves strike, and nothing else, ends once it is asked for often
enough, however they strike. It ends with the outcome with which it would have ended if none of them
had failed, and leaves a session that looks the same: what was shown, the progress, the transcript,
the cells of both contexts, the samples that are left and all other calls agree. Where a swap is
struck no cell is lost but those it evicts. -/
theorem retried_turn_ends_alike {now : Nat} {config : Config} {engine : Engine}
    {directory : Directory} {s : Session} {w : Workbench}
    (h : Session.start now config engine directory = .ok s w) {t : Session} (ht : s.Reached t)
    (faults : Faults) (hdecodes : ∀ b ∈ faults.decodeMain, b = false)
    (hspells : ∀ text ∈ t.config.antiprompts, text ∉ t.engine.refused) :
    (∃ outcome u, answer (t.facing faults).steady = .ok outcome u ∧
      (∃ v, Retried (t.facing faults) outcome v) ∧
      ∀ outcome' v, Retried (t.facing faults) outcome' v →
        outcome' = outcome ∧ v.redacted .transient = u.redacted .transient) ∧
    ∀ guided b e b', t.window.swap guided b = .error e b' → b'.progress = b.progress ∧
      ∀ p, p < t.window.pinned ∨ t.window.pinned + t.window.discard b.progress.past ≤ p →
        b'.engine.mainCells.get? p = b.engine.mainCells.get? p := by
  have hbegun := start_eq_ok h
  have hmax : 0 < (t.facing faults).window.maxStep := by
    have hne := List.length_pos_iff.mpr hbegun.queue_ne_nil
    change 0 < t.window.maxStep
    rw [window_of_settled ht.settled_eq]
    exact Nat.lt_of_lt_of_le hne hbegun.queue_le
  have huntroubled : (t.facing faults).steady.Untroubled := by
    refine ⟨⟨?_, rfl, hspells⟩, rfl⟩
    exact hdecodes
  refine ⟨?_, fun guided b e b' => Window.retained_of_swap_error⟩
  obtain ⟨outcome, u, hu⟩ := huntroubled.answer_eq_ok
  obtain ⟨v, hv, hvu⟩ := exists_retried hmax hu
  refine ⟨outcome, u, hu, ⟨v, hv⟩, fun outcome' v' hv' => ?_⟩
  obtain ⟨rfl, rfl⟩ := hv.unique hv'
  exact ⟨rfl, hvu⟩

/-- A turn that is struck by a draw, a removal and a move ends as it does without them once it was
retried. -/
theorem retried_turn_ends_alike_of_struck_swaps :
    ∃ s w t,
      start 0 { prompt := "abc", keep := some 0, antiprompts := ["xyz"], cachePath := some "s.bin" }
        { contextSize := 8, script := Token.ofText "efghi", refused := ["abcd"] } {} = .ok s w ∧
      t = s.performAll [.request (.answer none), .request (.query "uvwxyz" none)] ∧
      gives (fun _ => true) (answer (t.facing
        { remove := [true], shift := [false, true], sample := [true] })) = false ∧
      ∃ outcome u v,
        answer (t.facing { remove := [true], shift := [false, true], sample := [true] }).steady =
          .ok outcome u ∧
        Retried (t.facing { remove := [true], shift := [false, true], sample := [true] })
          outcome v ∧
        v.redacted .transient = u.redacted .transient := by
  obtain ⟨s, w, h, htest⟩ := exists_of_gives
    (fun s : Session =>
      let t := (s.perform (.request (.answer none))).perform (.request (.query "uvwxyz" none))
      decide (∀ text ∈ t.config.antiprompts, text ∉ t.engine.refused) &&
        !gives (fun _ => true) (answer (t.facing
          { remove := [true], shift := [false, true], sample := [true] })))
    (r := start 0
      { prompt := "abc", keep := some 0, antiprompts := ["xyz"], cachePath := some "s.bin" }
      { contextSize := 8, script := Token.ofText "efghi", refused := ["abcd"] } {})
    (by decide +kernel)
  simp only [Bool.and_eq_true, decide_eq_true_eq, Bool.not_eq_true'] at htest
  obtain ⟨hspells, hfails⟩ := htest
  obtain ⟨⟨outcome, u, hu, ⟨v, hv⟩, hends⟩, -⟩ := retried_turn_ends_alike h
    ((Reached.refl.action (.request (.answer none))).action (.request (.query "uvwxyz" none)))
    { remove := [true], shift := [false, true], sample := [true] } (by rintro _ ⟨⟩) hspells
  exact ⟨s, w, _, h, rfl, hfails, outcome, u, v, hu, hv, (hends outcome v hv).2⟩

end Session

end Dialogue
