import Dialogue.Proofs.Swapping
import Dialogue.Proofs.TurnLength
import Dialogue.Proofs.RedactedBeginnings
/-!
# Sessions that end a turn in a full context

In a session whose context is not to be swapped, the cells stay where they are, and a step that does
not fit behind the resident tokens ends the turn. The step is cut to what a step can ever be and no
further; where it does not fit then, nothing else happens to it.
-/

namespace Dialogue

open Effect

namespace Session

variable {s t : Session}

/-- The pending tokens, cut to what a step can be. -/
def step (s : Session) : List Token := s.progress.pending.take s.window.maxStep

/-- Whether the step does not fit behind the resident tokens. -/
def Full (s : Session) : Prop :=
  s.window.size < s.progress.past + s.step.length + max s.offset 0

/-- Whether a step fits is a matter of counting. -/
instance (s : Session) : Decidable s.Full := inferInstanceAs (Decidable (_ < _))

/-- Whether the output takes the notice that tokens were cut off the step, if there are any. -/
def TellsCut (s : Session) : Prop :=
  s.window.maxStep < s.progress.pending.length →
    s.output.takes (cutNotice (s.progress.pending.length - s.window.maxStep)) = true

/-- Whether the notice is taken can be tried on the output. -/
instance (s : Session) : Decidable s.TellsCut := inferInstanceAs (Decidable (_ → _))

/-- A session that differs from another one in nothing but the tokens cut off the step and what was
told of that. -/
def CutTo (s t : Session) : Prop :=
  t = { s with
    progress := { s.progress with pending := s.step }
    journal := t.journal
    output := t.output }

/-- A session whose context is not to be swapped. -/
structure Unswapped (s : Session) : Prop where
  /-- A full context ends the turn. -/
  predict : s.config.predict = -2
  /-- A step can have tokens. -/
  maxStep_pos : 0 < s.window.maxStep
  /-- Positions are signed words. -/
  size_lt : s.window.size < 0x80000000

private theorem Unswapped.of_settled (h : s.Unswapped) (ht : t.settled = s.settled) :
    t.Unswapped := by
  obtain ⟨hpredict, hmax, hsize⟩ := h
  rw [← window_of_settled ht] at hmax hsize
  rw [← config_of_settled ht] at hpredict
  exact ⟨hpredict, hmax, hsize⟩

private theorem Begun.unswapped {config : Config} {engine : Engine} {directory : Directory}
    (h : Begun config engine directory s) (hp : config.predict = -2) : s.Unswapped where
  predict := h.predict.trans hp
  maxStep_pos := Nat.lt_of_lt_of_le (List.length_pos_iff.mpr h.queue_ne_nil) h.queue_le
  size_lt := by
    rw [h.size]
    exact Number.signedWord_lt _

/-! ### Arriving -/

/-- Cutting the step fails just if the output does not take the notice. -/
theorem ends_cutPending_step (s : Session) :
    Ends (cutPending s.window.maxStep) s fun r t => s.CutTo t ∧
      ((r = .ok () ∧ s.TellsCut) ∨ (r = .error (.io .outputFull) ∧ ¬ s.TellsCut)) := by
  simp only [cutPending, ends_bind, ends_get, ends_onlyIf]
  by_cases h : s.window.maxStep < s.progress.pending.length
  · rw [if_pos (by simpa using h), ends_advance, ends_report]
    simp only [write, ends_bind, ends_get, ends_modify, ends_failIf]
    cases htakes : s.output.takes (cutNotice (s.progress.pending.length - s.window.maxStep)) with
    | false => simp [CutTo, step, TellsCut, h, htakes]
    | true => simp [CutTo, step, TellsCut, h, htakes]
  · rw [if_neg (by simpa using h)]
    have hstep : s.step = s.progress.pending := List.take_of_length_le (Nat.le_of_not_lt h)
    refine ⟨?_, .inl ⟨trivial, fun hlt => absurd hlt h⟩⟩
    simp only [CutTo, hstep]

/-- The stop and the eviction are decided alike: both depend on whether the step as it was cut fits,
and the length of that is below the bound of signed words. -/
theorem Unswapped.overflows_iff (h : s.Unswapped) (ht : s.CutTo t) :
    t.overflows = true ↔ s.Full := by
  have hlength : s.step.length < 0x80000000 := by
    have hsize := h.size_lt
    have hle : s.step.length ≤ s.window.maxStep := List.length_take_le _ _
    simp only [Window.maxStep] at hle
    omega
  have hfits : t.overflows = s.window.overflows s.progress.past s.step.length s.offset := by
    rw [ht]
    rfl
  rw [hfits, Window.overflows, Number.signedWord_of_lt hlength, decide_eq_true_eq]
  exact Iff.rfl

/-- A step that fits arrives as it was cut, with the cells where they were. A step that does not fit
ends the turn and stays where it is. -/
theorem Unswapped.ends_arrive (h : s.Unswapped) (hne : s.progress.pending ≠ []) :
    Ends arrive s fun r t => s.CutTo t ∧
      match r with
      | .ok none => s.TellsCut ∧ ¬ s.Full
      | .ok (some reason) => reason = .contextFull ∧ s.TellsCut ∧ s.Full
      | .error e => e = .io .outputFull ∧ ¬ s.TellsCut := by
  have hpos := h.maxStep_pos
  simp only [arrive, ends_bind, ends_get]
  apply (ends_cutPending_step s).mono
  rintro r s₁ ⟨hs₁, hr⟩
  obtain ⟨rfl, htells⟩ | ⟨rfl, htells⟩ := hr
  · have hoverflows := h.overflows_iff hs₁
    have hconfig : s₁.config = s.config := by rw [hs₁]
    have hlength : s₁.progress.pending.length = s.step.length := by rw [hs₁]
    have hstep : 0 < s.step.length :=
      List.length_pos_iff.mpr (mt List.take_eq_nil_iff.mp (by simp [hne, Nat.ne_of_gt hpos]))
    simp only [ends_bind, ends_get, ends_ite, ends_report, ends_pure, hconfig, h.predict,
      decide_true, Bool.true_and]
    split
    · next hfull =>
      refine ⟨?_, trivial, htells, hoverflows.mp hfull⟩
      rw [CutTo, hs₁]
    · next hfits =>
      have hfull : ¬ s.Full := fun hfull => hfits (hoverflows.mpr hfull)
      have hroom : s₁.progress.pending.length ≤ s₁.room := by
        rw [hlength, hs₁]
        simp only [Full] at hfull
        simp only [room, Window.room, offset]
        simp only [offset] at hfull
        omega
      rw [ends_makeRoom_of_fits (Bool.not_eq_true _ ▸ hfits)]
      dsimp only
      rw [if_neg (by omega)]
      simp only [cutPending, ends_bind, ends_get, ends_onlyIf]
      rw [if_neg (by simpa using hroom)]
      exact ⟨hs₁, htells, hfull⟩
  · exact ⟨hs₁, rfl, htells⟩

/-! ### Evaluating a step -/

private theorem CutTo.filesAndSettled_eq (h : s.CutTo t) :
    t.filesAndSettled = s.filesAndSettled := by
    rw [h]; rfl

private theorem CutTo.hidden_eq (h : s.CutTo t) (m : Redaction) : t.hidden m = s.hidden m := by
  rw [h]
  rfl

/-- A step is fed just if it fits. Nothing of the session file changes, and no call is made but to
decode. -/
theorem Unswapped.ends_evaluatePending (h : s.Unswapped) (hne : s.progress.pending ≠ [])
    (hides : Service → Bool) (hdecodes : ∀ stream, hides (.decode stream) = false) :
    Ends evaluatePending s fun r t =>
      t.filesAndSettled = s.filesAndSettled ∧ t.hidden (.over hides) = s.hidden (.over hides) ∧
      (∀ reason, r = .ok (some reason) → reason = .contextFull ∧ s.CutTo t) ∧
      (s.TellsCut → (r = .ok (some .contextFull) ↔ s.Full)) ∧
      (¬ s.TellsCut → r = .error (.io .outputFull) ∧ s.CutTo t) := by
  simp only [evaluatePending, ends_bind, ends_get, if_neg hne]
  rw [evaluate_eq, ends_bind]
  apply (h.ends_arrive hne).mono
  rintro r t ⟨ht, hr⟩
  have hfilesAndSettled := ht.filesAndSettled_eq
  have hhidden := ht.hidden_eq (.over hides)
  rcases r with e | _ | reason
  · obtain ⟨rfl, htells⟩ := hr
    exact ⟨hfilesAndSettled, hhidden, by rintro _ ⟨⟩, fun htold => absurd htold htells,
      fun _ => ⟨rfl, ht⟩⟩
  rotate_left
  · obtain ⟨rfl, htells, hfull⟩ := hr
    refine ⟨hfilesAndSettled, hhidden, ?_, fun _ => ⟨fun _ => hfull, fun _ => rfl⟩,
      fun htold => absurd htells htold⟩
    rintro _ ⟨⟩
    exact ⟨rfl, ht⟩
  · obtain ⟨htells, hfull⟩ := hr
    -- A step that is fed ends no turn, whatever fails of it.
    have hfeeds : Unaware (.over hides) feedRest := unaware_feedRest hdecodes
    simp only [ends_bind, ends_pure]
    apply (Ends.keeps hfeeds.keeps_left).mono
    intro r u hu
    obtain ⟨huhidden, hukeeping⟩ := Prod.mk.inj hu
    have hfed (r : Except SessionError (Option StopReason)) (hr : ∀ reason, r ≠ .ok (some reason)) :
        u.filesAndSettled = s.filesAndSettled ∧ u.hidden (.over hides) = s.hidden (.over hides) ∧
          (∀ reason, r = .ok (some reason) → reason = .contextFull ∧ s.CutTo u) ∧
          (s.TellsCut → (r = .ok (some .contextFull) ↔ s.Full)) ∧
          (¬ s.TellsCut → r = .error (.io .outputFull) ∧ s.CutTo u) :=
      ⟨hukeeping.trans hfilesAndSettled, huhidden.trans hhidden, fun reason hs => absurd hs
        (hr reason),
        fun _ => ⟨fun hs => absurd hs (hr _), fun hs => absurd hs hfull⟩,
        fun htold => absurd htells htold⟩
    cases r with
    | error e => exact hfed _ (by rintro _ ⟨⟩)
    | ok _ => exact hfed _ (by rintro _ ⟨⟩)

/-! ### Dialogues -/

/-- What concerns a session whose context is not to be swapped throughout: what was settled, and
that no call is made of services that a pass of it does not need. -/
theorem invariant_unswapped (s₀ : Session) (hides : Service → Bool)
    (hdecodes : ∀ stream, hides (.decode stream) = false) (hsample : hides .sample = false)
    (hsave : hides .takeSnapshot = false) :
    Invariant (fun _ _ => True) fun s => s.Unswapped ∧ s.settled = s₀.settled ∧
      s.hidden (.over hides) = s₀.hidden (.over hides) where
  showing := fun _ _ ⟨hs, h⟩ => ⟨hs.of_settled rfl, h⟩
  pass := by
    rintro s ⟨hs, hsettled, hhidden⟩
    have hstep : Keeps (hidden (.over hides)) takeStep :=
      (heedless_takeStep (heedless_drawNext hsample (heedless_savePrompt hsave))).keeps_left
    have hfinish (reason : StopReason) : Keeps (hidden (.over hides)) (finish .terminated reason) :=
      (unaware_finish (m := .over hides) _ _).heedless.keeps_left
    have hpass : Ends pass s fun _ t => t.hidden (.over hides) = s.hidden (.over hides) := by
      have hevaluates : Ends evaluatePending s fun _ t =>
          t.hidden (.over hides) = s.hidden (.over hides) := by
        by_cases hne : s.progress.pending = []
        · simp only [evaluatePending, ends_bind, ends_get, if_pos hne, ends_pure]
        · exact (hs.ends_evaluatePending hne hides hdecodes).mono fun _ _ ht => ht.2.1
      rw [pass, ends_bind]
      apply hevaluates.mono
      intro r t ht
      match r with
      | .error e => exact ht
      | .ok none => exact (Ends.keeps hstep).mono fun _ _ hu => hu.trans ht
      | .ok (some reason) =>
        simp only [ends_bind, ends_pure]
        apply (Ends.keeps (hfinish reason)).mono
        intro r u hu
        cases r <;> exact hu.trans ht
    apply Ends.left (P := fun t : Session => t.Unswapped ∧ t.settled = s₀.settled ∧
      t.hidden (.over hides) = s₀.hidden (.over hides))
    apply ((Session.ends_pass s).and hpass).mono
    rintro r t ⟨⟨ht, -⟩, hthidden⟩
    exact ⟨hs.of_settled ht, ht.trans hsettled, hthidden.trans hhidden⟩
  query := by
    rintro s text room ⟨hs, hsettled, hhidden⟩ -
    have hquery := (unaware_query (m := .over hides) text).heedless.keeps_left (s.showing room)
    have ht := ((ends_query text (s.showing room)).mono fun _ _ ht => ht.1).left
    exact ⟨hs.of_settled ht, ht.trans hsettled, hquery.trans hhidden⟩
  reset := fun _ ⟨hs, h⟩ _ => ⟨hs.of_settled rfl, h⟩

/-- Unless a call fails, all of a step that is fed becomes resident as it was cut. -/
theorem Unswapped.passResident_eq (h : s.Unswapped) (hne : s.progress.pending ≠ [])
    (hfaultless : s.Faultless) {u : Session} (hu : evaluatePending s = .ok none u) :
    s.passResident = s.step := by
  have harrives : ∃ t, arrive s = .ok none t := by
    simp only [evaluatePending] at hu
    obtain ⟨_, _, ⟨⟩, hu⟩ := bind_eq_ok hu
    rw [if_neg hne, evaluate_eq] at hu
    obtain ⟨stop, t, ht, hu⟩ := bind_eq_ok hu
    cases stop with
    | none => exact ⟨t, ht⟩
    | some reason => cases hu
  obtain ⟨t, ht⟩ := harrives
  have hcut := ((h.ends_arrive hne).of_ok ht).1
  have htally : t.tally.batches = s.tally.batches := by rw [hcut]; rfl
  have hfailing : t.mainContext.failing = s.mainContext.failing := by rw [hcut]; rfl
  have hresident : s.decodedSince u = t.mainContext.reuse.pending := by
    -- What does not become resident has used up a decode failure.
    have hends : Ends evaluatePending s fun _ u => s.decodedSince u = t.mainContext.reuse.pending ∨
        u.mainContext.failing < s.mainContext.failing := by
      simp only [evaluatePending, ends_bind, ends_get, if_neg hne]
      rw [evaluate_eq, ends_bind, ends_iff_of_eq_ok ht]
      simp only [ends_bind, ends_pure]
      apply (ends_feedRest_whole t).mono
      intro r u hu
      rw [hfailing, decodedSince, htally] at hu
      cases r <;> exact hu
    refine (hends.of_ok hu).resolve_right fun hfewer => ?_
    rw [Faultless, hu] at hfaultless
    exact Nat.lt_irrefl _ (hfaultless ▸ hfewer)
  have hpending : t.progress.pending = s.step := by rw [hcut]
  rw [Session.passResident_eq, hu, left, hresident, reused_of_arrive ht, ← hpending]
  exact List.take_append_drop _ _

/-- In a session whose context is not to be swapped no cells are ever moved, and none are removed
once it has begun, whatever guidance there is and whatever fails. An evaluation leaves the session
cache alone and cuts the step to what a step can be and no further: what is fed is all of that, and
becomes resident unless a decode call fails. It ends the turn because the context is full just if
the step, cut so, does not fit behind the resident tokens, and then nothing else has changed. Only
where the output does not take the notice of the cut it fails instead, and nothing else has changed
either. -/
theorem full_context_ends_turn {now : Nat} {config : Config} {engine : Engine}
    {directory : Directory} {s : Session} {w : Workbench}
    (h : Session.start now config engine directory = .ok s w) (hpredict : config.predict = -2)
    (requests : List Request) :
    (s.serveAll requests).engine.callsFor .shift = engine.callsFor .shift ∧
    (s.serveAll requests).engine.callsFor .remove = s.engine.callsFor .remove ∧
    ∀ t, s.AtPass requests t → t.progress.pending ≠ [] →
      (left (evaluatePending t)).cache = t.cache ∧
      (∀ u, arrive t = .ok none u → u.progress.pending = t.progress.pending.take t.window.maxStep) ∧
      (t.Faultless → ∀ u, evaluatePending t = .ok none u →
        t.passResident = t.progress.pending.take t.window.maxStep) ∧
      (∀ reason u, evaluatePending t = .ok (some reason) u →
        reason = .contextFull ∧ t.CutTo u) ∧
      (t.TellsCut → ((∃ u, evaluatePending t = .ok (some .contextFull) u) ↔
        t.window.size < t.progress.past + (t.progress.pending.take t.window.maxStep).length +
          max t.offset 0)) ∧
      (¬ t.TellsCut → ∃ u, evaluatePending t = .error (.io .outputFull) u ∧ t.CutTo u) := by
  have hbegun := start_eq_ok h
  have hall : s.AllAllowed (fun _ _ => True) requests := allAllowed_true s requests
  have hinvariant (service : Service) (hdecodes : ∀ stream, .decode stream ≠ service)
      (hsample : .sample ≠ service) (hsave : .takeSnapshot ≠ service) :=
    invariant_unswapped s (· = service) (fun stream => decide_eq_false (hdecodes stream))
      (decide_eq_false hsample) (decide_eq_false hsave)
  have hcalls (service : Service) (hdecodes : ∀ stream, .decode stream ≠ service)
      (hsample : .sample ≠ service) (hsave : .takeSnapshot ≠ service) :
      (s.serveAll requests).engine.callsFor service = s.engine.callsFor service :=
    congrArg Prod.fst ((hinvariant service hdecodes hsample hsave).serveAll
      ⟨hbegun.unswapped hpredict, rfl, rfl⟩ hall).2.2
  refine ⟨?_, hcalls .remove nofun nofun nofun, fun t ht hne => ?_⟩
  · rw [hcalls .shift nofun nofun nofun]
    exact congrArg Prod.fst (Workbench.hidden_of_start (· = .shift) rfl rfl h)
  · have hunswapped := ((hinvariant .shift nofun nofun nofun).atPass
      ⟨hbegun.unswapped hpredict, rfl, rfl⟩ hall ht).1
    obtain ⟨r, ⟨hfilesAndSettled, -, hstops, hfull, huntold⟩, hok, herror⟩ :=
      (hunswapped.ends_evaluatePending hne (fun _ => false) fun _ => rfl).exists_left
    refine ⟨congrArg (·.1.2.2) hfilesAndSettled, fun u hu => ?_,
      fun hfaultless u hu => hunswapped.passResident_eq hne hfaultless hu, fun reason u hu => ?_,
      fun htells => ?_, fun htells => ?_⟩
    · rw [((hunswapped.ends_arrive hne).of_ok hu).1]
      rfl
    · have hcut := hstops reason ((hok _).mpr ⟨u, hu⟩)
      rwa [hu] at hcut
    · rw [← hok, hfull htells]
      rfl
    · obtain ⟨hr, hcut⟩ := huntold htells
      obtain ⟨u, hu⟩ := (herror _).mp hr
      rw [hu] at hcut
      exact ⟨u, hu, hcut⟩

/-- A context filled by an earlier answer ends the next turn, and nothing is moved. -/
theorem full_context_ends_turn_of_filled_context :
    ∃ s w t u, Session.start 0 { prompt := "abcd", predict := -2 }
        { contextSize := 8, script := Token.ofText "efghijkl" } {} = .ok s w ∧
      s.AtPass [.answer none] t ∧ t.progress.past = 8 ∧ t.progress.pending.length = 1 ∧
      evaluatePending t = .ok (some .contextFull) u ∧ t.CutTo u ∧
      (s.serveAll [.answer none]).engine.callsFor .shift = [] := by
  obtain ⟨s, w, h, htest⟩ := exists_of_gives
    (fun s : Session => decide ((s.serveAll [.answer none]).progress.past = 8) &&
      decide ((s.serveAll [.answer none]).progress.pending.length = 1) &&
      decide (((s.serveAll [.answer none]).showing none).TellsCut) &&
      decide (((s.serveAll [.answer none]).showing none).Full))
    (r := Session.start 0 { prompt := "abcd", predict := -2 }
      { contextSize := 8, script := Token.ofText "efghijkl" } {}) (by decide +kernel)
  simp only [Bool.and_eq_true, decide_eq_true_eq] at htest
  obtain ⟨⟨⟨hpast, hpending⟩, htells⟩, hfull⟩ := htest
  have ht : s.AtPass [.answer none] ((s.serveAll [.answer none]).showing none) :=
    ⟨none, Relation.ReflTransGen.refl⟩
  obtain ⟨hshift, -, hsteps⟩ := full_context_ends_turn h rfl [.answer none]
  obtain ⟨-, -, -, hstops, hstop, -⟩ :=
    hsteps _ ht (List.ne_nil_of_length_pos (Nat.lt_of_lt_of_eq Nat.one_pos hpending.symm))
  obtain ⟨u, hu⟩ := (hstop htells).mpr hfull
  exact ⟨s, w, _, u, h, ht, hpast, hpending, hu, (hstops _ _ hu).2, hshift⟩

/-- Where the output takes no more bytes, a step that does not fit even once it was cut does not end
the turn: the evaluation fails when the notice of the cut is to be shown. -/
theorem full_context_unseen_of_full_output :
    ∃ s w t u, Session.start 0 { prompt := "abcd", predict := -2 } { contextSize := 8 } {} =
        .ok s w ∧ s.AtPass [.answer none, .query "efghij" none] t ∧
      t.window.size < t.progress.past + (t.progress.pending.take t.window.maxStep).length +
        max t.offset 0 ∧
      evaluatePending t = .error (.io .outputFull) u := by
  obtain ⟨s, w, h, htest⟩ := exists_of_gives
    (fun s : Session =>
      goesOn (fun t : Session => decide t.Full &&
          match evaluatePending t with
          | .error (.io .outputFull) _ => true
          | _ => false)
        ((s.serveAll [.answer none, .query "efghij" none]).showing (some 0)))
    (r := Session.start 0 { prompt := "abcd", predict := -2 } { contextSize := 8 } {})
    (by decide +kernel)
  obtain ⟨t, ht, htest⟩ := exists_of_goesOn htest
  simp only [Bool.and_eq_true, decide_eq_true_eq] at htest
  obtain ⟨hfull, hfails⟩ := htest
  split at hfails
  · next u hu => exact ⟨s, w, t, u, h, ht, hfull, hu⟩
  · cases hfails

end Session

end Dialogue
