import Dialogue.Proofs.Tally
/-!
# Taking the next step

The next step is filled with just those tokens that the sampler is told of, whether they are queued
or drawn, also if something fails on the way. Nothing else that follows an evaluation changes the
tally or the step.
-/

namespace Dialogue.Session

open Effect

/-- Whether a computation adds to the step just what it tells the sampler of. -/
def Takes {α : Type} (x : SessionM α) : Prop :=
  ∀ s, Ends x s fun _ t => ∃ tokens,
    t.tally = { s.tally with accepted := s.tally.accepted ++ tokens } ∧
      t.progress.pending = s.progress.pending ++ tokens

private theorem Takes.of_ends {α : Type} {x : SessionM α} (ht : Keeps tally x)
    (hp : ∀ s, Ends x s fun _ t => t.progress.pending = s.progress.pending) : Takes x := by
  intro s
  apply ((Ends.keeps ht).and (hp s)).mono
  rintro r t ⟨ht, hp⟩
  refine ⟨[], ?_, ?_⟩
  · rw [ht, List.append_nil]
  · rw [hp, List.append_nil]

private theorem Takes.of_keeps {α : Type} {x : SessionM α} (ht : Keeps tally x)
    (hs : Keeps settledAndMain x) :
    Takes x := by
  apply Takes.of_ends ht
  intro s
  apply (Ends.keeps hs).mono
  intro r t h
  exact congrArg MainContext.pending (settledAndMain_eq h).2

private theorem Takes.bind {α β : Type} {x : SessionM α} {g : α → SessionM β} (hx : Takes x)
    (hg : ∀ a, Takes (g a)) : Takes (x >>= g) := by
  intro s
  rw [ends_bind]
  apply (hx s).mono
  rintro r t ⟨tokens, ht, hp⟩
  cases r with
  | error e => exact ⟨tokens, ht, hp⟩
  | ok a =>
    apply (hg a t).mono
    rintro r u ⟨more, hu, hp'⟩
    refine ⟨tokens ++ more, ?_, ?_⟩
    · rw [hu, ht, List.append_assoc]
    · rw [hp', hp, List.append_assoc]

private theorem tally_accept (s : Session) (token : Token) (sampled : Bool) :
    Workbench.tally { s.toWorkbench with
      engine := { s.engine with calls := s.engine.calls.push (.accept token sampled) } } =
      { s.tally with accepted := s.tally.accepted ++ [token] } := by
  simp [tally, Workbench.tally, Engine.accepted, Engine.mainDecodes, Engine.mainBatches,
    Call.accepted?, Call.decodesMain]

private theorem takes_takeQueued (token : Token) : Takes (takeQueued token) := by
  intro s
  exact ⟨[token], tally_accept s token false, rfl⟩

private theorem takes_drawNext : Takes drawNext := by
  apply Takes.bind
  · apply Takes.of_ends frame_tally.keeps_savePrompt
    intro s
    apply (ends_savePrompt s).mono
    rintro r t ⟨-, hs⟩
    change t.mainContext.pending = s.mainContext.pending
    generalize t.mainContext = u at hs
    cases hs <;> rfl
  · intro _
    apply Takes.bind (Takes.of_keeps Keeps.get Keeps.get)
    intro s
    apply Takes.bind
    · exact Takes.of_keeps (keeps_tally_call (Engine.keeps_tallied_sample _))
        (keeps_settledAndMain_call (Engine.keeps_mainPart_sample _))
    · intro token t
      refine ⟨[token], ?_, rfl⟩
      exact (Workbench.tally_report rfl _).trans (tally_accept t token true)

private theorem takes_forM_takeQueued (l : List Token) : Takes (l.forM takeQueued) := by
  induction l with
  | nil => exact Takes.of_keeps (Keeps.pure _) (Keeps.pure _)
  | cons token l ih => exact Takes.bind (takes_takeQueued token) fun _ => ih

/-- Filling the next step adds to it just what the sampler is told of. -/
theorem takes_refill : Takes refill := by
  apply Takes.bind (Takes.of_keeps Keeps.get Keeps.get)
  intro s
  have henters (phase : Phase) : Takes (enter phase) :=
    Takes.of_keeps (frame_tally.keeps_enter phase) (keeps_settledAndMain_enter phase)
  split
  · apply Takes.bind (henters _)
    intro _
    split
    · exact Takes.of_keeps (frame_tally.keeps_report rfl) (keeps_settledAndMain_report _)
    · exact takes_drawNext
  · apply Takes.bind (henters _)
    intro _
    apply Takes.bind (Takes.of_keeps Keeps.get Keeps.get)
    intro t
    apply Takes.bind (Takes.of_keeps (frame_tally.keeps_report rfl) (keeps_settledAndMain_report _))
    intro _
    exact takes_forM_takeQueued _

/-- The next step is filled with what the sampler is told of. -/
theorem ends_takeStep_taken (s : Session) :
    Ends takeStep s fun _ t =>
      t.tally = { s.tally with accepted := s.tally.accepted ++ t.progress.pending } := by
  have hrest : Takes (refill >>= fun _ => display >>= fun _ => conclude) := by
    apply Takes.bind takes_refill
    intro _
    apply Takes.bind (Takes.of_keeps keeps_tally_display keeps_settledAndMain_display)
    intro _
    apply Takes.of_ends frame_tally.keeps_conclude
    intro s
    apply (queues_conclude s).mono
    rintro r t ⟨-, tokens, ht⟩
    exact congrArg MainContext.pending ht
  have hclears : Keeps tally clearPending := keeps_tally_advance _
  rw [takeStep, ends_bind]
  apply ((ends_clearPending s).and (Ends.keeps hclears)).mono
  rintro _ t ⟨⟨rfl, -, hv⟩, ht⟩
  have hempty : t.progress.pending = [] := congrArg MainContext.pending hv
  apply (hrest t).mono
  rintro r u ⟨tokens, hu, hp⟩
  rw [hempty, List.nil_append] at hp
  rw [hu, ht, hp]

/-- Taking the next step tells the sampler of the step that it leaves. -/
theorem tally_takeStep (s : Session) :
    (left (takeStep s)).tally =
      { s.tally with accepted := s.tally.accepted ++ (left (takeStep s)).progress.pending } :=
  Ends.left (P := fun t : Session =>
    t.tally = { s.tally with accepted := s.tally.accepted ++ t.progress.pending })
    (ends_takeStep_taken s)

/-! ### A pass -/

/-- After an evaluation that lets the dialogue go on, the next step is taken. -/
theorem pass_eq_takeStep {s t : Session} (h : evaluatePending s = .ok none t) :
    pass s = takeStep t := bind_eq_of_ok h

/-- A pass that lets the dialogue go on leaves what the next step leaves. -/
theorem left_pass_of_goes_on {s t : Session} (h : evaluatePending s = .ok none t) :
    left (pass s) = left (takeStep t) := congrArg left (pass_eq_takeStep h)

/-- Otherwise the pass ends with the evaluation, and what the end of a turn leaves alone stays. -/
theorem keeps_pass_of_ends {α : Type} {f : Session → α}
    (hfinish : ∀ reason, Keeps f (finish .terminated reason)) {s : Session}
    (h : ∀ t, evaluatePending s ≠ .ok none t) :
    f (left (pass s)) = f (left (evaluatePending s)) := by
  rw [pass]
  cases hr : evaluatePending s with
  | error e t =>
    rw [bind_eq_of_error hr]
    rfl
  | ok stop t =>
    rw [bind_eq_of_ok hr]
    cases stop with
    | none => exact absurd hr (h t)
    | some reason => exact Keeps.bind (hfinish reason) (fun _ => .pure _) t

/-- A pass that ends the dialogue adds nothing to the tally of its evaluation. -/
theorem left_pass_of_ends {s : Session} (h : ∀ t, evaluatePending s ≠ .ok none t) :
    (left (pass s)).tally = (left (evaluatePending s)).tally ∧
      (left (pass s)).progress.pending = (left (evaluatePending s)).progress.pending := by
  have hsettledAndMain :=
    keeps_pass_of_ends (fun reason => keeps_settledAndMain_finish .terminated reason) h
  exact ⟨keeps_pass_of_ends (fun reason => frame_tally.keeps_finish .terminated reason) h,
    congrArg MainContext.pending (settledAndMain_eq hsettledAndMain).2⟩

end Dialogue.Session
