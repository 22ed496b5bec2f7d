import Dialogue.Proofs.Notices
import Dialogue.Proofs.Trusted
/-!
# What becomes resident

A step becomes resident in two ways: the session holds the beginning of it, which is skipped, and
the rest is decoded in batches. An evaluation that neither stops nor fails makes the whole step
resident that arrived; how much of it was cut off before is told to the user.
-/

namespace Dialogue

open Effect

/-- Batches of the main context, one placed behind the other from a position on. -/
def Batch.laid (p : Int) : List (List Token) → List Batch
  | [] => []
  | b :: l => ⟨.main, b, p⟩ :: laid (p + b.length) l

private theorem Batch.length_laid (p : Int) (l : List (List Token)) :
    (laid p l).length = l.length := by
  induction l generalizing p with
  | nil => rfl
  | cons b l ih => simp [laid, ih]

/-- The tokens of batches placed one behind the other are those of the pieces. -/
theorem Batch.flatMap_tokens_laid (p : Int) (l : List (List Token)) :
    (laid p l).flatMap (·.tokens) = l.flatten := by
  induction l generalizing p with
  | nil => rfl
  | cons b l ih => simp [laid, ih]

namespace Tally

/-- The tally after batches were decoded from a position on, and one more failed or did not. -/
def fed (t : Tally) (p : Int) (done : List (List Token)) (failed : Bool) : Tally :=
  { t with
    decodes := t.decodes + done.length + failed.toNat
    batches := t.batches ++ Batch.laid p done }

/-- One more decode call failed if the feed did. -/
theorem failed_fed (t : Tally) (p : Int) (done : List (List Token)) (failed : Bool) :
    (t.fed p done failed).failed = t.failed + failed.toNat := by
  simp only [Tally.failed, fed, List.length_append, Batch.length_laid]
  omega

private theorem fed_cons (t : Tally) (p : Int) (b : List Token) (done : List (List Token))
    (failed : Bool) :
    (t.fed p [b] false).fed (p + b.length) done failed = t.fed p (b :: done) failed := by
  ext1
  · rfl
  · simp only [fed, List.length_cons, List.length_nil, Bool.toNat_false]
    omega
  · simp [fed, Batch.laid]
  · rfl

end Tally

/-! ### Decoding -/

namespace Feed

open Workbench

private theorem tally_decoded (w : Workbench) (b : List Token) (p : Int) (e : Engine)
    (hcalls : e.calls = w.engine.calls.push (.decode .main b p))
    (hbatches : e.batches = w.engine.batches.push ⟨.main, b, p⟩) :
    tally { w with
      journal := w.journal.push (.decoding .main p b.length), engine := e } =
      w.tally.fed p [b] false := by
  simp [tally, Tally.fed, Engine.accepted, Engine.mainDecodes, Engine.mainBatches, hcalls, hbatches,
    Call.accepted?, Call.decodesMain, Event.cut?, Batch.laid]

private theorem tally_undecoded (w : Workbench) (b : List Token) (p : Int) (e : Engine)
    (hcalls : e.calls = w.engine.calls.push (.decode .main b p))
    (hbatches : e.batches = w.engine.batches) :
    tally { w with
      journal := w.journal.push (.decoding .main p b.length), engine := e } =
      w.tally.fed p [] true := by
  simp [tally, Tally.fed, Engine.accepted, Engine.mainDecodes, Engine.mainBatches, hcalls, hbatches,
    Call.accepted?, Call.decodesMain, Event.cut?, Batch.laid]

private theorem ends_batches_tally (l : List (List Token)) (p : Int) (n : Nat) (w : Workbench) :
    Ends (batches .main l p n) w fun r t => ∃ done failed,
      done.flatten <+: l.flatten ∧ t.tally = w.tally.fed p done failed ∧
        match r with
        | .ok q => failed = false ∧ done = l ∧ q = p + done.flatten.length
        | .error e => failed = true ∧ e.position = p + done.flatten.length := by
  induction l generalizing p n w with
  | nil =>
    refine ⟨[], false, List.nil_prefix, ?_, rfl, rfl, ?_⟩
    · simp [Tally.fed, Batch.laid]
    · simp
  | cons b l ih =>
    unfold batches
    rw [ends_bind, ends_report, ends_bind, ends_adaptExcept, ends_call]
    by_cases h : w.engine.faults.decodeMain.headD false = true
    · rw [ends_iff_of_eq_error (Engine.decode_main_eq_error h)]
      refine ⟨[], true, List.nil_prefix, tally_undecoded w b p _ rfl rfl, rfl, ?_⟩
      simp
    · rw [Bool.not_eq_true] at h
      rw [ends_iff_of_eq_ok (Engine.decode_main_eq_ok h)]
      apply (ih _ _ _).mono
      rintro r t ⟨done, failed, hdone, ht, hr⟩
      rw [tally_decoded w b p _ rfl rfl, Tally.fed_cons] at ht
      refine ⟨b :: done, failed, ?_, ht, ?_⟩
      · simpa using hdone
      · cases r with
        | ok q =>
          obtain ⟨hf, rfl, hq⟩ := hr
          refine ⟨hf, rfl, ?_⟩
          simp only [List.flatten_cons, List.length_append]
          omega
        | error e =>
          refine ⟨hr.1, ?_⟩
          simp only [hr.2, List.flatten_cons, List.length_append]
          omega

/-- Feeding decodes a first part of the tokens, all of them unless a call fails. -/
theorem ends_feed_main_tally (tokens : List Token) (n : Nat) (w : Workbench) :
    Ends (feed .main tokens n) w fun r t => ∃ done failed,
      done.flatten <+: tokens ∧ t.tally = w.tally.fed w.progress.past done failed ∧
        t.progress.past = w.progress.past + done.flatten.length ∧
        (failed = false → r = .ok () ∧ done.flatten = tokens) := by
  simp only [feed, ends_bind, ends_get, ends_attempt]
  apply ((ends_batches_tally (pieces n tokens) w.progress.past 0 w)).mono
  rintro r t ⟨done, failed, hdone, ht, hr⟩
  rw [flatten_pieces] at hdone
  refine match r with
    | .ok q => ?_
    | .error e => ?_
  · obtain ⟨hf, rfl, rfl⟩ := hr
    refine ⟨pieces n tokens, failed, hdone, ?_, rfl, fun _ => ⟨rfl, flatten_pieces n tokens⟩⟩
    exact (tally_report rfl _).trans ht
  · refine ⟨done, failed, hdone, ht, hr.2, ?_⟩
    simp [hr.1]

end Feed

namespace Session

/-- The tokens that were decoded into the main context since an earlier state of the session. -/
def decodedSince (s t : Session) : List Token :=
  (t.tally.batches.drop s.tally.batches.length).flatMap (·.tokens)

/-- What was decoded depends on the batches only. -/
theorem decodedSince_congr {s t u : Session} (h : u.tally.batches = t.tally.batches) :
    s.decodedSince u = s.decodedSince t := by
  rw [decodedSince, decodedSince, h]

/-- Nothing is decoded where there are no more batches. -/
theorem decodedSince_of_batches {s t : Session} (h : t.tally.batches = s.tally.batches) :
    s.decodedSince t = [] := by
  rw [decodedSince, h, List.drop_length]
  rfl

private theorem ends_feedMain_tally (s : Session) :
    Ends feedMain s fun r t => ∃ done failed,
      done.flatten <+: s.progress.pending ∧ t.tally = s.tally.fed s.progress.past done failed ∧
        t.progress.past = s.progress.past + done.flatten.length ∧
        (failed = false → r = .ok () ∧ done.flatten = s.progress.pending) := by
  rw [ends_feedMain_iff]
  apply (Feed.ends_feed_main_tally _ _ s.toWorkbench).mono
  rintro r b ⟨done, failed, hdone, hb, hpast, hr⟩
  cases r with
  | ok _ =>
    dsimp only
    obtain ⟨_, _, ht⟩ := exists_logging_eq { s with toWorkbench := b, decodeFailures := 0 }
      s.progress.pending.length
    rw [ht]
    exact ⟨done, failed, hdone, hb, hpast, fun hf => ⟨rfl, (hr hf).2⟩⟩
  | error e =>
    dsimp only
    obtain ⟨_, _, ht⟩ := exists_failing_eq { s with toWorkbench := b } e
    rw [ht]
    have htally : Workbench.tally
        { b with journal := b.journal.push (.decodeFailed e.message (s.decodeFailures + 1)) } =
          s.tally.fed s.progress.past done failed := (Workbench.tally_report rfl b).trans hb
    cases failed with
    | true => split <;> exact ⟨done, true, hdone, htally, hpast, by rintro ⟨⟩⟩
    | false => cases (hr rfl).1

/-- What skipping and feeding a step that has arrived comes to: of what is not skipped the first
tokens are decoded, all of them unless a call fails. -/
theorem ends_feedRest_tally (s : Session) :
    Ends feedRest s fun r t => ∃ done failed,
      Decoded s.mainContext.reuse done.flatten.length t.mainContext ∧
        s.mainContext.reuse.pending.take done.flatten.length = done.flatten ∧
        t.tally = s.tally.fed s.mainContext.reuse.past done failed ∧
        (failed = false → r = .ok () ∧ done.flatten = s.mainContext.reuse.pending) := by
  have hguidance (s : Session) : Ends feedGuidance s fun r t =>
      r = .ok () ∧ t.mainContext = s.mainContext ∧ t.tally = s.tally := by
    apply ((ends_feedGuidance s).and (Ends.keeps frame_tally.keeps_feedGuidance)).mono
    rintro r t ⟨⟨hr, -, hv⟩, ht⟩
    exact ⟨hr, hv, ht⟩
  simp only [feedRest, ends_bind, ends_advance]
  apply (hguidance _).mono
  rintro r t ⟨rfl, hv, ht⟩
  have hreuse : t.mainContext = s.mainContext.reuse := hv
  apply ((ends_feedMain t).and (ends_feedMain_tally t)).mono
  rintro r u ⟨⟨-, hf⟩, done, failed, hdone, hu, hpast, hr⟩
  obtain ⟨m, hd⟩ := hf.decoded
  have hm : m = done.flatten.length := by
    have hcount : u.mainContext.past = t.mainContext.past + done.flatten.length := hpast
    have hsame := hd.past
    omega
  rw [hm, hreuse] at hd
  have hpending : t.progress.pending = s.mainContext.reuse.pending :=
    congrArg MainContext.pending hreuse
  have hpast : t.progress.past = s.mainContext.reuse.past := congrArg MainContext.past hreuse
  rw [hpending] at hdone hr
  rw [hpast, ht] at hu
  exact ⟨done, failed, hd, (List.prefix_iff_eq_take.mp hdone).symm, hu, hr⟩

/-! ### Evaluating -/

/-- An evaluation has nothing to do, or ends before the step is fed, or feeds it. -/
theorem ends_evaluatePending_of {s : Session}
    {Q : Except SessionError (Option StopReason) → Session → Prop}
    (hidle : s.progress.pending = [] → Q (.ok none) s)
    (hstop : Ends arrive s fun r t => r ≠ .ok none → Q r t)
    (hfed : ∀ u, arrive s = .ok none u → Ends feedRest u fun r t => Q (r.map fun _ => none) t) :
    Ends evaluatePending s Q := by
  simp only [evaluatePending, ends_bind, ends_get, ends_ite]
  split
  · next h => exact hidle h
  · rw [evaluate_eq, ends_bind]
    match hr : arrive s with
    | .error e t =>
      rw [ends_iff_of_eq_error hr] at hstop ⊢
      exact hstop nofun
    | .ok (some reason) t =>
      rw [ends_iff_of_eq_ok hr] at hstop ⊢
      exact hstop nofun
    | .ok none u =>
      rw [ends_iff_of_eq_ok hr]
      simp only [ends_bind, ends_pure]
      apply (hfed u hr).mono
      intro r t hQ
      cases r <;> exact hQ

/-- The pending tokens that an evaluation skips because the session holds them. -/
def reused (s : Session) : List Token :=
  match arrive s with
  | .ok none u => u.progress.pending.take u.mainContext.skipped
  | _ => []

/-- What is skipped of a step that arrives is what its context skips. -/
theorem reused_of_arrive {s u : Session} (h : arrive s = .ok none u) :
    s.reused = u.progress.pending.take u.mainContext.skipped := by
  rw [reused, h]

/-- Nothing is skipped of a step that does not arrive. -/
theorem ends_arrive_reused (s : Session) :
    Ends arrive s fun r _ => r ≠ .ok none → s.reused = [] := by
  unfold Ends reused
  match arrive s with
  | .error e t => exact fun _ => rfl
  | .ok (some reason) t => exact fun _ => rfl
  | .ok none t => exact fun h => absurd rfl h

/-- Nothing is skipped where nothing is pending. -/
theorem reused_of_pending_eq_nil {s : Session} (h : s.progress.pending = []) : s.reused = [] := by
  unfold reused
  split
  · next u ha =>
    obtain ⟨_, hs, -⟩ := (ends_arrive_told s).of_ok ha
    have hnil := hs.pending
    rw [h, List.prefix_nil] at hnil
    rw [hnil, List.take_nil]
  · rfl

/-- The tokens that become resident in a pass: those that are skipped, and those that are decoded.
-/
def passResident (s : Session) : List Token := s.reused ++ s.decodedSince (left (pass s))

end Session

end Dialogue
