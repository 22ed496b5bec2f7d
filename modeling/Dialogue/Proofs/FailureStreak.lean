import Dialogue.Effect.Shuns
import Dialogue.Proofs.GuidedDraws
import Dialogue.Proofs.Prompting
import Dialogue.Proofs.FileState
import Dialogue.Proofs.Starting
import Dialogue.Proofs.TurnLength
/-!
# Steps that fail in a row

The steps that could not be decoded are counted as long as none between them could. What counts is
what comes of feeding the main context: a step that does not arrive there does not count, nor does a
failure of guidance, and a step of which nothing is left to be fed is one that could be decoded. The
turn is given up at the failure with which the count reaches the bound, if there is one.
-/

namespace Dialogue

open Effect

/-- Whether decoding failed too often in a row. -/
def SessionError.OfDecoding (e : SessionError) : Prop := ∃ n cause, e = .decodeFailed n cause

namespace Session

/-! ### Giving up -/

/-- Whether a computation never gives the turn up because of decoding. -/
abbrev Persists {α : Type} (x : SessionM α) : Prop := Shuns SessionError.OfDecoding x

private theorem persists_call {α : Type} (x : EngineM α) : Persists (call x) :=
  .adaptExcept (by rintro e ⟨_, _, ⟨⟩⟩) _

private theorem persists_write (text : String) : Persists (write text) :=
  .bind .get fun _ => .bind (.modify _) fun _ => .failIf _ (by rintro ⟨_, _, ⟨⟩⟩)

private theorem persists_accept (token : Token) (sampled : Bool) :
    Persists (accept token sampled) :=
  .bind (persists_call _) fun _ => .modify _

private theorem persists_refill : Persists refill := by
  have hsaves : Persists savePrompt := by
    refine fun s => (ends_savePrompt_ok s).mono ?_
    rintro _ _ rfl e - h
    cases h
  have hdraws : Persists drawNext := by
    refine .bind hsaves fun _ => ?_
    refine .bind .get fun _ => ?_
    refine .bind (persists_call _) fun _ => ?_
    refine .bind (persists_accept _ _) fun _ => ?_
    exact .bind (.modify _) fun _ => .modify _
  have hdrains : Persists drainQueue := by
    refine .bind .get fun _ => ?_
    refine .bind (.modify _) fun _ => ?_
    exact .forM fun _ => .bind (persists_accept _ _) fun _ => .modify _
  refine .bind .get fun _ => ?_
  refine .ite ?_ ?_
  · exact .bind (.modify _) fun _ => .ite (.modify _) hdraws
  · exact .bind (.modify _) fun _ => hdrains

private theorem persists_display : Persists display := by
  refine .bind .get fun _ => ?_
  refine .onlyIf _ ?_
  refine .bind (.modify _) fun _ => ?_
  exact .forM fun _ => .bind (persists_write _) fun _ => .modify _

/-- Finishing a turn does not give it up. -/
theorem persists_finish (phase : Phase) (reason : StopReason) : Persists (finish phase reason) := by
  refine .bind (.modify _) fun _ => ?_
  refine .bind .get fun _ => ?_
  exact .bind (.modify _) fun _ => .pure _

private theorem persists_conclude : Persists conclude := by
  have hreturns (reason : StopReason) : Persists (finishIfUserTurn reason) :=
    .bind .get fun _ => .ite (.bind (persists_finish _ _) fun _ => .pure _) (.pure _)
  have hqueues : Persists queueAntiprompt := by
    refine .bind .get fun s => ?_
    split
    · exact .pure _
    · exact .bind (persists_call _) fun _ => .modify _
  have hreports : Persists reportAntiprompt := by
    refine .bind .get fun s => ?_
    split
    · exact .pure _
    · exact .modify _
  have hhands : Persists handOver := by
    refine .bind hreports fun _ => ?_
    refine .bind .get fun _ => ?_
    refine .bind (.onlyIf _ hqueues) fun _ => ?_
    refine .bind (.onlyIf _ (.bind (.modify _) fun _ => persists_write _)) fun _ => ?_
    exact .bind (.modify _) fun _ => .pure _
  have hconcludes (spent : Bool) : Persists (concludeDrained spent) := by
    refine .bind hhands fun _ => ?_
    refine .ite ?_ (hreturns _)
    refine .bind (.modify _) fun _ => ?_
    exact .bind (persists_finish _ _) fun _ => .pure _
  refine .bind .get fun _ => ?_
  refine .bind (.onlyIf _ (.bind .get fun _ => .modify _)) fun _ => ?_
  exact .ite (.bind (persists_finish _ _) fun _ => .pure _) (.ite (hconcludes _) (hreturns _))

/-- Taking the next step does not give the turn up. -/
theorem persists_takeStep : Persists takeStep := by
  refine .bind (.modify _) fun _ => ?_
  refine .bind persists_refill fun _ => ?_
  exact .bind persists_display fun _ => persists_conclude

/-! ### Feeding the main context -/

private theorem keeps_decodeFailures_arrive : Keeps decodeFailures arrive := by
  have hmakes : Keeps decodeFailures makeRoom :=
    .bind .get fun s => .bind (keeps_onBench (fun _ _ => rfl) _ _) fun _ => .pure _
  refine .bind .get fun _ => ?_
  refine .bind (keeps_decodeFailures_cutPending _) fun _ => ?_
  refine .bind .get fun _ => ?_
  refine .ite (.bind (.modify fun _ => rfl) fun _ => .pure _) ?_
  refine .bind hmakes fun _ => ?_
  refine .bind .get fun _ => ?_
  refine .ite (.bind (.modify fun _ => rfl) fun _ => .pure _) ?_
  exact .bind (keeps_decodeFailures_cutPending _) fun _ => .pure _

variable {s t u p : Session}

/-- The session as a pass feeds the main context, if a step arrives there. What the session holds of
the step is skipped then, and the guidance context is fed. -/
def feeding? (s : Session) : Option Session :=
  if s.progress.pending = [] then none
  else
    match arrive s with
    | .ok none u => some (left (feedGuidance u.reusing))
    | _ => none

/-- What comes of feeding the main context in a pass, if a step arrives there. -/
def mainFeed? (s : Session) : Option (Except DecodeError Unit) :=
  s.feeding?.map fun u =>
    outcome (Feed.feed .main u.progress.pending u.config.batchSize u.toWorkbench)

/-- Whether feeding the main context fails in a pass, if a step arrives there. -/
def feedFails? (s : Session) : Option Bool := s.mainFeed?.map fun r => !r.isOk

/-- A feed fails if the main context is fed and that ends in a failure. -/
theorem feedFails?_eq_some_true :
    s.feedFails? = some true ↔ ∃ e, s.mainFeed? = some (.error e) := by
  rw [feedFails?]
  match s.mainFeed? with
  | none => simp
  | some (.ok u) => simp [Except.isOk, Except.toBool]
  | some (.error e) => simp [Except.isOk, Except.toBool]

/-- A step of which nothing is left to be fed does not fail. -/
theorem mainFeed?_of_reused (h : s.feeding? = some u) (hu : u.progress.pending = []) :
    s.mainFeed? = some (.ok ()) := by
  simp only [mainFeed?, h, Option.map_some, hu, Feed.feed, Feed.evaluate, pieces_nil]
  rfl

/-- Skipping and feeding a step comes to feeding the main context. -/
theorem ends_feedRest_iff {Q : Except SessionError Unit → Session → Prop} :
    Ends feedRest s Q ↔ Ends feedMain (left (feedGuidance s.reusing)) Q := by
  have hguidance : feedGuidance s.reusing = .ok () (left (feedGuidance s.reusing)) := by
    have hends := ends_feedGuidance s.reusing
    cases h : feedGuidance s.reusing with
    | ok a t => rfl
    | error e t =>
      rw [ends_iff_of_eq_error h] at hends
      cases hends.1
  have hfeeds : feedRest s = feedMain (left (feedGuidance s.reusing)) := bind_eq_of_ok hguidance
  unfold Ends
  rw [hfeeds]

/-- An evaluation feeds the main context if a step arrives there, and else it has nothing to do or
ends before. -/
theorem ends_evaluatePending_feeding {Q : Except SessionError (Option StopReason) → Session → Prop}
    (hidle : s.feeding? = none → Q (.ok none) s)
    (hstop : s.feeding? = none → Ends arrive s fun r t => r ≠ .ok none → Q r t)
    (hfed : ∀ u, s.feeding? = some u → Ends feedMain u fun r t => Q (r.map fun _ => none) t) :
    Ends evaluatePending s Q := by
  by_cases hne : s.progress.pending = []
  · simp only [evaluatePending, ends_bind, ends_get, if_pos hne, ends_pure]
    exact hidle (if_pos hne)
  · have hfeeding (u : Session) (hu : arrive s = .ok none u) :
        s.feeding? = some (left (feedGuidance u.reusing)) := by
      rw [feeding?, if_neg hne, hu]
    apply ends_evaluatePending_of (fun hnil => absurd hnil hne)
    · unfold Ends
      cases h : arrive s with
      | error e t =>
        have hstop := hstop (by rw [feeding?, if_neg hne, h])
        rwa [ends_iff_of_eq_error h] at hstop
      | ok stop t =>
        cases stop with
        | none => exact fun h => absurd rfl h
        | some reason =>
          have hstop := hstop (by rw [feeding?, if_neg hne, h])
          rwa [ends_iff_of_eq_ok h] at hstop
    · intro u hu
      rw [ends_feedRest_iff]
      exact hfed _ (hfeeding u hu)

/-- What is settled stays until the main context is fed. -/
theorem settled_of_feeding (h : s.feeding? = some u) :
    u.settled = s.settled ∧ u.decodeFailures = s.decodeFailures := by
  unfold feeding? at h
  split at h
  · cases h
  · split at h
    · next v hv =>
      cases h
      obtain ⟨⟨hsettled, -⟩, hfailures⟩ :=
        ((ends_arrive s).and (Ends.keeps keeps_decodeFailures_arrive)).of_ok hv
      have hguidance := ((ends_feedGuidance v.reusing).mono fun _ _ h => h.2.1).left
      exact ⟨hguidance.trans hsettled,
        (frame_decodeFailures.keeps_feedGuidance v.reusing).trans hfailures⟩
    · cases h

/-! ### Counting -/

/-- What an evaluation makes of the count of failures in a row, and when it gives the turn up. -/
structure Judged {α : Type} (s : Session) (r : Except SessionError α) (t : Session) : Prop where
  /-- A failure counts, and a step that is fed ends the count. -/
  count : t.decodeFailures =
    match s.feedFails? with
    | none => s.decodeFailures
    | some false => 0
    | some true => s.decodeFailures + 1
  /-- The turn is given up at a failure with which the count reaches the bound. -/
  givenUp : ∀ n e, r = .error (.decodeFailed n e) ↔ s.mainFeed? = some (.error e) ∧
    0 < s.config.maxDecodeFailures ∧ s.config.maxDecodeFailures ≤ s.decodeFailures + 1 ∧
      n = s.decodeFailures + 1

section Judged

variable {α : Type} {r : Except SessionError α}

private theorem Judged.of_unfed (h : s.feeding? = none) (ht : t.decodeFailures = s.decodeFailures)
    (hr : ∀ n e, r ≠ .error (.decodeFailed n e)) : s.Judged r t := by
  have hnone : s.mainFeed? = none := by rw [mainFeed?, h, Option.map_none]
  refine ⟨?_, fun n e => ?_⟩
  · rw [feedFails?, hnone]
    exact ht
  · rw [hnone]
    constructor
    · exact fun h => absurd h (hr n e)
    · rintro ⟨⟨⟩, -⟩

private theorem Judged.of_fed {u : Unit} (h : s.mainFeed? = some (.ok u))
    (ht : t.decodeFailures = 0) (hr : ∀ n e, r ≠ .error (.decodeFailed n e)) : s.Judged r t := by
  refine ⟨?_, fun n e => ?_⟩
  · rw [feedFails?, h]
    exact ht
  · rw [h]
    constructor
    · exact fun h => absurd h (hr n e)
    · rintro ⟨⟨⟩, -⟩

private theorem Judged.of_failed {e : DecodeError} {a : α} (h : s.mainFeed? = some (.error e))
    (ht : t.decodeFailures = s.decodeFailures + 1)
    (hr : r = if 0 < s.config.maxDecodeFailures ∧
        s.config.maxDecodeFailures ≤ s.decodeFailures + 1 then
      .error (.decodeFailed (s.decodeFailures + 1) e) else .ok a) : s.Judged r t := by
  refine ⟨?_, fun n e' => ?_⟩
  · rw [feedFails?, h]
    exact ht
  · rw [h, hr]
    split
    · next hbound =>
      constructor
      · rintro ⟨⟩
        exact ⟨rfl, hbound.1, hbound.2, rfl⟩
      · rintro ⟨⟨⟩, -, -, rfl⟩
        rfl
    · next hbound =>
      constructor
      · rintro ⟨⟩
      · rintro ⟨-, hpos, hle, -⟩
        exact absurd ⟨hpos, hle⟩ hbound

end Judged

/-- What feeding the main context makes of the count. -/
theorem ends_feedMain_judged (s : Session) :
    Ends feedMain s fun r t =>
      match outcome (Feed.feed .main s.progress.pending s.config.batchSize s.toWorkbench) with
      | .ok _ => r = .ok () ∧ t.decodeFailures = 0
      | .error e => t.decodeFailures = s.decodeFailures + 1 ∧
          r = if 0 < s.config.maxDecodeFailures ∧
              s.config.maxDecodeFailures ≤ s.decodeFailures + 1 then
            .error (.decodeFailed (s.decodeFailures + 1) e) else .ok () := by
  rw [ends_feedMain_iff, ends_iff_outcome]
  generalize left (Feed.feed .main s.progress.pending s.config.batchSize s.toWorkbench) = b
  cases outcome (Feed.feed .main s.progress.pending s.config.batchSize s.toWorkbench) with
  | ok _ =>
    dsimp only
    obtain ⟨_, _, ht⟩ := exists_logging_eq { s with toWorkbench := b, decodeFailures := 0 }
      s.progress.pending.length
    rw [ht]
    exact ⟨rfl, rfl⟩
  | error e =>
    dsimp only
    obtain ⟨_, _, ht⟩ := exists_failing_eq { s with toWorkbench := b } e
    rw [ht]
    split
    · next hlast => exact ⟨rfl, (if_pos hlast).symm⟩
    · next hlast => exact ⟨rfl, (if_neg hlast).symm⟩

private theorem ends_evaluatePending_judged (s : Session) : Ends evaluatePending s s.Judged := by
  apply ends_evaluatePending_feeding
  · intro h
    exact .of_unfed h rfl (by rintro _ _ ⟨⟩)
  · intro h
    apply ((Ends.keeps keeps_decodeFailures_arrive).and (ends_arrive_ne s)).mono
    exact fun r t ht _ => .of_unfed h ht.1 ht.2
  · intro u h
    obtain ⟨hs, hfailures⟩ := settled_of_feeding h
    apply (ends_feedMain_judged u).mono
    intro r t ht
    have hfeed : s.mainFeed? = some (outcome (Feed.feed .main u.progress.pending u.config.batchSize
        u.toWorkbench)) := by rw [mainFeed?, h, Option.map_some]
    revert ht
    generalize outcome (Feed.feed .main u.progress.pending u.config.batchSize u.toWorkbench) = o
      at hfeed ⊢
    rw [config_of_settled hs, hfailures]
    cases o with
    | ok x =>
      rintro ⟨rfl, ht⟩
      exact .of_fed hfeed ht (by rintro _ _ ⟨⟩)
    | error e =>
      rintro ⟨ht, rfl⟩
      refine .of_failed (a := none) hfeed ht ?_
      split <;> rfl

/-- A pass judges the step that it feeds, and nothing that comes behind makes a difference. -/
theorem ends_pass_judged (s : Session) : Ends pass s s.Judged := by
  rw [pass, ends_bind]
  apply (ends_evaluatePending_judged s).mono
  intro r t ht
  -- What comes behind an evaluation that gives a value is judged as this is.
  have hafter {x : SessionM (Option Outcome)} (hx : Keeps decodeFailures x) (hp : Persists x)
      {a : Option StopReason} (hr : r = .ok a) : Ends x t s.Judged := by
    apply ((Ends.keeps hx).and (hp t)).mono
    rintro r' u ⟨hu, hr'⟩
    refine ⟨hu.trans ht.count, fun n e => ?_⟩
    rw [← ht.givenUp, hr]
    constructor
    · exact fun h => absurd h (hr' _ ⟨n, e, rfl⟩)
    · rintro ⟨⟩
  have hfinishes (reason : StopReason) :
      Keeps decodeFailures (do return some (← finish .terminated reason)) :=
    .bind (frame_decodeFailures.keeps_finish _ _) fun _ => .pure _
  cases r with
  | error e =>
    refine ⟨ht.count, fun n e' => ?_⟩
    rw [← ht.givenUp, Except.error.injEq, Except.error.injEq]
  | ok stop =>
    cases stop with
    | none => exact hafter keeps_decodeFailures_takeStep persists_takeStep rfl
    | some reason =>
      exact hafter (hfinishes reason) (.bind (persists_finish _ _) fun _ => .pure _) rfl

/-! ### Failures in a row -/

/-- Which of the steps that were fed failed, after a pass. -/
def noteFailure (failed : List Bool) (s : Session) : List Bool := failed ++ s.feedFails?.toList

/-- Which of the steps that were fed since the dialogue began have failed, oldest first. -/
def failures (s : Session) (requests : List Request) : List Bool :=
  s.noted noteFailure (fun _ => []) [] requests

end Session

/-- How many steps at the end have failed. -/
def streak (failed : List Bool) : Nat := (failed.reverse.takeWhile id).length

private theorem streak_append_true (failed : List Bool) :
    streak (failed ++ [true]) = streak failed + 1 := by
  simp [streak]

private theorem streak_append_false (failed : List Bool) : streak (failed ++ [false]) = 0 := by
  simp [streak]

private theorem streak_append_replicate (failed : List Bool) (n : Nat) :
    streak (failed ++ List.replicate n true) = streak failed + n := by
  induction n with
  | zero => simp
  | succ n ih =>
    rw [List.replicate_succ', ← List.append_assoc, streak_append_true, ih, Nat.add_assoc]

namespace Session

variable {s t u p : Session}

/-- The count is that of the failures in a row since the dialogue began. -/
theorem notedInvariant_streak : NotedInvariant noteFailure (fun _ => []) (fun _ => True)
    fun failed s => s.decodeFailures = streak failed where
  showing _ _ _ h := h
  pass := by
    intro failed s h
    have hcount := ((ends_pass_judged s).mono fun _ _ h => h.count).left
    rw [hcount, noteFailure]
    match s.feedFails? with
    | none => simpa using h
    | some false => exact (streak_append_false failed).symm
    | some true => rw [h, Option.toList_some, streak_append_true]
  query := by
    intro failed s text room h
    exact (frame_decodeFailures.keeps_query text (s.showing room)).trans h
  reset _ _ _ _ := rfl

/-! ### Giving a turn up -/

/-- A turn fails as its last pass does. -/
theorem answer_eq_error_iff {before after : List Session} (h : s.turn = before ++ p :: after)
    {e : SessionError} :
    pass p = .error e t ↔ answer s = .error e t ∧ after = [] := by
  obtain ⟨hp, hsteps⟩ := turn_eq_append (fun _ _ => ()) () h
  have hpasses : Passes s p := hsteps.lift Prod.snd fun _ _ h => h.1
  rw [answer_of_passes hpasses]
  rcases turn_cases p with ⟨u, hpass, hturn⟩ | ⟨hends, hturn⟩
  · have hafter : u.turn = after := List.tail_eq_of_cons_eq (hturn.symm.trans hp)
    rw [hpass]
    obtain ⟨rest, hrest⟩ := exists_turn_eq_cons u
    exact ⟨nofun, fun h => nomatch hrest.symm.trans (hafter.trans h.2)⟩
  · have hafter : [] = after := List.tail_eq_of_cons_eq (hturn.symm.trans hp)
    rw [answer_eq]
    match hpass : pass p with
    | .ok none u => exact absurd hpass (hends u)
    | .ok (some o) u => exact ⟨nofun, fun h => nomatch h.1⟩
    | .error e' u =>
      simp only [EStateM.Result.error.injEq, ← hafter, and_true]

private theorem foldl_noteFailure (failed : List Bool) (passes : List Session) :
    passes.foldl noteFailure failed = failed ++ passes.filterMap feedFails? := by
  induction passes generalizing failed with
  | nil => simp
  | cons p passes ih =>
    rw [List.foldl_cons, ih, noteFailure, List.filterMap_cons]
    cases p.feedFails? <;> simp

/-- When a pass begins, the count is that of the failures in a row until then. -/
theorem decodeFailures_eq_streak (h : s.decodeFailures = 0) {requests : List Request}
    {room : Option Nat} {before after : List Session}
    (hturn : ((s.serveAll requests).showing room).turn = before ++ p :: after) :
    p.decodeFailures = streak (s.failures requests ++ before.filterMap feedFails?) := by
  have hnoted : s.AtNotedPass noteFailure (fun _ => []) [] requests _ p := atNotedPass_of_turn hturn
  have hcount := notedInvariant_streak.atNotedPass h (fun _ _ => trivial) hnoted
  rwa [foldl_noteFailure] at hcount

/-- A turn is given up because of decoding just at a failure with which the count reaches the bound.
-/
theorem answer_givesUp_iff (h : s.decodeFailures = 0) {requests : List Request}
    {room : Option Nat} {before after : List Session}
    (hturn : ((s.serveAll requests).showing room).turn = before ++ p :: after) (n : Nat)
    (e : DecodeError) :
    let count := streak (s.failures requests ++ before.filterMap feedFails?)
    (after = [] ∧ ∃ t, answer ((s.serveAll requests).showing room) =
        .error (.decodeFailed n e) t) ↔
      p.mainFeed? = some (.error e) ∧ 0 < s.config.maxDecodeFailures ∧
        s.config.maxDecodeFailures ≤ count + 1 ∧ n = count + 1 := by
  dsimp only
  obtain ⟨r, hjudged, -, hr⟩ := (ends_pass_judged p).exists_left
  have hsettled : p.settled = s.settled := (invariant_settled s).atPass rfl
    (allAllowed_true s requests) (atPass_of_turn hturn)
  rw [← decodeFailures_eq_streak h hturn, ← config_of_settled hsettled, ← hjudged.givenUp, hr]
  constructor
  · rintro ⟨hlast, t, ht⟩
    exact ⟨t, (answer_eq_error_iff hturn).mpr ⟨ht, hlast⟩⟩
  · rintro ⟨t, ht⟩
    obtain ⟨ht, hlast⟩ := (answer_eq_error_iff hturn).mp ht
    exact ⟨hlast, t, ht⟩

/-- No more steps in a row fail in a turn than the bound allows. -/
theorem not_replicate_infix_turn (h : s.decodeFailures = 0) (hpos : 0 < s.config.maxDecodeFailures)
    (requests : List Request) (room : Option Nat) :
    ¬ List.replicate (s.config.maxDecodeFailures + 1) true <:+:
      ((s.serveAll requests).showing room).turn.filterMap feedFails? := by
  rintro ⟨first, last, heq⟩
  obtain ⟨k, hk⟩ : ∃ k, s.config.maxDecodeFailures = k + 1 :=
    ⟨_, (Nat.succ_pred_eq_of_pos hpos).symm⟩
  have hsplit : ((s.serveAll requests).showing room).turn.filterMap feedFails? =
      (first ++ List.replicate k true) ++ true :: true :: last := by
    rw [← heq, hk, List.replicate_succ', List.replicate_succ']
    simp
  obtain ⟨before, rest, hturn, hbefore, hrest⟩ := List.filterMap_eq_append_iff.mp hsplit
  obtain ⟨unfed, p, after, rfl, hunfed, hp, hafter⟩ := List.filterMap_eq_cons_iff.mp hrest
  rw [← List.append_assoc] at hturn
  -- At this failure the count reaches the bound, so the turn is given up before the next one.
  have hnone : unfed.filterMap feedFails? = [] := List.filterMap_eq_nil_iff.mpr hunfed
  obtain ⟨e, he⟩ := feedFails?_eq_some_true.mp hp
  have hgiven := answer_givesUp_iff h hturn (e := e)
  simp only [List.filterMap_append, hbefore, hnone, List.append_nil, ← List.append_assoc,
    streak_append_replicate] at hgiven
  obtain ⟨rfl, -⟩ := (hgiven _).mpr ⟨he, hpos, by omega, rfl⟩
  cases hafter

end Session

end Dialogue
