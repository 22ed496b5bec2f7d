import Dialogue.Proofs.Accounts
import Dialogue.Proofs.FailureStreak
import Dialogue.Proofs.GuidedPasses
import Dialogue.Proofs.QueuedTokens
/-!
# Tokens that are fed

A token that the sampler is told of waits in the next step, and is fed with it once or not at all:
a step is taken out of what is pending, and what is left of it is not taken up again by another one.
So what is fed and logged from some point on is made of what was pending then and of what the
sampler was told since.
-/

namespace Dialogue

open Effect

/-- The tokens that a call is to decode into a context. -/
def Call.fed (stream : Stream) : Call → List Token
  | .decode s tokens _ => if s = stream then tokens else []
  | _ => []

private theorem flatMap_filter_of_nil {α β : Type} {p : α → Bool} {f : α → List β}
    (h : ∀ a, p a = false → f a = []) (l : List α) : (l.filter p).flatMap f = l.flatMap f := by
  induction l with
  | nil => rfl
  | cons a l ih =>
    cases ha : p a with
    | false =>
      rw [List.filter_cons_of_neg (by simp [ha]), ih, List.flatMap_cons, h a ha, List.nil_append]
    | true => rw [List.filter_cons_of_pos ha, List.flatMap_cons, List.flatMap_cons, ih]

private theorem Feed.fed_calls (stream : Stream) (p : Int) (l : List (List Token)) :
    (Feed.calls stream p l).flatMap (Call.fed stream) = l.flatten := by
  induction l generalizing p with
  | nil => rfl
  | cons b l ih => simp [Feed.calls, Call.fed, ih]

namespace Engine

/-- The tokens that calls were to decode into a context, oldest first, also if they failed. -/
def fed (e : Engine) (stream : Stream) : List Token := e.calls.toList.flatMap (Call.fed stream)

private theorem fed_main (e : Engine) : e.fed .main = e.mainCalls.flatMap (Call.fed .main) := by
  symm
  apply flatMap_filter_of_nil
  intro c hc
  match c with
  | .decode .main .. => cases hc
  | .decode .guidance .. | .tokenize .. | .sample .. | .accept .. | .resetSampler
  | .removeCells .. | .shiftCells .. | .takeSnapshot | .restoreSnapshot .. | .seed => rfl

private theorem fed_guidance (e : Engine) :
    e.fed .guidance = e.guidanceCalls.flatMap (Call.fed .guidance) := by
  symm
  apply flatMap_filter_of_nil
  intro c hc
  match c with
  | .decode .guidance .. => cases hc
  | .decode .main .. | .tokenize .. | .sample .. | .accept .. | .resetSampler
  | .removeCells .. | .shiftCells .. | .takeSnapshot | .restoreSnapshot .. | .seed => rfl

end Engine

/-! ### Feeding a step -/

/-- Of the batches of a step the first ones are tried. -/
theorem Fed.exists_tried {l : List (List Token)} {p : Int} {m : Nat} {v u : MainContext}
    {r : Except DecodeError Int} (h : Fed l p m v r u) :
    ∃ tried, tried <+: l ∧ u.calls = v.calls ++ Feed.calls .main p tried := by
  induction h with
  | done => exact ⟨[], List.nil_prefix, (List.append_nil _).symm⟩
  | @failed b l => exact ⟨[b], List.cons_prefix_cons.mpr ⟨rfl, List.nil_prefix⟩, rfl⟩
  | @next b l p n v u r _ _ ih =>
    obtain ⟨tried, hprefix, hcalls⟩ := ih
    refine ⟨b :: tried, List.cons_prefix_cons.mpr ⟨rfl, hprefix⟩, ?_⟩
    rw [hcalls, List.append_assoc]
    rfl

private theorem FedStep.exists_tried {n : Nat} {v u : MainContext} (h : FedStep n v u) :
    ∃ tried, tried <+: pieces n v.pending ∧
      u.calls = v.calls ++ Feed.calls .main v.past tried := by
  cases h with
  | whole h =>
    rw [MainContext.calls_log]
    exact h.exists_tried
  | partly h =>
    rw [MainContext.calls_log]
    exact h.exists_tried
  | givenUp h =>
    rw [MainContext.cut, MainContext.calls_log]
    exact h.exists_tried

private theorem flatten_prefix_of_pieces {n : Nat} {tried : List (List Token)} {tokens : List Token}
    (h : tried <+: pieces n tokens) : tried.flatten <+: tokens := by
  obtain ⟨rest, hrest⟩ := h
  exact ⟨rest.flatten, by rw [← List.flatten_append, hrest, flatten_pieces]⟩

/-- A step is fed to the guidance context behind the negative prompt at most. -/
theorem Guidance.nextInput_sublist (g : Guidance) (past : Int) (pending : List Token) :
    List.Sublist (g.nextInput past pending) (g.input ++ pending) := by
  rw [nextInput]
  split
  · exact (List.drop_sublist _ _).append_left _
  · exact List.sublist_append_right _ _

namespace MainContext

variable {v u : MainContext}

/-- Whether all that is logged was compared, so that nothing is left to be skipped. -/
def Compared (v : MainContext) : Prop := v.logged.length ≤ v.loggedRead

/-- Where nothing is left to compare, nothing is skipped. -/
theorem Compared.reuse (h : v.Compared) : v.reuse = v := by
  have hnil : v.logged.drop v.loggedRead = [] := List.drop_eq_nil_iff.mpr h
  have hk : commonLength (v.logged.drop v.loggedRead) v.pending = 0 := by
    rw [hnil]
    rfl
  have hlt : ¬ v.loggedRead < v.logged.length := Nat.not_lt.mpr h
  unfold MainContext.reuse
  rw [hk]
  ext1 <;> simp [hlt]

/-- Where a step is not skipped as a whole, nothing is left to be skipped. -/
theorem compared_reuse (v : MainContext) (h : v.reuse.pending ≠ []) : v.reuse.Compared := by
  have hlt : commonLength (v.logged.drop v.loggedRead) v.pending < v.pending.length :=
    Nat.lt_of_not_le fun hle => h (List.drop_eq_nil_iff.mpr hle)
  unfold Compared reuse
  dsimp only
  split
  · exact List.length_take_le _ _
  · next hdiffers => simpa [hlt] using hdiffers

end MainContext

/-- A context that can be compared with its log can be compared after a decoded step. -/
theorem Decoded.compared {v u : MainContext} {m : Nat} (h : Decoded v m u) (hv : v.Compared) :
    u.Compared := by
  have hl := h.logged
  have hr := h.loggedRead
  unfold MainContext.Compared at hv ⊢
  split at hr
  · exact Nat.le_of_eq hr.symm
  · next hn =>
    rw [if_neg hn] at hl
    rw [hl, hr]
    exact hv

/-! ### Giving a step up -/

namespace Session

/-- What is left when a step was given up because of a failure. -/
structure GivenUp (s : Session) (e : DecodeError) (t : Session) : Prop where
  /-- What was decoded of it is resident. -/
  decoded : Decoded s.mainContext e.evaluated t.mainContext
  /-- That is logged, as long as a session file is in use. -/
  logged : t.progress.logged = s.progress.logged ++
    if s.cache.isActive then s.progress.pending.take e.evaluated else []
  /-- Nothing of it waits. -/
  pending : t.progress.pending = []
  /-- The next draw is not guided. -/
  unguided : t.progress.guidanceReady = false

/-- Feeding the main context fails just if it gives the step up. -/
theorem ends_feedMain_givenUp (s : Session) :
    Ends feedMain s fun r t => ∀ error, r = .error error → s.progress.pending ≠ [] ∧
      ∃ n e, error = .decodeFailed n e ∧ s.GivenUp e t := by
  rw [ends_feedMain_iff]
  apply (Feed.ends_feed_main _ _ s.toWorkbench).mono
  rintro r b ⟨r₀, v₀, hfed, rfl, hb⟩
  cases r₀ with
  | ok p => rintro _ ⟨⟩
  | error e =>
    have hne : s.progress.pending ≠ [] := by
      intro hnil
      rw [hnil, pieces_nil] at hfed
      cases hfed
    have hdecoded : Decoded s.mainContext e.evaluated
        ((Fed.counted (.error e) v₀).log e.evaluated) := hfed.decoded_log rfl
    rw [← hb] at hdecoded
    dsimp only [Except.map]
    split
    · rintro _ ⟨⟩
      let t : Session := ({ s with toWorkbench := b } : Session).failing e
      have ht : t.mainContext = b.mainContext.log e.evaluated := mainContext_failing _ _
      rw [← ht] at hdecoded
      refine ⟨hne, _, _, rfl, hdecoded.cut, ?_, rfl, rfl⟩
      change t.progress.logged = _
      have hlogged : t.progress.logged = _ := hdecoded.logged
      have hactive : s.cache.isActive = true ↔ s.mainContext.path ≠ none :=
        Option.isSome_iff_ne_none
      rw [if_congr hactive rfl rfl, hlogged]
      rcases Nat.eq_zero_or_pos e.evaluated with hzero | hpos
      · simp only [hzero, Nat.lt_irrefl, false_and, List.take_zero, ite_self,
          List.append_nil]
        rfl
      · simp only [hpos, true_and]
        split
        · rfl
        · exact (List.append_nil _).symm
    · rintro _ ⟨⟩

/-- Skipping and feeding a step fails just if it gives the step up. -/
theorem ends_feedRest_cleared (s : Session) :
    Ends feedRest s fun r t => ∀ error, r = .error error → t.progress.pending = [] := by
  rw [ends_feedRest_iff]
  apply (ends_feedMain_givenUp _).mono
  intro r t hr error he
  obtain ⟨-, _, _, -, hgiven⟩ := hr error he
  exact hgiven.pending

/-! ### Spending tokens -/


/-- What is fed to the guidance context in front of a step at most. -/
def negativePrompt (s : Session) : List Token := (s.guidance.map (·.input)).getD []

private theorem fed_eq (s : Session) :
    s.engine.fed .main = s.mainContext.calls.flatMap (Call.fed .main) ∧
      s.engine.fed .guidance = s.guidanceContext.calls.flatMap (Call.fed .guidance) :=
  ⟨s.engine.fed_main, s.engine.fed_guidance⟩

/-- How tokens are spent from one state of a session to another: of those that waited `before`, and
those that the sampler was told of, some went into steps and some wait `after` that. -/
structure Spends (s : Session) (before : List Token) (steps : List (List Token))
    (after : List Token) (t : Session) : Prop where
  /-- The negative prompt stays. -/
  guidance : t.guidance = s.guidance
  /-- None is in two steps, and none of a step waits. -/
  accepted : ∃ accepted, t.tally.accepted = s.tally.accepted ++ accepted ∧
    List.Sublist (steps.flatten ++ after) (before ++ accepted)
  /-- The main context is fed the steps at most. -/
  main : ∃ fed, t.engine.fed .main = s.engine.fed .main ++ fed ∧ List.Sublist fed steps.flatten
  /-- The guidance context is fed the steps at most, and the negative prompt in front of them. -/
  guided : ∃ fed, t.engine.fed .guidance = s.engine.fed .guidance ++ fed ∧
    List.Sublist fed (steps.flatMap (s.negativePrompt ++ ·))
  /-- Where nothing is left to be skipped, the steps are logged at most. -/
  logged : s.mainContext.Compared → t.mainContext.Compared ∧
    ∃ logged, t.progress.logged = s.progress.logged ++ logged ∧
      List.Sublist logged steps.flatten

variable {s t u : Session} {before between after : List Token} {steps more : List (List Token)}

private theorem Spends.trans (h : s.Spends before steps between t)
    (h' : t.Spends between more after u) :
    s.Spends before (steps ++ more) after u where
  guidance := h'.guidance.trans h.guidance
  accepted := by
    obtain ⟨first, ht, hfirst⟩ := h.accepted
    obtain ⟨next, hu, hnext⟩ := h'.accepted
    refine ⟨first ++ next, by rw [hu, ht, List.append_assoc], ?_⟩
    rw [List.flatten_append, List.append_assoc]
    apply (hnext.append_left steps.flatten).trans
    rw [← List.append_assoc, ← List.append_assoc]
    exact hfirst.append_right next
  main := by
    obtain ⟨first, ht, hfirst⟩ := h.main
    obtain ⟨next, hu, hnext⟩ := h'.main
    refine ⟨first ++ next, by rw [hu, ht, List.append_assoc], ?_⟩
    rw [List.flatten_append]
    exact hfirst.append hnext
  guided := by
    obtain ⟨first, ht, hfirst⟩ := h.guided
    obtain ⟨next, hu, hnext⟩ := h'.guided
    refine ⟨first ++ next, by rw [hu, ht, List.append_assoc], ?_⟩
    rw [negativePrompt, h.guidance] at hnext
    rw [List.flatMap_append]
    exact hfirst.append hnext
  logged hs := by
    obtain ⟨hc, first, ht, hfirst⟩ := h.logged hs
    obtain ⟨hc', next, hu, hnext⟩ := h'.logged hc
    refine ⟨hc', first ++ next, by rw [hu, ht, List.append_assoc], ?_⟩
    rw [List.flatten_append]
    exact hfirst.append hnext

/-- Where nothing is fed or logged, tokens are waited with or dropped at most. -/
theorem Spends.unfed (hguidance : t.guidance = s.guidance)
    (haccepted : ∃ accepted, t.tally.accepted = s.tally.accepted ++ accepted ∧
      after.Sublist (before ++ accepted))
    (hmain : ∃ calls, t.mainContext.calls = s.mainContext.calls ++ calls ∧
      calls.filter Call.decodesMain = [])
    (hguided : t.guidanceContext.calls = s.guidanceContext.calls)
    (hlogged : t.mainContext.logged = s.mainContext.logged)
    (hread : t.mainContext.loggedRead = s.mainContext.loggedRead) :
    s.Spends before [] after t where
  guidance := hguidance
  accepted := haccepted
  main := by
    obtain ⟨calls, hcalls, hnone⟩ := hmain
    have hfed : calls.flatMap (Call.fed .main) = [] := by
      rw [List.flatMap_eq_nil_iff]
      intro c hc
      have hc := List.filter_eq_nil_iff.mp hnone c hc
      match c with
      | .decode .main .. => exact absurd rfl hc
      | .decode .guidance .. | .tokenize .. | .sample .. | .accept .. | .resetSampler
      | .removeCells .. | .shiftCells .. | .takeSnapshot | .restoreSnapshot .. | .seed => rfl
    refine ⟨[], ?_, List.nil_sublist _⟩
    rw [t.fed_eq.1, s.fed_eq.1, hcalls, List.flatMap_append, hfed]
  guided := by
    refine ⟨[], ?_, List.nil_sublist _⟩
    rw [t.fed_eq.2, s.fed_eq.2, hguided, List.append_nil]
  logged hs := by
    refine ⟨?_, [], ?_, List.nil_sublist _⟩
    · unfold MainContext.Compared
      rw [hlogged, hread]
      exact hs
    · exact hlogged.trans (List.append_nil _).symm

/-- Where no more than the queue changes, what waited waits. -/
theorem Spends.of_queue {queue : List Token} {queueRead : Nat} (hguidance : t.guidance = s.guidance)
    (htally : t.tally = s.tally) (hguided : t.guidanceContext = s.guidanceContext)
    (hmain : t.mainContext = { s.mainContext with queue, queueRead }) :
    s.Spends s.progress.pending [] t.progress.pending t := by
  have hpending : t.progress.pending = s.progress.pending := congrArg MainContext.pending hmain
  refine .unfed hguidance ⟨[], ?_, ?_⟩ ⟨[], ?_, rfl⟩ (congrArg GuidanceContext.calls hguided) ?_ ?_
  · rw [htally, List.append_nil]
  · simp [hpending]
  · rw [hmain, List.append_nil]
  · rw [hmain]
  · rw [hmain]

/-- Nothing is spent where nothing happens. -/
theorem Spends.refl (s : Session) (before : List Token) : s.Spends before [] before s :=
  .unfed rfl ⟨[], (List.append_nil _).symm, by simp⟩ ⟨[], (List.append_nil _).symm, rfl⟩ rfl rfl rfl

/-- A step that has arrived is fed. -/
theorem ends_feedRest_spends (s : Session) :
    Ends feedRest s fun _ t => s.Spends s.progress.pending [s.mainContext.reuse.pending] [] t := by
  apply (((ends_feedRest s).and (ends_feedRest_tally s)).and (ends_feedRest_taken s)).mono
  rintro r t ⟨⟨⟨hs, hf⟩, _, _, -, -, htally, -⟩, -, c, htaken, -, hr⟩
  have hdrop : List.Sublist s.mainContext.reuse.pending s.progress.pending := List.drop_sublist _ _
  have hcalls : t.guidanceContext.calls = c.calls := by
    rcases hr with ⟨-, hc⟩ | ⟨-, hc⟩ <;> rw [hc]
  obtain ⟨m, hd⟩ := hf.decoded
  refine ⟨guidance_of_settled hs, ⟨[], ?_, ?_⟩, ?_, ?_, fun hv => ⟨?_, ?_⟩⟩
  · rw [htally, List.append_nil]
    rfl
  · simpa using hdrop
  · obtain ⟨tried, htried, hmain⟩ := hf.exists_tried
    refine ⟨tried.flatten, ?_, ?_⟩
    · rw [t.fed_eq.1, s.fed_eq.1, hmain, List.flatMap_append, Feed.fed_calls]
      rfl
    · rw [List.flatten_singleton]
      exact (flatten_prefix_of_pieces htried).sublist
  · rw [t.fed_eq.2, s.fed_eq.2, hcalls]
    simp only [List.flatMap_singleton, negativePrompt]
    rw [GuidanceTaken] at htaken
    have hguidance : s.reusing.guidance = s.guidance := rfl
    rw [hguidance] at htaken
    cases hg : s.guidance with
    | none =>
      rw [hg] at htaken
      rw [htaken]
      exact ⟨[], (List.append_nil _).symm, List.nil_sublist _⟩
    | some g =>
      rw [hg] at htaken
      obtain ⟨tried, done, hfed, htried, -, -⟩ := htaken
      refine ⟨tried.flatten, ?_, ?_⟩
      · rw [hfed.calls, List.flatMap_append, Feed.fed_calls]
        rfl
      · exact (flatten_prefix_of_pieces htried).sublist.trans (g.nextInput_sublist _ _)
  · exact hd.compared (by rwa [hv.reuse])
  · have hlogged := hd.logged
    rw [hv.reuse] at hlogged
    rw [List.flatten_singleton, hv.reuse]
    change ∃ logged, t.mainContext.logged = s.mainContext.logged ++ logged ∧ _
    rw [hlogged]
    split
    · exact ⟨_, rfl, (List.take_prefix _ _).sublist⟩
    · exact ⟨[], (List.append_nil _).symm, List.nil_sublist _⟩

/-- Nothing is fed while room is made for a step. -/
theorem ends_arrive_spends (s : Session) :
    Ends arrive s fun _ t => s.Spends s.progress.pending [] t.progress.pending t := by
  apply (((ends_arrive s).and (ends_arrive_told s)).and (ends_arrive_relativeGuidance s)).mono
  rintro r t ⟨⟨⟨hs, ha⟩, cuts, hcuts, -⟩, -, hguided, -⟩
  have hmade := ha.madeRoom
  refine .unfed (guidance_of_settled hs) ⟨[], ?_, ?_⟩ ha.calls_eq ?_ hmade.logged hmade.loggedRead
  · rw [hcuts.tally, List.append_nil]
  · rw [List.append_nil]
    exact hcuts.pending.sublist
  · rw [hguided]

/-- An evaluation that does not let the dialogue go on leaves nothing waiting that it has fed. -/
theorem ends_evaluatePending_spends (s : Session) :
    Ends evaluatePending s fun r t => ∃ steps after,
      s.Spends s.progress.pending steps after t ∧ (r ≠ .ok none → after = t.progress.pending) := by
  apply ends_evaluatePending_of
  · intro hnil
    refine ⟨[], [], ?_, fun h => absurd rfl h⟩
    exact .unfed rfl ⟨[], (List.append_nil _).symm, List.nil_sublist _⟩
      ⟨[], (List.append_nil _).symm, rfl⟩ rfl rfl rfl
  · apply (ends_arrive_spends s).mono
    exact fun r t ht _ => ⟨[], _, ht, fun _ => rfl⟩
  · intro u hu
    have harrives := (ends_arrive_spends s).of_ok hu
    apply ((ends_feedRest_spends u).and (ends_feedRest_cleared u)).mono
    rintro r t ⟨hfeeds, hcleared⟩
    refine ⟨_, _, harrives.trans hfeeds, fun hr => ?_⟩
    cases r with
    | ok _ => exact absurd rfl hr
    | error e => exact (hcleared e rfl).symm

/-- What waits once the next step is taken is what the sampler is told of meanwhile. -/
theorem ends_takeStep_spends (s : Session) (before : List Token) :
    Ends takeStep s fun _ t => s.Spends before [] t.progress.pending t := by
  apply (((ends_takeStep s).and (ends_takeStep_taken s)).and
    (Ends.keeps inStep_takeStep.keeps_left)).mono
  rintro r t ⟨⟨⟨hs, hstepped⟩, htally⟩, hguided⟩
  obtain ⟨pending, queue, queueRead, path, directory, ht, -⟩ := hstepped.exists_eq
  refine .unfed (guidance_of_settled hs) ⟨t.progress.pending, ?_, List.sublist_append_right _ _⟩
    ⟨[], ?_, rfl⟩ (congrArg GuidanceContext.calls hguided) ?_ ?_
  · rw [htally]
  · rw [ht, List.append_nil]
  · rw [ht]
  · rw [ht]

/-- A turn that ends without a step spends nothing. -/
theorem ends_finish_spends (s : Session) (phase : Phase) (reason : StopReason) :
    Ends (finish phase reason) s fun _ t =>
      s.Spends s.progress.pending [] t.progress.pending t := by
  apply (((Ends.keeps (keeps_settledAndMain_finish phase reason)).and
    (Ends.keeps (frame_tally.keeps_finish phase reason))).and
    (Ends.keeps (inStep_finish phase reason).keeps_left)).mono
  rintro r t ⟨⟨hsettledAndMain, htally⟩, hguidanceView⟩
  obtain ⟨hguidance, hguided, -⟩ := guidanceView_eq hguidanceView
  exact .of_queue hguidance htally hguided (settledAndMain_eq hsettledAndMain).2

/-- What a pass feeds and logs are tokens that waited, and what waits then it has not fed. -/
theorem ends_pass_spends (s : Session) :
    Ends pass s fun _ t => ∃ steps, s.Spends s.progress.pending steps t.progress.pending t := by
  rw [pass, ends_bind]
  apply (ends_evaluatePending_spends s).mono
  rintro r t ⟨steps, after, hspends, hafter⟩
  cases r with
  | error e =>
    obtain rfl := hafter (by rintro ⟨⟩)
    exact ⟨steps, hspends⟩
  | ok stop =>
    cases stop with
    | none =>
      apply (ends_takeStep_spends t after).mono
      exact fun r u hu => ⟨_, hspends.trans hu⟩
    | some reason =>
      obtain rfl := hafter (by rintro ⟨⟩)
      simp only [ends_bind, ends_pure]
      apply (ends_finish_spends t _ _).mono
      intro r u hu
      cases r <;> exact ⟨_, hspends.trans hu⟩

/-- A query feeds and logs nothing. -/
theorem ends_query_spends (text : String) (s : Session) :
    Ends (query text) s fun _ t => s.Spends s.progress.pending [] t.progress.pending t := by
  apply (((ends_query text s).and (Ends.keeps (frame_tally.keeps_query text))).and
    (Ends.keeps (inStep_query text).keeps_left)).mono
  rintro r t ⟨⟨⟨-, hqueried⟩, htally⟩, hguidanceView⟩
  obtain ⟨queue, queueRead, hmain⟩ := hqueried.exists_eq
  obtain ⟨hguidance, hguided, -⟩ := guidanceView_eq hguidanceView
  exact .of_queue hguidance htally hguided hmain

/-- As long as a dialogue does not begin anew, what is fed and logged since some point are tokens
that waited then, or that the sampler was told of since, each at most once. -/
theorem invariant_spends (s₀ : Session) :
    Invariant (fun _ r => r ≠ .reset) fun s =>
      ∃ steps, s₀.Spends s₀.progress.pending steps s.progress.pending s where
  showing := by
    rintro s room ⟨steps, h⟩
    exact ⟨steps, h.guidance, h.accepted, h.main, h.guided, h.logged⟩
  pass := by
    rintro s ⟨steps, h⟩
    obtain ⟨more, hmore⟩ := (ends_pass_spends s).left
    exact ⟨_, h.trans hmore⟩
  query := by
    rintro s text room ⟨steps, h⟩ -
    have hshown : s₀.Spends s₀.progress.pending steps (s.showing room).progress.pending
        (s.showing room) := ⟨h.guidance, h.accepted, h.main, h.guided, h.logged⟩
    exact ⟨_, hshown.trans (ends_query_spends text (s.showing room)).left⟩
  reset _ _ h := absurd rfl h

/-- The sampler was told of all that waits. -/
theorem invariant_pending_accepted :
    Invariant (fun _ _ => True) fun s => List.Sublist s.progress.pending s.tally.accepted := by
  have hspends {s t : Session} (hs : List.Sublist s.progress.pending s.tally.accepted)
      (h : ∃ steps, s.Spends s.progress.pending steps t.progress.pending t) :
      List.Sublist t.progress.pending t.tally.accepted := by
    obtain ⟨steps, h⟩ := h
    obtain ⟨accepted, ht, hwaits⟩ := h.accepted
    rw [ht]
    exact (List.sublist_append_right _ _).trans (hwaits.trans (hs.append_right accepted))
  exact
    { showing := fun _ _ h => h
      pass := fun s h => hspends h (ends_pass_spends s).left
      query := fun s text room h _ =>
        hspends (s := s.showing room) h ⟨_, (ends_query_spends text (s.showing room)).left⟩
      reset := fun _ _ _ => List.nil_sublist _ }

end Session

end Dialogue
