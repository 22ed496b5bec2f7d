import Dialogue.Proofs.FedTokens
/-!
# Steps that are given up

When the turn is given up because decoding failed too often in a row, the step goes with it: what
was decoded of it is logged, and the rest is not fed later. What is fed then is drawn later, or
comes from a part of the queue that was not read before.
-/

namespace Dialogue

open Effect

namespace TurnState

variable {c : Config} {v u t : TurnState}

/-- The sampler is told of queued tokens only as they are moved out of the queue. -/
structure Moves (v u : TurnState) : Prop where
  /-- No more is moved out of the queue than there is. -/
  read_le : u.queueRead ≤ u.queue.length
  /-- What was moved before stays in front, and the sampler is not told of it again. -/
  told : ∃ calls moved, u.calls = v.calls ++ calls ∧
    u.queue.take u.queueRead = v.queue.take v.queueRead ++ moved ∧
    List.Sublist (calls.filterMap Call.queued?) moved

private theorem Moves.refl (h : v.queueRead ≤ v.queue.length) : v.Moves v :=
  ⟨h, [], [], (List.append_nil _).symm, (List.append_nil _).symm, .refl _⟩

private theorem Moves.trans (h : v.Moves u) (h' : u.Moves t) : v.Moves t := by
  obtain ⟨calls, moved, hcalls, hmoved, htold⟩ := h.told
  obtain ⟨calls', moved', hcalls', hmoved', htold'⟩ := h'.told
  refine ⟨h'.read_le, calls ++ calls', moved ++ moved', ?_, ?_, ?_⟩
  · rw [hcalls', hcalls, List.append_assoc]
  · rw [hmoved', hmoved, List.append_assoc]
  · rw [List.filterMap_append]
    exact htold.append htold'

/-- Where the sampler is told of no queued token, more can be queued, and some can be passed over.
-/
theorem Moves.untold {l : List Call} (hle : v.queueRead ≤ v.queue.length)
    (hcalls : u.calls = v.calls ++ l) (hnone : l.filterMap Call.queued? = [])
    (hqueue : v.queue <+: u.queue) (hread : v.queueRead ≤ u.queueRead)
    (hle' : u.queueRead ≤ u.queue.length) : v.Moves u := by
  obtain ⟨more, hmore⟩ := hqueue
  obtain ⟨n, hn⟩ := Nat.exists_eq_add_of_le hread
  refine ⟨hle', l, (u.queue.drop v.queueRead).take n, hcalls, ?_, ?_⟩
  · rw [hn, List.take_add, ← hmore, List.take_append_of_le_length hle]
  · rw [hnone]
    exact List.nil_sublist _

private theorem Filled.moves {r : Except SessionError Unit} (h : v.Filled c r u)
    (hle : v.queueRead ≤ v.queue.length) : v.Moves u := by
  cases h with
  | spent => exact .refl hle
  | stopped => exact .refl hle
  | undrawn =>
    exact .untold (l := [.sample _]) hle rfl rfl List.prefix_rfl (Nat.le_refl _) hle
  | drawn _ _ _ _ guided =>
    refine .untold (l := [.sample guided, .accept v.next true]) hle ?_ rfl List.prefix_rfl
      (Nat.le_refl _) hle
    simp [draw, ask]
  | taken =>
    refine ⟨read_le_take hle _, _, _, rfl, moved_take v _, ?_⟩
    exact (filterMap_queued?_accepted _).symm ▸ .refl _

/-- A pass moves tokens out of the queue as it tells the sampler of them. -/
theorem Passed.moves {r : Except SessionError (Option Outcome)} (h : v.Passed c r u)
    (hle : v.queueRead ≤ v.queue.length) : v.Moves u := by
  cases h with
  | ended => exact .refl hle
  | broken hf => exact hf.moves hle
  | stepped hf hc =>
    have hfilled := hf.moves hle
    obtain ⟨tokens, _, _, rfl, -⟩ := hc.exists_eq
    refine hfilled.trans (.untold (l := []) hfilled.read_le ?_ rfl (List.prefix_append _ _)
      (Nat.le_refl _) ?_)
    · exact (List.append_nil _).symm
    · exact Nat.le_trans hfilled.read_le (by simp)

end TurnState

namespace Session

/-- A query tells the sampler of nothing. -/
theorem ends_query_moves (text : String) {s : Session}
    (hle : s.progress.queueRead ≤ s.progress.queue.length) :
    Ends (query text) s fun _ t => s.turnState.Moves t.turnState := by
  apply ((ends_query text s).and (ends_query_turnState text s)).mono
  rintro r t ⟨⟨-, hqueried⟩, -, hheard⟩
  have hcalls : ∃ calls, t.turnState.calls = s.turnState.calls ++ calls ∧
      calls.filterMap Call.queued? = [] := by
    generalize t.turnState = u at hheard
    cases hheard with
    | failed => exact ⟨[], (List.append_nil _).symm, rfl⟩
    | heard => exact ⟨[.resetSampler], rfl, rfl⟩
  obtain ⟨calls, hcalls, hnone⟩ := hcalls
  have hqueue : s.mainContext.queue <+: t.mainContext.queue ∧
      s.mainContext.queueRead ≤ t.mainContext.queueRead ∧
      t.mainContext.queueRead ≤ t.mainContext.queue.length := by
    have hle : s.mainContext.queueRead ≤ s.mainContext.queue.length := hle
    generalize t.mainContext = u at hqueried
    cases hqueried with
    | queued tokens => exact ⟨List.prefix_append _ _, Nat.le_refl _, by simp; omega⟩
    | passedOver _ before after =>
      refine ⟨?_, ?_, ?_⟩
      · rw [List.append_assoc]
        exact List.prefix_append _ _
      · simp
        omega
      · simp
  exact .untold hle hcalls hnone hqueue.1 hqueue.2.1 hqueue.2.2

variable {s t u : Session} {n : Nat} {e : DecodeError}

/-- No more is moved out of the queue than there is. -/
theorem invariant_queueRead_le :
    Invariant (fun _ _ => True) fun s => s.progress.queueRead ≤ s.progress.queue.length where
  showing _ _ h := h
  pass s h := ((ends_pass_turnState s).mono fun _ _ hp => (hp.2.moves h).read_le).left
  query s text room h _ := ((ends_query_moves text (s := s.showing room) h).mono
    fun _ _ hq => hq.read_le).left
  reset _ _ _ := Nat.zero_le _

/-- As long as a dialogue does not begin anew, tokens are moved out of the queue from where it was
read to. -/
theorem invariant_moves (s₀ : Session) :
    Invariant (fun _ r => r ≠ .reset) fun s => s₀.turnState.Moves s.turnState where
  showing _ _ h := h
  pass s h := ((ends_pass_turnState s).mono fun _ _ hp => h.trans (hp.2.moves h.read_le)).left
  query s text room h _ := ((ends_query_moves text (s := s.showing room) h.read_le).mono
    fun _ _ hq => h.trans hq).left
  reset _ _ h := absurd rfl h

/-! ### The step that is given up -/

/-- What is fed of a step is a part of what is pending. Where it is not the whole rest that is
skipped, nothing more is left to be skipped. -/
theorem feeding_spans (h : s.feeding? = some u) :
    u.progress.pending <:+: s.progress.pending ∧ u.progress.logged <+: s.progress.logged ∧
      (u.progress.pending ≠ [] → u.mainContext.Compared) := by
  unfold feeding? at h
  split at h
  · cases h
  · split at h
    · next v hv =>
      cases h
      have hmade := ((ends_arrive s).of_ok hv).2.madeRoom
      have hmain : (left (feedGuidance v.reusing)).mainContext = v.mainContext.reuse :=
        ((ends_feedGuidance v.reusing).mono fun _ _ h => h.2.2).left
      change (left (feedGuidance v.reusing)).mainContext.pending <:+: s.mainContext.pending ∧
        (left (feedGuidance v.reusing)).mainContext.logged <+: s.mainContext.logged ∧
          ((left (feedGuidance v.reusing)).mainContext.pending ≠ [] → _)
      rw [hmain, ← hmade.logged]
      refine ⟨?_, ?_, v.mainContext.compared_reuse⟩
      · exact (List.drop_suffix _ _).isInfix.trans hmade.pending.isInfix
      · rw [MainContext.logged_reuse]
        split
        · exact List.take_prefix _ _
        · exact List.prefix_rfl
    · cases h

/-- A pass that gives the turn up because of decoding gives up the step that it fed. -/
theorem givenUp_of_pass (h : pass s = .error (.decodeFailed n e) t) :
    ∃ u, s.feeding? = some u ∧ u.progress.pending ≠ [] ∧ u.GivenUp e t := by
  have hevaluates : Ends evaluatePending s fun r t => ∀ n e, r = .error (.decodeFailed n e) →
      ∃ u, s.feeding? = some u ∧ u.progress.pending ≠ [] ∧ u.GivenUp e t := by
    apply ends_evaluatePending_feeding
    · rintro - _ _ ⟨⟩
    · intro _
      exact (ends_arrive_ne s).mono fun r t hr _ n e he => absurd he (hr n e)
    · intro u hu
      apply (ends_feedMain_givenUp u).mono
      rintro r t hr n e he
      cases r with
      | ok _ => cases he
      | error error =>
        obtain ⟨hne, _, _, rfl, hgiven⟩ := hr error rfl
        cases he
        exact ⟨u, hu, hne, hgiven⟩
  have hpass : Ends pass s fun r t => ∀ n e, r = .error (.decodeFailed n e) →
      ∃ u, s.feeding? = some u ∧ u.progress.pending ≠ [] ∧ u.GivenUp e t := by
    rw [pass, ends_bind]
    apply hevaluates.mono
    intro r t ht
    -- What comes behind an evaluation that gives a value does not give the turn up.
    have hafter {x : SessionM (Option Outcome)} (hx : Persists x) : Ends x t fun r v =>
        ∀ n e, r = .error (.decodeFailed n e) →
          ∃ u, s.feeding? = some u ∧ u.progress.pending ≠ [] ∧ u.GivenUp e v :=
      (hx t).mono fun r v hr n e he => absurd he (hr _ ⟨n, e, rfl⟩)
    cases r with
    | error e => exact fun n e' he => ht n e' (congrArg _ (Except.error.inj he))
    | ok stop =>
      cases stop with
      | none => exact hafter persists_takeStep
      | some reason => exact hafter (.bind (persists_finish _ _) fun _ => .pure _)
  rw [ends_iff_of_eq_error h] at hpass
  exact hpass n e rfl

/-- The sampler was told of what a pass of a turn begins with. -/
theorem pending_accepted_of_turn {s₀ p : Session} {requests : List Request} {room : Option Nat}
    {before after : List Session} (hnil : s₀.progress.pending = [])
    (hturn : ((s₀.serveAll requests).showing room).turn = before ++ p :: after) :
    List.Sublist p.progress.pending (left (pass p)).tally.accepted := by
  have hp : List.Sublist p.progress.pending p.tally.accepted :=
    invariant_pending_accepted.atPass (by rw [hnil]; exact List.nil_sublist _)
      (allAllowed_true s₀ requests) (atPass_of_turn hturn)
  obtain ⟨steps, hspends⟩ := (ends_pass_spends p).left
  obtain ⟨accepted, haccepted, -⟩ := hspends.accepted
  rw [haccepted]
  exact hp.trans (List.sublist_append_left _ _)

/-- In a dialogue no more is moved out of the queue than there is. -/
theorem queueRead_le_serveAll (hread : s.progress.queueRead = 0) (requests : List Request) :
    (s.serveAll requests).progress.queueRead ≤ (s.serveAll requests).progress.queue.length :=
  invariant_queueRead_le.serveAll (by rw [hread]; exact Nat.zero_le _) (allAllowed_true s requests)

/-- Since a step was given up, until the dialogue begins anew, tokens are fed and logged only as the
sampler is told of them. -/
theorem GivenUp.spends_serveAll {more : List Request} (h : u.GivenUp e t)
    (hcompared : u.mainContext.Compared) (hmore : .reset ∉ more) :
    ∃ steps, t.Spends [] steps (t.serveAll more).progress.pending (t.serveAll more) ∧
      ∃ logged, (t.serveAll more).progress.logged = t.progress.logged ++ logged ∧
        List.Sublist logged steps.flatten := by
  obtain ⟨steps, hspends⟩ :=
    (invariant_spends t).serveAll ⟨[], .refl t _⟩ (allAllowed_ne_reset hmore t)
  rw [h.pending] at hspends
  exact ⟨steps, hspends, (hspends.logged (h.decoded.compared hcompared)).2⟩

/-- The count when a pass begins is that of the failures in a row since the dialogue began: it goes
up with each step that could not be decoded, and begins anew with one that could, also if nothing
was left to be decoded of it. A turn is given up because of decoding just at a failure with which
the count reaches the bound, if there is one, and it tells the count; so in no turn more steps in a
row fail than that. Of the step that is given up what was decoded is logged, behind a beginning of
what was logged before, and nothing waits. From then on, until the dialogue begins anew, tokens are
fed, and logged behind that, only as the sampler is told of them, and those that come from the queue
come from a part of it that was not moved into a step. -/
theorem decode_failures_escalate {now : Nat} {config : Config} {engine : Engine}
    {directory : Directory} {s : Session} {w : Workbench}
    (h : Session.start now config engine directory = .ok s w) (requests : List Request)
    (room : Option Nat) :
    (0 < config.maxDecodeFailures →
      ¬ List.replicate (config.maxDecodeFailures + 1) true <:+:
        ((s.serveAll requests).showing room).turn.filterMap feedFails?) ∧
    ∀ before p after, ((s.serveAll requests).showing room).turn = before ++ p :: after →
      let count := streak (s.failures requests ++ before.filterMap feedFails?)
      p.decodeFailures = count ∧
      (∀ u, p.feeding? = some u → u.progress.pending = [] → p.feedFails? = some false) ∧
      (∀ n e, (after = [] ∧ ∃ t, answer ((s.serveAll requests).showing room) =
          .error (.decodeFailed n e) t) ↔
        p.mainFeed? = some (.error e) ∧ 0 < config.maxDecodeFailures ∧
          config.maxDecodeFailures ≤ count + 1 ∧ n = count + 1) ∧
      ∀ n e t, after = [] →
        answer ((s.serveAll requests).showing room) = .error (.decodeFailed n e) t →
        List.Sublist p.progress.pending t.tally.accepted ∧
        ∃ u, p.feeding? = some u ∧ u.progress.pending <:+: p.progress.pending ∧
          u.progress.logged <+: p.progress.logged ∧ u.GivenUp e t ∧
          ∀ more, .reset ∉ more → t.turnState.Moves (t.serveAll more).turnState ∧
            ∃ steps, t.Spends [] steps (t.serveAll more).progress.pending (t.serveAll more) ∧
              ∃ logged, (t.serveAll more).progress.logged = t.progress.logged ++ logged ∧
                List.Sublist logged steps.flatten := by
  have hbegun := start_eq_ok h
  have hzero : s.decodeFailures = 0 := congrArg Session.decodeFailures hbegun.anew.symm
  have hnil : s.progress.pending = [] := congrArg (·.progress.pending) hbegun.anew.symm
  have hread : s.progress.queueRead = 0 := congrArg (·.progress.queueRead) hbegun.anew.symm
  rw [← hbegun.maxDecodeFailures]
  refine ⟨fun hpos => not_replicate_infix_turn hzero hpos requests room, ?_⟩
  intro before p after hturn
  refine ⟨decodeFailures_eq_streak hzero hturn, fun u hu hnil => ?_,
    answer_givesUp_iff hzero hturn, ?_⟩
  · rw [feedFails?, mainFeed?_of_reused hu hnil]
    rfl
  · rintro n e t rfl ht
    have hpass : pass p = .error (.decodeFailed n e) t :=
      (answer_eq_error_iff hturn).mpr ⟨ht, rfl⟩
    obtain ⟨u, hu, hne, hgiven⟩ := givenUp_of_pass hpass
    obtain ⟨hpending, hlogged, hcompared⟩ := feeding_spans hu
    have htold : List.Sublist p.progress.pending t.tally.accepted := by
      rw [← show left (pass p) = t by rw [hpass, left]]
      exact pending_accepted_of_turn hnil hturn
    refine ⟨htold, u, hu, hpending, hlogged, hgiven, fun more hmore => ?_⟩
    -- The pass is the last one of its turn, so the dialogue goes on from where it failed.
    have hanswers : s.serveAll (requests ++ [.answer room]) = t := by
      rw [serveAll_append]
      change left (answer ((s.serveAll requests).showing room)) = t
      rw [ht]
      rfl
    have hle : t.progress.queueRead ≤ t.progress.queue.length := by
      rw [← hanswers]
      exact queueRead_le_serveAll hread _
    exact ⟨(invariant_moves t).serveAll (.refl hle) (allAllowed_ne_reset hmore t),
      hgiven.spends_serveAll (hcompared hne) hmore⟩

/-- The prompt cannot be decoded, and neither can what is drawn then. Later steps can. -/
theorem decode_failures_escalate_of_failing_draw :
    ∃ s w p q t e u,
      Session.start 0 { prompt := "ab", maxDecodeFailures := 2, cachePath := some "s.bin" }
        { script := Token.ofText "xyz", faults := { decodeMain := [true, true] } } {} = .ok s w ∧
      (s.showing none).turn = [s.showing none, p, q] ∧ p.feedFails? = some true ∧
      q.decodeFailures = 1 ∧ answer (s.showing none) = .error (.decodeFailed 2 e) t ∧
      q.feeding? = some u ∧ u.GivenUp e t ∧
      (t.serve (.answer (some 1))).engine.fed .main ≠ t.engine.fed .main ∧
      ∃ steps, t.Spends [] steps (t.serve (.answer (some 1))).progress.pending
        (t.serve (.answer (some 1))) := by
  obtain ⟨s, w, h, htest⟩ := exists_of_gives
    (fun s : Session => (s.showing none).feedFails? = none &&
      goesOn (fun p => p.feedFails? = some true && goesOn (fun q => decide (
        q.feedFails? = some true ∧ ((left (pass q)).serve (.answer (some 1))).engine.fed .main ≠
          (left (pass q)).engine.fed .main)) p) (s.showing none))
    (r := Session.start 0 { prompt := "ab", maxDecodeFailures := 2, cachePath := some "s.bin" }
      { script := Token.ofText "xyz", faults := { decodeMain := [true, true] } } {})
    (by decide +kernel)
  obtain ⟨hidle, htest⟩ := Bool.and_eq_true_iff.mp htest
  obtain ⟨p, hp, htest⟩ := exists_pass_of_goesOn htest
  obtain ⟨hfails, htest⟩ := Bool.and_eq_true_iff.mp htest
  obtain ⟨q, hq, htest⟩ := exists_pass_of_goesOn htest
  obtain ⟨hfails', hfed⟩ := of_decide_eq_true htest
  obtain ⟨after, hafter⟩ := exists_turn_eq_cons q
  have hturn : (s.showing none).turn = [s.showing none, p] ++ q :: after := by
    rw [turn_of_goes_on hp, turn_of_goes_on hq, hafter]
    rfl
  have hnoted : s.failures [] ++ [s.showing none, p].filterMap feedFails? = [true] := by
    rw [List.filterMap_cons, List.filterMap_cons, of_decide_eq_true hidle,
      of_decide_eq_true hfails]
    rfl
  obtain ⟨hcount, -, hgivesUp, hgives⟩ :=
    (decode_failures_escalate h [] none).2 [s.showing none, p] q after hturn
  rw [hnoted] at hcount hgivesUp
  obtain ⟨e, he⟩ := feedFails?_eq_some_true.mp hfails'
  obtain ⟨rfl, t, ht⟩ := (hgivesUp 2 e).mpr ⟨he, by decide, by decide, rfl⟩
  obtain ⟨-, u, hu, -, -, hgiven, hmore⟩ := hgives 2 e t rfl ht
  obtain ⟨-, steps, hspends, -⟩ := hmore [.answer (some 1)] (by simp)
  have hleft : left (pass q) = t := by rw [(answer_eq_error_iff hturn).mpr ⟨ht, rfl⟩, left]
  rw [hleft] at hfed
  exact ⟨s, w, p, q, t, e, u, h, hturn, of_decide_eq_true hfails, hcount, ht, hu, hgiven, hfed,
    steps, hspends⟩

end Session

end Dialogue
