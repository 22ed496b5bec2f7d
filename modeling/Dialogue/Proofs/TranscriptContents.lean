import Dialogue.Proofs.Recording
/-!
# What the transcript holds

The tokens that the sampler was told of are those that are recorded, each as often, but for four
kinds. What a query finds queued and about to be shown is told of unseen, unless the query passes
over it; so are the token that opens the query's sequence and a reverse prompt that is queued before
the next draw. Recorded turns that a query passes over are not told of. What is queued and will not
be shown is outstanding until then, and none is when a token is drawn.
-/

namespace Dialogue

open Effect

/-! ### Draws -/

namespace TurnState

variable {c : Config} {v u : TurnState}

private theorem Filled.exists_calls {r : Except SessionError Unit} (h : v.Filled c r u) :
    ∃ calls, u.calls = v.calls ++ calls := by
  cases h with
  | spent | stopped => exact ⟨[], (List.append_nil _).symm⟩
  | undrawn | taken => exact ⟨_, rfl⟩
  | drawn _ _ _ _ guided => exact ⟨[.sample guided, .accept v.next true], by simp [draw, ask]⟩

/-- A draw is asked for once the queue is read, and before the sampler is told of anything. -/
theorem Filled.sample {r : Except SessionError Unit} (h : v.Filled c r u) {guided : Bool}
    (hmem : .sample guided ∈ u.calls.drop v.calls.length) :
    v.drained = true ∧ ∃ more, u.calls.drop v.calls.length = .sample guided :: more := by
  cases h with
  | spent | stopped => simp at hmem
  | undrawn hq _ _ _ g =>
    simp only [ask, List.drop_left, List.mem_singleton] at hmem ⊢
    exact ⟨hq, [], by rw [hmem]⟩
  | drawn hq _ _ _ g =>
    simp only [draw, ask, List.append_assoc, List.drop_left, List.singleton_append, List.mem_cons,
      reduceCtorEq, List.not_mem_nil, or_false] at hmem ⊢
    exact ⟨hq, _, by rw [hmem]⟩
  | taken =>
    simp only [take, List.drop_left] at hmem
    exact absurd hmem (not_mem_accepted fun _ h => Call.noConfusion h)

private theorem Passed.sample {r : Except SessionError (Option Outcome)} (h : v.Passed c r u)
    {guided : Bool} (hmem : .sample guided ∈ u.calls.drop v.calls.length) :
    v.drained = true ∧ ∃ more, u.calls.drop v.calls.length = .sample guided :: more := by
  cases h with
  | ended => simp at hmem
  | broken hf => exact hf.sample hmem
  | stepped hf hc =>
    rw [hc.calls_eq] at hmem ⊢
    exact hf.sample hmem

/-- A turn that goes on queues nothing. -/
theorem Passed.queue_eq (h : v.Passed c (.ok none) u) : u.queue = v.queue := by
  cases h with
  | ended hr => exact absurd rfl hr
  | stepped hf hc =>
    obtain ⟨rfl, -⟩ := hc.goes_on
    cases hf <;> rfl

end TurnState

/-- The tokens that calls tell the sampler of. -/
def Call.accepted (calls : List Call) : List Token := calls.filterMap Call.accepted?

private theorem Call.accepted_append (a b : List Call) :
    accepted (a ++ b) = accepted a ++ accepted b :=
  List.filterMap_append

private theorem Call.accepted_map (tokens : List Token) (sampled : Bool) :
    accepted (tokens.map (.accept · sampled)) = tokens := by
  rw [accepted, List.filterMap_map]
  exact List.filterMap_some

private theorem Engine.accepted_samplerCalls (e : Engine) :
    Call.accepted e.samplerCalls = e.accepted := by
  rw [Call.accepted, samplerCalls, List.filterMap_filter]
  congr 1
  funext c
  cases c <;> rfl

namespace Session

variable {s t u : Session} {text : String}

private theorem accepted_calls (s : Session) : Call.accepted s.turnState.calls = s.tally.accepted :=
  s.engine.accepted_samplerCalls

/-- The queued tokens that will be told of without being shown. -/
def outstanding (s : Session) : List Token :=
  if s.progress.echo then [] else s.progress.unread

/-- What is queued from one state to another that will not be shown. -/
def unseen (s t : Session) : List Token :=
  if t.progress.echo then [] else t.progress.queue.drop s.progress.queue.length

/-- What a request leaves to be told of unseen, the token that opens a sequence apart. -/
def forgone (s : Session) : Request → List Token
  | .answer room => s.unseen (s.serve (.answer room))
  | .query text _ =>
    if s.progress.echo ∧ ¬ s.passesOver text then s.progress.unread else []
  | .reset => []

/-- The token that opens a sequence, if a request leaves it to be told of. -/
def opened (s : Session) : Request → List Token
  | .query text _ => if s.passesOver text then [] else s.queryState.opening
  | _ => []

/-- The outstanding tokens that a request passes over. -/
def dropped (s : Session) : Request → List Token
  | .query text _ => if s.passesOver text then s.outstanding else []
  | _ => []

/-- What some requests give one after the other. -/
def gathered (f : Session → Request → List Token) : Session → List Request → List Token
  | _, [] => []
  | s, r :: rs => f s r ++ gathered f (s.serve r) rs

private theorem unseen_eq_nil (h : t.progress.queue = s.progress.queue) : s.unseen t = [] := by
  rw [unseen, h, List.drop_length, ite_self]

private theorem gathered_congr {f g : Session → Request → List Token} {requests : List Request}
    (h : s.AllAllowed (fun s r => f s r = g s r) requests) :
    s.gathered f requests = s.gathered g requests := by
  induction requests generalizing s with
  | nil => rfl
  | cons r rs ih => rw [gathered, gathered, h.1, ih h.2]

/-- Nothing is gathered if the configuration gives no cause. -/
theorem Tells.gathered_eq_nil {s₀ : Session} {places : List Nat}
    {f : Session → Request → List Token} (h : s₀.Tells places s)
    (hf : ∀ s r, s.config = s₀.config → f s r = []) {requests : List Request}
    (hreset : .reset ∉ requests) (hs : s.AllAllowed Succeeds requests) :
    s.gathered f requests = [] := by
  induction requests generalizing s places with
  | nil => rfl
  | cons r rs ih =>
    obtain ⟨hr, hrs⟩ := not_or.mp (mt List.mem_cons.mpr hreset)
    rw [gathered, hf s r h.1, ih (h.serve (Ne.symm hr) hs.1) hrs hs.2, List.append_nil]

/-! ### The balance -/

/-- From one state to another, what the sampler is told of is what is recorded, but for what was or
is outstanding, what is left to be told of unseen and what is passed over. -/
structure Balances (s t : Session) (left passed : List Token) : Prop where
  /-- The two logs grow as they have to. -/
  grows : ∃ calls recorded, t.turnState.calls = s.turnState.calls ++ calls ∧
    t.transcript.tokens.Perm (s.transcript.tokens ++ recorded) ∧
    (Call.accepted calls ++ t.outstanding ++ passed).Perm (s.outstanding ++ recorded ++ left)

private theorem Balances.refl (s : Session) : s.Balances s [] [] where
  grows := ⟨[], [], (List.append_nil _).symm, .of_eq (List.append_nil _).symm,
    by simp [Call.accepted]⟩

private theorem Balances.trans {a b c d : List Token} (h : s.Balances t a b)
    (h' : t.Balances u c d) :
    s.Balances u (a ++ c) (b ++ d) := by
  obtain ⟨calls, recorded, hcalls, htranscript, hsame⟩ := h
  obtain ⟨calls', recorded', hcalls', htranscript', hsame'⟩ := h'
  refine ⟨calls ++ calls', recorded ++ recorded', ?_, ?_, ?_⟩
  · rw [hcalls', hcalls, List.append_assoc]
  · rw [← List.append_assoc]
    exact htranscript'.trans (htranscript.append_right _)
  · rw [List.perm_iff_count] at hsame hsame' ⊢
    intro token
    have hs := hsame token
    have hs' := hsame' token
    simp only [Call.accepted_append, List.count_append] at hs hs' ⊢
    omega

/-- Where nothing is told of, recorded or queued, the balance stays. -/
theorem Balances.of_same (hturnState : t.turnState = s.turnState) (hrecord : t.record = s.record) :
    s.Balances t [] [] := by
  obtain ⟨htranscript, hecho⟩ := Prod.mk.inj hrecord
  have hunread : t.progress.unread = s.progress.unread := congrArg TurnState.unread hturnState
  refine ⟨[], [], ?_, ?_, ?_⟩
  · rw [hturnState, List.append_nil]
  · rw [htranscript, List.append_nil]
  · simp only [Call.accepted, List.filterMap_nil, outstanding, hecho, hunread, List.nil_append,
      List.append_nil]
    exact List.Perm.refl _

/-! ### Passes -/

/-- The sampler is told of the tokens that become pending. -/
theorem refill_accepted (h : refill s = .ok () t) : ∃ calls,
    t.turnState.calls = s.turnState.calls ++ calls ∧
      t.progress.pending = s.progress.pending ++ Call.accepted calls := by
  obtain ⟨-, hfilled⟩ := (ends_refill_turnState s).of_ok h
  obtain ⟨calls, hcalls⟩ := hfilled.exists_calls
  obtain ⟨tokens, htally, hpending⟩ := (takes_refill s).of_ok h
  refine ⟨calls, hcalls, ?_⟩
  have htold : Call.accepted t.turnState.calls = s.tally.accepted ++ tokens := by
    rw [accepted_calls, htally]
  rw [hcalls, Call.accepted_append, accepted_calls] at htold
  rw [hpending, List.append_cancel_left htold]

/-- A step that is shown is recorded; one that is not was outstanding. -/
theorem balances_shown {s₁ : Session} (hempty : s.progress.pending = []) (hr : refill s = .ok () s₁)
    (hd : display s₁ = .ok () t) : s.Balances t [] [] := by
  obtain ⟨calls, hcalls, hpending⟩ := refill_accepted hr
  obtain ⟨htranscript, hcase⟩ := refill_record hr
  have hbenchAndConfig := keeps_benchAndConfig_display.of_ok hd
  have hbench : t.toWorkbench = s₁.toWorkbench := congrArg Prod.fst hbenchAndConfig
  have hturnState : t.turnState = s₁.turnState := congrArg Workbench.turnState hbench
  have houtstanding : t.outstanding = s₁.outstanding := by
    simp only [outstanding, hbench]
  have hrecorded := display_record hd
  rw [hempty, List.nil_append] at hpending
  rw [hpending, htranscript] at hrecorded
  refine ⟨calls, _, by rw [hturnState, hcalls], hrecorded, ?_⟩
  rw [houtstanding]
  apply List.Perm.of_eq
  rcases hcase with ⟨hq, hecho⟩ | ⟨hecho, taken, hprefix, htaken⟩
  · have hread : s.outstanding = [] := by
      rw [outstanding, Progress.queueDrained_iff.mp hq, ite_self]
    rw [hread, outstanding, hecho]
    simp
  · cases hshown : s.progress.echo with
    | true => simp [outstanding, hecho, hshown]
    | false =>
      have hsame : taken = Call.accepted calls := by
        rw [htaken] at hcalls
        have htold := (List.append_right_inj s.turnState.calls).mp hcalls
        rw [← htold, Call.accepted_map]
      obtain ⟨rest, hrest⟩ := hprefix
      have hunread : s₁.progress.unread = rest := by
        change s₁.turnState.unread = rest
        rw [htaken]
        change s.turnState.queue.drop (s.turnState.queueRead + taken.length) = rest
        rw [← List.drop_drop]
        change s.turnState.unread.drop taken.length = rest
        rw [← hrest, List.drop_left]
      simp only [outstanding, hecho, hshown, Bool.false_eq_true, if_false, hunread,
        List.append_nil, ← hsame]
      exact hrest

/-- A reverse prompt that is queued is outstanding if the step before it was not shown. -/
theorem balances_conclude {o : Option Outcome} (hread : s.turnState.queueRead ≤
    s.turnState.queue.length)
    (h : conclude s = .ok o t) : s.Balances t (s.unseen t) [] := by
  obtain ⟨-, hconcluded⟩ := (ends_conclude_turnState s).of_ok h
  obtain ⟨htranscript, hecho⟩ := Prod.mk.inj (turnFrame_record.keeps_conclude.of_ok h)
  refine ⟨[], [], ?_, ?_, ?_⟩
  · rw [hconcluded.calls_eq, List.append_nil]
  · rw [htranscript, List.append_nil]
  · obtain ⟨tokens, _, _, hturnState, -⟩ := hconcluded.exists_eq
    have hqueue : t.progress.queue = s.progress.queue ++ tokens :=
      congrArg TurnState.queue hturnState
    have hqueueRead : t.progress.queueRead = s.progress.queueRead :=
      congrArg TurnState.queueRead hturnState
    have hunread : t.progress.unread = s.progress.unread ++ tokens := by
      rw [Progress.unread, hqueue, hqueueRead]
      exact List.drop_append_of_le_length hread
    apply List.Perm.of_eq
    simp only [Call.accepted, List.filterMap_nil, outstanding, unseen, hecho, hunread, hqueue,
      List.drop_left, List.nil_append, List.append_nil]
    split
    · rfl
    · rfl

variable {calls : List Call} {places : List Nat}

/-- A pass keeps the balance, but for a reverse prompt that it queues unseen. -/
theorem balances_pass {o : Option Outcome} (hv : s.turnState.Tells calls places)
    (h : pass s = .ok o t) : s.Balances t (s.unseen t) [] := by
  obtain ⟨stop, s₁, h₁, h⟩ := bind_eq_ok h
  obtain ⟨hturnState₁, hconfig₁⟩ := turnAndConfig_eq
    (frame_turnAndConfig.keeps_evaluatePending.of_ok h₁)
  have hrecord₁ := frame_record.keeps_evaluatePending.of_ok h₁
  cases stop with
  | some reason =>
    have hqueue : t.progress.queue = s.progress.queue := by
      cases h
      exact congrArg TurnState.queue hturnState₁
    rw [unseen_eq_nil hqueue]
    cases h
    exact .of_same hturnState₁ hrecord₁
  | none =>
    obtain ⟨_, s₂, h₂, h⟩ := bind_eq_ok h
    obtain ⟨_, s₃, h₃, h⟩ := bind_eq_ok h
    obtain ⟨_, s₄, h₄, h⟩ := bind_eq_ok h
    have hempty : s₂.progress.pending = [] := by
      cases h₂
      rfl
    have hturnState₂ : s₂.turnState = s.turnState :=
      (turnAndConfig_eq (frame_turnAndConfig.keeps_clearPending.of_ok h₂)).1.trans hturnState₁
    have hrecord₂ : s₂.record = s.record :=
      (frame_record.keeps_clearPending.of_ok h₂).trans hrecord₁
    obtain ⟨-, hfilled⟩ := (ends_refill_turnState _).of_ok h₃
    have hturnState₄ : s₄.turnState = s₃.turnState := congrArg (·.1.turnState)
      (keeps_benchAndConfig_display.of_ok h₄)
    have htells : s₄.turnState.Tells calls places := by
      rw [← hturnState₂] at hv
      rw [hturnState₄]
      exact hv.filled hfilled
    have hqueue : s₄.progress.queue = s.progress.queue := by
      have hsame : s₃.turnState.queue = s₂.turnState.queue := by
        generalize s₃.turnState = v at hfilled
        cases hfilled <;> rfl
      change s₄.turnState.queue = s.turnState.queue
      rw [hturnState₄, hsame, hturnState₂]
    have hunseen : s₄.unseen t = s.unseen t := by simp only [unseen, hqueue]
    rw [← hunseen]
    have hfirst : s.Balances s₂ [] [] := .of_same hturnState₂ hrecord₂
    exact (hfirst.trans (balances_shown hempty h₃ h₄)).trans (balances_conclude htells.read_le h)

/-- A turn keeps the balance, but for a reverse prompt that it queues unseen. -/
theorem balances_answer {o : Outcome} (hv : s.turnState.Tells calls places)
    (h : answer s = .ok o t) : s.Balances t (s.unseen t) [] := by
  fun_induction Session.answer s with
  | case1 => cases h
  | case2 s outcome u hpass =>
    cases h
    exact balances_pass hv hpass
  | case3 s u hpass ih =>
    obtain ⟨-, hpassed⟩ := (ends_pass_turnState s).of_ok hpass
    have hqueue : u.progress.queue = s.progress.queue := hpassed.queue_eq
    have hunseen : u.unseen t = s.unseen t := by simp only [unseen, hqueue]
    have hfirst := balances_pass hv hpass
    rw [unseen_eq_nil hqueue] at hfirst
    rw [← hunseen]
    exact hfirst.trans (ih (hv.passed hpassed) h)

/-- Passes that do not end the turn keep the balance. -/
theorem balances_passes (hv : s.turnState.Tells calls places) (h : Passes s t) :
    s.Balances t [] [] ∧ t.turnState.Tells calls places := by
  induction h with
  | refl => exact ⟨.refl s, hv⟩
  | @tail u t _ hpass ih =>
    obtain ⟨hbalances, hu⟩ := ih
    obtain ⟨-, hpassed⟩ := (ends_pass_turnState u).of_ok hpass
    have hlast := balances_pass hu hpass
    rw [unseen_eq_nil hpassed.queue_eq] at hlast
    exact ⟨hbalances.trans hlast, hu.passed hpassed⟩

/-! ### Queries -/

/-- A query queues its turn behind the token that opens its sequence. -/
theorem exists_heard_queue (s : Session) (text : String) : ∃ turn,
    (s.queryState.heard text).queue = s.progress.queue ++ s.queryState.opening ++ turn ∧
      (s.queryState.heard text).queueRead =
        if s.passesOver text then (s.progress.queue ++ s.queryState.opening).length
        else s.progress.queueRead := by
  have hpasses : s.passesOver text ↔ 1 < text.utf8ByteSize ∧ s.queryState.leads = true := by
    simp only [passesOver, Template.leads, queryState, Bool.and_eq_true, Bool.not_eq_true']
    exact and_assoc.symm.trans and_comm
  unfold QueryState.heard
  by_cases hl : 1 < text.utf8ByteSize
  · rw [if_pos hl, QueryState.turned, QueryState.led_eq]
    refine ⟨_, List.append_assoc _ _ _, ?_⟩
    simp only [hpasses, hl, true_and]
    rfl
  · rw [if_neg hl, if_neg fun h => hl (hpasses.mp h).1]
    exact ⟨[], (List.append_nil _).symm, rfl⟩

/-- A query records its turn, which is outstanding then, or passed over by it. -/
theorem balances_query (room : Option Nat) (hv : s.turnState.Tells calls places)
    (h : query text s = .ok () t) :
    s.Balances t (s.forgone (.query text room) ++ s.opened (.query text room))
      (s.dropped (.query text room)) := by
  obtain ⟨hecho, hrecorded⟩ := query_record h
  obtain ⟨-, hheard⟩ := (ends_query_turnState text s).of_ok h
  obtain ⟨turn, hqueue, hread⟩ := s.exists_heard_queue text
  rw [← query_eq_ok h] at hqueue hread
  change t.progress.queue = _ at hqueue
  change t.progress.queueRead = _ at hread
  rw [hqueue, List.drop_left] at hrecorded
  refine ⟨[.resetSampler], turn, ?_, .of_eq hrecorded, ?_⟩
  · generalize t.turnState = u at hheard
    cases hheard
    rfl
  · have hle : s.progress.queueRead ≤ s.progress.queue.length := hv.read_le
    have hunread : t.outstanding =
        if s.passesOver text then turn else s.progress.unread ++ s.queryState.opening ++ turn := by
      rw [outstanding, if_neg (by simp [hecho]), Progress.unread, hread, hqueue]
      split
      · exact List.drop_left
      · rw [List.append_assoc, List.drop_append_of_le_length hle, ← List.append_assoc]
        rfl
    have hnone : Call.accepted [.resetSampler] = [] := rfl
    rw [hunread, hnone]
    -- Either the turn takes the place of all that was outstanding, or it is outstanding as well.
    by_cases hp : s.passesOver text
    · have hforgone : s.forgone (.query text room) = [] := if_neg fun h => h.2 hp
      have hopened : s.opened (.query text room) = [] := if_pos hp
      have hdropped : s.dropped (.query text room) = s.outstanding := if_pos hp
      rw [if_pos hp, hforgone, hopened, hdropped, List.nil_append, List.append_nil, List.append_nil]
      exact List.perm_append_comm
    · have hopened : s.opened (.query text room) = s.queryState.opening := if_neg hp
      have hdropped : s.dropped (.query text room) = [] := if_neg hp
      have hunread : s.progress.unread = s.outstanding ++ s.forgone (.query text room) := by
        rw [outstanding, forgone]
        cases s.progress.echo <;> simp [hp]
      rw [if_neg hp, hopened, hdropped, hunread, List.perm_iff_count]
      intro token
      simp only [List.count_append, List.count_nil]
      omega

/-! ### Requests -/

/-- What a request that succeeds comes to. -/
theorem balances_serve {r : Request} (hv : s.turnState.Tells calls places) (hreset : r ≠ .reset)
    (h : s.Succeeds r) :
    s.Balances (s.serve r) (s.forgone r ++ s.opened r) (s.dropped r) := by
  cases r with
  | answer room =>
    obtain ⟨outcome, t, ht⟩ := h
    have hbalances := balances_answer (s := s.showing room) hv ht
    have hserve : s.serve (.answer room) = t := by rw [serve, ht]; rfl
    have hleft : s.forgone (.answer room) ++ s.opened (.answer room) = s.unseen t := by
      rw [← hserve]
      exact List.append_nil _
    rw [hleft, hserve]
    exact ⟨hbalances.grows⟩
  | query text room =>
    obtain ⟨t, ht⟩ := h
    have hserve : s.serve (.query text room) = t := by rw [serve, ht]; rfl
    rw [hserve]
    exact ⟨(balances_query (s := s.showing room) room hv ht).grows⟩
  | reset => exact absurd rfl hreset

/-- While requests are served that succeed, the sampler is told of what is recorded, but for what
is outstanding, what is left to be told of unseen, and what is passed over. -/
theorem balances_serveAll {s₀ : Session} {requests : List Request} (hv : s₀.Tells places s)
    (hreset : .reset ∉ requests) (hs : s.AllAllowed Succeeds requests) :
    s.Balances (s.serveAll requests) (s.gathered (fun s r => s.forgone r ++ s.opened r) requests)
      (s.gathered dropped requests) := by
  induction requests generalizing s places with
  | nil => exact .refl s
  | cons r rs ih =>
    obtain ⟨hr, hrs⟩ := not_or.mp (mt List.mem_cons.mpr hreset)
    have hfirst := balances_serve hv.2 (Ne.symm hr) hs.1
    exact hfirst.trans (ih (hv.serve (Ne.symm hr) hs.1) hrs hs.2)

/-! ### The whole transcript -/

/-- As long as nothing fails, the dialogue does not begin anew and no request leaves queued tokens
to be told of unseen, what is recorded when a pass begins is what the sampler was told of and what
is outstanding, each token as often, but that the tokens which open the sequences of queries are not
recorded, and that the sampler is not told of outstanding turns that queries pass over. Nothing is
outstanding when a pass draws a token, and that is the first thing it has to do with the sampler.
Outside instruct mode nothing is passed over. -/
theorem accepted_tokens_recorded {now : Nat} {config : Config} {engine : Engine}
    {directory : Directory} {s t : Session} {w : Workbench} {requests : List Request}
    (h : Session.start now config engine directory = .ok s w) (hreset : .reset ∉ requests)
    (hs : s.AllAllowed Succeeds requests)
    (hseen : s.AllAllowed (fun s r => s.forgone r = []) requests) (ht : s.AtPass requests t) :
    (t.transcript.tokens ++ s.gathered opened requests).Perm
        (s.acceptedSince t ++ t.outstanding ++ s.gathered dropped requests) ∧
      (∀ guided, .sample guided ∈ t.samplerCallsSince (left (pass t)) → t.outstanding = [] ∧
        ∃ more, t.samplerCallsSince (left (pass t)) = .sample guided :: more) ∧
      (s.config.inputBos = false → s.gathered opened requests = []) ∧
      (s.config.instruct = false → s.gathered dropped requests = []) := by
  have hbegun := start_eq_ok h
  have hread : s.progress.queueRead = 0 := congrArg (·.progress.queueRead) hbegun.anew.symm
  have hempty : s.transcript = {} := congrArg (·.transcript) hbegun.anew.symm
  have hnone : s.outstanding = [] := by
    have hecho : s.progress.echo = true := congrArg (·.progress.echo) hbegun.anew.symm
    rw [outstanding, if_pos hecho]
  have hbegins : s.Tells [] s := .refl hread
  have hgathered : s.gathered (fun s r => s.forgone r ++ s.opened r) requests =
      s.gathered opened requests := by
    apply gathered_congr
    apply hseen.mono
    intro u r hu
    rw [hu, List.nil_append]
  obtain ⟨room, hpasses⟩ := ht
  have hserved := balances_serveAll hbegins hreset hs
  obtain ⟨hbalances, -⟩ := balances_passes (s := (s.serveAll requests).showing room)
    (hbegins.serveAll hreset hs).2 hpasses
  -- The balance of the requests before, and that of the passes since.
  have hall : s.Balances t (s.gathered opened requests ++ [])
      (s.gathered dropped requests ++ []) := by
    rw [hgathered] at hserved
    exact hserved.trans ⟨hbalances.grows⟩
  rw [List.append_nil, List.append_nil] at hall
  refine ⟨?_, ?_, ?_, ?_⟩
  · obtain ⟨calls, recorded, hcalls, htranscript, hsame⟩ := hall
    have haccepted : s.acceptedSince t = Call.accepted calls := by
      rw [acceptedSince, ← accepted_calls, ← accepted_calls, hcalls, Call.accepted_append,
        List.drop_left]
    rw [hempty] at htranscript
    rw [hnone, List.nil_append] at hsame
    rw [haccepted]
    exact (htranscript.append_right _).trans hsame.symm
  · intro guided hmem
    obtain ⟨hq, hfirst⟩ := (Ends.left ((ends_pass_turnState t).mono fun _ u hu => hu.2.sample)) hmem
    refine ⟨?_, hfirst⟩
    rw [outstanding, Progress.queueDrained_iff.mp hq, ite_self]
  · intro hb
    refine hbegins.gathered_eq_nil (fun u r hu => ?_) hreset hs
    cases r with
    | query text room =>
      have hopening : u.queryState.opening = [] := by
        change (if u.config.inputBos then [Token.bos] else []) = []
        rw [hu, hb]
        rfl
      rw [opened, hopening, ite_self]
    | answer room => rfl
    | reset => rfl
  · intro hi
    refine hbegins.gathered_eq_nil (fun u r hu => ?_) hreset hs
    cases r with
    | query text room =>
      refine if_neg fun hp => ?_
      rw [← hu, hp.1] at hi
      cases hi
    | answer room => rfl
    | reset => rfl

/-- All that was accepted is recorded but the token that opens the user's turn. -/
theorem accepted_tokens_recorded_of_opened_turn :
    ∃ s w t, Session.start 0
        { prompt := "ab", interactive := true, antiprompts := ["b"], inputBos := true }
        { contextSize := 96 } {} = .ok s w ∧
      s.AtPass [.answer none, .query "xy" none] t ∧
      s.AllAllowed (fun s r => s.forgone r = []) [.answer none, .query "xy" none] ∧
      .sample false ∈ t.samplerCallsSince (left (pass t)) ∧
      t.transcript.tokens = Token.ofText "abxy" ∧
      (t.transcript.tokens ++ [Token.bos]).Perm (s.acceptedSince t) := by
  obtain ⟨s, w, h, htest⟩ := exists_of_gives
    (fun s : Session => decide (s.AllAllowed Succeeds [.answer none, .query "xy" none] ∧
        s.AllAllowed (fun s r => s.forgone r = []) [.answer none, .query "xy" none] ∧
        s.gathered opened [.answer none, .query "xy" none] = [Token.bos] ∧
        s.gathered dropped [.answer none, .query "xy" none] = []) &&
      goesOn (fun t => .sample false ∈ t.samplerCallsSince (left (pass t)) ∧
          t.transcript.tokens = Token.ofText "abxy")
        ((s.serveAll [.answer none, .query "xy" none]).showing none))
    (r := Session.start 0
      { prompt := "ab", interactive := true, antiprompts := ["b"], inputBos := true }
      { contextSize := 96 } {}) (by decide +kernel)
  obtain ⟨hdone, hgoes⟩ := Bool.and_eq_true_iff.mp htest
  obtain ⟨hs, hseen, hopened, hdropped⟩ := of_decide_eq_true hdone
  obtain ⟨t, ht, hshows⟩ := exists_of_goesOn hgoes
  obtain ⟨hsample, htokens⟩ := of_decide_eq_true hshows
  obtain ⟨hperm, hdraws, -⟩ := accepted_tokens_recorded h (by simp) hs hseen ht
  rw [hopened, hdropped, (hdraws false hsample).1, List.append_nil, List.append_nil] at hperm
  exact ⟨s, w, t, h, ht, hseen, hsample, htokens, hperm⟩

/-- In instruct mode a query passes over the turn of the query before it, which is recorded. -/
theorem recorded_turn_passed_over :
    ∃ s w t, start 0 { prompt := "ab", instruct := true } { contextSize := 96 } {} = .ok s w ∧
      s.AllAllowed Succeeds [.answer none, .query "xy" none, .query "zw" none] ∧
      s.AtPass [.answer none, .query "xy" none, .query "zw" none] t ∧
      .sample false ∈ t.samplerCallsSince (left (pass t)) ∧
      t.transcript.tokens =
        Token.ofText ("ab" ++ leadText ++ "xy" ++ tailText ++ leadText ++ "zw" ++ tailText) ∧
      s.acceptedSince t = Token.ofText ("ab" ++ leadText ++ "zw" ++ tailText) ∧
      ¬ t.transcript.tokens.Perm (s.acceptedSince t) := by
  obtain ⟨s, w, h, htest⟩ := exists_of_gives
    (fun s : Session =>
      decide (s.AllAllowed Succeeds [.answer none, .query "xy" none, .query "zw" none]) &&
      goesOn (fun t => .sample false ∈ t.samplerCallsSince (left (pass t)) ∧
          t.transcript.tokens =
            Token.ofText ("ab" ++ leadText ++ "xy" ++ tailText ++ leadText ++ "zw" ++ tailText) ∧
          s.acceptedSince t = Token.ofText ("ab" ++ leadText ++ "zw" ++ tailText))
        ((s.serveAll [.answer none, .query "xy" none, .query "zw" none]).showing none))
    (r := Session.start 0 { prompt := "ab", instruct := true } { contextSize := 96 } {})
    (by decide +kernel)
  obtain ⟨hdone, hgoes⟩ := Bool.and_eq_true_iff.mp htest
  obtain ⟨t, ht, hshows⟩ := exists_of_goesOn hgoes
  obtain ⟨hsample, htokens, haccepted⟩ := of_decide_eq_true hshows
  refine ⟨s, w, t, h, of_decide_eq_true hdone, ht, hsample, htokens, haccepted, ?_⟩
  rw [htokens, haccepted]
  exact fun hperm => absurd hperm.length_eq (by decide)

end Session

end Dialogue
