import Dialogue.Session.Ends
import Dialogue.Session.TurnState
/-!
# Steps of the turn state

What a pass can make of the turn state. The next step is filled from the queue, or with a draw where
the queue is read, the user does not have the turn and the draws are not used up; then it is decided
whose turn it is. `TurnState.Filled` and `TurnState.Concluded` list what these two can come to, and
`TurnState.Passed` what a pass can.
-/

namespace Dialogue

open Effect

namespace TurnState

/-- Remembers an accepted token, and forgets the oldest if there are too many. -/
def remembered (recent : List Token) (token : Token) : List Token :=
  (if recent.length = Progress.recentCapacity then recent.tail else recent) ++ [token]

/-- The turn state after queued tokens were moved into a step. -/
def take (v : TurnState) (tokens : List Token) : TurnState :=
  { v with
    calls := v.calls ++ tokens.map (.accept · false)
    recent := tokens.foldl remembered v.recent
    queueRead := v.queueRead + tokens.length }

/-- The turn state after a draw that fails. -/
def ask (v : TurnState) (guided : Bool) : TurnState :=
  { v with drawFaults := v.drawFaults.tail, calls := v.calls ++ [.sample guided] }

/-- The token that is drawn next. -/
def next (v : TurnState) : Token := v.script.headD Token.eos

/-- The turn state after a draw. -/
def draw (v : TurnState) (guided : Bool) : TurnState :=
  { v.ask guided with
    script := v.script.tail
    calls := (v.ask guided).calls ++ [.accept v.next true]
    recent := remembered v.recent v.next
    remaining := v.remaining - 1 }

/-- Whether the whole queue was moved into steps. -/
def drained (v : TurnState) : Bool := v.queue.length ≤ v.queueRead

/-- The queued tokens that are still to be moved into a step. -/
def unread (v : TurnState) : List Token := v.queue.drop v.queueRead

/-- Whether the draws of the turn are bounded and used up. -/
def spent (v : TurnState) (c : Config) : Bool := c.hasFiniteBudget && v.remaining ≤ 0

/-- The turn state with the draws of the next turn, which is the user's, if those of this turn are
used up. -/
def settle (v : TurnState) (c : Config) : TurnState :=
  if v.spent c then { v with remaining := c.predict, userTurn := true } else v

/-- What follows a step that emptied the queue. -/
def handback (v : TurnState) (c : Config) : Handback :=
  .decide
    (Antiprompt.find? (Token.render (v.recent.drop (v.recent.length - Antiprompt.recentTokens)))
      c.antiprompts c.interactive).isSome
    (v.recent.getLast? = some Token.eos) c.interactive c.instruct (c.antiprompts ≠ [])

/-- The turn state with tokens queued. -/
def queued (v : TurnState) (tokens : List Token) : TurnState :=
  { v with queue := v.queue ++ tokens }

/-- The turn state with the turn handed over, or not. -/
def handed (v : TurnState) (h : Handback) : TurnState :=
  { v with userTurn := v.userTurn || h.toUser }

/-- What filling the next step can make of the turn state, and with what result. -/
inductive Filled (c : Config) (v : TurnState) : Except SessionError Unit → TurnState → Prop
  /-- The draws are used up. -/
  | spent (hq : v.drained = true) (hu : v.userTurn = false) (hs : v.spent c = true) :
      Filled c v (.ok ()) v
  /-- Something fails before a draw. -/
  | stopped (error : SessionError) : Filled c v (.error error) v
  /-- A draw fails. -/
  | undrawn (hq : v.drained = true) (hu : v.userTurn = false) (hs : v.spent c = false)
      (hf : v.drawFaults.headD false = true) (guided : Bool) (error : SessionError) :
      Filled c v (.error error) (v.ask guided)
  /-- A token is drawn. -/
  | drawn (hq : v.drained = true) (hu : v.userTurn = false) (hs : v.spent c = false)
      (hf : v.drawFaults.headD false = false) (guided : Bool) :
      Filled c v (.ok ()) (v.draw guided)
  /-- Queued tokens are taken, if there are any. -/
  | taken (h : v.drained = false ∨ v.userTurn = true) :
      Filled c v (.ok ()) (v.take (v.unread.take (max c.batchSize 1)))

/-- What deciding whose turn it is can make of the turn state, and with what result. -/
inductive Concluded (c : Config) (v : TurnState) :
    Except SessionError (Option Outcome) → TurnState → Prop
  /-- The draws are used up, and nobody is there to go on. -/
  | exhausted (hs : v.spent c = true) (hi : c.interactive = false) (outcome : Outcome) :
      Concluded c v (.ok (some outcome)) (v.settle c)
  /-- There are queued tokens left. -/
  | undrained {r : Option Outcome} (hq : v.drained = false)
      (hr : r = none → (v.settle c).userTurn = false) : Concluded c v (.ok r) (v.settle c)
  /-- Handing over fails. -/
  | failed (hq : v.drained = true) (tokens : List Token) (error : SessionError) :
      Concluded c v (.error error) ((v.settle c).queued tokens)
  /-- Control is handed over, or not. -/
  | handed {r : Option Outcome} (hq : v.drained = true) (tokens : List Token)
      (ht : (v.handback c).injects = false → tokens = [])
      (hr : r = none → (v.handback c).terminates = false ∧
        ((v.settle c).handed (v.handback c)).userTurn = false) :
      Concluded c v (.ok r) (((v.settle c).queued tokens).handed (v.handback c))

/-- What a pass can make of the turn state, and with what result. -/
inductive Passed (c : Config) (v : TurnState) :
    Except SessionError (Option Outcome) → TurnState → Prop
  /-- The pending tokens are not evaluated, and that ends the turn. -/
  | ended {r : Except SessionError (Option Outcome)} (hr : r ≠ .ok none) : Passed c v r v
  /-- The next step is not filled or not shown. -/
  | broken {r : Except SessionError Unit} {u : TurnState} (h : Filled c v r u)
      (error : SessionError) : Passed c v (.error error) u
  /-- The next step is taken. -/
  | stepped {r : Except SessionError (Option Outcome)} {u t : TurnState} (h : Filled c v (.ok ()) u)
      (hc : Concluded c u r t) : Passed c v r t

/-- Of queued tokens the sampler is told, and nothing else. -/
theorem not_mem_accepted {tokens : List Token} {c : Call} (hc : ∀ t, c ≠ .accept t false) :
    c ∉ tokens.map (.accept · false) := by
  rw [List.mem_map]
  intro ⟨t, _, ht⟩
  exact hc t ht.symm

private theorem queued_nil (v : TurnState) : v.queued [] = v := by simp [queued]

private theorem take_take (v : TurnState) (a b : List Token) :
    (v.take a).take b = v.take (a ++ b) := by
  simp [take, Nat.add_assoc]

/-- Whether the turn is handed back does not depend on the draws that are left. -/
@[simp] theorem handback_settle (v : TurnState) (c : Config) :
    (v.settle c).handback c = v.handback c := by
  unfold settle
  split <;> rfl

variable {c : Config} {v u : TurnState}

/-- Settling concerns the draws that are left, which are renewed when the user gets the turn, and
the turn, which the user keeps. -/
theorem settle_eq (v : TurnState) (c : Config) : ∃ remaining userTurn,
    v.settle c = { v with remaining, userTurn } ∧ (v.userTurn = true → userTurn = true) ∧
      (remaining = v.remaining ∨ remaining = c.predict ∧ userTurn = true) := by
  unfold settle
  split
  · exact ⟨_, _, rfl, fun _ => rfl, .inr ⟨rfl, rfl⟩⟩
  · exact ⟨_, _, rfl, id, .inl rfl⟩

/-- Deciding whose turn it is queues tokens at most, besides what settling concerns. -/
theorem Concluded.exists_eq {r : Except SessionError (Option Outcome)} (h : v.Concluded c r u) :
    ∃ tokens remaining userTurn,
      u = { v with queue := v.queue ++ tokens, remaining, userTurn } ∧
        (v.userTurn = true → userTurn = true) ∧
        (remaining = v.remaining ∨ remaining = c.predict ∧ userTurn = true) := by
  obtain ⟨n, b, hsettle, hb, hn⟩ := v.settle_eq c
  cases h with
  | exhausted =>
    rw [hsettle]
    exact ⟨[], n, b, by simp, hb, hn⟩
  | undrained =>
    rw [hsettle]
    exact ⟨[], n, b, by simp, hb, hn⟩
  | failed _ tokens =>
    rw [hsettle]
    exact ⟨tokens, n, b, rfl, hb, hn⟩
  | handed _ tokens =>
    rw [hsettle]
    refine ⟨tokens, n, _, rfl, ?_, ?_⟩
    · exact fun hu => Bool.or_eq_true_iff.mpr (.inl (hb hu))
    · exact hn.imp_right fun h => ⟨h.1, Bool.or_eq_true_iff.mpr (.inl h.2)⟩

/-- Deciding whose turn it is tells the sampler nothing. -/
theorem Concluded.calls_eq {r : Except SessionError (Option Outcome)} (h : v.Concluded c r u) :
    u.calls = v.calls := by
  obtain ⟨_, _, _, rfl, -⟩ := h.exists_eq
  rfl

/-- A turn goes on only in a turn state that stays as it is. -/
theorem Concluded.goes_on (h : Concluded c v (.ok none) u) :
    u = v ∧ v.spent c = false ∧ v.userTurn = false ∧ (v.drained = true →
      (v.handback c).terminates = false ∧ (v.handback c).toUser = false) := by
  have hsettled (hu : (v.settle c).userTurn = false) : v.spent c = false ∧ v.settle c = v := by
    unfold settle at hu ⊢
    split at hu
    · cases hu
    · next hs => exact ⟨Bool.eq_false_iff.mpr hs, if_neg hs⟩
  cases h with
  | undrained hq hr =>
    obtain ⟨hs, heq⟩ := hsettled (hr rfl)
    refine ⟨heq, hs, ?_, fun hd => absurd hd (Bool.eq_false_iff.mp hq)⟩
    rw [← heq]
    exact hr rfl
  | handed hq tokens ht hr =>
    obtain ⟨hterm, hu⟩ := hr rfl
    obtain ⟨hturn, huser⟩ := Bool.or_eq_false_iff.mp hu
    obtain ⟨hs, heq⟩ := hsettled hturn
    have hend : (v.handback c).endOfSequence = false := Handback.goes_on huser hterm
    have hinject : (v.handback c).injects = false := by
      simp only [handback, Handback.decide] at hend ⊢
      rw [hend]
      rfl
    rw [heq] at hturn ⊢
    rw [ht hinject, queued_nil]
    refine ⟨?_, hs, hturn, fun _ => ⟨hterm, huser⟩⟩
    rw [TurnState.handed, huser, Bool.or_false]

/-- The user keeps the turn, or gets it if it is to be handed over. -/
theorem Concluded.userTurn {o : Option Outcome} (h : v.Concluded c (.ok o) u)
    (hu : v.userTurn = true ∨ v.drained = true ∧ (v.handback c).toUser = true) :
    u.userTurn = true := by
  obtain ⟨n, b, hsettle, hb, -⟩ := v.settle_eq c
  cases h with
  | exhausted hs => exact congrArg TurnState.userTurn (if_pos hs)
  | undrained hq =>
    rw [hsettle]
    exact hb (hu.resolve_right fun h => Bool.eq_false_iff.mp hq h.1)
  | handed =>
    rw [hsettle]
    rcases hu with hu | ⟨-, hu⟩
    · exact Bool.or_eq_true_iff.mpr (.inl (hb hu))
    · exact Bool.or_eq_true_iff.mpr (.inr hu)

/-- No token is taken from the queue for good. -/
theorem Passed.prefix_queue {r : Except SessionError (Option Outcome)} (h : v.Passed c r u) :
    v.queue <+: u.queue := by
  have hfilled {r : Except SessionError Unit} {u : TurnState} (h : v.Filled c r u) :
      u.queue = v.queue := by cases h <;> rfl
  cases h with
  | ended => exact List.prefix_rfl
  | broken h => exact hfilled h ▸ List.prefix_rfl
  | stepped h hc =>
    obtain ⟨tokens, _, _, rfl, -⟩ := hc.exists_eq
    rw [← hfilled h]
    exact List.prefix_append _ _

end TurnState

namespace Engine

/-- The engine once a draw was asked for. -/
def asked (e : Engine) (guided : Bool) : Engine :=
  { e with calls := e.calls.push (.sample guided), faults := e.faults.next .sample }

/-- What drawing a token comes to. -/
theorem ends_sample {guided : Bool} {e : Engine} {Q : Except EngineError Token → Engine → Prop} :
    Ends (Engine.sample guided) e Q ↔
      if e.faults.sample.headD false then
        Q (.error (.inference "scripted sample failure")) (e.asked guided)
      else Q (.ok (e.script.headD Token.eos)) { e.asked guided with script := e.script.tail } := by
  simp only [Engine.sample, note, fails, ends_bind, ends_modify, ends_modifyGet, ends_failIf,
    Faults.schedule]
  split <;> rfl

end Engine

namespace Session

variable {s : Session}

/-! ### Filling a step -/

/-- A call to draw is added to those to the sampler. -/
theorem turnState_asked (guided : Bool) :
    ({ s with engine := s.engine.asked guided } : Session).turnState = s.turnState.ask guided :=
  TurnState.ext rfl rfl (Engine.samplerCalls_push rfl _) rfl rfl rfl rfl rfl

/-- What drawing the next token comes to. -/
theorem ends_drawNext_turnState (hq : s.turnState.drained = true)
    (hu : s.turnState.userTurn = false)
    (hs : s.turnState.spent s.config = false) :
    Ends drawNext s fun r t => t.config = s.config ∧ s.turnState.Filled s.config r t.turnState := by
  simp only [drawNext, ends_bind]
  apply (Ends.keeps frame_turnAndConfig.keeps_savePrompt).mono
  intro r s₁ h₁
  obtain ⟨hturnState, hconfig⟩ := turnAndConfig_eq h₁
  rw [← hturnState] at hq hu hs ⊢
  cases r with
  | error e => exact ⟨hconfig, .stopped e⟩
  | ok _ =>
    simp only [ends_get, ends_call, Engine.ends_sample]
    generalize (s₁.guidance.isSome && s₁.progress.guidanceReady) = guided
    split
    · next hf =>
      refine ⟨hconfig, ?_⟩
      rw [turnState_asked]
      exact .undrawn hq hu hs hf guided _
    · next hf =>
      refine ⟨hconfig, ?_⟩
      change s₁.turnState.Filled _ _ { s₁.turnState.draw guided with
        calls := ((s₁.engine.calls.push (.sample guided)).push
          (.accept s₁.turnState.next true)).toList.filter Call.onSampler }
      rw [Engine.samplerCalls_push rfl, Engine.samplerCalls_push rfl]
      exact .drawn hq hu hs (Bool.eq_false_iff.mpr hf) guided

/-- What moving queued tokens into a step comes to. -/
theorem ends_forM_takeQueued_turnState (l : List Token) (s : Session) :
    Ends (l.forM takeQueued) s fun r t =>
      r = .ok () ∧ t.config = s.config ∧ t.turnState = s.turnState.take l := by
  induction l generalizing s with
  | nil => exact ⟨rfl, rfl, TurnState.ext rfl rfl (List.append_nil _).symm rfl rfl rfl rfl rfl⟩
  | cons token l ih =>
    obtain ⟨t, ht, hconfig, hturnState⟩ : ∃ t, takeQueued token s = .ok () t ∧
        t.config = s.config ∧ t.turnState = s.turnState.take [token] :=
      ⟨_, rfl, rfl, TurnState.ext rfl rfl (Engine.samplerCalls_push rfl _) rfl rfl rfl rfl rfl⟩
    change Ends (takeQueued token >>= fun _ => l.forM takeQueued) s _
    rw [ends_bind, ends_iff_of_eq_ok ht]
    apply (ih t).mono
    rintro r u ⟨hr, hu, hv⟩
    refine ⟨hr, hu.trans hconfig, ?_⟩
    rw [hv, hturnState, TurnState.take_take]
    rfl

/-- What filling the next step comes to. -/
theorem ends_refill_turnState (s : Session) :
    Ends refill s fun r t => t.config = s.config ∧ s.turnState.Filled s.config r t.turnState := by
  simp only [refill, ends_bind, ends_get, ends_ite, enter, ends_modify]
  split
  · next h =>
    obtain ⟨hq, hu⟩ := Bool.and_eq_true_iff.mp h
    rw [Bool.not_eq_true'] at hu
    split
    · next hs => exact ⟨rfl, .spent hq hu hs⟩
    · next hs => exact ends_drawNext_turnState hq hu (Bool.eq_false_iff.mpr hs)
  · next h =>
    simp only [drainQueue, ends_bind, ends_get, ends_report]
    apply (ends_forM_takeQueued_turnState _ _).mono
    rintro r t ⟨rfl, hc, ht⟩
    rw [ht]
    refine ⟨hc, .taken ?_⟩
    cases hq : s.turnState.drained with
    | false => exact .inl rfl
    | true =>
      cases hu : s.turnState.userTurn with
      | false => exact absurd (Bool.and_eq_true_iff.mpr ⟨hq, congrArg not hu⟩) h
      | true => exact .inr rfl

/-! ### Deciding whose turn it is -/

private theorem keeps_turnAndConfig_reportAntiprompt : Keeps turnAndConfig reportAntiprompt := by
  refine .bind .get fun s => ?_
  split
  · exact .pure _
  · exact frame_turnAndConfig.keeps_report rfl

/-- What queuing the first reverse prompt comes to, if that is to be done. -/
private theorem ends_queueAntiprompt (c : Bool) (s : Session) :
    Ends (onlyIf c queueAntiprompt) s fun _ t => t.config = s.config ∧
      ∃ tokens, (c = false → tokens = []) ∧ t.turnState = s.turnState.queued tokens := by
  cases c with
  | false => exact ⟨rfl, [], fun _ => rfl, s.turnState.queued_nil.symm⟩
  | true =>
    change Ends queueAntiprompt s _
    simp only [queueAntiprompt, ends_bind, ends_get]
    split
    · exact ⟨rfl, [], by rintro ⟨⟩, s.turnState.queued_nil.symm⟩
    · rw [ends_bind]
      apply (Ends.keeps
        (keeps_turnAndConfig_call (Engine.frame_sampling.keeps_tokenize _ _ _))).mono
      intro r t ht
      obtain ⟨hturnState, hconfig⟩ := turnAndConfig_eq ht
      cases r with
      | error e =>
        rw [← s.turnState.queued_nil] at hturnState
        exact ⟨hconfig, [], by rintro ⟨⟩, hturnState⟩
      | ok tokens => exact ⟨hconfig, tokens, by rintro ⟨⟩, congrArg (TurnState.queued · tokens)
        hturnState⟩

/-- What handing control over comes to. -/
theorem ends_handOver_turnState (s : Session) :
    Ends handOver s fun r t => t.config = s.config ∧
      match r with
      | .ok h => h = s.turnState.handback s.config ∧ ∃ tokens, (h.injects = false → tokens = []) ∧
          t.turnState = (s.turnState.queued tokens).handed h
      | .error _ => ∃ tokens, t.turnState = s.turnState.queued tokens := by
  simp only [handOver, ends_bind]
  apply (Ends.keeps keeps_turnAndConfig_reportAntiprompt).mono
  intro r s₁ h₁
  obtain ⟨hturnState, hconfig⟩ := turnAndConfig_eq h₁
  rw [← hturnState, ← hconfig]
  cases r with
  | error e => exact ⟨rfl, [], s₁.turnState.queued_nil.symm⟩
  | ok _ =>
    rw [ends_get]
    dsimp only
    apply (ends_queueAntiprompt _ s₁).mono
    rintro r s₂ ⟨hconfig₂, tokens, htokens, hturnState₂⟩
    cases r with
    | error e => exact ⟨hconfig₂, tokens, hturnState₂⟩
    | ok _ =>
      have hshows : Keeps turnAndConfig (do report .endOfSequenceFound; write "\n") :=
        .bind (frame_turnAndConfig.keeps_report rfl) fun _ => frame_turnAndConfig.keeps_write _
      apply (Ends.keeps (.onlyIf _ hshows)).mono
      intro r s₃ h₃
      obtain ⟨hturnState₃, hconfig₃⟩ := turnAndConfig_eq h₃
      rw [hturnState₂] at hturnState₃
      rw [hconfig₂] at hconfig₃
      cases r with
      | error e => exact ⟨hconfig₃, tokens, hturnState₃⟩
      | ok _ =>
        refine ⟨hconfig₃, rfl, tokens, htokens, ?_⟩
        rw [← hturnState₃]
        rfl

/-- Ending the turn if control is with the user. -/
theorem ends_finishIfUserTurn_turnState (reason : StopReason) (s : Session) :
    Ends (finishIfUserTurn reason) s fun r t => t.turnAndConfig = s.turnAndConfig ∧
      ∃ o, r = .ok o ∧ (o = none → s.turnState.userTurn = false) := by
  simp only [finishIfUserTurn, finish, enter, ends_bind, ends_get, ends_ite]
  split
  · exact ⟨rfl, _, rfl, by rintro ⟨⟩⟩
  · next h => exact ⟨rfl, _, rfl, fun _ => Bool.eq_false_iff.mpr h⟩

/-- What deciding whose turn it is comes to once the queue is read. -/
theorem ends_concludeDrained_turnState (spent : Bool) (s : Session) :
    Ends (concludeDrained spent) s fun r t => t.config = s.config ∧ ∃ tokens,
      match r with
      | .ok o => ((s.turnState.handback s.config).injects = false → tokens = []) ∧
          (o = none → (s.turnState.handback s.config).terminates = false ∧
            (s.turnState.handed (s.turnState.handback s.config)).userTurn = false) ∧
          t.turnState = (s.turnState.queued tokens).handed (s.turnState.handback s.config)
      | .error _ => t.turnState = s.turnState.queued tokens := by
  simp only [concludeDrained, ends_bind]
  apply (ends_handOver_turnState s).mono
  rintro r t ⟨hconfig, ht⟩
  cases r with
  | error e => exact ⟨hconfig, ht⟩
  | ok h =>
    obtain ⟨rfl, tokens, htokens, hturnState⟩ := ht
    simp only [ends_ite, ends_bind, ends_report]
    split
    · exact ⟨hconfig, tokens, htokens, nofun, hturnState⟩
    · next hterm =>
      apply (ends_finishIfUserTurn_turnState _ t).mono
      rintro r u ⟨hu, o, rfl, ho⟩
      obtain ⟨hturnState', hconfig'⟩ := turnAndConfig_eq hu
      refine ⟨hconfig'.trans hconfig, tokens, htokens, ?_, hturnState'.trans hturnState⟩
      intro hnone
      rw [hturnState] at ho
      exact ⟨Bool.eq_false_iff.mpr hterm, ho hnone⟩

/-- What deciding whose turn it is comes to. -/
theorem ends_conclude_turnState (s : Session) :
    Ends conclude s fun r t => t.config = s.config ∧ s.turnState.Concluded s.config r
      t.turnState := by
  have hsettle : Ends (onlyIf s.budgetSpent renewBudget) s fun r t =>
      r = .ok () ∧ t.config = s.config ∧ t.turnState = s.turnState.settle s.config := by
    rw [ends_onlyIf, TurnState.settle]
    split
    · next h => exact ⟨rfl, rfl, (if_pos h).symm⟩
    · next h => exact ⟨rfl, rfl, (if_neg h).symm⟩
  simp only [conclude, ends_bind, ends_get]
  apply hsettle.mono
  rintro r t ⟨rfl, hconfig, hturnState⟩
  simp only [ends_ite]
  split
  · next h =>
    obtain ⟨hs, hi⟩ := Bool.and_eq_true_iff.mp h
    rw [Bool.not_eq_true'] at hi
    have hspent := TurnState.Concluded.exhausted (v := s.turnState) (c := s.config) hs hi
    rw [← hturnState] at hspent
    exact ⟨hconfig, hspent _⟩
  · split
    · next hq =>
      have hq : s.turnState.drained = true := hq
      apply (ends_concludeDrained_turnState _ t).mono
      rintro r u ⟨hu, tokens, hr⟩
      refine ⟨hu.trans hconfig, ?_⟩
      rw [hturnState, hconfig, TurnState.handback_settle] at hr
      cases r with
      | error e =>
        rw [hr]
        exact .failed hq tokens e
      | ok o =>
        obtain ⟨htokens, ho, hr⟩ := hr
        rw [hr]
        exact .handed hq tokens htokens ho
    · next hq =>
      apply (ends_finishIfUserTurn_turnState _ t).mono
      rintro r u ⟨hu, o, rfl, ho⟩
      obtain ⟨hturnState', hconfig'⟩ := turnAndConfig_eq hu
      refine ⟨hconfig'.trans hconfig, ?_⟩
      rw [hturnState', hturnState]
      rw [hturnState] at ho
      exact .undrained (Bool.eq_false_iff.mpr hq) ho

/-! ### A pass -/

/-- What taking the next step comes to. -/
theorem ends_takeStep_turnState (s : Session) :
    Ends takeStep s fun r t => t.config = s.config ∧ s.turnState.Passed s.config r t.turnState := by
  simp only [takeStep, ends_bind]
  apply (Ends.keeps frame_turnAndConfig.keeps_clearPending).mono
  intro r s₁ h₁
  obtain ⟨hturnState₁, hconfig₁⟩ := turnAndConfig_eq h₁
  rw [← hturnState₁, ← hconfig₁]
  cases r with
  | error e => exact ⟨rfl, .ended nofun⟩
  | ok _ =>
    apply (ends_refill_turnState s₁).mono
    rintro r s₂ ⟨hconfig₂, hfilled⟩
    cases r with
    | error e => exact ⟨hconfig₂, .broken hfilled e⟩
    | ok _ =>
      apply (Ends.keeps keeps_turnAndConfig_display).mono
      intro r s₃ h₃
      obtain ⟨hturnState₃, hconfig₃⟩ := turnAndConfig_eq h₃
      rw [← hturnState₃] at hfilled
      rw [hconfig₂] at hconfig₃
      cases r with
      | error e => exact ⟨hconfig₃, .broken hfilled e⟩
      | ok _ =>
        apply (ends_conclude_turnState s₃).mono
        rintro r t ⟨hconfig, hconcluded⟩
        rw [hconfig₃] at hconfig hconcluded
        exact ⟨hconfig, .stepped hfilled hconcluded⟩

/-- What a pass comes to. -/
theorem ends_pass_turnState (s : Session) :
    Ends pass s fun r t => t.config = s.config ∧ s.turnState.Passed s.config r t.turnState := by
  simp only [pass, ends_bind]
  apply (Ends.keeps frame_turnAndConfig.keeps_evaluatePending).mono
  intro r s₁ h₁
  obtain ⟨hturnState, hconfig⟩ := turnAndConfig_eq h₁
  rw [← hturnState, ← hconfig]
  match r with
  | .error e => exact ⟨rfl, .ended nofun⟩
  | .ok (some reason) => exact ⟨rfl, .ended nofun⟩
  | .ok none => exact ends_takeStep_turnState s₁

end Session

end Dialogue
