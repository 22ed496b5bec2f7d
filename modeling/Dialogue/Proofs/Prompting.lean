import Dialogue.Proofs.HandingOver
import Dialogue.Proofs.UnbatchedSteps
import Dialogue.Proofs.TurnLength
import Dialogue.Proofs.WarmStart
/-!
# Taking the prompt

While a turn begins, queued tokens are told to the sampler, shown and evaluated batch by batch. In
the unbatched view it comes to the same whether two batches are taken one after the other or as one,
so it comes to the same however the queue is cut.
-/

namespace Dialogue

open Effect

/-- A computation that gives a value at every end ends with it. -/
theorem Effect.Ends.exists_ok {ε σ α : Type} {x : EStateM ε σ α} {s : σ} {a : α}
    {Q : σ → Prop} (h : Ends x s fun r t => r = .ok a ∧ Q t) : ∃ t, x s = .ok a t ∧ Q t := by
  obtain ⟨b, t, hx, rfl, ht⟩ :=
    Ends.exists_eq_ok (P := fun b t => b = a ∧ Q t) (h.mono fun _ _ hr => ⟨a, hr.1, rfl, hr.2⟩)
  exact ⟨t, hx, ht⟩

/-! ### What is held -/

/-- What evaluating tokens concerns: the cells, the counter and the log of the main context. -/
@[ext] structure Holdings where
  /-- The cells. -/
  cells : Cells
  /-- How many tokens are resident. -/
  past : Int
  /-- The tokens the session file is to hold. -/
  logged : List Token
  /-- How many of the logged tokens are known to be resident. -/
  loggedRead : Nat

namespace Holdings

/-- How many of some tokens the log holds behind those that are known to be resident. -/
def skipped (v : Holdings) (tokens : List Token) : Nat :=
  commonLength (v.logged.drop v.loggedRead) tokens

/-- What the log comes to when tokens are compared with it: it is cut where they differ. -/
def compared (v : Holdings) (tokens : List Token) : List Token :=
  if v.skipped tokens < tokens.length then v.logged.take (v.loggedRead + v.skipped tokens)
  else v.logged

/-- What is held once tokens were skipped as far as the log holds them, and the rest was decoded,
and logged if there is a session file. -/
def take (active : Bool) (v : Holdings) (tokens : List Token) : Holdings where
  cells := v.cells.write (v.past + v.skipped tokens) (tokens.drop (v.skipped tokens))
  past := v.past + tokens.length
  logged :=
    if tokens.drop (v.skipped tokens) ≠ [] && active then
      v.compared tokens ++ tokens.drop (v.skipped tokens)
    else v.compared tokens
  loggedRead :=
    if tokens.drop (v.skipped tokens) ≠ [] && active then
      (v.compared tokens ++ tokens.drop (v.skipped tokens)).length
    else v.loggedRead + v.skipped tokens

end Holdings

private theorem commonLength_append_of_lt {l a : List Token} (h : commonLength l a < a.length)
    (b : List Token) : commonLength l (a ++ b) = commonLength l a := by
  have htake := commonLength_take l (a ++ b) a.length
  rw [List.take_left] at htake
  omega

private theorem commonLength_append_of_eq {l a : List Token} (h : commonLength l a = a.length)
    (b : List Token) : commonLength l (a ++ b) = a.length + commonLength (l.drop a.length) b := by
  obtain ⟨r, rfl⟩ := commonLength_eq_length_iff.mp h
  rw [List.drop_left]
  clear h
  induction a with
  | nil => simp
  | cons t a ih =>
    simp only [List.cons_append, commonLength, if_true, ih, List.length_cons]
    omega

namespace Holdings

variable {active : Bool} {v : Holdings} {a b : List Token}

/-- Tokens that the log holds are skipped. -/
theorem take_of_skipped (h : v.skipped a = a.length) :
    v.take active a =
      { v with past := v.past + a.length, loggedRead := v.loggedRead + a.length } := by
  ext1 <;> simp [take, compared, h, Cells.write]

/-- Tokens that the log does not hold are decoded, and put in its place. -/
theorem take_of_left (h : v.skipped a < a.length) :
    v.take active a =
      { cells := v.cells.write (v.past + v.skipped a) (a.drop (v.skipped a))
        past := v.past + a.length
        logged := v.logged.take (v.loggedRead + v.skipped a) ++
          if active then a.drop (v.skipped a) else []
        loggedRead :=
          if active then (v.logged.take (v.loggedRead + v.skipped a) ++
            a.drop (v.skipped a)).length
          else v.loggedRead + v.skipped a } := by
  have hrest : a.drop (v.skipped a) ≠ [] := by
    rw [ne_eq, List.drop_eq_nil_iff]
    omega
  cases active <;> simp [take, compared, h, hrest]

/-- Once tokens have left the log, nothing more of it is held. -/
theorem length_logged_take_le (h : v.skipped a < a.length) :
    (v.take active a).logged.length ≤ (v.take active a).loggedRead := by
  rw [take_of_left h]
  cases active
  · simp only [Bool.false_eq_true, if_false, List.append_nil]
    exact List.length_take_le _ _
  · exact Nat.le_refl _

/-- Where nothing more of the log is held, all tokens are decoded. -/
theorem take_of_read (h : v.logged.length ≤ v.loggedRead) :
    v.take active b =
      { cells := v.cells.write v.past b
        past := v.past + b.length
        logged := if b ≠ [] && active then v.logged ++ b else v.logged
        loggedRead := if b ≠ [] && active then (v.logged ++ b).length else v.loggedRead } := by
  have hnone : v.skipped b = 0 := by
    rw [skipped, List.drop_of_length_le h]
    cases b <;> rfl
  have hcompared : v.compared b = v.logged := by
    rw [compared, hnone, Nat.add_zero, List.take_of_length_le h, ite_self]
  simp only [take, hnone, hcompared, List.drop_zero, Int.natCast_zero, Int.add_zero, Nat.add_zero]

/-- Two batches come to the same as one. -/
theorem take_append (active : Bool) (v : Holdings) (a b : List Token) :
    (v.take active a).take active b = v.take active (a ++ b) := by
  have hle : v.skipped a ≤ a.length := commonLength_le_right _ _
  rcases Nat.lt_or_eq_of_le hle with hlt | heq
  · have hskipped : v.skipped (a ++ b) = v.skipped a := commonLength_append_of_lt hlt b
    have hplace : v.past + v.skipped a + (a.drop (v.skipped a)).length = v.past + a.length := by
      rw [List.length_drop]
      omega
    rw [take_of_read (length_logged_take_le hlt), take_of_left hlt,
      take_of_left (a := a ++ b) (by rw [hskipped, List.length_append]; omega), hskipped,
      List.drop_append_of_le_length hle, Cells.write_append, hplace]
    ext1
    · rfl
    · simp only [List.length_append, Int.natCast_add, Int.add_assoc]
    · cases active <;> cases b <;> simp
    · cases active <;> cases b <;> simp
  · rw [take_of_skipped heq]
    generalize hu : ({ v with
      past := v.past + a.length, loggedRead := v.loggedRead + a.length } : Holdings) = u
    have hskipped : v.skipped (a ++ b) = a.length + u.skipped b := by
      rw [← hu, skipped, commonLength_append_of_eq heq, List.drop_drop]
      rfl
    have hrest : (a ++ b).drop (v.skipped (a ++ b)) = b.drop (u.skipped b) := by
      rw [hskipped, List.drop_length_add_append]
    have hcompared : v.compared (a ++ b) = u.compared b := by
      simp only [compared, hskipped, List.length_append, Nat.add_lt_add_iff_left, ← hu,
        Nat.add_assoc]
    obtain ⟨hcells, hpast, hread⟩ : u.cells = v.cells ∧ u.past = v.past + a.length ∧
        u.loggedRead = v.loggedRead + a.length := by
      subst hu
      exact ⟨rfl, rfl, rfl⟩
    unfold take
    rw [hrest, hcompared, hskipped, hcells, hpast, hread]
    simp only [List.length_append, Int.natCast_add, Int.add_assoc, Nat.add_assoc]

end Holdings

/-- Of queued tokens that the sampler is told of the unbatched view shows all. -/
theorem Engine.unbatched_accepted (e : Engine) (tokens : List Token) :
    Engine.unbatched { e with calls := e.calls ++ (tokens.map fun t => .accept t false).toArray } =
      { e.unbatched with
        calls := e.unbatched.calls ++ (tokens.map fun t => .accept t false).toArray } := by
  have hall : (tokens.map fun t => Call.accept t false).filter (fun c => !c.decodes) =
      tokens.map fun t => .accept t false := by
    rw [List.filter_eq_self]
    intro c hc
    obtain ⟨t, -, rfl⟩ := List.mem_map.mp hc
    rfl
  simp only [Engine.unbatched, Array.toList_append, List.filter_append, hall, List.append_toArray]

/-- What leaves the turn with the session: it does not end the generation, and if the user takes
turns no reverse prompt stands at its end. -/
def Config.LeavesTurn (c : Config) (tokens : List Token) : Prop :=
  tokens.getLast? ≠ some Token.eos ∧ (c.interactive = true →
    Antiprompt.find? (Token.render (tokens.drop (tokens.length - Antiprompt.recentTokens)))
      c.antiprompts true = none)

namespace Session

/-- What the session holds. -/
def holdings (s : Session) : Holdings where
  cells := s.engine.mainCells
  past := s.progress.past
  logged := s.progress.logged
  loggedRead := s.progress.loggedRead

/-- The session holding something else, with no next step. -/
def holding (s : Session) (v : Holdings) : Session :=
  { s with
    engine := { s.engine with mainCells := v.cells }
    progress :=
      { s.progress with
        pending := []
        past := v.past
        logged := v.logged
        loggedRead := v.loggedRead }
    decodeFailures := 0 }

/-- The session without its next step. -/
def cleared (s : Session) : Session := { s with progress := { s.progress with pending := [] } }

/-- The session with a batch of queued tokens told to the sampler, taken for the next step, and
shown. -/
def taking (s : Session) (batch : List Token) (atAntiprompt : Bool) : Session :=
  { s with
    engine := { s.engine with
      calls := s.engine.calls ++ (batch.map fun t => .accept t false).toArray }
    progress :=
      { s.progress with
        pending := batch
        queueRead := s.progress.queueRead + batch.length
        recent := batch.foldl TurnState.remembered s.progress.recent
        atAntiprompt }
    phase := .displaying
    output := batch.foldl (fun o t => o.write t.text) s.output }

/-- The session once a batch of queued tokens was taken and evaluated. -/
def prompted (s : Session) (batch : List Token) (atAntiprompt : Bool) : Session :=
  (s.taking batch atAntiprompt).holding (s.holdings.take s.cache.isActive batch)

/-- The log is cut where the next step differs from it, if it goes on there. -/
theorem logged_reuse_eq (s : Session) :
    s.progress.reuse.logged = s.holdings.compared s.progress.pending := by
  unfold Holdings.compared
  change (if (decide (s.holdings.skipped s.progress.pending < _) && decide (_ < _)) = true then _
    else _) = _
  by_cases hlt : s.holdings.skipped s.progress.pending < s.progress.pending.length
  · rw [if_pos hlt, decide_eq_true hlt, Bool.true_and]
    split
    · rfl
    · next h =>
      rw [decide_eq_true_eq, Nat.not_lt] at h
      exact (List.take_of_length_le h).symm
  · rw [if_neg hlt, decide_eq_false hlt, Bool.false_and, if_neg Bool.false_ne_true]
    rfl

/-- Evaluating the next step comes to holding it. -/
theorem cleared_evaluated (s : Session) :
    s.evaluated.cleared = s.holding (s.holdings.take s.cache.isActive s.progress.pending) := by
  have hlogged := s.logged_reuse_eq
  have hpast : s.progress.reuse.past + s.progress.reuse.pending.length =
      s.progress.past + s.progress.pending.length := by
    have hle : s.holdings.skipped s.progress.pending ≤ s.progress.pending.length :=
      commonLength_le_right _ _
    change s.progress.past + s.holdings.skipped s.progress.pending +
      (s.progress.pending.drop (s.holdings.skipped s.progress.pending)).length = _
    rw [List.length_drop]
    omega
  unfold evaluated withLog
  split
  · next h =>
    change (decide (s.progress.pending.drop (s.holdings.skipped s.progress.pending) ≠ []) &&
      s.cache.isActive) = true at h
    simp only [Holdings.take, if_pos h, holding, cleared, withCells, hpast, hlogged]
    rfl
  · next h =>
    change ¬ (decide (s.progress.pending.drop (s.holdings.skipped s.progress.pending) ≠ []) &&
      s.cache.isActive) = true at h
    simp only [Holdings.take, if_neg h, holding, cleared, withCells, hpast, hlogged]
    rfl

/-- Two batches come to the same as one, whatever is noted of a reverse prompt in between. -/
theorem prompted_append (s : Session) (a b : List Token) (f g : Bool) :
    (s.prompted a f).prompted b g = s.prompted (a ++ b) g := by
  have hheld : (s.prompted a f).holdings.take s.cache.isActive b =
      s.holdings.take s.cache.isActive (a ++ b) := Holdings.take_append _ _ _ _
  change ((s.prompted a f).taking b g).holding ((s.prompted a f).holdings.take s.cache.isActive b) =
    (s.taking (a ++ b) g).holding (s.holdings.take s.cache.isActive (a ++ b))
  rw [hheld]
  simp only [taking, prompted, holding, List.map_append, List.foldl_append, List.length_append,
    Nat.add_assoc, List.append_toArray, Array.append_assoc]

/-! ### Taking a batch -/

/-- An output that is not bounded takes every text. -/
theorem write_eq_ok {s : Session} (h : s.output.room = none) (text : String) :
    write text s = .ok () { s with output := s.output.write text } := by
  have htakes : s.output.takes text = true := by
    rw [Output.takes, h]
    rfl
  change (failIf (!s.output.takes text) (.io .outputFull) : SessionM Unit) _ = _
  rw [htakes]
  rfl

/-- Tokens that are shown on an output that is not bounded. -/
theorem ends_forM_showToken (several : Bool) (l : List Token) {s : Session}
    (h : s.output.room = none) :
    Ends (l.forM (showToken several)) s fun r t => r = .ok () ∧ ∃ transcript,
      t = { s with output := l.foldl (fun o t => o.write t.text) s.output, transcript } := by
  induction l generalizing s with
  | nil => exact ⟨rfl, s.transcript, rfl⟩
  | cons token l ih =>
    change Ends (showToken several token >>= fun _ => l.forM (showToken several)) s _
    simp only [showToken, ends_bind, ends_iff_of_eq_ok (write_eq_ok h _), ends_modify]
    have hroom : (s.output.write token.text).room = none := by rw [Output.write, h]
    apply (ih hroom).mono
    rintro r t ⟨hr, transcript, rfl⟩
    exact ⟨hr, transcript, rfl⟩

/-- Queued tokens that are moved into the next step. -/
theorem forM_takeQueued_eq (l : List Token) (s : Session) :
    l.forM takeQueued s = .ok ()
      { s with
        engine := { s.engine with
          calls := s.engine.calls ++ (l.map fun t => .accept t false).toArray }
        progress :=
          { s.progress with
            pending := s.progress.pending ++ l
            queueRead := s.progress.queueRead + l.length
            recent := l.foldl TurnState.remembered s.progress.recent } } := by
  induction l generalizing s with
  | nil =>
    change EStateM.Result.ok () s = _
    simp
  | cons token l ih =>
    change l.forM takeQueued
      { s with
        engine := { s.engine with calls := s.engine.calls.push (.accept token false) }
        progress :=
          { s.progress with
            pending := s.progress.pending ++ [token]
            queueRead := s.progress.queueRead + 1
            recent := TurnState.remembered s.progress.recent token } } = _
    rw [ih]
    simp [Nat.add_assoc, Nat.add_comm 1]

/-- Whether a reverse prompt was found is told by the journal only. -/
theorem ends_reportAntiprompt (s : Session) :
    Ends reportAntiprompt s fun r t => r = .ok () ∧ ∃ journal, t = { s with journal } := by
  simp only [reportAntiprompt, ends_bind, ends_get]
  split
  · exact ⟨rfl, s.journal, rfl⟩
  · exact ⟨rfl, _, rfl⟩

/-- The session with a reverse prompt noted once the queue is read. -/
def noting (s : Session) : Session :=
  if s.progress.queueDrained then
    { s with progress := { s.progress with atAntiprompt := s.handback.atAntiprompt } }
  else s

/-- A turn that is not handed over, and in which draws are left, goes on. -/
theorem ends_conclude_of_goes_on {s : Session} (hspent : s.budgetSpent = false)
    (hturn : s.progress.userTurn = false)
    (hback : s.progress.queueDrained = true →
      s.handback.toUser = false ∧ s.handback.terminates = false) :
    Ends conclude s fun r t => r = .ok none ∧ t.unbatched = s.noting.unbatched ∧
      t.mainFaults = s.mainFaults := by
  simp only [conclude, ends_bind, ends_get, hspent, ends_onlyIf, Bool.false_eq_true, if_false,
    Bool.false_and, ends_ite, noting]
  split
  · next hdrained =>
    obtain ⟨huser, hterm⟩ := hback hdrained
    have hend : s.handback.endOfSequence = false := Handback.goes_on huser hterm
    have hinjects : s.handback.injects = false := by
      simp only [handback, Handback.decide] at hend ⊢
      rw [hend]
      rfl
    simp only [concludeDrained, handOver, ends_bind]
    apply (ends_reportAntiprompt s).mono
    rintro _ t ⟨rfl, journal, rfl⟩
    have hsame : ({ s with journal } : Session).handback = s.handback := rfl
    simp only [ends_get, hsame, hinjects, hend, ends_onlyIf, Bool.false_eq_true, if_false,
      Bool.false_and, ends_advance, ends_pure, hterm, ends_ite, finishIfUserTurn, ends_bind, hturn,
      huser, Bool.or_false]
    refine ⟨trivial, ?_, rfl⟩
    simp only [unbatched, Workbench.unbatched, Progress.plain]
  · simp only [finishIfUserTurn, ends_bind, ends_get, hturn, Bool.false_eq_true, if_false,
      ends_pure]
    exact ⟨trivial, trivial, trivial⟩

/-- What follows a step does not depend on the size of the batches. -/
theorem TurnState.handback_congr {v u : TurnState} {c d : Config} (h : u.recent = v.recent)
    (hc : d.batchedBy 0 = c.batchedBy 0) : u.handback d = v.handback c := by
  change u.handback (d.batchedBy 0) = v.handback (c.batchedBy 0)
  rw [hc]
  simp only [TurnState.handback, h]

/-- What follows the step that empties the queue. -/
def ending (s : Session) : Handback := (s.turnState.take s.turnState.unread).handback s.config

/-- A session that is to take queued tokens, and then goes on by itself. -/
structure Prompting (s : Session) : Prop where
  /-- The output is not bounded. -/
  room : s.output.room = none
  /-- The next step is shown. -/
  echo : s.progress.echo = true
  /-- Control is with the session. -/
  turn : s.progress.userTurn = false
  /-- Draws are left. -/
  spent : s.budgetSpent = false
  /-- What is queued does not hand over, and does not end the session. -/
  goesOn : s.ending.toUser = false ∧ s.ending.terminates = false
  /-- What was read of the queue is resident. -/
  past : s.progress.past = s.progress.queueRead
  /-- The queue is no longer than a step can be. -/
  queue_le : s.progress.queue.length ≤ s.window.maxStep
  /-- The queue fits into the context. -/
  fits : s.progress.queue.length + max s.offset 0 ≤ s.window.size
  /-- Positions are signed words. -/
  size_lt : s.window.size < 0x80000000

/-- The batch that is taken next. -/
def nextBatch (s : Session) : List Token := s.progress.unread.take (max s.config.batchSize 1)

/-- Whether a reverse prompt is noted once a batch is taken. It is looked for where the queue is
read. -/
def noteAfter (s : Session) (batch : List Token) : Bool :=
  if s.progress.queue.length ≤ s.progress.queueRead + batch.length then
    ((s.turnState.take batch).handback s.config).atAntiprompt
  else s.progress.atAntiprompt

/-- The session with queued tokens in its next step, before that is shown. -/
def filling (s : Session) (batch : List Token) : Session :=
  { s with
    engine := { s.engine with
      calls := s.engine.calls ++ (batch.map fun t => .accept t false).toArray }
    journal := s.journal.push (.drainingQueue s.progress.queue.length s.progress.queueRead)
    progress :=
      { s.progress with
        pending := batch
        guidanceInput := []
        queueRead := s.progress.queueRead + batch.length
        recent := batch.foldl TurnState.remembered s.progress.recent }
    phase := .processingQueue }

/-- Queued tokens fill the next step. -/
theorem refill_eq_ok {s : Session} (hq : s.progress.queueDrained = false) :
    refill (left (clearPending s)) = .ok () (s.filling s.nextBatch) := by
  have hdrains : ¬ (s.progress.queueDrained && !s.progress.userTurn) = true := by
    rw [hq, Bool.false_and]
    exact Bool.false_ne_true
  change (if (s.progress.queueDrained && !s.progress.userTurn) = true then _ else _ :
    SessionM Unit) _ = _
  rw [if_neg hdrains]
  change s.nextBatch.forM takeQueued { s with
    journal := s.journal.push (.drainingQueue s.progress.queue.length s.progress.queueRead)
    progress := { s.progress with pending := [], guidanceInput := [] }
    phase := .processingQueue } = _
  rw [forM_takeQueued_eq]
  rfl

/-- As long as the queue is not read, the next batch has a token, and is a part of it. -/
theorem nextBatch_bounds {s : Session} (hq : s.progress.queueDrained = false) :
    0 < s.nextBatch.length ∧
      s.progress.queueRead + s.nextBatch.length ≤ s.progress.queue.length := by
  simp only [Progress.queueDrained, decide_eq_false_iff_not, Nat.not_le] at hq
  simp only [nextBatch, Progress.unread, List.length_take, List.length_drop]
  omega

/-- The batch that empties the queue is all that was left of it. -/
theorem nextBatch_eq_unread {s : Session}
    (h : s.progress.queue.length ≤ s.progress.queueRead + s.nextBatch.length) :
    s.nextBatch = s.progress.unread := by
  simp only [nextBatch, Progress.unread, List.length_take, List.length_drop] at h ⊢
  rw [List.take_of_length_le]
  rw [List.length_drop]
  omega

/-- With the batch that empties the queue it is noted what the queue ends with. -/
theorem noteAfter_nextBatch {s : Session}
    (h : s.progress.queue.length ≤ s.progress.queueRead + s.nextBatch.length) :
    s.noteAfter s.nextBatch = s.ending.atAntiprompt := by
  rw [noteAfter, if_pos h, nextBatch_eq_unread h]
  rfl

/-- The session that has taken its next batch and shows it. -/
def displaying (s : Session) (transcript : Transcript) : Session :=
  { s.filling s.nextBatch with
    transcript
    phase := .displaying
    output := s.nextBatch.foldl (fun o t => o.write t.text) s.output }

private theorem queueDrained_displaying (s : Session) (transcript : Transcript) :
    (s.displaying transcript).progress.queueDrained = true ↔
      s.progress.queue.length ≤ s.progress.queueRead + s.nextBatch.length :=
  decide_eq_true_iff

private theorem unbatched_displaying (s : Session) (transcript : Transcript) (noted : Bool) :
    ({ s.displaying transcript with
      progress := { (s.displaying transcript).progress with atAntiprompt := noted } } :
        Session).unbatched = s.unbatched.taking s.nextBatch noted := by
  simp only [unbatched, Workbench.unbatched, displaying, filling, taking, Engine.unbatched_accepted]
  rfl

/-- A reverse prompt is noted if that batch empties the queue. -/
theorem unbatched_noting_displaying (s : Session) (transcript : Transcript) :
    (s.displaying transcript).noting.unbatched =
      s.unbatched.taking s.nextBatch (s.noteAfter s.nextBatch) := by
  simp only [noting, queueDrained_displaying, noteAfter]
  split
  · exact unbatched_displaying s transcript _
  · exact unbatched_displaying s transcript s.progress.atAntiprompt

private theorem Prompting.ends_display {s : Session} (h : s.Prompting) :
    Ends display (s.filling s.nextBatch) fun r t =>
      r = .ok () ∧ ∃ transcript, s.displaying transcript = t := by
  simp only [display, ends_bind, ends_get, ends_onlyIf, enter, ends_modify]
  have hecho : (s.filling s.nextBatch).progress.echo = true := h.echo
  rw [if_pos hecho]
  have hroom : ({ s.filling s.nextBatch with phase := .displaying } : Session).output.room = none :=
    h.room
  apply (ends_forM_showToken _ _ hroom).mono
  rintro _ t ⟨rfl, transcript, rfl⟩
  exact ⟨rfl, transcript, rfl⟩

/-- The next batch is taken and shown, and the turn goes on. -/
theorem Prompting.ends_takeStep {s : Session} (h : s.Prompting)
    (hq : s.progress.queueDrained = false) :
    Ends takeStep s fun r t => r = .ok none ∧
      t.unbatched = s.unbatched.taking s.nextBatch (s.noteAfter s.nextBatch) ∧
      t.mainFaults = s.mainFaults := by
  have hcleared : clearPending s = .ok () (left (clearPending s)) := rfl
  rw [takeStep, ends_bind, ends_iff_of_eq_ok hcleared]
  dsimp only
  rw [ends_bind, ends_iff_of_eq_ok (refill_eq_ok hq)]
  dsimp only
  rw [ends_bind]
  apply h.ends_display.mono
  rintro _ t ⟨rfl, transcript, rfl⟩
  dsimp only
  have hspent : (s.displaying transcript).budgetSpent = false := h.spent
  have hturn : (s.displaying transcript).progress.userTurn = false := h.turn
  refine (ends_conclude_of_goes_on hspent hturn fun hdrained => ?_).mono ?_
  · have hback : (s.displaying transcript).handback =
        (s.turnState.take s.nextBatch).handback s.config := rfl
    have hgoes := h.goesOn
    rw [hback, nextBatch_eq_unread ((queueDrained_displaying s transcript).mp hdrained)]
    exact hgoes
  · rintro r u ⟨hr, hu, hfaults⟩
    exact ⟨hr, hu.trans (unbatched_noting_displaying s transcript), hfaults⟩

/-! ### Evaluating a batch -/

/-- A step that is short enough is not cut. -/
theorem ends_cutPending_of_le {s : Session} {n : Nat} (h : s.progress.pending.length ≤ n)
    {Q : Except SessionError Unit → Session → Prop} : Ends (cutPending n) s Q ↔ Q (.ok ()) s := by
  simp only [cutPending, ends_bind, ends_get, ends_onlyIf,
    decide_eq_false (Nat.not_lt.mpr h), Bool.false_eq_true, if_false]

/-- A step that fits arrives as it is. -/
theorem ends_arrive_of_fits {s : Session} (hmax : s.progress.pending.length ≤ s.window.maxStep)
    (hfits : s.overflows = false) (hpos : 0 < s.room) (hroom : s.progress.pending.length ≤ s.room)
    {Q : Except SessionError (Option StopReason) → Session → Prop} :
    Ends arrive s Q ↔ Q (.ok none) s := by
  simp only [arrive, ends_bind, ends_get, ends_cutPending_of_le hmax, hfits, Bool.and_false,
    Bool.false_eq_true, if_false, ends_makeRoom_of_fits hfits,
    if_neg (Nat.pos_iff_ne_zero.mp hpos), ends_cutPending_of_le hroom, ends_pure]

/-- A step of which nothing is left to decode makes no call. -/
theorem ends_feedRest_calls (s : Session) :
    Ends feedRest s fun _ t => s.progress.reuse.pending = [] →
      t.mainContext.calls = s.mainContext.calls := by
  apply (ends_feedRest s).mono
  rintro r t ⟨-, hf⟩ h
  have hpieces : pieces s.config.batchSize s.mainContext.reuse.pending = [] := by
    rw [show s.mainContext.reuse.pending = [] from h, pieces, if_pos rfl]
  have hlog (v : MainContext) (n : Nat) : (v.log n).calls = v.calls := by
    unfold MainContext.log
    split <;> rfl
  generalize t.mainContext = u at hf
  cases hf with
  | whole hf =>
    rw [hpieces] at hf
    cases hf
    exact hlog _ _
  | partly hf =>
    rw [hpieces] at hf
    cases hf
  | givenUp hf =>
    rw [hpieces] at hf
    cases hf

/-- A step that fits is evaluated unless a decode call fails. -/
theorem ends_evaluatePending_of_fits {s : Session} (hne : s.progress.pending ≠ [])
    (hmax : s.progress.pending.length ≤ s.window.maxStep) (hfits : s.overflows = false)
    (hroom : s.progress.pending.length ≤ s.room)
    (hd : s.progress.reuse.pending = [] ∨ s.Decodes) :
    Ends evaluatePending s fun r t => r = .ok none ∧ t.unbatched = s.unbatched.evaluated ∧
      (s.Decodes → t.Decodes) ∧
      (s.progress.reuse.pending = [] → t.mainContext.calls = s.mainContext.calls) := by
  have hpos : 0 < s.room := Nat.lt_of_lt_of_le (List.length_pos_iff.mpr hne) hroom
  simp only [evaluatePending, ends_bind, ends_get, if_neg hne]
  rw [evaluate_eq, ends_bind, ends_arrive_of_fits hmax hfits hpos hroom]
  simp only [ends_bind, ends_pure]
  apply ((ends_feedRest_unbatched s hd).and (ends_feedRest_calls s)).mono
  rintro _ t ⟨⟨rfl, hout, hdecodes⟩, hcalls⟩
  exact ⟨trivial, hout, hdecodes, hcalls⟩

/-! ### Taking the queue -/

/-- The next batch is taken and evaluated, unless a decode call fails; none is made if the session
holds the batch. -/
theorem Prompting.exists_evaluated {v : Session} (h : v.Prompting)
    (hq : v.progress.queueDrained = false)
    (hd : v.Decodes ∨ v.holdings.skipped v.nextBatch = v.nextBatch.length) :
    ∃ t u, takeStep v = .ok none t ∧ evaluatePending t = .ok none u ∧
      u.unbatched.cleared = v.unbatched.prompted v.nextBatch (v.noteAfter v.nextBatch) ∧
      (v.Decodes → u.Decodes) ∧
      (v.holdings.skipped v.nextBatch = v.nextBatch.length →
        u.mainContext.calls = v.mainContext.calls) := by
  obtain ⟨t, ht, hout, hfaults⟩ : ∃ t, takeStep v = .ok none t ∧
      t.unbatched = v.unbatched.taking v.nextBatch (v.noteAfter v.nextBatch) ∧
      t.mainFaults = v.mainFaults := (h.ends_takeStep hq).exists_ok
  have htaken : t.mainContext.calls = v.mainContext.calls :=
    ((Session.ends_takeStep v).of_ok ht).2.calls_eq
  have hdecodes (hv : v.Decodes) : t.Decodes := by
    intro b hb
    rw [hfaults] at hb
    exact hv b hb
  obtain ⟨hpos, hread⟩ := nextBatch_bounds hq
  -- What is to be known of the step shows in the unbatched view.
  have hpending : t.progress.pending = v.nextBatch := congrArg (·.progress.pending) hout
  have hwindow : t.window = v.window := congrArg (·.window) hout
  have hoffset : t.offset = v.offset := congrArg (·.offset) hout
  have hpast : t.progress.past = v.progress.queueRead :=
    (congrArg (·.progress.past) hout).trans h.past
  have hrest : t.progress.reuse.pending = v.nextBatch.drop (v.holdings.skipped v.nextBatch) :=
    congrArg (·.progress.reuse.pending) hout
  have hnone (hs : v.holdings.skipped v.nextBatch = v.nextBatch.length) :
      t.progress.reuse.pending = [] := by rw [hrest, hs, List.drop_length]
  have hmax := h.queue_le
  have hfits := h.fits
  have hsize := h.size_lt
  have hword : Number.signedWord v.nextBatch.length = v.nextBatch.length :=
    Number.signedWord_of_lt (by omega)
  obtain ⟨u, hu, hevaluated, hud, hcalls⟩ : ∃ u, evaluatePending t = .ok none u ∧
      u.unbatched = t.unbatched.evaluated ∧ (t.Decodes → u.Decodes) ∧
      (t.progress.reuse.pending = [] → u.mainContext.calls = t.mainContext.calls) := by
    refine (ends_evaluatePending_of_fits ?_ ?_ ?_ ?_ (hd.symm.imp hnone hdecodes)).exists_ok
    · rw [hpending]
      exact List.ne_nil_of_length_pos hpos
    · rw [hpending, hwindow]
      omega
    · rw [overflows, hwindow, hpast, hpending, hoffset, Window.overflows, hword]
      exact decide_eq_false (by omega)
    · rw [Session.room, hwindow, hpast, hpending, hoffset, Window.room]
      omega
  refine ⟨t, u, ht, hu, ?_, fun hv => hud (hdecodes hv), fun hs => ?_⟩
  · have hcleared : u.unbatched.cleared = t.unbatched.evaluated.cleared := congrArg cleared
      hevaluated
    rw [hcleared, cleared_evaluated, hout]
    rfl
  · rw [hcalls (hnone hs), htaken]

/-- An output that takes everything shows the texts of tokens one behind the other. -/
theorem shown_foldl_write (l : List Token) {o : Output} (h : o.room = none) :
    (l.foldl (fun o t => o.write t.text) o).room = none ∧
      (l.foldl (fun o t => o.write t.text) o).shown.toList =
        o.shown.toList ++ l.flatMap fun t => Text.utf8 t.text := by
  induction l generalizing o with
  | nil => exact ⟨h, (List.append_nil _).symm⟩
  | cons token l ih =>
    have hwrite : o.write token.text = { o with shown := o.shown ++ Text.utf8 token.text } := by
      rw [Output.write, h]
    obtain ⟨hroom, hshown⟩ := ih (o := o.write token.text) (by rw [hwrite]; exact h)
    refine ⟨hroom, hshown.trans ?_⟩
    rw [hwrite]
    simp

/-- A batch of what is queued is taken, and the session is to take the rest. -/
theorem Prompting.prompted {v u : Session} (h : v.Prompting) {a b : List Token} {f : Bool}
    (hab : v.progress.unread = a ++ b) (hu : u.unbatched.cleared = v.unbatched.prompted a f) :
    u.Prompting ∧ u.progress.unread = b ∧ u.ending = v.ending := by
  have hunread : u.progress.unread = b := by
    have hprogress : u.progress.unread = v.progress.queue.drop (v.progress.queueRead + a.length) :=
      congrArg (·.progress.unread) hu
    rw [hprogress, ← List.drop_drop]
    change v.progress.unread.drop a.length = b
    rw [hab, List.drop_left]
  have hconfig : u.config.batchedBy 0 = v.config.batchedBy 0 := congrArg (·.config) hu
  have hending : u.ending = v.ending := by
    have hrecent : u.progress.recent = a.foldl TurnState.remembered v.progress.recent :=
      congrArg (·.progress.recent) hu
    refine TurnState.handback_congr ?_ hconfig
    change u.progress.unread.foldl _ u.progress.recent =
      v.progress.unread.foldl _ v.progress.recent
    rw [hunread, hrecent, hab, List.foldl_append]
  have hqueue : u.progress.queue = v.progress.queue := congrArg (·.progress.queue) hu
  have hwindow : u.window = v.window := congrArg (·.window) hu
  have hoffset : u.offset = v.offset := congrArg (·.offset) hu
  refine ⟨⟨?_, ?_, ?_, ?_, ?_, ?_, ?_, ?_, ?_⟩, hunread, hending⟩
  · have houtput : u.output = a.foldl (fun o t => o.write t.text) v.output :=
      congrArg (·.output) hu
    rw [houtput]
    exact (shown_foldl_write a h.room).1
  · exact (congrArg (·.progress.echo) hu).trans h.echo
  · exact (congrArg (·.progress.userTurn) hu).trans h.turn
  · exact (congrArg (·.budgetSpent) hu).trans h.spent
  · rw [hending]
    exact h.goesOn
  · have hpast : u.progress.past = v.progress.past + a.length := congrArg (·.progress.past) hu
    have hread : u.progress.queueRead = v.progress.queueRead + a.length :=
      congrArg (·.progress.queueRead) hu
    rw [hpast, hread, h.past, Int.natCast_add]
  · rw [hqueue, hwindow]
    exact h.queue_le
  · rw [hqueue, hwindow, hoffset]
    exact h.fits
  · rw [hwindow]
    exact h.size_lt

/-- Once some of a queue that the session holds was taken, it holds the rest. -/
theorem prefix_drop_of_prompted {v u : Session} {a b : List Token} {f : Bool}
    (hu : u.unbatched.cleared = v.unbatched.prompted a f)
    (h : a ++ b <+: v.progress.logged.drop v.progress.loggedRead) :
    b <+: u.progress.logged.drop u.progress.loggedRead := by
  have hskipped : v.holdings.skipped a = a.length :=
    commonLength_eq_length_iff.mpr ((List.prefix_append a b).trans h)
  have hheld : u.holdings = v.holdings.take v.cache.isActive a :=
    congrArg (·.holdings) hu
  rw [Holdings.take_of_skipped hskipped] at hheld
  have hlogged : u.progress.logged = v.progress.logged := congrArg Holdings.logged hheld
  have hread : u.progress.loggedRead = v.progress.loggedRead + a.length :=
    congrArg Holdings.loggedRead hheld
  obtain ⟨rest, hrest⟩ := h
  rw [hlogged, hread, ← List.drop_drop, ← hrest, List.append_assoc, List.drop_left]
  exact List.prefix_append b rest

/-- All that is queued is taken, batch by batch, and comes to the same as one batch. No decode call
is made if the session holds it; else none is to fail. -/
theorem Prompting.exists_passes {s v : Session} (hs : evaluatePending s = .ok none v)
    (h : v.Prompting) (hne : v.progress.unread ≠ [])
    (hd : v.Decodes ∨ v.progress.unread <+: v.progress.logged.drop v.progress.loggedRead) :
    ∃ t u, Passes s t ∧ evaluatePending t = .ok none u ∧
      u.unbatched.cleared = v.unbatched.prompted v.progress.unread v.ending.atAntiprompt ∧
      (v.Decodes → u.Decodes) ∧
      (v.progress.unread <+: v.progress.logged.drop v.progress.loggedRead →
        u.mainContext.calls = v.mainContext.calls) := by
  -- The induction is on what is left of the queue: each batch takes some of it.
  induction hn : v.progress.unread.length using Nat.strongRecOn generalizing s v with
  | ind n ih =>
    have hq : v.progress.queueDrained = false :=
      Bool.eq_false_iff.mpr (mt Progress.queueDrained_iff.mp hne)
    obtain ⟨rest, hbatch⟩ : ∃ rest, v.progress.unread = v.nextBatch ++ rest :=
      ⟨_, (List.take_append_drop _ _).symm⟩
    obtain ⟨hpos, -⟩ := nextBatch_bounds hq
    have hskips (hheld : v.progress.unread <+: v.progress.logged.drop v.progress.loggedRead) :
        v.holdings.skipped v.nextBatch = v.nextBatch.length := by
      rw [hbatch] at hheld
      exact commonLength_eq_length_iff.mpr ((List.prefix_append _ rest).trans hheld)
    obtain ⟨t, u, ht, hu, hout, hdecodes, hcalls⟩ := h.exists_evaluated hq (hd.imp_right hskips)
    have hpass : pass s = .ok none t := (pass_eq_takeStep hs).trans ht
    obtain ⟨hprompting, hunread, hending⟩ := h.prompted hbatch hout
    by_cases hrest : rest = []
    · rw [hrest, List.append_nil] at hbatch
      have hnote : v.noteAfter v.nextBatch = v.ending.atAntiprompt := by
        refine noteAfter_nextBatch ?_
        rw [← hbatch, Progress.unread, List.length_drop]
        omega
      rw [hnote, ← hbatch] at hout
      exact ⟨t, u, .single hpass, hu, hout, hdecodes, fun hheld => hcalls (hskips hheld)⟩
    · have hrests (hheld : v.progress.unread <+: v.progress.logged.drop v.progress.loggedRead) :
          u.progress.unread <+: u.progress.logged.drop u.progress.loggedRead := by
        rw [hbatch] at hheld
        rw [hunread]
        exact prefix_drop_of_prompted hout hheld
      obtain ⟨t', u', hpasses, hu', hout', hdecodes', hcalls'⟩ :=
        ih _ (by rw [← hn, hunread, hbatch, List.length_append]; omega) hu hprompting
          (by rwa [hunread]) (hd.imp hdecodes hrests) rfl
      refine ⟨t', u', hpasses.head hpass, hu', ?_, fun hv => hdecodes' (hdecodes hv),
        fun hheld => (hcalls' (hrests hheld)).trans (hcalls (hskips hheld))⟩
      have hsame : u.unbatched.prompted rest v.ending.atAntiprompt =
          u.unbatched.cleared.prompted rest v.ending.atAntiprompt := rfl
      rw [hout', hunread, hending, hsame, hout, prompted_append, ← hbatch]

/-! ### A turn that begins with a queue -/

/-- A turn goes on as the one that begins after some of its passes. -/
theorem answer_of_passes {s t : Session} (h : Passes s t) : answer s = answer t := by
  induction h with
  | refl => rfl
  | tail _ hpass ih =>
    rw [ih, answer_eq, hpass]

/-- Where no step waits, nothing is evaluated. -/
theorem evaluatePending_of_pending_nil {s : Session} (h : s.progress.pending = []) :
    evaluatePending s = .ok none s := congrFun (if_pos h) s

/-- A session that begins is to take the prompt, if the turn is its own, there is something to
draw, and the prompt does not hand over. -/
theorem Begun.prompting {config : Config} {engine : Engine} {directory : Directory} {s : Session}
    (h : Begun config engine directory s) (hpredict : s.config.predict ≠ 0)
    (hfirst : s.config.userFirst = false)
    (hends : s.ending.toUser = false ∧ s.ending.terminates = false)
    (hfits : s.progress.queue.length + max s.offset 0 ≤ s.window.size) :
    (s.showing none).Prompting where
  room := rfl
  echo := congrArg (·.progress.echo) h.anew.symm
  turn := (congrArg (·.progress.userTurn) h.anew.symm).trans hfirst
  spent := by
    have hremaining : s.progress.remaining = s.config.predict :=
      congrArg (·.progress.remaining) h.anew.symm
    change (s.config.hasFiniteBudget && decide (s.progress.remaining ≤ 0)) = false
    rw [hremaining, Config.hasFiniteBudget, Bool.and_eq_false_iff]
    simp only [decide_eq_false_iff_not]
    omega
  goesOn := hends
  past := by
    have hpast : s.progress.past = 0 := congrArg (·.progress.past) h.anew.symm
    have hread : s.progress.queueRead = 0 := congrArg (·.progress.queueRead) h.anew.symm
    change s.progress.past = s.progress.queueRead
    rw [hpast, hread]
    rfl
  queue_le := h.queue_le
  fits := hfits
  size_lt := by
    change s.window.size < _
    rw [h.size]
    exact Number.signedWord_lt _

/-- Without guidance the prompt fits into the context. -/
theorem Begun.fits_of_unguided {config : Config} {engine : Engine} {directory : Directory}
    {s : Session} (h : Begun config engine directory s) (hguidance : s.guidance = none) :
    s.progress.queue.length + max s.offset 0 ≤ s.window.size := by
  have hoffset : s.offset = 0 := by
    rw [offset, hguidance]
    rfl
  have hmax := h.queue_le
  have hne := List.length_pos_iff.mpr h.queue_ne_nil
  rw [Window.maxStep] at hmax
  omega

/-- A session decodes all that it is to decode if the engine does that it begins with. -/
theorem Begun.decodes {config : Config} {engine : Engine} {directory : Directory} {s : Session}
    (h : Begun config engine directory s)
    (hdecode : ∀ fails ∈ engine.faults.decodeMain, fails = false) : s.Decodes := by
  intro fails hfails
  rw [show s.mainFaults = _ from h.decodeFaults_eq] at hfails
  exact hdecode fails hfails

/-- A session that begins has read nothing of the prompt. -/
theorem Begun.unread_eq {config : Config} {engine : Engine} {directory : Directory} {s : Session}
    (h : Begun config engine directory s) : s.progress.unread = s.progress.queue := by
  have hread : s.progress.queueRead = 0 := congrArg (·.progress.queueRead) h.anew.symm
  rw [Progress.unread, hread, List.drop_zero]

/-- What leaves the turn with the session is no handover once it is read. -/
theorem Begun.ending_of_leavesTurn {config : Config} {engine : Engine} {directory : Directory}
    {s : Session} (h : Begun config engine directory s)
    (hins : s.config.instruct = false) (hleaves : s.config.LeavesTurn s.progress.queue) :
    s.ending.toUser = false ∧ s.ending.terminates = false := by
  obtain ⟨hend, hfind⟩ := hleaves
  have hrecent : (s.turnState.take s.turnState.unread).recent =
      s.progress.queue.drop (s.progress.queue.length - Progress.recentCapacity) := by
    have hfold := TurnState.foldl_remembered [] s.progress.queue
    change s.progress.unread.foldl TurnState.remembered s.progress.recent = _
    rwa [h.unread_eq, h.recent]
  simp only [ending, TurnState.handback, Handback.decide, hrecent, TurnState.getLast?_remembered,
    TurnState.drop_remembered, hins]
  cases hi : s.config.interactive
  · simp [hend]
  · simp [hend, hfind hi]

end Session

end Dialogue
