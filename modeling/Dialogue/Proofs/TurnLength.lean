import Dialogue.Proofs.Notices
import Dialogue.Proofs.Taking
import Dialogue.Proofs.Turns
/-!
# How many passes a turn has

The passes of a turn are bounded whatever samples are to come. Where the draws of a turn are
bounded, every pass that goes on takes a batch from the queue or uses up a draw. Where a turn may
fill the context without a swap, every pass that goes on makes a token resident, or fails to decode
once more than before, which does not go on for ever.
-/

namespace Dialogue

open Effect

/-- Of a number of entries there is a batch less once a batch is taken. -/
theorem batches_lt {n b : Nat} (hn : 0 < n) (hb : 0 < b) :
    (n - min b n + b - 1) / b < (n + b - 1) / b := by
  rcases Nat.le_total n b with h | h
  · rw [Nat.div_eq_of_lt (by omega)]
    exact Nat.div_pos (by omega) hb
  · have hless : n - min b n + b - 1 = n - 1 := by omega
    have hmore : n + b - 1 = n - 1 + b := by omega
    rw [hless, hmore, Nat.add_div_right _ hb]
    exact Nat.lt_succ_self _

namespace TurnState

variable {c : Config} {v u : TurnState}

/-- How many batches the queue comes to, and how many draws are left. -/
def steps (v : TurnState) (c : Config) : Nat :=
  (v.unread.length + c.batchSize - 1) / c.batchSize + v.remaining.toNat

/-- A pass that goes on takes a batch from the queue or uses up a draw. -/
theorem Passed.steps_lt (h : v.Passed c (.ok none) u) (hc : c.hasFiniteBudget = true)
    (hb : 0 < c.batchSize) : u.steps c < v.steps c := by
  cases h with
  | ended hr => exact absurd rfl hr
  | stepped hf hcon =>
    obtain ⟨rfl, hs, hu, -⟩ := hcon.goes_on
    cases hf with
    | spent _ _ hspent => exact absurd hspent (Bool.eq_false_iff.mp hs)
    | drawn hq _ hspent _ guided =>
      have hpos : 0 < v.remaining := by simpa [TurnState.spent, hc] using hspent
      simp only [steps, draw, ask, unread]
      omega
    | taken h =>
      have hq : v.drained = false := h.resolve_right (Bool.eq_false_iff.mp hu)
      simp only [drained, decide_eq_false_iff_not] at hq
      have hbatch : max c.batchSize 1 = c.batchSize := by omega
      have hunread : 0 < v.unread.length := by
        simp only [unread, List.length_drop]
        omega
      have hleft : (v.take (v.unread.take c.batchSize)).unread.length =
          v.unread.length - min c.batchSize v.unread.length := by
        simp only [unread, take, List.length_drop, List.length_take]
        omega
      rw [hbatch, steps, hleft]
      exact Nat.add_lt_add_right (batches_lt hunread hb) _

/-- The sampler is told of queued tokens as they are. -/
theorem filterMap_accepted_map (tokens : List Token) :
    (tokens.map (Call.accept · false)).filterMap Call.accepted? = tokens := by
  rw [List.filterMap_map]
  exact List.filterMap_some

/-- In a pass that goes on the sampler is told of a token. -/
theorem Passed.accepts (h : v.Passed c (.ok none) u) :
    (v.calls.filterMap Call.accepted?).length < (u.calls.filterMap Call.accepted?).length := by
  cases h with
  | ended hr => exact absurd rfl hr
  | stepped hf hcon =>
    obtain ⟨rfl, hs, hu, -⟩ := hcon.goes_on
    cases hf with
    | spent _ _ hspent => exact absurd hspent (Bool.eq_false_iff.mp hs)
    | drawn _ _ _ _ guided => simp [draw, ask, Call.accepted?]
    | taken h =>
      have hq : v.drained = false := h.resolve_right (Bool.eq_false_iff.mp hu)
      simp only [drained, decide_eq_false_iff_not] at hq
      simp only [take, List.filterMap_append, filterMap_accepted_map, List.length_append,
        List.length_take, unread, List.length_drop]
      omega

end TurnState

namespace Session

variable {s t : Session}

/-- The tokens that the sampler was told of are found among its calls. -/
theorem accepted_eq (s : Session) :
    s.tally.accepted = s.turnState.calls.filterMap Call.accepted? := by
  change s.engine.calls.toList.filterMap Call.accepted? =
    (s.engine.calls.toList.filter Call.onSampler).filterMap Call.accepted?
  rw [List.filterMap_filter]
  congr 1
  funext c
  cases c <;> rfl

/-- A step that is taken without ending the turn has tokens. -/
theorem pending_ne_nil_of_takeStep (h : takeStep s = .ok none t) : t.progress.pending ≠ [] := by
  intro hnil
  have htaken := (ends_takeStep_taken s).of_ok h
  rw [hnil, List.append_nil] at htaken
  have haccepted : t.tally.accepted = s.tally.accepted := congrArg Tally.accepted htaken
  have hlt := ((ends_takeStep_turnState s).of_ok h).2.accepts
  rw [← accepted_eq, ← accepted_eq, haccepted] at hlt
  exact Nat.lt_irrefl _ hlt

/-! ### Decode failures -/

/-- Failures are counted where the main context is fed, and nowhere else. -/
theorem frame_decodeFailures : QueryFrame decodeFailures where
  bench s := .const s.decodeFailures
  progress _ _ _ _ _ _ _ := rfl
  turn _ _ _ := rfl
  hands _ _ _ _ _ := rfl
  passes _ _ _ _ := rfl
  records _ _ := rfl
  resets _ := rfl

/-- Cutting the step leaves the count of failures. -/
theorem keeps_decodeFailures_cutPending (max : Nat) : Keeps decodeFailures (cutPending max) := by
  refine .bind .get fun _ => ?_
  refine .onlyIf _ ?_
  refine .bind (.modify fun _ => rfl) fun _ => ?_
  exact .bind (.modify fun _ => rfl) fun _ => frame_decodeFailures.keeps_write _

private theorem keeps_decodeFailures_accept (token : Token) (sampled : Bool) :
    Keeps decodeFailures (accept token sampled) :=
  .bind (keeps_onBench (fun _ _ => rfl) _ _) fun _ => .modify fun _ => rfl

private theorem keeps_decodeFailures_refill : Keeps decodeFailures refill := by
  have hdraws : Keeps decodeFailures drawNext := by
    refine .bind frame_decodeFailures.keeps_savePrompt fun _ => ?_
    refine .bind .get fun _ => ?_
    refine .bind (keeps_onBench (fun _ _ => rfl) _ _) fun _ => ?_
    refine .bind (keeps_decodeFailures_accept _ _) fun _ => ?_
    exact .bind (.modify fun _ => rfl) fun _ => .modify fun _ => rfl
  have hdrains : Keeps decodeFailures drainQueue := by
    refine .bind .get fun _ => ?_
    refine .bind (.modify fun _ => rfl) fun _ => ?_
    exact .forM fun _ _ => .bind (keeps_decodeFailures_accept _ _) fun _ => .modify fun _ => rfl
  refine .bind .get fun _ => ?_
  refine .ite ?_ (.bind (.modify fun _ => rfl) fun _ => hdrains)
  exact .bind (.modify fun _ => rfl) fun _ => .ite (.modify fun _ => rfl) hdraws

private theorem keeps_decodeFailures_display : Keeps decodeFailures display := by
  refine .bind .get fun _ => ?_
  refine .onlyIf _ ?_
  refine .bind (.modify fun _ => rfl) fun _ => ?_
  exact .forM fun _ _ => .bind (frame_decodeFailures.keeps_write _) fun _ => .modify fun _ => rfl

/-- Taking the next step leaves the count of failures. -/
theorem keeps_decodeFailures_takeStep : Keeps decodeFailures takeStep := by
  refine .bind (.modify fun _ => rfl) fun _ => ?_
  refine .bind keeps_decodeFailures_refill fun _ => ?_
  exact .bind keeps_decodeFailures_display fun _ => frame_decodeFailures.keeps_conclude

/-! ### Feeding a step -/

/-- How many steps in a row could not be decoded, and how many tokens are resident. -/
def failuresAndPast (s : Session) : Nat × Int := (s.decodeFailures, s.progress.past)

/-- What feeding the main context comes to: the whole step is resident, or one more step could not
be decoded, which is the last one if it is one too many. -/
theorem ends_feedMain_failuresAndPast (s : Session) :
    Ends feedMain s fun r t =>
      t.failuresAndPast = (0, s.progress.past + s.progress.pending.length) ∨
      (t.decodeFailures = s.decodeFailures + 1 ∧ s.progress.past ≤ t.progress.past ∧
        (r = .ok () → 0 < s.config.maxDecodeFailures →
          t.decodeFailures < s.config.maxDecodeFailures)) := by
  rw [ends_feedMain_iff]
  apply (Feed.ends_feed_main _ _ s.toWorkbench).mono
  rintro r b ⟨r₀, v₀, hf, rfl, hb⟩
  obtain ⟨tokens, -, -, -, hpast, -, hr⟩ := hf.decoded
  rw [flatten_pieces] at hr
  have hcount : b.progress.past = s.progress.past + tokens.length := by
    rw [← hpast, ← hb]
    rfl
  cases r₀ with
  | ok p =>
    dsimp only [Except.map]
    obtain ⟨_, _, ht⟩ := exists_logging_eq { s with toWorkbench := b, decodeFailures := 0 }
      s.progress.pending.length
    rw [hr] at hcount
    left
    rw [ht, failuresAndPast, hcount]
  | error e =>
    dsimp only [Except.map]
    obtain ⟨_, _, ht⟩ := exists_failing_eq { s with toWorkbench := b } e
    have hle : s.progress.past ≤ b.progress.past := by
      rw [hcount]
      omega
    rw [ht]
    split
    · exact .inr ⟨rfl, hle, by rintro ⟨⟩⟩
    · next h =>
      exact .inr ⟨rfl, hle, fun _ hpos => Nat.not_le.mp fun hlast => h ⟨hpos, hlast⟩⟩

/-- For a step that fits no room is made. -/
theorem ends_makeRoom_of_fits (h : s.overflows = false)
    {Q : Except SessionError Unit → Session → Prop} : Ends makeRoom s Q ↔ Q (.ok ()) s := by
  have hnone : s.window.evictions s.progress.pending.length
      ((s.guidance.map Guidance.offset).getD 0) s.progress.past = [] := by
    rw [Window.evictions]
    exact if_neg (Bool.eq_false_iff.mp h)
  simp only [makeRoom, ends_bind, ends_get, ends_discard, ends_onBench, Window.ensureRoom, hnone,
    List.mapM_nil, ends_pure]
  rfl

/-- Where the context is not to be swapped, a step that arrives has tokens, and the resident ones
stay. -/
theorem ends_arrive_unswapped (hp : s.config.predict = -2) (hmax : 0 < s.window.maxStep)
    (hne : s.progress.pending ≠ []) :
    Ends arrive s fun r t => r = .ok none → t.failuresAndPast = s.failuresAndPast ∧ t.settled =
      s.settled ∧
      t.progress.pending ≠ [] := by
  have hcut (n : Nat) (s : Session) : Ends (cutPending n) s fun _ t =>
      t.failuresAndPast = s.failuresAndPast ∧ t.settled = s.settled ∧
        t.progress.pending = s.progress.pending.take n := by
    apply ((Ends.keeps (keeps_decodeFailures_cutPending n)).and (ends_cutPending n s)).mono
    rintro r t ⟨hfailures, hsettled, hv⟩
    have hpast : t.progress.past = s.progress.past := congrArg MainContext.past hv
    exact ⟨Prod.ext hfailures hpast, hsettled, congrArg MainContext.pending hv⟩
  simp only [arrive, ends_bind, ends_get]
  apply (hcut _ s).mono
  rintro r s₁ ⟨hfailuresAndPast₁, hsettled₁, hpending₁⟩
  cases r with
  | error e => rintro ⟨⟩
  | ok _ =>
    simp only [ends_bind, ends_get, ends_ite, ends_report, ends_pure]
    split
    · rintro ⟨⟩
    · next hfull =>
      rw [config_of_settled hsettled₁, hp] at hfull
      have hfits : s₁.overflows = false := by simpa using hfull
      rw [ends_makeRoom_of_fits hfits]
      dsimp only
      split
      · rintro ⟨⟩
      · next hroom =>
        apply (hcut _ s₁).mono
        rintro r s₂ ⟨hfailuresAndPast₂, hsettled₂, hpending₂⟩
        cases r with
        | error e => rintro ⟨⟩
        | ok _ =>
          refine fun _ => ⟨hfailuresAndPast₂.trans hfailuresAndPast₁, hsettled₂.trans hsettled₁, ?_⟩
          rw [hpending₂, hpending₁]
          simp only [ne_eq, List.take_eq_nil_iff, not_or]
          exact ⟨hroom, Nat.pos_iff_ne_zero.mp hmax, hne⟩

/-- What skipping and feeding a step that has arrived comes to. -/
theorem ends_feedRest_failuresAndPast (s : Session) :
    Ends feedRest s fun r t =>
      t.failuresAndPast = (0, s.progress.past + s.progress.pending.length) ∨
      (t.decodeFailures = s.decodeFailures + 1 ∧ s.progress.past ≤ t.progress.past ∧
        (r = .ok () → 0 < s.config.maxDecodeFailures →
          t.decodeFailures < s.config.maxDecodeFailures)) := by
  simp only [feedRest, ends_bind, ends_advance]
  apply ((ends_feedGuidance _).and (Ends.keeps frame_decodeFailures.keeps_feedGuidance)).mono
  rintro r t ⟨⟨rfl, hsettled, hv⟩, hfailures⟩
  replace hv : t.mainContext = s.mainContext.reuse := hv
  have hconfig : t.config = s.config := config_of_settled hsettled
  have hpast : t.progress.past = s.mainContext.reuse.past := congrArg MainContext.past hv
  have hpending : t.progress.pending = s.mainContext.reuse.pending :=
    congrArg MainContext.pending hv
  have hle : s.progress.past ≤ t.progress.past := by
    rw [hpast]
    exact Int.le_add_of_nonneg_right (Int.natCast_nonneg _)
  apply (ends_feedMain_failuresAndPast t).mono
  intro r u hu
  rw [hconfig, hpending, hpast, MainContext.past_add_pending_reuse, ← hpast, hfailures] at hu
  rcases hu with hall | ⟨hmore, hpast', hlast⟩
  · exact .inl hall
  · exact .inr ⟨hmore, Int.le_trans hle hpast', hlast⟩

/-- What evaluating a step comes to where the context is not to be swapped and the turn goes on: a
token more is resident, or one more step could not be decoded, and it is not one too many. -/
theorem ends_evaluate_failuresAndPast (hp : s.config.predict = -2) (hmax : 0 < s.window.maxStep)
    (hne : s.progress.pending ≠ []) (hpos : 0 < s.config.maxDecodeFailures) :
    Ends evaluate s fun r t => r = .ok none →
      t.decodeFailures = 0 ∧ s.progress.past < t.progress.past ∨
      t.decodeFailures = s.decodeFailures + 1 ∧ s.progress.past ≤ t.progress.past ∧
        t.decodeFailures < s.config.maxDecodeFailures := by
  rw [evaluate_eq, ends_bind]
  apply (ends_arrive_unswapped hp hmax hne).mono
  intro r t harrives
  match r with
  | .error e => exact nofun
  | .ok (some reason) => exact nofun
  | .ok none =>
    obtain ⟨hfailuresAndPast, hsettled, hpending⟩ := harrives rfl
    obtain ⟨hfailures, hpast⟩ := Prod.mk.inj hfailuresAndPast
    simp only [ends_bind, ends_pure]
    apply (ends_feedRest_failuresAndPast t).mono
    intro r u hu
    cases r with
    | error e => exact nofun
    | ok _ =>
      rintro -
      rw [hfailures, hpast, config_of_settled hsettled] at hu
      rcases hu with hu | ⟨hmore, hle, hlast⟩
      · obtain ⟨hzero, hcount⟩ := Prod.mk.inj hu
        have hlen := List.length_pos_iff.mpr hpending
        left
        omega
      · exact .inr ⟨hmore, hle, hlast rfl hpos⟩

/-! ### The passes of a turn -/

private theorem ends_evaluatePending_of_pending (h : s.progress.pending ≠ [])
    {Q : Except SessionError (Option StopReason) → Session → Prop} :
    Ends evaluatePending s Q ↔ Ends evaluate s Q := by
  simp only [evaluatePending, ends_bind, ends_get, if_neg h]

/-- A bound on the passes of a turn that fills the context, the one that ends it apart: a token that
becomes resident outweighs all decode failures there can be without one. -/
def fillSteps (s : Session) : Nat :=
  (s.window.size - s.progress.past).toNat * (s.config.maxDecodeFailures + 1) +
    (s.config.maxDecodeFailures - s.decodeFailures) + if s.progress.pending = [] then 1 else 0

private theorem fillSteps_le (s : Session) :
    s.fillSteps ≤ (s.window.size - s.progress.past).toNat * (s.config.maxDecodeFailures + 1) +
      s.config.maxDecodeFailures + 1 := by
  unfold fillSteps
  split <;> omega

/-- A pass that goes on comes nearer to a full context. -/
theorem fillSteps_lt (hp : s.config.predict = -2) (hmax : 0 < s.window.maxStep)
    (hpos : 0 < s.config.maxDecodeFailures) (h : pass s = .ok none t)
    (hsettled : t.settled = s.settled) (hsize : t.progress.past ≤ s.window.size) :
    t.fillSteps < s.fillSteps := by
  obtain ⟨r, u, hevaluates, htakes⟩ := bind_eq_ok h
  cases r with
  | some reason =>
    obtain ⟨_, _, -, hfinishes⟩ := bind_eq_ok htakes
    cases hfinishes
  | none =>
    have hpending := pending_ne_nil_of_takeStep htakes
    have hfailures : t.decodeFailures = u.decodeFailures :=
      keeps_decodeFailures_takeStep.of_ok htakes
    have hpast : t.progress.past = u.progress.past := ((ends_takeStep u).of_ok htakes).2.past_eq
    simp only [fillSteps, config_of_settled hsettled, window_of_settled hsettled, if_neg hpending,
      hfailures, hpast]
    rw [hpast] at hsize
    -- With nothing pending the pass fills a step only, which the last term of the bound counts.
    by_cases hnone : s.progress.pending = []
    · have hidle : Ends evaluatePending s fun _ u => u = s := by
        simp only [evaluatePending, ends_bind, ends_get, if_pos hnone, ends_pure]
      rw [hidle.of_ok hevaluates, if_pos hnone]
      omega
    · have hu := (ends_evaluatePending_of_pending hnone).mpr
        (ends_evaluate_failuresAndPast hp hmax hnone hpos)
      rw [if_neg hnone]
      rcases hu.of_ok hevaluates rfl with ⟨hzero, hlt⟩ | ⟨hmore, hle, hlast⟩
      · have hless : (s.window.size - u.progress.past).toNat + 1 ≤
            (s.window.size - s.progress.past).toNat := by omega
        have hmul := Nat.mul_le_mul_right (s.config.maxDecodeFailures + 1) hless
        rw [Nat.succ_mul] at hmul
        omega
      · have hless : (s.window.size - u.progress.past).toNat ≤
            (s.window.size - s.progress.past).toNat := by omega
        have hmul := Nat.mul_le_mul_right (s.config.maxDecodeFailures + 1) hless
        omega

/-- A turn with a bounded number of draws has as many passes as there are batches queued and draws
left, and one more. -/
theorem length_turn_le_steps (hc : s.config.hasFiniteBudget = true) (hb : 0 < s.config.batchSize) :
    s.turn.length ≤ s.turnState.steps s.config + 1 := by
  have hstep (u t : Session) (hu : u.config = s.config) (hpass : pass u = .ok none t) :
      t.config = s.config ∧ t.turnState.steps s.config < u.turnState.steps s.config := by
    obtain ⟨ht, hpassed⟩ := (ends_pass_turnState u).of_ok hpass
    rw [hu] at ht hpassed
    exact ⟨ht, hpassed.steps_lt hc hb⟩
  exact length_turn_le hstep rfl

/-- A turn that may fill the context without a swap has as many passes as that takes, and one more.
-/
theorem length_turn_le_fillSteps (hk : 0 ≤ s.window.keep) (hmax : 0 < s.window.maxStep)
    (hp : s.config.predict = -2) (hpos : 0 < s.config.maxDecodeFailures)
    (hv : s.mainContext.Bounded s.window) : s.turn.length ≤ s.fillSteps + 1 := by
  have hinvariant := invariant_bounded hk (Int.le_trans hv.1 hv.2)
  have hstep (u t : Session) (hu : u.settled = s.settled ∧ u.mainContext.Bounded s.window)
      (hpass : pass u = .ok none t) :
      (t.settled = s.settled ∧ t.mainContext.Bounded s.window) ∧ t.fillSteps < u.fillSteps := by
    have ht := hinvariant.pass u hu
    rw [hpass] at ht
    refine ⟨ht, fillSteps_lt ?_ ?_ ?_ hpass (ht.1.trans hu.1.symm) ?_⟩
    · rwa [config_of_settled hu.1]
    · rwa [window_of_settled hu.1]
    · rwa [config_of_settled hu.1]
    · rw [window_of_settled hu.1]
      exact ht.2.2
  exact length_turn_le hstep ⟨rfl, hv⟩

/-- Whatever samples are to come and whatever fails, a turn ends with its last pass. With a bounded
number of draws it has no more passes than the unread part of the queue has batches and draws are
left, and one more. If it may fill the context without a swap, and decoding may fail only so often
in a row, its passes are bounded by the positions that are left and the failures for each of them.
-/
theorem turn_length_bound {now : Nat} {config : Config} {engine : Engine} {directory : Directory}
    {s : Session} {w : Workbench} (h : Session.start now config engine directory = .ok s w)
    (requests : List Request) (room : Option Nat) :
    (∃ u, ((s.serveAll requests).showing room).turn.getLast? = some u ∧
      (∀ t, pass u ≠ .ok none t) ∧
      left (answer ((s.serveAll requests).showing room)) = left (pass u)) ∧
    (0 ≤ config.predict →
      ((s.serveAll requests).showing room).turn.length ≤
        ((s.serveAll requests).progress.unread.length + config.batchSize - 1) / config.batchSize +
          (max 0 (s.serveAll requests).progress.remaining).toNat + 1) ∧
    (config.predict = -2 → 0 < config.maxDecodeFailures →
      ((s.serveAll requests).showing room).turn.length ≤
        (engine.contextSize - (s.serveAll requests).progress.past).toNat *
          (config.maxDecodeFailures + 1) + config.maxDecodeFailures + 2) := by
  have hbegun := start_eq_ok h
  have hall : s.AllAllowed (fun _ _ => True) requests := allAllowed_true s requests
  have hinvariant := invariant_bounded hbegun.keep hbegun.size_nonneg
  obtain ⟨hsettled, hbounded⟩ :=
    hinvariant.showing _ room (hinvariant.serveAll ⟨rfl, hbegun.bounded⟩ hall)
  have hconfig := config_of_settled hsettled
  have hwindow := window_of_settled hsettled
  rw [← hwindow] at hbounded
  refine ⟨left_answer _, ?_, ?_⟩
  · intro hp
    have hfinite : s.config.hasFiniteBudget = true := by
      rw [Config.hasFiniteBudget, hbegun.predict]
      exact decide_eq_true hp
    have hbatch := hbegun.batchSize_pos
    rw [← hbegun.batchSize] at hbatch ⊢
    rw [← hconfig] at hfinite hbatch
    have hlength := length_turn_le_steps hfinite hbatch
    rw [hconfig] at hlength
    have hremaining : (max 0 (s.serveAll requests).progress.remaining).toNat =
        (s.serveAll requests).progress.remaining.toNat := by omega
    rw [hremaining]
    exact hlength
  · intro hp hpos
    have hkeep := hbegun.keep
    have hmax := Nat.lt_of_lt_of_le (List.length_pos_iff.mpr hbegun.queue_ne_nil) hbegun.queue_le
    rw [← hbegun.predict, ← hconfig] at hp
    rw [← hbegun.maxDecodeFailures, ← hconfig] at hpos
    rw [← hwindow] at hkeep hmax
    have hlength := length_turn_le_fillSteps hkeep hmax hp hpos hbounded
    have hle := fillSteps_le ((s.serveAll requests).showing room)
    rw [hwindow, hconfig, hbegun.maxDecodeFailures] at hle
    have hsize : s.window.size ≤ engine.contextSize := by
      rw [hbegun.size]
      exact Number.signedWord_le _
    have hless : (s.window.size - (s.serveAll requests).progress.past).toNat ≤
        (engine.contextSize - (s.serveAll requests).progress.past).toNat := by omega
    have hmul := Nat.mul_le_mul_right (config.maxDecodeFailures + 1) hless
    have hpast : ((s.serveAll requests).showing room).progress.past =
        (s.serveAll requests).progress.past := rfl
    rw [hpast] at hle
    omega

/-- A prompt in batches and a budget bound one turn, and a window that fills bounds another, with
failures in between. -/
theorem turn_length_bound_of_filled_context :
    (∃ s w, Session.start 0 { prompt := "abc", predict := 3, batchSize := 2 }
        { contextSize := 16, script := Token.ofText "defghijkl" } {} = .ok s w ∧
      (s.serveAll []).progress.unread.length = 3 ∧
      ((s.serveAll []).showing none).turn.length = 5 ∧
      ((s.serveAll []).showing none).turn.length ≤
        ((s.serveAll []).progress.unread.length + 2 - 1) / 2 +
          (max 0 (s.serveAll []).progress.remaining).toNat + 1) ∧
    ∃ s w, Session.start 0 { prompt := "ab", predict := -2, maxDecodeFailures := 2 }
        { contextSize := 8
          script := Token.ofText "defghijklmnopqrstuv"
          faults := { decodeMain :=
            [true, false, true, false, true, false, true, false, true, false, true, false, true] } }
        {} = .ok s w ∧
      ((s.serveAll []).showing none).turn.length = 17 ∧
      ((s.serveAll []).showing none).turn.length ≤
        (8 - (s.serveAll []).progress.past).toNat * 3 + 4 := by
  obtain ⟨s, w, h, htest⟩ := exists_of_gives
    (fun s => (s.serveAll []).progress.unread.length == 3 &&
      ((s.serveAll []).showing none).turn.length == 5)
    (r := Session.start 0 { prompt := "abc", predict := 3, batchSize := 2 }
      { contextSize := 16, script := Token.ofText "defghijkl" } {}) (by decide +kernel)
  obtain ⟨s', w', h', htest'⟩ := exists_of_gives
    (fun s => ((s.serveAll []).showing none).turn.length == 17)
    (r := Session.start 0 { prompt := "ab", predict := -2, maxDecodeFailures := 2 }
      { contextSize := 8
        script := Token.ofText "defghijklmnopqrstuv"
        faults := { decodeMain :=
          [true, false, true, false, true, false, true, false, true, false, true, false, true] } }
      {}) (by decide +kernel)
  simp only [Bool.and_eq_true, beq_iff_eq] at htest htest'
  exact ⟨⟨s, w, h, htest.1, htest.2, (turn_length_bound h [] none).2.1 (by decide)⟩,
    ⟨s', w', h', htest', (turn_length_bound h' [] none).2.2 rfl (by decide)⟩⟩

end Session

end Dialogue
