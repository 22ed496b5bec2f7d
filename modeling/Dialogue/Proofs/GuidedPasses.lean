import Dialogue.Proofs.GuidanceBeginning
import Dialogue.Proofs.GuidanceSteps
import Dialogue.Proofs.Residents
import Dialogue.Proofs.Turns
import Dialogue.Proofs.Unmoved
import Dialogue.Proofs.WindowBound
/-!
# Passes with guidance

What a pass makes of both contexts of a session with guidance. Room is made in both by the same
number of tokens, and then both are fed: the main context what is pending, and the guidance context
that or, as long as the negative prompt is not resident, the negative prompt in place of the first
tokens. What the guidance context is fed first is settled by the first step that is fed, which is
noted.
-/

namespace Dialogue

open Effect

/-- The guidance context with its counter moved by some positions. -/
def GuidanceContext.movedBy (c : GuidanceContext) (n : Int) : GuidanceContext :=
  { c with past := c.past + n }

/-- The guidance context when the dialogue begins anew. -/
def GuidanceContext.restarted (c : GuidanceContext) : GuidanceContext :=
  { c with past := 0, ready := false }

/-! ### Making room -/

/-- What making room and cutting the step can make of the main context. -/
structure MainContext.MadeRoom (w : Window) (v u : MainContext) : Prop where
  /-- Some tokens are left to an eviction. -/
  past : u.past = v.past ∨ w.keep + 2 ≤ u.past ∧ u.past ≤ v.past
  /-- Only an eviction changes the cells, and it moves some. -/
  unmoved : u.moves ≤ v.moves → u.past = v.past ∧ u.cells = v.cells
  /-- Moves are counted. -/
  moves : v.moves ≤ u.moves
  /-- The step is cut at its end. -/
  pending : u.pending <+: v.pending
  /-- The log stays. -/
  logged : u.logged = v.logged
  /-- What was compared of the log stays. -/
  loggedRead : u.loggedRead = v.loggedRead
  /-- No session file comes into use. -/
  path : u.path = none ∨ u.path = v.path
  /-- The failures to come of decode calls stay. -/
  decodeFaults : u.decodeFaults = v.decodeFaults

variable {w : Window} {offset : Int} {n : Nat} {v u t : MainContext}

namespace MainContext

private theorem MadeRoom.refl (w : Window) (v : MainContext) : v.MadeRoom w v :=
  ⟨.inl rfl, fun _ => ⟨rfl, rfl⟩, Nat.le_refl _, List.prefix_rfl, rfl, rfl, .inr rfl, rfl⟩

private theorem MadeRoom.trans (h : v.MadeRoom w u) (h' : u.MadeRoom w t) : v.MadeRoom w t where
  past := by
    have hp := h.past
    have hp' := h'.past
    omega
  unmoved hm := by
    have hle := h.moves
    have hle' := h'.moves
    obtain ⟨hp, hc⟩ := h.unmoved (by omega)
    obtain ⟨hp', hc'⟩ := h'.unmoved (by omega)
    exact ⟨hp'.trans hp, hc'.trans hc⟩
  moves := Nat.le_trans h.moves h'.moves
  pending := h'.pending.trans h.pending
  logged := h'.logged.trans h.logged
  loggedRead := h'.loggedRead.trans h.loggedRead
  path := h'.path.elim .inl fun hp => hp ▸ h.path
  decodeFaults := h'.decodeFaults.trans h.decodeFaults

private theorem MadeRoom.cut (h : v.MadeRoom w u) (n : Nat) : v.MadeRoom w (u.cut n) :=
  { h with pending := (List.take_prefix _ _).trans h.pending }

end MainContext

private theorem Swap.madeRoom (h : Swap w v u) : v.MadeRoom w u := by
  have hmoves := h.onward.moves
  have hpath := h.onward.path
  have hunmoved (hm : u.moves ≤ v.moves) : u.past = v.past ∧ u.cells = v.cells := by
    obtain ⟨_, _, _, _, _, _, rfl, -⟩ := h.alike hm
    exact ⟨rfl, rfl⟩
  cases h with
  | idle => exact ⟨.inl rfl, hunmoved, hmoves, List.prefix_rfl, rfl, rfl, hpath, rfl⟩
  | unremoved => exact ⟨.inl rfl, hunmoved, hmoves, List.prefix_rfl, rfl, rfl, hpath, rfl⟩
  | unmoved => exact ⟨.inl rfl, hunmoved, hmoves, List.prefix_rfl, rfl, rfl, hpath, rfl⟩
  | evicted hd =>
    refine ⟨.inr ?_, hunmoved, hmoves, List.prefix_rfl, rfl, rfl, hpath, rfl⟩
    obtain ⟨he, heq⟩ := Window.discard_eq hd
    unfold Window.evictable Window.pinned at he heq
    dsimp only
    omega

private theorem Swaps.madeRoom (h : Swaps w v u) : v.MadeRoom w u := by
  induction h with
  | refl => exact .refl w v
  | tail _ hs ih => exact ih.trans hs.madeRoom

/-- Room is made before a step is fed. -/
theorem Arrived.madeRoom {r : Except SessionError (Option StopReason)}
    (h : Arrived w offset v r u) : v.MadeRoom w u := by
  have hcut := (MainContext.MadeRoom.refl w v).cut w.maxStep
  cases h with
  | stopped h => exact hcut.trans h.madeRoom
  | ready h _ _ => exact (hcut.trans h.madeRoom).cut _

/-- Only an eviction moves the counters when room is made. -/
theorem MainContext.MadeRoom.movedBy_eq (h : v.MadeRoom w u) (hm : u.moves ≤ v.moves)
    (c : GuidanceContext) : c.movedBy (u.past - v.past) = c := by
  rw [(h.unmoved hm).1, GuidanceContext.movedBy, Int.sub_self, Int.add_zero]

/-! ### Feeding without failures -/

/-- Batches are decoded one after the other if no decode call is to fail. -/
theorem Fed.of_faultless {l : List (List Token)} {p : Int} {m : Nat} {v u : MainContext}
    {r : Except DecodeError Int} (h : Fed l p m v r u) (hv : ∀ b ∈ v.decodeFaults, b = false) :
    (∃ q, r = .ok q) ∧ u.calls = v.calls ++ Feed.calls .main p l ∧
      ∀ b ∈ u.decodeFaults, b = false := by
  induction h with
  | done => exact ⟨⟨_, rfl⟩, (List.append_nil _).symm, hv⟩
  | failed h => exact absurd h (Bool.eq_false_iff.mp (headD_of_all_false hv))
  | next _ _ ih =>
    obtain ⟨hr, hcalls, hfaults⟩ := ih fun b hb => hv b (List.mem_of_mem_tail hb)
    refine ⟨hr, ?_, hfaults⟩
    rw [hcalls, List.append_assoc]
    rfl

/-- The whole step is decoded if no decode call is to fail. -/
theorem FedStep.of_faultless (h : FedStep n v u) (hv : ∀ b ∈ v.decodeFaults, b = false) :
    Decoded v v.pending.length u ∧
      u.calls = v.calls ++ Feed.calls .main v.past (pieces n v.pending) ∧
      ∀ b ∈ u.decodeFaults, b = false := by
  cases h with
  | @whole p u h =>
    obtain ⟨-, hcalls, hfaults⟩ := h.of_faultless hv
    refine ⟨h.decoded_log rfl, ?_, ?_⟩
    · rw [MainContext.calls_log]
      exact hcalls
    · unfold MainContext.log
      split <;> exact hfaults
  | partly h =>
    obtain ⟨_, hr⟩ := (h.of_faultless hv).1
    cases hr
  | givenUp h =>
    obtain ⟨_, hr⟩ := (h.of_faultless hv).1
    cases hr

namespace MainContext

/-- How many of the logged tokens were not compared yet. -/
def uncompared (v : MainContext) : Nat := v.logged.length - v.loggedRead

/-- What is skipped was not compared before. -/
theorem uncompared_reuse (v : MainContext) :
    v.reuse.past + v.reuse.uncompared ≤ v.past + v.uncompared := by
  have hle := commonLength_le_left (v.logged.drop v.loggedRead) v.pending
  rw [List.length_drop] at hle
  simp only [reuse, uncompared]
  split
  · rw [List.length_take]
    omega
  · omega

/-- Making room compares nothing. -/
theorem MadeRoom.uncompared_eq (h : v.MadeRoom w u) : u.uncompared = v.uncompared := by
  rw [uncompared, h.logged, h.loggedRead, uncompared]

end MainContext

/-- What is not compared yet does not get more when a step is fed. -/
theorem Decoded.uncompared_le {m : Nat} (h : Decoded v m u) : u.uncompared ≤ v.uncompared := by
  have hl := h.logged
  have hr := h.loggedRead
  unfold MainContext.uncompared
  split at hr
  · omega
  · next hn =>
    rw [if_neg hn] at hl
    exact Nat.le_of_eq (by rw [hl, hr])

/-- A sound step of guidance decodes what it is fed. -/
theorem GuidanceStepped.of_sound {tokens : List Token} {c d : GuidanceContext}
    (h : GuidanceStepped n tokens c d)
    (hc : c.Sound) : d.Sound ∧ d.past = c.past + tokens.length ∧
      c.cells.Extends c.past tokens d.cells ∧
      d.calls = c.calls ++ Feed.calls .guidance c.past (pieces n tokens) := by
  obtain ⟨tried, done, hfed, htried, hpast, hdone⟩ := h
  obtain rfl := hdone hc
  obtain rfl := htried.eq_of_length_le hfed.prefix_tried.length_le
  have hcells := hfed.cells
  rw [flatten_pieces] at hpast hcells
  exact ⟨hfed.sound hc, hpast, hcells, hfed.calls⟩

/-! ### Evaluating -/

/-- Whether guidance is given up makes no difference to what was fed. -/
theorem GuidanceStepped.unready {tokens : List Token} {c d : GuidanceContext}
    (h : GuidanceStepped n tokens c d) : GuidanceStepped n tokens c { d with ready := false } := by
  obtain ⟨tried, done, hfed, htried, hpast, hsound⟩ := h
  exact ⟨tried, done, ⟨hfed.prefix_tried, hfed.cells, hfed.calls, hfed.faults, hfed.present⟩,
    htried, hpast, hsound⟩

/-- What decides what the guidance context is fed first. -/
structure FirstStep where
  /-- How many tokens the step has. -/
  size : Nat
  /-- How many of the logged tokens were not compared before it. -/
  uncompared : Nat
deriving DecidableEq

/-- What an evaluation can make of both contexts of a session with guidance; the step is given if it
is fed. -/
inductive EvaluatedBoth (w : Window) (g : Guidance) (n : Nat) (v : MainContext)
    (c : GuidanceContext) : Option FirstStep → MainContext → GuidanceContext → Prop
  /-- There is nothing to be evaluated. -/
  | idle (h : v.pending = []) : EvaluatedBoth w g n v c none v c
  /-- The step cannot be fed. -/
  | stopped {r : Except SessionError (Option StopReason)} {u : MainContext}
      (h : Arrived w g.offset v r u) : EvaluatedBoth w g n v c none u (c.movedBy (u.past - v.past))
  /-- The step is fed. -/
  | fed {u u' : MainContext} {d : GuidanceContext} (h : Arrived w g.offset v (.ok none) u)
      (hc : GuidanceStepped n (g.nextInput (c.movedBy (u.past - v.past)).past u.reuse.pending)
        (c.movedBy (u.past - v.past)) d)
      (hf : FedStep n u.reuse u') :
      EvaluatedBoth w g n v c (some ⟨u.pending.length, u.uncompared⟩) u' d

/-- What making room for a step and feeding it comes to, if no call that decodes into the main
context is to fail: `t` is the main context when the step arrives. -/
structure FedBoth (w : Window) (g : Guidance) (n : Nat) (v : MainContext) (c : GuidanceContext)
    (t u : MainContext) (d : GuidanceContext) : Prop where
  /-- Room was made, and the step was cut. -/
  madeRoom : v.MadeRoom w t
  /-- The step fits then. -/
  fits : 0 ≤ w.keep → v.Bounded w → t.Fits (w.size - max 0 g.offset)
  /-- What is not skipped of the step is fed to the guidance context. -/
  guidance : GuidanceStepped n (g.nextInput (c.movedBy (t.past - v.past)).past t.reuse.pending)
    (c.movedBy (t.past - v.past)) d
  /-- What is not skipped of the step is decoded into the main context. -/
  main : Decoded t.reuse t.reuse.pending.length u
  /-- The calls that decode into the main context. -/
  calls : ∃ calls, u.calls = v.calls ++ calls ∧
    calls.filter Call.decodesMain = Feed.calls .main t.reuse.past (pieces n t.reuse.pending)
  /-- No call that decodes into the main context is to fail. -/
  faultless : ∀ b ∈ u.decodeFaults, b = false

private theorem Feed.filter_calls_main (p : Int) (l : List (List Token)) :
    (Feed.calls .main p l).filter Call.decodesMain = Feed.calls .main p l := by
  induction l generalizing p with
  | nil => rfl
  | cons b l ih => exact congrArg _ (ih _)

/-- If no call that decodes into the main context is to fail, room is made at most, or the whole
step is fed. -/
theorem EvaluatedBoth.of_faultless {g : Guidance} {c d : GuidanceContext}
    {step? : Option FirstStep} (h : EvaluatedBoth w g n v c step? u d)
    (hv : ∀ b ∈ v.decodeFaults, b = false) :
    (step? = none ∧ v.MadeRoom w u ∧ d = c.movedBy (u.past - v.past) ∧
      ∃ calls, u.calls = v.calls ++ calls ∧ calls.filter Call.decodesMain = []) ∨
    ∃ t, step? = some ⟨t.pending.length, t.uncompared⟩ ∧ FedBoth w g n v c t u d := by
  cases h with
  | idle =>
    refine .inl ⟨rfl, .refl w v, ?_, [], (List.append_nil _).symm, rfl⟩
    rw [GuidanceContext.movedBy, Int.sub_self, Int.add_zero]
  | stopped h => exact .inl ⟨rfl, h.madeRoom, rfl, h.calls_eq⟩
  | @fed t _ _ h hc hf =>
    have hmade := h.madeRoom
    obtain ⟨before, hbefore, hnone⟩ := h.calls_eq
    rw [← hmade.decodeFaults] at hv
    obtain ⟨hdecoded, hcalls, hfaults⟩ := hf.of_faultless hv
    refine .inr ⟨t, rfl, hmade, fun hk hv => h.fits hk hv, hc, hdecoded,
      ⟨before ++ Feed.calls .main t.reuse.past (pieces n t.reuse.pending), ?_, ?_⟩, hfaults⟩
    · rw [hcalls, ← List.append_assoc, ← hbefore]
      rfl
    · rw [List.filter_append, hnone, Feed.filter_calls_main, List.nil_append]

/-- Moves are counted. -/
theorem EvaluatedBoth.moves_le {g : Guidance} {c d : GuidanceContext} {step? : Option FirstStep}
    (h : EvaluatedBoth w g n v c step? u d) : v.moves ≤ u.moves := by
  cases h with
  | idle => exact Nat.le_refl _
  | stopped h => exact h.madeRoom.moves
  | fed h _ hf =>
    rw [hf.moves_eq]
    exact h.madeRoom.moves

/-! ### The beginning -/

/-- What holds as long as no call that decodes into the main context fails: nothing is resident
until the first step is fed. -/
structure Opening (first : Option FirstStep) (v : MainContext) (c : GuidanceContext) : Prop where
  /-- No call that decodes into the main context is to fail. -/
  faultless : ∀ b ∈ v.decodeFaults, b = false
  /-- Nothing is resident before the first step is fed. -/
  fresh : first = none → v.past = 0 ∧ c.past = 0

/-- Room is made in both contexts. -/
theorem Opening.madeRoom {first : Option FirstStep} {c : GuidanceContext} (h : Opening first v c)
    (hk : 0 ≤ w.keep) (hm : v.MadeRoom w u) : Opening first u (c.movedBy (u.past - v.past)) where
  faultless := by
    rw [hm.decodeFaults]
    exact h.faultless
  fresh hnone := by
    obtain ⟨hv, hc⟩ := h.fresh hnone
    have hu : u.past = 0 := by
      have hp := hm.past
      omega
    refine ⟨hu, ?_⟩
    simp only [GuidanceContext.movedBy]
    omega

/-- An evaluation without failures of the main context. -/
theorem Opening.evaluated {g : Guidance} {first step? : Option FirstStep} {c d : GuidanceContext}
    (h : Opening first v c) (hk : 0 ≤ w.keep) (he : EvaluatedBoth w g n v c step? u d) :
    Opening (first.or step?) u d := by
  rcases he.of_faultless h.faultless with ⟨rfl, hm, rfl, -⟩ | ⟨t, rfl, hfed⟩
  · rw [Option.or_none]
    exact h.madeRoom hk hm
  · refine ⟨hfed.faultless, ?_⟩
    cases first <;> exact nofun

/-- A session that begins. -/
theorem Session.opening_of_start {now : Nat} {config : Config} {engine : Engine}
    {directory : Directory} {s : Session} {w : Workbench}
    (h : Session.start now config engine directory = .ok s w)
    (hmain : ∀ b ∈ engine.faults.decodeMain, b = false) :
    Opening none s.mainContext s.guidanceContext := by
  have hbegun := start_eq_ok h
  refine ⟨?_, fun _ => ⟨hbegun.past_eq, ?_⟩⟩
  · rw [hbegun.decodeFaults_eq]
    exact hmain
  · rw [(guidanceContext_of_start h).1]

/-- A dialogue that begins anew. -/
theorem Opening.restarted {first : Option FirstStep} {c : GuidanceContext} (h : Opening first v c) :
    Opening none v.restarted c.restarted := ⟨h.faultless, fun _ => ⟨rfl, rfl⟩⟩

/-- No call that decodes into the guidance context of a session that begins is to fail if none of
those of the engine is. -/
theorem Session.sound_of_start {now : Nat} {config : Config} {engine : Engine}
    {directory : Directory} {s : Session} {w : Workbench} {g : Guidance}
    (h : Session.start now config engine directory = .ok s w) (hg : s.guidance = some g)
    (hguidance : ∀ b ∈ engine.faults.decodeGuidance, b = false) : s.guidanceContext.Sound := by
  obtain ⟨hcontext, hpresent⟩ := guidanceContext_of_start h
  rw [hcontext]
  exact ⟨hpresent (by simp [hg]), hguidance⟩

/-- Taking the next step changes the step, the queue and the session file only. -/
theorem Stepped.exists_eq (h : Stepped n v u) : ∃ pending queue queueRead path directory,
    u = { v with pending, queue, queueRead, path, directory } ∧ (path = none ∨ path = v.path) := by
  obtain ⟨t, pending, queue, queueRead, hs, -, rfl⟩ := h.exists_saved
  cases hs with
  | kept => exact ⟨pending, queue, queueRead, v.path, v.directory, rfl, .inr rfl⟩
  | @written _ directory _ _ => exact ⟨pending, queue, queueRead, v.path, directory, rfl, .inr rfl⟩
  | failed => exact ⟨pending, queue, queueRead, none, v.directory, rfl, .inl rfl⟩

/-- A query changes the queue only. -/
theorem Queried.exists_eq {passes : Prop} (h : Queried passes v u) :
    ∃ queue queueRead, u = { v with queue, queueRead } := by
  cases h with
  | queued tokens => exact ⟨_, _, rfl⟩
  | passedOver _ before after => exact ⟨_, _, rfl⟩

namespace Session

/-- The step that a pass feeds, if it feeds one. -/
def fedStep? (s : Session) : Option FirstStep :=
  if s.progress.pending = [] then none
  else
    match arrive s with
    | .ok none u => some ⟨u.mainContext.pending.length, u.mainContext.uncompared⟩
    | _ => none

/-- The first step that was fed, if there was one, after a pass. -/
def noteFirst (first : Option FirstStep) (s : Session) : Option FirstStep := first.or s.fedStep?

variable {s : Session} {g : Guidance}

private theorem offset_of_guidance (h : s.guidance = some g) : s.offset = g.offset := by
  rw [offset, h, Option.map_some, Option.getD_some]

/-- What making room for a step makes of both contexts. -/
theorem ends_arrive_both (hg : s.guidance = some g) :
    Ends arrive s fun r t => t.settled = s.settled ∧
      Arrived s.window g.offset s.mainContext r t.mainContext ∧
      t.guidanceContext =
        s.guidanceContext.movedBy (t.mainContext.past - s.mainContext.past) := by
  apply ((ends_arrive s).and (ends_arrive_relativeGuidance s)).mono
  rintro r t ⟨⟨hs, ha⟩, -, hcontext, hlag⟩
  rw [offset_of_guidance hg] at ha
  refine ⟨hs, ha, hcontext.trans ?_⟩
  have hlag := hlag (by rw [hg]; rfl)
  have hpast : t.progress.guidancePast =
      s.progress.guidancePast + (t.progress.past - s.progress.past) := by omega
  rw [hpast]
  rfl

/-- What skipping and feeding a step makes of both contexts. -/
theorem ends_feedRest_both (hg : s.guidance = some g) :
    Ends feedRest s fun _ t =>
      GuidanceStepped s.config.batchSize
        (g.nextInput s.guidanceContext.past s.mainContext.reuse.pending) s.guidanceContext
        t.guidanceContext ∧
      FedStep s.config.batchSize s.mainContext.reuse t.mainContext := by
  apply ((ends_feedRest s).and (ends_feedRest_taken s)).mono
  rintro r t ⟨⟨-, hf⟩, -, c, htaken, -, hr⟩
  have htaken : GuidanceStepped s.config.batchSize
      (g.nextInput s.guidanceContext.past s.mainContext.reuse.pending) s.guidanceContext c := by
    have hguidance : s.reusing.guidance = some g := hg
    rw [GuidanceTaken, hguidance] at htaken
    exact htaken
  rcases hr with ⟨-, rfl⟩ | ⟨-, hr⟩
  · exact ⟨htaken, hf⟩
  · rw [hr]
    exact ⟨htaken.unready, hf⟩

/-- What evaluating the pending tokens makes of both contexts. -/
theorem ends_evaluatePending_both (hg : s.guidance = some g) :
    Ends evaluatePending s fun _ t => EvaluatedBoth s.window g s.config.batchSize s.mainContext
      s.guidanceContext s.fedStep? t.mainContext t.guidanceContext := by
  have harrive := ends_arrive_both hg
  by_cases hne : s.progress.pending = []
  · simp only [evaluatePending, ends_bind, ends_get, if_pos hne, ends_pure, fedStep?]
    exact .idle hne
  · have hnone : Ends arrive s fun r _ => r ≠ .ok none → s.fedStep? = none := by
      unfold Ends fedStep?
      rw [if_neg hne]
      cases arrive s with
      | error e t => exact fun _ => rfl
      | ok stop t =>
        cases stop with
        | none => exact fun h => absurd rfl h
        | some reason => exact fun _ => rfl
    have hstops : Ends arrive s fun r t => r ≠ .ok none →
        EvaluatedBoth s.window g s.config.batchSize s.mainContext s.guidanceContext s.fedStep?
          t.mainContext t.guidanceContext := by
      apply (harrive.and hnone).mono
      rintro r t ⟨⟨-, ha, hcontext⟩, hnone⟩ hr
      rw [hnone hr, hcontext]
      exact .stopped ha
    apply ends_evaluatePending_of (fun hnil => absurd hnil hne) hstops
    intro u hu
    obtain ⟨hs, ha, hcontext⟩ := harrive.of_ok hu
    have hstep : s.fedStep? =
        some ⟨u.mainContext.pending.length, u.mainContext.uncompared⟩ := by
      rw [fedStep?, if_neg hne, hu]
    apply (ends_feedRest_both ((guidance_of_settled hs).trans hg)).mono
    rintro r t ⟨hguidance, hmain⟩
    rw [config_of_settled hs] at hguidance hmain
    rw [hcontext] at hguidance
    rw [hstep]
    exact .fed ha hguidance hmain

/-- What a pass makes of both contexts: the next step may be taken after an evaluation. -/
theorem pass_both (hg : s.guidance = some g) : ∃ v,
    EvaluatedBoth s.window g s.config.batchSize s.mainContext s.guidanceContext s.fedStep? v
        (left (pass s)).guidanceContext ∧
      ((left (pass s)).mainContext = v ∨ ∃ n, Stepped n v (left (pass s)).mainContext) := by
  apply Ends.left (P := fun t : Session => ∃ v,
    EvaluatedBoth s.window g s.config.batchSize s.mainContext s.guidanceContext s.fedStep? v
      t.guidanceContext ∧ (t.mainContext = v ∨ ∃ n, Stepped n v t.mainContext))
  rw [pass, ends_bind]
  apply (ends_evaluatePending_both hg).mono
  intro r t ht
  cases r with
  | error e => exact ⟨_, ht, .inl rfl⟩
  | ok stop =>
    cases stop with
    | some reason =>
      simp only [ends_bind, ends_pure]
      apply ((Ends.keeps (keeps_settledAndMain_finish _ _)).and
        (Ends.keeps (inStep_finish _ _).keeps_left)).mono
      rintro r u ⟨hs, ha⟩
      rw [← (guidanceView_eq ha).2.1, ← (settledAndMain_eq hs).2] at ht
      cases r <;> exact ⟨_, ht, .inl rfl⟩
    | none =>
      apply ((ends_takeStep t).and (Ends.keeps inStep_takeStep.keeps_left)).mono
      rintro r u ⟨⟨-, hv⟩, hc⟩
      rw [← hc] at ht
      exact ⟨_, ht, .inr ⟨_, hv⟩⟩

/-- The calls of a pass that decode into the guidance context. -/
def passGuidance (s : Session) : List Call :=
  (left (pass s)).engine.guidanceCalls.drop s.engine.guidanceCalls.length

/-- The calls that a pass adds are those it makes. -/
theorem passGuidance_of_eq_append {calls : List Call}
    (h : (left (pass s)).guidanceContext.calls = s.guidanceContext.calls ++ calls) :
    s.passGuidance = calls := by
  change (left (pass s)).engine.guidanceCalls = s.engine.guidanceCalls ++ calls at h
  rw [passGuidance, h, List.drop_left]

/-- What is preserved of both contexts and the size of the first step is preserved with what is
settled. -/
theorem notedInvariant_of_both {s₀ : Session} (hg : s₀.guidance = some g)
    {allowed : Request → Prop} {P : Option FirstStep → MainContext → GuidanceContext → Prop}
    (hevaluated : ∀ first v c step? u d, P first v c →
      EvaluatedBoth s₀.window g s₀.config.batchSize v c step? u d → P (first.or step?) u d)
    (hstepped : ∀ first v c pending queue queueRead path directory, P first v c →
      path = none ∨ path = v.path →
      P first { v with pending, queue, queueRead, path, directory } c)
    (hreset : allowed .reset → ∀ first v c, P first v c →
      P none v.restarted c.restarted) :
    NotedInvariant noteFirst (fun _ => none) allowed fun first s =>
      s.settled = s₀.settled ∧ P first s.mainContext s.guidanceContext where
  showing _ _ _ h := h
  pass := by
    rintro first s ⟨hs, hP⟩
    have hguidance : s.guidance = some g := (guidance_of_settled hs).trans hg
    obtain ⟨v, hv, hu⟩ := pass_both hguidance
    rw [config_of_settled hs, window_of_settled hs] at hv
    have hP' := hevaluated _ _ _ _ _ _ hP hv
    refine ⟨((ends_pass s).mono fun _ _ h => h.1).left.trans hs, ?_⟩
    rcases hu with heq | ⟨n, hstep⟩
    · rw [heq]
      exact hP'
    · obtain ⟨_, _, _, _, _, hu, hpath⟩ := hstep.exists_eq
      rw [hu]
      exact hstepped _ _ _ _ _ _ _ _ hP' hpath
  query := by
    rintro first s text room ⟨hs, hP⟩
    obtain ⟨hsettled, hqueries⟩ := (ends_query text (s.showing room)).left
    obtain ⟨-, hcontext, -⟩ := guidanceView_eq ((inStep_query text).keeps_left (s.showing room))
    obtain ⟨_, _, hu⟩ := hqueries.exists_eq
    rw [hcontext, hu]
    exact ⟨hsettled.trans hs, hstepped _ _ _ _ _ _ _ _ hP (.inr rfl)⟩
  reset hr first s h := ⟨h.1, hreset hr first s.mainContext s.guidanceContext h.2⟩

end Session

end Dialogue
