import Dialogue.Proofs.Decoded
import Dialogue.Proofs.SessionsInStep
/-!
# Steps of guidance

What a step of guidance makes of the guidance context: of what it is to be fed some batches are
decoded behind the resident tokens, all of them unless a call fails. Feeding the main context does
no more to it than to give guidance up with the turn.
-/

namespace Dialogue

open Effect Workbench

/-- The calls that decode batches, one placed behind the other from a position on. -/
def Feed.calls (stream : Stream) : Int → List (List Token) → List Call
  | _, [] => []
  | p, b :: l => .decode stream b p :: calls stream (p + b.length) l

/-- Whether no call that decodes into the guidance context is to fail. -/
def GuidanceContext.Sound (v : GuidanceContext) : Prop :=
  v.present = true ∧ ∀ b ∈ v.faults, b = false

/-- What decoding batches makes of the guidance context, from a position on: of those that are tried
all are decoded but perhaps the last. -/
structure GuidanceFed (p : Int) (tried done : List (List Token)) (v u : GuidanceContext) :
    Prop where
  /-- Those decoded were tried. -/
  prefix_tried : done <+: tried
  /-- The cells hold them. -/
  cells : v.cells.Extends p done.flatten u.cells
  /-- The calls. -/
  calls : u.calls = v.calls ++ Feed.calls .guidance p tried
  /-- The failures to come are some of those that were to come. -/
  faults : u.faults <:+ v.faults
  /-- The engine keeps its contexts. -/
  present : u.present = v.present

/-- No failures are to come after a feed if none were before it. -/
theorem GuidanceFed.sound {p : Int} {tried done : List (List Token)} {v u : GuidanceContext}
    (h : GuidanceFed p tried done v u) (hv : v.Sound) : u.Sound :=
  ⟨h.present.trans hv.1, fun b hb => hv.2 b (h.faults.subset hb)⟩

private theorem GuidanceFed.nil (p : Int) (v : GuidanceContext) : GuidanceFed p [] [] v v :=
  ⟨List.prefix_rfl, .refl _ _, (List.append_nil _).symm, List.suffix_rfl, rfl⟩

/-- Batches after one that was decoded. -/
theorem GuidanceFed.cons {p : Int} {b : List Token} {tried done : List (List Token)}
    {v u t : GuidanceContext} (h : GuidanceFed p [b] [b] v u)
    (h' : GuidanceFed (p + b.length) tried done u t) :
    GuidanceFed p (b :: tried) (b :: done) v t where
  prefix_tried := List.cons_prefix_cons.mpr ⟨rfl, h'.prefix_tried⟩
  cells := by
    have hb := h.cells
    rw [List.flatten_singleton] at hb
    exact hb.append h'.cells
  calls := by
    rw [h'.calls, h.calls, List.append_assoc]
    rfl
  faults := h'.faults.trans h.faults
  present := h'.present.trans h.present

namespace Engine

variable {e : Engine} {tokens : List Token} {start : Int}

private theorem guidanceCalls_push {c : Call} (h : c.onGuidance = true) (calls : Array Call) :
    (calls.push c).toList.filter Call.onGuidance = calls.toList.filter Call.onGuidance ++ [c] := by
  simp [h]

/-- A decode call on the guidance context. It fails if there is none, or if it is to fail. -/
theorem ends_decode_guidance (tokens : List Token) (start : Int) (w : Workbench) :
    Ends (decode .guidance tokens start) w.engine fun r e =>
      let u := ({ w with engine := e } : Workbench).guidanceContext
      let v := w.guidanceContext
      e.draws = w.engine.draws ∧ u.past = v.past ∧ u.ready = v.ready ∧
        match r with
        | .ok _ => GuidanceFed start [tokens] [tokens] v u
        | .error _ => GuidanceFed start [tokens] [] v u ∧ ¬ v.Sound := by
  have hcalls := guidanceCalls_push (c := .decode .guidance tokens start) rfl w.engine.calls
  have hdraws : (w.engine.calls.push (.decode .guidance tokens start)).toList.filterMap
      Call.draw? = w.engine.draws := by
    simp [draws, Call.draw?]
  have hnone (c : Cells) : c.Extends start [] c := .refl _ _
  simp only [decode, note, fails, ends_bind, ends_modify, ends_get, ends_failIf, ends_modifyGet]
  split
  · next h =>
    refine ⟨hdraws, rfl, rfl, ⟨List.nil_prefix, hnone _, hcalls, List.suffix_rfl, rfl⟩, ?_⟩
    intro hsound
    have hpresent : w.engine.hasGuidance = true := hsound.1
    simp [hpresent] at h
  · split
    · next h =>
      refine ⟨hdraws, rfl, rfl, ⟨List.nil_prefix, hnone _, hcalls, List.tail_suffix _, rfl⟩, ?_⟩
      intro hsound
      have hhead := headD_of_all_false hsound.2
      exact absurd h (Bool.eq_false_iff.mp hhead)
    · refine ⟨hdraws, rfl, rfl, List.prefix_rfl, ?_, hcalls, List.tail_suffix _, rfl⟩
      rw [List.flatten_singleton]
      exact Cells.extends_write _ _ _

end Engine

/-! ### Feeding the guidance context -/

namespace Feed

/-- What decoding batches into the guidance context comes to. -/
theorem ends_batches_guidance (l : List (List Token)) (p : Int) (n : Nat) (w : Workbench) :
    Ends (batches .guidance l p n) w fun r w' => ∃ tried done,
      GuidanceFed p tried done w.guidanceContext w'.guidanceContext ∧ tried <+: l ∧
        w'.engine.draws = w.engine.draws ∧
        w'.guidanceContext.past = w.guidanceContext.past ∧
        match r with
        | .ok q => done = l ∧ q = p + l.flatten.length
        | .error e => e.position = p + done.flatten.length ∧ ¬ w.guidanceContext.Sound := by
  induction l generalizing p n w with
  | nil =>
    refine ⟨[], [], .nil _ _, List.nil_prefix, rfl, rfl, rfl, ?_⟩
    simp
  | cons b l ih =>
    unfold batches
    rw [ends_bind, ends_report, ends_bind, ends_adaptExcept, ends_call]
    have hcall := Engine.ends_decode_guidance b p
      { w with journal := w.journal.push (.decoding .guidance p b.length) }
    apply hcall.mono
    rintro r e ⟨hdraws, hpast, -, hr⟩
    cases r with
    | error cause =>
      refine ⟨[b], [], hr.1, ?_, hdraws, hpast, ?_, hr.2⟩
      · exact List.cons_prefix_cons.mpr ⟨rfl, List.nil_prefix⟩
      · simp
    | ok u =>
      apply (ih _ _ _).mono
      rintro r w' ⟨tried, done, hfed, hprefix, hdraws', hpast', hr'⟩
      refine ⟨b :: tried, b :: done, hr.cons hfed, ?_, hdraws'.trans hdraws, hpast'.trans hpast, ?_⟩
      · exact List.cons_prefix_cons.mpr ⟨rfl, hprefix⟩
      · cases r with
        | ok q =>
          obtain ⟨rfl, hq⟩ := hr'
          refine ⟨rfl, ?_⟩
          simp only [hq, List.flatten_cons, List.length_append]
          omega
        | error e =>
          refine ⟨?_, fun hsound => hr'.2 (hr.sound hsound)⟩
          simp only [hr'.1, List.flatten_cons, List.length_append]
          omega

end Feed

/-- What a step of guidance makes of the guidance context that is to be fed some tokens in batches
of `n`: the first batches are decoded, all of them unless a call fails. -/
def GuidanceStepped (n : Nat) (tokens : List Token) (v u : GuidanceContext) : Prop :=
  ∃ tried done, GuidanceFed v.past tried done v u ∧ tried <+: pieces n tokens ∧
    u.past = v.past + done.flatten.length ∧ (v.Sound → done = pieces n tokens)

/-- What feeding the guidance context comes to. -/
theorem Feed.ends_feed_guidance (tokens : List Token) (n : Nat) (w : Workbench) :
    Ends (feed .guidance tokens n) w fun _ w' =>
      GuidanceStepped n tokens w.guidanceContext w'.guidanceContext ∧
        w'.engine.draws = w.engine.draws := by
  simp only [feed, ends_bind, ends_get, ends_attempt]
  apply (ends_batches_guidance (pieces n tokens) w.progress.guidancePast 0 w).mono
  rintro r w' ⟨tried, done, hfed, hprefix, hdraws, -, hr⟩
  have hfed' (past : Int) : GuidanceFed w.progress.guidancePast tried done w.guidanceContext
      { w'.guidanceContext with past } :=
    ⟨hfed.prefix_tried, hfed.cells, hfed.calls, hfed.faults, hfed.present⟩
  cases r with
  | ok q =>
    obtain ⟨rfl, rfl⟩ := hr
    exact ⟨⟨tried, _, hfed' _, hprefix, rfl, fun _ => rfl⟩, hdraws⟩
  | error e =>
    exact ⟨⟨tried, done, hfed' _, hprefix, hr.1, fun hsound => absurd hsound hr.2⟩, hdraws⟩

/-- What a step of guidance comes to. -/
theorem Guidance.ends_step (g : Guidance) (n : Nat) (w : Workbench) :
    Ends (g.step n) w fun r w' =>
      GuidanceStepped n (g.nextInput w.progress.guidancePast w.progress.pending) w.guidanceContext
          w'.guidanceContext ∧
        w'.engine.draws = w.engine.draws ∧ w'.guidanceContext.ready = r.isOk := by
  simp only [step, ends_bind, ends_get]
  -- That the input is remembered does not matter to the context.
  have hremembers (c : Bool) (input : List Token) :
      Ends (onlyIf c (advance ({ · with guidanceInput := input })) : WorkM DecodeError Unit) w
        fun r b => r = .ok () ∧ b.guidanceContext = w.guidanceContext ∧
          b.engine.draws = w.engine.draws := by
    cases c <;> exact ⟨rfl, rfl, rfl⟩
  apply (hremembers _ _).mono
  rintro r b ⟨rfl, hb, hd⟩
  rw [← hb, ← hd]
  simp only [ends_attempt]
  apply (Feed.ends_feed_guidance _ _ b).mono
  rintro r w' ⟨⟨tried, done, hfed, hprefix, hpast, hall⟩, hdraws⟩
  have hfed' (ready : Bool) : GuidanceFed b.guidanceContext.past tried done b.guidanceContext
      { w'.guidanceContext with ready } :=
    ⟨hfed.prefix_tried, hfed.cells, hfed.calls, hfed.faults, hfed.present⟩
  cases r with
  | ok u => exact ⟨⟨tried, done, hfed' _, hprefix, hpast, hall⟩, hdraws, rfl⟩
  | error e => exact ⟨⟨tried, done, hfed' _, hprefix, hpast, hall⟩, hdraws, rfl⟩

namespace Session

/-- Whether the step of guidance that feeds the pending tokens succeeds, if there is guidance. -/
def stepSucceeds? (s : Session) : Option Bool :=
  s.guidance.map fun g => (outcome (g.step s.config.batchSize s.toWorkbench)).isOk

/-- What the step of guidance that feeds the pending tokens makes of the guidance context, if there
is guidance. -/
def GuidanceTaken (s : Session) (u : GuidanceContext) : Prop :=
  match s.guidance with
  | none => u = s.guidanceContext
  | some g => GuidanceStepped s.config.batchSize
      (g.nextInput s.progress.guidancePast s.progress.pending) s.guidanceContext u

private theorem ends_feedGuidance_taken (s : Session) :
    Ends feedGuidance s fun r t => r = .ok () ∧ s.GuidanceTaken t.guidanceContext ∧
      t.engine.draws = s.engine.draws ∧
        t.progress.guidanceReady = s.stepSucceeds?.getD s.progress.guidanceReady := by
  simp only [feedGuidance, ends_bind, ends_get, GuidanceTaken, stepSucceeds?]
  cases s.guidance with
  | none => exact ⟨rfl, rfl, rfl, rfl⟩
  | some g =>
    have hstep := ends_iff_outcome.mp (g.ends_step s.config.batchSize s.toWorkbench)
    simp only [ends_bind, ends_tryOnBench]
    rw [ends_iff_outcome]
    obtain ⟨htaken, hdraws, hready⟩ := hstep
    simp only [Option.map_some, Option.getD_some, ← hready]
    cases outcome (g.step s.config.batchSize s.toWorkbench) with
    | ok u => exact ⟨rfl, htaken, hdraws, rfl⟩
    | error e => exact ⟨rfl, htaken, hdraws, rfl⟩

/-- What feeding the main context makes of the guidance context: nothing, unless the turn is given
up. -/
theorem ends_feedMain_guidanceAndDraws (s : Session) :
    Ends feedMain s fun r t => t.engine.draws = s.engine.draws ∧
      (r = .ok () ∧ t.guidanceContext = s.guidanceContext ∨
        (∃ n e, r = .error (.decodeFailed n e)) ∧
          t.guidanceContext = { s.guidanceContext with ready := false }) := by
  rw [ends_feedMain_iff]
  apply (Ends.keeps (Workbench.inStep_feed_main _ _).keeps_left).mono
  intro r b hb
  obtain ⟨hcontext, hdraws⟩ := Prod.mk.inj hb
  cases r with
  | ok _ =>
    dsimp only
    obtain ⟨_, _, ht⟩ := exists_logging_eq { s with toWorkbench := b, decodeFailures := 0 }
      s.progress.pending.length
    rw [ht]
    exact ⟨hdraws, .inl ⟨rfl, hcontext⟩⟩
  | error e =>
    dsimp only
    obtain ⟨_, _, ht⟩ := exists_failing_eq { s with toWorkbench := b } e
    rw [ht]
    split
    · refine ⟨hdraws, .inr ⟨⟨_, _, rfl⟩, ?_⟩⟩
      exact congrArg (fun v : GuidanceContext => { v with ready := false }) hcontext
    · exact ⟨hdraws, .inl ⟨rfl, hcontext⟩⟩

/-- The session once it has skipped what it holds of a step. -/
def reusing (s : Session) : Session := { s with progress := s.progress.reuse }

/-- What skipping and feeding a step makes of the guidance context. -/
theorem ends_feedRest_taken (s : Session) :
    Ends feedRest s fun r t => t.engine.draws = s.engine.draws ∧ ∃ u,
      s.reusing.GuidanceTaken u ∧
        u.ready = s.reusing.stepSucceeds?.getD s.progress.guidanceReady ∧
        (r = .ok () ∧ t.guidanceContext = u ∨
          (∃ n e, r = .error (.decodeFailed n e)) ∧
            t.guidanceContext = { u with ready := false }) := by
  simp only [feedRest, ends_bind, ends_advance]
  apply (ends_feedGuidance_taken s.reusing).mono
  rintro r t ⟨rfl, htaken, hdraws, hready⟩
  apply (ends_feedMain_guidanceAndDraws t).mono
  rintro r u ⟨hdraws', hr⟩
  exact ⟨hdraws'.trans hdraws, _, htaken, hready, hr⟩

end Session

end Dialogue
