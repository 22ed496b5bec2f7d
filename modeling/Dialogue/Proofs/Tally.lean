import Dialogue.Proofs.WindowBound
/-!
# Tallies

What the logs tell of the tokens on their way to the main context: which ones the sampler was told
of, how often decoding was tried, which batches were decoded, and how many tokens were cut off. The
operations that add nothing to this are those that leave the tally as it is.
-/

namespace Dialogue

open Effect

/-- The token that the sampler is told of. -/
def Call.accepted? : Call → Option Token
  | .accept token _ => some token
  | _ => none

/-- What the logs tell of the tokens on their way to the main context, oldest first. -/
@[ext] structure Tally where
  /-- The tokens that the sampler was told of. -/
  accepted : List Token
  /-- How many calls were to decode into the main context. -/
  decodes : Nat
  /-- The batches that were decoded into it. -/
  batches : List Batch
  /-- How many tokens were cut off each time. -/
  cuts : List Nat

/-- How many decode calls on the main context failed, up to a number that stays the same. -/
def Tally.failed (t : Tally) : Int := t.decodes - t.batches.length

namespace Engine

/-- The tokens that the sampler was told of. -/
def accepted (e : Engine) : List Token := e.calls.toList.filterMap Call.accepted?

/-- How many calls were to decode into the main context. -/
def mainDecodes (e : Engine) : Nat := e.calls.toList.countP Call.decodesMain

/-- The batches that were decoded into the main context. -/
def mainBatches (e : Engine) : List Batch := e.batches.toList.filter (·.stream = .main)

/-- What the log of the engine tells. -/
def tallied (e : Engine) : List Token × Nat × List Batch :=
  (e.accepted, e.mainDecodes, e.mainBatches)

private theorem tallied_note {c : Call} (ha : c.accepted? = none) (hd : c.decodesMain = false)
    (e : Engine) : tallied { e with calls := e.calls.push c } = tallied e := by
  simp [tallied, accepted, mainDecodes, mainBatches, ha, hd]

private theorem keeps_tallied_note {c : Call} (ha : c.accepted? = none)
    (hd : c.decodesMain = false) :
    Keeps tallied (note c) := .modify fun e => tallied_note ha hd e

/-- Calls that neither decode nor concern the sampler add nothing. -/
theorem frame_tallied : Frame tallied where
  calls e c hc := by cases c <;> first | exact tallied_note rfl rfl e | cases hc
  faults _ _ _ := rfl
  cells _ stream _ := by cases stream <;> rfl

private theorem keeps_tallied_decode_guidance (tokens : List Token) (start : Int) :
    Keeps tallied (decode .guidance tokens start) :=
  frame_tallied.keeps_decode (fun e _ _ => tallied_note rfl rfl e)
    (fun _ _ _ => by simp [tallied, accepted, mainDecodes, mainBatches]) tokens start

/-- Drawing a token adds nothing to the tally. -/
theorem keeps_tallied_sample (guided : Bool) : Keeps tallied (sample guided) := by
  refine .bind (keeps_tallied_note rfl rfl) fun _ => ?_
  refine .bind (fun _ => rfl) fun _ => ?_
  exact .bind (.failIf _ _) fun _ _ => rfl

end Engine

/-! ### Work on the bench -/

namespace Workbench

variable {ε α : Type}

/-- What the logs tell. -/
def tally (w : Workbench) : Tally where
  accepted := w.engine.accepted
  decodes := w.engine.mainDecodes
  batches := w.engine.mainBatches
  cuts := w.journal.toList.filterMap Event.cut?

/-- A report that tells of no cut adds nothing to the tally. -/
theorem tally_report {e : Event} (h : e.cut? = none) (w : Workbench) :
    tally { w with journal := w.journal.push e } = tally w := by
  simp [tally, h]

private theorem keeps_tally_report {e : Event} (h : e.cut? = none) :
    Keeps tally (report e : WorkM ε Unit) := .modify fun w => tally_report h w

private theorem keeps_tally_advance (f : Progress → Progress) :
    Keeps tally (advance f : WorkM ε Unit) :=
  .modify fun _ => rfl

private theorem keeps_tally_call {x : EngineM α} (h : Keeps Engine.tallied x) :
    Keeps tally (call x) := by
  refine .onPart h fun w e he => ?_
  simp only [Engine.tallied, Prod.mk.injEq] at he
  simp only [tally, he]

/-- Making room, feeding the guidance context and saving add nothing. -/
theorem frame_tally : Frame tally where
  engine w := Engine.frame_tallied.map fun p =>
    { w.tally with accepted := p.1, decodes := p.2.1, batches := p.2.2 }
  decodes _ _ := keeps_tally_call (Engine.keeps_tallied_decode_guidance _ _)
  reports w _ he := tally_report he w
  progress _ _ _ _ _ := rfl
  files _ _ _ := rfl

/-- Aligning the session file with the prompt adds nothing to the tally. -/
theorem keeps_tally_align (prompt : List Token) (promptEmpty : Bool) :
    Keeps tally (Cache.align prompt promptEmpty) := by
  refine .bind .get fun w => ?_
  refine .bind (keeps_tally_report ?_) fun _ => ?_
  · unfold Similarity.event
    split <;> rfl
  · refine .bind (keeps_tally_call (Engine.frame_tallied.keeps_removeCells _ _ _ _)) fun _ => ?_
    refine .bind (.onlyIf _ ?_) fun _ => .pure _
    exact .bind (keeps_tally_report rfl) fun _ => keeps_tally_advance _

end Workbench

/-! ### A session -/

namespace Session

variable {α : Type}

/-- What the logs tell. -/
def tally (s : Session) : Tally := s.toWorkbench.tally

/-- How many decode calls on the main context failed since an earlier state of the session. -/
def failedDecodesSince (s t : Session) : Int := t.tally.failed - s.tally.failed

/-- Making room, feeding the guidance context, saving, ending the turn and hearing the user add
nothing. -/
theorem frame_tally : QueryFrame tally where
  bench _ := Workbench.frame_tally
  progress _ _ _ _ _ _ _ := rfl
  turn _ _ _ := rfl
  hands _ _ _ _ _ := rfl
  passes _ _ _ _ := rfl
  records _ _ := rfl
  resets s := Workbench.keeps_tally_call (Engine.keeps_tallied_note rfl rfl) s.toWorkbench

/-- A change of the progress adds nothing to the tally. -/
theorem keeps_tally_advance (f : Progress → Progress) : Keeps tally (advance f) :=
  .modify fun _ => rfl

/-- A call adds to the tally of a session what it adds to that of an engine. -/
theorem keeps_tally_call {x : EngineM α} (h : Keeps Engine.tallied x) : Keeps tally (call x) :=
  keeps_onBench_of_keeps _ fun _ => Workbench.keeps_tally_call h

/-! ### Taking the next step -/

/-- Showing a step adds nothing to the tally. -/
theorem keeps_tally_display : Keeps tally display := by
  refine .bind .get fun _ => ?_
  refine .onlyIf _ ?_
  refine .bind (frame_tally.keeps_enter _) fun _ => ?_
  exact .forM fun _ _ => .bind (frame_tally.keeps_write _) fun _ => .modify fun _ => rfl

end Session

end Dialogue
