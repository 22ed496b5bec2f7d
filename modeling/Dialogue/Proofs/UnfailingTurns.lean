import Dialogue.Proofs.StruckTurns
/-!
# Turns that cannot fail

A turn fails where a draw, a removal or a move does, where decoding does too often, where a reverse
prompt cannot be spelled, and where the output is full. Where none of that is to come it ends with
an outcome, whatever becomes of guidance and of the session file.
-/

namespace Dialogue

open Effect

namespace Effect

variable {ε ε' σ τ α β : Type}

/-- Whether a computation gives a value from every state with a property, and leaves one with it. -/
def Unfailing (P : σ → Prop) (x : EStateM ε σ α) : Prop :=
  ∀ s, P s → Ends x s fun r t => (∃ a, r = .ok a) ∧ P t

namespace Unfailing

variable {P : σ → Prop} {x : EStateM ε σ α}

private theorem pure (a : α) : Unfailing P (Pure.pure a : EStateM ε σ α) :=
  fun _ hs => ⟨⟨a, rfl⟩, hs⟩

/-- A change of the state that preserves the property does not fail. -/
theorem modify {f : σ → σ} (h : ∀ s, P s → P (f s)) :
    Unfailing P (MonadState.modifyGet fun s => (PUnit.unit, f s) : EStateM ε σ PUnit) :=
  fun s hs => ⟨⟨_, rfl⟩, h s hs⟩

/-- Two steps do not fail if neither does. -/
theorem bind {g : α → EStateM ε σ β} (hx : Unfailing P x) (hg : ∀ a, Unfailing P (g a)) :
    Unfailing P (x >>= g) := by
  intro s hs
  rw [ends_bind]
  apply (hx s hs).mono
  rintro _ t ⟨⟨a, rfl⟩, ht⟩
  exact hg a t ht

/-- What comes after the state was read can make use of its property. -/
theorem reads {g : σ → EStateM ε σ α}
    (hg : ∀ s, P s → Ends (g s) s fun r t => (∃ a, r = .ok a) ∧ P t) :
    Unfailing P (MonadState.get >>= g) := fun s hs => hg s hs

/-- Reading the state does not fail. -/
theorem get_bind {g : σ → EStateM ε σ α} (hg : ∀ s, Unfailing P (g s)) :
    Unfailing P (MonadState.get >>= g) := .reads fun s hs => hg s s hs

/-- A step that is taken only sometimes does not fail if it does not when taken. -/
theorem onlyIf (c : Bool) {x : EStateM ε σ Unit} (hx : Unfailing P x) :
    Unfailing P (onlyIf c x) := by
  cases c
  · exact .pure _
  · exact hx

/-- A choice does not fail if neither branch does. -/
theorem ite {c : Prop} [Decidable c] {y : EStateM ε σ α} (hx : Unfailing P x)
    (hy : Unfailing P y) : Unfailing P (if c then x else y) := by
  split
  · exact hx
  · exact hy

private theorem forM {l : List α} {g : α → EStateM ε σ PUnit} (hg : ∀ a, Unfailing P (g a)) :
    Unfailing P (l.forM g) := by
  induction l with
  | nil => exact Unfailing.pure _
  | cons a l ih => exact Unfailing.bind (hg a) fun _ => ih

private theorem mapM {l : List α} {g : α → EStateM ε σ β} (hg : ∀ a, Unfailing P (g a)) :
    Unfailing P (l.mapM g) := by
  induction l with
  | nil => exact Unfailing.pure _
  | cons a l ih =>
    rw [List.mapM_cons]
    exact Unfailing.bind (hg a) fun _ => Unfailing.bind ih fun _ => Unfailing.pure _

private theorem adaptExcept (wrap : ε → ε') (hx : Unfailing P x) :
    Unfailing P (x.adaptExcept wrap) := by
  intro s hs
  rw [ends_adaptExcept]
  apply (hx s hs).mono
  rintro _ t ⟨⟨a, rfl⟩, ht⟩
  exact ⟨⟨a, rfl⟩, ht⟩

/-- A failure that is taken as a value is none. -/
theorem attempt {f : σ → τ} (hx : Keeps f x) (hP : ∀ s t, f t = f s → P s → P t) :
    Unfailing P (attempt x : EStateM ε' σ (Except ε α)) := by
  intro s hs
  rw [ends_attempt]
  apply (Ends.keeps hx).mono
  intro r t ht
  exact ⟨⟨r, rfl⟩, hP s t ht hs⟩

/-- What comes after a computation that gives a value is told of the value. -/
theorem attempt_bind {g : Except ε α → EStateM ε' σ β} (hx : Unfailing P x)
    (hg : ∀ a, Unfailing P (g (.ok a))) : Unfailing P (Effect.attempt x >>= g) := by
  intro s hs
  rw [ends_bind, ends_attempt]
  apply (hx s hs).mono
  rintro _ t ⟨⟨a, rfl⟩, ht⟩
  exact hg a t ht

/-- On a part of the state, a computation is unfailing if it is on the part. -/
theorem onPart {part : σ → τ} {replace : σ → τ → σ} {Q : σ → τ → Prop} {x : EStateM ε τ α}
    (hx : ∀ s, P s → Unfailing (Q s) x) (hQ : ∀ s, P s → Q s (part s))
    (hP : ∀ s t, P s → Q s t → P (replace s t)) : Unfailing P (onPart part replace x) := by
  intro s hs
  rw [ends_onPart]
  apply (hx s hs (part s) (hQ s hs)).mono
  rintro r t ⟨hr, ht⟩
  exact ⟨hr, hP s t hs ht⟩

end Unfailing

end Effect

/-! ### The engine -/

namespace Engine

/-- An engine whose draws, removals, moves and decode calls on the main context are not to fail, and
that can spell some texts. -/
structure Untroubled (texts : List String) (e : Engine) : Prop where
  /-- No decode call on the main context is to fail. -/
  decodes : ∀ b ∈ e.faults.decodeMain, b = false
  /-- No draw, no removal and no move is to fail. -/
  transient : e.faults.transient = 0
  /-- The texts can be spelled. -/
  spells : ∀ text ∈ texts, text ∉ e.refused

/-- What an engine is troubled by. -/
def troubles (e : Engine) : List Bool × List Bool × List Bool × List Bool × List String :=
  (e.faults.decodeMain, e.faults.sample, e.faults.remove, e.faults.shift, e.refused)

variable {texts : List String} {e e' : Engine}

private theorem Untroubled.of_troubles (h : e.Untroubled texts) (he : e'.troubles = e.troubles) :
    e'.Untroubled texts := by
  simp only [troubles, Prod.mk.injEq] at he
  obtain ⟨hdecode, hsample, hremove, hshift, hrefused⟩ := he
  refine ⟨hdecode ▸ h.decodes, ?_, hrefused ▸ h.spells⟩
  rw [Faults.transient, hsample, hremove, hshift]
  exact h.transient

private theorem unfailing_note (c : Call) : Unfailing (Untroubled texts) (note c) :=
  .modify fun _ h => h.of_troubles rfl

private theorem unfailing_tokenize {text : String} (ht : text ∈ texts) (addBos special : Bool) :
    Unfailing (Untroubled texts) (tokenize text addBos special) := by
  refine .bind (unfailing_note _) fun _ => .reads fun e he => ?_
  rw [decide_eq_false (he.spells text ht)]
  exact ⟨⟨_, rfl⟩, he⟩

private theorem unfailing_decode (tokens : List Token) (start : Int) :
    Unfailing (Untroubled texts) (decode .main tokens start) := by
  intro e he
  rw [ends_iff_of_eq_ok (decode_main_eq_ok (headD_of_all_false he.decodes))]
  exact ⟨⟨_, rfl⟩, fun b hb => he.decodes b (List.mem_of_mem_tail hb), he.transient, he.spells⟩

private theorem unfailing_sample (guided : Bool) :
    Unfailing (Untroubled texts) (sample guided) := by
  intro e he
  rw [ends_iff_of_eq_ok (sample_eq_ok guided
    (Faults.headD_of_transient_eq_zero (s := .sample) rfl he.transient))]
  exact ⟨⟨_, rfl⟩, he.decodes, Nat.le_zero.mp
    (he.transient ▸ Faults.transient_next_le e.faults .sample), he.spells⟩

private theorem unfailing_removeCells (sequence : Option Nat) (first : Int) (last : Option Int) :
    Unfailing (Untroubled texts) (removeCells .main sequence first last) := by
  intro e he
  rw [ends_iff_of_eq_ok (removeCells_main_eq_ok
    (Faults.headD_of_transient_eq_zero (s := .remove) rfl he.transient))]
  exact ⟨⟨_, rfl⟩, he.decodes, Nat.le_zero.mp
    (he.transient ▸ Faults.transient_next_le e.faults .remove), he.spells⟩

private theorem unfailing_shiftCells (sequence : Nat) (first : Int) (last : Option Int)
    (delta : Int) :
    Unfailing (Untroubled texts) (shiftCells .main sequence first last delta) := by
  intro e he
  rw [ends_iff_of_eq_ok (shiftCells_main_eq_ok
    (Faults.headD_of_transient_eq_zero (s := .shift) rfl he.transient))]
  exact ⟨⟨_, rfl⟩, he.decodes, Nat.le_zero.mp
    (he.transient ▸ Faults.transient_next_le e.faults .shift), he.spells⟩

private theorem keeps_troubles_decode_guidance (tokens : List Token) (start : Int) :
    Keeps troubles (decode .guidance tokens start) := by
  refine .bind (.modify fun _ => rfl) fun _ => ?_
  refine .bind .get fun _ => ?_
  refine .bind (.failIf _ _) fun _ => ?_
  refine .bind (fun _ => rfl) fun _ => ?_
  exact .bind (.failIf _ _) fun _ => .modify fun _ => rfl

private theorem keeps_troubles_takeSnapshot : Keeps troubles takeSnapshot := by
  refine .bind (.modify fun _ => rfl) fun _ => ?_
  refine .bind (fun _ => rfl) fun _ => ?_
  refine .bind (.failIf _ _) fun _ => ?_
  exact .bind .get fun _ => .pure _

end Engine

/-! ### The workbench -/

namespace Workbench

variable {ε α : Type} {texts : List String}

/-- Whether the engine of a workbench is untroubled. -/
def Untroubled (texts : List String) (w : Workbench) : Prop := w.engine.Untroubled texts

private theorem unfailing_report (e : Event) :
    Unfailing (Untroubled texts) (report e : WorkM ε Unit) :=
  .modify fun _ h => h

private theorem unfailing_advance (f : Progress → Progress) :
    Unfailing (Untroubled texts) (advance f : WorkM ε Unit) := .modify fun _ h => h

private theorem unfailing_call {x : EngineM α} (h : Unfailing (Engine.Untroubled texts) x) :
    Unfailing (Untroubled texts) (call x) :=
  .onPart (fun _ _ => h) (fun _ hw => hw) fun _ _ _ he => he

private theorem keeps_troubles_call {x : EngineM α} (h : Keeps Engine.troubles x) :
    Keeps (·.engine.troubles) (call x) := .onPart h fun _ _ he => he

private theorem unfailing_invalidate :
    Unfailing (Untroubled texts) (Cache.invalidate : WorkM ε Unit) := by
  refine .get_bind fun w => ?_
  cases w.cache.path with
  | none => exact .pure _
  | some path => exact .bind (.modify fun _ h => h) fun _ => unfailing_report _

/-- Room is made. -/
theorem unfailing_ensureRoom (w : Window) (offset : Option Int) :
    Unfailing (Untroubled texts) (w.ensureRoom offset) := by
  have hevicts (past n : Int) (guided : Bool) :
      Unfailing (Untroubled texts) (w.evict guided past n) := by
    refine .bind (unfailing_call (Engine.unfailing_removeCells _ _ _)) fun _ => ?_
    refine .bind (unfailing_call (Engine.unfailing_shiftCells _ _ _ _)) fun _ => ?_
    exact .bind (unfailing_advance _) fun _ => .onlyIf _ (unfailing_advance _)
  have hswaps (guided : Bool) : Unfailing (Untroubled texts) (w.swap guided) := by
    refine .get_bind fun _ => ?_
    refine .bind (unfailing_report _) fun _ => ?_
    refine .bind (.ite (hevicts _ _ _) (unfailing_report _)) fun _ => ?_
    refine .bind unfailing_invalidate fun _ => ?_
    exact .get_bind fun _ => .pure _
  exact .get_bind fun _ => .bind (.mapM fun _ => hswaps _) fun _ => .pure _

/-- A step is decoded. -/
theorem unfailing_feed (tokens : List Token) (batchSize : Nat) :
    Unfailing (Untroubled texts) (Feed.feed .main tokens batchSize) := by
  have hbatches (l : List (List Token)) (position : Int) (evaluated : Nat) :
      Unfailing (Untroubled texts) (Feed.batches .main l position evaluated) := by
    induction l generalizing position evaluated with
    | nil => exact .pure _
    | cons batch rest ih =>
      exact .bind (unfailing_report _) fun _ =>
        .bind (.adaptExcept _ (unfailing_call (Engine.unfailing_decode _ _))) fun _ => ih _ _
  exact .get_bind fun _ => .attempt_bind (hbatches _ _ _) fun _ =>
    .bind (unfailing_advance _) fun _ => unfailing_report _

/-- Failures of guidance do not trouble the rest. -/
theorem guidanceFrame_troubles : GuidanceFrame (·.engine.troubles) where
  decoding _ _ _ := rfl
  decodes _ _ := keeps_troubles_call (Engine.keeps_troubles_decode_guidance _ _)
  decoded _ _ := rfl
  progress _ _ _ _ := rfl

/-- The session file is saved or given up. -/
theorem unfailing_saveOrDisable (tokens : List Token) :
    Unfailing (Untroubled texts) (Cache.saveOrDisable tokens : WorkM ε Bool) := by
  have hsaves (path : String) : Keeps (·.engine.troubles) (Cache.save path tokens) := by
    refine .bind (.adaptExcept _ (keeps_troubles_call Engine.keeps_troubles_takeSnapshot))
      fun state => .bind .get fun w => ?_
    split
    · exact .throw _
    · exact .bind (.modify fun _ => rfl) fun _ => .modify fun _ => rfl
  refine .get_bind fun w => ?_
  dsimp only
  split
  · exact .pure _
  · refine .ite (.pure _) (.bind (.attempt (hsaves _) fun _ _ ht hs => hs.of_troubles ht)
      fun r => ?_)
    cases r with
    | ok u => exact .pure _
    | error e =>
      exact .bind (.bind (unfailing_report _) fun _ => .modify fun _ h => h) fun _ => .pure _

end Workbench

/-! ### Sessions -/

namespace Session

variable {ε α : Type} {s t : Session}

/-- A session that is not to fail: its engine is untroubled and can spell the reverse prompts, and
the output is not bounded. -/
structure Untroubled (s : Session) : Prop where
  /-- The engine is untroubled. -/
  engine : s.engine.Untroubled s.config.antiprompts
  /-- The output is not bounded. -/
  room : s.output.room = none

private theorem unfailing_onBench (wrap : ε → SessionError) {x : WorkM ε α}
    (h : ∀ texts, Unfailing (Workbench.Untroubled texts) x) :
    Unfailing Untroubled (onBench wrap x) :=
  .adaptExcept _ (.onPart (fun _ _ => h _) (fun _ hs => hs.engine) fun _ _ hs hw => ⟨hw, hs.room⟩)

private theorem unfailing_call {x : EngineM α}
    (h : ∀ texts, Unfailing (Engine.Untroubled texts) x) :
    Unfailing Untroubled (call x) :=
  unfailing_onBench _ fun texts => Workbench.unfailing_call (h texts)

private theorem unfailing_report (e : Event) : Unfailing Untroubled (report e) :=
  .modify fun _ h => ⟨h.engine, h.room⟩

private theorem unfailing_advance (f : Progress → Progress) : Unfailing Untroubled (advance f) :=
  .modify fun _ h => ⟨h.engine, h.room⟩

private theorem unfailing_enter (phase : Phase) : Unfailing Untroubled (enter phase) :=
  .modify fun _ h => ⟨h.engine, h.room⟩

/-- An output that is not bounded takes every text. -/
theorem unfailing_write (text : String) : Unfailing Untroubled (write text) := by
  intro s hs
  have htakes : s.output.takes text = true := by
    rw [Output.takes, hs.room]
    rfl
  simp only [write, ends_bind, ends_get, ends_modify, ends_failIf, htakes, Bool.not_true,
    Bool.false_eq_true, if_false]
  refine ⟨⟨(), trivial⟩, hs.engine, ?_⟩
  rw [Output.write, hs.room]

private theorem unfailing_cutPending (max : Nat) : Unfailing Untroubled (cutPending max) := by
  refine .get_bind fun _ => ?_
  refine .onlyIf _ ?_
  refine .bind (unfailing_advance _) fun _ => ?_
  exact .bind (unfailing_report _) fun _ => unfailing_write _

private theorem unfailing_makeRoom : Unfailing Untroubled makeRoom :=
  .get_bind fun _ => .bind
    (unfailing_onBench _ fun _ => Workbench.unfailing_ensureRoom _ _) fun _ => .pure _

private theorem unfailing_logPending (n : Nat) : Unfailing Untroubled (logPending n) :=
  .get_bind fun _ => .onlyIf _ (unfailing_advance _)

/-- Guidance that fails is gone without. -/
theorem unfailing_feedGuidance : Unfailing Untroubled feedGuidance := by
  refine .get_bind fun s => ?_
  split
  · exact .pure _
  · refine .bind (unfailing_onBench _ fun texts =>
      .attempt (Workbench.guidanceFrame_troubles.keeps_step _ _)
        fun _ _ ht hs => Engine.Untroubled.of_troubles hs ht) fun r => ?_
    cases r with
    | ok u => exact .pure _
    | error e => exact unfailing_report _

/-- A step is fed to the main context. -/
theorem unfailing_feedMain : Unfailing Untroubled feedMain := by
  refine .reads fun s hs => ?_
  rw [ends_bind, ends_tryOnBench]
  apply (Workbench.unfailing_feed s.progress.pending s.config.batchSize s.toWorkbench
    hs.engine).mono
  rintro _ b ⟨⟨u, rfl⟩, hb⟩
  exact (Unfailing.bind (.modify fun _ h => ⟨h.engine, h.room⟩) fun _ => unfailing_logPending _ :
    Unfailing Untroubled _) _ ⟨hb, hs.room⟩

private theorem unfailing_evaluatePending : Unfailing Untroubled evaluatePending := by
  have hfeeds (room : Nat) : Unfailing Untroubled (feedPending room) := by
    refine .bind (unfailing_cutPending _) fun _ => ?_
    refine .bind (unfailing_advance _) fun _ => ?_
    exact .bind unfailing_feedGuidance fun _ => unfailing_feedMain
  have hswaps : Unfailing Untroubled swapAndFeed := by
    refine .bind unfailing_makeRoom fun _ => ?_
    refine .get_bind fun _ => ?_
    exact .ite (.bind (unfailing_report _) fun _ => .pure _) (.bind (hfeeds _) fun _ => .pure _)
  refine .get_bind fun _ => ?_
  refine .ite (.pure _) ?_
  refine .get_bind fun _ => ?_
  refine .bind (unfailing_cutPending _) fun _ => ?_
  refine .get_bind fun _ => ?_
  exact .ite (.bind (unfailing_report _) fun _ => .pure _) hswaps

private theorem unfailing_accept (token : Token) (sampled : Bool) :
    Unfailing Untroubled (accept token sampled) :=
  .bind (unfailing_call fun _ => Engine.unfailing_note _) fun _ => unfailing_advance _

private theorem unfailing_refill : Unfailing Untroubled refill := by
  have hsaves : Unfailing Untroubled savePrompt := by
    refine .get_bind fun _ => ?_
    refine .onlyIf _ ?_
    refine .bind (unfailing_advance _) fun _ => ?_
    refine .bind (.bind ?_ fun _ => .pure _) fun _ => unfailing_report _
    exact unfailing_onBench _ fun _ => Workbench.unfailing_saveOrDisable _
  have hdraws : Unfailing Untroubled drawNext := by
    refine .bind hsaves fun _ => ?_
    refine .get_bind fun _ => ?_
    refine .bind (unfailing_call fun _ => Engine.unfailing_sample _) fun _ => ?_
    refine .bind (unfailing_accept _ _) fun _ => ?_
    exact .bind (unfailing_report _) fun _ => unfailing_advance _
  refine .get_bind fun _ => ?_
  refine .ite ?_ ?_
  · exact .bind (unfailing_enter _) fun _ => .ite (unfailing_report _) hdraws
  · refine .bind (unfailing_enter _) fun _ => ?_
    refine .get_bind fun _ => ?_
    refine .bind (unfailing_report _) fun _ => ?_
    exact .forM fun _ => .bind (unfailing_accept _ _) fun _ => unfailing_advance _

private theorem unfailing_display : Unfailing Untroubled display := by
  refine .get_bind fun _ => ?_
  refine .onlyIf _ ?_
  refine .bind (unfailing_enter _) fun _ => ?_
  exact .forM fun _ => .bind (unfailing_write _) fun _ => .modify fun _ h => ⟨h.engine, h.room⟩

/-- The reverse prompts can be spelled. -/
theorem unfailing_queueAntiprompt : Unfailing Untroubled queueAntiprompt := by
  refine .reads fun s hs => ?_
  split
  · exact ⟨⟨(), rfl⟩, hs⟩
  · next first rest hfirst =>
    have hmem : first ∈ s.config.antiprompts := by
      rw [hfirst]
      exact List.mem_cons_self
    rw [ends_bind, ends_call]
    apply (Engine.unfailing_tokenize hmem false true s.engine hs.engine).mono
    rintro _ e ⟨⟨tokens, rfl⟩, he⟩
    exact ⟨⟨(), rfl⟩, he, hs.room⟩

private theorem unfailing_handOver : Unfailing Untroubled handOver := by
  have hreports : Unfailing Untroubled reportAntiprompt := by
    refine .get_bind fun s => ?_
    split
    · exact .pure _
    · exact unfailing_report _
  refine .bind hreports fun _ => ?_
  refine .get_bind fun _ => ?_
  refine .bind (.onlyIf _ unfailing_queueAntiprompt) fun _ => ?_
  refine .bind (.onlyIf _ (.bind (unfailing_report _) fun _ => unfailing_write _)) fun _ => ?_
  exact .bind (unfailing_advance _) fun _ => .pure _

private theorem unfailing_finish (phase : Phase) (reason : StopReason) :
    Unfailing Untroubled (finish phase reason) := by
  refine .bind (unfailing_enter _) fun _ => ?_
  refine .get_bind fun _ => ?_
  exact .bind (unfailing_report _) fun _ => .pure _

private theorem unfailing_conclude : Unfailing Untroubled conclude := by
  have hfinishes (reason : StopReason) : Unfailing Untroubled (finishIfUserTurn reason) :=
    .get_bind fun _ => .ite (.bind (unfailing_finish _ _) fun _ => .pure _) (.pure _)
  have hdrained (spent : Bool) : Unfailing Untroubled (concludeDrained spent) := by
    refine .bind unfailing_handOver fun _ => ?_
    refine .ite ?_ (hfinishes _)
    refine .bind (unfailing_report _) fun _ => ?_
    exact .bind (unfailing_finish _ _) fun _ => .pure _
  refine .get_bind fun _ => ?_
  refine .bind (.onlyIf _ (.get_bind fun _ => unfailing_advance _)) fun _ => ?_
  exact .ite (.bind (unfailing_finish _ _) fun _ => .pure _) (.ite (hdrained _) (hfinishes _))

private theorem unfailing_pass : Unfailing Untroubled pass := by
  refine .bind unfailing_evaluatePending fun r => ?_
  cases r with
  | none =>
    refine .bind (unfailing_advance _) fun _ => ?_
    refine .bind unfailing_refill fun _ => ?_
    exact .bind unfailing_display fun _ => unfailing_conclude
  | some reason => exact .bind (unfailing_finish _ _) fun _ => .pure _

/-- A session that is not to fail takes its turn. -/
theorem Untroubled.answer_eq_ok (h : s.Untroubled) : ∃ outcome t, answer s = .ok outcome t := by
  fun_induction answer s with
  | case1 s e t hpass =>
    obtain ⟨⟨_, ⟨⟩⟩, -⟩ := (ends_iff_of_eq_error hpass).mp (unfailing_pass s h)
  | case2 s outcome t => exact ⟨outcome, t, rfl⟩
  | case3 s t hpass ih => exact ih ((unfailing_pass s h).of_ok hpass).2

end Session

end Dialogue
