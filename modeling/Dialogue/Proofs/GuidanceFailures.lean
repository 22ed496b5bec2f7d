import Dialogue.Proofs.GuidanceBeginning
import Dialogue.Proofs.GuidedDraws
import Dialogue.Proofs.Starting
import Dialogue.Session.Run
/-!
# Failures of guidance

Two sessions of which only the decode calls on the guidance context fail differently are in step
from the beginning to the end: they give the same to every request, show and keep the same, and
their main contexts go through the same calls. All that a failure of guidance costs is the guidance
of the draws up to the next step of guidance.
-/

namespace Dialogue

open Effect

/-- The engine with other failures to come on the guidance context. -/
def Engine.withGuidanceFaults (e : Engine) (faults : List Bool) : Engine :=
  { e with faults := { e.faults with decodeGuidance := faults } }

namespace Session

variable {α : Type}

/-- Sessions begin in step. -/
theorem start_plain (now : Nat) (config : Config) (engine : Engine) (directory : Directory)
    (faults : List Bool) :
    (outcome (start now config (engine.withGuidanceFaults faults) directory)).map plain =
        (outcome (start now config engine directory)).map plain ∧
      (left (start now config (engine.withGuidanceFaults faults) directory)).plain =
        (left (start now config engine directory)).plain := by
  have hfresh : (Workbench.fresh (engine.withGuidanceFaults faults) directory).plain =
      (Workbench.fresh engine directory).plain := rfl
  have hstart (w : Workbench) : Ends (Workbench.startSession now config) w fun r t =>
      r.map plain = (outcome (Workbench.prepare now config w)).map (·.session t.plain) ∧
        t = left (Workbench.prepare now config w) := by
    rw [Workbench.startSession_eq, ends_bind, ends_iff_outcome]
    cases outcome (Workbench.prepare now config w) with
    | error e => exact ⟨rfl, rfl⟩
    | ok v => exact ⟨rfl, rfl⟩
  obtain ⟨houtcome, hleft⟩ := (Workbench.inStep_prepare now config).same _ _ hfresh
  obtain ⟨hr, ht⟩ := ends_iff_outcome.mp (hstart (Workbench.fresh engine directory))
  obtain ⟨hr', ht'⟩ :=
    ends_iff_outcome.mp (hstart (Workbench.fresh (engine.withGuidanceFaults faults) directory))
  rw [← ht, ← ht'] at hleft
  exact ⟨by rw [start, start, hr', hr, hleft, houtcome], hleft⟩

/-! ### Going on -/

/-- Turns are in step. -/
theorem inStep_answer :
    InStep plain (fun _ => ()) (answer : SessionM Outcome) answer where
  same s t hst := by
    fun_induction answer s generalizing t with
    | case1 s e s' hpass =>
      obtain ⟨t', htpass, hp⟩ := inStep_pass.exists_error hst hpass
      rw [answer_eq t, htpass]
      exact ⟨rfl, hp⟩
    | case2 s outcome s' hpass =>
      obtain ⟨t', htpass, hp⟩ := inStep_pass.exists_ok hst hpass
      rw [answer_eq t, htpass]
      exact ⟨rfl, hp⟩
    | case3 s s' hpass ih =>
      obtain ⟨t', htpass, hp⟩ := inStep_pass.exists_ok hst hpass
      rw [answer_eq t, htpass]
      exact ih t' hp
  keeps_left _ := rfl
  keeps_right _ := rfl

/-- Runs are in step. -/
theorem inStep_takeTurns (turns : List (Option String)) :
    InStep plain (fun _ => ()) (takeTurns turns) (takeTurns turns) := by
  induction turns with
  | nil => exact .bind inStep_answer fun _ => .ite (.pure _) ((inStep_report _).mono fun _ => ())
  | cons turn rest ih =>
    cases turn with
    | none => exact .bind inStep_answer fun _ => .ite (.pure _) (.throw _)
    | some text =>
      exact .bind inStep_answer fun _ => .ite (.pure _) <|
        .bind ((inStep_query text).mono fun _ => ()) fun _ => ih

private theorem inStep_run (input : List UInt8) :
    InStep plain (fun _ => ()) (run input) (run input) :=
  .reads (fun _ => rfl) fun _ => inStep_takeTurns _

private theorem inStep_writeTranscript :
    InStep plain (fun _ => ()) writeTranscript writeTranscript := by
  refine .reads (fun _ => rfl) fun s => ?_
  split
  · exact .pure _
  · split
    · exact .change (fun _ => rfl) fun _ => rfl
    · exact .throw _
    · exact .throw _

private theorem inStep_shutdown : InStep plain (fun _ => ()) shutdown shutdown := by
  have hsaves : InStep plain (fun _ => ()) saveAll saveAll := by
    refine .reads (fun _ => rfl) fun _ => ?_
    refine .onlyIf _ ?_
    refine .bind ((inStep_report _).mono fun _ => ()) fun _ => ?_
    refine .bind ((inStep_onBench _ (Workbench.inStep_saveOrDisable _)).mono fun _ => ())
      fun _ => ?_
    exact .pure _
  refine .reads (fun _ => rfl) fun _ => ?_
  refine .onlyIf _ ?_
  refine .bind (.change (fun _ => rfl) fun _ => rfl) fun _ => ?_
  exact .bind hsaves fun _ => inStep_writeTranscript

/-! ### Requests -/

/-- What a request gives. -/
def reply (s : Session) : Request → Except SessionError (Option Outcome)
  | .answer room => (outcome (answer (s.showing room))).map some
  | .query text room => (outcome (query text (s.showing room))).map fun _ => none
  | .reset => .ok none

/-- Whether a computation gives the same in two sessions, and leaves them the same when guidance is
disregarded. -/
def ComesAlike (x : SessionM α) (s t : Session) : Prop :=
  outcome (x s) = outcome (x t) ∧ (left (x s)).plain = (left (x t)).plain

variable {s t : Session}

private theorem plain_showing (h : s.plain = t.plain) (room : Option Nat) :
    (s.showing room).plain = (t.showing room).plain :=
  congrArg (fun s : Session => s.showing room) h

private theorem plain_serve (h : s.plain = t.plain) (r : Request) :
    (s.serve r).plain = (t.serve r).plain := by
  cases r with
  | answer room => exact inStep_answer.left_eq (plain_showing h room)
  | query text room => exact (inStep_query text).left_eq (plain_showing h room)
  | reset => exact congrArg reset h

private theorem plain_serveAll (h : s.plain = t.plain) (requests : List Request) :
    (s.serveAll requests).plain = (t.serveAll requests).plain := by
  induction requests generalizing s t with
  | nil => exact h
  | cons r rs ih => exact ih (plain_serve h r)

private theorem reply_eq (h : s.plain = t.plain) (r : Request) : s.reply r = t.reply r := by
  cases r with
  | answer room =>
    exact congrArg (Except.map some) (inStep_answer.outcome_eq (plain_showing h room))
  | query text room =>
    exact congrArg (Except.map fun _ => none)
      ((inStep_query text).outcome_eq (plain_showing h room))
  | reset => rfl

private theorem plain_drop (h : s.plain = t.plain) : s.drop.plain = t.drop.plain := by
  unfold drop
  cases hs : shutdown s with
  | ok u s' =>
    obtain ⟨t', ht, hp⟩ := inStep_shutdown.exists_ok h hs
    rw [ht]
    exact hp
  | error e s' =>
    obtain ⟨t', ht, hp⟩ := inStep_shutdown.exists_error h hs
    rw [ht]
    exact inStep_report (.closeFailed e.message) |>.left_eq hp

/-- Sessions with the same configuration, files and engine, but for the failures to come on the
guidance context, begin alike, answer every request alike and are closed alike, and apart from the
guidance context and from which draws are guided they always are the same. A draw is guided just if
there was a step of guidance since the session or its dialogue began and since a turn was given up,
and the last one succeeded. -/
theorem guidance_failures_unseen (now : Nat) (config : Config) (engine : Engine)
    (directory : Directory) (faults : List Bool) :
    (outcome (start now config (engine.withGuidanceFaults faults) directory)).map plain =
        (outcome (start now config engine directory)).map plain ∧
      (left (start now config (engine.withGuidanceFaults faults) directory)).plain =
        (left (start now config engine directory)).plain ∧
      ∀ s w s' w', start now config engine directory = .ok s w →
        start now config (engine.withGuidanceFaults faults) directory = .ok s' w' →
        (∀ requests, (s'.serveAll requests).plain = (s.serveAll requests).plain ∧
          (∀ r, (s'.serveAll requests).reply r = (s.serveAll requests).reply r) ∧
          (∀ input, ComesAlike (run input) (s'.serveAll requests) (s.serveAll requests)) ∧
          ComesAlike shutdown (s'.serveAll requests) (s.serveAll requests) ∧
          (s'.serveAll requests).drop.plain = (s.serveAll requests).drop.plain) ∧
        ∀ requests last t, s.AtNotedPass noteGuidance (fun _ => none) none requests last t →
          ∀ guided ∈ t.passDraws, guided = true ↔ t.guidanceStep?.or last = some true := by
  obtain ⟨houtcome, hleft⟩ := start_plain now config engine directory faults
  refine ⟨houtcome, hleft, ?_⟩
  intro s w s' w' hs hs'
  rw [hs, hs'] at houtcome
  have hplain : s'.plain = s.plain := Except.ok.inj houtcome
  refine ⟨fun requests => ?_, fun requests last t => guided_iff_of_noted (start_eq_ok hs).anew⟩
  have halike := plain_serveAll hplain requests
  exact ⟨halike, reply_eq halike, fun input => (inStep_run input).same _ _ halike,
    inStep_shutdown.same _ _ halike, plain_drop halike⟩

/-- Where the first step of guidance fails the first draw is not guided, and nothing else differs
from a session in which it succeeds. -/
theorem guidance_failures_unseen_of_first_step :
    ∃ s w s' w' t last, Session.start 0
        { prompt := "abc", negativePrompt := "xy", guidanceScale := ⟨0x40000000⟩, predict := 2 }
        { contextSize := 16, hasGuidance := true, script := Token.ofText "defg"
          faults := { decodeGuidance := [true] } } {} = .ok s w ∧
      Session.start 0
        { prompt := "abc", negativePrompt := "xy", guidanceScale := ⟨0x40000000⟩, predict := 2 }
        { contextSize := 16, hasGuidance := true, script := Token.ofText "defg" } {} = .ok s' w' ∧
      (s.serve (.answer none)).engine.draws = [false, true] ∧
      (s'.serve (.answer none)).engine.draws = [true, true] ∧
      (s'.serve (.answer none)).plain = (s.serve (.answer none)).plain ∧
      s.AtNotedPass noteGuidance (fun _ => none) none [] last t ∧ t.passDraws = [false] ∧
      (false = true ↔ t.guidanceStep?.or last = some true) := by
  obtain ⟨s, w, h, htest⟩ := exists_of_gives
    (fun s : Session => (s.serve (.answer none)).engine.draws == [false, true] &&
      goesOn (fun t : Session => t.passDraws == [false]) ((s.serveAll []).showing none))
    (r := Session.start 0
      { prompt := "abc", negativePrompt := "xy", guidanceScale := ⟨0x40000000⟩, predict := 2 }
      { contextSize := 16, hasGuidance := true, script := Token.ofText "defg"
        faults := { decodeGuidance := [true] } } {}) (by decide +kernel)
  obtain ⟨s', w', h', htest'⟩ := exists_of_gives
    (fun s : Session => (s.serve (.answer none)).engine.draws == [true, true])
    (r := Session.start 0
      { prompt := "abc", negativePrompt := "xy", guidanceScale := ⟨0x40000000⟩, predict := 2 }
      { contextSize := 16, hasGuidance := true, script := Token.ofText "defg" } {})
    (by decide +kernel)
  simp only [Bool.and_eq_true, beq_iff_eq] at htest htest'
  obtain ⟨hdraws, hgoes⟩ := htest
  obtain ⟨t, ht, hpass⟩ := exists_of_goesOn hgoes
  rw [beq_iff_eq] at hpass
  obtain ⟨last, hlast⟩ := ht.exists_notes noteGuidance (fun _ => none) none
  obtain ⟨-, -, hsessions⟩ := guidance_failures_unseen 0
    { prompt := "abc", negativePrompt := "xy", guidanceScale := ⟨0x40000000⟩, predict := 2 }
    { contextSize := 16, hasGuidance := true, script := Token.ofText "defg"
      faults := { decodeGuidance := [true] } } {} []
  obtain ⟨halike, hguided⟩ := hsessions s w s' w' h h'
  have hguided := hguided [] last t hlast false (by rw [hpass]; exact List.mem_singleton_self _)
  exact ⟨s, w, s', w', t, last, h, h', hdraws, htest', (halike [.answer none]).1, hlast, hpass,
    hguided⟩

end Session

end Dialogue
