import Dialogue.Proofs.Evicting
import Dialogue.Session.Evaluate
/-!
# Arriving at the main context

Before a step is fed it is cut to what the context can ever take, room is made for it, and it is
cut again to the room there is. `arrive` is this part of an evaluation; what remains is to skip what
the session holds and to feed the rest.
-/

namespace Dialogue

open Effect

namespace MainContext

/-- The main context with no more than `n` tokens for the next step. -/
def cut (v : MainContext) (n : Nat) : MainContext := { v with pending := v.pending.take n }

end MainContext

/-- What can become of the main context before a step is fed, and with what result. -/
inductive Arrived (w : Window) (offset : Int) (v : MainContext) :
    Except SessionError (Option StopReason) → MainContext → Prop
  /-- The session cannot go on, or something fails. -/
  | stopped {r : Except SessionError (Option StopReason)} {u : MainContext}
      (h : Swaps w (v.cut w.maxStep) u) (hr : r ≠ .ok none) : Arrived w offset v r u
  /-- There is room. The session file is given up where the step does not fit. -/
  | ready {r : Except SessionError (Option StopReason)} {u : MainContext}
      (h : Swaps w (v.cut w.maxStep) u) (hroom : 0 < w.room u.past offset)
      (hfits : u.path = none ∨ w.overflows u.past u.pending.length offset = false) :
      Arrived w offset v r (u.cut (w.room u.past offset))

namespace Session

variable {α : Type}

/-! ### What is settled when a session begins -/

/-- The configuration, the window, the guidance, and how much of the prompt the file held. -/
def settled (s : Session) : Config × Window × Option Guidance × Nat :=
  (s.config, s.window, s.guidance, s.matched)

/-- What is settled, and the main context. -/
def settledAndMain (s : Session) : (Config × Window × Option Guidance × Nat) × MainContext :=
  (s.settled, s.mainContext)

/-- What is settled includes the configuration. -/
theorem config_of_settled {s t : Session} (h : t.settled = s.settled) : t.config = s.config :=
  congrArg Prod.fst h

/-- What is settled includes the window. -/
theorem window_of_settled {s t : Session} (h : t.settled = s.settled) : t.window = s.window :=
  congrArg (fun p => p.2.1) h

/-- What is settled includes the guidance. -/
theorem guidance_of_settled {s t : Session} (h : t.settled = s.settled) :
    t.guidance = s.guidance := congrArg (fun p => p.2.2.1) h

/-- What is settled includes the offset of the guidance. -/
theorem offset_of_settled {s t : Session} (h : t.settled = s.settled) : t.offset = s.offset := by
  rw [offset, offset, guidance_of_settled h]

/-- A report concerns neither what is settled nor the main context. -/
theorem keeps_settledAndMain_report (e : Event) : Keeps settledAndMain (report e) := Keeps.modify
    fun _ => rfl

/-- A change of the phase concerns neither what is settled nor the main context. -/
theorem keeps_settledAndMain_enter (phase : Phase) : Keeps settledAndMain (enter phase) :=
    Keeps.modify fun _ => rfl

/-- What is shown concerns neither what is settled nor the main context. -/
theorem keeps_settledAndMain_write (text : String) : Keeps settledAndMain (write text) := by
  apply Keeps.bind Keeps.get
  intro _
  apply Keeps.bind
  · exact Keeps.modify fun _ => rfl
  · intro _
    exact Keeps.failIf _ _

/-- A change of the progress leaves the main context alone if it does not show there. -/
theorem keeps_settledAndMain_advance {f : Progress → Progress}
    (hf : ∀ s : Session, ({ s with progress := f s.progress } : Session).mainContext =
      s.mainContext) :
    Keeps settledAndMain (advance f) := by
  apply Keeps.modify
  intro s
  rw [settledAndMain, hf]
  rfl

/-- A call leaves the main context alone if it leaves alone the part of the engine that belongs to
it. -/
theorem keeps_settledAndMain_call {x : EngineM α} (h : Keeps Engine.mainPart x) :
    Keeps settledAndMain (call x) := by
  apply Keeps.adaptExcept
  apply Keeps.onPart (Workbench.keeps_mainContext_call h)
  intro s b hb
  rw [settledAndMain, hb]
  rfl

/-- What is settled and the main context are each as they were if both are together. -/
theorem settledAndMain_eq {s t : Session} (h : t.settledAndMain = s.settledAndMain) :
    t.settled = s.settled ∧ t.mainContext = s.mainContext := Prod.mk.inj h

/-! ### Arriving -/

/-- Cutting the step cuts the one of the main context, and leaves what is settled. -/
theorem ends_cutPending (n : Nat) (s : Session) :
    Ends (cutPending n) s fun _ t =>
      t.settled = s.settled ∧ t.mainContext = s.mainContext.cut n := by
  simp only [cutPending, ends_bind, ends_get, ends_onlyIf]
  split
  · rw [ends_advance, ends_report]
    apply (Ends.keeps (keeps_settledAndMain_write _)).mono
    intro r t ht
    exact settledAndMain_eq ht
  · next h =>
    have hn : s.progress.pending.length ≤ n := by simpa using h
    simp only [MainContext.cut, Workbench.mainContext, List.take_of_length_le hn, and_self]

/-- Making room swaps the main context, and the step fits then if the session file is still in use.
-/
theorem ends_makeRoom (s : Session) :
    Ends makeRoom s fun r t =>
      t.settled = s.settled ∧ Swaps s.window s.mainContext t.mainContext ∧
        ∀ x, r = .ok x → t.mainContext.path = none ∨
          s.window.overflows t.mainContext.past t.mainContext.pending.length s.offset = false := by
  simp only [makeRoom, ends_bind, ends_get, ends_discard, ends_onBench]
  apply (Window.ends_ensureRoom _ _ s.toWorkbench).mono
  rintro r b ⟨h, hfits⟩
  cases r with
  | error e => exact ⟨rfl, h, by rintro _ ⟨⟩⟩
  | ok x => exact ⟨rfl, h, fun _ _ => hfits x rfl⟩

/-- The part of an evaluation before the step is fed. The reason is given if the session cannot go
on. -/
def arrive : SessionM (Option StopReason) := do
  cutPending (← get).window.maxStep
  let s ← get
  if s.config.predict = -2 && s.overflows then
    report .contextFull
    return some .contextFull
  else
    makeRoom
    let s ← get
    if s.room = 0 then
      report (.noRoom s.progress.past s.window.keep)
      return some .contextFull
    else
      cutPending s.room
      return none

/-- What arriving comes to. -/
theorem ends_arrive (s : Session) :
    Ends arrive s fun r t => t.settled = s.settled ∧
      Arrived s.window s.offset s.mainContext r t.mainContext := by
  simp only [arrive, ends_bind, ends_get]
  apply (ends_cutPending _ s).mono
  rintro r s₁ ⟨hs₁, hv₁⟩
  have hstop (b : Except SessionError (Option StopReason)) (hb : b ≠ .ok none) :
      Arrived s.window s.offset s.mainContext b s₁.mainContext := by
    rw [hv₁]
    exact Arrived.stopped Relation.ReflTransGen.refl hb
  cases r with
  | error e => exact ⟨hs₁, hstop _ (by rintro ⟨⟩)⟩
  | ok _ =>
    simp only [ends_bind, ends_get, ends_ite, ends_report, ends_pure]
    split
    · exact ⟨hs₁, hstop _ (by rintro ⟨⟩)⟩
    · apply (ends_makeRoom s₁).mono
      rintro r s₂ ⟨hs₂, hv₂, hfits⟩
      rw [hs₁] at hs₂
      have hw₁ := window_of_settled hs₁
      have ho₁ := offset_of_settled hs₁
      rw [hv₁, hw₁] at hv₂
      cases r with
      | error e => exact ⟨hs₂, Arrived.stopped hv₂ (by rintro ⟨⟩)⟩
      | ok x =>
        replace hfits := hfits x rfl
        rw [hw₁, ho₁] at hfits
        dsimp only
        split
        · exact ⟨hs₂, Arrived.stopped hv₂ (by rintro ⟨⟩)⟩
        · next hroom =>
          have hr : s₂.room = s.window.room s₂.mainContext.past s.offset := by
            rw [← window_of_settled hs₂, ← offset_of_settled hs₂]
            rfl
          rw [hr] at hroom ⊢
          apply (ends_cutPending _ s₂).mono
          rintro r s₃ ⟨hs₃, hv₃⟩
          rw [hs₂] at hs₃
          have ha (b : Except SessionError (Option StopReason)) :
              Arrived s.window s.offset s.mainContext b s₃.mainContext := by
            rw [hv₃]
            exact Arrived.ready hv₂ (by omega) hfits
          cases r <;> exact ⟨hs₃, ha _⟩

/-- Skips what the session holds of a step, and feeds the rest to both contexts. -/
def feedRest : SessionM Unit := do
  advance Progress.reuse
  feedGuidance
  feedMain

/-- A step is fed once it has arrived. -/
theorem evaluate_eq : evaluate = (do
    match ← arrive with
    | some reason => return some reason
    | none =>
      feedRest
      return none) := by
  simp only [evaluate, swapAndFeed, feedPending, arrive, feedRest, bind_assoc]
  congr 1
  funext s
  congr 1
  funext _
  congr 1
  funext s
  split
  · simp only [bind_assoc, pure_bind]
  · simp only [bind_assoc]
    congr 1
    funext _
    congr 1
    funext s
    split <;> simp only [bind_assoc, pure_bind]

end Session

end Dialogue
