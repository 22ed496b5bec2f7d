import Dialogue.Proofs.Actions
import Dialogue.Proofs.Throughout
/-!
# What a session does for its file

As far as the session file is concerned a request is made up of swaps, saves before a draw, and work
that leaves the file alone, whatever fails. With new beginnings and with closing, these are all that
is ever done for the file. `FileStep` lists the former, and `FileChanges` is the sequences of both.
-/

namespace Dialogue

open Effect

/-- The redaction that hides the snapshots that are taken. -/
abbrev Redaction.snapshots : Redaction := .over (· = .takeSnapshot)

namespace Session

variable {α β : Type} {s t u : Session}

/-- What a request does next, as far as the session file is concerned. -/
inductive FileStep (s : Session) : Session → Prop
  /-- The session file is left alone. -/
  | work {t : Session} (hhidden : t.hidden .snapshots = s.hidden .snapshots)
      (hfilesAndSettled : t.filesAndSettled = s.filesAndSettled) : FileStep s t
  /-- The context is swapped, or not if that fails. -/
  | swap (guided : Bool) : FileStep s (left (onBench .engine (s.window.swap guided) s))
  /-- The session file is written before a draw, if it is to be. -/
  | save : FileStep s (left (savePrompt s))

/-- What a request does, as far as the session file is concerned. -/
abbrev FileSteps : Session → Session → Prop := Relation.ReflTransGen FileStep

/-- What is done next for the session file. -/
inductive FileChange (s : Session) : Session → Prop
  /-- A request goes on. -/
  | fileStep {t : Session} (h : FileStep s t) : FileChange s t
  /-- The dialogue begins anew. -/
  | reset : FileChange s s.reset
  /-- The session is closed. -/
  | close : FileChange s (left (shutdown s))

/-- What is done for the session file from one moment to a later one. -/
abbrev FileChanges : Session → Session → Prop := Relation.ReflTransGen FileChange

/-- What a request does is done for the session file. -/
theorem FileSteps.fileChanges (h : FileSteps s t) : FileChanges s t := by
  induction h with
  | refl => exact .refl
  | tail _ h ih => exact ih.tail (.fileStep h)

/-! ### Computations made up of file steps -/

/-- What comes after a computation is made up of file steps from where that ends. -/
theorem fileSteps_bind {x : SessionM α} {g : α → SessionM β} (hx : FileSteps s (left (x s)))
    (hg : ∀ a t, x s = .ok a t → FileSteps t (left (g a t))) :
    FileSteps s (left ((x >>= g) s)) := by
  cases hxs : x s with
  | ok a t =>
    rw [hxs] at hx
    rw [bind_eq_of_ok hxs]
    exact hx.trans (hg a t hxs)
  | error e t =>
    rw [hxs] at hx
    rw [bind_eq_of_error hxs]
    exact hx

/-- Whether a computation is made up of file steps, also where it fails. -/
def FileSteps.In (x : SessionM α) : Prop := ∀ s, FileSteps s (left (x s))

namespace FileSteps.In

private theorem of_unaware {x : SessionM α} (h : Unaware .snapshots x) : In x := fun s =>
  have hkept := Prod.mk.inj (h.keeps_left s)
  .single (.work hkept.1 hkept.2)

private theorem bind {x : SessionM α} {g : α → SessionM β} (hx : In x) (hg : ∀ a, In (g a)) :
    In (x >>= g) := fun s => fileSteps_bind (hx s) fun a t _ => hg a t

private theorem get : In (MonadState.get : SessionM Session) := fun _ => .refl

private theorem pure (a : α) : In (Pure.pure a : SessionM α) := fun _ => .refl

private theorem ite {c : Prop} [Decidable c] {x y : SessionM α} (hx : In x) (hy : In y) :
    In (if c then x else y) := by
  split
  · exact hx
  · exact hy

end FileSteps.In

/-! ### Making room -/

/-- What comes first on the bench is followed by the rest there. -/
theorem onBench_bind {ε : Type} (wrap : ε → SessionError) (x : WorkM ε α) (g : α → WorkM ε β) :
    onBench wrap (x >>= g) = onBench wrap x >>= fun a => onBench wrap (g a) := by
  funext s
  change onBench wrap (EStateM.bind x g) s = EStateM.bind (onBench wrap x) _ s
  simp only [onBench, EStateM.adaptExcept, onPart, EStateM.bind]
  cases x s.toWorkbench with
  | error e w => rfl
  | ok a w => rfl

/-- Room is made by swaps. -/
theorem fileSteps_makeRoom : FileSteps.In makeRoom := by
  have hswaps (w : Window) (guided : Bool) (l : List Int) (s : Session) (hs : s.window = w) :
      FileSteps s (left (onBench .engine (l.mapM fun _ => w.swap guided) s)) := by
    induction l generalizing s with
    | nil => exact .refl
    | cons past l ih =>
      rw [List.mapM_cons, onBench_bind]
      refine fileSteps_bind (hs ▸ .single (.swap guided)) fun _ t ht => ?_
      have hsettled : Keeps settled (onBench .engine (w.swap guided)) :=
        keeps_onBench (fun _ _ => rfl) _ _
      rw [onBench_bind]
      have hwindow := (window_of_settled (hsettled.of_ok ht)).trans hs
      exact fileSteps_bind (ih t hwindow) fun _ _ _ => .refl
  intro s
  refine fileSteps_bind (x := onBench .engine _) (g := fun _ => Pure.pure ()) ?_ fun _ _ _ => .refl
  rw [Window.ensureRoom, onBench_bind]
  refine fileSteps_bind .refl fun w t ht => ?_
  cases ht
  rw [onBench_bind]
  exact fileSteps_bind (hswaps _ _ _ s rfl) fun _ _ _ => .refl

/-! ### Requests -/

/-- Evaluating the pending tokens is made up of file steps. -/
theorem fileSteps_evaluatePending : FileSteps.In evaluatePending := by
  have harrives : FileSteps.In arrive := by
    refine .bind .get fun _ => ?_
    refine .bind (.of_unaware (unaware_cutPending _)) fun _ => ?_
    refine .bind .get fun _ => ?_
    refine .ite (.bind (.of_unaware (unaware_report _)) fun _ => .pure _) ?_
    refine .bind fileSteps_makeRoom fun _ => ?_
    refine .bind .get fun _ => ?_
    refine .ite (.bind (.of_unaware (unaware_report _)) fun _ => .pure _) ?_
    exact .bind (.of_unaware (unaware_cutPending _)) fun _ => .pure _
  refine .bind .get fun s => .ite (.pure _) ?_
  rw [evaluate_eq]
  refine .bind harrives fun r => ?_
  cases r with
  | some reason => exact .pure _
  | none => exact .bind (.of_unaware (unaware_feedRest fun _ => rfl)) fun _ => .pure _

/-- Taking the next step is made up of file steps. -/
theorem fileSteps_takeStep : FileSteps.In takeStep := by
  have hdraws : FileSteps.In drawNext := by
    refine .bind (fun _ => .single .save) fun _ => ?_
    refine .bind .get fun _ => ?_
    refine .bind (.of_unaware (unaware_call (Engine.unaware_sample rfl _))) fun _ => ?_
    refine .bind (.of_unaware (unaware_accept _ _)) fun _ => ?_
    refine .bind (.of_unaware (unaware_report _)) fun _ => ?_
    exact .of_unaware (.change (fun _ => rfl) fun _ => rfl)
  have hrefills : FileSteps.In refill := by
    refine .bind .get fun _ => ?_
    refine .ite ?_ ?_
    · refine .bind (.of_unaware (unaware_enter _)) fun _ => ?_
      exact .ite (.of_unaware (unaware_report _)) hdraws
    · exact .bind (.of_unaware (unaware_enter _)) fun _ => .of_unaware unaware_drainQueue
  refine .bind (.of_unaware unaware_clearPending) fun _ => ?_
  refine .bind hrefills fun _ => ?_
  exact .bind (.of_unaware unaware_display) fun _ => .of_unaware unaware_conclude

private theorem fileSteps_pass : FileSteps.In pass := by
  refine .bind fileSteps_evaluatePending fun r => ?_
  cases r with
  | some reason => exact .bind (.of_unaware (unaware_finish _ _)) fun _ => .pure _
  | none => exact fileSteps_takeStep

/-- An answer is made up of file steps. -/
theorem fileSteps_answer : FileSteps.In (answer : SessionM Outcome) := by
  intro s
  fun_induction answer s with
  | case1 s e t hpass | case2 s outcome t hpass =>
    have hs := fileSteps_pass s
    rwa [hpass] at hs
  | case3 s t hpass ih =>
    have hs := fileSteps_pass s
    rw [hpass] at hs
    exact hs.trans ih

/-- A request other than to begin anew is made up of file steps. -/
theorem fileSteps_serve (s : Session) (r : Request) (hr : r ≠ .reset) : FileSteps s
    (s.serve r) := by
  have hshows (room : Option Nat) : FileSteps s (s.showing room) := .single (.work rfl rfl)
  match r with
  | .answer room => exact (hshows room).trans (fileSteps_answer _)
  | .query text room => exact (hshows room).trans (FileSteps.In.of_unaware (unaware_query text) _)

/-- Whatever is asked of a session is done for its file. -/
theorem fileChanges_perform (s : Session) (e : Action) : FileChanges s (s.perform e) := by
  match e with
  | .request (.answer room) => exact (fileSteps_serve s (.answer room) nofun).fileChanges
  | .request (.query text room) => exact (fileSteps_serve s (.query text room) nofun).fileChanges
  | .request .reset => exact .single .reset
  | .close => exact .single .close

/-- What is done for the session file over actions. -/
theorem fileChanges_performAll (s : Session) (actions : List Action) :
    FileChanges s (s.performAll actions) :=
  performAll_of_perform (P := FileChanges s) actions (fun t e _ h => h.trans
    (fileChanges_perform t e)) .refl

end Session

end Dialogue
