import Dialogue.Proofs.GuidanceBeginning
import Dialogue.Proofs.RedactedSessions
/-!
# Beginning under a redaction

What is done before a session begins is in step with itself under a redaction that shows all of the
session file, as long as removals show, and loading the file is as long as restoring does.
-/

namespace Dialogue

open Effect

namespace Workbench

variable {ε α : Type} {hides : Service → Bool}

/-- Whether all that a computation depends on shows, and all that it does, and it leaves the files
and the session cache alone. -/
abbrev Prepares (hides : Service → Bool) (x : WorkM ε α) : Prop :=
  InStep (redacted (.over hides)) (fun w => (w.hidden (.over hides), w.directory, w.cache)) x x

private theorem prepares_of_unaware {x : WorkM ε α} (h : Unaware (.over hides) x) :
    Prepares hides x :=
  h.mono fun v => (v.1, v.2.1, v.2.2.2)

private theorem prepares_report (e : Event) : Prepares hides (report e : WorkM ε Unit) :=
  prepares_of_unaware (unaware_report e)

private theorem prepares_call {x : EngineM α} (h : Engine.Unaware hides x) :
    Prepares hides (call x) :=
  prepares_of_unaware (unaware_call h)

private theorem prepares_ask {x : EngineM α} (h : Engine.Unaware hides x) :
    Prepares hides (ask x) :=
  .adaptExcept _ (prepares_call h)

private theorem prepares_settle (now : Nat) (config : Config) :
    Prepares hides (settle now config) := by
  unfold settle
  split
  · exact .throw _
  · exact .bind (.forM fun _ _ => prepares_report _) fun _ => .pure _

private theorem prepares_promptTokens (config : Config) (logged : List Token) :
    Prepares hides (promptTokens config logged) := by
  refine .reads (fun _ => rfl) fun _ => ?_
  refine .ite ?_ (.bind (.pure _) fun _ => .pure _)
  exact .bind (prepares_ask (Engine.unaware_tokenize _ _ _)) fun _ => .pure _

private theorem prepares_startGuidance (config : Config) :
    Prepares hides (startGuidance config) := by
  have htokenizes (text : String) (addBos : Bool) :
      Prepares hides (call (Engine.tokenize text addBos true)) :=
    prepares_call (Engine.unaware_tokenize _ _ _)
  refine .reads (fun _ => rfl) fun _ => ?_
  refine .ite (.pure _) ?_
  refine .ite (.bind (prepares_report _) fun _ => .pure _) ?_
  refine .bind (.adaptExcept _ ?_) fun _ => .pure _
  refine .bind (htokenizes _ _) fun _ => ?_
  refine .bind (htokenizes _ _) fun _ => ?_
  exact .bind (prepares_report _) fun _ => .pure _

private theorem prepares_startCache (h : hides .remove = false) (config : Config)
    (queue logged : List Token) : Prepares hides (startCache config queue logged) := by
  have haligns : Prepares hides (Cache.align queue (config.prompt = "")) := by
    refine .reads (fun _ => rfl) fun _ => ?_
    refine .bind (prepares_report _) fun _ => ?_
    refine .bind (prepares_call (Engine.unaware_removeCells h _ _ _)) fun _ => ?_
    refine .bind (.onlyIf _ ?_) fun _ => .pure _
    exact .bind (prepares_report _) fun _ => .change (fun _ => rfl) fun _ => rfl
  exact .ite (.pure _) (.adaptExcept _ haligns)

private theorem heedless_loadOrColdStart (h : hides .restoreSnapshot = false) (capacity : Nat) :
    Heedless (.over hides) (Cache.loadOrColdStart capacity : WorkM ε (List Token)) := by
  have hreports {ε : Type} (e : Event) : Heedless (.over hides) (report e : WorkM ε Unit) :=
    (unaware_report e).heedless
  have hrestores (bytes : List UInt8) :
      Heedless (.over hides) (call (Engine.restoreSnapshot bytes)) :=
    (unaware_call (m := .over hides) (Engine.unaware_restoreSnapshot h bytes)).heedless
  have hload (path : String) : Heedless (.over hides) (Cache.load path capacity) := by
    refine .reads (fun _ => rfl) fun w => ?_
    split
    · exact .pure _
    · exact .throw _
    · split
      · exact .throw _
      · exact .bind (.adaptExcept _ (hrestores _)) fun _ => .bind (hreports _) fun _ => .pure _
  have hloads (path : String) :
      Heedless (.over hides) (Cache.loadOrGiveUp path capacity : WorkM ε (List Token)) := by
    refine .bind (.attempt (hload path)) fun r => ?_
    cases r with
    | ok tokens => exact .bind (hreports _) fun _ => .pure _
    | error error => exact .bind (.bind (hreports _) fun _ => heedless_disable) fun _ => .pure _
  refine .reads (fun _ => rfl) fun w => ?_
  split
  · exact .pure _
  · refine .bind (hreports _) fun _ => ?_
    refine .reads (fun _ => rfl) fun _ => ?_
    exact .ite (hloads _) (.bind (hreports _) fun _ => .pure _)

/-- A session is prepared alike whatever is hidden, as long as removals show. -/
theorem prepares_prepareLoaded (h : hides .remove = false) (now : Nat) (config : Config)
    (size : Int) (addsBos : Bool) (logged : List Token) :
    Prepares hides (prepareLoaded now config size addsBos logged) := by
  refine .bind (prepares_ask (Engine.unaware_setSeed _)) fun _ => ?_
  refine .bind (prepares_promptTokens _ _) fun _ => ?_
  refine .bind (.failIf _ _) fun _ => ?_
  refine .bind (prepares_startGuidance _) fun _ => ?_
  refine .bind (.change (fun _ => rfl) fun _ => rfl) fun _ => ?_
  refine .bind (prepares_startCache h _ _ _) fun _ => ?_
  refine .bind (prepares_ask (Engine.unaware_tokenize _ _ _)) fun _ => ?_
  refine .bind (prepares_ask (Engine.unaware_tokenize _ _ _)) fun _ => ?_
  refine .bind (prepares_report _) fun _ => ?_
  refine .bind (.forM fun _ _ => prepares_report _) fun _ => ?_
  exact .bind (prepares_report _) fun _ => .pure _

private theorem heedless_openCache (h : hides .restoreSnapshot = false) (config : Config)
    (size : Nat) :
    Heedless (.over hides) (openCache config size) :=
  .bind (.onlyIf _ (unaware_report _).heedless) fun _ =>
    .bind (.change (fun _ => rfl) fun _ => rfl) fun _ => heedless_loadOrColdStart h _

private theorem heedless_prepare (hremove : hides .remove = false)
    (hrestore : hides .restoreSnapshot = false) (now : Nat) (config : Config) :
    Heedless (.over hides) (prepare now config) := by
  rw [prepare_eq]
  refine .bind ((prepares_settle _ _).mono Prod.fst) fun _ => ?_
  refine .reads (fun _ => rfl) fun _ => ?_
  refine .bind (heedless_openCache hrestore _ _) fun _ => ?_
  exact (prepares_prepareLoaded hremove _ _ _ _ _).mono Prod.fst

/-- No call of a hidden service is made before a session begins. -/
theorem hidden_of_start (hides : Service → Bool) (hremove : hides .remove = false)
    (hrestore : hides .restoreSnapshot = false) {now : Nat} {config : Config} {engine : Engine}
    {directory : Directory} {s : Session} {w : Workbench}
    (h : Session.start now config engine directory = .ok s w) :
    s.hidden (.over hides) = engine.only hides := by
  have hkeeps : Ends (startSession now config) (fresh engine directory) fun r _ =>
      ∀ s, r = .ok s → s.hidden (.over hides) = engine.only hides := by
    rw [startSession_eq, ends_bind]
    apply (Ends.keeps (heedless_prepare hremove hrestore now config).keeps_left).mono
    intro r w hw
    cases r with
    | error e =>
      intro s hs
      cases hs
    | ok v =>
      simp only [ends_bind, ends_get, ends_pure]
      intro s hs
      rw [← Except.ok.inj hs]
      exact hw
  exact hkeeps.of_ok h s rfl

/-- With an engine that looks the same a session begins that looks the same. -/
theorem redacted_of_start (hides : Service → Bool) (hremove : hides .remove = false)
    (hrestore : hides .restoreSnapshot = false) {now : Nat} {config : Config}
    {engine engine' : Engine} {directory : Directory} {s : Session} {w : Workbench}
    (hengine : engine'.without hides = engine.without hides)
    (h : Session.start now config engine directory = .ok s w) :
    ∃ s' w', Session.start now config engine' directory = .ok s' w' ∧
      s.redacted (.over hides) = s'.redacted (.over hides) := by
  have hfresh : (fresh engine directory).redacted (.over hides) =
      (fresh engine' directory).redacted (.over hides) :=
    congrArg (Workbench.mk · directory #[] _ {}) hengine.symm
  rw [Session.start, startSession_eq] at h
  obtain ⟨v, w₁, hv, h⟩ := bind_eq_ok h
  obtain ⟨_, _, ⟨⟩, h⟩ := bind_eq_ok h
  cases h
  obtain ⟨w', hv', hw⟩ :=
    (heedless_prepare hremove hrestore now config).exists_ok hfresh hv
  have hsession (w : Workbench) : (v.session w).redacted (.over hides) =
      { v.session (w.redacted (.over hides)) with
        config := { v.config with cachePath := none } } := rfl
  refine ⟨v.session w', w', ?_, ?_⟩
  · rw [Session.start, startSession_eq]
    rw [bind_eq_of_ok hv']
    rfl
  · rw [hsession, hsession, hw]

end Workbench

end Dialogue
