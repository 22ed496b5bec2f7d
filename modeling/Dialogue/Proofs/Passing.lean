import Dialogue.Proofs.Evaluating
/-!
# A pass and the main context

What a pass can make of the main context: the pending tokens are evaluated, and then the next step
is taken, from the queue or with a draw.
-/

namespace Dialogue

open Effect

namespace MainContext

/-- Moves up to `n` queued tokens into the next step. -/
def drain (v : MainContext) (n : Nat) : MainContext :=
  { v with
    pending := v.pending ++ (v.queue.drop v.queueRead).take n
    queueRead := v.queueRead + ((v.queue.drop v.queueRead).take n).length }

end MainContext

/-- What can become of the session file. -/
inductive Saved (v : MainContext) : MainContext → Prop
  /-- It is left alone. -/
  | kept : Saved v v
  /-- It is written. -/
  | written {path : String} {d : Directory} (hp : v.path = some path)
      (hd : v.directory.write path (SessionFile.encode v.logged v.cells.snapshot) = .ok d) :
      Saved v { v with directory := d }
  /-- It cannot be written, and is given up. -/
  | failed : Saved v { v with path := none }

/-- How the next step can be filled, with up to `n` queued tokens at once. -/
inductive Refilled (n : Nat) (v : MainContext) : MainContext → Prop
  /-- The draws are used up. -/
  | spent : Refilled n v v
  /-- The draw fails. -/
  | undrawn {u : MainContext} (hq : v.queue.length ≤ v.queueRead) (h : Saved v u) : Refilled n v u
  /-- A token is drawn. -/
  | drawn {u : MainContext} (hq : v.queue.length ≤ v.queueRead) (h : Saved v u) (token : Token) :
      Refilled n v { u with pending := u.pending ++ [token] }
  /-- Tokens are taken from the queue. -/
  | drained : Refilled n v (v.drain n)

/-- What taking the next step can make of the main context. -/
inductive Stepped (n : Nat) (v : MainContext) : MainContext → Prop
  | intro {u : MainContext} (h : Refilled n (v.cut 0) u) (tokens : List Token) :
      Stepped n v { u with queue := u.queue ++ tokens }

private theorem Refilled.stepped {n : Nat} {v u : MainContext} (h : Refilled n (v.cut 0) u) :
    Stepped n v u := by
  have hs := Stepped.intro h []
  rwa [List.append_nil] at hs

/-- What a pass can make of the main context. -/
inductive Passed (w : Window) (offset : Int) (n : Nat) (v : MainContext) : MainContext → Prop
  /-- The turn ends with the evaluation. -/
  | ended {r : Except SessionError (Option StopReason)} {u : MainContext}
      (h : Evaluated w offset n v r u) : Passed w offset n v u
  /-- The next step is taken. -/
  | stepped {u u' : MainContext} (h : Evaluated w offset n v (.ok none) u)
      (hs : Stepped (max n 1) u u') : Passed w offset n v u'

/-! ### What taking a step leaves alone -/

private theorem Saved.past_eq {v u : MainContext} (h : Saved v u) : u.past = v.past := by
  cases h <;> rfl

private theorem Saved.calls_eq {v u : MainContext} (h : Saved v u) : u.calls = v.calls := by
  cases h <;> rfl

/-- The next step is taken after the session file was saved, if it is to be saved. -/
theorem Stepped.exists_saved {n : Nat} {v u : MainContext} (h : Stepped n v u) :
    ∃ t pending queue queueRead, Saved (v.cut 0) t ∧
      (t.directory = v.directory ∨ v.queue.length ≤ v.queueRead) ∧
        u = { t with pending, queue, queueRead } := by
  obtain ⟨hr, tokens⟩ := h
  cases hr with
  | spent => exact ⟨_, _, _, _, Saved.kept, .inl rfl, rfl⟩
  | undrawn hq hs => exact ⟨_, _, _, _, hs, .inr hq, rfl⟩
  | drawn hq hs => exact ⟨_, _, _, _, hs, .inr hq, rfl⟩
  | drained => exact ⟨_, _, _, _, Saved.kept, .inl rfl, rfl⟩

/-- Taking the next step makes nothing resident. -/
theorem Stepped.past_eq {n : Nat} {v u : MainContext} (h : Stepped n v u) : u.past = v.past := by
  obtain ⟨_, _, _, _, hs, -, rfl⟩ := h.exists_saved
  exact hs.past_eq

/-- Taking the next step makes no calls on the main context. -/
theorem Stepped.calls_eq {n : Nat} {v u : MainContext} (h : Stepped n v u) :
    u.calls = v.calls := by
  obtain ⟨_, _, _, _, hs, -, rfl⟩ := h.exists_saved
  exact hs.calls_eq

/-! ### Saving -/

namespace Cache

private theorem ends_save (path : String) (b : Workbench) (hp : b.cache.path = some path) :
    Ends (save path b.progress.logged) b fun r b' =>
      match r with
      | .ok _ => Saved b.mainContext b'.mainContext
      | .error _ => b'.mainContext = b.mainContext := by
  simp only [save, ends_bind, ends_adaptExcept, Workbench.ends_call]
  apply (Engine.ends_takeSnapshot b.engine).mono
  intro r e h
  obtain ⟨he, hbytes⟩ := h
  have hv : ({ b with engine := e } : Workbench).mainContext = b.mainContext := by
    simp only [Engine.mainPart, Prod.mk.injEq] at he
    simp only [Workbench.mainContext, he]
  cases r with
  | error cause => exact hv
  | ok state =>
    rw [hbytes state rfl]
    simp only [mapError_ok, ends_get]
    split
    · exact hv
    · next d hd =>
      change Saved b.mainContext
        { ({ b with engine := e } : Workbench).mainContext with directory := d }
      rw [hv]
      exact Saved.written hp hd

/-- Saving a log comes to what can become of the session file. -/
theorem ends_saveOrDisable {ε : Type} (b : Workbench) :
    Ends (Cache.saveOrDisable b.progress.logged : WorkM ε Bool) b fun _ b' =>
      Saved b.mainContext b'.mainContext := by
  have hkept : Saved b.mainContext b.mainContext := Saved.kept
  simp only [saveOrDisable, ends_bind, ends_get]
  cases hp : b.cache.path with
  | none => exact hkept
  | some path =>
    simp only [ends_ite, ends_pure]
    split
    · exact hkept
    · simp only [saveOrGiveUp, ends_bind, ends_attempt]
      apply (ends_save path b hp).mono
      intro r b' h
      cases r with
      | ok _ => exact h
      | error e =>
        have hv : b'.mainContext = b.mainContext := h
        simp only [giveUp, ends_bind, Workbench.ends_report, disable, ends_modify, ends_pure]
        change Saved b.mainContext { b'.mainContext with path := none }
        rw [hv]
        exact Saved.failed

end Cache

namespace Session

/-- Saving the prompt does no more to the main context than to save it. -/
theorem ends_savePrompt (s : Session) :
    Ends savePrompt s fun _ t =>
      t.settled = s.settled ∧ Saved s.mainContext t.mainContext := by
  simp only [savePrompt, ends_bind, ends_get, ends_onlyIf]
  split
  · rw [ends_advance]
    simp only [ends_discard, ends_onBench]
    have hsave := Cache.ends_saveOrDisable (ε := SessionError) { s.toWorkbench with
      progress := { s.progress with savePending := false } }
    apply hsave.mono
    intro r b h
    cases r <;> exact ⟨rfl, h⟩
  · exact ⟨trivial, Saved.kept⟩

private theorem keeps_settledAndMain_accept (token : Token) (sampled : Bool) :
    Keeps settledAndMain (accept token sampled) := by
  apply Keeps.bind
  · apply keeps_settledAndMain_call
    exact Engine.keeps_mainPart_note rfl
  · intro _
    exact keeps_settledAndMain_advance fun _ => rfl

private theorem ends_drawNext (s : Session) :
    Ends drawNext s fun _ t => t.settled = s.settled ∧ ∃ u, Saved s.mainContext u ∧
      (t.mainContext = u ∨
        ∃ token, t.mainContext = { u with pending := u.pending ++ [token] }) := by
  simp only [drawNext, ends_bind]
  apply (ends_savePrompt s).mono
  rintro r t ⟨hs, hv⟩
  cases r with
  | error e => exact ⟨hs, _, hv, .inl rfl⟩
  | ok _ =>
    simp only [ends_get]
    apply (Ends.keeps (keeps_settledAndMain_call (Engine.keeps_mainPart_sample _))).mono
    intro r u hu
    have hsu := (settledAndMain_eq hu).1.trans hs
    cases r with
    | error e => exact ⟨hsu, _, hv, .inl (settledAndMain_eq hu).2⟩
    | ok token =>
      apply (Ends.keeps (keeps_settledAndMain_accept token true)).mono
      intro r u' hu'
      rw [hu] at hu'
      have hsu' := (settledAndMain_eq hu').1.trans hs
      cases r with
      | error e => exact ⟨hsu', _, hv, .inl (settledAndMain_eq hu').2⟩
      | ok _ =>
        refine ⟨hsu', _, hv, .inr ⟨token, ?_⟩⟩
        change { u'.mainContext with pending := u'.mainContext.pending ++ [token] } = _
        rw [(settledAndMain_eq hu').2]

private theorem ends_forM_takeQueued (l : List Token) (s : Session) :
    Ends (l.forM takeQueued) s fun _ t => t.settled = s.settled ∧ t.mainContext =
      { s.mainContext with
        pending := s.mainContext.pending ++ l
        queueRead := s.mainContext.queueRead + l.length } := by
  induction l generalizing s with
  | nil =>
    rw [List.append_nil]
    exact ⟨rfl, rfl⟩
  | cons token l ih =>
    obtain ⟨t, ht, hs, hv⟩ : ∃ t, takeQueued token s = .ok () t ∧ t.settled = s.settled ∧
        t.mainContext =
          { s.mainContext with
            pending := s.mainContext.pending ++ [token]
            queueRead := s.mainContext.queueRead + 1 } := by
      have hcalls := Engine.mainCalls_push_other (c := .accept token false) rfl s.engine.calls
      refine ⟨_, rfl, rfl, ?_⟩
      simp only [Workbench.mainContext, Engine.mainCalls, hcalls, Progress.remember]
    change Ends (takeQueued token >>= fun _ => l.forM takeQueued) s _
    rw [ends_bind, ends_iff_of_eq_ok ht]
    apply (ih t).mono
    rintro _ u ⟨hsu, hu⟩
    refine ⟨hsu.trans hs, ?_⟩
    rw [hu, hv, List.append_assoc, List.length_cons, List.singleton_append,
      Nat.add_right_comm, Nat.add_assoc]

private theorem ends_refill (s : Session) :
    Ends refill s fun _ t => t.settled = s.settled ∧
      Refilled (max s.config.batchSize 1) s.mainContext t.mainContext := by
  simp only [refill, ends_bind, ends_get, ends_ite]
  split
  · next h =>
    have hq : s.mainContext.queue.length ≤ s.mainContext.queueRead := by
      simp only [Bool.and_eq_true, Progress.queueDrained, decide_eq_true_eq] at h
      exact h.1
    rw [enter, ends_modify]
    dsimp only
    split
    · exact ⟨rfl, Refilled.spent⟩
    · apply (ends_drawNext _).mono
      rintro r t ⟨hs, u, hu, ht | ⟨token, ht⟩⟩
      · rw [ht]
        exact ⟨hs, Refilled.undrawn hq hu⟩
      · rw [ht]
        exact ⟨hs, Refilled.drawn hq hu token⟩
  · simp only [enter, ends_modify, drainQueue, ends_bind, ends_get, ends_report]
    apply (ends_forM_takeQueued _ _).mono
    rintro r t ⟨hs, ht⟩
    rw [ht]
    exact ⟨hs, Refilled.drained⟩

/-- Showing a step concerns neither what is settled nor the main context. -/
theorem keeps_settledAndMain_display : Keeps settledAndMain display := by
  apply Keeps.bind Keeps.get
  intro s
  apply Keeps.onlyIf
  apply Keeps.bind (keeps_settledAndMain_enter _)
  intro _
  apply Keeps.forM
  intro token _
  apply Keeps.bind (keeps_settledAndMain_write _)
  intro _
  exact Keeps.modify fun _ => rfl

/-! ### Ending a turn -/

/-- Whether a computation does no more to the main context than to queue tokens. -/
def Queues {α : Type} (x : SessionM α) : Prop :=
  ∀ s, Ends x s fun _ t => t.settled = s.settled ∧ ∃ tokens,
    t.mainContext = { s.mainContext with queue := s.mainContext.queue ++ tokens }

/-- What leaves the main context alone queues nothing. -/
theorem Queues.of_keeps {α : Type} {x : SessionM α} (h : Keeps settledAndMain x) : Queues x := by
  intro s
  apply (Ends.keeps h).mono
  intro r t ht
  refine ⟨(settledAndMain_eq ht).1, [], ?_⟩
  rw [(settledAndMain_eq ht).2, List.append_nil]

/-- Two steps queue no more than both do. -/
theorem Queues.bind {α β : Type} {x : SessionM α} {g : α → SessionM β} (hx : Queues x)
    (hg : ∀ a, Queues (g a)) : Queues (x >>= g) := by
  intro s
  rw [ends_bind]
  apply (hx s).mono
  rintro r t ⟨hs, tokens, ht⟩
  cases r with
  | error e => exact ⟨hs, tokens, ht⟩
  | ok a =>
    apply (hg a t).mono
    rintro r u ⟨hsu, more, hu⟩
    refine ⟨hsu.trans hs, tokens ++ more, ?_⟩
    rw [hu, ht, List.append_assoc]

private theorem queues_queueAntiprompt : Queues queueAntiprompt := by
  apply Queues.bind (Queues.of_keeps Keeps.get)
  intro s
  split
  · exact Queues.of_keeps (Keeps.pure _)
  · apply Queues.bind
    · apply Queues.of_keeps
      exact keeps_settledAndMain_call (Engine.keeps_mainPart_tokenize _ _ _)
    · intro tokens t
      exact ⟨rfl, tokens, rfl⟩

private theorem keeps_settledAndMain_reportAntiprompt : Keeps settledAndMain reportAntiprompt := by
  apply Keeps.bind Keeps.get
  intro s
  split
  · exact Keeps.pure _
  · exact keeps_settledAndMain_report _

private theorem queues_handOver : Queues handOver := by
  apply Queues.bind (Queues.of_keeps keeps_settledAndMain_reportAntiprompt)
  intro _
  apply Queues.bind (Queues.of_keeps Keeps.get)
  intro s
  apply Queues.bind
  · cases s.handback.injects
    · exact Queues.of_keeps (Keeps.pure _)
    · exact queues_queueAntiprompt
  · intro _
    apply Queues.of_keeps
    apply Keeps.bind
    · apply Keeps.onlyIf
      apply Keeps.bind (keeps_settledAndMain_report _)
      intro _
      exact keeps_settledAndMain_write _
    · intro _
      apply Keeps.bind (keeps_settledAndMain_advance fun _ => rfl)
      intro _
      exact Keeps.pure _

/-- Finishing a turn concerns neither what is settled nor the main context. -/
theorem keeps_settledAndMain_finish (phase : Phase) (reason : StopReason) :
    Keeps settledAndMain (finish phase reason) := by
  apply Keeps.bind (keeps_settledAndMain_enter _)
  intro _
  apply Keeps.bind Keeps.get
  intro _
  apply Keeps.bind (keeps_settledAndMain_report _)
  intro _
  exact Keeps.pure _

private theorem keeps_settledAndMain_finishIfUserTurn (reason : StopReason) :
    Keeps settledAndMain (finishIfUserTurn reason) := by
  apply Keeps.bind Keeps.get
  intro s
  apply Keeps.ite
  · apply Keeps.bind (keeps_settledAndMain_finish _ _)
    intro _
    exact Keeps.pure _
  · exact Keeps.pure _

private theorem queues_concludeDrained (spent : Bool) : Queues (concludeDrained spent) := by
  apply Queues.bind queues_handOver
  intro handback
  apply Queues.of_keeps
  apply Keeps.ite
  · apply Keeps.bind (keeps_settledAndMain_report _)
    intro _
    apply Keeps.bind (keeps_settledAndMain_finish _ _)
    intro _
    exact Keeps.pure _
  · exact keeps_settledAndMain_finishIfUserTurn _

/-- Deciding whose turn it is does no more to the main context than to queue a reverse prompt. -/
theorem queues_conclude : Queues conclude := by
  apply Queues.bind (Queues.of_keeps Keeps.get)
  intro s
  apply Queues.bind
  · apply Queues.of_keeps
    apply Keeps.onlyIf
    apply Keeps.bind Keeps.get
    intro _
    exact keeps_settledAndMain_advance fun _ => rfl
  · intro _
    split
    · apply Queues.of_keeps
      apply Keeps.bind (keeps_settledAndMain_finish _ _)
      intro _
      exact Keeps.pure _
    · split
      · exact queues_concludeDrained _
      · exact Queues.of_keeps (keeps_settledAndMain_finishIfUserTurn _)

/-! ### A pass -/

/-- What taking the next step comes to. -/
theorem ends_takeStep (s : Session) :
    Ends takeStep s fun _ t => t.settled = s.settled ∧
      Stepped (max s.config.batchSize 1) s.mainContext t.mainContext := by
  simp only [takeStep, ends_bind]
  apply (ends_clearPending s).mono
  rintro _ t₁ ⟨rfl, hs₁, hv₁⟩
  apply (ends_refill t₁).mono
  rintro r t₂ ⟨hs₂, hv₂⟩
  rw [hs₁] at hs₂
  rw [hv₁, config_of_settled hs₁] at hv₂
  cases r with
  | error e => exact ⟨hs₂, hv₂.stepped⟩
  | ok _ =>
    apply (Ends.keeps keeps_settledAndMain_display).mono
    intro r t₃ h₃
    have hs₃ := (settledAndMain_eq h₃).1.trans hs₂
    rw [← (settledAndMain_eq h₃).2] at hv₂
    cases r with
    | error e => exact ⟨hs₃, hv₂.stepped⟩
    | ok _ =>
      apply (queues_conclude t₃).mono
      rintro r t₄ ⟨hs₄, tokens, hv₄⟩
      rw [hv₄]
      exact ⟨hs₄.trans hs₃, Stepped.intro hv₂ tokens⟩

/-- What is known of the evaluation is known before the next step is taken. -/
theorem ends_pass_of_evaluatePending {P : MainContext → Prop} {s : Session}
    (h : Ends evaluatePending s fun _ t => P t.mainContext) :
    Ends pass s fun _ t => ∃ v, P v ∧ (t.mainContext = v ∨ ∃ n, Stepped n v t.mainContext) := by
  rw [pass, ends_bind]
  apply h.mono
  intro r t ht
  match r with
  | .error e => exact ⟨_, ht, .inl rfl⟩
  | .ok (some reason) =>
    simp only [ends_bind, ends_pure]
    apply (Ends.keeps (keeps_settledAndMain_finish _ _)).mono
    intro r u hu
    rw [← (settledAndMain_eq hu).2] at ht
    cases r <;> exact ⟨_, ht, .inl rfl⟩
  | .ok none =>
    apply (ends_takeStep t).mono
    rintro r u ⟨-, hu⟩
    exact ⟨_, ht, .inr ⟨_, hu⟩⟩

/-- What a pass comes to. -/
theorem ends_pass (s : Session) :
    Ends pass s fun _ t => t.settled = s.settled ∧
      Passed s.window s.offset s.config.batchSize s.mainContext t.mainContext := by
  rw [pass, ends_bind]
  apply (ends_evaluatePending s).mono
  rintro r t ⟨hs, hv⟩
  match r with
  | .error e => exact ⟨hs, Passed.ended hv⟩
  | .ok (some reason) =>
    simp only [ends_bind, ends_pure]
    apply (Ends.keeps (keeps_settledAndMain_finish _ _)).mono
    intro r u hu
    have hp : Passed s.window s.offset s.config.batchSize s.mainContext u.mainContext := by
      rw [(settledAndMain_eq hu).2]
      exact Passed.ended hv
    cases r <;> exact ⟨(settledAndMain_eq hu).1.trans hs, hp⟩
  | .ok none =>
    apply (ends_takeStep t).mono
    rintro r u ⟨hsu, hu⟩
    rw [config_of_settled hs] at hu
    exact ⟨hsu.trans hs, Passed.stepped hv hu⟩

/-- A pass does to the main context what a pass can do. -/
theorem passed_left (s : Session) :
    Passed s.window s.offset s.config.batchSize s.mainContext (left (pass s)).mainContext := by
  have h := (ends_pass s).mono fun _ _ h => h.2
  exact h.left

end Session

end Dialogue
