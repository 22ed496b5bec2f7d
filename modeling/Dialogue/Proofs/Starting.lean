import Dialogue.Proofs.MainContext
import Dialogue.Session.TurnState
import Dialogue.Session.Start
/-!
# How a session begins

What is settled when a session begins, and what its main context amounts to: the cells are those of
the session file, if there is one that can be used, without what the prompt does not agree with.
-/

namespace Dialogue

open Effect Workbench

/-- What loading the session file can make of the main context, and with what tokens. -/
inductive Loaded (file : Option String) (capacity : Nat) (v : MainContext) :
    List Token → MainContext → Prop
  /-- No token is loaded. -/
  | nothing {path : Option String} (h : path = none ∨ path = file) :
      Loaded file capacity v [] { v with path }
  /-- The cells of the file are restored. -/
  | restored {path : String} {bytes state : List UInt8} {tokens : List Token} {cells : Cells}
      (hf : file = some path) (hr : v.directory.read path = .ok bytes)
      (hd : SessionFile.decode capacity bytes = .ok (tokens, state))
      (hc : Cells.ofSnapshot? state = some cells) :
      Loaded file capacity v tokens { v with path := some path, cells }

private theorem Loaded.unloaded {file : Option String} {capacity : Nat} {v : MainContext}
    (h : v.path = none ∨ v.path = file) : Loaded file capacity v [] v := Loaded.nothing h

private theorem Loaded.of_path {file path : Option String} {capacity : Nat} {v u : MainContext}
    {tokens : List Token} (h : Loaded file capacity { v with path } tokens u) :
    Loaded file capacity v tokens u := by
  cases h with
  | nothing h => exact .nothing h
  | restored hf hr hd hc => exact .restored hf hr hd hc

namespace MainContext

/-- What is kept of the tokens of the session file, so that something is left to evaluate. -/
def keptOf (queue logged : List Token) : List Token :=
  if commonLength logged queue = queue.length ∧ queue.length < logged.length then
    logged.take (queue.length - 1)
  else logged

/-- The main context with a prompt queued, and without what the session file holds past the common
beginning with it. -/
def aligned (v : MainContext) (queue logged : List Token) : MainContext :=
  if logged = [] then { v with queue, logged }
  else
    { v with
      queue
      logged := keptOf queue logged
      cells := v.cells.remove (commonLength logged queue) none
      calls := v.calls ++ [.removeCells .main none (commonLength logged queue) none]
      removeFaults := v.removeFaults.tail }

variable (v : MainContext) (queue logged : List Token)

private theorem queue_aligned : (v.aligned queue logged).queue = queue := by
  unfold aligned
  split <;> rfl

/-- It does not matter whether a context is aligned or begins anew first. -/
theorem aligned_restarted :
    v.restarted.aligned queue logged = (v.aligned queue logged).restarted := by
  unfold aligned
  split <;> rfl

end MainContext

/-- Loading counts nothing. -/
theorem Loaded.restarted_eq {file : Option String} {capacity : Nat} {v u : MainContext}
    {tokens : List Token} (h : Loaded file capacity v tokens u) (hv : v.restarted = v) :
    u.restarted = u := by
  rw [← hv] at h
  cases h <;> rfl

/-- What is known of a session that begins. -/
structure Session.Begun (config : Config) (engine : Engine) (directory : Directory) (s : Session) :
    Prop where
  /-- The size of the batches. -/
  batchSize : s.config.batchSize = config.batchSize
  /-- Batches are not empty. -/
  batchSize_pos : 0 < config.batchSize
  /-- How many tokens to draw per turn. -/
  predict : s.config.predict = config.predict
  /-- After how many decode failures in a row a turn is given up. -/
  maxDecodeFailures : s.config.maxDecodeFailures = config.maxDecodeFailures
  /-- The mode. -/
  instruct : s.config.instruct = config.instruct
  /-- Whether all is saved. -/
  cacheAll : s.config.cacheAll = config.cacheAll
  /-- How many positions there are. -/
  size : s.window.size = Number.signedWord engine.contextSize
  /-- A natural number of tokens is kept. -/
  keep : 0 ≤ s.window.keep
  /-- No more is kept than the prompt. -/
  keep_le : s.window.keep ≤ s.progress.queue.length
  /-- There is a prompt. -/
  queue_ne_nil : s.progress.queue ≠ []
  /-- The prompt is no longer than a step can be. -/
  queue_le : s.progress.queue.length ≤ s.window.maxStep
  /-- The main context is that of the file, aligned with the prompt. -/
  mainContext : ∃ logged v, Loaded config.cachePath s.window.size.toNat
      (fresh engine directory).mainContext logged v ∧
    s.mainContext = v.aligned s.progress.queue logged ∧
    s.matched = commonLength logged s.progress.queue
  /-- Nothing was accepted yet. -/
  recent : s.progress.recent = []
  /-- The session stands where a dialogue begins. -/
  anew : s.reset = s

/-! ### The stages of a beginning -/

namespace Workbench

/-- What is settled when a session begins. -/
structure Settlement where
  /-- The resolved configuration. -/
  config : Config
  /-- The bounds of the main context. -/
  window : Window
  /-- What the guidance context is fed, if there is guidance. -/
  guidance : Option Guidance
  /-- The tokens put before the user's turns in instruct mode. -/
  instructLead : List Token
  /-- The tokens put after the user's turns in instruct mode. -/
  instructTail : List Token
  /-- How much of the prompt the session file held. -/
  matched : Nat

/-- All that is done before a session begins. -/
def prepare (now : Nat) (config : Config) : WorkM SessionError Settlement := do
  let config ← settle now config
  let w ← get
  let size := w.contextPositions
  onlyIf (Engine.trainedContextSize < w.engine.contextSize)
    (report (.contextBeyondTraining Engine.trainedContextSize size))
  Cache.replace ⟨config.cachePath, config.cacheReadOnly⟩
  let logged ← Cache.loadOrColdStart size.toNat
  ask (Engine.setSeed (config.seed.getD now))
  let queue ← promptTokens config logged
  let max := Window.maxStep ⟨size, 0⟩
  failIf (max < queue.length) (.config (.promptTooLong queue.length max))
  let keep := config.keptTokens queue.length
  let guidance ← startGuidance config
  advance fun _ => { remaining := config.predict, queue, logged }
  let matched ← startCache config queue logged
  let instructLead ← ask (Engine.tokenize Session.leadText w.engine.addsBos true)
  let instructTail ← ask (Engine.tokenize Session.tailText false true)
  report (.promptQueued queue.length keep)
  config.turnEvents.forM fun e => report e
  report (.ready size config.batchSize config.predict keep)
  return ⟨config, ⟨size, keep⟩, guidance, instructLead, instructTail, matched⟩

/-- The session that begins on a workbench with what was settled. -/
def Settlement.session (v : Settlement) (bench : Workbench) : Session :=
  Session.reset { bench, v with }

/-- A session is prepared, and takes over the workbench. -/
theorem startSession_eq (now : Nat) (config : Config) :
    startSession now config = (do
      let v ← prepare now config
      let bench ← get
      return v.session bench) := by
  simp only [startSession, prepare, Settlement.session, bind_assoc, pure_bind]

/-- What is done before a session begins once its file was loaded. -/
def prepareLoaded (now : Nat) (config : Config) (size : Int) (addsBos : Bool)
    (logged : List Token) : WorkM SessionError Settlement := do
  ask (Engine.setSeed (config.seed.getD now))
  let queue ← promptTokens config logged
  let max := Window.maxStep ⟨size, 0⟩
  failIf (max < queue.length) (.config (.promptTooLong queue.length max))
  let keep := config.keptTokens queue.length
  let guidance ← startGuidance config
  advance fun _ => { remaining := config.predict, queue, logged }
  let matched ← startCache config queue logged
  let instructLead ← ask (Engine.tokenize Session.leadText addsBos true)
  let instructTail ← ask (Engine.tokenize Session.tailText false true)
  report (.promptQueued queue.length keep)
  config.turnEvents.forM fun e => report e
  report (.ready size config.batchSize config.predict keep)
  return ⟨config, ⟨size, keep⟩, guidance, instructLead, instructTail, matched⟩

/-- What is done until the file of a session is loaded, for a context of some size. -/
def openCache (config : Config) (size : Nat) : WorkM SessionError (List Token) := do
  onlyIf (Engine.trainedContextSize < size)
    (report (.contextBeyondTraining Engine.trainedContextSize (Number.signedWord size)))
  Cache.replace ⟨config.cachePath, config.cacheReadOnly⟩
  Cache.loadOrColdStart (Number.signedWord size).toNat

/-- A session is prepared from its settled configuration and what its file holds. -/
theorem prepare_eq (now : Nat) (config : Config) :
    prepare now config = (do
      let config ← settle now config
      let w ← get
      let logged ← openCache config w.engine.contextSize
      prepareLoaded now config w.contextPositions w.engine.addsBos logged) := by
  simp only [prepare, openCache, prepareLoaded, contextPositions, bind_assoc]

/-- The prompt is queued, and what the session file holds past it is dropped. -/
def queuePrompt (now : Nat) (config : Config) (size : Int) (logged : List Token) :
    WorkM SessionError (List Token × Option Guidance × Nat) := do
  ask (Engine.setSeed (config.seed.getD now))
  let queue ← promptTokens config logged
  let max := Window.maxStep ⟨size, 0⟩
  failIf (max < queue.length) (.config (.promptTooLong queue.length max))
  let guidance ← startGuidance config
  advance fun _ => { remaining := config.predict, queue, logged }
  let matched ← startCache config queue logged
  return (queue, guidance, matched)

/-- The texts around the user's turns in instruct mode are spelled. -/
def spellInstruction (addsBos : Bool) : WorkM SessionError (List Token × List Token) := do
  let lead ← ask (Engine.tokenize Session.leadText addsBos true)
  let tail ← ask (Engine.tokenize Session.tailText false true)
  return (lead, tail)

/-- What the session begins with is reported. -/
def announce (config : Config) (size : Int) (count : Nat) : WorkM SessionError Unit := do
  report (.promptQueued count (config.keptTokens count))
  config.turnEvents.forM fun e => report e
  report (.ready size config.batchSize config.predict (config.keptTokens count))

/-- What is prepared of a session once its file is open comes in three stages. -/
theorem prepareLoaded_eq (now : Nat) (config : Config) (size : Int) (addsBos : Bool)
    (logged : List Token) :
    prepareLoaded now config size addsBos logged = (do
      let (queue, guidance, matched) ← queuePrompt now config size logged
      let (lead, tail) ← spellInstruction addsBos
      announce config size queue.length
      return ⟨config, ⟨size, config.keptTokens queue.length⟩, guidance, lead, tail, matched⟩) := by
  simp only [prepareLoaded, queuePrompt, spellInstruction, announce, bind_assoc, pure_bind]

/-- A session begins in stages: its configuration is settled, its file is opened, its prompt is
queued, the texts of instruct mode are spelled, and all that is reported. -/
theorem stages_of_start {now : Nat} {config : Config} {engine : Engine} {directory : Directory}
    {s : Session} {w : Workbench} (h : Session.start now config engine directory = .ok s w) :
    ∃ c logged queue guidance matched lead tail w₁ w₂ w₃ w₄,
      settle now config (fresh engine directory) = .ok c w₁ ∧
      openCache c w₁.engine.contextSize w₁ = .ok logged w₂ ∧
      queuePrompt now c w₁.contextPositions logged w₂ = .ok (queue, guidance, matched) w₃ ∧
      spellInstruction w₁.engine.addsBos w₃ = .ok (lead, tail) w₄ ∧
      announce c w₁.contextPositions queue.length w₄ = .ok () w ∧
      s = Settlement.session ⟨c, ⟨w₁.contextPositions, c.keptTokens queue.length⟩, guidance, lead,
        tail, matched⟩ w := by
  rw [Session.start, startSession_eq, prepare_eq] at h
  obtain ⟨_, _, hprepared, h⟩ := bind_eq_ok h
  obtain ⟨_, _, ⟨⟩, h⟩ := bind_eq_ok h
  cases h
  obtain ⟨c, w₁, hsettled, hprepared⟩ := bind_eq_ok hprepared
  obtain ⟨_, _, ⟨⟩, hprepared⟩ := bind_eq_ok hprepared
  obtain ⟨logged, w₂, hopened, hloaded⟩ := bind_eq_ok hprepared
  rw [prepareLoaded_eq] at hloaded
  obtain ⟨⟨queue, guidance, matched⟩, w₃, hqueued, hloaded⟩ := bind_eq_ok hloaded
  obtain ⟨⟨lead, tail⟩, w₄, hspelled, hloaded⟩ := bind_eq_ok hloaded
  obtain ⟨_, _, hannounced, hloaded⟩ := bind_eq_ok hloaded
  cases hloaded
  exact ⟨c, logged, queue, guidance, matched, lead, tail, w₁, w₂, w₃, w₄, hsettled, hopened,
    hqueued, hspelled, hannounced, rfl⟩

end Workbench

/-! ### Steps that leave the main context alone -/

namespace Workbench

variable {α : Type}

private theorem keeps_mainContext_ask {x : EngineM α} (h : Keeps Engine.mainPart x) :
    Keeps mainContext (ask x) := Keeps.adaptExcept _ (keeps_mainContext_call h)

private theorem keeps_mainContext_reports (events : List Event) :
    Keeps mainContext (events.forM fun e => report e : WorkM SessionError Unit) := by
  apply Keeps.forM
  intro e _
  exact keeps_mainContext_report e

private theorem keeps_mainContext_promptTokens (config : Config) (logged : List Token) :
    Keeps mainContext (promptTokens config logged) := by
  apply Keeps.bind Keeps.get
  intro w
  apply Keeps.ite
  · apply Keeps.bind (keeps_mainContext_ask (Engine.keeps_mainPart_tokenize _ _ _))
    intro tokens
    exact Keeps.pure _
  · exact Keeps.bind (Keeps.pure _) fun _ => Keeps.pure _

private theorem keeps_mainContext_startGuidance (config : Config) :
    Keeps mainContext (startGuidance config) := by
  apply Keeps.bind Keeps.get
  intro w
  apply Keeps.ite (Keeps.pure _)
  apply Keeps.ite
  · apply Keeps.bind (keeps_mainContext_report _)
    intro _
    exact Keeps.pure _
  · apply Keeps.bind
    · apply Keeps.adaptExcept
      apply Keeps.bind (keeps_mainContext_call (Engine.keeps_mainPart_tokenize _ _ _))
      intro input
      apply Keeps.bind (keeps_mainContext_call (Engine.keeps_mainPart_tokenize _ _ _))
      intro tokens
      apply Keeps.bind (keeps_mainContext_report _)
      intro _
      exact Keeps.pure _
    · intro g
      exact Keeps.pure _

/-- Settling a configuration resolves it, and leaves the main context. -/
theorem settle_eq_ok {now : Nat} {config c : Config} {w t : Workbench}
    (h : settle now config w = .ok c t) :
    t.mainContext = w.mainContext ∧ t.engine.contextSize = w.engine.contextSize ∧
      config.resolve now = .ok c := by
  unfold settle at h
  cases hr : config.resolveReported now with
  | error e =>
    rw [hr] at h
    cases h
  | ok r =>
    rw [hr] at h
    obtain ⟨_, _, ht, h⟩ := bind_eq_ok h
    cases h
    have hk (events : List Event) : Keeps (fun w => (w.mainContext, w.engine.contextSize))
        (events.forM fun e => report e : WorkM SessionError Unit) :=
      .forM fun e _ => .modify fun _ => rfl
    obtain ⟨hcontext, hsize⟩ := Prod.mk.inj ((hk _).of_ok ht)
    exact ⟨hcontext, hsize, Config.resolve_of_resolveReported hr⟩

/-- The prompt has a token. -/
theorem promptTokens_ne_nil {config : Config} {logged tokens : List Token} {w t : Workbench}
    (h : promptTokens config logged w = .ok tokens t) : tokens ≠ [] := by
  have hne (l : List Token) : (if l = [] then [Token.bos] else l) ≠ [] := by
    split
    · exact List.cons_ne_nil _ _
    · assumption
  obtain ⟨w', _, _, h⟩ := bind_eq_ok h
  dsimp only at h
  split at h
  · obtain ⟨l, _, _, h⟩ := bind_eq_ok h
    cases h
    exact hne l
  · cases h
    exact hne logged

private theorem keptTokens_nonneg (c : Config) (size : Nat) : 0 ≤ c.keptTokens size := by
  unfold Config.keptTokens
  split
  · split
    · next h => exact h.1
    · exact Int.natCast_nonneg _
  · exact Int.natCast_nonneg _

private theorem keptTokens_le (c : Config) (size : Nat) : c.keptTokens size ≤ size := by
  unfold Config.keptTokens
  split
  · split
    · next h => exact h.2.1
    · exact Int.le_refl _
  · exact Int.le_refl _

private theorem ends_load {path : String} (capacity : Nat) {w : Workbench}
    (hp : w.cache.path = some path) :
    Ends (Cache.load path capacity) w fun r t =>
      match r with
      | .ok tokens => Loaded (some path) capacity w.mainContext tokens t.mainContext
      | .error _ => t.mainContext = w.mainContext := by
  have hnone : Loaded (some path) capacity w.mainContext [] w.mainContext := by
    exact Loaded.unloaded (.inr hp)
  simp only [Cache.load, ends_bind, ends_get]
  split
  · exact hnone
  · rfl
  · next bytes hr =>
    split
    · rfl
    · next tokens state hd =>
      rw [ends_bind, ends_adaptExcept, ends_call]
      apply (Engine.ends_restoreSnapshot state w.engine).mono
      intro r e h
      cases r with
      | error cause =>
        simp only [Engine.mainPart, Prod.mk.injEq] at h
        simp only [mapError_error, mainContext, h]
      | ok _ =>
        obtain ⟨cells, hc, he⟩ := h
        simp only [Engine.mainPart, Prod.mk.injEq] at he
        have hv : ({ w with engine := e } : Workbench).mainContext =
            { w.mainContext with path := some path, cells } := by
          simp only [mainContext, he, hp]
        have hl : Loaded (some path) capacity w.mainContext tokens _ :=
          Loaded.restored rfl hr hd hc
        rw [← hv] at hl
        exact hl

/-- What loading the session file comes to. -/
theorem ends_loadOrColdStart (capacity : Nat) (w : Workbench) :
    Ends (Cache.loadOrColdStart capacity : WorkM SessionError (List Token)) w fun r t =>
      ∀ tokens, r = .ok tokens →
        Loaded w.cache.path capacity w.mainContext tokens t.mainContext := by
  simp only [Cache.loadOrColdStart, ends_bind, ends_get]
  cases hp : w.cache.path with
  | none =>
    rintro tokens ⟨⟩
    exact Loaded.unloaded (.inl hp)
  | some path =>
    simp only [ends_bind, ends_report, ends_get, ends_ite]
    split
    · simp only [Cache.loadOrGiveUp, ends_bind, ends_attempt]
      have hload := ends_load capacity
        (w := { w with journal := w.journal.push (.cacheTried path) }) hp
      apply hload.mono
      intro r t h
      cases r with
      | ok tokens =>
        rintro _ ⟨⟩
        exact h
      | error e =>
        rintro _ ⟨⟩
        change Loaded (some path) capacity w.mainContext [] { t.mainContext with path := none }
        rw [h]
        exact Loaded.nothing (.inl rfl)
    · rintro tokens ⟨⟩
      exact Loaded.unloaded (.inr hp)

/-- What aligning does to the main context, unless the removal fails. -/
theorem ends_align {prompt : List Token} (promptEmpty : Bool) (w : Workbench)
    (hne : prompt ≠ []) :
    Ends (Cache.align prompt promptEmpty) w fun r t =>
      match r with
      | .ok matched =>
        matched = commonLength w.progress.logged prompt ∧
          t.mainContext =
            { w.mainContext with
              logged := MainContext.keptOf prompt w.progress.logged
              cells := w.mainContext.cells.remove matched none
              calls := w.mainContext.calls ++ [.removeCells .main none matched none]
              removeFaults := w.mainContext.removeFaults.tail }
      | .error _ => w.engine.faults.remove.headD false = true := by
  have hcalls := Engine.mainCalls_push (c := .removeCells .main none
    (commonLength w.progress.logged prompt) none) rfl w.engine.calls
  simp only [Cache.align, ends_bind, ends_get, ends_report, ends_call]
  by_cases hr : w.engine.faults.remove.headD false = true
  · rw [ends_iff_of_eq_error (Engine.removeCells_main_eq_error hr)]
    exact hr
  · rw [Bool.not_eq_true] at hr
    rw [ends_iff_of_eq_ok (Engine.removeCells_main_eq_ok hr)]
    simp only [ends_onlyIf, ends_bind, ends_report, ends_advance, ends_pure, decide_eq_true_eq,
      and_iff_right hne, true_and]
    split
    · next hc => simp only [MainContext.keptOf, if_pos hc, mainContext, Engine.mainCalls, hcalls]
    · next hc => simp only [MainContext.keptOf, if_neg hc, mainContext, Engine.mainCalls, hcalls]

/-- What aligning comes to. -/
theorem startCache_eq_ok {config : Config} {queue logged : List Token} {matched : Nat}
    {w t : Workbench} (h : startCache config queue logged w = .ok matched t)
    (hl : w.progress.logged = logged) (hq : w.progress.queue = queue) (hne : queue ≠ []) :
    t.mainContext = w.mainContext.aligned queue logged ∧ matched = commonLength logged queue := by
  subst hl hq
  unfold startCache at h
  unfold MainContext.aligned
  split at h
  · next hn =>
    cases h
    rw [if_pos hn]
    refine ⟨rfl, ?_⟩
    rw [hn]
    rfl
  · next hn =>
    obtain ⟨hmatched, ht⟩ := (ends_align _ w hne).of_ok (adaptExcept_eq_ok h)
    rw [if_neg hn, ht, hmatched]
    exact ⟨rfl, rfl⟩

/-! ### Steps that leave the turn state alone -/

private theorem keeps_turnState_ask {x : EngineM α} (h : Keeps Engine.sampling x) :
    Keeps turnState (ask x) := .adaptExcept _ (keeps_turnState_call h)

private theorem keeps_turnState_startCache (config : Config) (queue logged : List Token) :
    Keeps turnState (startCache config queue logged) := by
  have haligns : Keeps turnState (Cache.align queue (config.prompt = "")) := by
    refine .bind .get fun _ => ?_
    refine .bind (keeps_turnState_report _) fun _ => ?_
    refine .bind (keeps_turnState_call (Engine.frame_sampling.keeps_removeCells _ _ _ _))
      fun _ => ?_
    refine .bind (.onlyIf _ ?_) fun _ => .pure _
    exact .bind (keeps_turnState_report _) fun _ => keeps_turnState_advance fun _ => rfl
  exact .ite (.pure _) (.adaptExcept _ haligns)

/-! ### What the stages come to -/

/-- Opening the session file loads it or leaves it alone. -/
theorem openCache_eq_ok {config : Config} {size : Nat} {logged : List Token} {w t : Workbench}
    (h : openCache config size w = .ok logged t) :
    Loaded config.cachePath (Number.signedWord size).toNat w.mainContext logged t.mainContext := by
  obtain ⟨_, w₁, h₁, h⟩ := bind_eq_ok h
  obtain ⟨_, _, ⟨⟩, h⟩ := bind_eq_ok h
  have hv₁ : w₁.mainContext = w.mainContext :=
    (Keeps.onlyIf _ (keeps_mainContext_report _)).of_ok h₁
  have hloaded := (ends_loadOrColdStart _ _).of_ok h logged rfl
  rw [← hv₁]
  exact hloaded.of_path

/-- The prompt that is queued fits a step, and the main context is aligned with it. Nothing is
accepted yet. -/
theorem queuePrompt_eq_ok {now : Nat} {config : Config} {size : Int} {logged queue : List Token}
    {guidance : Option Guidance} {matched : Nat} {w t : Workbench}
    (h : queuePrompt now config size logged w = .ok (queue, guidance, matched) t) :
    queue ≠ [] ∧ queue.length ≤ Window.maxStep ⟨size, 0⟩ ∧ matched = commonLength logged queue ∧
      t.mainContext = w.mainContext.restarted.aligned queue logged ∧ t.progress.recent = [] := by
  obtain ⟨_, w₁, h₁, h⟩ := bind_eq_ok h
  obtain ⟨_, w₂, h₂, h⟩ := bind_eq_ok h
  obtain ⟨_, w₃, h₃, h⟩ := bind_eq_ok h
  obtain ⟨_, w₄, h₄, h⟩ := bind_eq_ok h
  obtain ⟨_, _, ⟨⟩, h⟩ := bind_eq_ok h
  obtain ⟨_, w₅, h₅, h⟩ := bind_eq_ok h
  cases h
  have hne := promptTokens_ne_nil h₂
  have hfits := (failIf_eq_ok h₃).1
  rw [decide_eq_false_iff_not, Nat.not_lt] at hfits
  have hv₃ : w₃.mainContext = w₂.mainContext := (Keeps.failIf _ _).of_ok h₃
  have hv₄ : w₄.mainContext = w.mainContext := by
    rw [(keeps_mainContext_startGuidance _).of_ok h₄, hv₃,
      (keeps_mainContext_promptTokens _ _).of_ok h₂,
      (keeps_mainContext_ask (Engine.keeps_mainPart_setSeed _)).of_ok h₁]
  obtain ⟨haligned, hmatched⟩ := startCache_eq_ok h₅ rfl rfl hne
  refine ⟨hne, hfits, hmatched, ?_, ?_⟩
  · -- The queue and the log that are set before aligning are those that aligning sets.
    rw [haligned, ← hv₄]
    unfold MainContext.aligned
    split <;> rfl
  · exact congrArg TurnState.recent ((keeps_turnState_startCache _ _ _).of_ok h₅)

private theorem keeps_mainContext_spellInstruction (addsBos : Bool) :
    Keeps mainContext (spellInstruction addsBos) :=
  .bind (keeps_mainContext_ask (Engine.keeps_mainPart_tokenize _ _ _)) fun _ =>
    .bind (keeps_mainContext_ask (Engine.keeps_mainPart_tokenize _ _ _)) fun _ => .pure _

private theorem keeps_mainContext_announce (config : Config) (size : Int) (count : Nat) :
    Keeps mainContext (announce config size count) :=
  .bind (keeps_mainContext_report _) fun _ => .bind (keeps_mainContext_reports _) fun _ =>
    keeps_mainContext_report _

private theorem keeps_turnState_spellInstruction (addsBos : Bool) : Keeps turnState
    (spellInstruction addsBos) :=
  .bind (keeps_turnState_ask (Engine.frame_sampling.keeps_tokenize _ _ _)) fun _ =>
    .bind (keeps_turnState_ask (Engine.frame_sampling.keeps_tokenize _ _ _)) fun _ => .pure _

private theorem keeps_turnState_announce (config : Config) (size : Int) (count : Nat) :
    Keeps turnState (announce config size count) := by
  refine .bind (keeps_turnState_report _) fun _ => ?_
  exact .bind (.forM fun e _ => keeps_turnState_report e) fun _ => keeps_turnState_report _

end Workbench

/-- A resolved configuration has a batch size, and keeps what does not follow from other settings.
-/
theorem Config.resolve_eq_ok {now : Nat} {config c : Config} (h : config.resolve now = .ok c) :
    c.batchSize = config.batchSize ∧ 0 < config.batchSize ∧ c.instruct = config.instruct ∧
      c.cachePath = config.cachePath ∧ c.cacheAll = config.cacheAll ∧
      c.predict = config.predict ∧ c.maxDecodeFailures = config.maxDecodeFailures := by
  obtain ⟨hbatch, -, rfl⟩ := resolve_eq_ok_iff.mp h
  exact ⟨rfl, Nat.pos_of_ne_zero hbatch, rfl, rfl, rfl, rfl, rfl⟩

/-- What is known of a session that begins. -/
theorem Session.start_eq_ok {now : Nat} {config : Config} {engine : Engine}
    {directory : Directory} {s : Session} {w : Workbench}
    (h : Session.start now config engine directory = .ok s w) :
    Begun config engine directory s := by
  obtain ⟨c, logged, queue, guidance, matched, lead, tail, w₁, w₂, w₃, w₄, hsettled, hopened,
    hqueued, hspelled, hannounced, rfl⟩ := stages_of_start h
  obtain ⟨hv₁, hsize₁, hresolved⟩ := settle_eq_ok hsettled
  obtain ⟨hbatch, hpos, hinstruct, hpath, hall, hpredict, hmax⟩ := Config.resolve_eq_ok hresolved
  have hsize : w₁.contextPositions = Number.signedWord engine.contextSize :=
    congrArg Number.signedWord hsize₁
  have hloaded : Loaded config.cachePath w₁.contextPositions.toNat
      (fresh engine directory).mainContext logged w₂.mainContext := by
    rw [← hv₁, ← hpath]
    exact openCache_eq_ok hopened
  obtain ⟨hne, hfits, hmatched, haligned, hrecent⟩ := queuePrompt_eq_ok hqueued
  have hv : w.mainContext = w₂.mainContext.aligned queue logged := by
    rw [(keeps_mainContext_announce _ _ _).of_ok hannounced,
      (keeps_mainContext_spellInstruction _).of_ok hspelled, haligned, hloaded.restarted_eq rfl]
  have hturnState : w.turnState = w₃.turnState := by
    rw [(keeps_turnState_announce _ _ _).of_ok hannounced,
      (keeps_turnState_spellInstruction _).of_ok hspelled]
  have hqueue : w.progress.queue = queue := by
    change w.mainContext.queue = queue
    rw [hv, MainContext.queue_aligned]
  have hreset : w.mainContext.restarted = w₂.mainContext.aligned queue logged := by
    rw [hv, ← MainContext.aligned_restarted, hloaded.restarted_eq rfl]
  rw [← hqueue] at hreset hmatched hfits hne
  generalize w₁.contextPositions = size at hloaded hfits hsize ⊢
  exact
    { batchSize := hbatch
      batchSize_pos := hpos
      predict := hpredict
      maxDecodeFailures := hmax
      instruct := hinstruct
      cacheAll := hall
      size := hsize
      keep := keptTokens_nonneg _ _
      keep_le := by
        rw [← hqueue]
        exact keptTokens_le _ _
      queue_ne_nil := hne
      queue_le := hfits
      mainContext := ⟨logged, w₂.mainContext, hloaded, hreset, hmatched⟩
      recent := (congrArg TurnState.recent hturnState).trans hrecent
      anew := rfl }

/-- A session begins as a dialogue that begins anew. -/
theorem Session.Begun.restarted_eq {config : Config} {engine : Engine} {directory : Directory}
    {s : Session} (h : Begun config engine directory s) :
    s.mainContext.restarted = s.mainContext := by
  obtain ⟨logged, v, hl, hv, -⟩ := h.mainContext
  rw [hv, ← MainContext.aligned_restarted, hl.restarted_eq rfl]

/-- The decode calls to come fail as the engine has it. -/
theorem Session.Begun.decodeFaults_eq {config : Config} {engine : Engine} {directory : Directory}
    {s : Session} (h : Begun config engine directory s) :
    s.mainContext.decodeFaults = engine.faults.decodeMain := by
  obtain ⟨logged, v, hl, hv, -⟩ := h.mainContext
  have haligned : s.mainContext.decodeFaults = v.decodeFaults := by
    rw [hv, MainContext.aligned]
    split <;> rfl
  rw [haligned]
  cases hl <;> rfl

/-- Without a session file no more is done to the main context than to queue the prompt. -/
theorem Session.Begun.mainContext_eq {config : Config} {engine : Engine} {directory : Directory}
    {s : Session} (h : Begun config engine directory s) (hfile : config.cachePath = none) :
    s.mainContext = { (fresh engine directory).mainContext with queue := s.progress.queue } := by
  obtain ⟨logged, v, hl, hv, -⟩ := h.mainContext
  rw [hfile] at hl
  rw [hv]
  cases hl with
  | nothing hp =>
    rw [or_self] at hp
    rw [hp]
    rfl
  | restored hf => cases hf

end Dialogue
