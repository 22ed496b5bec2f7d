import Dialogue.Proofs.Coherence
import Dialogue.Proofs.Prompting
/-!
# Resuming a session

A session that begins without a prompt of its own takes the tokens of its session file for the
prompt. They are then counted as resident batch by batch, without being decoded again.
-/

namespace Dialogue

open Effect

/-- An engine that can take up a session: it accepts the snapshot, removes cells, and refuses none
of the texts that it is asked to spell. -/
structure Engine.Resumes (e : Engine) (config : Config) : Prop where
  /-- The snapshot is accepted. -/
  restores : e.faults.restoreSnapshot.headD false = false
  /-- Cells are removed. -/
  removes : e.faults.remove.headD false = false
  /-- The texts are spelled. -/
  spells : ∀ text ∈ [Session.leadText, Session.tailText, config.negativePrompt, config.prompt],
    text ∉ e.refused

/-- What a configuration is resolved to where the session has the first turn. -/
theorem Config.resolve_eq_ok_of_session_first {now : Nat} {config c : Config}
    (h : config.resolve now = .ok c) (hfirst : config.userFirst = false)
    (hins : config.instruct = false) :
    c.interactive = config.interactive ∧ c.userFirst = false ∧ c.instruct = false ∧
      c.antiprompts = config.antiprompts ∧ c.prompt = config.prompt ∧
      c.negativePrompt = config.negativePrompt ∧ c.cachePath = config.cachePath := by
  obtain ⟨-, -, rfl⟩ := resolve_eq_ok_iff.mp h
  simp [completed, allAntiprompts, hfirst, hins]

/-- What can be read stands somewhere. -/
theorem Directory.contains_of_read {d : Directory} {path : String} {bytes : List UInt8}
    (h : d.read path = .ok bytes) : d.contains path = true := by
  unfold Directory.contains
  cases hplace : d.locate path with
  | error fault =>
    rw [Directory.read, hplace] at h
    cases h
  | ok place =>
    rw [read_of_locate hplace] at h
    change (d.get? place).isSome = true
    cases hentry : d.get? place with
    | none =>
      rw [hentry] at h
      cases h
    | some entry => rfl

namespace Workbench

variable {w : Workbench} {ε : Type}

/-- The workbench without its logs. -/
def unlogged (w : Workbench) : Workbench :=
  { w with engine := { w.engine with calls := #[], seed := none }, journal := #[] }

/-- What can still hinder a session once its file is loaded: texts that are refused, and removals
that fail. -/
def obstacles (w : Workbench) : List String × List Bool :=
  (w.engine.refused, w.engine.faults.remove)

private theorem obstacles_eq {t : Workbench} (h : t.unlogged = w.unlogged) :
    t.obstacles = w.obstacles := by
  change t.unlogged.obstacles = w.unlogged.obstacles
  rw [h]

/-- What is reported shows in the journal only. -/
private theorem ends_reports (events : List Event) (w : Workbench) :
    Ends (events.forM fun e => report e : WorkM SessionError Unit) w fun r t =>
      ∃ u, r = .ok u ∧ t.unlogged = w.unlogged := by
  induction events generalizing w with
  | nil => exact ⟨(), rfl, rfl⟩
  | cons e events ih =>
    change Ends (report e >>= fun _ => events.forM fun e => report e) w _
    rw [ends_bind]
    exact ih _

/-- A text that is not refused is spelled. -/
private theorem ends_tokenize {text : String} (h : text ∉ w.engine.refused)
    (addBos special : Bool) :
    Ends (call (Engine.tokenize text addBos special)) w fun r t =>
      ∃ tokens, r = .ok tokens ∧ t.unlogged = w.unlogged := by
  simp only [ends_call, Engine.tokenize, Engine.note, ends_bind, ends_modify, ends_get, ends_failIf,
    decide_eq_false h, Bool.false_eq_true, if_false, ends_pure]
  exact ⟨_, rfl, rfl⟩

/-- A text that is not refused is spelled while a session begins. -/
private theorem ends_ask_tokenize {text : String} (h : text ∉ w.engine.refused)
    (addBos special : Bool) :
    Ends (ask (Engine.tokenize text addBos special)) w fun r t =>
      ∃ tokens, r = .ok tokens ∧ t.unlogged = w.unlogged := by
  rw [ask, ends_adaptExcept]
  apply (ends_tokenize h addBos special).mono
  rintro _ t ⟨tokens, rfl, ht⟩
  exact ⟨tokens, rfl, ht⟩

/-- A report, made on a condition, shows in the journal only. -/
private theorem ends_report_on (test : Bool) (event : Event) :
    Ends (onlyIf test (report event) : WorkM ε Unit) w fun r t =>
      ∃ u, r = .ok u ∧ t.unlogged = w.unlogged := by
  cases test <;> exact ⟨_, rfl, rfl⟩

/-- A configuration that can be resolved is settled. -/
private theorem ends_settle {now : Nat} {config c : Config} (h : config.resolve now = .ok c) :
    Ends (settle now config) w fun r t => ∃ d, r = .ok d ∧ c = d ∧ t.unlogged = w.unlogged := by
  unfold settle Config.resolveReported
  rw [h]
  refine ends_bind_of_ok (ends_reports _ w) ?_
  intro _ t ht
  exact ⟨c, rfl, rfl, ht⟩

/-- A session file that can be read gives its tokens, and its snapshot the cells. -/
private theorem ends_loadOrColdStart_restored {path : String} {bytes state : List UInt8}
    {tokens : List Token} {cells : Cells} {capacity : Nat} (hp : w.cache.path = some path)
    (hr : w.directory.read path = .ok bytes)
    (hd : SessionFile.decode capacity bytes = .ok (tokens, state))
    (hc : Cells.ofSnapshot? state = some cells)
    (hf : w.engine.faults.restoreSnapshot.headD false = false) :
    Ends (Cache.loadOrColdStart capacity : WorkM ε (List Token)) w fun r t =>
      ∃ l, r = .ok l ∧ tokens = l ∧ t.obstacles = w.obstacles := by
  simp only [Cache.loadOrColdStart, ends_bind, ends_get, hp, ends_report,
    Directory.contains_of_read hr, if_true, Cache.loadOrGiveUp, ends_attempt, Cache.load, hr, hd,
    ends_adaptExcept, ends_call, Engine.restoreSnapshot, Engine.note, Engine.fails, ends_modify,
    ends_modifyGet, ends_failIf, Faults.schedule, hf, hc, Bool.false_eq_true, if_false, ends_pure]
  exact ⟨tokens, rfl, rfl, rfl⟩

/-- Without a prompt of its own a session takes the tokens of its file. -/
private theorem ends_promptTokens_logged {config : Config} {logged : List Token}
    (h : config.hasOwnPrompt = false) (hne : logged ≠ []) :
    Ends (promptTokens config logged) w fun r t => ∃ l, r = .ok l ∧ logged = l ∧ t = w := by
  simp only [promptTokens, ends_bind, ends_get, h, Bool.false_or, hne, decide_false,
    Bool.false_eq_true, if_false, ends_pure]
  exact ⟨logged, rfl, rfl, trivial⟩

/-- Whether or not there is guidance, a session begins if its texts are spelled. -/
private theorem ends_startGuidance_spelled {config : Config}
    (h : config.negativePrompt ∉ w.engine.refused) (h' : config.prompt ∉ w.engine.refused) :
    Ends (startGuidance config) w fun r t =>
      ∃ guidance, r = .ok guidance ∧ t.unlogged = w.unlogged := by
  simp only [startGuidance, ends_bind, ends_get, ends_ite, ends_pure, ends_report]
  split
  · exact ⟨none, rfl, trivial⟩
  · split
    · exact ⟨none, rfl, rfl⟩
    · rw [ends_adaptExcept, Guidance.ofPrompts]
      refine ends_bind_of_ok (ends_tokenize h _ _) ?_
      intro input t ht
      have hrefused : config.prompt ∉ t.engine.refused := by
        rw [show t.engine.refused = w.engine.refused from congrArg (·.engine.refused) ht]
        exact h'
      refine ends_bind_of_ok (ends_tokenize hrefused _ _) ?_
      intro tokens u hu
      exact ⟨some _, rfl, hu.trans ht⟩

/-- Nothing of a session is dropped that is the prompt itself. -/
private theorem ends_startCache_self {config : Config} {tokens : List Token} (hne : tokens ≠ [])
    (hlogged : w.progress.logged = tokens) (hf : w.engine.faults.remove.headD false = false) :
    Ends (startCache config tokens tokens) w fun r t =>
      ∃ matched, r = .ok matched ∧ t.engine.refused = w.engine.refused ∧
        t.progress = w.progress := by
  subst hlogged
  simp only [startCache, if_neg hne, ends_adaptExcept, Cache.align, ends_bind, ends_get,
    ends_report, ends_call]
  rw [ends_iff_of_eq_ok (Engine.removeCells_main_eq_ok hf)]
  simp only [Nat.lt_irrefl, and_false, decide_false, ends_onlyIf, Bool.false_eq_true, if_false,
    ends_pure]
  exact ⟨_, rfl, trivial, trivial⟩

/-- A session file that can be read is loaded. -/
private theorem ends_openCache_restored {config : Config} {size : Nat} {path : String}
    {bytes state : List UInt8} {tokens : List Token} {cells : Cells}
    (hp : config.cachePath = some path) (hr : w.directory.read path = .ok bytes)
    (hd : SessionFile.decode (Number.signedWord size).toNat bytes = .ok (tokens, state))
    (hc : Cells.ofSnapshot? state = some cells)
    (hf : w.engine.faults.restoreSnapshot.headD false = false) :
    Ends (openCache config size) w fun r t =>
      ∃ logged, r = .ok logged ∧ tokens = logged ∧ t.obstacles = w.obstacles := by
  refine ends_bind_of_ok (ends_report_on _ _) ?_
  intro _ u hu
  refine ends_bind.mpr (ends_modify.mpr ?_)
  have hread : u.directory.read path = .ok bytes := (congrArg (·.directory.read path) hu).trans hr
  have hrestores : u.engine.faults.restoreSnapshot.headD false = false :=
    (congrArg (·.engine.faults.restoreSnapshot.headD false) hu).trans hf
  have hobstacles : u.obstacles = w.obstacles := obstacles_eq hu
  apply Ends.mono (ends_loadOrColdStart_restored
    (w := { u with cache := ⟨config.cachePath, config.cacheReadOnly⟩ }) hp hread hd hc hrestores)
  rintro _ t ⟨logged, rfl, htokens, ht⟩
  exact ⟨logged, rfl, htokens, ht.trans hobstacles⟩

/-- The tokens of the file are the prompt, and nothing of them is dropped. -/
private theorem ends_queuePrompt_logged {now : Nat} {config : Config} {size : Int}
    {tokens : List Token} (hown : config.hasOwnPrompt = false) (hne : tokens ≠ [])
    (hfits : tokens.length ≤ Window.maxStep ⟨size, 0⟩)
    (hnegative : config.negativePrompt ∉ w.engine.refused)
    (hprompt : config.prompt ∉ w.engine.refused)
    (hremoves : w.engine.faults.remove.headD false = false) :
    Ends (queuePrompt now config size tokens) w fun r t =>
      ∃ queued, r = .ok queued ∧ tokens = queued.1 ∧ t.engine.refused = w.engine.refused ∧
        t.progress = { remaining := config.predict, queue := tokens, logged := tokens } := by
  refine ends_bind_of_ok (P := fun _ t => t.unlogged = w.unlogged) ⟨_, rfl, rfl⟩ ?_
  intro _ _ hw₁
  refine ends_bind_of_ok (ends_promptTokens_logged hown hne) ?_
  rintro _ w₁ ⟨rfl, rfl⟩
  refine ends_bind.mpr (ends_failIf.mpr ?_)
  rw [decide_eq_false (Nat.not_lt.mpr hfits), if_neg Bool.false_ne_true]
  have hrefused : w₁.engine.refused = w.engine.refused := congrArg (·.engine.refused) hw₁
  refine ends_bind_of_ok (ends_startGuidance_spelled (hrefused ▸ hnegative) (hrefused ▸ hprompt)) ?_
  intro guidance w₂ hw₂
  replace hw₂ := obstacles_eq (hw₂.trans hw₁)
  refine ends_bind.mpr (ends_advance.mpr ?_)
  have hremoves₂ : w₂.engine.faults.remove.headD false = false :=
    (congrArg (·.2.headD false) hw₂).trans hremoves
  refine ends_bind_of_ok (ends_startCache_self hne rfl hremoves₂) ?_
  rintro matched t ⟨hrefused, hprogress⟩
  exact ⟨_, rfl, rfl, hrefused.trans (congrArg Prod.fst hw₂), hprogress⟩

/-- The texts of instruct mode are spelled if they are not refused. -/
private theorem ends_spellInstruction_spelled {addsBos : Bool}
    (hlead : Session.leadText ∉ w.engine.refused) (htail : Session.tailText ∉ w.engine.refused) :
    Ends (spellInstruction addsBos) w fun r t =>
      ∃ spelled, r = .ok spelled ∧ t.unlogged = w.unlogged := by
  refine ends_bind_of_ok (ends_ask_tokenize hlead _ _) ?_
  intro lead u hu
  have hrefused : u.engine.refused = w.engine.refused := congrArg (·.engine.refused) hu
  refine ends_bind_of_ok (ends_ask_tokenize (hrefused ▸ htail) _ _) ?_
  intro tail t ht
  exact ⟨_, rfl, ht.trans hu⟩

private theorem ends_announce (config : Config) (size : Int) (count : Nat) (w : Workbench) :
    Ends (announce config size count) w fun r t => ∃ u, r = .ok u ∧ t.unlogged = w.unlogged := by
  refine ends_bind_of_ok (P := fun _ t => t.unlogged = w.unlogged) ⟨_, rfl, rfl⟩ ?_
  intro _ u hu
  refine ends_bind_of_ok (ends_reports _ _) ?_
  intro _ t ht
  exact ⟨_, rfl, ht.trans hu⟩

end Workbench

namespace Session

variable {now : Nat} {config c : Config} {engine : Engine} {directory : Directory}

/-- A session that is given no prompt begins with the tokens of its file queued and logged. -/
theorem exists_start_resumed {path : String} {bytes state : List UInt8} {tokens : List Token}
    {cells : Cells} (hresolve : config.resolve now = .ok c) (hpath : config.cachePath = some path)
    (hprompt : config.prompt = "") (hfirst : config.userFirst = false)
    (hins : config.instruct = false) (hr : directory.read path = .ok bytes)
    (hd : SessionFile.decode (Number.signedWord engine.contextSize).toNat bytes =
      .ok (tokens, state))
    (hc : Cells.ofSnapshot? state = some cells) (hne : tokens ≠ [])
    (hfits : tokens.length + 4 ≤ Number.signedWord engine.contextSize)
    (he : engine.Resumes config) :
    ∃ s w, start now config engine directory = .ok s w ∧ s.config = c ∧
      s.progress.queue = tokens ∧ s.progress.logged = tokens := by
  obtain ⟨-, hcfirst, hcins, -, hcprompt, hcnegative, hcpath⟩ :=
    Config.resolve_eq_ok_of_session_first hresolve hfirst hins
  have hown : c.hasOwnPrompt = false := by
    simp [Config.hasOwnPrompt, hcfirst, hcins, hcprompt, hprompt]
  have hspells := he.spells
  simp only [List.forall_mem_cons, List.not_mem_nil, false_implies, implies_true, and_true]
    at hspells
  obtain ⟨hlead, htail, hnegative, hempty⟩ := hspells
  rw [start, Workbench.startSession_eq, Workbench.prepare_eq]
  simp only [bind_assoc, Workbench.prepareLoaded_eq]
  refine Ends.exists_eq_ok (ends_bind_of_ok (Workbench.ends_settle hresolve) ?_)
  rintro _ w₁ ⟨rfl, hw₁⟩
  refine ends_bind.mpr (ends_get.mpr ?_)
  have hsize : w₁.engine.contextSize = engine.contextSize := congrArg (·.engine.contextSize) hw₁
  dsimp only
  rw [Workbench.contextPositions, hsize]
  -- The tokens are loaded, and are the prompt.
  refine ends_bind_of_ok (Workbench.ends_openCache_restored (hcpath.trans hpath)
    ((congrArg (·.directory.read path) hw₁).trans hr) hd hc
    ((congrArg (·.engine.faults.restoreSnapshot.headD false) hw₁).trans he.restores)) ?_
  rintro _ w₂ ⟨rfl, hw₂⟩
  replace hw₂ : w₂.obstacles = (engine.refused, engine.faults.remove) :=
    hw₂.trans (Workbench.obstacles_eq hw₁)
  have hrefused₂ : w₂.engine.refused = engine.refused := congrArg Prod.fst hw₂
  have hshort : tokens.length ≤ Window.maxStep ⟨Number.signedWord engine.contextSize, 0⟩ := by
    have hmax (size : Int) : Window.maxStep ⟨size, 0⟩ = (size - 4).toNat := rfl
    rw [hmax]
    omega
  refine ends_bind_of_ok (Workbench.ends_queuePrompt_logged hown hne hshort ?_ ?_ ?_) ?_
  · rwa [hcnegative, hrefused₂]
  · rwa [hcprompt, hrefused₂]
  · exact (congrArg (·.2.headD false) hw₂).trans he.removes
  rintro ⟨_, guidance, matched⟩ w₃ ⟨rfl, hrefused₃, hprogress⟩
  replace hrefused₃ := hrefused₃.trans hrefused₂
  -- No text is refused, and the rest only shows in the logs.
  refine ends_bind_of_ok (Workbench.ends_spellInstruction_spelled (hrefused₃ ▸ hlead)
    (hrefused₃ ▸ htail)) ?_
  rintro ⟨lead, tail⟩ w₄ hw₄
  refine ends_bind_of_ok (Workbench.ends_announce _ _ _ _) ?_
  intro _ w₅ hw₅
  replace hprogress := (congrArg (·.progress) (hw₅.trans hw₄)).trans hprogress
  exact ⟨_, rfl, rfl, congrArg (·.queue) hprogress, congrArg (·.logged) hprogress⟩

/-- A session that begins with its prompt logged has the tokens of a coherent file in its cells. -/
theorem Begun.get?_of_resumed {s : Session} {path : String} {bytes state : List UInt8}
    {tokens : List Token} {capacity : Nat} (h : Begun config engine directory s)
    (hpath : config.cachePath = some path) (hr : directory.read path = .ok bytes)
    (hcoherent : SessionFile.Coherent bytes)
    (hd : SessionFile.decode capacity bytes = .ok (tokens, state))
    (hqueue : s.progress.queue = tokens) (hlogged : s.progress.logged = tokens) {i : Nat}
    (hi : i < tokens.length) : s.engine.mainCells.get? i = tokens[i]? := by
  obtain ⟨loaded, v, hl, heq, -⟩ := h.mainContext
  rw [hpath] at hl
  cases hl with
  | nothing _ =>
    have hnil : s.progress.logged = [] := congrArg MainContext.logged heq
    rw [← hlogged, hnil] at hi
    cases hi
  | restored hf hr' hd' hc =>
    cases hf
    cases hr.symm.trans hr'
    obtain ⟨rfl, rfl⟩ := SessionFile.decode_unique hd hd'
    have hcells : s.engine.mainCells = _ := congrArg MainContext.cells heq
    rw [hcells, MainContext.aligned, if_neg (List.ne_nil_of_length_pos (by omega)), hqueue,
      commonLength_self, MainContext.get?_remove_of_lt hi]
    exact hcoherent.get?_eq hd hc hi

/-- A session that begins with its prompt logged takes all of it without asking anything of the main
context. -/
theorem Begun.exists_passes_resumed {s : Session} (h : Begun config engine directory s)
    (hprompting : (s.showing none).Prompting) (hlogged : s.progress.logged = s.progress.queue) :
    ∃ t u, Passes (s.showing none) t ∧ evaluatePending t = .ok none u ∧
      u.holdings =
        { s.holdings with past := s.progress.queue.length, loggedRead := s.progress.queue.length } ∧
      u.mainContext.calls = s.mainContext.calls := by
  have hpending : s.progress.pending = [] := congrArg (·.progress.pending) h.anew.symm
  have hread : s.progress.loggedRead = 0 := congrArg (·.progress.loggedRead) h.anew.symm
  have hpast : s.progress.past = 0 := congrArg (·.progress.past) h.anew.symm
  have hunread : (s.showing none).progress.unread = s.progress.queue := h.unread_eq
  have hrest : (s.showing none).progress.logged.drop (s.showing none).progress.loggedRead =
      s.progress.queue := by
    change s.progress.logged.drop s.progress.loggedRead = _
    rw [hlogged, hread, List.drop_zero]
  have hheld : (s.showing none).progress.unread <+:
      (s.showing none).progress.logged.drop (s.showing none).progress.loggedRead :=
    ⟨[], by rw [List.append_nil, hunread, hrest]⟩
  have hne : (s.showing none).progress.unread ≠ [] := by
    rw [hunread]
    exact h.queue_ne_nil
  obtain ⟨t, u, hpasses, hu, hout, -, hcalls⟩ := hprompting.exists_passes
    (evaluatePending_of_pending_nil (s := s.showing none) hpending) hne (.inr hheld)
  have hskipped : (s.showing none).holdings.skipped s.progress.queue = s.progress.queue.length := by
    change commonLength ((s.showing none).progress.logged.drop
      (s.showing none).progress.loggedRead) _ = _
    rw [hrest, commonLength_self]
  have htaken : u.holdings =
      (s.showing none).holdings.take s.cache.isActive (s.showing none).progress.unread :=
    congrArg (·.holdings) hout
  rw [hunread, Holdings.take_of_skipped hskipped] at htaken
  refine ⟨t, u, hpasses, hu, htaken.trans ?_, hcalls hheld⟩
  change Holdings.mk _ (s.progress.past + _) _ (s.progress.loggedRead + _) = _
  rw [hpast, hread, Int.zero_add, Nat.zero_add]
  rfl

/-- A saved session is resumed: without a prompt of its own a session begins with the tokens of a
coherent file as its prompt, if four positions of the context are left beside them, and the engine
takes them up. If they leave the turn with the session, and what guidance takes fits beside them,
the first turn comes to a state where all of them are resident, each at its place, and where nothing
was asked of the main context since the session began. -/
theorem saved_session_resumed {path : String} {bytes state : List UInt8} {tokens : List Token}
    {capacity : Nat} (hresolve : config.resolve now = .ok c)
    (hpath : config.cachePath = some path) (hprompt : config.prompt = "")
    (hfirst : config.userFirst = false) (hins : config.instruct = false)
    (hpredict : config.predict ≠ 0) (hr : directory.read path = .ok bytes)
    (hcoherent : SessionFile.Coherent bytes)
    (hd : SessionFile.decode capacity bytes = .ok (tokens, state)) (hne : tokens ≠ [])
    (hsize : tokens.length + 4 ≤ Number.signedWord engine.contextSize)
    (he : engine.Resumes config) :
    ∃ s w, start now config engine directory = .ok s w ∧ s.progress.queue = tokens ∧
      (config.LeavesTurn tokens → tokens.length + s.offset ≤ Number.signedWord engine.contextSize →
        ∃ t u, Passes (s.showing none) t ∧ answer (s.showing none) = answer t ∧
          evaluatePending t = .ok none u ∧
          u.progress.past = tokens.length ∧ u.progress.loggedRead = tokens.length ∧
          u.progress.logged = tokens ∧
          (∀ i, i < tokens.length → u.engine.mainCells.get? (i : Nat) = tokens[i]?) ∧
          u.mainContext.calls = s.mainContext.calls) := by
  have hd' : SessionFile.decode (Number.signedWord engine.contextSize).toNat bytes =
      .ok (tokens, state) := SessionFile.decode_of_length_le hd (by omega)
  obtain ⟨_, _, _, cells, hdecode, hc, -⟩ := id hcoherent
  obtain ⟨rfl, rfl⟩ := SessionFile.decode_unique hd hdecode
  obtain ⟨s, w, hstart, hconfig, hqueue, hlogged⟩ := exists_start_resumed hresolve hpath hprompt
    hfirst hins hr hd' hc hne hsize he
  refine ⟨s, w, hstart, hqueue, fun hleaves hfits => ?_⟩
  have hbegun := start_eq_ok hstart
  obtain ⟨hinteractive, hcfirst, hcins, hanti, -⟩ :=
    Config.resolve_eq_ok_of_session_first hresolve hfirst hins
  rw [← hconfig] at hinteractive hcfirst hcins hanti
  have hends := hbegun.ending_of_leavesTurn hcins (by
    rwa [Config.LeavesTurn, hinteractive, hanti, hqueue])
  have hroom : s.progress.queue.length + max s.offset 0 ≤ s.window.size := by
    rw [hqueue, hbegun.size]
    omega
  have hprompting := hbegun.prompting (by rwa [hbegun.predict]) hcfirst hends hroom
  obtain ⟨t, u, hpasses, hu, hheld, hcalls⟩ :=
    hbegun.exists_passes_resumed hprompting (hlogged.trans hqueue.symm)
  rw [hqueue] at hheld
  refine ⟨t, u, hpasses, answer_of_passes hpasses, hu, congrArg Holdings.past hheld,
    congrArg Holdings.loggedRead hheld, (congrArg Holdings.logged hheld).trans hlogged, ?_, hcalls⟩
  intro i hi
  have hcells : u.engine.mainCells = s.engine.mainCells := congrArg Holdings.cells hheld
  rw [hcells]
  exact hbegun.get?_of_resumed hpath hr hcoherent hd hqueue hlogged hi

/-- A saved session as long as a prompt may be is resumed beside guidance. -/
theorem saved_session_resumed_beside_guidance :
    ∃ s w t u, start 0
        { cachePath := some "s.bin", batchSize := 3, interactive := true, antiprompts := ["B:"],
          negativePrompt := "xyz", guidanceScale := ⟨0x40000000⟩ }
        { contextSize := 12, hasGuidance := true } (Directory.ofSession (Token.ofText "abcdefgh")) =
          .ok s w ∧
      s.offset = 3 ∧ s.progress.queue = Token.ofText "abcdefgh" ∧
      Passes (s.showing none) t ∧ evaluatePending t = .ok none u ∧ u.progress.past = 8 ∧
      (∀ i, i < 8 → u.engine.mainCells.get? (i : Nat) = (Token.ofText "abcdefgh")[i]?) ∧
      u.mainContext.calls = s.mainContext.calls := by
  have hcoherent : (Directory.ofSession (Token.ofText "abcdefgh")).CoherentAt "s.bin" :=
    Directory.coherentAt_ofSession (by decide)
  have hd : SessionFile.decode 8 (SessionFile.encode (Token.ofText "abcdefgh")
      (Cells.empty.write 0 (Token.ofText "abcdefgh")).snapshot) =
        .ok (Token.ofText "abcdefgh", (Cells.empty.write 0 (Token.ofText "abcdefgh")).snapshot) :=
    SessionFile.decode_encode (by decide) (by decide) (by decide)
  obtain ⟨s, w, h, hqueue, hresumes⟩ := @saved_session_resumed 0
    { cachePath := some "s.bin", batchSize := 3, interactive := true, antiprompts := ["B:"],
      negativePrompt := "xyz", guidanceScale := ⟨0x40000000⟩ } _
    { contextSize := 12, hasGuidance := true } (Directory.ofSession (Token.ofText "abcdefgh"))
    _ _ _ _ _ rfl rfl rfl rfl rfl (by decide) rfl (hcoherent _ rfl) hd (by decide) (by decide)
    ⟨rfl, rfl, by simp⟩
  obtain ⟨_, _, h', hoffset⟩ := exists_of_gives (fun s : Session => decide (s.offset = 3))
    (r := start 0
      { cachePath := some "s.bin", batchSize := 3, interactive := true, antiprompts := ["B:"],
        negativePrompt := "xyz", guidanceScale := ⟨0x40000000⟩ }
      { contextSize := 12, hasGuidance := true } (Directory.ofSession (Token.ofText "abcdefgh")))
    (by decide +kernel)
  cases h.symm.trans h'
  replace hoffset := of_decide_eq_true hoffset
  obtain ⟨t, u, ht, -, hu, hpast, -, -, hcells, hcalls⟩ :=
    hresumes ⟨by decide, fun _ => by decide +kernel⟩ (by rw [hoffset]; decide)
  exact ⟨s, w, t, u, h, hoffset, hqueue, ht, hu, hpast, hcells, hcalls⟩

/-- A coherent file is refused if it leaves less than four positions. One that ends the generation,
or has no room beside what guidance takes, is not resident to its last token after the first turn.
-/
theorem saved_session_not_resumed :
    (∃ w, (Directory.ofSession (Token.ofText "abcdefghijklm")).CoherentAt "s.bin" ∧
      start 0 { cachePath := some "s.bin" } { contextSize := 16 }
        (Directory.ofSession (Token.ofText "abcdefghijklm")) =
          .error (.config (.promptTooLong 13 12)) w) ∧
    (∃ s w, (Directory.ofSession (Token.ofText "ab" ++ [Token.eos])).CoherentAt "s.bin" ∧
      start 0 { cachePath := some "s.bin", batchSize := 1 } { contextSize := 16 }
        (Directory.ofSession (Token.ofText "ab" ++ [Token.eos])) = .ok s w ∧
      (outcome (answer (s.showing none))).isOk ∧
      (left (answer (s.showing none))).progress.past = 2) ∧
    ∃ s w, (Directory.ofSession (Token.ofText "abcdefgh")).CoherentAt "s.bin" ∧
      start 0
        { cachePath := some "s.bin", negativePrompt := "vwxyz", guidanceScale := ⟨0x40000000⟩ }
        { contextSize := 12, hasGuidance := true }
        (Directory.ofSession (Token.ofText "abcdefgh")) = .ok s w ∧
      (outcome (answer (s.showing none))).isOk ∧
      (left (answer (s.showing none))).progress.past = 7 := by
  refine ⟨?_, ?_, ?_⟩
  · have hrefused : (match start 0 { cachePath := some "s.bin" } { contextSize := 16 }
        (Directory.ofSession (Token.ofText "abcdefghijklm")) with
        | .ok .. => false
        | .error e _ => e = .config (.promptTooLong 13 12)) = true := by decide +kernel
    split at hrefused
    · cases hrefused
    · next e w h =>
      rw [of_decide_eq_true hrefused] at h
      exact ⟨w, Directory.coherentAt_ofSession (by decide), h⟩
  · obtain ⟨s, w, h, htest⟩ := exists_of_gives
      (fun s : Session => decide ((outcome (answer (s.showing none))).isOk ∧
        (left (answer (s.showing none))).progress.past = 2))
      (r := start 0 { cachePath := some "s.bin", batchSize := 1 } { contextSize := 16 }
        (Directory.ofSession (Token.ofText "ab" ++ [Token.eos]))) (by decide +kernel)
    exact ⟨s, w, Directory.coherentAt_ofSession (by decide), h, of_decide_eq_true htest⟩
  · obtain ⟨s, w, h, htest⟩ := exists_of_gives
      (fun s : Session => decide ((outcome (answer (s.showing none))).isOk ∧
        (left (answer (s.showing none))).progress.past = 7))
      (r := start 0
        { cachePath := some "s.bin", negativePrompt := "vwxyz", guidanceScale := ⟨0x40000000⟩ }
        { contextSize := 12, hasGuidance := true }
        (Directory.ofSession (Token.ofText "abcdefgh"))) (by decide +kernel)
    exact ⟨s, w, Directory.coherentAt_ofSession (by decide), h, of_decide_eq_true htest⟩

end Session

end Dialogue
