import Dialogue.Proofs.RejectedFile
/-!
# How often the session file is saved

The session file is given up where it cannot be used, where it cannot be written, and where the
context is swapped. Once it is given up, or if it is only read, it is not saved any more. As long as
the dialogue does not begin anew it is saved once at most to be used again, and it is saved once at
most when the session is closed.
-/

namespace Dialogue

open Effect

/-- A configuration that is resolved says as before whether the session file is only read. -/
theorem Config.cacheReadOnly_of_resolve {now : Nat} {config c : Config}
    (h : config.resolve now = .ok c) : c.cacheReadOnly = config.cacheReadOnly := by
  obtain ⟨-, -, rfl⟩ := resolve_eq_ok_iff.mp h
  rfl

namespace Workbench

private theorem ends_openCache_readOnly (c : Config) (size : Nat) (b : Workbench) :
    Ends (openCache c size) b fun _ u => u.cache.readOnly = c.cacheReadOnly := by
  have hreports {ε : Type} (e : Event) :
      Keeps (·.cache.readOnly) (report e : WorkM ε Unit) := .modify fun _ => rfl
  have hdisables {ε : Type} : Keeps (·.cache.readOnly) (Cache.disable : WorkM ε Unit) :=
    .modify fun _ => rfl
  have hload (path : String) (capacity : Nat) :
      Keeps (·.cache.readOnly) (Cache.load path capacity) := fun w =>
    congrArg (·.2.2.readOnly) ((inStep_load_engine path capacity).keeps_left w)
  have hloads (path : String) (capacity : Nat) : Keeps (·.cache.readOnly)
      (Cache.loadOrGiveUp path capacity : WorkM SessionError (List Token)) := by
    refine .bind (.attempt (hload path capacity)) fun r => ?_
    cases r with
    | ok tokens => exact .bind (hreports _) fun _ => .pure _
    | error error => exact .bind (.bind (hreports _) fun _ => hdisables) fun _ => .pure _
  have hopens (capacity : Nat) : Keeps (·.cache.readOnly)
      (Cache.loadOrColdStart capacity : WorkM SessionError (List Token)) := by
    refine .bind .get fun w => ?_
    split
    · exact .pure _
    · refine .bind (hreports _) fun _ => ?_
      refine .bind .get fun _ => ?_
      exact .ite (hloads _ _) (.bind (hreports _) fun _ => .pure _)
  have hrest (b : Workbench) : Ends (do
      Cache.replace ⟨c.cachePath, c.cacheReadOnly⟩
      Cache.loadOrColdStart (Number.signedWord size).toNat : WorkM SessionError (List Token)) b
      fun _ u => u.cache.readOnly = c.cacheReadOnly := by
    rw [Cache.replace, ends_bind, ends_modify]
    exact Ends.keeps (hopens _)
  rw [openCache, ends_bind, ends_onlyIf]
  split
  · rw [ends_report]
    exact hrest _
  · exact hrest b

/-- Whether the session file is only read is a matter of the configuration. -/
theorem readOnly_of_start {now : Nat} {config : Config} {engine : Engine} {directory : Directory}
    {s : Session} {w : Workbench} (h : Session.start now config engine directory = .ok s w) :
    s.cache.readOnly = config.cacheReadOnly := by
  rw [Session.start, startSession_eq] at h
  obtain ⟨v, w₃, hprepared, h⟩ := bind_eq_ok h
  rw [prepare_eq] at hprepared
  obtain ⟨c, w₁, hsettled, hprepared⟩ := bind_eq_ok hprepared
  obtain ⟨_, _, ⟨⟩, hprepared⟩ := bind_eq_ok hprepared
  obtain ⟨logged, w₂, hopened, hprepared⟩ := bind_eq_ok hprepared
  have hkept : Prepares (fun _ => false) (prepareLoaded now c w₁.contextPositions
      w₁.engine.addsBos logged) := prepares_prepareLoaded rfl _ _ _ _ _
  have hcache : w₃.cache = w₂.cache := congrArg (·.2.2) (hkept.keeps_left.of_ok hprepared)
  obtain ⟨_, _, ⟨⟩, h⟩ := bind_eq_ok h
  cases h
  change w.cache.readOnly = _
  rw [hcache, (ends_openCache_readOnly _ _ _).of_ok hopened,
    Config.cacheReadOnly_of_resolve (settle_eq_ok hsettled).2.2]

end Workbench

/-- A swap that fails leaves the counter. -/
theorem Swap.past_eq_of_failing_lt {w : Window} {v u : MainContext} (h : Swap w v u)
    (hlt : u.failing < v.failing) : u.past = v.past := by
  cases h with
  | idle => exact absurd hlt (Nat.lt_irrefl _)
  | unremoved => rfl
  | unmoved => rfl
  | evicted _ hr hs =>
    have hremove := Faults.count_tail v.removeFaults
    have hshift := Faults.count_tail v.shiftFaults
    rw [hr] at hremove
    rw [hs] at hshift
    simp only [MainContext.failing, Bool.toNat_false] at hlt hremove hshift
    omega

namespace Window

/-- The file is given up where a swap is completed: where the step does not fit, if no call fails,
and wherever tokens are evicted. -/
theorem ends_ensureRoom_path (w : Window) (offset : Option Int) (b : Workbench) :
    Ends (w.ensureRoom offset) b fun r b' =>
      r.isOk = true ∧ w.overflows b.progress.past b.progress.pending.length (offset.getD 0) = true ∨
        b'.progress.past ≠ b.progress.past → b'.cache.path = none := by
  have hcompleted (past : Int) (l : List Int) :
      Ends ((past :: l).mapM fun _ => w.swap offset.isSome) b fun r b' =>
        r.isOk = true ∨ b'.progress.past ≠ b.progress.past → b'.cache.path = none := by
    rw [List.mapM_cons, ends_bind]
    apply (ends_swap w offset.isSome b).mono
    rintro r b₁ ⟨hswap, hr⟩
    cases r with
    | error e =>
      rintro (⟨⟨⟩⟩ | hne)
      exact absurd (hswap.past_eq_of_failing_lt hr) hne
    | ok x =>
      simp only [ends_bind, ends_pure]
      apply (ends_swaps w _ l b₁).mono
      rintro r b₂ ⟨hswaps, -⟩
      cases r <;> exact fun _ => hswaps.path_eq_none hr.1
  simp only [ensureRoom, ends_bind, ends_get]
  by_cases ho : w.overflows b.progress.past b.progress.pending.length (offset.getD 0) = true
  · obtain ⟨past, l, hl⟩ : ∃ past l,
        w.evictions b.progress.pending.length (offset.getD 0) b.progress.past = past :: l := by
      rw [evictions, if_pos ho]
      split <;> exact ⟨_, _, rfl⟩
    rw [hl]
    apply (hcompleted past l).mono
    intro r b' h
    cases r <;> exact fun hp => h (hp.imp_left And.left)
  · rw [evictions, if_neg ho, List.mapM_nil, ends_pure]
    rintro (⟨-, h⟩ | h)
    · exact absurd h ho
    · exact absurd rfl h

end Window

namespace Session

variable {s t u : Session}

/-! ### How often -/

/-- How often the engine is asked for a snapshot by actions of some kind. -/
def snapshotsBy (kind : Action → Bool) : Session → List Action → Nat
  | _, [] => 0
  | s, e :: es =>
    (if kind e then (s.perform e).fileState.snapshots - s.fileState.snapshots else 0)
      + snapshotsBy kind (s.perform e) es

private theorem FileSteps.snapshots_add (h : FileSteps s t) :
    t.fileState.snapshots + t.fileState.savePending.toNat = s.fileState.snapshots +
      s.fileState.savePending.toNat ∧
      s.fileState.snapshots ≤ t.fileState.snapshots := by
  induction h with
  | refl => exact ⟨rfl, Nat.le_refl _⟩
  | tail _ h ih =>
    obtain ⟨heq, hle⟩ := h.fileState_stepped.2.2.snapshots_add
    exact ⟨heq.trans ih.1, Nat.le_trans ih.2 hle⟩

/-- Closing a session takes one snapshot at most, and none if the session was closed. -/
theorem fileState_close (s : Session) :
    (s.perform .close).fileState.savePending = s.fileState.savePending ∧
      (s.perform .close).fileState.snapshots ≤ s.fileState.snapshots + (!s.closed).toNat ∧
      (s.perform .close).closed = true := by
  rw [perform]
  cases hclosed : s.closed with
  | true =>
    rw [shutdown_of_closed hclosed]
    exact ⟨rfl, Nat.le_refl _, hclosed⟩
  | false =>
    obtain ⟨r, ⟨-, ht, u, hu, hwrites⟩, -⟩ := (ends_shutdown_fileState hclosed).exists_left
    have hsaved : u.savePending = s.fileState.savePending ∧
        u.snapshots ≤ s.fileState.snapshots + 1 := by
      rcases hu with rfl | ⟨written, hu⟩
      · exact ⟨rfl, Nat.le_succ _⟩
      · exact ⟨hu.savePending_eq, hu.snapshots_le⟩
    have hkept : (left (shutdown s)).fileState.savePending = u.savePending ∧
        (left (shutdown s)).fileState.snapshots = u.snapshots := by
      generalize (left (shutdown s)).fileState = v at hwrites
      cases hwrites <;> exact ⟨rfl, rfl⟩
    rw [hkept.1, hkept.2]
    exact ⟨hsaved.1, hsaved.2, ht⟩

/-- Requests other than to begin anew take as many snapshots as were to be taken. -/
theorem snapshotsBy_requests_add {actions : List Action}
    (h : ∀ e ∈ actions, e ≠ .request .reset) (s : Session) :
    s.snapshotsBy (· ≠ .close) actions + (s.performAll actions).fileState.savePending.toNat =
      s.fileState.savePending.toNat := by
  induction actions generalizing s with
  | nil => exact Nat.zero_add _
  | cons e es ih =>
    have hrest := ih (fun e he => h e (List.mem_cons_of_mem _ he)) (s.perform e)
    change _ + _ + ((s.perform e).performAll es).fileState.savePending.toNat = _
    cases e with
    | close =>
      rw [(fileState_close s).1] at hrest
      simpa using hrest
    | request r =>
      have hr : r ≠ .reset := fun heq => h _ List.mem_cons_self (congrArg Action.request heq)
      obtain ⟨heq, hle⟩ := (fileSteps_serve s r hr).snapshots_add
      simp only [ne_eq, reduceCtorEq, not_false_eq_true, decide_true, if_true, perform] at hrest ⊢
      omega

/-- A session is saved once at most when it is closed. -/
theorem snapshotsBy_close_le (s : Session) (actions : List Action) :
    s.snapshotsBy (· = .close) actions ≤ (!s.closed).toNat := by
  induction actions generalizing s with
  | nil => exact Nat.zero_le _
  | cons e es ih =>
    have hrest := ih (s.perform e)
    rw [snapshotsBy]
    cases e with
    | close =>
      obtain ⟨-, hle, hclosed⟩ := fileState_close s
      rw [hclosed] at hrest
      simp only [decide_true, if_true, Bool.not_true, Bool.toNat_false] at hrest ⊢
      omega
    | request r =>
      have hcloses := FileChanges.closed (fileChanges_perform s (.request r))
      have hle : (!(s.perform (.request r)).closed).toNat ≤ (!s.closed).toNat := by
        cases hs : s.closed with
        | true => exact Nat.le_of_eq (by rw [hcloses hs])
        | false => exact Bool.toNat_le _
      simp only [reduceCtorEq, decide_false, Bool.false_eq_true, if_false, Nat.zero_add]
      exact Nat.le_trans hrest hle

/-! ### The discipline -/

/-- How a session deals with its file. -/
structure Disciplined (s : Session) : Prop where
  /-- A swap that does not fail gives the file up, also if nothing is evicted. -/
  swap : ∀ guided eviction t, onBench .engine (s.window.swap guided) s = .ok eviction t →
    t.cache.isWritable = false
  /-- So does room that is made for a step that does not fit, and that is evicted for even if a swap
  fails then. -/
  makeRoom : (∃ t, Session.makeRoom s = .ok () t) ∧ s.overflows = true ∨
      (left (Session.makeRoom s)).progress.past ≠ s.progress.past →
    (left (Session.makeRoom s)).cache.isWritable = false
  /-- A save that does not write the file leaves one that is not written. -/
  save : ∀ tokens t, onBench id (Cache.saveOrDisable tokens) s = .ok false t →
    t.cache.isWritable = false
  /-- From then on no snapshot is asked for, and no file is written but the transcript. -/
  unfiled : s.cache.isWritable = false → ∀ t, FileChanges s t → s.Unfiled t
  /-- What is asked of the session changes the file by these steps. -/
  fileChanges : ∀ actions, FileChanges s (s.performAll actions)
  /-- So does an evaluation. -/
  fileChanges_evaluate : FileChanges s (left (evaluatePending s))
  /-- So does a step that is taken. -/
  fileChanges_step : FileChanges s (left (takeStep s))
  /-- Until the dialogue begins anew one snapshot is asked for at most, besides closing. -/
  requests : ∀ actions, (∀ e ∈ actions, e ≠ .request .reset) →
    s.snapshotsBy (· ≠ .close) actions ≤ 1
  /-- One snapshot is asked for at most by closing. -/
  close : ∀ actions, s.snapshotsBy (· = .close) actions ≤ 1
  /-- To let the session go is to close it. -/
  drop : s.drop.fileState = (s.perform .close).fileState

/-- Every session deals with its file as it should. -/
theorem disciplined (s : Session) : s.Disciplined where
  swap guided eviction t h := ((ends_swap_fileState guided s).of_ok h).2.2.2 eviction rfl
  makeRoom h := by
    have hpath : Ends Session.makeRoom s fun r t => r = .ok () ∧ s.overflows = true ∨
        t.progress.past ≠ s.progress.past → t.cache.isWritable = false := by
      simp only [Session.makeRoom, ends_bind, ends_get, ends_discard, ends_onBench]
      apply (Window.ends_ensureRoom_path _ _ s.toWorkbench).mono
      intro r b hb hp
      rw [Cache.isWritable, Cache.isActive, hb]
      · rfl
      · refine hp.imp_left ?_
        rintro ⟨hr, ho⟩
        refine ⟨?_, ho⟩
        cases r with
        | error e => cases hr
        | ok a => rfl
    rw [ends_iff_outcome] at hpath
    refine hpath (h.imp_left ?_)
    rintro ⟨⟨t, ht⟩, ho⟩
    refine ⟨?_, ho⟩
    rw [ht]
    rfl
  save tokens t h := by
    have hsaves : Ends (onBench id (Cache.saveOrDisable tokens)) s fun r t =>
        r = .ok false → t.cache.isWritable = false := by
      rw [ends_onBench]
      apply (Cache.ends_saveOrDisable_fileState tokens s.toWorkbench).mono
      rintro _ b ⟨written, rfl, hsaved⟩ hwritten
      cases hwritten
      exact hsaved.unwritable
    exact hsaves.of_ok h rfl
  unfiled hs _ h := h.unfiled hs
  fileChanges := fileChanges_performAll s
  fileChanges_evaluate := (fileSteps_evaluatePending s).fileChanges
  fileChanges_step := (fileSteps_takeStep s).fileChanges
  requests actions h := by
    have hadd := snapshotsBy_requests_add h s
    have hle := Bool.toNat_le s.fileState.savePending
    omega
  close actions := Nat.le_trans (snapshotsBy_close_le s actions) (Bool.toNat_le _)
  drop := by
    rw [Session.drop, perform]
    cases shutdown s <;> rfl

end Session

end Dialogue
