import Dialogue.Proofs.Unwritable
import Dialogue.Proofs.RedactedBeginnings
/-!
# Session files that are rejected

A session file that cannot be used is as good as none: but for the attempt to restore the engine,
if it comes to that, a session goes as it would without the file, and the file is left alone.
-/

namespace Dialogue

open Effect

/-- The configuration without a session file. -/
def Config.uncached (c : Config) : Config := { c with cachePath := none }

/-- A configuration is resolved whether or not it has a session file. -/
theorem Config.resolveReported_uncached (now : Nat) (c : Config) :
    c.uncached.resolveReported now =
      (c.resolveReported now).map fun r => (r.1.uncached, r.2) :=
  resolveReported_of_commutes uncached Iff.rfl rfl rfl rfl

/-- The redaction that hides attempts to restore the engine. -/
abbrev Redaction.restoring : Redaction := .over (· = .restoreSnapshot)

/-- A snapshot that is rejected leaves nothing but the call. -/
theorem Engine.ends_restoreSnapshot_rejected (bytes : List UInt8) (e : Engine) :
    Ends (restoreSnapshot bytes) e fun r e' => (∃ error, r = .error error) →
      e'.without (· = .restoreSnapshot) = e.without (· = .restoreSnapshot) ∧
        e'.calls = e.calls.push (.restoreSnapshot bytes) := by
  have hhidden : (Call.restoreSnapshot bytes).isFor (· = .restoreSnapshot) = true := rfl
  have hcalls : Engine.without (· = .restoreSnapshot)
      { e with
        calls := e.calls.push (.restoreSnapshot bytes)
        faults := e.faults.next .restoreSnapshot } = e.without (· = .restoreSnapshot) := by
    simp [without, hhidden, Faults.without_next]
  simp only [restoreSnapshot, note, fails, ends_bind, ends_modify, ends_modifyGet, ends_failIf]
  split
  · exact fun _ => ⟨hcalls, trivial⟩
  · cases Cells.ofSnapshot? bytes with
    | none => exact fun _ => ⟨hcalls, rfl⟩
    | some cells => rintro ⟨_, ⟨⟩⟩

namespace Workbench

/-- A file that is rejected leaves nothing but the attempt to restore the engine. -/
theorem ends_load_rejected (path : String) (capacity : Nat) (w : Workbench) :
    Ends (Cache.load path capacity) w fun r t => (∃ error, r = .error error) →
      t.engine.without (· = .restoreSnapshot) = w.engine.without (· = .restoreSnapshot) ∧
        (t.engine.calls = w.engine.calls ∨
          ∃ bytes, t.engine.calls = w.engine.calls.push (.restoreSnapshot bytes)) := by
  simp only [Cache.load, ends_bind, ends_get]
  split
  · rintro ⟨_, ⟨⟩⟩
  · exact fun _ => ⟨rfl, .inl rfl⟩
  · split
    · exact fun _ => ⟨rfl, .inl rfl⟩
    · next tokens state _ =>
      rw [ends_bind, ends_adaptExcept, ends_call]
      apply (Engine.ends_restoreSnapshot_rejected state w.engine).mono
      intro r e he
      cases r with
      | ok u => rintro ⟨_, ⟨⟩⟩
      | error cause =>
        obtain ⟨hwithout, hcalls⟩ := he ⟨cause, rfl⟩
        exact fun _ => ⟨hwithout, .inr ⟨state, hcalls⟩⟩

/-- Loading a file depends on the engine and the files alone, and changes nothing but the engine and
the journal. -/
theorem inStep_load_engine (path : String) (capacity : Nat) :
    InStep (fun w : Workbench => (w.engine, w.directory))
      (fun w => (w.directory, w.progress, w.cache))
      (Cache.load path capacity) (Cache.load path capacity) := by
  have hcalls {x : EngineM Unit} : InStep (fun w : Workbench => (w.engine, w.directory))
      (fun w => (w.directory, w.progress, w.cache)) (call x) (call x) := by
    have hsame : InStep id (fun _ => ()) x x :=
      ⟨fun e e' he => by rw [show e = e' from he]; exact ⟨rfl, rfl⟩, fun _ => rfl, fun _ => rfl⟩
    refine .onPart hsame (fun _ _ hw => congrArg Prod.fst hw) (fun w w' e e' hw he => ?_)
      fun _ _ _ => rfl
    have hdirectory : w.directory = w'.directory := congrArg Prod.snd hw
    exact Prod.ext he hdirectory
  refine .get_bind fun w w' hw => ?_
  rw [show w.directory = w'.directory from congrArg Prod.snd hw]
  split
  · exact .pure _
  · exact .throw _
  · split
    · exact .throw _
    · exact .bind (.adaptExcept _ hcalls) fun _ => .bind
        (.modify id (fun _ => rfl) (fun _ => rfl) (fun _ => rfl) fun _ => rfl) fun _ => .pure _

section Rejected

variable {c : Config} {path : String} {capacity : Nat} {w t b : Workbench} {error : FileError}

/-- A file is rejected in the same way whatever else stands on the workbench. -/
private theorem ends_load_alike (hrejected : Cache.load path capacity w = .error error t)
    (hengine : b.engine = w.engine) (hdirectory : b.directory = w.directory) :
    Ends (Cache.load path capacity) b fun r u => r = .error error ∧
      u.engine = t.engine ∧ u.directory = b.directory ∧ u.progress = b.progress ∧
        u.cache = b.cache := by
  obtain ⟨u, hu, hsame⟩ := (inStep_load_engine path capacity).exists_error (s := w) (t := b)
    (by rw [hengine, hdirectory]) hrejected
  have hkeeps := (inStep_load_engine path capacity).keeps_left b
  rw [hu] at hkeeps
  rw [ends_iff_of_eq_error hu]
  exact ⟨rfl, (congrArg Prod.fst hsame).symm, congrArg Prod.fst hkeeps, congrArg (·.2.1) hkeeps,
    congrArg (·.2.2) hkeeps⟩

/-- A file that is rejected is given up. -/
private theorem ends_giveUp_rejected (hpath : c.cachePath = some path)
    (hfile : w.directory.contains path = true)
    (hrejected : Cache.load path capacity w = .error error t)
    (hengine : b.engine = w.engine) (hdirectory : b.directory = w.directory) :
    Ends (do
      Cache.replace ⟨c.cachePath, c.cacheReadOnly⟩
      Cache.loadOrColdStart capacity : WorkM SessionError (List Token)) b
      fun r u => r = .ok [] ∧ u.engine = t.engine ∧ u.directory = b.directory ∧
        u.progress = b.progress ∧ u.cache = ⟨none, c.cacheReadOnly⟩ := by
  simp only [Cache.replace, Cache.loadOrColdStart, Cache.loadOrGiveUp, Cache.giveUp,
    Cache.disable, ends_bind, ends_modify, ends_get, hpath, ends_report, hdirectory, hfile,
    if_true, ends_attempt]
  apply (ends_load_alike hrejected (by exact hengine) (by rfl)).mono
  rintro r u ⟨rfl, huengine, hudirectory, huprogress, hucache⟩
  refine ⟨rfl, huengine, hudirectory, huprogress, ?_⟩
  change { u.cache with path := none } = _
  rw [hucache]

/-- Opening a file that is rejected comes to the same as opening none, but for the attempt to
restore the engine. -/
theorem openCache_rejected {size : Nat} (hpath : c.cachePath = some path)
    (hfile : w.directory.contains path = true)
    (hrejected : Cache.load path (Number.signedWord size).toNat w = .error error t)
    (hengine : b.engine = w.engine) (hdirectory : b.directory = w.directory) :
    ∃ u, openCache c size b = .ok [] u ∧ u.engine = t.engine ∧ u.directory = b.directory ∧
      u.progress = b.progress ∧ u.cache = ⟨none, c.cacheReadOnly⟩ := by
  have hends : Ends (openCache c size) b fun r u => ∃ logged, r = .ok logged ∧ logged = [] ∧
      u.engine = t.engine ∧ u.directory = b.directory ∧ u.progress = b.progress ∧
        u.cache = ⟨none, c.cacheReadOnly⟩ := by
    rw [openCache, ends_bind, ends_onlyIf]
    split
    · rw [ends_report]
      apply (ends_giveUp_rejected hpath hfile hrejected (by exact hengine)
        (by exact hdirectory)).mono
      exact fun _ _ h => ⟨[], h.1, rfl, h.2⟩
    · apply (ends_giveUp_rejected hpath hfile hrejected hengine hdirectory).mono
      exact fun _ _ h => ⟨[], h.1, rfl, h.2⟩
  obtain ⟨_, u, hu, rfl, h⟩ := hends.exists_eq_ok
  exact ⟨u, hu, h⟩

end Rejected

/-- Without a session file nothing is opened. -/
theorem openCache_uncached (c : Config) (size : Nat) (b : Workbench) :
    ∃ u, openCache c.uncached size b = .ok [] u ∧ u.engine = b.engine ∧
      u.directory = b.directory ∧ u.progress = b.progress ∧ u.cache = ⟨none, c.cacheReadOnly⟩ := by
  have hends : Ends (openCache c.uncached size) b fun r u => ∃ logged, r = .ok logged ∧
      logged = [] ∧ u.engine = b.engine ∧ u.directory = b.directory ∧ u.progress = b.progress ∧
        u.cache = ⟨none, c.cacheReadOnly⟩ := by
    rw [openCache, ends_bind, ends_onlyIf]
    split <;> exact ⟨[], rfl, rfl, rfl, rfl, rfl, rfl⟩
  obtain ⟨_, u, hu, rfl, h⟩ := hends.exists_eq_ok
  exact ⟨u, hu, h⟩

/-- Once a file is rejected, what a session is to begin with looks as if there were no file. -/
theorem exists_opened_rejected {engine : Engine} {directory : Directory} (journal : Journal)
    (hpath : c.cachePath = some path) (hfile : directory.contains path = true)
    (hrejected : Cache.load path (Number.signedWord engine.contextSize).toNat
      (fresh engine directory) = .error error t) :
    ∃ u u', openCache c engine.contextSize { fresh engine directory with journal } = .ok [] u ∧
      openCache c.uncached engine.contextSize { fresh engine directory with journal } =
        .ok [] u' ∧
      u.redacted .restoring = u'.redacted .restoring ∧ u.engine = t.engine ∧ u'.engine = engine ∧
      u.directory = directory ∧ u.cache.path = none := by
  obtain ⟨u, hu, hengine, hdirectory, hprogress, hcache⟩ :=
    openCache_rejected (b := { fresh engine directory with journal }) hpath hfile hrejected rfl rfl
  obtain ⟨u', hu', hengine', hdirectory', hprogress', hcache'⟩ :=
    openCache_uncached c engine.contextSize { fresh engine directory with journal }
  obtain ⟨hwithout, -⟩ :=
    (ends_iff_of_eq_error hrejected).mp (ends_load_rejected path _ _) ⟨error, rfl⟩
  refine ⟨u, u', hu, hu', ?_, hengine, hengine', hdirectory, by rw [hcache]⟩
  simp only [Workbench.redacted, hengine, hdirectory, hprogress, hcache, hengine', hdirectory',
    hprogress', hcache']
  exact congrArg (Workbench.mk · _ _ _ _) hwithout

/-! ### Beginning -/

private theorem exists_journal_of_reports (l : List Event) (w : Workbench) :
    ∃ journal, (l.forM fun e => report e : WorkM SessionError Unit) w =
      .ok () { w with journal } := by
  induction l generalizing w with
  | nil => exact ⟨w.journal, rfl⟩
  | cons e l ih => exact ih _

/-- The session that begins once its file was opened. -/
def beginOpened (now : Nat) (c : Config) (size : Int) (addsBos : Bool) (logged : List Token) :
    WorkM SessionError Session := do
  let v ← prepareLoaded now c size addsBos logged
  let bench ← get
  return v.session bench

/-- How a session begins, if its configuration is not rejected. -/
theorem start_eq_of_opened {now : Nat} {config c : Config} {engine : Engine}
    {directory : Directory} {events : List Event} {journal : Journal} {logged : List Token}
    {u : Workbench} (hc : config.resolveReported now = .ok (c, events))
    (hreports : (events.forM fun e => report e : WorkM SessionError Unit)
      (fresh engine directory) = .ok () { fresh engine directory with journal })
    (hopens : openCache c engine.contextSize { fresh engine directory with journal } =
      .ok logged u) :
    Session.start now config engine directory =
      beginOpened now c (Number.signedWord engine.contextSize) engine.addsBos logged u := by
  rw [Session.start, startSession_eq, prepare_eq, settle, hc]
  simp only [bind_assoc, pure_bind]
  rw [bind_eq_of_ok hreports]
  change (openCache c engine.contextSize >>= _) { fresh engine directory with journal } = _
  rw [bind_eq_of_ok hopens]
  rfl

/-- Without a configuration no session begins. -/
theorem start_eq_of_unresolved {now : Nat} {config : Config} {e : ConfigError}
    (h : config.resolveReported now = .error e) (engine : Engine) (directory : Directory) :
    Session.start now config engine directory = .error (.config e) (fresh engine directory) := by
  rw [Session.start, startSession_eq, prepare_eq, settle, h]
  rfl

/-- How a session begins does not depend on the session file once that was opened. -/
theorem prepareLoaded_uncached (now : Nat) (c : Config) (size : Int) (addsBos : Bool)
    (logged : List Token) :
    prepareLoaded now c.uncached size addsBos logged = (do
      let v ← prepareLoaded now c size addsBos logged
      return { v with config := v.config.uncached }) := by
  simp only [prepareLoaded, bind_assoc, pure_bind]
  rfl

/-- The session that begins, as it shows. -/
def beginRedacted (hides : Service → Bool) (now : Nat) (c : Config) (size : Int) (addsBos : Bool)
    (logged : List Token) : WorkM SessionError Session := do
  return (← beginOpened now c size addsBos logged).redacted (.over hides)

private theorem beginRedacted_uncached (hides : Service → Bool) (now : Nat) (c : Config)
    (size : Int) (addsBos : Bool) (logged : List Token) :
    beginRedacted hides now c.uncached size addsBos logged =
      beginRedacted hides now c size addsBos logged := by
  simp only [beginRedacted, beginOpened, prepareLoaded_uncached, bind_assoc, pure_bind]
  rfl

private theorem prepares_beginRedacted {hides : Service → Bool} (h : hides .remove = false)
    (now : Nat) (c : Config) (size : Int) (addsBos : Bool) (logged : List Token) :
    Prepares hides (beginRedacted hides now c size addsBos logged) := by
  simp only [beginRedacted, beginOpened, bind_assoc, pure_bind]
  refine .bind (prepares_prepareLoaded h _ _ _ _ _) fun v => .get_bind fun w w' hw => ?_
  have hsession (w : Workbench) : (v.session w).redacted (.over hides) =
      { v.session (w.redacted (.over hides)) with config := v.config.uncached } := rfl
  rw [hsession w, hsession w', hw]
  exact .pure _

/-- What a session keeps beside what shows when it begins is what was there once its file was
opened. -/
theorem kept_of_beginOpened (hides : Service → Bool) (h : hides .remove = false) {now : Nat}
    {c : Config} {size : Int} {addsBos : Bool} {logged : List Token} {u w : Workbench} {s : Session}
    (hs : beginOpened now c size addsBos logged u = .ok s w) :
    s.hidden (.over hides) = u.hidden (.over hides) ∧ s.directory = u.directory ∧
      s.cache = u.cache := by
  obtain ⟨v, w', hv, hs⟩ := bind_eq_ok hs
  obtain ⟨_, _, ⟨⟩, hs⟩ := bind_eq_ok hs
  cases hs
  have hkept := (prepares_prepareLoaded h now c size addsBos logged).keeps_left.of_ok hv
  exact ⟨congrArg (·.1) hkept, congrArg (·.2.1) hkept, congrArg (·.2.2) hkept⟩

private theorem outcome_beginRedacted (hides : Service → Bool) (now : Nat) (c : Config) (size : Int)
    (addsBos : Bool) (logged : List Token) (w : Workbench) :
    outcome (beginRedacted hides now c size addsBos logged w) =
        (outcome (beginOpened now c size addsBos logged w)).map (Session.redacted (.over hides)) ∧
      left (beginRedacted hides now c size addsBos logged w) =
        left (beginOpened now c size addsBos logged w) := by
  rw [beginRedacted]
  cases hw : beginOpened now c size addsBos logged w with
  | error e t =>
    rw [bind_eq_of_error hw]
    exact ⟨rfl, rfl⟩
  | ok s t =>
    rw [bind_eq_of_ok hw]
    exact ⟨rfl, rfl⟩

/-- Sessions that look the same once their files were opened begin alike, also if one of them is to
use no file. -/
theorem beginOpened_alike (hides : Service → Bool) (h : hides .remove = false) (now : Nat)
    (c : Config) (size : Int) (addsBos : Bool) (logged : List Token) {u u' : Workbench}
    (hredacted : u.redacted (.over hides) = u'.redacted (.over hides)) :
    (outcome (beginOpened now c size addsBos logged u)).map (Session.redacted (.over hides)) =
        (outcome (beginOpened now c.uncached size addsBos logged u')).map
          (Session.redacted (.over hides)) ∧
      (left (beginOpened now c size addsBos logged u)).redacted (.over hides) =
        (left (beginOpened now c.uncached size addsBos logged u')).redacted (.over hides) := by
  obtain ⟨houtcome, hleft⟩ :=
    (prepares_beginRedacted h now c size addsBos logged).same u u' hredacted
  obtain ⟨houtcome₁, hleft₁⟩ := outcome_beginRedacted hides now c size addsBos logged u
  obtain ⟨houtcome₂, hleft₂⟩ := outcome_beginRedacted hides now c.uncached size addsBos logged u'
  rw [beginRedacted_uncached] at houtcome₂ hleft₂
  rw [← houtcome₁, ← houtcome₂, ← hleft₁, ← hleft₂]
  exact ⟨houtcome, hleft⟩

end Workbench

namespace Session

open Workbench

variable {config : Config} {engine : Engine} {directory : Directory} {path : String}
  {error : FileError} {t : Workbench}

/-- A session with a file that is rejected begins as one without a file. -/
theorem start_rejected (now : Nat) (hpath : config.cachePath = some path)
    (hfile : directory.contains path = true)
    (hrejected : Cache.load path (Number.signedWord engine.contextSize).toNat
      (fresh engine directory) = .error error t) :
    (outcome (start now config engine directory)).map (redacted .restoring) =
        (outcome (start now config.uncached engine directory)).map (redacted .restoring) ∧
      (left (start now config engine directory)).redacted .restoring =
        (left (start now config.uncached engine directory)).redacted .restoring ∧
      (∀ s w, start now config engine directory = .ok s w →
        s.hidden .restoring = t.engine.only (· = .restoreSnapshot) ∧ s.cache.path = none ∧
          s.directory = directory) ∧
      ∀ s w, start now config.uncached engine directory = .ok s w →
        s.hidden .restoring = engine.only (· = .restoreSnapshot) := by
  cases hresolved : config.resolveReported now with
  | error e =>
    have huncached : config.uncached.resolveReported now = .error e := by
      rw [Config.resolveReported_uncached, hresolved]
      rfl
    rw [start_eq_of_unresolved hresolved, start_eq_of_unresolved huncached]
    refine ⟨rfl, rfl, fun s w h => ?_, fun s w h => ?_⟩ <;> cases h
  | ok r =>
    obtain ⟨c, events⟩ := r
    have huncached : config.uncached.resolveReported now = .ok (c.uncached, events) := by
      rw [Config.resolveReported_uncached, hresolved]
      rfl
    have hcpath : c.cachePath = some path := by
      rw [← hpath]
      exact (Config.resolve_eq_ok (Config.resolve_of_resolveReported hresolved)).2.2.2.1
    obtain ⟨journal, hreports⟩ := exists_journal_of_reports events (fresh engine directory)
    obtain ⟨u, u', hu, hu', hredacted, hengine, hengine', hudirectory, hupath⟩ :=
      exists_opened_rejected journal hcpath hfile hrejected
    obtain ⟨houtcome, hleft⟩ := beginOpened_alike (· = .restoreSnapshot) rfl now c
      (Number.signedWord engine.contextSize) engine.addsBos [] hredacted
    rw [start_eq_of_opened hresolved hreports hu, start_eq_of_opened huncached hreports hu']
    refine ⟨houtcome, hleft, fun s w h => ?_, fun s w h => ?_⟩
    · obtain ⟨hhidden, hdirectory, hcache⟩ :=
        kept_of_beginOpened (· = .restoreSnapshot) rfl h
      exact ⟨hhidden.trans (congrArg (Engine.only _) hengine),
        (congrArg (·.path) hcache).trans hupath, hdirectory.trans hudirectory⟩
    · obtain ⟨hhidden, -⟩ := kept_of_beginOpened (· = .restoreSnapshot) rfl h
      exact hhidden.trans (congrArg (Engine.only _) hengine')

private theorem heedless_answer_restoring : Heedless .restoring (answer : SessionM Outcome) :=
  heedless_answer (heedless_pass
    (heedless_evaluatePending rfl rfl (unaware_feedRest fun _ => rfl).heedless)
    (heedless_drawNext rfl (heedless_savePrompt rfl)))

private theorem heedless_shutdown_restoring : Heedless .restoring shutdown := heedless_shutdown rfl

/-- A session with a file that cannot be used begins as it would without one, if it begins, replies
the same to every action, and always looks the same: the one difference is the attempt to restore
the engine, if the file gets that far. Its bytes stay, unless the transcript is written over them.
-/
theorem rejected_file_unused (now : Nat) (hpath : config.cachePath = some path)
    (hfile : directory.contains path = true)
    (hrejected : Cache.load path (Number.signedWord engine.contextSize).toNat
      (fresh engine directory) = .error error t) :
    (outcome (start now config engine directory)).map (redacted .restoring) =
        (outcome (start now config.uncached engine directory)).map (redacted .restoring) ∧
      (left (start now config engine directory)).redacted .restoring =
        (left (start now config.uncached engine directory)).redacted .restoring ∧
      (t.engine.calls = engine.calls ∨
        ∃ bytes, t.engine.calls = engine.calls.push (.restoreSnapshot bytes)) ∧
      ∀ s w s' w', start now config engine directory = .ok s w →
        start now config.uncached engine directory = .ok s' w' → ∀ actions,
          (s.performAll actions).Indistinct .restoring (s'.performAll actions) ∧
          (s.performAll actions).engine.callsFor .restoreSnapshot =
            t.engine.callsFor .restoreSnapshot ∧
          (s'.performAll actions).engine.callsFor .restoreSnapshot =
            engine.callsFor .restoreSnapshot ∧
          ∀ bytes, directory.read path = .ok bytes →
            (∀ transcript place, s.config.transcriptPath = some transcript →
              directory.locate transcript = .ok place → directory.locate path ≠ .ok place) →
            (s.performAll actions).directory.read path = .ok bytes := by
  obtain ⟨houtcome, hleft, hkept, hkept'⟩ := start_rejected now hpath hfile hrejected
  obtain ⟨-, hcalls⟩ :=
    (ends_iff_of_eq_error hrejected).mp (ends_load_rejected path _ _) ⟨error, rfl⟩
  refine ⟨houtcome, hleft, hcalls, fun s w s' w' hs hs' actions => ?_⟩
  obtain ⟨hhidden, hcache, hdirectory⟩ := hkept s w hs
  have hredacted : s.redacted .restoring = s'.redacted .restoring := by
    rw [hs, hs'] at houtcome
    exact Except.ok.inj houtcome
  have hcallsFor {s : Session} {e : Engine}
      (h : s.hidden .restoring = e.only (· = .restoreSnapshot)) :
      (s.performAll actions).engine.callsFor .restoreSnapshot = e.callsFor .restoreSnapshot :=
    congrArg Prod.fst ((hidden_performAll heedless_answer_restoring heedless_shutdown_restoring s
      actions).trans h)
  refine ⟨?_, hcallsFor hhidden, hcallsFor (hkept' s' w' hs'), fun bytes hread hother => ?_⟩
  · exact indistinct_of_redacted heedless_answer_restoring heedless_shutdown_restoring
      (redacted_performAll heedless_answer_restoring heedless_shutdown_restoring
        (fun _ _ h => congrArg reset h) hredacted actions)
  · have hunwritable : s.cache.isWritable = false := by
      rw [Cache.isWritable, Cache.isActive, hcache]
      rfl
    rw [← hdirectory] at hread hother
    exact read_performAll_of_unwritable hunwritable hread hother actions

/-- A file with a snapshot that is no good is tried once, and is left as it is. -/
theorem rejected_file_unused_of_truncated_snapshot :
    ∃ s w s' w', start 0 { prompt := "abc", cachePath := some "s.bin", cacheAll := true }
        { contextSize := 16, script := Token.ofText "de" }
        ⟨[(["s.bin"], .file (SessionFile.encode (Token.ofText "ab") [1]))]⟩ = .ok s w ∧
      start 0 { prompt := "abc", cacheAll := true }
        { contextSize := 16, script := Token.ofText "de" }
        ⟨[(["s.bin"], .file (SessionFile.encode (Token.ofText "ab") [1]))]⟩ = .ok s' w' ∧
      ∀ actions, (s.performAll actions).Indistinct .restoring (s'.performAll actions) ∧
        (s.performAll actions).engine.callsFor .restoreSnapshot = [.restoreSnapshot [1]] ∧
        (s'.performAll actions).engine.callsFor .restoreSnapshot = [] ∧
        (s.performAll actions).directory.read "s.bin" =
          .ok (SessionFile.encode (Token.ofText "ab") [1]) := by
  obtain ⟨s, w, h, htest⟩ := exists_of_gives
    (fun s : Session => decide (s.config.transcriptPath = none))
    (r := start 0 { prompt := "abc", cachePath := some "s.bin", cacheAll := true }
      { contextSize := 16, script := Token.ofText "de" }
      ⟨[(["s.bin"], .file (SessionFile.encode (Token.ofText "ab") [1]))]⟩) (by decide +kernel)
  obtain ⟨s', w', h', -⟩ := exists_of_gives (fun _ : Session => true)
    (r := start 0 { prompt := "abc", cacheAll := true }
      { contextSize := 16, script := Token.ofText "de" }
      ⟨[(["s.bin"], .file (SessionFile.encode (Token.ofText "ab") [1]))]⟩) (by decide +kernel)
  have hrejects : ∃ error t, Cache.load "s.bin" (Number.signedWord 16).toNat
      (fresh { contextSize := 16, script := Token.ofText "de" }
        ⟨[(["s.bin"], .file (SessionFile.encode (Token.ofText "ab") [1]))]⟩) = .error error t ∧
      t.engine.calls = #[.restoreSnapshot [1]] := by
    have htest : (match Cache.load "s.bin" (Number.signedWord 16).toNat
        (fresh { contextSize := 16, script := Token.ofText "de" }
          ⟨[(["s.bin"], .file (SessionFile.encode (Token.ofText "ab") [1]))]⟩) with
        | .error _ t => decide (t.engine.calls = #[.restoreSnapshot [1]])
        | .ok _ _ => false) = true := by decide +kernel
    split at htest
    · next error t hload => exact ⟨error, t, hload, of_decide_eq_true htest⟩
    · cases htest
  obtain ⟨error, t, hload, hcalls⟩ := hrejects
  have hcontains : Directory.contains
      ⟨[(["s.bin"], .file (SessionFile.encode (Token.ofText "ab") [1]))]⟩ "s.bin" = true := by
    decide +kernel
  obtain ⟨-, -, -, hunused⟩ := @rejected_file_unused
    { prompt := "abc", cachePath := some "s.bin", cacheAll := true }
    { contextSize := 16, script := Token.ofText "de" } _ _ _ _ 0 rfl hcontains hload
  refine ⟨s, w, s', w', h, h', fun actions => ?_⟩
  obtain ⟨hindistinct, hattempt, hnone, hread⟩ := hunused s w s' w' h h' actions
  refine ⟨hindistinct, ?_, hnone, hread _ rfl ?_⟩
  · rw [hattempt, Engine.callsFor, hcalls]
    decide
  · rintro transcript _ htranscript
    rw [of_decide_eq_true htest] at htranscript
    cases htranscript

end Session

end Dialogue
