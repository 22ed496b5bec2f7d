import Dialogue.Proofs.Rooms
import Dialogue.Proofs.SavedOnce
/-!
# Saves that are not seen

Whether the session file can be written does not show in a dialogue that does not begin anew. What
is logged for the file is only read where that was loaded with it, and goes on to be the same until
it is read; what is logged since does not matter. All that can come of it is that a transcript that
cannot be written is refused for another reason, where its path leads through the session file.
-/

namespace Dialogue

open Effect

/-- The redaction that hides the session file, with what was said to be resident of the tokens
logged for it. What is still to be compared with the queue shows. -/
def Redaction.saves : Redaction where
  hides := (· = .takeSnapshot)
  cache := fun c => { c with path := none }
  directory := fun _ => {}
  log := fun l => (l.1.drop l.2, 0)
  savePending := fun _ => false
  traces := fun _ => ([], {})

/-- The redaction that hides besides what is still to be compared with the queue. -/
def Redaction.saved : Redaction := { Redaction.saves with log := fun _ => ([], 0), traces := id }

namespace MainContext

/-- What was logged and is still to be compared with the queue. -/
def ahead (v : MainContext) : List Token := v.logged.drop v.loggedRead

/-- How far the session agrees with the step. -/
def agreed (v : MainContext) : Nat := commonLength v.ahead v.pending

/-- Nothing is left to compare once the session and the step differ. -/
theorem ahead_reuse (v : MainContext) :
    v.reuse.ahead = if v.agreed < v.pending.length then [] else v.ahead.drop v.agreed := by
  change (if (v.agreed < v.pending.length && v.loggedRead + v.agreed < v.logged.length) = true then
    v.logged.take (v.loggedRead + v.agreed) else v.logged).drop (v.loggedRead + v.agreed) = _
  by_cases hk : v.agreed < v.pending.length
  · rw [if_pos hk, List.drop_eq_nil_iff]
    split
    · rw [List.length_take]
      omega
    · next hd => simpa [hk] using hd
  · rw [if_neg hk, if_neg (by simp [hk]), ahead, List.drop_drop]

/-- Once the session is compared with a step, one of them is used up. -/
theorem reuse_ahead (v : MainContext) : v.reuse.pending = [] ∨ v.reuse.ahead = [] := by
  by_cases hk : v.agreed < v.pending.length
  · rw [ahead_reuse, if_pos hk]
    exact .inr rfl
  · exact .inl (List.drop_eq_nil_of_le (Nat.le_of_not_lt hk))

/-- What is logged is known to be resident. -/
theorem ahead_log (v : MainContext) (n : Nat) :
    (v.log n).ahead = v.ahead ∨ (v.log n).ahead = [] := by
  unfold log
  split
  · exact .inr (List.drop_eq_nil_of_le (Nat.le_refl _))
  · exact .inl rfl

end MainContext

private theorem Fed.ahead_eq {l : List (List Token)} {p : Int} {n : Nat} {v u : MainContext}
    {r : Except DecodeError Int} (h : Fed l p n v r u) : u.ahead = v.ahead := by
  induction h with
  | done => rfl
  | failed => rfl
  | next _ _ ih => exact ih

/-- Feeding a step leaves what is still to be compared, once the step was. -/
theorem FedStep.ahead_eq {n : Nat} {v u : MainContext} (h : FedStep n v u)
    (hv : v.pending = [] ∨ v.ahead = []) : u.ahead = v.ahead := by
  have hlog {w : MainContext} (hw : w.ahead = v.ahead) (p : Int) (k : Nat)
      (hk : v.ahead ≠ [] → k = 0) : (MainContext.log { w with past := p } k).ahead = v.ahead := by
    rcases MainContext.ahead_log { w with past := p } k with heq | hnil
    · exact heq.trans hw
    · by_cases hne : v.ahead = []
      · exact hnil.trans hne.symm
      · rw [hk hne]
        exact hw
  have hfails {e : DecodeError} {w : MainContext}
      (h : Fed (pieces n v.pending) v.past 0 v (.error e) w) : v.ahead = [] := by
    refine hv.resolve_left fun hp => ?_
    rw [hp, pieces, if_pos rfl] at h
    cases h
  cases h with
  | whole h =>
    refine hlog h.ahead_eq _ _ fun hne => ?_
    rw [hv.resolve_right hne, List.length_nil]
  | partly h => exact hlog h.ahead_eq _ _ (absurd (hfails h))
  | givenUp h => exact hlog h.ahead_eq _ _ (absurd (hfails h))

namespace Session

variable {s t : Session}

/-! ### Under the redaction -/

/-- The session with other tokens to be compared with the queue. -/
private def aheadBy (s : Session) (tokens : List Token) : Session :=
  { s with progress := { s.progress with logged := tokens, loggedRead := 0 } }

/-- What is still to be compared is all that one redaction shows and the other does not. -/
theorem redacted_saves_iff : s.redacted .saves = t.redacted .saves ↔
    s.redacted .saved = t.redacted .saved ∧ s.mainContext.ahead = t.mainContext.ahead := by
  constructor
  · intro h
    exact ⟨congrArg (aheadBy · []) h, congrArg (·.progress.logged) h⟩
  · rintro ⟨h, hahead⟩
    change (s.redacted .saved).aheadBy s.mainContext.ahead =
      (t.redacted .saved).aheadBy t.mainContext.ahead
    rw [h, hahead]

/-- Comparing the session with the step reads no more of what is logged than what is to be
compared. -/
theorem heedless_reuse : Heedless .saves (advance Progress.reuse) where
  same s t h := by
    obtain ⟨hsaved, hahead⟩ := redacted_saves_iff.mp h
    have hpending : s.progress.pending = t.progress.pending := congrArg (·.progress.pending) h
    have hagreed : s.mainContext.agreed = t.mainContext.agreed :=
      congrArg₂ commonLength hahead hpending
    have hahead' : s.mainContext.reuse.ahead = t.mainContext.reuse.ahead := by
      rw [MainContext.ahead_reuse, MainContext.ahead_reuse, hagreed, hahead]
      exact congrArg (fun l : List Token => if _ < l.length then _ else _) hpending
    refine ⟨rfl, redacted_saves_iff.mpr ⟨?_, hahead'⟩⟩
    exact congrArg₂ (fun (s : Session) (k : Nat) =>
      { s with
        progress :=
          { s.progress with pending := s.progress.pending.drop k, past := s.progress.past + k } })
      hsaved hagreed
  keeps_left _ := rfl
  keeps_right _ := rfl

/-- Logging what is resident does not show. -/
theorem unaware_logPending_saved (n : Nat) : Unaware .saved (logPending n) := by
  have hends (s : Session) : Ends (logPending n) s fun r t => r = .ok () ∧
      t.redacted .saved = s.redacted .saved ∧
        (t.hidden .saved, t.filesAndSettled) = (s.hidden .saved, s.filesAndSettled) := by
    simp only [logPending, ends_bind, ends_get, ends_onlyIf]
    split
    · exact ⟨rfl, rfl, rfl⟩
    · exact ⟨trivial, trivial, trivial⟩
  have hleft (s : Session) := ends_iff_outcome.mp (hends s)
  refine ⟨fun s t h => ⟨(hleft s).1.trans (hleft t).1.symm, ?_⟩, fun s => (hleft s).2.2,
    fun s => (hleft s).2.2⟩
  rw [(hleft s).2.1, (hleft t).2.1, h]

/-- What is fed, and whether that fails, does not depend on what was logged since the file was
loaded. -/
theorem heedless_feedRest : Heedless .saves feedRest where
  same s t h := by
    have hfeeds : Unaware .saved (do
        feedGuidance
        feedMain) :=
      .bind (unaware_feedGuidance rfl) fun _ => unaware_feedMain rfl unaware_logPending_saved
    have hleft (s : Session) :
        (left (feedRest s)).mainContext.ahead = s.mainContext.reuse.ahead :=
      ((ends_feedRest s).mono (R := fun _ t => t.mainContext.ahead = s.mainContext.reuse.ahead)
        fun _ _ ht => ht.2.ahead_eq (MainContext.reuse_ahead _)).left
    obtain ⟨hsaved, hahead⟩ := redacted_saves_iff.mp (heedless_reuse.left_eq h)
    obtain ⟨houtcome, hfed⟩ := hfeeds.same _ _ hsaved
    refine ⟨houtcome, redacted_saves_iff.mpr ⟨hfed, ?_⟩⟩
    rw [hleft, hleft]
    exact hahead
  keeps_left _ := rfl
  keeps_right _ := rfl

end Session

/-! ### Saving -/

/-- A snapshot that is taken does not show. -/
theorem Engine.keeps_without_takeSnapshot :
    Keeps (without (· = .takeSnapshot)) takeSnapshot := by
  have hhidden : Call.takeSnapshot.isFor (· = .takeSnapshot) = true := rfl
  refine .bind (.modify fun e => ?_) fun _ => ?_
  · simp [without, hhidden]
  · refine .bind (fun e => ?_) fun _ => .bind (.failIf _ _) fun _ => .bind .get fun _ => .pure _
    change Engine.without _ { e with faults := e.faults.next .takeSnapshot } = _
    simp [without, Faults.without_next]

/-- Saving the session file does not show, whether or not that succeeds. -/
theorem Cache.ends_saveOrDisable_redacted {ε : Type} (tokens : List Token) (b : Workbench) :
    Ends (Cache.saveOrDisable tokens : WorkM ε Bool) b fun r t =>
      (∃ written, r = .ok written) ∧ t.redacted .saves = b.redacted .saves := by
  have hsave (path : String) : Keeps (Workbench.redacted .saves) (save path tokens) := by
    refine .bind (.adaptExcept _ (.onPart Engine.keeps_without_takeSnapshot fun w e he => ?_))
      fun state => .bind .get fun w => ?_
    · exact congrArg (fun e => { w.redacted .saves with engine := e }) he
    · split
      · exact .throw _
      · exact .bind (.modify fun _ => rfl) fun _ => .modify fun _ => rfl
  simp only [saveOrDisable, ends_bind, ends_get]
  split
  · exact ⟨⟨_, rfl⟩, rfl⟩
  · rw [ends_ite]
    split
    · exact ⟨⟨_, rfl⟩, rfl⟩
    · simp only [saveOrGiveUp, ends_bind, ends_attempt]
      apply (Ends.keeps (hsave _)).mono
      intro r t ht
      cases r with
      | ok u => exact ⟨⟨_, rfl⟩, ht⟩
      | error e => exact ⟨⟨_, rfl⟩, ht⟩

namespace Session

variable {s t : Session}

private theorem ends_saved_redacted (tokens : List Token) (s : Session) :
    Ends (discard (onBench id (Cache.saveOrDisable tokens))) s fun r t =>
      r = .ok () ∧ t.redacted .saves = s.redacted .saves := by
  rw [ends_discard, ends_onBench]
  apply (Cache.ends_saveOrDisable_redacted tokens s.toWorkbench).mono
  rintro _ b ⟨⟨written, rfl⟩, hb⟩
  exact ⟨rfl, congrArg (fun b => { s.redacted .saves with toWorkbench := b }) hb⟩

/-- Saving the session file before a draw does not show. -/
theorem heedless_savePrompt_saves : Heedless .saves savePrompt := by
  have hends (s : Session) : Ends savePrompt s fun r t =>
      r = .ok () ∧ t.redacted .saves = s.redacted .saves := by
    simp only [savePrompt, ends_bind, ends_get, ends_onlyIf]
    split
    · rw [ends_advance]
      apply (ends_saved_redacted _ _).mono
      rintro _ t ⟨rfl, ht⟩
      exact ⟨rfl, ht⟩
    · exact ⟨trivial, trivial⟩
  have hleft (s : Session) := ends_iff_outcome.mp (hends s)
  refine ⟨fun s t h => ⟨(hleft s).1.trans (hleft t).1.symm, ?_⟩, fun _ => rfl, fun _ => rfl⟩
  rw [(hleft s).2, (hleft t).2, h]

private theorem heedless_answer_saves : Heedless .saves (answer : SessionM Outcome) :=
  heedless_answer (heedless_pass (heedless_evaluatePending rfl rfl heedless_feedRest)
    (heedless_drawNext rfl heedless_savePrompt_saves))

/-- What closing a session leaves shows only that it was closed. -/
theorem redacted_shutdown (s : Session) :
    (left (shutdown s)).redacted .saves = { s.redacted .saves with closed := true } := by
  cases hclosed : s.closed with
  | true =>
    rw [shutdown_of_closed hclosed, left, ← hclosed]
    rfl
  | false =>
    have hsaves (s : Session) : Ends saveAll s fun r t =>
        r = .ok () ∧ t.redacted .saves = s.redacted .saves := by
      simp only [saveAll, ends_bind, ends_get, ends_onlyIf]
      split
      · rw [ends_report]
        exact ends_saved_redacted _ _
      · exact ⟨trivial, trivial⟩
    have hwrites : Keeps (redacted .saves) writeTranscript := by
      refine .bind .get fun s => ?_
      split
      · exact .pure _
      · split
        · exact .modify fun _ => rfl
        · exact .throw _
        · exact .throw _
    have hends : Ends shutdown s fun _ t =>
        t.redacted .saves = { s.redacted .saves with closed := true } := by
      simp only [shutdown, ends_bind, ends_get, ends_onlyIf, hclosed, Bool.not_false, if_true,
        ends_modify]
      apply (hsaves _).mono
      rintro _ t ⟨rfl, ht⟩
      apply (Ends.keeps hwrites).mono
      exact fun _ _ hu => hu.trans ht
    exact hends.left

/-- Sessions that look the same under the redaction look the same after every action but to begin
anew. -/
theorem redacted_performAll_saves {actions : List Action}
    (hactions : ∀ e ∈ actions, e ≠ .request .reset) (h : s.redacted .saves = t.redacted .saves) :
    (s.performAll actions).redacted .saves = (t.performAll actions).redacted .saves := by
  induction actions generalizing s t with
  | nil => exact h
  | cons e es ih =>
    apply ih fun e he => hactions e (List.mem_cons_of_mem _ he)
    match e, hactions e List.mem_cons_self with
    | .request (.answer room), _ => exact heedless_answer_saves.left_eq (redacted_showing h room)
    | .request (.query text room), _ =>
      exact (unaware_query text).left_eq (redacted_showing h room)
    | .request .reset, hr => exact absurd rfl hr
    | .close, _ =>
      rw [perform, perform, redacted_shutdown, redacted_shutdown, h]

/-- What looks the same where only snapshots do not show looks the same under the redaction. -/
theorem redacted_saves_of_over
    (h : s.redacted (.over (· = .takeSnapshot)) = t.redacted (.over (· = .takeSnapshot))) :
    s.redacted .saves = t.redacted .saves :=
  congrArg (fun s : Session =>
    { s with
      directory := {}
      cache := { s.cache with path := none }
      progress :=
        { s.progress with
          logged := s.progress.logged.drop s.progress.loggedRead
          loggedRead := 0
          savePending := false } }) h

/-- Sessions that look the same are closed alike. -/
theorem alike_shutdown (h : s.redacted .saves = t.redacted .saves)
    (hrooms : s.directory.SameRooms t.directory) :
    SessionError.Alike (outcome (shutdown s)) (outcome (shutdown t)) := by
  have hclosed : s.closed = t.closed := congrArg (·.closed) h
  cases hs : s.closed with
  | true =>
    rw [shutdown_of_closed hs, shutdown_of_closed (hclosed ▸ hs)]
    exact .inl rfl
  | false =>
    obtain ⟨-, v, u, hv, hwrites⟩ := ends_iff_outcome.mp (ends_shutdown_rooms hs)
    obtain ⟨-, v', u', hv', hwrites'⟩ :=
      ends_iff_outcome.mp (ends_shutdown_rooms (hclosed.symm.trans hs))
    rw [← show s.config.transcriptPath = t.config.transcriptPath from
        congrArg (·.config.transcriptPath) h,
      ← show s.transcript = t.transcript from congrArg (·.transcript) h] at hwrites'
    exact hwrites.alike hwrites' (hv.symm.trans (hrooms.trans hv'))

/-- The session file is not saved once it is only read, could not be used, could not be written, or
the context was swapped: no snapshot is asked for any more, and no file is written but the
transcript. Unless the dialogue begins anew, one snapshot is asked for at most, and one more to
close the session. Whether that succeeds does not show: a session that looks the same but for its
file, such as one for which other snapshots fail, replies the same to every request until the
dialogue begins anew, and always looks the same; it is closed alike, though a transcript that cannot
be opened may be refused for another reason. -/
theorem session_file_saved_once {now : Nat} {config : Config} {engine : Engine}
    {directory : Directory} {w : Workbench} (h : start now config engine directory = .ok s w) :
    (config.cacheReadOnly = true → s.cache.isWritable = false) ∧
    (∀ path error t, config.cachePath = some path → directory.contains path = true →
      Cache.load path (Number.signedWord engine.contextSize).toNat
          (Workbench.fresh engine directory) = .error error t →
        s.cache.isWritable = false) ∧
    (∀ x : Session, x.Disciplined) ∧
    (∀ engine', engine'.without (· = .takeSnapshot) = engine.without (· = .takeSnapshot) →
      ∃ s' w', start now config engine' directory = .ok s' w' ∧
        s.redacted .saves = s'.redacted .saves ∧ s.directory = s'.directory) ∧
    ∀ s' : Session, s.redacted .saves = s'.redacted .saves →
      ∀ actions, (∀ e ∈ actions, e ≠ .request .reset) →
        (s.performAll actions).redacted .saves = (s'.performAll actions).redacted .saves ∧
        (∀ r, (s.performAll actions).reply r = (s'.performAll actions).reply r) ∧
        (s.directory.SameRooms s'.directory →
          SessionError.Alike (outcome (shutdown (s.performAll actions)))
            (outcome (shutdown (s'.performAll actions)))) := by
  refine ⟨fun hro => ?_, fun path error t hpath hfile hrejected => ?_, disciplined,
    fun engine' hengine => ?_, fun s' hs' actions hactions => ?_⟩
  · rw [Cache.isWritable, Workbench.readOnly_of_start h, hro, Bool.not_true, Bool.and_false]
  · obtain ⟨-, -, hkept, -⟩ := start_rejected now hpath hfile hrejected
    rw [Cache.isWritable, Cache.isActive, (hkept s w h).2.1]
    rfl
  · obtain ⟨s', w', h', hover⟩ := Workbench.redacted_of_start _ rfl rfl hengine h
    exact ⟨s', w', h', redacted_saves_of_over hover, congrArg (·.directory) hover⟩
  · have hredacted := redacted_performAll_saves hactions hs'
    refine ⟨hredacted, fun r => ?_, fun hrooms => alike_shutdown hredacted ?_⟩
    · cases r with
      | answer room =>
        exact congrArg (Except.map some)
          (heedless_answer_saves.outcome_eq (redacted_showing hredacted room))
      | query text room =>
        exact congrArg (Except.map fun _ => none)
          ((unaware_query text).outcome_eq (redacted_showing hredacted room))
      | reset => rfl
    · have hfileChanges := FileChanges.sameRooms (fileChanges_performAll s actions)
      have hfileChanges' := FileChanges.sameRooms (fileChanges_performAll s' actions)
      exact hfileChanges.symm.trans (hrooms.trans hfileChanges')

/-- A save that fails is not tried again, and the dialogue goes on as if it had not. -/
theorem session_file_saved_once_of_failed_save :
    ∃ s w s' w',
      start 0 { prompt := "ab", cachePath := some "s.bin" }
          { contextSize := 16, script := Token.ofText "cd", faults := { takeSnapshot := [true] } }
          {} = .ok s w ∧
      start 0 { prompt := "ab", cachePath := some "s.bin" }
          { contextSize := 16, script := Token.ofText "cd" } {} = .ok s' w' ∧
      (s.performAll [.request (.answer none)]).directory.contains "s.bin" = false ∧
      (s'.performAll [.request (.answer none)]).directory.contains "s.bin" = true ∧
      (s.performAll [.request (.answer none)]).cache.isWritable = false ∧
      (∀ t, FileChanges (s.performAll [.request (.answer none)]) t →
        (s.performAll [.request (.answer none)]).Unfiled t) ∧
      (s.performAll [.request (.answer none)]).redacted .saves =
        (s'.performAll [.request (.answer none)]).redacted .saves ∧
      ∀ text, (s.performAll [.request (.answer none)]).reply (.query text none) =
        (s'.performAll [.request (.answer none)]).reply (.query text none) := by
  obtain ⟨s, w, h, htest⟩ := exists_of_gives
    (fun s : Session =>
      decide ((s.performAll [.request (.answer none)]).directory.contains "s.bin" = false) &&
        decide ((s.performAll [.request (.answer none)]).cache.isWritable = false))
    (r := start 0 { prompt := "ab", cachePath := some "s.bin" }
      { contextSize := 16, script := Token.ofText "cd", faults := { takeSnapshot := [true] } } {})
    (by decide +kernel)
  obtain ⟨s', w', h', htest'⟩ := exists_of_gives
    (fun s : Session =>
      decide ((s.performAll [.request (.answer none)]).directory.contains "s.bin" = true))
    (r := start 0 { prompt := "ab", cachePath := some "s.bin" }
      { contextSize := 16, script := Token.ofText "cd" } {}) (by decide +kernel)
  rw [Bool.and_eq_true, decide_eq_true_eq, decide_eq_true_eq] at htest
  obtain ⟨-, -, hdisciplined, hbegins, hunseen⟩ := session_file_saved_once h
  obtain ⟨s'', w'', h'', hsame, -⟩ := hbegins { contextSize := 16, script := Token.ofText "cd" } rfl
  cases h'.symm.trans h''
  obtain ⟨hredacted, hreply, -⟩ := hunseen s' hsame [.request (.answer none)] (by simp)
  exact ⟨s, w, s', w', h, h', htest.1, of_decide_eq_true htest', htest.2,
    (hdisciplined _).unfiled htest.2, hredacted, fun text => hreply _⟩

/-- Whether a computation failed in some way. -/
private def failsWith (error : SessionError) : Except SessionError Unit → Bool
  | .ok _ => false
  | .error e => e = error

private theorem eq_of_failsWith {error : SessionError} {r : Except SessionError Unit}
    (h : failsWith error r = true) : r = .error error := by
  cases r with
  | ok _ => cases h
  | error e => exact congrArg Except.error (of_decide_eq_true h)

/-- Where the path of a transcript leads through the session file, closing is refused since that is
no directory if the file was saved, and since there is no directory if it was not. -/
theorem saves_seen_by_transcript :
    ∃ s w s' w',
      start 0 { prompt := "ab", cachePath := some "t", transcriptPath := some "t/x.json" }
          { contextSize := 16, faults := { takeSnapshot := [true] } } {} = .ok s w ∧
      start 0 { prompt := "ab", cachePath := some "t", transcriptPath := some "t/x.json" }
          { contextSize := 16 } {} = .ok s' w' ∧
      outcome (shutdown (s.performAll [.request (.answer none)])) = .error (.io .notFound) ∧
      outcome (shutdown (s'.performAll [.request (.answer none)])) =
        .error (.io .notADirectory) := by
  obtain ⟨s, w, h, htest⟩ := exists_of_gives
    (fun s : Session =>
      failsWith (.io .notFound) (outcome (shutdown (s.performAll [.request (.answer none)]))))
    (r := start 0 { prompt := "ab", cachePath := some "t", transcriptPath := some "t/x.json" }
      { contextSize := 16, faults := { takeSnapshot := [true] } } {}) (by decide +kernel)
  obtain ⟨s', w', h', htest'⟩ := exists_of_gives
    (fun s : Session =>
      failsWith (.io .notADirectory) (outcome (shutdown (s.performAll [.request (.answer none)]))))
    (r := start 0 { prompt := "ab", cachePath := some "t", transcriptPath := some "t/x.json" }
      { contextSize := 16 } {}) (by decide +kernel)
  exact ⟨s, w, s', w', h, h', eq_of_failsWith htest, eq_of_failsWith htest'⟩

end Session

end Dialogue
