import Dialogue.Proofs.PlainTurns
import Dialogue.Proofs.WrittenFiles
/-!
# The size of the batches

Two sessions that begin alike but for the size of their batches meet at the first draw: whatever the
cuts, what is queued has come to the same in the unbatched view by then. From there on they go on
alike. So the size of the batches cannot be told from a turn that nobody answers, nor from the files
that are left when the sessions are closed, except from the transcript, which tells single tokens
from batches.
-/

namespace Dialogue.Session

open Effect

variable {s t : Session}

/-! ### Meeting at the first draw -/

private theorem ending_eq (h : s.unbatched = t.unbatched) : s.ending = t.ending := by
  change s.unbatched.ending = t.unbatched.ending
  rw [h]

/-- Sessions with the same unbatched view that take what is queued and then draw take their turns
alike. -/
theorem endAlike_answer_of_prompting (h : s.Alike t) (hs : s.Prompting) (ht : t.Prompting)
    (hpending : s.progress.pending = []) (hne : s.progress.unread ≠ [])
    (hguidance : s.guidance = none) : EndAlike answer answer s t := by
  have hpending' : t.progress.pending = [] :=
    (congrArg (·.progress.pending) h.same).symm.trans hpending
  have hunread : s.progress.unread = t.progress.unread := congrArg (·.progress.unread) h.same
  obtain ⟨u, v, hpasses, hv, hout, hdecodes, -⟩ :=
    hs.exists_passes (evaluatePending_of_pending_nil hpending) hne (.inl h.decodes_left)
  obtain ⟨u', v', hpasses', hv', hout', hdecodes', -⟩ :=
    ht.exists_passes (evaluatePending_of_pending_nil hpending') (hunread ▸ hne)
      (.inl h.decodes_right)
  -- The sessions meet once the queue is read: the cuts do not show in what it comes to.
  have hmeet : (left (clearPending v)).Alike (left (clearPending v')) := by
    refine ⟨?_, hdecodes h.decodes_left, hdecodes' h.decodes_right⟩
    change v.unbatched.cleared = v'.unbatched.cleared
    rw [hout, hout', h.same, hunread, ending_eq h.same]
  obtain ⟨hprompting, hread, -⟩ := hs.prompted (List.append_nil _).symm hout
  have hdrained : v.progress.queueDrained = true := Progress.queueDrained_iff.mpr hread
  have hturnState : v.turnState = u.turnState :=
    (turnAndConfig_eq (frame_turnAndConfig.keeps_evaluatePending.of_ok hv)).1
  have hsettled := ((ends_evaluatePending u).of_ok hv).1
  have hguidance' : v.guidance = none := (congrArg (·.guidance) hout).trans hguidance
  have hpass : EndAlike pass pass u u' := by
    unfold EndAlike
    rw [pass_eq_takeStep hv, pass_eq_takeStep hv']
    exact endAlike_takeStep hmeet hguidance' hdrained hprompting.turn
  have hanswer : EndAlike answer answer u u' :=
    endAlike_answer hpass ((guidance_of_settled hsettled).symm.trans hguidance')
      ((congrArg TurnState.drained hturnState).symm.trans hdrained)
  unfold EndAlike
  rw [answer_of_passes hpasses, answer_of_passes hpasses']
  exact hanswer

/-! ### What is shown -/

/-- No call that concerns the sampler decodes. -/
theorem samplerCalls_unbatched (e : Engine) : e.unbatched.samplerCalls = e.samplerCalls := by
  simp only [Engine.samplerCalls, Engine.unbatched, List.filter_filter]
  congr 1
  funext c
  cases c <;> rfl

/-- Of queued tokens that are taken the sampler is told. -/
theorem samplerCalls_prompted (s : Session) (l : List Token) (f : Bool) :
    (s.prompted l f).engine.samplerCalls = s.engine.samplerCalls ++ l.map (.accept · false) := by
  have hall : (l.map fun t => Call.accept t false).filter Call.onSampler =
      l.map fun t => .accept t false := by
    rw [List.filter_eq_self]
    intro c hc
    obtain ⟨t, -, rfl⟩ := List.mem_map.mp hc
    rfl
  change (s.engine.calls ++ (l.map fun t => Call.accept t false).toArray).toList.filter
    Call.onSampler = _
  rw [Array.toList_append, List.filter_append, hall]
  rfl

/-- A turn that nobody answers draws once the queue is read. -/
theorem Prompting.drawing (hs : s.Prompting) (hread : s.progress.unread = [])
    (hne : s.progress.queue ≠ []) (hguidance : s.guidance = none)
    (hi : s.config.interactive = false) (hins : s.config.instruct = false) : s.Drawing where
  interactive := hi
  instruct := hins
  guidance := hguidance
  room := hs.room
  maxStep := Nat.lt_of_lt_of_le (List.length_pos_iff.mpr hne) hs.queue_le
  drained := Progress.queueDrained_iff.mpr hread
  turn := hs.turn

/-- A turn that nobody answers shows the prompt, and then what is drawn. -/
theorem exists_drawn_of_prompting (hs : s.Prompting) (hd : s.Decodes)
    (hpending : s.progress.pending = []) (hne : s.progress.unread ≠ [])
    (hguidance : s.guidance = none) (hi : s.config.interactive = false)
    (hins : s.config.instruct = false) {outcome : Outcome} (ht : answer s = .ok outcome t) :
    ∃ drawn : List Token,
      t.engine.samplerCalls = s.engine.samplerCalls ++ s.progress.unread.map (.accept · false) ++
        drawn.flatMap Call.drawing ∧
      t.output.shown.toList = s.output.shown.toList ++ textBytes (s.progress.unread ++ drawn) := by
  obtain ⟨u, v, hpasses, hv, hout, -, -⟩ :=
    hs.exists_passes (evaluatePending_of_pending_nil hpending) hne (.inl hd)
  rw [answer_of_passes hpasses] at ht
  obtain ⟨hprompting, hread, -⟩ := hs.prompted (List.append_nil _).symm hout
  have hqueue : v.progress.queue ≠ [] := by
    rw [show v.progress.queue = s.progress.queue from congrArg (·.progress.queue) hout]
    rintro hnil
    exact hne (by rw [Progress.unread, hnil, List.drop_nil])
  have hdrawing : v.Drawing := hprompting.drawing hread hqueue
    ((congrArg (·.guidance) hout).trans hguidance) ((congrArg (·.config.interactive) hout).trans hi)
    ((congrArg (·.config.instruct) hout).trans hins)
  obtain ⟨drawn, hcalls, hshown⟩ := hdrawing.exists_drawn_of_evaluated hv ht
  have hprompt : v.engine.samplerCalls =
      s.engine.samplerCalls ++ s.progress.unread.map (.accept · false) := by
    have hunbatched : v.unbatched.cleared.engine.samplerCalls = v.engine.samplerCalls :=
      samplerCalls_unbatched v.engine
    rw [← hunbatched, hout, samplerCalls_prompted, ← samplerCalls_unbatched s.engine]
    rfl
  have houtput : v.output.shown.toList = s.output.shown.toList ++ textBytes s.progress.unread := by
    rw [show v.output = _ from congrArg (·.output) hout]
    exact (shown_foldl_write s.progress.unread hs.room).2
  refine ⟨drawn, ?_, ?_⟩
  · change t.turnState.calls = _
    rw [hcalls, ← hprompt]
    rfl
  · rw [hshown, houtput, textBytes_append, List.append_assoc]

/-! ### What is left -/

/-- The transcript is written at its place only. -/
theorem toOption_read_writeTranscript {path : String}
    (h : ∀ transcript place, s.config.transcriptPath = some transcript →
      s.directory.locate transcript = .ok place → s.directory.locate path ≠ .ok place) :
    ((left (writeTranscript s)).directory.read path).toOption =
      (s.directory.read path).toOption := by
  apply Ends.left (P := fun t : Session => (t.directory.read path).toOption = _)
  simp only [writeTranscript, ends_bind, ends_get]
  split
  · rfl
  · next transcript hpath =>
    have hwrites {d : Directory} (hw : s.transcript.write transcript s.directory = .ok d) :
        (d.read path).toOption = (s.directory.read path).toOption := by
      rcases Transcript.write_eq_ok hw with rfl | hd
      · rfl
      · exact Directory.toOption_read_of_write hd fun place => h transcript place hpath
    split
    · next d hd => exact hwrites hd
    · rfl
    · rfl

/-- What is done to close a session before the transcript is written. -/
def closing : SessionM Unit := do
  modify ({ · with closed := true })
  saveAll

private theorem shutdown_eq (s : Session) :
    shutdown s = if s.closed then .ok () s else (closing >>= fun _ => writeTranscript) s := by
  change onlyIf (!s.closed) (closing >>= fun _ => writeTranscript) s = _
  cases s.closed <;> rfl

/-- By then paths mean the places that they meant before. -/
theorem ends_closing (s : Session) :
    Ends closing s fun _ t => t.config = s.config ∧
      ∀ path place, t.directory.locate path = .ok place → s.directory.locate path = .ok place := by
  simp only [closing, saveAll, ends_bind, ends_modify, ends_get, ends_onlyIf, ends_report,
    ends_discard, ends_onBench]
  split
  · apply (Cache.ends_saveOrDisable (ε := SessionError) { s.toWorkbench with
      journal := s.journal.push (.finalSave s.progress.logged.length) }).mono
    intro r b hb
    have hlocate (path : String) (place : Place) (h : b.directory.locate path = .ok place) :
        s.directory.locate path = .ok place := by
      change b.mainContext.directory.locate path = .ok place at h
      change s.mainContext.directory.locate path = .ok place
      generalize b.mainContext = u at hb h
      cases hb with
      | kept => exact h
      | written _ hd => exact (Directory.locate_eq_ok_iff_of_write hd).mp h
      | failed => exact h
    cases r <;> exact ⟨trivial, hlocate⟩
  · exact ⟨trivial, fun _ _ h => h⟩

/-- Once sessions that are alike are closed, the same can be read at every path but that of the
transcript. -/
theorem Alike.toOption_read_shutdown (h : s.Alike t) {path : String}
    (hpath : ∀ transcript place, s.config.transcriptPath = some transcript →
      s.directory.locate transcript = .ok place → s.directory.locate path ≠ .ok place) :
    ((left (shutdown s)).directory.read path).toOption =
      ((left (shutdown t)).directory.read path).toOption := by
  have hdirectory {s t : Session} (h : s.Alike t) : s.directory = t.directory :=
    congrArg (·.directory) h.same
  have hclosed : s.closed = t.closed := congrArg (·.closed) h.same
  have hblind : Blind closing := .bind (.change (fun _ => rfl) fun _ => rfl) fun _ => blind_saveAll
  have hcloses : EndAlike closing closing s t := h.endAlike hblind
  rw [shutdown_eq, shutdown_eq, ← hclosed]
  cases s.closed with
  | true => exact congrArg (fun d : Directory => (d.read path).toOption) (hdirectory h)
  | false =>
    simp only [Bool.false_eq_true, if_false]
    cases hs : closing s with
    | error e s' =>
      obtain ⟨t', ht, h'⟩ := hcloses.exists_error hs
      rw [bind_eq_of_error hs, bind_eq_of_error ht]
      exact congrArg (fun d : Directory => (d.read path).toOption) (hdirectory h')
    | ok _ s' =>
      obtain ⟨t', ht, h'⟩ := hcloses.exists_ok hs
      rw [bind_eq_of_ok hs, bind_eq_of_ok ht]
      have hsame : t'.config.transcriptPath = s'.config.transcriptPath :=
        (congrArg (·.config.transcriptPath) h'.same).symm
      obtain ⟨hconfig, hlocate⟩ := (ends_closing s).of_ok hs
      have hplace (transcript : String) (place : Place)
          (htranscript : s'.config.transcriptPath = some transcript)
          (hp : s'.directory.locate transcript = .ok place) :
          s'.directory.locate path ≠ .ok place := by
        rw [hconfig] at htranscript
        exact fun hq =>
          hpath transcript place htranscript (hlocate _ _ hp) (hlocate _ _ hq)
      have hplace' := hplace
      rw [← hsame, hdirectory h'] at hplace'
      exact (toOption_read_writeTranscript hplace).trans
        ((congrArg (fun d : Directory => (d.read path).toOption) (hdirectory h')).trans
          (toOption_read_writeTranscript hplace').symm)

/-! ### Two sizes -/

/-- A turn leaves what is settled. -/
theorem settled_answer (s : Session) : (left (answer s)).settled = s.settled :=
  (invariant_settled s).answer rfl

/-- In sessions that begin alike but for the size of their batches, without guidance and without a
user, the first turn comes to the same: the result, what is shown, which is the prompt and then what
is drawn, what the sampler is told, and what is held, logged and remembered. Once the sessions are
closed, the same can be read at every path but that of the transcript. -/
theorem batch_size_unobservable {now : Nat} {config : Config} {engine : Engine}
    {directory : Directory} {s : Session} {w : Workbench} {n : Nat}
    (h : start now config engine directory = .ok s w) (hn : n ≠ 0)
    (hi : s.config.interactive = false) (hfirst : s.config.userFirst = false)
    (hins : s.config.instruct = false) (hguidance : s.guidance = none)
    (hpredict : s.config.predict ≠ 0) (hlast : s.progress.queue.getLast? ≠ some Token.eos)
    (hdecode : ∀ fails ∈ engine.faults.decodeMain, fails = false) :
    ∃ s' w', start now (config.batchedBy n) engine directory = .ok s' w' ∧
      let t := left (answer (s.showing none))
      let t' := left (answer (s'.showing none))
      outcome (answer (s'.showing none)) = outcome (answer (s.showing none)) ∧
      t'.output = t.output ∧
      (∀ o, outcome (answer (s.showing none)) = .ok o → ∃ drawn : List Token,
        t.engine.samplerCalls = s.engine.samplerCalls ++
          s.progress.queue.map (.accept · false) ++ drawn.flatMap Call.drawing ∧
        t.output.shown.toList = textBytes (s.progress.queue ++ drawn)) ∧
      t'.engine.samplerCalls = t.engine.samplerCalls ∧ t'.progress.past = t.progress.past ∧
      t'.progress.logged = t.progress.logged ∧ t'.progress.recent = t.progress.recent ∧
      t'.engine.mainCells = t.engine.mainCells ∧
      ∀ path, (∀ transcript place, s.config.transcriptPath = some transcript →
          t.directory.locate transcript = .ok place → t.directory.locate path ≠ .ok place) →
        ((left (shutdown t')).directory.read path).toOption =
          ((left (shutdown t)).directory.read path).toOption := by
  have hbegun := start_eq_ok h
  have hsize : config.batchSize ≠ 0 := Nat.pos_iff_ne_zero.mp hbegun.batchSize_pos
  obtain ⟨s', w', h', hout⟩ := exists_start_batchedBy h hsize hn
  have hbegun' := start_eq_ok h'
  have halike : (s.showing none).Alike (s'.showing none) :=
    ⟨congrArg (Session.showing · none) hout.symm, hbegun.decodes hdecode, hbegun'.decodes hdecode⟩
  -- Both are to take the prompt: the bounds on their batches have no part in that.
  have hends := hbegun.ending_of_leavesTurn hins
    ⟨hlast, fun h => absurd (h.symm.trans hi) Bool.noConfusion⟩
  have hprompting :=
    hbegun.prompting hpredict hfirst hends (hbegun.fits_of_unguided hguidance)
  have hguidance' : s'.guidance = none := (congrArg (·.guidance) hout).trans hguidance
  have hprompting' : (s'.showing none).Prompting := by
    refine hbegun'.prompting ?_ ?_ ?_ (hbegun'.fits_of_unguided hguidance')
    · rw [show s'.config.predict = s.config.predict from congrArg (·.config.predict) hout]
      exact hpredict
    · exact (congrArg (·.config.userFirst) hout).trans hfirst
    · rw [ending_eq hout]
      exact hends
  have hpending : s.progress.pending = [] := congrArg (·.progress.pending) hbegun.anew.symm
  have hne : s.progress.unread ≠ [] := by
    rw [hbegun.unread_eq]
    exact hbegun.queue_ne_nil
  -- So the turns end alike; the rest is read off the unbatched view that the sessions then share.
  obtain ⟨houtcome, hleft⟩ := endAlike_answer_of_prompting halike hprompting hprompting' hpending
    hne hguidance
  have hsame := hleft.same
  refine ⟨s', w', h', houtcome.symm, (congrArg (·.output) hsame).symm, ?_, ?_,
    (congrArg (·.progress.past) hsame).symm, (congrArg (·.progress.logged) hsame).symm,
    (congrArg (·.progress.recent) hsame).symm, (congrArg (·.engine.mainCells) hsame).symm, ?_⟩
  · intro o ho
    cases ht : answer (s.showing none) with
    | error e t =>
      rw [ht] at ho
      cases ho
    | ok outcome t =>
      obtain ⟨drawn, hcalls, hshown⟩ := exists_drawn_of_prompting hprompting
        (hbegun.decodes hdecode) hpending hne hguidance hi hins ht
      rw [show (s.showing none).progress.unread = _ from hbegun.unread_eq] at hcalls hshown
      exact ⟨drawn, hcalls, hshown⟩
  · have hcalls := congrArg (·.engine.samplerCalls) hsame
    exact ((samplerCalls_unbatched _).symm.trans (hcalls.symm.trans (samplerCalls_unbatched _)))
  · intro path hpath
    refine (hleft.toOption_read_shutdown ?_).symm
    rw [config_of_settled (settled_answer (s.showing none))]
    exact hpath

/-- Batches of one token and of three show the same and save the same where the prompt parts from
the session file. -/
theorem batch_size_unobservable_of_partly_cached_prompt :
    ∃ s w s' w', start 0
        { prompt := "abcd", batchSize := 1, cachePath := some "s.bin", cacheAll := true,
          transcriptPath := some "t.json" }
        { contextSize := 64, script := Token.ofText "yz" ++ [Token.eos] }
        (Directory.ofSession (Token.ofText "abx")) = .ok s w ∧
      start 0
        { prompt := "abcd", batchSize := 3, cachePath := some "s.bin", cacheAll := true,
          transcriptPath := some "t.json" }
        { contextSize := 64, script := Token.ofText "yz" ++ [Token.eos] }
        (Directory.ofSession (Token.ofText "abx")) = .ok s' w' ∧
      (left (answer (s.showing none))).output.shown.toList = textBytes (Token.ofText "abcdyz") ++
        Text.utf8 Token.eos.text ∧
      (left (answer (s'.showing none))).output = (left (answer (s.showing none))).output ∧
      ((left (shutdown (left (answer (s'.showing none))))).directory.read "s.bin").toOption =
        ((left (shutdown (left (answer (s.showing none))))).directory.read "s.bin").toOption := by
  obtain ⟨s, w, h, htest⟩ := exists_of_gives
    (fun s : Session =>
      let t := left (answer (s.showing none))
      decide (s.config.interactive = false ∧ s.config.userFirst = false ∧
        s.config.instruct = false ∧ s.guidance.isNone ∧ s.config.predict ≠ 0 ∧
        s.progress.queue.getLast? ≠ some Token.eos ∧
        s.config.transcriptPath = some "t.json" ∧
        (t.directory.locate "t.json").toOption ≠ (t.directory.locate "s.bin").toOption ∧
        t.output.shown.toList = textBytes (Token.ofText "abcdyz") ++ Text.utf8 Token.eos.text))
    (r := start 0
      { prompt := "abcd", batchSize := 1, cachePath := some "s.bin", cacheAll := true,
        transcriptPath := some "t.json" }
      { contextSize := 64, script := Token.ofText "yz" ++ [Token.eos] }
      (Directory.ofSession (Token.ofText "abx"))) (by decide +kernel)
  obtain ⟨hi, hfirst, hins, hguidance, hpredict, hlast, htranscript, hplace, hshown⟩ :=
    of_decide_eq_true htest
  obtain ⟨s', w', h', -, hout, -, -, -, -, -, -, hread⟩ :=
    batch_size_unobservable (n := 3) h (by decide) hi hfirst hins
      (Option.isNone_iff_eq_none.mp hguidance) hpredict hlast (by decide)
  refine ⟨s, w, s', w', h, h', hshown, hout, hread "s.bin" ?_⟩
  rintro transcript place hpath hlocate hsame
  rw [htranscript] at hpath
  cases hpath
  exact hplace (congrArg Except.toOption (hlocate.trans hsame.symm))

/-- A transcript that is written over the session file tells the sizes of the batches. -/
theorem batch_size_told_by_transcript :
    ∃ s w s' w', start 0
        { prompt := "ab", batchSize := 1, cachePath := some "s.bin", cacheAll := true,
          transcriptPath := some "s.bin" }
        { contextSize := 64, script := [Token.eos] } {} = .ok s w ∧
      start 0
        { prompt := "ab", batchSize := 2, cachePath := some "s.bin", cacheAll := true,
          transcriptPath := some "s.bin" }
        { contextSize := 64, script := [Token.eos] } {} = .ok s' w' ∧
      s.config.interactive = false ∧ s.config.userFirst = false ∧ s.config.instruct = false ∧
      s.guidance.isNone ∧ s.config.predict ≠ 0 ∧ s.progress.queue = Token.ofText "ab" ∧
      (outcome (answer (s.showing none))).toOption = some ⟨.terminated, .endOfSequence⟩ ∧
      (outcome (answer (s'.showing none))).toOption = some ⟨.terminated, .endOfSequence⟩ ∧
      (outcome (shutdown (left (answer (s.showing none))))).isOk ∧
      (outcome (shutdown (left (answer (s'.showing none))))).isOk ∧
      ((left (shutdown (left (answer (s.showing none))))).directory.read "s.bin").toOption ≠
        ((left (shutdown (left (answer (s'.showing none))))).directory.read "s.bin").toOption := by
  obtain ⟨s, w, h, htest⟩ := exists_of_gives
    (fun s : Session => Effect.gives (fun s' : Session =>
      decide (s.config.interactive = false ∧ s.config.userFirst = false ∧
        s.config.instruct = false ∧ s.guidance.isNone ∧ s.config.predict ≠ 0 ∧
        s.progress.queue = Token.ofText "ab" ∧
        (outcome (answer (s.showing none))).toOption = some ⟨.terminated, .endOfSequence⟩ ∧
        (outcome (answer (s'.showing none))).toOption = some ⟨.terminated, .endOfSequence⟩ ∧
        (outcome (shutdown (left (answer (s.showing none))))).isOk ∧
        (outcome (shutdown (left (answer (s'.showing none))))).isOk ∧
        ((left (shutdown (left (answer (s.showing none))))).directory.read "s.bin").toOption ≠
          ((left (shutdown (left (answer (s'.showing none))))).directory.read "s.bin").toOption))
      (start 0
        { prompt := "ab", batchSize := 2, cachePath := some "s.bin", cacheAll := true,
          transcriptPath := some "s.bin" }
        { contextSize := 64, script := [Token.eos] } {}))
    (r := start 0
      { prompt := "ab", batchSize := 1, cachePath := some "s.bin", cacheAll := true,
        transcriptPath := some "s.bin" }
      { contextSize := 64, script := [Token.eos] } {}) (by decide +kernel)
  obtain ⟨s', w', h', htest'⟩ := exists_of_gives _ htest
  exact ⟨s, w, s', w', h, h', of_decide_eq_true htest'⟩

end Dialogue.Session
