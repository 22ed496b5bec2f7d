import Dialogue.Proofs.Residents
import Dialogue.Proofs.Saving
import Dialogue.Proofs.Taking
import Dialogue.Proofs.Turns
/-!
# The session log

As long as the session file is in use the counters of the context and of the log agree: the log
begins with what became resident since the dialogue began, in that order, and is no longer than the
context has positions. What is skipped was logged before, what is decoded is logged once the tail of
the log is gone, and what an eviction moves ends the use of the file. A file that is written holds
no more tokens than can be loaded again.
-/

namespace Dialogue

open Effect

/-- The log agrees with what became resident since the dialogue began. -/
structure MainContext.Logs (size : Int) (resident : List Token) (v : MainContext) : Prop where
  /-- As much of the log was compared as is resident. -/
  past : v.past = v.loggedRead
  /-- No more was compared than is logged. -/
  read_le : v.loggedRead ≤ v.logged.length
  /-- The log fits into the context. -/
  length_le : v.logged.length ≤ size
  /-- What was compared is what became resident. -/
  resident : v.logged.take v.loggedRead = resident

/-- What can be read at a path does not hold more tokens than can be loaded. -/
def Directory.FitsAt (d : Directory) (path : String) (capacity : Nat) : Prop :=
  ∀ w t : Workbench, w.directory = d → ∀ size capacity',
    Cache.load path capacity w ≠ .error (.defective path (.tooLarge size capacity')) t

/-- A session file that is written for no more tokens than can be loaded fits, if it is kept. -/
theorem Directory.fitsAt_of_write {d e : Directory} {path : String} {tokens : List Token}
    {state : List UInt8} {capacity : Nat}
    (h : d.write path (SessionFile.encode tokens state) = .ok e) (hc : tokens.length ≤ capacity)
    (ht : tokens.length < 0x100000000) : e = d ∨ e.FitsAt path capacity := by
  apply (read_of_write h).imp_right
  rintro hread w t rfl size capacity' hload
  have hfits : SessionFile.decode capacity (SessionFile.encode tokens state) ≠
      .error (.tooLarge size capacity') :=
    SessionFile.decode_encode_ne_tooLarge hc ht size capacity'
  have hends : Ends (Cache.load path capacity) w fun r _ =>
      r ≠ .error (.defective path (.tooLarge size capacity')) := by
    simp only [Cache.load, ends_bind, ends_get, hread]
    split
    · next defect hdefect =>
      rw [ends_throw]
      intro heq
      cases heq
      exact hfits hdefect
    · next tokens state _ =>
      rw [ends_bind, ends_adaptExcept, Workbench.ends_call]
      apply (Engine.ends_restoreSnapshot state w.engine).mono
      intro r e _
      cases r with
      | error cause => nofun
      | ok _ => nofun
  rw [ends_iff_of_eq_error hload] at hends
  exact hends rfl

open MainContext

variable {size : Int} {resident : List Token} {w : Window} {offset : Int} {n m : Nat}
  {v u : MainContext} {r : Except SessionError (Option StopReason)}

namespace MainContext

/-- Only the log and the counters matter. -/
theorem Logs.of_eq (h : v.Logs size resident) (hpast : u.past = v.past)
    (hlogged : u.logged = v.logged) (hread : u.loggedRead = v.loggedRead) :
    u.Logs size resident := by
  constructor
  · rw [hpast, hread]
    exact h.past
  · rw [hread, hlogged]
    exact h.read_le
  · rw [hlogged]
    exact h.length_le
  · rw [hlogged, hread]
    exact h.resident

/-- What is skipped was logged where it becomes resident. -/
theorem Logs.reuse (h : v.Logs size resident) :
    v.reuse.Logs size (resident ++ v.pending.take v.skipped) := by
  have hskipped := v.skipped_le_logged
  have hread := h.read_le
  have hpast := h.past
  have hlength := v.length_logged_reuse_le
  constructor
  · rw [past_reuse, loggedRead_reuse]
    omega
  · rw [logged_reuse, loggedRead_reuse]
    split
    · exact Nat.le_of_eq (List.length_take_of_le (by omega)).symm
    · omega
  · have hsize := h.length_le
    omega
  · have htake : v.logged.take (v.loggedRead + v.skipped) =
        resident ++ v.pending.take v.skipped := by
      rw [List.take_add, h.resident]
      exact congrArg (resident ++ ·) (take_commonLength _ _)
    rw [logged_reuse, loggedRead_reuse]
    split
    · rw [List.take_take, Nat.min_self, htake]
    · exact htake

/-- What is decoded is logged behind all that was compared. -/
theorem Logs.decoded (h : v.Logs size resident) (hd : Decoded v m u)
    (hall : m = 0 ∨ v.loggedRead = v.logged.length) (hp : u.path ≠ none) (hsize : u.past ≤ size) :
    u.Logs size (resident ++ v.pending.take m) := by
  have hpast := h.past
  have hcount := hd.past
  have hlogged := hd.logged
  have hread := hd.loggedRead
  have htake : (v.pending.take m).length = m := List.length_take_of_le hd.le
  by_cases hm : m = 0
  · subst hm
    rw [if_neg (by simp)] at hlogged hread
    rw [List.take_zero, List.append_nil]
    exact h.of_eq (by omega) hlogged hread
  · have hend := hall.resolve_left hm
    have hpath : v.path ≠ none := by rwa [← hd.path]
    rw [if_pos ⟨Nat.pos_of_ne_zero hm, hpath⟩] at hlogged hread
    have hlength : u.logged.length = v.logged.length + m := by
      rw [hlogged, List.length_append, htake]
    have hprefix : v.logged = resident := by
      rw [← h.resident, hend, List.take_length]
    constructor
    · omega
    · omega
    · omega
    · rw [hread, List.take_length, hlogged, hprefix]

private theorem Logs.restarted (h : v.Logs size resident) : v.restarted.Logs size [] :=
  ⟨rfl, Nat.zero_le _, h.length_le, List.take_zero⟩

end MainContext

/-- A swap that keeps the session file in use evicts nothing. -/
theorem Swap.logs (h : Swap w v u) (hp : u.path ≠ none) (hv : v.Logs size resident) :
    u.Logs size resident := by
  cases h with
  | idle => exact absurd rfl hp
  | unremoved => exact hv.of_eq rfl rfl rfl
  | unmoved => exact hv.of_eq rfl rfl rfl
  | evicted => exact absurd rfl hp

private theorem Swaps.logs (h : Swaps w v u) (hp : u.path ≠ none) (hv : v.Logs size resident) :
    u.Logs size resident := by
  induction h with
  | refl => exact hv
  | tail _ hs ih => exact hs.logs hp (ih fun hnone => hp (hs.path_eq_none hnone))

private theorem Arrived.logs (h : Arrived w offset v r u) (hp : u.path ≠ none)
    (hv : v.Logs size resident) : u.Logs size resident := by
  have hcut : (v.cut w.maxStep).Logs size resident := hv.of_eq rfl rfl rfl
  cases h with
  | stopped h => exact Swaps.logs h hp hcut
  | ready h _ _ => exact (Swaps.logs h hp hcut).of_eq rfl rfl rfl

private theorem Stepped.logs (h : Stepped n v u) (hp : u.path ≠ none) (hv : v.Logs size resident) :
    u.Logs size resident := by
  obtain ⟨_, _, _, _, hs, -, rfl⟩ := h.exists_saved
  cases hs with
  | kept => exact hv.of_eq rfl rfl rfl
  | written => exact hv.of_eq rfl rfl rfl
  | failed => exact absurd rfl hp

namespace Session

/-- The tokens that became resident since the dialogue began. -/
def residents (s : Session) (requests : List Request) : List Token :=
  s.noted (fun tokens p => tokens ++ p.passResident) (fun _ => []) [] requests

/-- An evaluation that keeps the session file in use keeps the log in agreement. -/
theorem ends_evaluatePending_logs {s : Session} (hk : 0 ≤ s.window.keep)
    (hb : s.mainContext.Bounded s.window) :
    Ends evaluatePending s fun _ t => t.mainContext.path ≠ none →
      s.mainContext.Logs s.window.size resident →
        t.mainContext.Logs s.window.size (resident ++ (s.reused ++ s.decodedSince t)) := by
  apply ends_evaluatePending_of
  · intro hnil _ hv
    rw [reused_of_pending_eq_nil hnil, decodedSince_of_batches rfl, List.append_nil,
      List.append_nil]
    exact hv
  · apply ((ends_arrive s).and ((ends_arrive_told s).and (ends_arrive_reused s))).mono
    rintro r t ⟨⟨-, ha⟩, ⟨_, hs, -⟩, hreused⟩ hr hp hv
    have hnone : s.decodedSince t = [] := decodedSince_of_batches (by rw [hs.tally])
    rw [hreused hr, hnone, List.append_nil, List.append_nil]
    exact ha.logs hp hv
  · intro u hu
    obtain ⟨-, ha⟩ := (ends_arrive s).of_ok hu
    obtain ⟨_, hs, -⟩ := (ends_arrive_told s).of_ok hu
    apply (ends_feedRest_tally u).mono
    rintro r t ⟨done, failed, hd, htake, ht, -⟩ hp hv
    have hpath : u.mainContext.path ≠ none := by
      have hsame : t.mainContext.path = u.mainContext.path := hd.path
      rwa [← hsame]
    have hlogs := (ha.logs hpath hv).reuse
    -- Either nothing is left to decode, or the log was compared to its end and can grow.
    have hall : done.flatten.length = 0 ∨
        u.mainContext.reuse.loggedRead = u.mainContext.reuse.logged.length := by
      refine (u.mainContext.pending_reuse_eq_nil_or (ha.logs hpath hv).read_le).imp_left ?_
      intro hnil
      have hle := hd.le
      rw [hnil] at hle
      exact Nat.le_zero.mp hle
    have hsize : t.mainContext.past ≤ s.window.size := by
      obtain ⟨hpos, hfits⟩ := (ha.fits hk hb).reuse
      have hle := hd.le
      have hcount := hd.past
      omega
    have hdecoded : s.decodedSince t = done.flatten := by
      rw [decodedSince, ht, Tally.fed, hs.tally, List.drop_left, Batch.flatMap_tokens_laid]
    have hfinal := hlogs.decoded hd hall hp hsize
    rw [htake, List.append_assoc] at hfinal
    rw [reused_of_arrive hu, hdecoded]
    exact hfinal

/-- A pass that keeps the session file in use keeps the log in agreement. -/
theorem logs_pass {s : Session} (hk : 0 ≤ s.window.keep) (hb : s.mainContext.Bounded s.window)
    (hp : (left (pass s)).mainContext.path ≠ none)
    (hv : s.mainContext.Logs s.window.size resident) :
    (left (pass s)).mainContext.Logs s.window.size (resident ++ s.passResident) := by
  apply Ends.left (P := fun t : Session => t.mainContext.path ≠ none →
    t.mainContext.Logs s.window.size (resident ++ (s.reused ++ s.decodedSince t))) _ hp
  rw [pass, ends_bind]
  have hevaluates : Ends evaluatePending s fun _ t => t.mainContext.path ≠ none →
      s.mainContext.Logs s.window.size resident →
        t.mainContext.Logs s.window.size (resident ++ (s.reused ++ s.decodedSince t)) :=
    ends_evaluatePending_logs hk hb
  apply hevaluates.mono
  intro r t ht
  cases r with
  | error e => exact fun hp => ht hp hv
  | ok stop =>
    cases stop with
    | some reason =>
      simp only [ends_bind, ends_pure]
      apply ((Ends.keeps (frame_tally.keeps_finish _ _)).and
        (Ends.keeps (keeps_settledAndMain_finish _ _))).mono
      rintro r u ⟨hu, hsame⟩
      have hfinal : u.mainContext.path ≠ none → u.mainContext.Logs s.window.size
          (resident ++ (s.reused ++ s.decodedSince u)) := by
        rw [decodedSince_congr (t := t) (by rw [hu]), (settledAndMain_eq hsame).2]
        exact fun hp => ht hp hv
      cases r <;> exact hfinal
    | none =>
      apply ((ends_takeStep t).and (ends_takeStep_taken t)).mono
      rintro r u ⟨⟨-, hstep⟩, hu⟩ hp
      have hpath := hstep.path_eq.resolve_left hp
      rw [decodedSince_congr (t := t) (by rw [hu])]
      exact hstep.logs hp (ht (by rwa [← hpath]) hv)

/-- While the session file is in use the log agrees with what became resident. -/
theorem notedInvariant_logs {s₀ : Session} (hk : 0 ≤ s₀.window.keep) (hs₀ : 0 ≤ s₀.window.size) :
    NotedInvariant (fun tokens p => tokens ++ passResident p) (fun _ => []) (fun _ => True)
      fun resident s => (s.settled = s₀.settled ∧ s.mainContext.Bounded s₀.window) ∧
        (s.mainContext.path = none ∨ s.mainContext.Logs s₀.window.size resident) where
  showing := fun _ _ _ h => h
  pass := by
    rintro resident s ⟨hb, hv⟩
    refine ⟨(invariant_bounded hk hs₀).pass s hb, ?_⟩
    have hw := window_of_settled hb.1
    by_cases hp : (left (pass s)).mainContext.path = none
    · exact .inl hp
    · have hpath := (passed_left s).path_eq.resolve_left hp
      have hlogs := hv.resolve_left fun hnone => hp (hpath.trans hnone)
      rw [← hw] at hb hlogs hk ⊢
      exact .inr (logs_pass hk hb.2 hp hlogs)
  query := by
    rintro resident s text room ⟨hb, hv⟩
    refine ⟨(invariant_bounded hk hs₀).query s text room hb trivial, ?_⟩
    have hqueried := Ends.left (P := fun t : Session =>
      Queried (s.passesOver text) s.mainContext t.mainContext)
      ((ends_query text (s.showing room)).mono fun _ _ h => h.2)
    generalize (left (query text (s.showing room))).mainContext = u at hqueried ⊢
    cases hqueried with
    | queued => exact hv.imp id fun hv => hv.of_eq rfl rfl rfl
    | passedOver => exact hv.imp id fun hv => hv.of_eq rfl rfl rfl
  reset := by
    rintro - resident s ⟨hb, hv⟩
    exact ⟨(invariant_bounded hk hs₀).reset s hb trivial, hv.imp id Logs.restarted⟩

/-- When a session begins nothing is resident, and its log fits into the context. -/
theorem Begun.logs {config : Config} {engine : Engine} {directory : Directory} {s : Session}
    (h : Begun config engine directory s) : s.mainContext.Logs s.window.size [] := by
  have hrestarted := h.restarted_eq
  have hsize := h.size_nonneg
  obtain ⟨logged, v, hl, heq, -⟩ := h.mainContext
  have hle : s.mainContext.logged.length ≤ logged.length := by
    rw [heq, MainContext.aligned]
    split
    · exact Nat.le_refl _
    · exact MainContext.length_keptOf_le _ _
  have hcapacity : logged.length ≤ s.window.size.toNat := by
    cases hl with
    | nothing => exact Nat.zero_le _
    | restored _ _ hd _ => exact (SessionFile.decode_eq_ok hd).2.1
  rw [← hrestarted]
  refine ⟨rfl, Nat.zero_le _, ?_, List.take_zero⟩
  change (s.mainContext.logged.length : Int) ≤ _
  omega

/-- What is saved of a log that fits can be loaded again, if it is kept. -/
theorem fitsAt_of_logs {d e : Directory} {t : Session} {path : String}
    (hv : t.mainContext.path = none ∨ t.mainContext.Logs size resident) (hsize : size < 0x80000000)
    (hp : t.mainContext.path = some path)
    (hd : d.write path
      (SessionFile.encode t.mainContext.logged t.mainContext.cells.snapshot) = .ok e) :
    e = d ∨ e.FitsAt path size.toNat := by
  have hlogs := hv.resolve_left (by simp [hp])
  have hle := hlogs.length_le
  exact Directory.fitsAt_of_write hd (by omega) (by omega)

/-- Whatever fails, as long as the session file is in use: as many tokens were compared with the log
as are resident, the log is no longer than the context has positions, and it begins with what became
resident since the session began or was reset. So a file that is written before a draw or at the end
never holds too many tokens for a context of the same size. -/
theorem session_log_resident {now : Nat} {config : Config} {engine : Engine}
    {directory : Directory} {s : Session} {w : Workbench}
    (h : Session.start now config engine directory = .ok s w) (requests : List Request) :
    ((s.serveAll requests).cache.isActive = true →
      (s.serveAll requests).progress.past = (s.serveAll requests).progress.loggedRead ∧
      (s.serveAll requests).progress.loggedRead ≤ (s.serveAll requests).progress.logged.length ∧
      (s.serveAll requests).progress.logged.length ≤ Number.signedWord engine.contextSize ∧
      (s.serveAll requests).progress.logged.take (s.serveAll requests).progress.past.toNat =
        s.residents requests) ∧
    (∀ t, s.AtPass requests t →
      (left (pass t)).directory = t.directory ∨ ∃ path, (left (pass t)).cache.path = some path ∧
        (left (pass t)).directory.FitsAt path (Number.signedWord engine.contextSize).toNat) ∧
    ((left (saveAll (s.serveAll requests))).directory = (s.serveAll requests).directory ∨
      ∃ path, (s.serveAll requests).cache.path = some path ∧
        (left (saveAll (s.serveAll requests))).directory.FitsAt path
          (Number.signedWord engine.contextSize).toNat) := by
  have hbegun := start_eq_ok h
  have hinvariant := notedInvariant_logs hbegun.keep hbegun.size_nonneg
  have hbegins : (s.settled = s.settled ∧ s.mainContext.Bounded s.window) ∧
      (s.mainContext.path = none ∨ s.mainContext.Logs s.window.size []) :=
    ⟨⟨rfl, hbegun.bounded⟩, .inr hbegun.logs⟩
  have hlt : s.window.size < 0x80000000 := hbegun.sized.size_lt
  have hall : ∀ r ∈ requests, True := fun _ _ => trivial
  obtain ⟨-, hv⟩ := hinvariant.serveAll hbegins hall
  rw [← hbegun.size]
  refine ⟨?_, ?_, ?_⟩
  · intro hactive
    have hpath : (s.serveAll requests).cache.path ≠ none := by
      simpa [Cache.isActive, Option.isSome_iff_ne_none] using hactive
    obtain ⟨hpast, hle, hlength, hresident⟩ := hv.resolve_left hpath
    refine ⟨hpast, hle, hlength, ?_⟩
    have hread : (s.serveAll requests).progress.past.toNat =
        (s.serveAll requests).mainContext.loggedRead := by
      change (s.serveAll requests).mainContext.past.toNat = _
      omega
    rw [hread]
    exact hresident
  · intro t ht
    obtain ⟨resident, ht⟩ := hinvariant.atPass hbegins (fun _ _ => trivial) ht
    obtain ⟨-, hu⟩ := hinvariant.pass resident t ht
    rcases (passed_left t).directory_eq with heq | ⟨path, hp, hd⟩
    · exact .inl heq
    · exact (fitsAt_of_logs hu hlt hp hd).imp_right fun hfits => ⟨path, hp, hfits⟩
  · rcases saveAll_directory_eq (s.serveAll requests) with heq | ⟨path, hp, hd⟩
    · exact .inl heq
    · exact (fitsAt_of_logs hv hlt hp hd).imp_right fun hfits => ⟨path, hp, hfits⟩

/-- The log is resident also after a batch of the prompt could not be decoded. -/
theorem session_log_resident_of_partly_decoded_prompt :
    ∃ s w, Session.start 0 { prompt := "abxy", cachePath := some "s.bin", batchSize := 1 }
        { faults := { decodeMain := [false, true] }, script := Token.ofText "mn" }
        (Directory.ofSession (Token.ofText "abcd")) = .ok s w ∧
      (s.serveAll [.answer none]).cache.isActive = true ∧
      s.residents [.answer none] = Token.ofText "abxmn" ∧
      (s.serveAll [.answer none]).progress.logged.take
        (s.serveAll [.answer none]).progress.past.toNat = Token.ofText "abxmn" := by
  obtain ⟨s, w, h, htest⟩ := exists_of_gives
    (fun s : Session => decide ((s.serveAll [.answer none]).cache.isActive = true ∧
      s.residents [.answer none] = Token.ofText "abxmn"))
    (r := Session.start 0 { prompt := "abxy", cachePath := some "s.bin", batchSize := 1 }
      { faults := { decodeMain := [false, true] }, script := Token.ofText "mn" }
      (Directory.ofSession (Token.ofText "abcd"))) (by decide +kernel)
  obtain ⟨hactive, hresidents⟩ := of_decide_eq_true htest
  obtain ⟨-, -, -, hlog⟩ := (session_log_resident h [.answer none]).1 hactive
  exact ⟨s, w, h, hactive, hresidents, hlog.trans hresidents⟩

end Session

end Dialogue
