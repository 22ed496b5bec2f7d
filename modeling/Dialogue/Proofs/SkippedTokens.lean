import Dialogue.Proofs.Coherence
import Dialogue.Proofs.Pinned
/-!
# Skipped tokens

Pending tokens that the log holds at the same place are counted as resident without being decoded.
The cells do hold those that are pinned, and all of them as long as no cell was moved since the
session began. A query can pass over the place where the prompt and the session file differ; what
lies before that place is held all the same. The log is not cut when cells are moved, so that a
dialogue that begins anew after an eviction can skip tokens that are not there, beginning with the
first one that is not pinned.
-/

namespace Dialogue

open Effect

variable {s₀ : Session} {bound : Int} {n : Nat} {v u : MainContext}
  {r : Except SessionError (Option StopReason)}

/-! ### What a dialogue leaves to be trusted -/

/-- Whether the log can be trusted up to a bound, or can still be compared as no cell was moved. -/
def MainContext.Sound (s₀ : Session) (bound : Int) (v : MainContext) : Prop :=
  v.Trusted bound ∨ (v.moves = s₀.mainContext.moves ∧ v.Compares s₀ False)

/-- As long as the place where the prompt and the session file differ lies ahead and before what is
pinned nothing can be moved. -/
theorem Passed.sound (h : Passed s₀.window s₀.offset n v u) (hs₀ : s₀.Sized)
    (hb : bound ≤ s₀.window.pinned ∨ u.moves ≤ v.moves) (hv : v.Sound s₀ bound) :
    u.Sound s₀ bound := by
  rcases hv with hv | ⟨hmoves, hv⟩
  · exact .inl (h.trusted hb hv)
  · rcases hv.trusted_or bound with ht | ⟨hf, hlt⟩
    · exact .inl (h.trusted hb ht)
    · have hpast := hv.past_le_of_forked hf
      have hm : u.moves ≤ v.moves := hb.elim (fun hb => h.moves_of_pinned (by omega)) id
      have hle := h.moves_le
      exact .inr ⟨by omega, h.compares hm hs₀ hv⟩

private theorem Queried.sound {passes : Prop} (h : Queried passes v u) (hv : v.Sound s₀ bound)
    (hpasses : s₀.matched < bound → passes → v.Forked s₀ → s₀.matched < v.queueRead) :
    u.Sound s₀ bound := by
  rcases hv with hv | ⟨hmoves, hv⟩
  · exact .inl (h.trusted hv)
  · rcases hv.trusted_or bound with ht | ⟨-, hlt⟩
    · exact .inl (h.trusted ht)
    · exact .inr ⟨h.moves_eq.trans hmoves, h.compares hv (hpasses hlt)⟩

private theorem MainContext.Sound.restarted (h : v.Sound s₀ bound) :
    v.restarted.Sound s₀ bound := by
  rcases h with hv | ⟨hmoves, hv⟩
  · exact .inl hv.restarted
  · exact .inr ⟨hmoves, hv.restarted id⟩

/-- What is skipped of a step that has arrived is held by the cells where it is counted. -/
theorem Arrived.held_of_skipped (h : Arrived s₀.window s₀.offset v (.ok none) u) (hs₀ : s₀.Sized)
    (hb : bound ≤ s₀.window.pinned ∨ u.moves ≤ v.moves) (hv : v.Sound s₀ bound) {i : Nat}
    (hi : i < u.skipped) (hbound : u.past + i < bound) :
    u.cells.get? (u.past + i) = u.pending[i]? := by
  rcases hv with hv | ⟨-, hv⟩
  · exact (h.trusted hb hv).held_of_skipped hi hbound
  · rcases hv.trusted_or bound with ht | ⟨hf, hlt⟩
    · exact (h.trusted hb ht).held_of_skipped hi hbound
    · have hpast := hv.past_le_of_forked hf
      have hm : u.moves ≤ v.moves := hb.elim (fun hb => h.moves_of_pinned (by omega)) id
      obtain ⟨hu, hroom⟩ := h.compares hm hs₀ hv
      exact hu.held_of_skipped (hroom rfl) hi

namespace Session

/-- Whether a query would pass over the place where the prompt and the session file of a session
differ, while the log is still that of the file. -/
def LosesFork (s₀ s : Session) (text : String) : Prop :=
  s.passesOver text ∧ s.progress.queueRead ≤ s₀.matched ∧
    s₀.matched < s₀.progress.logged.length ∧ s.progress.logged = s₀.progress.logged

/-- Whether a request keeps the place where the prompt and the session file of a session differ. -/
def KeepsFork (s₀ s : Session) : Request → Prop
  | .query text _ => ¬ s₀.LosesFork s text
  | _ => True

/-- Whether no cell of the main context was moved since an earlier state of the session. -/
def Unmoved (s t : Session) : Prop := t.mainContext.moves = s.mainContext.moves

/-- A query that keeps the place of a fork passes it over only where it was read. -/
theorem KeepsFork.lt_queueRead {s : Session} {text : String} {room : Option Nat}
    (h : s₀.KeepsFork s (.query text room)) (hp : s.passesOver text)
    (hf : s.mainContext.Forked s₀) : s₀.matched < s.progress.queueRead := by
  rw [← Nat.not_le]
  intro hle
  exact h ⟨hp, hle, hf.lt_logged, hf.logged⟩

/-- Below a bound that is pinned, or until a cell is moved, the log stays sound. -/
theorem invariant_sound (hs₀ : s₀.Sized) (bound : Int) :
    Invariant (fun s r => s₀.matched < bound → s₀.KeepsFork s r) fun s =>
      s.settled = s₀.settled ∧ (s₀.mainContext.moves ≤ s.mainContext.moves ∧
        (bound ≤ s₀.window.pinned ∨ s.mainContext.moves = s₀.mainContext.moves →
          s.mainContext.Sound s₀ bound)) := by
  apply invariant_of_mainContext (P := fun v => s₀.mainContext.moves ≤ v.moves ∧
    (bound ≤ s₀.window.pinned ∨ v.moves = s₀.mainContext.moves → v.Sound s₀ bound))
  · rintro v u ⟨hle, hv⟩ hp
    have hmoves := hp.moves_le
    refine ⟨Nat.le_trans hle hmoves, ?_⟩
    intro hb
    exact hp.sound hs₀ (hb.imp_right fun _ => by omega) (hv (hb.imp_right fun _ => by omega))
  · rintro s text room u - ⟨hle, hv⟩ hallowed hq
    rw [hq.moves_eq]
    refine ⟨hle, ?_⟩
    intro hb
    exact hq.sound (hv hb) fun hlt hp hf => (hallowed hlt).lt_queueRead hp hf
  · rintro s - ⟨hle, hv⟩ -
    refine ⟨hle, ?_⟩
    intro hb
    exact (hv hb).restarted

/-- Whether the step that the next pass takes arrives, in a state that passes a test. -/
def nextArrival (test : Session → Bool) (s : Session) : Bool :=
  match pass s with
  | .ok none t =>
    match arrive t with
    | .ok none u => test u
    | _ => false
  | _ => false

private theorem exists_of_nextArrival {test : Session → Bool} {s : Session}
    (requests : List Request) (h : nextArrival test ((s.serveAll requests).showing none) = true) :
    ∃ t u, s.AtPass requests t ∧ arrive t = .ok none u ∧ test u = true := by
  unfold nextArrival at h
  split at h
  · next t hpass =>
    split at h
    · next u hu => exact ⟨t, u, ⟨none, Relation.ReflTransGen.single hpass⟩, hu, h⟩
    · cases h
  · cases h

/-- Whatever the requests and whatever fails, a token that is skipped is held at the place where it
is counted, if it is pinned or no cell was moved, and if it lies before the place where the prompt
and the session file differ or no query passed over that place. -/
theorem skipped_token_resident {now : Nat} {config : Config} {engine : Engine}
    {directory : Directory} {s t u : Session} {w : Workbench} {requests : List Request} {i : Nat}
    (h : Session.start now config engine directory = .ok s w)
    (hfile : ∀ path, config.cachePath = some path → directory.CoherentAt path)
    (hfork : u.progress.past + i < s.matched ∨ s.AllAllowed s.KeepsFork requests)
    (ht : s.AtPass requests t) (hu : arrive t = .ok none u)
    (hmoved : u.progress.past + i ≤ s.window.keep ∨ s.Unmoved u)
    (hi : u.progress.past + i < u.progress.reuse.past) :
    ∃ token, u.progress.pending[i]? = some token ∧
      u.engine.mainCells.get? (u.progress.past + i) = some token := by
  have hbegun := start_eq_ok h
  have hsized := hbegun.sized
  have hbegins : s.settled = s.settled ∧ (s.mainContext.moves ≤ s.mainContext.moves ∧
      (u.progress.past + i + 1 ≤ s.window.pinned ∨ s.mainContext.moves = s.mainContext.moves →
        s.mainContext.Sound s (u.progress.past + i + 1))) :=
    ⟨rfl, Nat.le_refl _, fun _ => .inr ⟨rfl, hbegun.compares hfile False⟩⟩
  have hallowed : s.AllAllowed
      (fun s' r => s.matched < u.progress.past + i + 1 → s.KeepsFork s' r) requests := by
    rcases hfork with hlt | hr
    · exact allAllowed_of_forall (fun _ _ _ hle => absurd hlt (by omega)) s
    · exact hr.mono fun _ _ hk _ => hk
  obtain ⟨hsettled, hle, hsound⟩ := (invariant_sound hsized _).atPass hbegins hallowed ht
  obtain ⟨-, ha⟩ := (ends_arrive t).of_ok hu
  rw [window_of_settled hsettled, offset_of_settled hsettled] at ha
  have hb : u.progress.past + i + 1 ≤ s.window.pinned ∨
      u.mainContext.moves = s.mainContext.moves :=
    hmoved.imp_left fun hle => Int.add_le_add_right hle 1
  have hmoves := ha.onward.moves
  have hskipped : i < u.mainContext.skipped := by
    change u.progress.past + i < u.progress.past + u.mainContext.skipped at hi
    omega
  have hpending : i < u.progress.pending.length :=
    Nat.lt_of_lt_of_le hskipped u.mainContext.skipped_le_pending
  refine ⟨u.progress.pending[i], List.getElem?_eq_getElem hpending, ?_⟩
  rw [← List.getElem?_eq_getElem hpending]
  refine ha.held_of_skipped hsized (hb.imp_right fun _ => ?_) (hsound (hb.imp_right fun _ => ?_))
    hskipped (Int.lt_add_one_iff.mpr (Int.le_refl _))
  · omega
  · omega

/-- A token that is skipped after a swap and a new beginning is resident if it is one of those kept.
-/
theorem skipped_token_resident_of_pinned_prompt :
    ∃ s w t u, Session.start 0 { prompt := "abcd", cachePath := some "s.bin", keep := some 2 }
        { contextSize := 8, script := Token.ofText "wxyzv" }
        (Directory.ofSession (Token.ofText "abcd")) = .ok s w ∧
      s.AtPass [.answer none, .reset] t ∧ arrive t = .ok none u ∧ ¬ s.Unmoved u ∧
        u.progress.past + (2 : Nat) < u.progress.reuse.past ∧
          ∃ token, u.progress.pending[2]? = some token ∧
            u.engine.mainCells.get? (u.progress.past + (2 : Nat)) = some token := by
  obtain ⟨s, w, h, htest⟩ := exists_of_gives
    (fun s : Session => nextArrival (fun u => decide (
      ¬ u.mainContext.moves = s.mainContext.moves ∧
      u.progress.past + (2 : Nat) ≤ s.window.keep ∧
      u.progress.past + (2 : Nat) < u.progress.reuse.past))
      ((s.serveAll [.answer none, .reset]).showing none))
    (r := Session.start 0 { prompt := "abcd", cachePath := some "s.bin", keep := some 2 }
      { contextSize := 8, script := Token.ofText "wxyzv" }
      (Directory.ofSession (Token.ofText "abcd"))) (by decide +kernel)
  obtain ⟨t, u, ht, hu, htest⟩ := exists_of_nextArrival _ htest
  obtain ⟨hmoved, hpinned, hi⟩ := of_decide_eq_true htest
  have hr : s.AllAllowed s.KeepsFork [.answer none, .reset] := ⟨trivial, trivial, trivial⟩
  refine ⟨s, w, t, u, h, ht, hu, hmoved, hi,
    skipped_token_resident h ?_ (.inr hr) ht hu (.inl hpinned) hi⟩
  rintro path ⟨⟩
  exact Directory.coherentAt_ofSession (by decide)

/-- When the dialogue begins anew after an eviction, the first token that is not pinned can be
skipped although it was moved away. So can, after a query that passes over the place where the
prompt and the session file differ, the token at that place although it was dropped when the session
began. -/
theorem skipped_token_missing :
    (∃ s w t u, Session.start 0 { prompt := "abcd", cachePath := some "s.bin", keep := some 0 }
        { contextSize := 8, script := Token.ofText "wxyzv" }
        (Directory.ofSession (Token.ofText "abcd")) = .ok s w ∧
      (Directory.ofSession (Token.ofText "abcd")).CoherentAt "s.bin" ∧
      s.AtPass [.answer none, .reset] t ∧ arrive t = .ok none u ∧
        u.progress.past + (1 : Nat) < s.matched ∧
        u.progress.past + (1 : Nat) = s.window.keep + 1 ∧
        u.progress.past + (1 : Nat) < u.progress.reuse.past ∧
          u.engine.mainCells.get? (u.progress.past + (1 : Nat)) ≠ u.progress.pending[1]?) ∧
    ∃ s w t u, Session.start 0
        { prompt := "abxy", cachePath := some "s.bin", batchSize := 2, instruct := true }
        { contextSize := 96 } (Directory.ofSession (Token.ofText ("ab" ++ leadText))) = .ok s w ∧
      (Directory.ofSession (Token.ofText ("ab" ++ leadText))).CoherentAt "s.bin" ∧
      s.AtPass [.answer none, .query "cd" none] t ∧ arrive t = .ok none u ∧
        s.Unmoved u ∧ u.progress.past + (0 : Nat) = s.matched ∧
        u.progress.past + (0 : Nat) < u.progress.reuse.past ∧
          u.engine.mainCells.get? (u.progress.past + (0 : Nat)) ≠ u.progress.pending[0]? := by
  constructor
  · obtain ⟨s, w, h, htest⟩ := exists_of_gives
      (fun s : Session => nextArrival (fun u => decide (
        u.progress.past + (1 : Nat) < s.matched ∧
        u.progress.past + (1 : Nat) = s.window.keep + 1 ∧
        u.progress.past + (1 : Nat) < u.progress.reuse.past ∧
        u.engine.mainCells.get? (u.progress.past + (1 : Nat)) ≠ u.progress.pending[1]?))
        ((s.serveAll [.answer none, .reset]).showing none))
      (r := Session.start 0 { prompt := "abcd", cachePath := some "s.bin", keep := some 0 }
        { contextSize := 8, script := Token.ofText "wxyzv" }
        (Directory.ofSession (Token.ofText "abcd"))) (by decide +kernel)
    obtain ⟨t, u, ht, hu, htest⟩ := exists_of_nextArrival _ htest
    exact ⟨s, w, t, u, h, Directory.coherentAt_ofSession (by decide), ht, hu,
      of_decide_eq_true htest⟩
  · obtain ⟨s, w, h, htest⟩ := exists_of_gives
      (fun s : Session => nextArrival (fun u => decide (
        u.mainContext.moves = s.mainContext.moves ∧ u.progress.past + (0 : Nat) = s.matched ∧
        u.progress.past + (0 : Nat) < u.progress.reuse.past ∧
        u.engine.mainCells.get? (u.progress.past + (0 : Nat)) ≠ u.progress.pending[0]?))
        ((s.serveAll [.answer none, .query "cd" none]).showing none))
      (r := Session.start 0
        { prompt := "abxy", cachePath := some "s.bin", batchSize := 2, instruct := true }
        { contextSize := 96 } (Directory.ofSession (Token.ofText ("ab" ++ leadText))))
      (by decide +kernel)
    obtain ⟨t, u, ht, hu, htest⟩ := exists_of_nextArrival _ htest
    obtain ⟨hmoves, hrest⟩ := of_decide_eq_true htest
    exact ⟨s, w, t, u, h, Directory.coherentAt_ofSession (by decide), ht, hu, hmoves, hrest⟩

end Session

end Dialogue
