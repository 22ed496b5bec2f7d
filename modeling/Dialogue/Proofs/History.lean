import Dialogue.Proofs.CellTokens
import Dialogue.Proofs.Starting
import Dialogue.Proofs.Throughout
/-!
# The resident history

The history of a session is read off the calls to its engine: what was decoded is appended, and an
eviction takes out the older half of what is not pinned. In a session without a file the cells of
the main context hold just the history, each token at its own place, and the counter is its length.
-/

namespace Dialogue

open Effect

/-- The history without the tokens an eviction drops. -/
def Window.evicted (w : Window) (history : List Token) : List Token :=
  history.take w.pinned.toNat ++ history.drop (w.pinned + w.discard history.length).toNat

/-- The history after a call that concerns the main context, and which of the next decode calls
fail. -/
def Window.replay (w : Window) : List Token × List Bool → Call → List Token × List Bool
  | (history, faults), .decode .main tokens _ =>
    (if faults.headD false then history else history ++ tokens, faults.tail)
  | (history, faults), .removeCells .main (some 0) _ _ => (w.evicted history, faults)
  | state, _ => state

namespace Session

/-- The history after the calls that lead to a later state of the session. -/
def historySince (s t : Session) (history : List Token) : List Token :=
  ((s.mainCallsSince t).foldl s.window.replay (history, s.engine.faults.decodeMain)).1

/-- The history after requests. The dialogue that begins anew has none. -/
def history (s : Session) (past : List Token) : List Request → List Token
  | [] => past
  | .reset :: requests => s.reset.history [] requests
  | r :: requests => (s.serve r).history (s.historySince (s.serve r) past) requests

end Session

namespace MainContext

/-- The cells hold a history, each token at its own place, and the counter is its length. -/
def Mirrors (history : List Token) (v : MainContext) : Prop :=
  v.past = history.length ∧
    ∀ (p : Nat) (hp : p < history.length), v.cells.get? p = some history[p]

/-- There are no cells but those of the resident tokens. -/
def NothingElse (v : MainContext) : Prop :=
  ∀ p, p < 0 ∨ v.past ≤ p → v.cells.get? p = none

/-- Tokens decoded behind the resident ones are appended to the history. -/
theorem Mirrors.append {history : List Token} {v : MainContext} (h : v.Mirrors history)
    (tokens : List Token) :
    ({ v with past := v.past + tokens.length, cells := v.cells.write v.past tokens } :
      MainContext).Mirrors (history ++ tokens) := by
  obtain ⟨hpast, hcells⟩ := h
  constructor
  · simp only [hpast, List.length_append]
    omega
  · intro p hp
    rw [List.length_append] at hp
    simp only [Cells.get?_write, hpast]
    by_cases hlt : p < history.length
    · rw [if_neg (by omega), hcells p hlt, List.getElem_append_left hlt]
    · have hsub : ((p : Int) - history.length).toNat = p - history.length := by omega
      rw [if_pos (by omega), hsub, List.getElem_append_right (by omega),
        List.getElem?_eq_getElem (by omega)]

private theorem NothingElse.append {v : MainContext} (h : v.NothingElse) (h₀ : 0 ≤ v.past)
    (tokens : List Token) :
    ({ v with past := v.past + tokens.length, cells := v.cells.write v.past tokens } :
      MainContext).NothingElse := by
  intro p hp
  simp only [Cells.get?_write] at hp ⊢
  rw [if_neg (by omega)]
  apply h
  omega

/-- An eviction takes out of the history what it takes out of the cells. -/
theorem Mirrors.evict {w : Window} {history : List Token} {v : MainContext}
    (hk : 0 ≤ w.keep) (h : v.Mirrors history) (hd : 0 < w.discard v.past) :
    ({ v with past := v.past - w.discard v.past, cells := w.closedUp v.past v.cells } :
      MainContext).Mirrors (w.evicted history) := by
  obtain ⟨hpast, hcells⟩ := h
  have hcell := Window.get?_closedUp v.cells hd
  obtain ⟨he, heq⟩ := Window.discard_eq hd
  have hpinned : w.pinned = w.keep + 1 := rfl
  unfold Window.evictable at he heq
  have hlen : (w.evicted history).length = history.length - (w.discard v.past).toNat := by
    simp only [Window.evicted, List.length_append, List.length_take, List.length_drop, ← hpast]
    omega
  constructor
  · simp only [hlen]
    omega
  · intro p hp
    rw [hlen] at hp
    simp only [hcell, Window.evicted, ← hpast]
    -- Behind the pinned cells each one comes from as many places further on as are evicted.
    by_cases h₁ : (p : Int) < w.pinned
    · rw [if_pos h₁, hcells p (by omega), List.getElem_append_left, List.getElem_take]
      rw [List.length_take]
      omega
    · have hat : (p : Int) + w.discard v.past = ((p + (w.discard v.past).toNat : Nat) : Int) := by
        omega
      have hright : (history.take w.pinned.toNat).length ≤ p := by
        rw [List.length_take]
        omega
      rw [if_neg h₁, if_pos (by omega), hat, hcells _ (by omega), List.getElem_append_right hright,
        List.getElem_drop]
      congr 1
      apply getElem_congr_idx
      rw [List.length_take]
      omega

/-- An eviction leaves no cells but those of the resident tokens. -/
theorem NothingElse.evict {w : Window} {v : MainContext} (hk : 0 ≤ w.keep) (h : v.NothingElse)
    (hd : 0 < w.discard v.past) :
    ({ v with past := v.past - w.discard v.past, cells := w.closedUp v.past v.cells } :
      MainContext).NothingElse := by
  obtain ⟨he, heq⟩ := Window.discard_eq hd
  have hpinned : w.pinned = w.keep + 1 := rfl
  unfold Window.evictable at he heq
  intro p hp
  dsimp only at hp ⊢
  rw [Window.get?_closedUp v.cells hd]
  by_cases h₁ : p < w.pinned
  · rw [if_pos h₁]
    exact h p (by omega)
  · rw [if_neg h₁, if_neg (by omega)]
    split
    · rfl
    · exact h p (by omega)

/-! ### What every step preserves -/

/-- No session file is in use, nothing is logged for one, and removals and moves do not fail. -/
structure Unfiled (v : MainContext) : Prop where
  /-- No file is in use. -/
  path : v.path = none
  /-- Nothing is logged. -/
  logged : v.logged = []
  /-- No removal fails. -/
  removals : ∀ b ∈ v.removeFaults, b = false
  /-- No move fails. -/
  moves : ∀ b ∈ v.shiftFaults, b = false

/-- The calls since some earlier ones lead to a history that the cells hold, and nothing else if
that is wanted. -/
structure Tracks (w : Window) (calls₀ : List Call) (state₀ : List Token × List Bool)
    (alone : Prop) (v : MainContext) : Prop where
  /-- There is no session file. -/
  unfiled : v.Unfiled
  /-- The cells hold the history. -/
  traced : ∃ calls history, v.calls = calls₀ ++ calls ∧
    calls.foldl w.replay state₀ = (history, v.decodeFaults) ∧ v.Mirrors history
  /-- The cells hold nothing else. -/
  nothingElse : alone → v.NothingElse

variable {w : Window} {calls₀ : List Call} {state₀ : List Token × List Bool} {alone : Prop}
  {v u : MainContext}

private theorem Tracks.past_nonneg (h : v.Tracks w calls₀ state₀ alone) : 0 ≤ v.past := by
  obtain ⟨_, history, _, _, hm⟩ := h.traced
  rw [hm.1]
  omega

/-- What is traced stays traced when the same is done to the history as to the cells. -/
private theorem traced_of_replay {more : List Call} (state : List Token → List Token)
    (h : v.Tracks w calls₀ state₀ alone) (hc : u.calls = v.calls ++ more)
    (hr : ∀ history, more.foldl w.replay (history, v.decodeFaults) =
      (state history, u.decodeFaults))
    (hm : ∀ history, v.Mirrors history → u.Mirrors (state history)) :
    ∃ calls history, u.calls = calls₀ ++ calls ∧
      calls.foldl w.replay state₀ = (history, u.decodeFaults) ∧ u.Mirrors history := by
  obtain ⟨calls, history, hcalls, hfold, hv⟩ := h.traced
  refine ⟨calls ++ more, state history, ?_, ?_, hm history hv⟩
  · rw [hc, hcalls, List.append_assoc]
  · rw [List.foldl_append, hfold, hr]

private theorem Tracks.decoded (h : v.Tracks w calls₀ state₀ alone) (tokens : List Token)
    (hf : v.decodeFaults.headD false = false) :
    ({ v with
      past := v.past + tokens.length
      cells := v.cells.write v.past tokens
      calls := v.calls ++ [.decode .main tokens v.past]
      decodeFaults := v.decodeFaults.tail } : MainContext).Tracks w calls₀ state₀ alone where
  unfiled := ⟨h.unfiled.path, h.unfiled.logged, h.unfiled.removals, h.unfiled.moves⟩
  traced := by
    apply traced_of_replay (· ++ tokens) h rfl
    · intro history
      simp only [List.foldl_cons, List.foldl_nil, Window.replay, hf, Bool.false_eq_true, if_false]
    · intro history hm
      exact hm.append tokens
  nothingElse := fun ha => (h.nothingElse ha).append h.past_nonneg tokens

private theorem Tracks.undecoded (h : v.Tracks w calls₀ state₀ alone) (tokens : List Token)
    (hf : v.decodeFaults.headD false = true) :
    ({ v with
      calls := v.calls ++ [.decode .main tokens v.past]
      decodeFaults := v.decodeFaults.tail } : MainContext).Tracks w calls₀ state₀ alone where
  unfiled := ⟨h.unfiled.path, h.unfiled.logged, h.unfiled.removals, h.unfiled.moves⟩
  traced := by
    apply traced_of_replay id h rfl
    · intro history
      simp only [List.foldl_cons, List.foldl_nil, Window.replay, hf, if_true, id]
    · intro history hm
      exact hm
  nothingElse := h.nothingElse

private theorem Tracks.swap (hk : 0 ≤ w.keep) (h : v.Tracks w calls₀ state₀ alone)
    (hs : Swap w v u) :
    u.Tracks w calls₀ state₀ alone := by
  obtain ⟨hpath, hlogged, hremovals, hmoves⟩ := h.unfiled
  have hremove := headD_of_all_false hremovals
  have hmove := headD_of_all_false hmoves
  have htails : (∀ b ∈ v.removeFaults.tail, b = false) ∧ ∀ b ∈ v.shiftFaults.tail, b = false :=
    ⟨fun b hb => hremovals b (List.mem_of_mem_tail hb),
      fun b hb => hmoves b (List.mem_of_mem_tail hb)⟩
  cases hs with
  | idle =>
    exact ⟨⟨rfl, hlogged, hremovals, hmoves⟩, h.traced, h.nothingElse⟩
  | unremoved _ hr =>
    rw [hremove] at hr
    cases hr
  | unmoved _ _ hm =>
    rw [hmove] at hm
    cases hm
  | evicted hd =>
    refine ⟨⟨rfl, hlogged, htails.1, htails.2⟩, ?_, ?_⟩
    · apply traced_of_replay w.evicted h rfl
      · intro history
        rfl
      · intro history hm
        exact hm.evict hk hd
    · intro ha
      exact (h.nothingElse ha).evict hk hd

private theorem Tracks.swaps (hk : 0 ≤ w.keep) (h : v.Tracks w calls₀ state₀ alone)
    (hs : Swaps w v u) :
    u.Tracks w calls₀ state₀ alone := by
  induction hs with
  | refl => exact h
  | tail _ hs ih => exact ih.swap hk hs

private theorem Tracks.cut (h : v.Tracks w calls₀ state₀ alone) (n : Nat) :
    (v.cut n).Tracks w calls₀ state₀ alone :=
  ⟨⟨h.unfiled.path, h.unfiled.logged, h.unfiled.removals, h.unfiled.moves⟩, h.traced,
    h.nothingElse⟩

private theorem Tracks.arrived {offset : Int} {r : Except SessionError (Option StopReason)}
    (hk : 0 ≤ w.keep) (h : v.Tracks w calls₀ state₀ alone) (ha : Arrived w offset v r u) :
    u.Tracks w calls₀ state₀ alone := by
  cases ha with
  | stopped hs => exact (h.cut _).swaps hk hs
  | ready hs _ _ => exact ((h.cut _).swaps hk hs).cut _

/-- Nothing is logged without a file. -/
theorem log_of_path_none (h : v.path = none) (n : Nat) : v.log n = v := by
  unfold log
  rw [h, Option.isSome_none, Bool.and_false, if_neg Bool.false_ne_true]

private theorem Tracks.log (h : v.Tracks w calls₀ state₀ alone) (n : Nat) :
    (v.log n).Tracks w calls₀ state₀ alone := by
  rwa [log_of_path_none h.unfiled.path]

private theorem Tracks.fed {l : List (List Token)} {p : Int} {n : Nat}
    {r : Except DecodeError Int} (hf : Fed l p n v r u)
    (h : ({ v with past := p } : MainContext).Tracks w calls₀ state₀ alone) :
    (Fed.counted r u).Tracks w calls₀ state₀ alone := by
  induction hf with
  | done => exact h
  | failed hd => exact h.undecoded _ hd
  | next hd _ ih => exact ih (h.decoded _ hd)

private theorem Tracks.fedStep {n : Nat} (h : v.Tracks w calls₀ state₀ alone) (hf : FedStep n v u) :
    u.Tracks w calls₀ state₀ alone := by
  cases hf with
  | whole hf => exact (Tracks.fed hf h).log _
  | partly hf => exact (Tracks.fed hf h).log _
  | givenUp hf => exact ((Tracks.fed hf h).log _).cut 0

private theorem Tracks.saved (h : v.Tracks w calls₀ state₀ alone) (hs : Saved v u) :
    u.Tracks w calls₀ state₀ alone := by
  cases hs with
  | kept => exact h
  | written hp =>
    rw [h.unfiled.path] at hp
    cases hp
  | failed =>
    exact ⟨⟨rfl, h.unfiled.logged, h.unfiled.removals, h.unfiled.moves⟩, h.traced, h.nothingElse⟩

/-- What is on its way to the main context does not matter. -/
theorem Tracks.of_queues (h : v.Tracks w calls₀ state₀ alone) (pending queue : List Token)
    (queueRead : Nat) :
    ({ v with pending, queue, queueRead } : MainContext).Tracks w calls₀ state₀ alone :=
  ⟨⟨h.unfiled.path, h.unfiled.logged, h.unfiled.removals, h.unfiled.moves⟩, h.traced,
    h.nothingElse⟩

private theorem Tracks.stepped {n : Nat} (h : v.Tracks w calls₀ state₀ alone) (hs : Stepped n v u) :
    u.Tracks w calls₀ state₀ alone := by
  obtain ⟨hr, tokens⟩ := hs
  cases hr with
  | spent => exact h.of_queues _ _ _
  | undrawn _ hs => exact ((h.cut 0).saved hs).of_queues _ _ _
  | drawn _ hs => exact ((h.cut 0).saved hs).of_queues _ _ _
  | drained => exact h.of_queues _ _ _

private theorem Tracks.passed {offset : Int} {n : Nat} (hk : 0 ≤ w.keep)
    (h : v.Tracks w calls₀ state₀ alone) (hp : Passed w offset n v u) :
    u.Tracks w calls₀ state₀ alone := by
  have hevaluated {r : Except SessionError (Option StopReason)} {u : MainContext}
      (he : Evaluated w offset n v r u) : u.Tracks w calls₀ state₀ alone := by
    cases he with
    | idle => exact h
    | stopped ha => exact h.arrived hk ha
    | fed ha hf =>
      have ht := h.arrived hk ha
      rw [reuse_of_logged_nil ht.unfiled.logged] at hf
      exact ht.fedStep hf
  cases hp with
  | ended he => exact hevaluated he
  | stepped he hs => exact (hevaluated he).stepped hs

private theorem Tracks.queried {passes : Prop} (h : v.Tracks w calls₀ state₀ alone)
    (hq : Queried passes v u) : u.Tracks w calls₀ state₀ alone := by
  cases hq with
  | queued => exact h.of_queues _ _ _
  | passedOver => exact h.of_queues _ _ _

end MainContext

namespace Session

private theorem invariant_tracks {s₀ : Session} (hk : 0 ≤ s₀.window.keep) (calls₀ : List Call)
    (state₀ : List Token × List Bool) (alone : Prop) :
    Invariant (fun _ r => r ≠ .reset) fun s =>
      s.settled = s₀.settled ∧ s.mainContext.Tracks s₀.window calls₀ state₀ alone := by
  apply invariant_of_mainContext
  · intro v u hv hp
    exact hv.passed hk hp
  · intro s text room u _ hv _ hq
    exact hv.queried hq
  · intro s _ _ hr
    exact absurd rfl hr

/-- A session tracks its own history. -/
theorem tracks_refl {s : Session} {past : List Token} (hu : s.mainContext.Unfiled)
    (hm : s.mainContext.Mirrors past) :
    s.mainContext.Tracks s.window s.mainContext.calls (past, s.engine.faults.decodeMain)
      s.mainContext.NothingElse :=
  ⟨hu, ⟨[], past, (List.append_nil _).symm, rfl, hm⟩, id⟩

/-- What is tracked is the history since then. -/
theorem mirrors_of_tracks {s t : Session} {past : List Token}
    (h : t.mainContext.Tracks s.window s.mainContext.calls (past, s.engine.faults.decodeMain)
      s.mainContext.NothingElse) :
    t.mainContext.Mirrors (s.historySince t past) := by
  obtain ⟨calls, history, hcalls, hfold, hm⟩ := h.traced
  rw [historySince, mainCallsSince_of_eq_append hcalls, hfold]
  exact hm

/-- After requests, the cells hold the history, and nothing else unless the dialogue began anew. -/
theorem mirrors_history {s : Session} {past : List Token} (requests : List Request)
    (hk : 0 ≤ s.window.keep) (hu : s.mainContext.Unfiled) (hm : s.mainContext.Mirrors past) :
    (s.serveAll requests).settled = s.settled ∧ (s.serveAll requests).mainContext.Unfiled ∧
      (s.serveAll requests).mainContext.Mirrors (s.history past requests) ∧
      (.reset ∉ requests → s.mainContext.NothingElse →
        (s.serveAll requests).mainContext.NothingElse) := by
  induction requests generalizing s past with
  | nil => exact ⟨rfl, hu, hm, fun _ h => h⟩
  | cons r requests ih =>
    have hserve (hr : r ≠ .reset) :
        ((s.serve r).serveAll requests).settled = s.settled ∧
          ((s.serve r).serveAll requests).mainContext.Unfiled ∧
          ((s.serve r).serveAll requests).mainContext.Mirrors
            ((s.serve r).history (s.historySince (s.serve r) past) requests) ∧
          (.reset ∉ requests → s.mainContext.NothingElse →
            ((s.serve r).serveAll requests).mainContext.NothingElse) := by
      obtain ⟨hs, ht⟩ := (invariant_tracks hk _ _ _).serve ⟨rfl, tracks_refl hu hm⟩ hr
      have hk' : 0 ≤ (s.serve r).window.keep := by
        rwa [window_of_settled hs]
      obtain ⟨hs', hu', hm', halone⟩ := ih hk' ht.unfiled (mirrors_of_tracks ht)
      exact ⟨hs'.trans hs, hu', hm', fun hno h => halone hno (ht.nothingElse h)⟩
    have hno {c : Request} (h : .reset ∉ c :: requests) : .reset ∉ requests :=
      fun hmem => h (List.mem_cons_of_mem _ hmem)
    cases r with
    | answer room =>
      obtain ⟨hs, hu', hm', halone⟩ := hserve nofun
      exact ⟨hs, hu', hm', fun h => halone (hno h)⟩
    | query text room =>
      obtain ⟨hs, hu', hm', halone⟩ := hserve nofun
      exact ⟨hs, hu', hm', fun h => halone (hno h)⟩
    | reset =>
      have hu' : s.reset.mainContext.Unfiled := ⟨hu.path, hu.logged, hu.removals, hu.moves⟩
      have hm' : s.reset.mainContext.Mirrors [] := ⟨rfl, nofun⟩
      obtain ⟨hs, hu', hm', -⟩ := ih (s := s.reset) hk hu' hm'
      exact ⟨hs, hu', hm', fun h => absurd List.mem_cons_self h⟩

/-- A session without a session file, over cells that are empty: unless removing or moving cells
fails, the main context holds the history whenever a pass begins and after every request, each token
at its own place, and the counter is the length of the history. Until the dialogue begins anew
there are no other cells. -/
theorem resident_history {now : Nat} {config : Config} {engine : Engine} {directory : Directory}
    {s : Session} {w : Workbench} (h : Session.start now config engine directory = .ok s w)
    (hfile : config.cachePath = none) (hcells : engine.mainCells = .empty)
    (hremove : ∀ b ∈ engine.faults.remove, b = false)
    (hshift : ∀ b ∈ engine.faults.shift, b = false) (requests : List Request) :
    ((s.serveAll requests).mainContext.Mirrors (s.history [] requests) ∧
      (.reset ∉ requests → (s.serveAll requests).mainContext.NothingElse)) ∧
    ∀ t, s.AtPass requests t →
      t.mainContext.Mirrors
        ((s.serveAll requests).historySince t (s.history [] requests)) ∧
      (.reset ∉ requests → t.mainContext.NothingElse) := by
  have hbegun := start_eq_ok h
  have hcontext : s.mainContext =
      { (Workbench.fresh engine directory).mainContext with queue := s.progress.queue } := by
    obtain ⟨logged, v, hl, hv, -⟩ := hbegun.mainContext
    rw [hfile] at hl
    rw [hv]
    cases hl with
    | nothing hp =>
      rw [or_self] at hp
      rw [hp]
      rfl
    | restored hf => cases hf
  have hunfiled : s.mainContext.Unfiled := by
    rw [hcontext]
    exact ⟨rfl, rfl, hremove, hshift⟩
  have hmirrors : s.mainContext.Mirrors [] := by
    rw [hcontext]
    exact ⟨rfl, nofun⟩
  have hnothing : s.mainContext.NothingElse := by
    intro p _
    rw [hcontext]
    change engine.mainCells.get? p = none
    rw [hcells]
    exact Cells.get?_empty p
  obtain ⟨hs, hu, hm, halone⟩ := mirrors_history requests hbegun.keep hunfiled hmirrors
  refine ⟨⟨hm, fun hr => halone hr hnothing⟩, ?_⟩
  intro t ht
  have hk : 0 ≤ (s.serveAll requests).window.keep := by
    rw [window_of_settled hs]
    exact hbegun.keep
  have hnone : (s.serveAll requests).AllAllowed (fun _ r => r ≠ .reset) [] := trivial
  obtain ⟨-, htracks⟩ :=
    (invariant_tracks hk _ _ _).atPass ⟨rfl, tracks_refl hu hm⟩ hnone ht
  exact ⟨mirrors_of_tracks htracks, fun hr => htracks.nothingElse (halone hr hnothing)⟩

/-- In a dialogue that swaps, the cells hold what is left of its history. -/
theorem resident_history_of_swapped_dialogue :
    ∃ s w, Session.start 0 { prompt := "ab" }
        { contextSize := 8, script := Token.ofText "cdefghij" } {} = .ok s w ∧
      s.history [] [.answer none] = Token.ofText "abcfghij" ∧
      (s.serveAll [.answer none]).mainContext.Mirrors (s.history [] [.answer none]) := by
  obtain ⟨s, w, h, htest⟩ := exists_of_gives
    (fun s => s.history [] [.answer none] == Token.ofText "abcfghij")
    (r := Session.start 0 { prompt := "ab" }
      { contextSize := 8, script := Token.ofText "cdefghij" } {}) (by decide +kernel)
  exact ⟨s, w, h, eq_of_beq htest, (resident_history h rfl rfl nofun nofun [.answer none]).1.1⟩

end Session

end Dialogue
