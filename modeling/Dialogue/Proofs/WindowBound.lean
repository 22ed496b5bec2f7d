import Dialogue.Proofs.Decoded
import Dialogue.Proofs.Starting
import Dialogue.Proofs.Throughout
/-!
# The bound of the main window

The resident tokens never exceed the positions of the context, and the batches of a step follow each
other from the resident tokens on, without a gap, up to the positions that guidance leaves. Room is
made by evictions, by cutting the step twice, and by skipping what the session holds; each of these
moves the counter, and the step shrinks along.
-/

namespace Dialogue

open Effect

/-- Whether a call decodes into the main context. -/
def Call.decodesMain : Call → Bool
  | .decode .main .. => true
  | _ => false

/-- Main decode calls that follow each other from one position on and stay below another one, each
with at least one token and at most `n`. -/
def Contiguous (n : Nat) (bound : Int) : Int → List Call → Prop
  | _, [] => True
  | p, .decode .main tokens start :: calls =>
    start = p ∧ 1 ≤ tokens.length ∧ tokens.length ≤ n ∧ start + tokens.length ≤ bound ∧
      Contiguous n bound (start + tokens.length) calls
  | _, _ :: _ => False

private theorem Contiguous.filter {n : Nat} {bound p : Int} {calls : List Call}
    (h : Contiguous n bound p calls) : calls.filter Call.decodesMain = calls := by
  induction calls generalizing p with
  | nil => rfl
  | cons c calls ih =>
    unfold Contiguous at h
    split at h
    · next heq => cases heq
    · next heq =>
      cases heq
      rw [List.filter_cons_of_pos rfl, ih h.2.2.2.2]
    · exact h.elim

private theorem Contiguous.mono {n : Nat} {bound bound' p : Int} {calls : List Call}
    (h : Contiguous n bound p calls) (hb : bound ≤ bound') : Contiguous n bound' p calls := by
  induction calls generalizing p with
  | nil => trivial
  | cons c calls ih =>
    unfold Contiguous at h ⊢
    split at h
    · next heq => cases heq
    · next heq =>
      cases heq
      obtain ⟨hp, hpos, hle, hend, hrest⟩ := h
      exact ⟨hp, hpos, hle, Int.le_trans hend hb, ih hrest⟩
    · exact h.elim

/-! ### The counter -/

namespace MainContext

/-- The resident tokens fit into the window. -/
def Bounded (w : Window) (v : MainContext) : Prop := 0 ≤ v.past ∧ v.past ≤ w.size

/-- The next step fits behind the resident tokens, below a bound. -/
def Fits (bound : Int) (v : MainContext) : Prop := 0 ≤ v.past ∧ v.past + v.pending.length ≤ bound

private theorem Bounded.cut {w : Window} {v : MainContext} (h : v.Bounded w) (n : Nat) :
    (v.cut n).Bounded w := h

/-- Logging makes no calls. -/
theorem calls_log (v : MainContext) (n : Nat) : (v.log n).calls = v.calls := by
  unfold log
  split <;> rfl

/-- Skipping a token moves the counter by one, and leaves one token less. -/
theorem past_add_pending_reuse (v : MainContext) :
    v.reuse.past + v.reuse.pending.length = v.past + v.pending.length := by
  have hk := commonLength_le_right (v.logged.drop v.loggedRead) v.pending
  simp only [reuse, List.length_drop]
  omega

/-- A step that fits does so once some of it was skipped. -/
theorem Fits.reuse {bound : Int} {v : MainContext} (h : v.Fits bound) : v.reuse.Fits bound := by
  obtain ⟨hp, hb⟩ := h
  constructor
  · have hle := v.past_le_reuse
    omega
  · rw [past_add_pending_reuse]
    exact hb

end MainContext

private theorem Window.fits_of_room {w : Window} {v : MainContext} {offset : Int} (h : 0 ≤ v.past)
    (hroom : 0 < w.room v.past offset) :
    (v.cut (w.room v.past offset)).Fits (w.size - max 0 offset) := by
  refine ⟨h, ?_⟩
  simp only [MainContext.cut, List.length_take]
  unfold room at hroom ⊢
  omega

private theorem Swap.bounded {w : Window} {v u : MainContext} (hk : 0 ≤ w.keep) (h : Swap w v u)
    (hv : v.Bounded w) : u.Bounded w := by
  obtain ⟨h₀, hs⟩ := hv
  cases h with
  | idle => exact ⟨h₀, hs⟩
  | unremoved => exact ⟨h₀, hs⟩
  | unmoved => exact ⟨h₀, hs⟩
  | evicted hd =>
    obtain ⟨he, heq⟩ := Window.discard_eq hd
    unfold Window.evictable Window.pinned at he heq
    constructor <;> dsimp only <;> omega

private theorem Swaps.bounded {w : Window} {v u : MainContext} (hk : 0 ≤ w.keep) (h : Swaps w v u)
    (hv : v.Bounded w) : u.Bounded w := by
  induction h with
  | refl => exact hv
  | tail _ hs ih => exact hs.bounded hk ih

private theorem Arrived.bounded {w : Window} {offset : Int} {v u : MainContext}
    {r : Except SessionError (Option StopReason)} (hk : 0 ≤ w.keep) (h : Arrived w offset v r u)
    (hv : v.Bounded w) : u.Bounded w := by
  cases h with
  | stopped h => exact h.bounded hk (hv.cut _)
  | ready h _ _ => exact (h.bounded hk (hv.cut _)).cut _

/-- A step that goes on to be fed fits. -/
theorem Arrived.fits {w : Window} {offset : Int} {v u : MainContext} (hk : 0 ≤ w.keep)
    (h : Arrived w offset v (.ok none) u) (hv : v.Bounded w) :
    u.Fits (w.size - max 0 offset) := by
  cases h with
  | stopped _ hr => exact absurd rfl hr
  | ready h hroom _ => exact Window.fits_of_room (h.bounded hk (hv.cut _)).1 hroom

/-- The counter ends behind the tokens that were decoded, which are no more than were pending. -/
theorem FedStep.bounded {n : Nat} {w : Window} {offset : Int} {v u : MainContext}
    (h : FedStep n v u) (hv : v.Fits (w.size - max 0 offset)) : u.Bounded w := by
  obtain ⟨hp, hb⟩ := hv
  obtain ⟨m, hd⟩ := h.decoded
  have hle := hd.le
  unfold MainContext.Bounded
  rw [hd.past]
  constructor <;> omega

private theorem Evaluated.bounded {w : Window} {offset : Int} {n : Nat} {v u : MainContext}
    {r : Except SessionError (Option StopReason)} (hk : 0 ≤ w.keep)
    (h : Evaluated w offset n v r u) (hv : v.Bounded w) : u.Bounded w := by
  cases h with
  | idle => exact hv
  | stopped h => exact h.bounded hk hv
  | fed h hf => exact hf.bounded (h.fits hk hv).reuse

private theorem Stepped.bounded {w : Window} {n : Nat} {v u : MainContext} (h : Stepped n v u)
    (hv : v.Bounded w) : u.Bounded w := by
  unfold MainContext.Bounded at hv ⊢
  rwa [h.past_eq]

/-- After a pass the resident tokens fit into the window. -/
theorem Passed.bounded {w : Window} {offset : Int} {n : Nat} {v u : MainContext}
    (hk : 0 ≤ w.keep) (h : Passed w offset n v u) (hv : v.Bounded w) : u.Bounded w := by
  cases h with
  | ended h => exact h.bounded hk hv
  | stepped h hs => exact hs.bounded (h.bounded hk hv)

/-- After a query the resident tokens fit into the window. -/
theorem Queried.bounded {w : Window} {passes : Prop} {v u : MainContext} (h : Queried passes v u)
    (hv : v.Bounded w) : u.Bounded w := by
  unfold MainContext.Bounded at hv ⊢
  rwa [h.past_eq]

/-- A session begins in a window with positions. -/
theorem Session.Begun.size_nonneg {config : Config} {engine : Engine} {directory : Directory}
    {s : Session} (h : Begun config engine directory s) : 0 ≤ s.window.size := by
  have hne := List.length_pos_iff.mpr h.queue_ne_nil
  have hle := h.queue_le
  unfold Window.maxStep at hle
  omega

/-- Nothing is resident when a session begins. -/
theorem Session.Begun.past_eq {config : Config} {engine : Engine} {directory : Directory}
    {s : Session} (h : Begun config engine directory s) : s.mainContext.past = 0 := by
  obtain ⟨logged, v, hl, hv, -⟩ := h.mainContext
  rw [hv, ← hl.restarted_eq rfl, MainContext.aligned_restarted]
  rfl

/-- When a session begins the resident tokens fit into the window. -/
theorem Session.Begun.bounded {config : Config} {engine : Engine} {directory : Directory}
    {s : Session} (h : Begun config engine directory s) : s.mainContext.Bounded s.window := by
  unfold MainContext.Bounded
  rw [h.past_eq]
  exact ⟨Int.le_refl 0, h.size_nonneg⟩

/-- In a window that has positions and keeps no negative number of tokens, the counter stays within
its bounds. -/
theorem Session.invariant_bounded {s₀ : Session} (hk : 0 ≤ s₀.window.keep)
    (hs : 0 ≤ s₀.window.size) :
    Invariant (fun _ _ => True) fun s =>
      s.settled = s₀.settled ∧ s.mainContext.Bounded s₀.window := by
  apply invariant_of_mainContext
  · intro v u hv hp
    exact hp.bounded hk hv
  · intro s text room u _ hv _ hq
    exact hq.bounded hv
  · intro s _ _ _
    exact ⟨Int.le_refl 0, hs⟩

/-! ### The calls of a step -/

private theorem Swap.calls_eq {w : Window} {v u : MainContext} (h : Swap w v u) :
    ∃ calls, u.calls = v.calls ++ calls ∧ calls.filter Call.decodesMain = [] := by
  cases h with
  | idle => exact ⟨[], (List.append_nil _).symm, rfl⟩
  | unremoved => exact ⟨_, rfl, rfl⟩
  | unmoved => exact ⟨_, rfl, rfl⟩
  | evicted => exact ⟨_, rfl, rfl⟩

/-- Making room decodes nothing. -/
theorem Swaps.calls_eq {w : Window} {v u : MainContext} (h : Swaps w v u) :
    ∃ calls, u.calls = v.calls ++ calls ∧ calls.filter Call.decodesMain = [] := by
  induction h with
  | refl => exact ⟨[], (List.append_nil _).symm, rfl⟩
  | tail _ hs ih =>
    obtain ⟨calls, hc, hf⟩ := ih
    obtain ⟨more, hm, hg⟩ := hs.calls_eq
    refine ⟨calls ++ more, ?_, ?_⟩
    · rw [hm, hc, List.append_assoc]
    · rw [List.filter_append, hf, hg, List.append_nil]

/-- Nothing is decoded before a step is fed. -/
theorem Arrived.calls_eq {w : Window} {offset : Int} {v u : MainContext}
    {r : Except SessionError (Option StopReason)} (h : Arrived w offset v r u) :
    ∃ calls, u.calls = v.calls ++ calls ∧ calls.filter Call.decodesMain = [] := by
  cases h with
  | stopped h => exact h.calls_eq
  | ready h _ _ => exact h.calls_eq

/-- Batches of a bounded size are decoded without a gap. -/
theorem Fed.contiguous {l : List (List Token)} {p bound : Int} {n m : Nat} {v u : MainContext}
    {r : Except DecodeError Int} (h : Fed l p n v r u)
    (hl : ∀ b ∈ l, 1 ≤ b.length ∧ b.length ≤ m) (hb : p + l.flatten.length ≤ bound) :
    ∃ calls, u.calls = v.calls ++ calls ∧ Contiguous m bound p calls := by
  induction h with
  | done => exact ⟨[], (List.append_nil _).symm, trivial⟩
  | failed =>
    obtain ⟨hpos, hle⟩ := hl _ List.mem_cons_self
    rw [List.flatten_cons, List.length_append] at hb
    refine ⟨_, rfl, rfl, hpos, hle, ?_, trivial⟩
    omega
  | next _ _ ih =>
    obtain ⟨hpos, hle⟩ := hl _ List.mem_cons_self
    rw [List.flatten_cons, List.length_append] at hb
    obtain ⟨calls, hc, hg⟩ := ih (fun b h => hl b (List.mem_cons_of_mem _ h)) (by omega)
    rw [List.append_assoc] at hc
    refine ⟨_, hc, rfl, hpos, hle, ?_, hg⟩
    omega

private theorem FedStep.contiguous {n : Nat} {bound : Int} {v u : MainContext} (hn : 0 < n)
    (h : FedStep n v u) (hv : v.Fits bound) :
    ∃ calls, u.calls = v.calls ++ calls ∧ Contiguous n bound v.past calls := by
  have hsizes (b : List Token) (hb : b ∈ pieces n v.pending) : 1 ≤ b.length ∧ b.length ≤ n := by
    have hlen := length_mem_pieces hb
    omega
  have hfits : v.past + (pieces n v.pending).flatten.length ≤ bound := by
    rw [flatten_pieces]
    exact hv.2
  cases h with
  | whole h =>
    rw [MainContext.calls_log]
    exact h.contiguous hsizes hfits
  | partly h =>
    rw [MainContext.calls_log]
    exact h.contiguous hsizes hfits
  | givenUp h =>
    rw [MainContext.cut, MainContext.calls_log]
    exact h.contiguous hsizes hfits

namespace Session

/-- The calls of a pass that decode into the main context. -/
def passDecodes (s : Session) : List Call :=
  (s.mainCallsSince (left (pass s))).filter Call.decodesMain

private theorem passDecodes_of_ends {s : Session} {R : List Call → Prop}
    (h : Ends evaluatePending s fun _ t => ∃ calls,
      t.mainContext.calls = s.mainContext.calls ++ calls ∧ R (calls.filter Call.decodesMain)) :
    R s.passDecodes := by
  have hp := (ends_pass_of_evaluatePending (P := fun v => ∃ calls,
    v.calls = s.mainContext.calls ++ calls ∧ R (calls.filter Call.decodesMain)) h).left
  obtain ⟨v, ⟨calls, hv, hR⟩, hstep⟩ := hp
  have hcalls : (left (pass s)).mainContext.calls = s.mainContext.calls ++ calls := by
    rcases hstep with heq | ⟨n, hstepped⟩
    · rw [heq, hv]
    · rw [hstepped.calls_eq, hv]
  rwa [passDecodes, mainCallsSince_of_eq_append hcalls]

/-- The decode calls of a step begin where the tokens end that are resident once the step was
skipped as far as the session holds it. -/
theorem passDecodes_of_arrive {s u : Session} (hk : 0 ≤ s.window.keep)
    (hn : 0 < s.config.batchSize) (hv : s.mainContext.Bounded s.window)
    (h : arrive s = .ok none u) :
    Contiguous s.config.batchSize (s.window.size - max 0 s.offset) u.progress.reuse.past
      s.passDecodes := by
  obtain ⟨hsettled, ha⟩ := (ends_arrive s).of_ok h
  by_cases hp : s.progress.pending = []
  · have hnone : s.passDecodes = [] := by
      apply passDecodes_of_ends (R := (· = []))
      simp only [evaluatePending, ends_bind, ends_get, if_pos hp, ends_pure]
      exact ⟨[], (List.append_nil _).symm, rfl⟩
    rw [hnone]
    trivial
  · apply passDecodes_of_ends
    apply (ends_evaluatePending_of_arrive hp h).mono
    intro r t hf
    rw [config_of_settled hsettled] at hf
    obtain ⟨before, hb, hnone⟩ := ha.calls_eq
    obtain ⟨calls, hcalls, hcontiguous⟩ := hf.contiguous hn (ha.fits hk hv).reuse
    refine ⟨before ++ calls, ?_, ?_⟩
    · rw [hcalls, ← List.append_assoc, ← hb]
      rfl
    · rw [List.filter_append, hnone, hcontiguous.filter]
      exact hcontiguous

/-- A step that does not arrive is not decoded. -/
theorem passDecodes_of_stop {s : Session} (h : ∀ u, arrive s ≠ .ok none u) :
    s.passDecodes = [] := by
  apply passDecodes_of_ends (R := (· = []))
  apply (ends_evaluatePending_of_stop h).mono
  rintro r t (ht | ⟨_, _, ha⟩)
  · exact ⟨[], by rw [ht, List.append_nil], rfl⟩
  · exact ha.calls_eq

/-- Whatever fails, the resident tokens never exceed the positions of the context. The decode calls
of every step begin behind the tokens that are resident once it was skipped as far as the session
holds it, go on without a gap in batches of the configured size, and stay below the positions that
guidance leaves. -/
theorem main_window_bound {now : Nat} {config : Config} {engine : Engine} {directory : Directory}
    {s : Session} {w : Workbench} (h : Session.start now config engine directory = .ok s w)
    (requests : List Request) :
    (0 ≤ (s.serveAll requests).progress.past ∧
      (s.serveAll requests).progress.past ≤ engine.contextSize) ∧
    ∀ t, s.AtPass requests t →
      (0 ≤ t.progress.past ∧ t.progress.past ≤ engine.contextSize) ∧
      (∀ u, arrive t = .ok none u →
        Contiguous config.batchSize (engine.contextSize - max 0 s.offset) u.progress.reuse.past
          t.passDecodes) ∧
      ((∀ u, arrive t ≠ .ok none u) → t.passDecodes = []) := by
  have hbegun := start_eq_ok h
  have hsize : s.window.size ≤ engine.contextSize := by
    rw [hbegun.size]
    exact Number.signedWord_le _
  have hpos := hbegun.size_nonneg
  have hinvariant := invariant_bounded hbegun.keep hpos
  have hbounded (v : MainContext) (hv : v.Bounded s.window) :
      0 ≤ v.past ∧ v.past ≤ engine.contextSize := ⟨hv.1, Int.le_trans hv.2 hsize⟩
  have hbegins : s.settled = s.settled ∧ s.mainContext.Bounded s.window := ⟨rfl, hbegun.bounded⟩
  have hall : s.AllAllowed (fun _ _ => True) requests := allAllowed_true s requests
  constructor
  · exact hbounded _ (hinvariant.serveAll hbegins hall).2
  · intro t ht
    obtain ⟨hsettled, hv⟩ := hinvariant.atPass hbegins hall ht
    have hconfig := config_of_settled hsettled
    have hwindow := window_of_settled hsettled
    refine ⟨hbounded _ hv, ?_, passDecodes_of_stop⟩
    intro u hu
    have hk : 0 ≤ t.window.keep := by
      rw [hwindow]
      exact hbegun.keep
    have hn : 0 < t.config.batchSize := by
      rw [hconfig, hbegun.batchSize]
      exact hbegun.batchSize_pos
    rw [← hwindow] at hv hsize
    have hc := passDecodes_of_arrive hk hn hv hu
    rw [hconfig, hbegun.batchSize, offset_of_settled hsettled] at hc
    exact hc.mono (by omega)

/-- A dialogue that swaps fills its window and no more. -/
theorem main_window_bound_of_swapped_dialogue :
    ∃ s w, Session.start 0 { prompt := "ab" }
        { contextSize := 8, script := Token.ofText "cdefghij" } {} = .ok s w ∧
      (s.serveAll [.answer none]).progress.past = 8 ∧
      0 ≤ (s.serveAll [.answer none]).progress.past ∧
      (s.serveAll [.answer none]).progress.past ≤ 8 := by
  obtain ⟨s, w, h, htest⟩ := exists_of_gives
    (fun s => (s.serveAll [.answer none]).progress.past == 8)
    (r := Session.start 0 { prompt := "ab" }
      { contextSize := 8, script := Token.ofText "cdefghij" } {}) (by decide +kernel)
  exact ⟨s, w, h, eq_of_beq htest, (main_window_bound h [.answer none]).1⟩

end Session

end Dialogue
