import Dialogue.Proofs.FileCodec
import Dialogue.Proofs.Starting
import Dialogue.Proofs.Unmoved
import Dialogue.Proofs.WrittenFiles
/-!
# Coherent session files

A session file is coherent if its snapshot holds every one of its tokens at the place of the token.
A session that begins with such a file has a log that can be compared with the stream.
-/

namespace Dialogue

open Effect

/-- The snapshot holds every token at its place. -/
def SessionFile.Coherent (bytes : List UInt8) : Prop :=
  ∃ capacity tokens state cells, decode capacity bytes = .ok (tokens, state) ∧
    Cells.ofSnapshot? state = some cells ∧
      ∀ i, i < tokens.length → cells.get? (i : Nat) = tokens[i]?

/-- What can be read at a path is a coherent session file. -/
def Directory.CoherentAt (d : Directory) (path : String) : Prop :=
  ∀ bytes, d.read path = .ok bytes → SessionFile.Coherent bytes

namespace SessionFile

variable {capacity : Nat} {bytes state : List UInt8} {tokens : List Token} {cells : Cells}

/-- The cells that are restored from a coherent file hold its tokens. -/
theorem Coherent.get?_eq (h : Coherent bytes) (hd : decode capacity bytes = .ok (tokens, state))
    (hc : Cells.ofSnapshot? state = some cells) {i : Nat} (hi : i < tokens.length) :
    cells.get? i = tokens[i]? := by
  obtain ⟨_, tokens', state', cells', hd', hc', hheld⟩ := h
  obtain ⟨rfl, rfl⟩ := decode_unique hd hd'
  cases hc.symm.trans hc'
  exact hheld i hi

/-- A file that is written is coherent if the cells hold what it lists. -/
theorem coherent_encode_iff (ht : tokens.length < 0x100000000) (hc : cells.Encodable) :
    Coherent (encode tokens cells.snapshot) ↔
      ∀ i, i < tokens.length → cells.get? (i : Nat) = tokens[i]? := by
  have hd := decode_encode (Nat.le_refl tokens.length) ht (Cells.length_snapshot_lt hc)
  obtain ⟨d, hs, hget⟩ := Cells.ofSnapshot?_snapshot hc
  constructor
  · intro h i hi
    rw [← hget]
    exact h.get?_eq hd hs hi
  · intro h
    refine ⟨_, _, _, _, hd, hs, ?_⟩
    intro i hi
    rw [hget]
    exact h i hi

end SessionFile

/-- Whether the session file at a path lists a token at a place where its snapshot does not hold
it. -/
def Directory.missesAt (d : Directory) (path : String) (capacity i : Nat) : Bool :=
  match d.read path with
  | .error _ => false
  | .ok bytes =>
    match SessionFile.decode capacity bytes with
    | .error _ => false
    | .ok (tokens, state) =>
      match Cells.ofSnapshot? state with
      | none => false
      | some cells => i < tokens.length && cells.get? i ≠ tokens[i]?

/-- A file that misses a token is not coherent. -/
theorem Directory.not_coherentAt_of_missesAt {d : Directory} {path : String} {capacity i : Nat}
    (h : d.missesAt path capacity i = true) : ¬ d.CoherentAt path := by
  intro hcoherent
  unfold missesAt at h
  split at h
  · cases h
  · next bytes hr =>
    split at h
    · cases h
    · next tokens state hd =>
      split at h
      · cases h
      · next cells hc =>
        simp only [Bool.and_eq_true, decide_eq_true_eq] at h
        exact h.2 ((hcoherent bytes hr).get?_eq hd hc h.1)

/-- A directory with a session file of some tokens. -/
def Directory.ofSession (tokens : List Token) : Directory :=
  ⟨[(["s.bin"], .file (SessionFile.encode tokens (Cells.empty.write 0 tokens).snapshot))]⟩

/-- The file of a session whose tokens were all resident is coherent. -/
theorem Directory.coherentAt_ofSession {tokens : List Token} (h : tokens.length < 0x80000000) :
    (ofSession tokens).CoherentAt "s.bin" := by
  have hread : (ofSession tokens).read "s.bin" =
      .ok (SessionFile.encode tokens (Cells.empty.write 0 tokens).snapshot) := rfl
  have hget (q : Int) : (Cells.empty.write 0 tokens).get? q =
      if 0 ≤ q ∧ q < 0 + tokens.length then tokens[(q - 0).toNat]? else none :=
    Cells.get?_write _ _ _ _
  intro bytes hbytes
  rw [hread] at hbytes
  cases hbytes
  rw [SessionFile.coherent_encode_iff (by omega)]
  · intro i hi
    rw [hget, if_pos (by omega), Int.sub_zero, Int.toNat_natCast]
  · intro q hq
    rw [hget] at hq
    split at hq
    · omega
    · exact absurd rfl hq

/-! ### The log when a session begins -/

/-- What is kept of a log when a session begins is no longer than the log. -/
theorem MainContext.length_keptOf_le (queue logged : List Token) :
    (keptOf queue logged).length ≤ logged.length := by
  unfold keptOf
  split
  · exact List.length_take_le' _ _
  · exact Nat.le_refl _

/-- The sizes of a session that begins are as they should be. -/
theorem Session.Begun.sized {config : Config} {engine : Engine} {directory : Directory}
    {s : Session} (h : Begun config engine directory s) : s.Sized where
  queue_le := h.queue_le
  size_lt := by
    rw [h.size]
    exact Number.signedWord_lt _
  logged_lt := by
    obtain ⟨logged, v, hl, heq, -⟩ := h.mainContext
    have hlogged : s.progress.logged.length ≤ logged.length := by
      have hs : s.progress.logged = (v.aligned s.progress.queue logged).logged :=
        congrArg MainContext.logged heq
      rw [hs, MainContext.aligned]
      split
      · exact Nat.le_refl _
      · exact MainContext.length_keptOf_le _ _
    cases hl with
    | nothing =>
      rw [List.length_nil] at hlogged
      omega
    | restored _ _ hd _ =>
      obtain ⟨-, -, ht, -⟩ := SessionFile.decode_eq_ok hd
      omega

namespace MainContext

variable {s : Session} {once : Prop} {v : MainContext} {tokens : List Token}

/-- Nothing is compared or queued yet. -/
structure Untouched (v : MainContext) : Prop where
  past : v.past = 0
  loggedRead : v.loggedRead = 0
  pending : v.pending = []
  queueRead : v.queueRead = 0

private theorem Untouched.counted (hv : v.Untouched) (bound : Int) : v.Counted bound where
  le_logged := by
    rw [hv.loggedRead]
    exact Nat.zero_le _
  le_past := by
    intro _
    rw [hv.loggedRead, hv.past]
    exact Int.le_refl 0
  past_eq := by
    intro _
    rw [hv.loggedRead, hv.past]
    rfl

/-- Where the prompt agrees with the session file, the cells are left as they were. -/
theorem get?_remove_of_lt {c : Cells} {i n : Nat} (hi : i < n) :
    (c.remove n none).get? i = c.get? i := by
  have hrange : Cells.inRange n none i = false := by
    simp only [Cells.inRange, Bool.and_eq_false_iff, decide_eq_false_iff_not]
    left
    omega
  rw [Cells.get?_remove, hrange]
  rfl

private theorem get?_remove_self {c : Cells} {n : Nat} (hn : (n : Int) < 0x7fffffff) :
    (c.remove n none).get? n = none := by
  have hrange : Cells.inRange n none n = true := by
    simp only [Cells.inRange, Option.getD_none, Bool.and_eq_true, decide_eq_true_eq]
    omega
  rw [Cells.get?_remove, hrange]
  rfl

/-- What the prompt agrees with is held. -/
theorem compares_of_matched (hv : v.Untouched) (hprompt : s.progress.queue <+: v.queue)
    (hh : v.Holds) (hm : v.logged.length ≤ s.matched) : v.Compares s once := by
  exact ⟨hprompt, hv.counted, .inr ⟨hh, fun _ => .inl hm⟩⟩

/-- A log that goes on where the prompt does otherwise leads to that place. -/
theorem compares_of_forked (hv : v.Untouched) (hprompt : s.progress.queue <+: v.queue)
    (hlogged : v.logged = s.progress.logged)
    (hm : s.matched = commonLength s.progress.logged s.progress.queue)
    (hl : s.matched < s.progress.logged.length) (hq : s.matched < s.progress.queue.length)
    (hheld : ∀ i, i < s.matched → v.cells.get? (i : Nat) = s.progress.logged[i]?)
    (hgone : v.cells.get? (s.matched : Nat) = none) : v.Compares s once := by
  have hforked : v.Forked s := by
    refine ⟨hlogged, hl, hq, ?_, ?_, hheld, hgone, .agreeing ?_ (.inr (.inl ?_))⟩
    · rw [hm] at hl hq ⊢
      exact getElem?_commonLength_ne hl hq
    · rw [hv.loggedRead]
      exact Nat.zero_le _
    · intro i hi
      rw [hv.pending] at hi
      cases hi
    · rw [hv.loggedRead, hv.pending, hv.queueRead]
      rfl
  exact ⟨hprompt, hv.counted, .inl hforked⟩

/-- What is kept of a session file is held, or leads to where the prompt does otherwise. -/
private theorem compares_of_kept (hu : s.mainContext.Untouched) (hs : s.Sized)
    (hlogged : s.progress.logged = keptOf s.progress.queue tokens)
    (hcells : s.mainContext.cells = v.cells.remove s.matched none)
    (hheld : ∀ i, i < tokens.length → v.cells.get? (i : Nat) = tokens[i]?)
    (hm : s.matched = commonLength tokens s.progress.queue) : s.mainContext.Compares s once := by
  have hprompt : s.progress.queue <+: s.mainContext.queue := List.prefix_rfl
  have hle := commonLength_le_right tokens s.progress.queue
  have hlt := commonLength_le_left tokens s.progress.queue
  rw [← hm] at hle hlt
  have hmatched (i : Nat) (hi : i < s.matched) : s.mainContext.cells.get? i = tokens[i]? := by
    rw [hcells, get?_remove_of_lt hi]
    exact hheld i (by omega)
  unfold keptOf at hlogged
  rw [← hm] at hlogged
  -- A file that goes on behind the whole prompt is kept up to the last token of the prompt.
  by_cases hcut : s.matched = s.progress.queue.length ∧ s.progress.queue.length < tokens.length
  · rw [if_pos hcut] at hlogged
    have hlength : s.progress.logged.length ≤ s.progress.queue.length - 1 := by
      rw [hlogged]
      exact List.length_take_le _ _
    apply compares_of_matched hu hprompt
    · intro i hi
      change i < s.progress.logged.length at hi
      change s.mainContext.cells.get? i = s.progress.logged[i]?
      rw [hmatched i (by omega), hlogged, List.getElem?_take_of_lt (by omega)]
    · change s.progress.logged.length ≤ s.matched
      omega
  · rw [if_neg hcut] at hlogged
    rw [← hlogged] at hm hmatched hlt hcut
    by_cases hall : s.progress.logged.length ≤ s.matched
    · apply compares_of_matched hu hprompt
      · intro i hi
        exact hmatched i (Nat.lt_of_lt_of_le hi hall)
      · exact hall
    · apply compares_of_forked hu hprompt rfl hm
      · omega
      · omega
      · exact hmatched
      · have hqueue := hs.queue_le
        have hsize := hs.size_lt
        unfold Window.maxStep at hqueue
        rw [hcells]
        exact get?_remove_self (by omega)

private theorem compares_aligned (hv : v.Untouched) (hs : s.Sized)
    (hheld : ∀ i, i < tokens.length → v.cells.get? (i : Nat) = tokens[i]?)
    (heq : s.mainContext = v.aligned s.progress.queue tokens)
    (hm : s.matched = commonLength tokens s.progress.queue) : s.mainContext.Compares s once := by
  have hprompt : s.progress.queue <+: s.mainContext.queue := List.prefix_rfl
  have hu : s.mainContext.Untouched := by
    rw [heq, aligned]
    split <;> exact ⟨hv.past, hv.loggedRead, hv.pending, hv.queueRead⟩
  by_cases hnil : tokens = []
  · rw [aligned, if_pos hnil, hnil] at heq
    have hlogged : s.mainContext.logged = [] := congrArg MainContext.logged heq
    apply compares_of_matched hu hprompt
    · intro i hi
      rw [hlogged] at hi
      cases hi
    · rw [hlogged]
      exact Nat.zero_le _
  · rw [aligned, if_neg hnil, ← hm] at heq
    have hlogged : s.progress.logged = keptOf s.progress.queue tokens :=
      congrArg MainContext.logged heq
    have hcells : s.mainContext.cells = v.cells.remove s.matched none :=
      congrArg MainContext.cells heq
    exact compares_of_kept hu hs hlogged hcells hheld hm

end MainContext

/-- A session that begins with a coherent file, or with none, has a log that can be compared with
the stream. -/
theorem Session.Begun.compares {config : Config} {engine : Engine} {directory : Directory}
    {s : Session} (h : Begun config engine directory s)
    (hfile : ∀ path, config.cachePath = some path → directory.CoherentAt path) (once : Prop) :
    s.mainContext.Compares s once := by
  obtain ⟨logged, v, hl, heq, hm⟩ := h.mainContext
  have hv : v.Untouched := by
    cases hl <;> exact ⟨rfl, rfl, rfl, rfl⟩
  apply MainContext.compares_aligned hv h.sized _ heq hm
  cases hl with
  | nothing =>
    intro i hi
    cases hi
  | restored hf hr hd hc =>
    intro i hi
    exact (hfile _ hf _ hr).get?_eq hd hc hi

end Dialogue
