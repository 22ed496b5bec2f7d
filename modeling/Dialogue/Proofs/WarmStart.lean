import Dialogue.Proofs.Coherence
import Dialogue.Proofs.Residents
/-!
# Warm starts

A session that is aligned with a prompt and then takes the prompt batch by batch comes to the same
as one that decodes all of it: the context and the log hold the prompt and nothing else. Only what
the session does not hold is decoded, each token at its own place, whatever the cuts between the
batches; if the session holds more than the prompt, the last token is decoded again.
-/

namespace Dialogue

open Effect

/-! ### Common beginnings -/

private theorem commonLength_drop {a b : List Token} {i : Nat} (h : i ≤ commonLength a b) :
    commonLength (a.drop i) (b.drop i) = commonLength a b - i := by
  induction i generalizing a b with
  | zero => simp
  | succ i ih =>
    cases a with
    | nil => simp [commonLength] at h
    | cons x a =>
      cases b with
      | nil => simp [commonLength] at h
      | cons y b =>
        simp only [commonLength] at h ⊢
        split at h
        · next hxy =>
          rw [if_pos hxy, List.drop_succ_cons, List.drop_succ_cons, ih (by omega)]
          omega
        · omega

/-- What a list has in common with the front of another one ends where that ends. -/
theorem commonLength_take (a b : List Token) (n : Nat) :
    commonLength a (b.take n) = min (commonLength a b) n := by
  induction n generalizing a b with
  | zero => cases a <;> simp [commonLength]
  | succ n ih =>
    cases a with
    | nil => simp [commonLength]
    | cons x a =>
      cases b with
      | nil => simp [commonLength]
      | cons y b =>
        simp only [List.take_succ_cons, commonLength, ih]
        split <;> omega

/-- A list agrees with itself throughout. -/
theorem commonLength_self (a : List Token) : commonLength a a = a.length := by
  induction a with
  | nil => rfl
  | cons x a ih => simp [commonLength, ih]

/-- The second list ends with the common beginning just if the first one begins with it. -/
theorem commonLength_eq_length_iff {a b : List Token} :
    commonLength a b = b.length ↔ b <+: a := by
  constructor
  · intro h
    have htake := take_commonLength a b
    rw [h, List.take_length] at htake
    rw [← htake]
    exact List.take_prefix _ _
  · intro h
    have hle := h.length_le
    rw [List.prefix_iff_eq_take.mp h, commonLength_take, commonLength_self, List.length_take]
    omega

/-- How much of a prompt is not decoded after a session: what both begin with, but never all of the
prompt if the session goes on. -/
def warmLength (logged prompt : List Token) : Nat :=
  if prompt <+: logged ∧ prompt.length < logged.length then prompt.length - 1
  else commonLength logged prompt

private theorem commonLength_keptOf (logged prompt : List Token) :
    commonLength (MainContext.keptOf prompt logged) prompt = warmLength logged prompt := by
  unfold MainContext.keptOf warmLength
  simp only [commonLength_eq_length_iff]
  split
  · next h =>
    rw [commonLength_comm, commonLength_take, commonLength_comm,
      commonLength_eq_length_iff.mpr h.1]
    omega
  · rfl

/-- A session that goes on behind the prompt leaves the last token of it. -/
example : warmLength (Token.ofText "abcd") (Token.ofText "ab") = 1 := by decide

private theorem warmLength_le (logged prompt : List Token) :
    warmLength logged prompt ≤ commonLength logged prompt := by
  unfold warmLength
  split
  · next h =>
    rw [commonLength_eq_length_iff.mpr h.1]
    omega
  · exact Nat.le_refl _

/-- Nothing else is kept of a session if the whole prompt is skipped. -/
theorem keptOf_eq_of_le {logged prompt : List Token}
    (h : prompt.length ≤ commonLength (MainContext.keptOf prompt logged) prompt) :
    MainContext.keptOf prompt logged = prompt := by
  have hstart : prompt <+: MainContext.keptOf prompt logged :=
    commonLength_eq_length_iff.mp (Nat.le_antisymm (commonLength_le_right _ _) h)
  have hlength : (MainContext.keptOf prompt logged).length ≤ prompt.length := by
    unfold MainContext.keptOf at hstart ⊢
    split
    · rw [List.length_take]
      omega
    · next hc =>
      rw [if_neg hc] at hstart
      have hall := commonLength_eq_length_iff.mpr hstart
      omega
  exact (hstart.eq_of_length_le hlength).symm

/-! ### Places -/

/-- Tokens with the positions from one on. -/
def placedFrom (p : Int) : List Token → List (Int × Token)
  | [] => []
  | t :: l => (p, t) :: placedFrom (p + 1) l

private theorem placedFrom_append (p : Int) (a b : List Token) :
    placedFrom p (a ++ b) = placedFrom p a ++ placedFrom (p + a.length) b := by
  induction a generalizing p with
  | nil => simp [placedFrom]
  | cons t a ih =>
    have hp : p + 1 + (a.length : Int) = p + ((t :: a).length : Nat) := by
      rw [List.length_cons]
      omega
    rw [List.cons_append, placedFrom, placedFrom, ih, hp, List.cons_append]

/-- The tokens that are left of a batch once `n` tokens were taken and the first `k` are skipped,
each with its position. -/
def leftOver (k n : Nat) (batch : List Token) : List (Int × Token) :=
  placedFrom (max n k : Nat) (batch.drop (k - n))

private theorem leftOver_append (k n : Nat) (a b : List Token) :
    leftOver k n (a ++ b) = leftOver k n a ++ leftOver k (n + a.length) b := by
  have hstart : ((max n k : Nat) : Int) + (a.drop (k - n)).length =
      (max (n + a.length) k : Nat) := by
    rw [List.length_drop]
    omega
  have hdrop : k - n - a.length = k - (n + a.length) := by omega
  rw [leftOver, leftOver, leftOver, List.drop_append, placedFrom_append, hstart, hdrop]

/-- The tokens of a batch, each with its position. -/
def Batch.placed (b : Batch) : List (Int × Token) := placedFrom b.start b.tokens

private theorem Batch.flatMap_placed_laid (p : Int) (l : List (List Token)) :
    (laid p l).flatMap placed = placedFrom p l.flatten := by
  induction l generalizing p with
  | nil => rfl
  | cons b l ih =>
    rw [laid, List.flatMap_cons, ih, List.flatten_cons, placedFrom_append]
    rfl

/-! ### Taking batches -/

namespace MainContext

/-- The main context after a beginning of a prompt, with what is kept of the session and how much of
the prompt the cells held at first. -/
structure Resumed (prompt kept : List Token) (held : Nat) (taken : List Token) (v : MainContext) :
    Prop where
  /-- The session file is in use. -/
  path : v.path ≠ none
  /-- What was taken is resident. -/
  past : v.past = taken.length
  /-- What was taken was compared. -/
  loggedRead : v.loggedRead = taken.length
  /-- The cells hold what was taken, and what they held at first. -/
  cells : ∀ p, v.cells.get? p =
    if 0 ≤ p ∧ p < (max taken.length held : Nat) then prompt[p.toNat]? else none
  /-- The log is that of the session until the prompt leaves it, and then what was taken. -/
  logged : (taken.length ≤ commonLength kept prompt ∧ v.logged = kept) ∨
    (commonLength kept prompt ≤ taken.length ∧ v.logged = taken)

variable {prompt kept taken batch : List Token} {held : Nat} {v u : MainContext}

/-- Of the next batch the session holds what the common beginning still covers. -/
theorem Resumed.skipped_eq (h : v.Resumed prompt kept held taken)
    (hp : taken ++ batch <+: prompt) (hpending : v.pending = batch) :
    v.skipped = min (commonLength kept prompt - taken.length) batch.length := by
  obtain ⟨rest, rfl⟩ := hp
  rw [skipped, hpending, h.loggedRead]
  -- Until the prompt leaves the log the batch is compared with what is kept, then with nothing.
  rcases h.logged with ⟨hle, hlogged⟩ | ⟨hle, hlogged⟩
  · have hbatch : batch = ((taken ++ batch ++ rest).drop taken.length).take batch.length := by
      rw [List.append_assoc, List.drop_left, List.take_left]
    have hdrop := commonLength_drop hle
    rw [hlogged]
    generalize taken ++ batch ++ rest = all at hbatch hdrop ⊢
    rw [hbatch, commonLength_take, hdrop, ← hbatch]
  · have hnil : commonLength [] batch = 0 := by cases batch <;> rfl
    rw [hlogged, List.drop_length, hnil]
    omega

/-- If something is left over of the next batch, the log and what is left over are what was taken
and the batch. -/
theorem Resumed.logged_reuse_append (h : v.Resumed prompt kept held taken)
    (hp : taken ++ batch <+: prompt) (hpending : v.pending = batch)
    (hlt : v.skipped < batch.length) : v.reuse.logged ++ v.reuse.pending = taken ++ batch := by
  have hskipped := h.skipped_eq hp hpending
  have hagree : kept.take (commonLength kept prompt) = prompt.take (commonLength kept prompt) :=
    take_commonLength kept prompt
  have hle_kept : commonLength kept prompt ≤ kept.length := commonLength_le_left kept prompt
  rw [logged_reuse, pending_reuse, h.loggedRead, hpending]
  rcases h.logged with ⟨hle, hlogged⟩ | ⟨hle, hlogged⟩
  · generalize commonLength kept prompt = k at *
    have hk : k = taken.length + v.skipped := by omega
    have htake : kept.take k = (taken ++ batch).take k := by
      rw [hagree, List.prefix_iff_eq_take.mp hp, List.take_take, List.length_append,
        Nat.min_eq_left (by omega)]
    have hcut : (if v.skipped < batch.length ∧ k < kept.length then kept.take k else kept) =
        kept.take k := by
      split
      · rfl
      · rw [List.take_of_length_le (by omega)]
    rw [hlogged, ← hk, hcut, htake, hk, List.take_length_add_append, List.append_assoc,
      List.take_append_drop]
  · have hzero : v.skipped = 0 := by omega
    rw [hlogged, hzero, if_neg (by omega)]
    rfl

/-- The cells hold a batch once what they do not hold of it was decoded. -/
theorem cells_of_extends {c d : Cells} {j : Nat} (hp : taken ++ batch <+: prompt)
    (hc : ∀ p, c.get? p =
      if 0 ≤ p ∧ p < (max taken.length held : Nat) then prompt[p.toNat]? else none)
    (hj : j ≤ batch.length) (hheld : j = 0 ∨ taken.length + j ≤ held)
    (hd : c.Extends (taken.length + j) (batch.drop j) d) (p : Int) :
    d.get? p =
      if 0 ≤ p ∧ p < (max (taken ++ batch).length held : Nat) then prompt[p.toNat]? else none := by
  rw [hd p, List.length_drop, List.length_append]
  by_cases hp' : (taken.length : Int) + j ≤ p ∧ p < taken.length + j + (batch.length - j : Nat)
  · have hat : p.toNat < (taken ++ batch).length := by
      rw [List.length_append]
      omega
    have htoken : prompt[p.toNat]? = (taken ++ batch)[p.toNat]? := by
      rw [List.prefix_iff_eq_take.mp hp, List.getElem?_take_of_lt hat]
    have hplace : j + (p - (taken.length + j)).toNat = p.toNat - taken.length := by omega
    rw [if_pos hp', if_pos (by omega), htoken, List.getElem?_append_right (by omega),
      List.getElem?_drop, hplace]
  · rw [if_neg hp', hc]
    exact ite_congr (propext (by omega)) (fun _ => rfl) fun _ => rfl

/-- The log goes on behind a batch. -/
theorem Resumed.logged_fed (h : v.Resumed prompt kept held taken) (hp : taken ++ batch <+: prompt)
    (hpending : v.pending = batch) (hd : Decoded v.reuse v.reuse.pending.length u) :
    u.loggedRead = taken.length + batch.length ∧
      ((taken.length + batch.length ≤ commonLength kept prompt ∧ u.logged = kept) ∨
        (commonLength kept prompt ≤ taken.length + batch.length ∧ u.logged = taken ++ batch)) := by
  have hskipped := h.skipped_eq hp hpending
  have hlength : v.reuse.pending.length = batch.length - v.skipped := by
    rw [pending_reuse, hpending, List.length_drop]
  have hlogged := hd.logged
  have hread := hd.loggedRead
  rw [List.take_length] at hlogged
  by_cases hlt : v.skipped < batch.length
  · have hdecoded : 0 < v.reuse.pending.length ∧ v.reuse.path ≠ none := ⟨by omega, h.path⟩
    rw [if_pos hdecoded, h.logged_reuse_append hp hpending hlt] at hlogged
    rw [if_pos hdecoded, hlogged, List.length_append] at hread
    exact ⟨hread, .inr ⟨by omega, hlogged⟩⟩
  · have hnone : ¬ (0 < v.reuse.pending.length ∧ v.reuse.path ≠ none) := by omega
    rw [if_neg hnone, loggedRead_reuse, h.loggedRead] at hread
    rw [if_neg hnone, logged_reuse, hpending, if_neg (by omega)] at hlogged
    refine ⟨by omega, ?_⟩
    rcases h.logged with ⟨hle, hkept⟩ | ⟨hle, htaken⟩
    · exact .inl ⟨by omega, hlogged.trans hkept⟩
    · have hnil : batch = [] := List.eq_nil_of_length_eq_zero (by omega)
      refine .inr ⟨by omega, ?_⟩
      rw [hlogged, htaken, hnil, List.append_nil]

/-- What is skipped of a batch is held, and the rest is decoded: the batch was taken. -/
theorem Resumed.fed (h : v.Resumed prompt kept held taken) (hp : taken ++ batch <+: prompt)
    (hpending : v.pending = batch) (hheld : commonLength kept prompt ≤ held)
    (hd : Decoded v.reuse v.reuse.pending.length u) :
    u.Resumed prompt kept held (taken ++ batch) := by
  have hskipped := h.skipped_eq hp hpending
  have hrest : v.reuse.pending = batch.drop v.skipped := by rw [pending_reuse, hpending]
  have hpast := hd.past
  have hcells := hd.cells
  rw [past_reuse, h.past, hrest, List.length_drop] at hpast
  rw [List.take_length, past_reuse, h.past, hrest] at hcells
  obtain ⟨hread, hlogged⟩ := h.logged_fed hp hpending hd
  rw [← List.length_append] at hread hlogged
  refine ⟨hd.path ▸ h.path, ?_, hread, cells_of_extends hp h.cells ?_ ?_ hcells, hlogged⟩
  · rw [hpast, List.length_append]
    omega
  · omega
  · omega

/-- What is decoded of a batch is what is left over, at its places. -/
theorem Resumed.placedFrom_reuse (h : v.Resumed prompt kept held taken)
    (hp : taken ++ batch <+: prompt) (hpending : v.pending = batch) :
    placedFrom v.reuse.past v.reuse.pending =
      leftOver (commonLength kept prompt) taken.length batch := by
  have hskipped := h.skipped_eq hp hpending
  rw [past_reuse, pending_reuse, h.past, hpending, leftOver]
  by_cases hle : commonLength kept prompt - taken.length ≤ batch.length
  · have hplace : (taken.length : Int) + v.skipped =
        (max taken.length (commonLength kept prompt) : Nat) := by omega
    rw [hplace, hskipped, Nat.min_eq_left hle]
  · rw [List.drop_of_length_le (by omega), List.drop_of_length_le (by omega)]
    rfl

end MainContext

/-- The cells hold tokens from the first position on, and no others. -/
def Cells.Exactly (c : Cells) (tokens : List Token) : Prop :=
  ∀ p, c.get? p = if 0 ≤ p then tokens[p.toNat]? else none

private theorem Cells.exactly_write_empty (tokens : List Token) :
    (empty.write 0 tokens).Exactly tokens := by
  intro p
  rw [get?_write, get?_empty]
  by_cases hp : 0 ≤ p
  · rw [if_pos hp]
    split
    · rw [Int.sub_zero]
    · rw [List.getElem?_eq_none (by omega)]
  · rw [if_neg hp, if_neg (by omega)]

namespace Session

variable {s₀ s : Session} {prompt kept taken batch : List Token} {held : Nat}

/-- Takes the next batch of a prompt: what the session holds of it is skipped, and the rest is
decoded. -/
def takeBatch (batch : List Token) : SessionM Unit := do
  advance ({ · with pending := batch })
  feedRest

/-- Aligns the session with a prompt, and takes the prompt batch by batch. -/
def warmStart (prompt : List Token) (promptEmpty : Bool) (batches : List (List Token)) :
    SessionM Unit := do
  discard (onBench .engine (Cache.align prompt promptEmpty))
  batches.forM takeBatch

/-- The tokens that were decoded into the main context since an earlier state of the session, each
with its position. -/
def placedSince (s t : Session) : List (Int × Token) :=
  (t.tally.batches.drop s.tally.batches.length).flatMap Batch.placed

/-- Since an earlier state of the session a beginning of a prompt was taken, unless a decode call on
the main context failed. -/
structure Taken (s₀ : Session) (prompt kept : List Token) (held : Nat) (taken : List Token)
    (s : Session) : Prop where
  /-- Calls that failed stay counted. -/
  failed : 0 ≤ s₀.failedDecodesSince s
  /-- The session goes on behind what was taken. -/
  resumed : s₀.failedDecodesSince s = 0 → s.mainContext.Resumed prompt kept held taken
  /-- What was not skipped of it was decoded. -/
  decoded : s₀.failedDecodesSince s = 0 → ∃ bs, s.tally.batches = s₀.tally.batches ++ bs ∧
    bs.flatMap Batch.placed = leftOver (commonLength kept prompt) 0 taken

/-- Which tokens are pending does not matter. -/
theorem Taken.awaits (h : s₀.Taken prompt kept held taken s) (batch : List Token) :
    s₀.Taken prompt kept held taken
      { s with progress := { s.progress with pending := batch } } where
  failed := h.failed
  resumed hzero :=
    let ⟨hpath, hpast, hread, hcells, hlogged⟩ := h.resumed hzero
    ⟨hpath, hpast, hread, hcells, hlogged⟩
  decoded := h.decoded

/-- The pending batch is taken. -/
theorem Taken.ends_feedRest (h : s₀.Taken prompt kept held taken s)
    (hpending : s.progress.pending = batch) (hp : taken ++ batch <+: prompt)
    (hheld : commonLength kept prompt ≤ held) :
    Ends feedRest s fun r t => s₀.Taken prompt kept held (taken ++ batch) t ∧
      (s₀.failedDecodesSince t = 0 → r = .ok ()) := by
  have hle := h.failed
  apply (ends_feedRest_tally s).mono
  rintro r t ⟨done, failed, hd, -, ht, hr⟩
  have hfailed : s₀.failedDecodesSince t = s₀.failedDecodesSince s + failed.toNat := by
    rw [failedDecodesSince, failedDecodesSince, ht, Tally.failed_fed]
    omega
  have hgood (hzero : s₀.failedDecodesSince t = 0) :
      s₀.failedDecodesSince s = 0 ∧ failed = false :=
    ⟨by omega, Bool.toNat_eq_zero.mp (by omega)⟩
  refine ⟨⟨by omega, ?_, ?_⟩, fun hzero => (hr (hgood hzero).2).1⟩
  · intro hzero
    obtain ⟨hbefore, hnone⟩ := hgood hzero
    rw [(hr hnone).2] at hd
    exact (h.resumed hbefore).fed hp hpending hheld hd
  · intro hzero
    obtain ⟨hbefore, hnone⟩ := hgood hzero
    obtain ⟨bs, hbs, hplaced⟩ := h.decoded hbefore
    have hnext := (h.resumed hbefore).placedFrom_reuse hp hpending
    refine ⟨bs ++ Batch.laid s.mainContext.reuse.past done, ?_, ?_⟩
    · rw [ht, ← List.append_assoc, ← hbs]
      rfl
    · rw [List.flatMap_append, hplaced, Batch.flatMap_placed_laid, (hr hnone).2, hnext,
        leftOver_append, Nat.zero_add]

/-- Batch by batch the tokens are taken as if they were one batch. -/
theorem Taken.ends_takeBatches {batches : List (List Token)}
    (h : s₀.Taken prompt kept held taken s) (hp : taken ++ batches.flatten <+: prompt)
    (hheld : commonLength kept prompt ≤ held) :
    Ends (batches.forM takeBatch) s fun r t => s₀.failedDecodesSince t = 0 →
      r = .ok () ∧ s₀.Taken prompt kept held (taken ++ batches.flatten) t := by
  induction batches generalizing s taken with
  | nil =>
    intro _
    rw [List.flatten_nil, List.append_nil]
    exact ⟨rfl, h⟩
  | cons b l ih =>
    rw [List.flatten_cons, ← List.append_assoc] at hp ⊢
    change Ends (takeBatch b >>= fun _ => l.forM takeBatch) s _
    simp only [takeBatch, ends_bind, ends_advance]
    apply ((h.awaits b).ends_feedRest rfl ((List.prefix_append _ _).trans hp) hheld).mono
    rintro r t ⟨ht, hr⟩
    cases r with
    | ok u => exact ih ht hp
    | error e =>
      intro hzero
      cases hr hzero

/-- A session that holds what its session file lists and nothing else, before it takes a prompt. -/
structure Restored (s : Session) : Prop where
  /-- The session file is in use. -/
  active : s.cache.isActive = true
  /-- Nothing is counted as resident. -/
  past : s.progress.past = 0
  /-- Nothing was compared. -/
  loggedRead : s.progress.loggedRead = 0
  /-- The cells hold what is logged. -/
  cells : s.engine.mainCells.Exactly s.progress.logged
  /-- A position is a signed word. -/
  length_lt : s.progress.logged.length < 0x80000000

/-- Of the cells those are left that hold the common beginning. -/
theorem Restored.get?_remove (h : s.Restored) (prompt : List Token) (p : Int) :
    (s.engine.mainCells.remove (commonLength s.progress.logged prompt) none).get? p =
      if 0 ≤ p ∧ p < commonLength s.progress.logged prompt then prompt[p.toNat]? else none := by
  have hlength := h.length_lt
  rw [Cells.get?_remove, h.cells p]
  by_cases hp : 0 ≤ p ∧ p < commonLength s.progress.logged prompt
  · have hrange : Cells.inRange (commonLength s.progress.logged prompt) none p = false := by
      simp [Cells.inRange]
      omega
    have htoken := getElem?_of_lt_commonLength (a := s.progress.logged) (b := prompt)
      (i := p.toNat) (by omega)
    rw [if_pos hp, if_pos hp.1, hrange, htoken]
    rfl
  · rw [if_neg hp]
    split
    · rfl
    · next hrange =>
      simp [Cells.inRange] at hrange
      split
      · exact List.getElem?_eq_none (by omega)
      · rfl

/-- Aligned with a prompt, a session has taken nothing of it. -/
theorem Restored.ends_align (h : s.Restored) (hprompt : prompt ≠ []) (promptEmpty : Bool)
    (hremove : s.engine.faults.remove.headD false = false) :
    Ends (onBench .engine (Cache.align prompt promptEmpty)) s fun r t =>
      (∃ matched, r = .ok matched) ∧
        s.Taken prompt (MainContext.keptOf prompt s.progress.logged)
          (commonLength s.progress.logged prompt) [] t := by
  rw [ends_onBench]
  apply ((Workbench.ends_align promptEmpty s.toWorkbench hprompt).and
    (Ends.keeps (Workbench.keeps_tally_align prompt promptEmpty))).mono
  rintro r t ⟨hr, ht⟩
  cases r with
  | error e =>
    rw [hremove] at hr
    cases hr
  | ok matched =>
    obtain ⟨rfl, hv⟩ := hr
    have htally : ({ s with toWorkbench := t } : Session).tally = s.tally := ht
    have hresumed : t.mainContext.Resumed prompt (MainContext.keptOf prompt s.progress.logged)
        (commonLength s.progress.logged prompt) [] := by
      rw [hv]
      refine ⟨?_, h.past, h.loggedRead, ?_, .inl ⟨Nat.zero_le _, rfl⟩⟩
      · have hactive := h.active
        intro hnone
        simp [Cache.isActive, show s.cache.path = none from hnone] at hactive
      · intro p
        rw [List.length_nil, Nat.zero_max]
        exact h.get?_remove prompt p
    refine ⟨⟨_, rfl⟩, ?_, fun _ => hresumed, fun _ => ⟨[], ?_, ?_⟩⟩
    · rw [failedDecodesSince, htally]
      omega
    · rw [htally, List.append_nil]
    · simp [leftOver, placedFrom]

/-- A session that holds the tokens of its file, aligned with a prompt and fed the prompt in
batches, comes to hold the prompt and nothing else, in the cells and in the log, however the prompt
is cut, unless the removal or a decode call on the main context fails. What is decoded is what is
left of the prompt behind the common beginning, each token at its place, and the last token of the
prompt if the session goes on behind it. -/
theorem warm_start_eq_cold_start {promptEmpty : Bool} {batches : List (List Token)}
    (h : s.Restored) (hprompt : prompt ≠ []) (hbatches : batches.flatten = prompt)
    (hremove : s.engine.faults.remove.headD false = false)
    (hdecoded : s.failedDecodesSince (left (warmStart prompt promptEmpty batches s)) = 0) :
    ∃ t, warmStart prompt promptEmpty batches s = .ok () t ∧
      t.engine.mainCells.Exactly prompt ∧
      t.progress.past = prompt.length ∧ t.progress.loggedRead = prompt.length ∧
      t.progress.logged = prompt ∧
      s.placedSince t = placedFrom (warmLength s.progress.logged prompt)
        (prompt.drop (warmLength s.progress.logged prompt)) := by
  have hwarm := commonLength_keptOf s.progress.logged prompt
  have hheld : commonLength (MainContext.keptOf prompt s.progress.logged) prompt ≤
      commonLength s.progress.logged prompt := by
    rw [hwarm]
    exact warmLength_le s.progress.logged prompt
  have hends : Ends (warmStart prompt promptEmpty batches) s fun r t =>
      s.failedDecodesSince t = 0 → r = .ok () ∧
        s.Taken prompt (MainContext.keptOf prompt s.progress.logged)
          (commonLength s.progress.logged prompt) prompt t := by
    rw [warmStart, ends_bind, ends_discard]
    apply (h.ends_align hprompt promptEmpty hremove).mono
    rintro _ t ⟨⟨matched, rfl⟩, ht⟩
    have hall : [] ++ batches.flatten <+: prompt := by simp [hbatches]
    have htaken := ht.ends_takeBatches hall hheld
    rwa [List.nil_append, hbatches] at htaken
  obtain ⟨r, hr, hok, -⟩ := hends.exists_left
  obtain ⟨hr, htaken⟩ := hr hdecoded
  obtain ⟨t, ht⟩ := (hok ()).mp hr
  rw [ht] at htaken hdecoded
  obtain ⟨-, hpast, hread, hcells, hlogged⟩ := htaken.resumed hdecoded
  obtain ⟨bs, hbs, hplaced⟩ := htaken.decoded hdecoded
  have hle := commonLength_le_right s.progress.logged prompt
  refine ⟨t, ht, ?_, hpast, hread, ?_, ?_⟩
  · intro p
    apply (hcells p).trans
    by_cases hp : p < prompt.length
    · exact ite_congr (propext (by omega)) (fun _ => rfl) fun _ => rfl
    · rw [if_neg (by omega), List.getElem?_eq_none (by omega), ite_self]
  · rcases hlogged with ⟨hall, hlogged⟩ | ⟨-, hlogged⟩
    · exact hlogged.trans (keptOf_eq_of_le hall)
    · exact hlogged
  · change t.tally.batches = _ at hbs
    rw [placedSince, hbs, List.drop_left, hplaced, hwarm, leftOver, Nat.zero_max, Nat.sub_zero]

/-- Of a prompt that parts from the session file only the rest is decoded, and the cells hold it
all. -/
theorem warm_start_eq_cold_start_of_diverging_prompt :
    ∃ s w, Session.start 0 { prompt := "abcd", cachePath := some "s.bin", batchSize := 2 } {}
        (Directory.ofSession (Token.ofText "abcd")) = .ok s w ∧
      s.Restored ∧ s.progress.logged = Token.ofText "abcd" ∧
      ∃ t, warmStart (Token.ofText "abxyz") false
          [Token.ofText "a", Token.ofText "bxy", Token.ofText "z"] s = .ok () t ∧
        t.engine.mainCells.Exactly (Token.ofText "abxyz") ∧
        t.progress.past = 5 ∧ t.progress.loggedRead = 5 ∧
        t.progress.logged = Token.ofText "abxyz" ∧
        s.placedSince t = placedFrom 2 (Token.ofText "xyz") := by
  obtain ⟨s, w, h, htest⟩ := exists_of_gives
    (fun s : Session => decide (s.cache.isActive = true ∧ s.progress.past = 0 ∧
      s.progress.loggedRead = 0 ∧ s.progress.logged = Token.ofText "abcd" ∧
      s.engine.mainCells = Cells.empty.write 0 (Token.ofText "abcd") ∧
      s.engine.faults.remove.headD false = false ∧
      s.failedDecodesSince (left (warmStart (Token.ofText "abxyz") false
        [Token.ofText "a", Token.ofText "bxy", Token.ofText "z"] s)) = 0))
    (r := Session.start 0 { prompt := "abcd", cachePath := some "s.bin", batchSize := 2 } {}
      (Directory.ofSession (Token.ofText "abcd"))) (by decide +kernel)
  obtain ⟨hactive, hpast, hread, hlogged, hcells, hremove, hdecoded⟩ := of_decide_eq_true htest
  have hrestored : s.Restored := by
    refine ⟨hactive, hpast, hread, ?_, ?_⟩
    · rw [hcells, hlogged]
      exact Cells.exactly_write_empty _
    · rw [hlogged]
      decide
  have hwarm := warm_start_eq_cold_start hrestored (by decide) (by decide) hremove hdecoded
  rw [hlogged] at hwarm
  exact ⟨s, w, h, hrestored, hlogged, hwarm⟩

end Session

end Dialogue
