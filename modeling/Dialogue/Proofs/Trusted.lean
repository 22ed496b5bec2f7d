import Dialogue.Proofs.Decoded
/-!
# How far the log can be trusted

What is compared with the stream is the log, never the cells. Up to a bound the log can be trusted:
the cells hold what is logged, and the next token to compare is logged at the position where it
would be decoded. What is skipped below the bound is then resident.
-/

namespace Dialogue

open Effect

/-- Below the length of what they have in common two lists agree. -/
theorem getElem?_of_lt_commonLength {a b : List Token} {i : Nat} (h : i < commonLength a b) :
    a[i]? = b[i]? := by
  have ha : (a.take (commonLength a b))[i]? = a[i]? := List.getElem?_take_of_lt h
  have hb : (b.take (commonLength a b))[i]? = b[i]? := List.getElem?_take_of_lt h
  rw [← ha, ← hb, take_commonLength]

/-- The common beginning ends where the lists differ. -/
theorem commonLength_le_of_ne {a b : List Token} {i : Nat} (h : a[i]? ≠ b[i]?) :
    commonLength a b ≤ i := by
  rw [← Nat.not_lt]
  intro hi
  exact h (getElem?_of_lt_commonLength hi)

/-- After the common beginning the lists differ, or one of them ends. -/
theorem getElem?_commonLength_ne {a b : List Token} (ha : commonLength a b < a.length)
    (hb : commonLength a b < b.length) : a[commonLength a b]? ≠ b[commonLength a b]? := by
  induction a generalizing b with
  | nil => cases ha
  | cons x a ih =>
    cases b with
    | nil => cases hb
    | cons y b =>
      simp only [commonLength] at ha hb ⊢
      split
      · next hxy =>
        rw [if_pos hxy] at ha hb
        simp only [List.length_cons, Nat.add_lt_add_iff_right] at ha hb
        exact ih ha hb
      · next hxy => simpa using hxy

namespace MainContext

/-- How much of the log was compared is what is resident, as long as the session file is in use, or
something is left to compare below a bound. -/
structure Counted (bound : Int) (v : MainContext) : Prop where
  /-- No more was compared than is logged. -/
  le_logged : v.loggedRead ≤ v.logged.length
  /-- No more was compared than is resident. -/
  le_past : v.past < bound → v.loggedRead ≤ v.past
  /-- No less was compared than is resident. -/
  past_eq : v.path ≠ none ∨ (v.loggedRead < v.logged.length ∧ v.past < bound) →
    v.past = v.loggedRead

/-- The cells hold what is logged below a bound. -/
def HoldsTo (bound : Int) (v : MainContext) : Prop :=
  ∀ i, i < v.logged.length → (i : Int) < bound → v.cells.get? (i : Nat) = v.logged[i]?

/-- The log can be trusted up to a bound. -/
structure Trusted (bound : Int) (v : MainContext) : Prop extends v.Counted bound where
  /-- The cells hold what is logged. -/
  holds : v.HoldsTo bound

variable {bound : Int} {v u : MainContext}

/-- Only the cells, the log and the counters matter, and whether the session file is in use. -/
theorem Counted.of_eq (h : v.Counted bound) (hlogged : u.logged = v.logged)
    (hread : u.loggedRead = v.loggedRead) (hpast : u.past = v.past)
    (hpath : u.path = none ∨ u.path = v.path) : u.Counted bound := by
  constructor
  · rw [hread, hlogged]
    exact h.le_logged
  · rw [hread, hpast]
    exact h.le_past
  · rw [hread, hlogged, hpast]
    intro hc
    apply h.past_eq
    refine hc.imp_left fun hp hv => hp ?_
    rcases hpath with hpath | hpath
    · exact hpath
    · rw [hpath, hv]

/-- Only the cells, the log and the counters matter, and whether the session file is in use. -/
theorem Trusted.of_eq (h : v.Trusted bound) (hcells : u.cells = v.cells)
    (hlogged : u.logged = v.logged) (hread : u.loggedRead = v.loggedRead) (hpast : u.past = v.past)
    (hpath : u.path = none ∨ u.path = v.path) : u.Trusted bound := by
  refine ⟨h.toCounted.of_eq hlogged hread hpast hpath, ?_⟩
  intro i hi
  rw [hlogged] at hi ⊢
  rw [hcells]
  exact h.holds i hi

/-- A log that can be trusted up to a bound can be up to a lower one. -/
theorem Trusted.mono {bound' : Int} (h : v.Trusted bound) (hb : bound' ≤ bound) :
    v.Trusted bound' where
  le_logged := h.le_logged
  le_past hp := h.le_past (by omega)
  past_eq hc := h.past_eq (hc.imp_right fun ⟨hlt, hp⟩ => ⟨hlt, by omega⟩)
  holds i hi hp := h.holds i hi (by omega)

/-! ### What skipping finds -/

/-- How many of the pending tokens are skipped. -/
def skipped (v : MainContext) : Nat := commonLength (v.logged.drop v.loggedRead) v.pending

/-- No more is skipped than is pending. -/
theorem skipped_le_pending (v : MainContext) : v.skipped ≤ v.pending.length :=
  commonLength_le_right _ _

/-- No more is skipped than was not compared yet. -/
theorem skipped_le_logged (v : MainContext) : v.skipped ≤ v.logged.length - v.loggedRead := by
  have h := commonLength_le_left (v.logged.drop v.loggedRead) v.pending
  rwa [List.length_drop] at h

/-- What is skipped where the log can be trusted is held by the cells where it is counted. -/
theorem Trusted.held_of_skipped (h : v.Trusted bound) {i : Nat} (hi : i < v.skipped)
    (hbound : v.past + i < bound) : v.cells.get? (v.past + i) = v.pending[i]? := by
  have hlogged := v.skipped_le_logged
  have htoken : v.logged[v.loggedRead + i]? = v.pending[i]? := by
    rw [← List.getElem?_drop]
    exact getElem?_of_lt_commonLength hi
  have hpast : v.past = v.loggedRead := by
    apply h.past_eq
    right
    constructor <;> omega
  have hat : v.past + i = (v.loggedRead + i : Nat) := by omega
  rw [hat, ← htoken]
  apply h.holds <;> omega

/-! ### A step that is skipped -/

/-- The log is cut where a step differs from it. -/
theorem logged_reuse (v : MainContext) :
    v.reuse.logged =
      if v.skipped < v.pending.length ∧ v.loggedRead + v.skipped < v.logged.length then
        v.logged.take (v.loggedRead + v.skipped)
      else v.logged := by
  have hdiffers : (decide (v.skipped < v.pending.length) &&
      decide (v.loggedRead + v.skipped < v.logged.length)) = true ↔
      v.skipped < v.pending.length ∧ v.loggedRead + v.skipped < v.logged.length := by
    simp only [Bool.and_eq_true, decide_eq_true_eq]
  by_cases hk : v.skipped < v.pending.length ∧ v.loggedRead + v.skipped < v.logged.length
  · rw [if_pos hk]
    exact if_pos (hdiffers.mpr hk)
  · rw [if_neg hk]
    exact if_neg (mt hdiffers.mp hk)

/-- Skipping makes the log no longer. -/
theorem length_logged_reuse_le (v : MainContext) : v.reuse.logged.length ≤ v.logged.length := by
  rw [logged_reuse]
  split
  · exact List.length_take_le' _ _
  · exact Nat.le_refl _

/-- What is skipped counts as compared. -/
theorem loggedRead_reuse (v : MainContext) : v.reuse.loggedRead = v.loggedRead + v.skipped := rfl

/-- What is skipped counts as resident. -/
theorem past_reuse (v : MainContext) : v.reuse.past = v.past + v.skipped := rfl

/-- What is skipped is no longer pending. -/
theorem pending_reuse (v : MainContext) : v.reuse.pending = v.pending.drop v.skipped := rfl

/-- Nothing is left of a step, or nothing is left to compare with it. -/
theorem pending_reuse_eq_nil_or (v : MainContext) (h : v.loggedRead ≤ v.logged.length) :
    v.reuse.pending = [] ∨ v.reuse.loggedRead = v.reuse.logged.length := by
  have hskipped := v.skipped_le_logged
  rw [logged_reuse, loggedRead_reuse]
  by_cases hlt : v.skipped < v.pending.length
  · right
    split
    · rw [List.length_take_of_le (by omega)]
    · omega
  · left
    exact List.drop_of_length_le (Nat.not_lt.mp hlt)

/-- The counters agree after skipping. -/
theorem Counted.reuse (h : v.Counted bound) : v.reuse.Counted bound := by
  have hskipped := v.skipped_le_logged
  have hle := h.le_logged
  constructor
  · rw [logged_reuse, loggedRead_reuse]
    split
    · exact Nat.le_of_eq (List.length_take_of_le (by omega)).symm
    · omega
  · rw [past_reuse, loggedRead_reuse]
    intro hb
    have hpast := h.le_past (by omega)
    omega
  · intro hc
    have heq : v.past = v.loggedRead := by
      apply h.past_eq
      refine hc.imp_right fun ⟨hlt, hb⟩ => ?_
      rw [past_reuse] at hb
      rw [logged_reuse, loggedRead_reuse] at hlt
      split at hlt
      · rw [List.length_take_of_le (by omega)] at hlt
        omega
      · constructor <;> omega
    rw [past_reuse, loggedRead_reuse]
    omega

/-- Skipping leaves the log to be trusted as far as it was. -/
theorem Trusted.reuse (h : v.Trusted bound) : v.reuse.Trusted bound := by
  refine ⟨h.toCounted.reuse, ?_⟩
  intro i hi hb
  change v.cells.get? i = _
  rw [logged_reuse] at hi ⊢
  split at hi
  · next hk =>
    rw [List.length_take_of_le (Nat.le_of_lt hk.2)] at hi
    rw [if_pos hk, List.getElem?_take_of_lt hi]
    exact h.holds i (by omega) hb
  · next hk =>
    rw [if_neg hk]
    exact h.holds i hi hb

/-! ### A step that is decoded -/

/-- The counters agree again once a step was decoded, if all that was logged had been compared. -/
theorem Counted.decoded (h : v.Counted bound) {m : Nat} (hd : Decoded v m u)
    (hall : m = 0 ∨ v.loggedRead = v.logged.length) : u.Counted bound := by
  have hle := h.le_logged
  have hlogged := hd.logged
  have hread := hd.loggedRead
  have hpast := hd.past
  by_cases hm : 0 < m ∧ v.path ≠ none
  · rw [if_pos hm] at hlogged hread
    have heq := h.past_eq (.inl hm.2)
    have hlength : u.logged.length = v.logged.length + m := by
      rw [hlogged, List.length_append, List.length_take_of_le hd.le]
    constructor <;> omega
  · rw [if_neg hm] at hlogged hread
    constructor
    · rwa [hread, hlogged]
    · intro hb
      have hle_past := h.le_past (by omega)
      omega
    · rw [hread, hlogged, hd.path]
      intro hc
      have heq := h.past_eq (hc.imp_right fun ⟨hlt, hb⟩ => ⟨hlt, by omega⟩)
      have hzero : m = 0 := by
        rcases hall with hzero | hall
        · exact hzero
        · have hp : v.path ≠ none := hc.resolve_right fun hlt => by omega
          exact Nat.eq_zero_of_not_pos fun hpos => hm ⟨hpos, hp⟩
      omega

/-- What is decoded is logged where it is resident, and replaces nothing that is logged. -/
theorem Trusted.decoded (h : v.Trusted bound) {m : Nat} (hd : Decoded v m u)
    (hall : m = 0 ∨ v.loggedRead = v.logged.length) : u.Trusted bound := by
  refine ⟨h.toCounted.decoded hd hall, ?_⟩
  have hlogged := hd.logged
  have htake : (v.pending.take m).length = m := List.length_take_of_le hd.le
  intro i hi hb
  rw [hd.cells i, htake]
  by_cases hm : 0 < m ∧ v.path ≠ none
  · rw [if_pos hm] at hlogged
    have heq := h.past_eq (.inl hm.2)
    have hlength : u.logged.length = v.logged.length + m := by
      rw [hlogged, List.length_append, htake]
    rw [hlogged]
    by_cases hlt : i < v.logged.length
    · rw [if_neg (by omega), h.holds i hlt hb, List.getElem?_append_left hlt]
    · have hsub : ((i : Int) - v.past).toNat = i - v.logged.length := by omega
      rw [if_pos (by omega), hsub, List.getElem?_append_right (by omega)]
  · rw [if_neg hm] at hlogged
    rw [hlogged] at hi ⊢
    have hle := h.le_past
    rw [if_neg (by omega)]
    exact h.holds i hi hb

/-- What is decoded of a step that was skipped, if anything, is decoded once all of the log was
compared. -/
theorem decoded_of_reuse {n : Nat} (h : v.loggedRead ≤ v.logged.length)
    (hf : FedStep n v.reuse u) :
    ∃ m, Decoded v.reuse m u ∧ (m = 0 ∨ v.reuse.loggedRead = v.reuse.logged.length) := by
  obtain ⟨m, hd⟩ := hf.decoded
  refine ⟨m, hd, (v.pending_reuse_eq_nil_or h).imp_left fun hnil => ?_⟩
  have hle := hd.le
  rw [hnil] at hle
  exact Nat.le_zero.mp hle

/-- A step that is skipped and fed leaves the log to be trusted as far as it was. -/
theorem Trusted.fed {n : Nat} (h : v.Trusted bound) (hf : FedStep n v.reuse u) :
    u.Trusted bound := by
  obtain ⟨m, hd, hall⟩ := decoded_of_reuse h.le_logged hf
  exact h.reuse.decoded hd hall

/-! ### A dialogue that begins anew -/

/-- The counters agree when a dialogue begins anew. -/
theorem counted_restarted (v : MainContext) : v.restarted.Counted bound :=
  ⟨Nat.zero_le _, fun _ => Int.le_refl 0, fun _ => rfl⟩

/-- A dialogue that begins anew leaves the log to be trusted as far as it was. -/
theorem Trusted.restarted (h : v.Trusted bound) : v.restarted.Trusted bound :=
  ⟨v.counted_restarted, h.holds⟩

end MainContext

end Dialogue
