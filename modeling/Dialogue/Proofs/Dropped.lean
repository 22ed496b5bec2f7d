import Dialogue.Proofs.Pinned
/-!
# What was dropped of a session file

When a session begins it drops the cells behind the place where the prompt and the session file
differ, but not the tokens that are logged there. As long as no cell is moved the first of these
tokens tells about all: the log agrees with the cells unless it still lists that token. Queries may
pass over that place, and steps may skip it; the cell stays empty.
-/

namespace Dialogue

open Effect

variable {s₀ : Session} {once : Prop} {v u : MainContext}

namespace MainContext

/-- The log lists a token at the place where the prompt and the session file of a session differ,
and the cell of that place is empty. -/
def Drops (s₀ : Session) (v : MainContext) : Prop :=
  s₀.matched < v.logged.length ∧ v.cells.get? (s₀.matched : Nat) = none

/-- The log agrees with the cells, or still lists what a session dropped when it began. -/
structure Divided (s₀ : Session) (v : MainContext) : Prop where
  /-- The counters agree. -/
  counted : ∀ bound, v.Counted bound
  /-- What is logged comes of the session file, or is resident. -/
  length_le : v.logged.length ≤ s₀.progress.logged.length ∨ (v.logged.length : Int) ≤ v.past
  /-- The log agrees with the cells up to that place at least. -/
  log : v.Holds ∨ (v.HoldsTo s₀.matched ∧ v.Drops s₀)

/-- A divided log is held by the cells unless it lists what was dropped. -/
theorem Divided.holds_iff (h : v.Divided s₀) : v.Holds ↔ ¬ v.Drops s₀ := by
  constructor
  · rintro hh ⟨hlt, hnone⟩
    have hget := hh _ hlt
    rw [hnone, List.getElem?_eq_getElem hlt] at hget
    cases hget
  · intro hd
    exact h.log.resolve_right fun hdrops => hd hdrops.2

private theorem Divided.trusted (h : v.Divided s₀) : v.Trusted s₀.matched := by
  refine ⟨h.counted _, ?_⟩
  rcases h.log with hh | ⟨hto, -⟩
  · exact fun i hi _ => hh i hi
  · exact hto

private theorem Divided.of_eq (h : v.Divided s₀) (hcells : u.cells = v.cells)
    (hlogged : u.logged = v.logged) (hread : u.loggedRead = v.loggedRead) (hpast : u.past = v.past)
    (hpath : u.path = none ∨ u.path = v.path) : u.Divided s₀ := by
  refine ⟨fun bound => (h.counted bound).of_eq hlogged hread hpast hpath, ?_, ?_⟩
  · rw [hlogged, hpast]
    exact h.length_le
  · have hlog := h.log
    unfold Holds HoldsTo Drops at hlog ⊢
    rwa [hcells, hlogged]

private theorem Divided.alike (h : v.Divided s₀) (ha : v.Alike u) : u.Divided s₀ := by
  obtain ⟨_, _, _, _, _, _, rfl, hp⟩ := ha
  exact h.of_eq rfl rfl rfl rfl hp

private theorem Divided.cut (h : v.Divided s₀) (m : Nat) : (v.cut m).Divided s₀ :=
  h.of_eq rfl rfl rfl rfl (.inr rfl)

/-- A log that ends before that place agrees with the cells. -/
theorem Trusted.holds_of_length_le {bound : Int} (h : v.Trusted bound)
    (hle : v.logged.length ≤ bound) : v.Holds := by
  intro i hi
  exact h.holds i hi (by omega)

/-- Skipping cuts what was dropped off the log, or goes on comparing with it. -/
theorem Divided.reuse (h : v.Divided s₀) : v.reuse.Divided s₀ := by
  refine ⟨fun bound => (h.counted bound).reuse, ?_, ?_⟩
  · have hle := v.length_logged_reuse_le
    have hlength := h.length_le
    rw [past_reuse]
    omega
  · by_cases hle : v.reuse.logged.length ≤ s₀.matched
    · exact .inl (h.trusted.reuse.holds_of_length_le (Int.ofNat_le.mpr hle))
    · rcases h.log with hh | ⟨-, -, hnone⟩
      · exact .inl (holds_of_trusted fun bound => (trusted_of_holds h.counted hh bound).reuse)
      · exact .inr ⟨h.trusted.reuse.holds, Nat.not_le.mp hle, hnone⟩

/-- What is decoded fills no cell that was dropped while its token is logged. -/
theorem Divided.decoded (h : v.Divided s₀) {m : Nat} (hd : Decoded v m u)
    (hall : m = 0 ∨ v.loggedRead = v.logged.length) : u.Divided s₀ := by
  have hlogged := hd.logged
  have hpast := hd.past
  have hlength : u.logged.length = v.logged.length ∨
      (u.logged.length : Int) = u.past ∧ v.logged.length ≤ u.logged.length := by
    by_cases hm : 0 < m ∧ v.path ≠ none
    · have heq := (h.counted 0).past_eq (.inl hm.2)
      rw [if_pos hm] at hlogged
      rw [hlogged, List.length_append, List.length_take_of_le hd.le]
      right
      constructor <;> omega
    · rw [if_neg hm] at hlogged
      exact .inl (congrArg List.length hlogged)
  refine ⟨fun bound => (h.counted bound).decoded hd hall, ?_, ?_⟩
  · have hle := h.length_le
    omega
  · rcases h.log with hh | ⟨-, hlt, hnone⟩
    · left
      apply holds_of_trusted
      exact fun bound => (trusted_of_holds h.counted hh bound).decoded hd hall
    · refine .inr ⟨(h.trusted.decoded hd hall).holds, by omega, ?_⟩
      have hbehind := (h.counted (v.past + 1)).le_past (Int.lt_succ v.past)
      rw [hd.cells, if_neg, hnone]
      rw [List.length_take_of_le hd.le]
      omega

end MainContext

/-! ### As long as no cell is moved -/

variable {w : Window} {offset : Int} {n : Nat} {r : Except SessionError (Option StopReason)}

private theorem Arrived.divided (h : Arrived w offset v r u) (hm : u.moves ≤ v.moves)
    (hv : v.Divided s₀) : u.Divided s₀ := by
  cases h with
  | stopped h => exact (hv.cut _).alike (Swaps.alike h hm)
  | ready h _ _ =>
    have hu := (hv.cut _).alike (Swaps.alike h hm)
    exact hu.cut _

private theorem Evaluated.divided (h : Evaluated w offset n v r u) (hm : u.moves ≤ v.moves)
    (hv : v.Divided s₀) : u.Divided s₀ := by
  cases h with
  | idle => exact hv
  | stopped h => exact h.divided hm hv
  | @fed _ u _ h hf =>
    have hmoves : u.reuse.moves = u.moves := rfl
    rw [hf.moves_eq, hmoves] at hm
    have hu := h.divided hm hv
    obtain ⟨_, hd, hall⟩ := MainContext.decoded_of_reuse (hu.counted 0).le_logged hf
    exact hu.reuse.decoded hd hall

private theorem Stepped.divided (h : Stepped n v u) (hv : v.Divided s₀) : u.Divided s₀ := by
  obtain ⟨_, _, _, _, hs, -, rfl⟩ := h.exists_saved
  exact ((hv.cut 0).alike hs.alike).of_eq rfl rfl rfl rfl (.inr rfl)

/-- A pass without a move leaves the log divided at most where it was. -/
theorem Passed.divided (h : Passed w offset n v u) (hm : u.moves ≤ v.moves)
    (hv : v.Divided s₀) : u.Divided s₀ := by
  cases h with
  | ended h => exact h.divided hm hv
  | stepped h hs =>
    rw [hs.moves_eq] at hm
    exact hs.divided (h.divided hm hv)

/-- A query leaves a log divided. -/
theorem Queried.divided {passes : Prop} (h : Queried passes v u) (hv : v.Divided s₀) :
    u.Divided s₀ := by
  cases h with
  | queued => exact hv.of_eq rfl rfl rfl rfl (.inr rfl)
  | passedOver => exact hv.of_eq rfl rfl rfl rfl (.inr rfl)

/-- What can be compared is divided where the prompt and the session file differ. -/
theorem MainContext.Compares.divided (h : v.Compares s₀ once)
    (hle : v.logged.length ≤ s₀.progress.logged.length) : v.Divided s₀ := by
  refine ⟨h.counted, .inl hle, ?_⟩
  rcases h.log with hf | ⟨hh, -⟩
  · refine .inr ⟨(h.trusted_of_forked hf).holds, ?_, hf.gone⟩
    rw [hf.logged]
    exact hf.lt_logged
  · exact .inl hh

end Dialogue
