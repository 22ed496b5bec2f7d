import Dialogue.Proofs.CellTokens
import Dialogue.Proofs.Evaluating
/-!
# What a step leaves behind

Of a step that is fed some tokens are decoded, all of them unless a batch fails. They are resident
behind those that were resident before, and logged if there is a session file; everything else
stays as it was.
-/

namespace Dialogue

open Effect

/-- Whether a call moves cells of the main context. -/
def Call.movesMain : Call → Bool
  | .shiftCells .main .. => true
  | _ => false

/-- How many calls moved cells of the main context, or tried to. -/
def MainContext.moves (v : MainContext) : Nat := v.calls.countP Call.movesMain

/-- The cells with tokens at the positions from one on, and the ones around them. -/
def Cells.Extends (c : Cells) (p : Int) (tokens : List Token) (d : Cells) : Prop :=
  ∀ q, d.get? q =
    if p ≤ q ∧ q < p + tokens.length then tokens[(q - p).toNat]? else c.get? q

/-- No tokens extend the cells to themselves. -/
theorem Cells.Extends.refl (c : Cells) (p : Int) : c.Extends p [] c := by
  intro q
  rw [if_neg]
  rw [List.length_nil]
  omega

/-- Writing tokens extends the cells by them. -/
theorem Cells.extends_write (c : Cells) (p : Int) (tokens : List Token) :
    c.Extends p tokens (c.write p tokens) := fun q => c.get?_write p tokens q

/-- Cells that are extended twice are extended by both lists of tokens. -/
theorem Cells.Extends.append {c d e : Cells} {p : Int} {a b : List Token} (h : c.Extends p a d)
    (h' : d.Extends (p + a.length) b e) : c.Extends p (a ++ b) e := by
  intro q
  rw [h' q, h q, List.length_append]
  by_cases ha : p ≤ q ∧ q < p + a.length
  · rw [if_neg (by omega), if_pos ha, if_pos (by omega), List.getElem?_append_left (by omega)]
  · rw [if_neg ha]
    by_cases hb : p + a.length ≤ q ∧ q < p + a.length + b.length
    · have hsub : (q - (p + a.length)).toNat = (q - p).toNat - a.length := by omega
      rw [if_pos hb, if_pos (by omega), hsub, List.getElem?_append_right (by omega)]
    · rw [if_neg hb, if_neg (by omega)]

/-- What decoding batches amounts to: the tokens that were decoded are the first of them, and a
failure tells how many. -/
theorem Fed.decoded {l : List (List Token)} {p : Int} {n : Nat} {v u : MainContext}
    {r : Except DecodeError Int} (h : Fed l p n v r u) :
    ∃ tokens, tokens <+: l.flatten ∧ v.cells.Extends p tokens u.cells ∧ u.moves = v.moves ∧
      (Fed.counted r u).past = p + tokens.length ∧
      u = { v with cells := u.cells, calls := u.calls, decodeFaults := u.decodeFaults } ∧
      match r with
      | .ok _ => tokens = l.flatten
      | .error e => e.evaluated = n + tokens.length := by
  induction h with
  | done =>
    refine ⟨[], List.nil_prefix, Cells.Extends.refl _ _, rfl, ?_, rfl, rfl⟩
    exact (Int.add_zero _).symm
  | failed =>
    refine ⟨[], List.nil_prefix, Cells.Extends.refl _ _, ?_, ?_, rfl, rfl⟩
    · rw [MainContext.moves, List.countP_append]
      rfl
    · exact (Int.add_zero _).symm
  | @next b l p n v u r _ hl ih =>
    obtain ⟨tokens, hprefix, hcells, hmoves, hpast, hu, hr⟩ := ih
    refine ⟨b ++ tokens, ?_, (Cells.extends_write _ p b).append hcells, ?_, ?_, hu, ?_⟩
    · rw [List.flatten_cons]
      exact List.prefix_append_right_inj b |>.mpr hprefix
    · rw [hmoves, MainContext.moves, List.countP_append]
      rfl
    · rw [hpast, List.length_append]
      omega
    · cases r with
      | ok _ => rw [hr, List.flatten_cons]
      | error e =>
        dsimp only at hr ⊢
        rw [hr, List.length_append, Nat.add_assoc]

/-- What is resident and logged once the first `m` pending tokens were decoded. -/
structure Decoded (v : MainContext) (m : Nat) (u : MainContext) : Prop where
  /-- So many tokens were pending. -/
  le : m ≤ v.pending.length
  /-- The counter stands behind them. -/
  past : u.past = v.past + m
  /-- The cells hold them. -/
  cells : v.cells.Extends v.past (v.pending.take m) u.cells
  /-- They are logged if there is a session file. -/
  logged : u.logged = if 0 < m ∧ v.path ≠ none then v.logged ++ v.pending.take m else v.logged
  /-- All that is logged then is resident. -/
  loggedRead : u.loggedRead = if 0 < m ∧ v.path ≠ none then u.logged.length else v.loggedRead
  /-- The pending tokens stay unless the step is given up. -/
  pending : u.pending = v.pending ∨ u.pending = []
  /-- The queue stays. -/
  queue : u.queue = v.queue
  /-- What was taken of the queue stays. -/
  queueRead : u.queueRead = v.queueRead
  /-- The session file stays in use. -/
  path : u.path = v.path
  /-- The files stay. -/
  directory : u.directory = v.directory
  /-- No cell is moved. -/
  moves : u.moves = v.moves
  /-- The removals to come stay. -/
  removeFaults : u.removeFaults = v.removeFaults
  /-- The moves to come stay. -/
  shiftFaults : u.shiftFaults = v.shiftFaults

/-- The cells stay if nothing is decoded. -/
theorem Decoded.get?_cells {v u : MainContext} (h : Decoded v 0 u) (q : Int) :
    u.cells.get? q = v.cells.get? q := by
  rw [h.cells q, if_neg]
  rw [List.take_zero, List.length_nil]
  omega

/-- What was decoded stays so when the rest of the step is cut off. -/
theorem Decoded.cut {v u : MainContext} {m : Nat} (h : Decoded v m u) : Decoded v m (u.cut 0) :=
  { h with pending := .inr rfl }

/-- What a feed decoded is logged, also if it failed on the way. -/
theorem Fed.decoded_log {n m : Nat} {v u : MainContext} {r : Except DecodeError Int}
    (h : Fed (pieces n v.pending) v.past 0 v r u)
    (hm : match r with | .ok _ => m = v.pending.length | .error e => m = e.evaluated) :
    Decoded v m ((Fed.counted r u).log m) := by
  obtain ⟨tokens, hprefix, hcells, hmoves, hpast, hu, hr⟩ := h.decoded
  rw [flatten_pieces] at hprefix hr
  have hlen : m = tokens.length := by
    cases r with
    | ok p =>
      dsimp only at hm hr
      rw [hm, hr]
    | error e =>
      dsimp only at hm hr
      rw [hm, hr, Nat.zero_add]
  have htake : v.pending.take m = tokens := by
    rw [hlen]
    exact (List.prefix_iff_eq_take.mp hprefix).symm
  have hle : m ≤ v.pending.length := by
    rw [hlen]
    exact hprefix.length_le
  rw [← htake] at hcells
  rw [← hlen] at hpast
  obtain ⟨c, calls, faults, rfl⟩ :
      ∃ c calls faults, u = { v with cells := c, calls, decodeFaults := faults } := ⟨_, _, _, hu⟩
  have hcounted : Fed.counted r { v with cells := c, calls, decodeFaults := faults } =
      { v with past := v.past + m, cells := c, calls, decodeFaults := faults } := by
    rw [← hpast]
    cases r <;> rfl
  rw [hcounted, MainContext.log]
  have hactive : (decide (0 < m) && v.path.isSome) = true ↔ 0 < m ∧ v.path ≠ none := by
    simp [Option.isSome_iff_ne_none]
  by_cases hlog : 0 < m ∧ v.path ≠ none
  · rw [if_pos (hactive.mpr hlog)]
    exact ⟨hle, rfl, hcells, (if_pos hlog).symm, (if_pos hlog).symm, .inl rfl, rfl, rfl, rfl, rfl,
      hmoves, rfl, rfl⟩
  · rw [if_neg (mt hactive.mp hlog)]
    exact ⟨hle, rfl, hcells, (if_neg hlog).symm, (if_neg hlog).symm, .inl rfl, rfl, rfl, rfl, rfl,
      hmoves, rfl, rfl⟩

/-- What feeding a step amounts to. -/
theorem FedStep.decoded {n : Nat} {v u : MainContext} (h : FedStep n v u) :
    ∃ m, Decoded v m u := by
  cases h with
  | whole h => exact ⟨_, h.decoded_log rfl⟩
  | partly h => exact ⟨_, h.decoded_log rfl⟩
  | givenUp h => exact ⟨_, (h.decoded_log rfl).cut⟩

end Dialogue
