import Dialogue.Proofs.QueryTurnState
import Dialogue.Proofs.Starting
import Dialogue.Proofs.Turns
/-!
# The draws of a turn

In a session with a bounded number of draws per turn, what was drawn and what may still be drawn
before the user gets the turn never grow together, whatever fails: a draw uses up what is left, and
the draws are renewed only where the turn is handed to the user. Only a query that succeeds or a new
beginning gives the turn back.
-/

namespace Dialogue

open Effect

/-- Whether a call asks for a draw. -/
def Call.asksDraw : Call → Bool
  | .sample _ => true
  | _ => false

namespace TurnState

variable {c : Config} {v u : TurnState}

/-- How many draws succeeded, up to a number that stays the same: those that were asked for, and
those to come that fail. -/
def drawn (v : TurnState) : Nat := v.calls.countP Call.asksDraw + v.drawFaults.count true

/-- How many tokens can be drawn before the turn is given back to the session. -/
def left (v : TurnState) : Int := if v.userTurn then 0 else max 0 v.remaining

private theorem left_nonneg (v : TurnState) : 0 ≤ v.left := by
  unfold left
  split
  · exact Int.le_refl _
  · exact Int.le_max_left _ _

/-- What was drawn, and what can be drawn yet. -/
def due (v : TurnState) : Int := v.drawn + v.left

private theorem drawn_take (v : TurnState) (tokens : List Token) :
    (v.take tokens).drawn = v.drawn := by
  have hnone : (tokens.map (Call.accept · false)).countP Call.asksDraw = 0 := by
    rw [List.countP_map]
    exact List.countP_eq_zero.mpr fun _ _ => nofun
  simp only [drawn, take, List.countP_append, hnone, Nat.add_zero]

/-- A draw that fails does not count. -/
theorem drawn_ask (v : TurnState) (guided : Bool) (hf : v.drawFaults.headD false = true) :
    (v.ask guided).drawn = v.drawn := by
  have hcount := Faults.count_tail v.drawFaults
  rw [hf, Bool.toNat_true] at hcount
  simp only [drawn, ask, List.countP_append, List.countP_singleton, Call.asksDraw, if_true]
  omega

/-- A draw that succeeds counts. -/
theorem drawn_draw (v : TurnState) (guided : Bool) (hf : v.drawFaults.headD false = false) :
    (v.draw guided).drawn = v.drawn + 1 := by
  have hcount := Faults.count_tail v.drawFaults
  rw [hf, Bool.toNat_false] at hcount
  have hcalls : (v.draw guided).calls.countP Call.asksDraw =
      v.calls.countP Call.asksDraw + 1 := by
    simp only [draw, ask, List.countP_append]
    rfl
  have hfaults : (v.draw guided).drawFaults = v.drawFaults.tail := rfl
  rw [drawn, hcalls, hfaults, drawn]
  omega

/-- Filling a step draws no more than is left. -/
theorem Filled.due_le {r : Except SessionError Unit} (h : v.Filled c r u)
    (hc : c.hasFiniteBudget = true) : u.due ≤ v.due := by
  cases h with
  | spent => exact Int.le_refl _
  | stopped => exact Int.le_refl _
  | undrawn hq hu hs hf guided =>
    rw [due, drawn_ask v guided hf]
    exact Int.le_refl _
  | drawn hq hu hs hf guided =>
    have hpos : 0 < v.remaining := by simpa [TurnState.spent, hc] using hs
    have hleft : (v.draw guided).left = max 0 (v.remaining - 1) := if_neg (Bool.eq_false_iff.mp hu)
    rw [due, drawn_draw v guided hf, hleft, due, left, hu, if_neg Bool.false_ne_true]
    omega
  | taken =>
    rw [due, drawn_take]
    exact Int.le_refl _

/-- Deciding whose turn it is leaves no more to draw. -/
theorem Concluded.due_le {r : Except SessionError (Option Outcome)} (h : v.Concluded c r u) :
    u.due ≤ v.due := by
  obtain ⟨tokens, n, b, rfl, hb, hn⟩ := h.exists_eq
  refine Int.add_le_add_left ?_ (v.drawn : Int)
  simp only [left]
  -- Draws that are renewed are not left to draw: the user has the turn then.
  rcases hn with rfl | ⟨-, rfl⟩
  · cases hu : v.userTurn with
    | false =>
      cases b with
      | false => exact Int.le_refl _
      | true => exact Int.le_max_left _ _
    | true => simp [hb hu]
  · simp only [if_true]
    split <;> omega

/-- A pass draws no more than is left, whether or not it fails. -/
theorem Passed.due_le {r : Except SessionError (Option Outcome)} (h : v.Passed c r u)
    (hc : c.hasFiniteBudget = true) : u.due ≤ v.due := by
  cases h with
  | ended => exact Int.le_refl _
  | broken hf => exact hf.due_le hc
  | stepped hf hcon => exact Int.le_trans hcon.due_le (hf.due_le hc)

/-- The calls of a pass are added to those before. -/
theorem Passed.prefix_calls {r : Except SessionError (Option Outcome)} (h : v.Passed c r u) :
    v.calls <+: u.calls := by
  have hfilled {r : Except SessionError Unit} {u : TurnState} (h : v.Filled c r u) :
      v.calls <+: u.calls := by
    cases h with
    | spent => exact List.prefix_rfl
    | stopped => exact List.prefix_rfl
    | undrawn => exact List.prefix_append _ _
    | drawn => exact (List.prefix_append _ _).trans (List.prefix_append _ _)
    | taken => exact List.prefix_append _ _
  cases h with
  | ended => exact List.prefix_rfl
  | broken hf => exact hfilled hf
  | stepped hf hc =>
    rw [hc.calls_eq]
    exact hfilled hf

/-- No pass leaves more to draw than a turn begins with. -/
theorem Passed.remaining_le {r : Except SessionError (Option Outcome)} (h : v.Passed c r u)
    (hv : v.remaining ≤ c.predict) : u.remaining ≤ c.predict := by
  have hfilled {r : Except SessionError Unit} {u : TurnState} (h : v.Filled c r u) :
      u.remaining ≤ c.predict := by
    cases h with
    | spent => exact hv
    | stopped => exact hv
    | undrawn => exact hv
    | drawn => exact Int.le_trans (Int.sub_le_self _ (by decide)) hv
    | taken => exact hv
  cases h with
  | ended => exact hv
  | broken hf => exact hfilled hf
  | stepped hf hc =>
    obtain ⟨tokens, n, b, rfl, -, hn⟩ := hc.exists_eq
    have hle := hfilled hf
    rcases hn with rfl | ⟨rfl, -⟩
    · exact hle
    · exact Int.le_refl _

/-- A pass that begins when the draws are used up asks for none, and ends the turn. -/
theorem Passed.of_spent {r : Except SessionError (Option Outcome)} (h : v.Passed c r u)
    (hs : v.spent c = true) :
    r ≠ .ok none ∧ ∃ calls, u.calls = v.calls ++ calls ∧ ∀ guided, .sample guided ∉ calls := by
  have hfilled {r : Except SessionError Unit} {u : TurnState} (h : v.Filled c r u) :
      u.spent c = true ∧ ∃ calls, u.calls = v.calls ++ calls ∧
        ∀ guided, .sample guided ∉ calls := by
    have hnone : v.spent c = true ∧ ∃ calls, v.calls = v.calls ++ calls ∧
        ∀ guided, Call.sample guided ∉ calls := ⟨hs, [], by simp, by simp⟩
    cases h with
    | spent => exact hnone
    | stopped => exact hnone
    | undrawn _ _ hs' => exact absurd hs (Bool.eq_false_iff.mp hs')
    | drawn _ _ hs' => exact absurd hs (Bool.eq_false_iff.mp hs')
    | taken => exact ⟨hs, _, rfl, fun _ => not_mem_accepted nofun⟩
  cases h with
  | ended hr => exact ⟨hr, [], by simp, by simp⟩
  | broken hf => exact ⟨nofun, (hfilled hf).2⟩
  | stepped hf hc =>
    obtain ⟨hspent, hcalls⟩ := hfilled hf
    rw [hc.calls_eq]
    refine ⟨?_, hcalls⟩
    rintro rfl
    exact absurd hspent (Bool.eq_false_iff.mp hc.goes_on.2.1)

/-- A query that fails draws nothing. -/
theorem Heard.due_eq {e : SessionError} (h : v.Heard (.error e) u) :
    u.calls = v.calls ∧ u.due = v.due := by
  cases h
  exact ⟨rfl, rfl⟩

private theorem Heard.remaining_le {r : Except SessionError Unit} {n : Int} (h : v.Heard r u)
    (hv : v.remaining ≤ n) : u.remaining ≤ n := by
  cases h with
  | failed => exact hv
  | heard queue queueRead inputSize =>
    simp only [lowered]
    omega

end TurnState

namespace Session

variable {s t : Session}

/-- Whether a request does not give the turn to the session: it is neither a new beginning nor a
query, unless that fails. -/
def KeepsTurn (s : Session) : Request → Prop
  | .answer _ => True
  | .query text room => ¬ s.Succeeds (.query text room)
  | .reset => False

/-- Whether a request keeps the turn can be found out by serving it. -/
instance (s : Session) (r : Request) : Decidable (s.KeepsTurn r) :=
  match r with
  | .answer _ => .isTrue trivial
  | .query text room => inferInstanceAs (Decidable (¬ s.Succeeds (.query text room)))
  | .reset => .isFalse id

/-- How many draws succeeded since an earlier state of the session: of those that were asked for,
those that were not scheduled to fail. -/
def drawsSince (s t : Session) : Int :=
  (s.samplerCallsSince t).countP Call.asksDraw -
    ((s.engine.faults.sample.count true : Int) - t.engine.faults.sample.count true)

private theorem drawsSince_eq (h : s.turnState.calls <+: t.turnState.calls) :
    s.drawsSince t = t.turnState.drawn - s.turnState.drawn := by
  obtain ⟨calls, hcalls⟩ := h
  rw [drawsSince, samplerCallsSince_of_eq_append hcalls.symm]
  simp only [TurnState.drawn, ← hcalls, List.countP_append]
  simp only [turnState, Workbench.turnState]
  omega

/-- Until the turn is given to the session again, no more is drawn than is left. -/
theorem invariant_due (hc : s.config.hasFiniteBudget = true) :
    Invariant KeepsTurn fun t => t.config = s.config ∧ s.turnState.calls <+: t.turnState.calls ∧
      t.turnState.due ≤ s.turnState.due where
  showing _ _ h := h
  pass := by
    rintro t ⟨hconfig, hcalls, hdue⟩
    obtain ⟨r, ⟨hsame, hpassed⟩, -⟩ := (ends_pass_turnState t).exists_left
    rw [hconfig] at hsame hpassed
    exact ⟨hsame, hcalls.trans hpassed.prefix_calls, Int.le_trans (hpassed.due_le hc) hdue⟩
  query := by
    rintro t text room ⟨hconfig, hcalls, hdue⟩ hfails
    obtain ⟨r, ⟨hsame, hheard⟩, hok, -⟩ := (ends_query_turnState text (t.showing room)).exists_left
    cases r with
    | ok _ => exact absurd ((hok ()).mp rfl) hfails
    | error e =>
      obtain ⟨hcalls', hdue'⟩ := hheard.due_eq
      rw [hcalls', hdue']
      exact ⟨hsame.trans hconfig, hcalls, hdue⟩
  reset _ _ h := h.elim

/-- Nothing leaves more to draw than a turn begins with. -/
theorem invariant_remaining (s : Session) :
    Invariant (fun _ _ => True) fun t =>
      t.config = s.config ∧ t.turnState.remaining ≤ s.config.predict where
  showing _ _ h := h
  pass := by
    rintro t ⟨hconfig, hle⟩
    obtain ⟨r, ⟨hsame, hpassed⟩, -⟩ := (ends_pass_turnState t).exists_left
    rw [hconfig] at hsame hpassed
    exact ⟨hsame, hpassed.remaining_le hle⟩
  query := by
    rintro t text room ⟨hconfig, hle⟩ -
    obtain ⟨r, ⟨hsame, hheard⟩, -⟩ := (ends_query_turnState text (t.showing room)).exists_left
    exact ⟨hsame.trans hconfig, hheard.remaining_le hle⟩
  reset := by
    rintro t ⟨hconfig, -⟩ -
    refine ⟨hconfig, ?_⟩
    simp only [turnState_reset, hconfig, Int.le_refl]

/-- A turn that begins when the draws are used up is a single pass that asks for none. -/
theorem turn_of_spent (hs : s.turnState.spent s.config = true) :
    s.turn = [s] ∧ ∀ guided, .sample guided ∉ s.samplerCallsSince (left (answer s)) := by
  obtain ⟨r, ⟨-, hpassed⟩, hok, -⟩ := (ends_pass_turnState s).exists_left
  obtain ⟨hr, calls, hcalls, hnone⟩ := hpassed.of_spent hs
  have hends (t : Session) : pass s ≠ .ok none t := fun h => hr ((hok none).mpr ⟨t, h⟩)
  have hanswer : left (answer s) = left (pass s) := by
    obtain ⟨u, hlast, -, hleft⟩ := left_answer s
    rw [turn_of_ends hends] at hlast
    cases hlast
    exact hleft
  rw [hanswer, samplerCallsSince_of_eq_append hcalls]
  exact ⟨turn_of_ends hends, hnone⟩

end Session

end Dialogue
