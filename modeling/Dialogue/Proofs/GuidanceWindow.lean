import Dialogue.Proofs.NegativePrompt
/-!
# Positions of the guidance context

Evictions take as many tokens from the guidance context as from the main one, and room is made by
what the main context holds and by how much longer the negative prompt is than the real one. This
keeps the counter of the guidance context within the window as long as the negative prompt is fed
once, in place of the real one. It is not where the negative prompt is fed before the prompt is in
the step, again, or in part, nor where an eviction takes more tokens than the guidance context
holds.
-/

namespace Dialogue

open Effect

/-- Whether a call decodes into the guidance context, at positions below a bound. -/
def Call.GuidanceBelow (bound : Int) : Call → Prop
  | .decode .guidance tokens start => 0 ≤ start ∧ start + tokens.length ≤ bound
  | _ => False

private theorem Call.GuidanceBelow.mono {bound bound' : Int} {call : Call}
    (h : call.GuidanceBelow bound) (hb : bound ≤ bound') : call.GuidanceBelow bound' := by
  unfold GuidanceBelow at h ⊢
  split at h
  · exact ⟨h.1, Int.le_trans h.2 hb⟩
  · exact h.elim

private theorem Feed.guidanceBelow_calls {l : List (List Token)} {p bound : Int} (hp : 0 ≤ p)
    (hb : p + l.flatten.length ≤ bound) :
    ∀ call ∈ calls .guidance p l, call.GuidanceBelow bound := by
  induction l generalizing p with
  | nil => exact nofun
  | cons b l ih =>
    rw [List.flatten_cons, List.length_append] at hb
    intro call hmem
    rcases List.mem_cons.mp hmem with rfl | hmem
    · exact ⟨hp, by omega⟩
    · exact ih (by omega) (by omega) call hmem

variable {w : Window} {g : Guidance} {n : Nat} {v u t : MainContext} {c d : GuidanceContext}

/-! ### A step of guidance -/

/-- A step of guidance tries to decode its tokens behind those that are resident, and counts those
it decodes. -/
theorem GuidanceStepped.guidanceBelow {tokens : List Token} {bound : Int}
    (h : GuidanceStepped n tokens c d) (hc : 0 ≤ c.past) (hb : c.past + tokens.length ≤ bound) :
    d.past ≤ c.past + tokens.length ∧
      ∃ calls, d.calls = c.calls ++ calls ∧ ∀ call ∈ calls, call.GuidanceBelow bound := by
  obtain ⟨tried, done, hfed, ⟨rest, htried⟩, hpast, -⟩ := h
  obtain ⟨more, hdone⟩ := hfed.prefix_tried
  have htokens : done.flatten ++ (more.flatten ++ rest.flatten) = tokens := by
    rw [← flatten_pieces n tokens, ← htried, ← hdone, List.flatten_append, List.flatten_append,
      List.append_assoc]
  have htry : tried.flatten = done.flatten ++ more.flatten := by
    rw [← hdone, List.flatten_append]
  have hlength := congrArg List.length htokens
  rw [List.length_append, List.length_append] at hlength
  refine ⟨by omega, _, hfed.calls, Feed.guidanceBelow_calls hc ?_⟩
  rw [htry, List.length_append]
  omega

/-- A step of guidance does not lower the counter. -/
theorem GuidanceStepped.past_le {tokens : List Token} (h : GuidanceStepped n tokens c d) :
    c.past ≤ d.past := by
  obtain ⟨_, _, _, _, hpast, -⟩ := h
  omega

/-- A step of guidance decodes nothing, or all of the beginning that fits into a batch. -/
theorem GuidanceStepped.past_eq_or {first rest : List Token}
    (h : GuidanceStepped n (first ++ rest) c d) (hn : first.length ≤ n) :
    d.past = c.past ∨ c.past + first.length ≤ d.past := by
  obtain ⟨tried, done, hfed, htried, hpast, -⟩ := h
  cases done with
  | nil =>
    left
    rw [hpast]
    exact Int.add_zero _
  | cons b done =>
    right
    obtain ⟨more, hmore⟩ := hfed.prefix_tried.trans htried
    rw [pieces] at hmore
    split at hmore
    · cases hmore
    · obtain ⟨rfl, -⟩ := List.cons.inj hmore
      rw [List.flatten_cons, List.length_append, List.length_take, List.length_append] at hpast
      omega

/-! ### The counter of the guidance context -/

/-- The counters of both contexts are within the window, and room is made for the guidance context
with that for the main one. -/
structure Ranged (w : Window) (g : Guidance) (v : MainContext) (c : GuidanceContext) : Prop where
  /-- The main context fits into the window. -/
  bounded : v.Bounded w
  /-- Not more was evicted than was resident. -/
  nonneg : 0 ≤ c.past
  /-- The guidance context fits into the window. -/
  le : c.past ≤ w.size
  /-- The guidance context is ahead by what is left free for it at most. -/
  ahead : c.past ≤ v.past + max 0 g.offset

/-- Room is made in both contexts. -/
theorem Ranged.madeRoom (h : Ranged w g v c) (hk : 0 ≤ w.keep) (hm : v.MadeRoom w u)
    (hc : 0 ≤ (c.movedBy (u.past - v.past)).past) : Ranged w g u (c.movedBy (u.past - v.past)) := by
  obtain ⟨⟨hpast, hsize⟩, -, hle, hahead⟩ := h
  have hroom := hm.past
  have hmoved : (c.movedBy (u.past - v.past)).past = c.past + (u.past - v.past) := rfl
  refine ⟨⟨?_, ?_⟩, hc, ?_, ?_⟩ <;> omega

/-- By how much the negative prompt is longer, if its size is a positive signed word. -/
theorem Guidance.sub_le_offset (h : g.input.length < 0x80000000) :
    (g.input.length : Int) - g.promptSize ≤ g.offset := by
  have hprompt := Number.signedWord_le g.promptSize
  rw [offset, Number.signedWord_of_lt h]
  omega

/-- What is fed to the guidance context fits where the step fits, if the negative prompt is resident
or nothing is: as many tokens as are resident or pending in the main context then have to cover one
of both prompts. -/
theorem Guidance.nextInput_fits {tokens : List Token} {past : Int} {m : Nat}
    (hoffset : g.input.length - g.promptSize ≤ g.offset) (hp : 0 ≤ past) (hm : tokens.length ≤ m)
    (hahead : c.past ≤ past + max 0 g.offset)
    (hdue : g.input.length ≤ c.past ∨
      c.past = 0 ∧ (g.input.length ≤ past + m ∨ g.promptSize ≤ past + m)) :
    c.past + (g.nextInput c.past tokens).length ≤ past + m + max 0 g.offset := by
  rw [Guidance.length_nextInput]
  split <;> omega

/-- The counters are kept within the window by an evaluation, and the calls that decode into the
guidance context are below its size. -/
structure KeptRanged (w : Window) (g : Guidance) (c : GuidanceContext) (u : MainContext)
    (d : GuidanceContext) : Prop where
  /-- The counters are within the window. -/
  ranged : Ranged w g u d
  /-- The calls are below its size. -/
  calls : ∃ calls, d.calls = c.calls ++ calls ∧ ∀ call ∈ calls, call.GuidanceBelow w.size

/-- Feeding both contexts keeps their counters within the window. -/
theorem FedBoth.ranged (h : FedBoth w g n v c t u d) (hk : 0 ≤ w.keep)
    (hoffset : g.input.length - g.promptSize ≤ g.offset) (hv : Ranged w g v c)
    (hc : 0 ≤ (c.movedBy (t.past - v.past)).past)
    (hdue : g.input.length ≤ (c.movedBy (t.past - v.past)).past ∨
      (c.movedBy (t.past - v.past)).past = 0 ∧
        (g.input.length ≤ t.past + t.pending.length ∨
          g.promptSize ≤ t.past + t.pending.length)) :
    KeptRanged w g c u d := by
  have ht := hv.madeRoom hk h.madeRoom hc
  obtain ⟨htpast, hfits⟩ := h.fits hk hv.bounded
  have htotal := t.past_add_pending_reuse
  have hpast : u.past = t.past + t.pending.length := h.main.past.trans htotal
  have hreuse := t.past_le_reuse
  have hless : t.reuse.pending.length ≤ t.pending.length := by omega
  have hinput := g.nextInput_fits hoffset htpast hless ht.ahead hdue
  have hle := h.guidance.past_le
  have hbelow : (c.movedBy (t.past - v.past)).past +
      (g.nextInput (c.movedBy (t.past - v.past)).past t.reuse.pending).length ≤ w.size := by omega
  obtain ⟨hle', hcalls⟩ := h.guidance.guidanceBelow hc hbelow
  refine ⟨⟨⟨?_, ?_⟩, ?_, ?_, ?_⟩, hcalls⟩ <;> omega

/-- A step that has as many tokens as one of both prompts. -/
def FirstStep.Covers (step : FirstStep) (g : Guidance) : Prop :=
  g.input.length ≤ step.size ∨ g.promptSize ≤ step.size

/-- An evaluation keeps the counters of both contexts within the window, if room is not made of more
tokens than the guidance context holds, and the negative prompt is resident then or nothing is. -/
theorem EvaluatedBoth.ranged {first step? : Option FirstStep}
    (h : EvaluatedBoth w g n v c step? u d) (hk : 0 ≤ w.keep)
    (hoffset : g.input.length - g.promptSize ≤ g.offset) (hopening : Opening first v c)
    (hv : Ranged w g v c)
    (hfirst : ∀ step, first.or step? = some step → step.Covers g)
    (hroom : first ≠ none → ∀ t, v.MadeRoom w t → t.moves ≤ u.moves →
      0 ≤ (c.movedBy (t.past - v.past)).past ∧
      (g.input.length ≤ (c.movedBy (t.past - v.past)).past ∨
        (c.movedBy (t.past - v.past)).past = 0 ∧
          (g.input.length ≤ t.past ∨ g.promptSize ≤ t.past))) :
    KeptRanged w g c u d := by
  rcases h.of_faultless hopening.faultless with ⟨rfl, hm, rfl, -⟩ | ⟨t, rfl, hfed⟩
  · refine ⟨hv.madeRoom hk hm ?_, [], (List.append_nil _).symm, nofun⟩
    by_cases hnone : first = none
    · exact Int.le_of_eq ((hopening.madeRoom hk hm).fresh hnone).2.symm
    · exact (hroom hnone u hm (Nat.le_refl _)).1
  · by_cases hnone : first = none
    · obtain ⟨hpast, hc⟩ := (hopening.madeRoom hk hfed.madeRoom).fresh hnone
      rw [hnone, Option.none_or] at hfirst
      have hcovers := hfirst _ rfl
      refine hfed.ranged hk hoffset hv (Int.le_of_eq hc.symm) (.inr ⟨hc, ?_⟩)
      simp only [FirstStep.Covers] at hcovers
      omega
    · obtain ⟨hc, hdue⟩ := hroom hnone t hfed.madeRoom (Nat.le_of_eq hfed.main.moves.symm)
      exact hfed.ranged hk hoffset hv hc (hdue.imp id fun hdue => ⟨hdue.1, by omega⟩)

/-! ### Without failures of the guidance context -/

/-- As long as the negative prompt is resident an evaluation keeps the counters of both contexts
within the window. -/
theorem EvaluatedBoth.ranged_of_held {first step? : Option FirstStep}
    (h : EvaluatedBoth w g n v c step? u d) (hk : 0 ≤ w.keep)
    (hoffset : g.input.length - g.promptSize ≤ g.offset) (hopening : Opening first v c)
    (hv : Ranged w g v c) (hfirst : ∀ step, first.or step? = some step → step.Covers g)
    (hheld : first ≠ none → PromptHeld w g v c) :
    KeptRanged w g c u d := by
  refine h.ranged hk hoffset hopening hv hfirst fun hne t hm _ => ?_
  have hresident := ((hheld hne).madeRoom hm).resident
  exact ⟨by omega, .inl hresident⟩

/-! ### Without evictions -/

/-- The negative prompt is resident as a whole or nothing is, and the main context holds as many
tokens as one of both prompts has. -/
structure Whole (g : Guidance) (first : Option FirstStep) (v : MainContext) (c : GuidanceContext) :
    Prop where
  /-- No part of the negative prompt is resident alone. -/
  whole : c.past = 0 ∨ g.input.length ≤ c.past
  /-- The first step had as many tokens. -/
  covered : first ≠ none → g.input.length ≤ v.past ∨ g.promptSize ≤ v.past

/-- As long as nothing is evicted an evaluation keeps the counters of both contexts within the
window, whatever fails of the guidance context. -/
theorem EvaluatedBoth.ranged_of_whole {first step? : Option FirstStep}
    (h : EvaluatedBoth w g n v c step? u d) (hk : 0 ≤ w.keep)
    (hoffset : g.input.length - g.promptSize ≤ g.offset) (hopening : Opening first v c)
    (hv : Ranged w g v c) (hfirst : ∀ step, first.or step? = some step → step.Covers g)
    (hwhole : Whole g first v c) (hm : u.moves ≤ v.moves) :
    KeptRanged w g c u d := by
  refine h.ranged hk hoffset hopening hv hfirst fun hne t ht hmoves => ?_
  have hunmoved := Nat.le_trans hmoves hm
  rw [ht.movedBy_eq hunmoved, (ht.unmoved hunmoved).1]
  refine ⟨hv.nonneg, ?_⟩
  rcases hwhole.whole with hzero | hresident
  · exact .inr ⟨hzero, hwhole.covered hne⟩
  · exact .inl hresident

/-- The negative prompt is decoded as a whole if it fits into a batch. -/
theorem EvaluatedBoth.whole {first step? : Option FirstStep}
    (h : EvaluatedBoth w g n v c step? u d) (hn : g.input.length ≤ n)
    (hopening : Opening first v c) (hv : v.Bounded w)
    (hfirst : ∀ step, first.or step? = some step → step.Covers g) (hwhole : Whole g first v c)
    (hm : u.moves ≤ v.moves) : Whole g (first.or step?) u d := by
  obtain ⟨hprompt, hcovered⟩ := hwhole
  rcases h.of_faultless hopening.faultless with ⟨rfl, ht, rfl, -⟩ | ⟨t, rfl, hfed⟩
  · rw [ht.movedBy_eq hm, Option.or_none]
    refine ⟨hprompt, ?_⟩
    rw [(ht.unmoved hm).1]
    exact hcovered
  · rw [hfed.main.moves] at hm
    obtain ⟨hpast, -⟩ := hfed.madeRoom.unmoved hm
    have hguidance := hfed.guidance
    have htotal := t.past_add_pending_reuse
    have hpast' : u.past = t.past + t.pending.length := hfed.main.past.trans htotal
    rw [hfed.madeRoom.movedBy_eq hm] at hguidance
    constructor
    · have hcounts := hguidance.past_le
      by_cases hdue : c.past < g.input.length
      · have hinput : g.nextInput c.past t.reuse.pending =
            g.input ++ t.reuse.pending.drop g.promptSize := by
          rw [Guidance.nextInput, Guidance.needsPrompt, if_pos]
          exact decide_eq_true hdue
        rw [hinput] at hguidance
        have hbatch := hguidance.past_eq_or hn
        omega
      · omega
    · rintro -
      cases first with
      | none =>
        have hcovers := hfirst _ rfl
        have htpast := hv.1
        simp only [FirstStep.Covers] at hcovers
        omega
      | some =>
        have hcovered := hcovered (Option.some_ne_none _)
        omega

/-! ### Throughout -/

/-- Both contexts of a dialogue that begins anew. -/
theorem Ranged.restarted (hs : 0 ≤ w.size) (g : Guidance) (v : MainContext) (c : GuidanceContext) :
    Ranged w g v.restarted c.restarted where
  bounded := ⟨Int.le_refl 0, hs⟩
  nonneg := Int.le_refl 0
  le := hs
  ahead := by
    rw [MainContext.restarted, GuidanceContext.restarted]
    dsimp only
    omega

namespace Session

variable {s : Session}

/-- The counters stay within the window if no decode call fails, and every dialogue begins with a
step that covers one of both prompts and leaves the main context close. -/
theorem notedInvariant_ranged_of_close (hg : s.guidance = some g) (hk : 0 ≤ s.window.keep)
    (hs : 0 ≤ s.window.size) (hoffset : g.input.length - g.promptSize ≤ g.offset) :
    NotedInvariant noteFirst (fun _ => none) (fun _ => True) fun first t =>
      t.settled = s.settled ∧ Opening first t.mainContext t.guidanceContext ∧
        t.guidanceContext.Sound ∧
        (∀ step, first = some step → step.Close s.window g →
          PromptHeld s.window g t.mainContext t.guidanceContext) ∧
        ((∀ step, first = some step → step.Covers g ∧ step.Close s.window g) →
          Ranged s.window g t.mainContext t.guidanceContext) := by
  refine notedInvariant_of_both hg (P := fun first v c => Opening first v c ∧ c.Sound ∧
    (∀ step, first = some step → step.Close s.window g → PromptHeld s.window g v c) ∧
    ((∀ step, first = some step → step.Covers g ∧ step.Close s.window g) →
      Ranged s.window g v c)) ?_ ?_ ?_
  · rintro first v c step? u d ⟨hopening, hsound, hheld, hranged⟩ he
    obtain ⟨hsound', hheld'⟩ := he.promptHeld_of_close hk hopening hsound hheld
    refine ⟨hopening.evaluated hk he, hsound', hheld', fun hfirst => ?_⟩
    have hbefore (step : FirstStep) (h : first = some step) :
        step.Covers g ∧ step.Close s.window g := hfirst step (by rw [h, Option.some_or])
    refine (he.ranged_of_held hk hoffset hopening (hranged hbefore)
      (fun step h => (hfirst step h).1) fun hne => ?_).ranged
    obtain ⟨step, hstep⟩ := Option.ne_none_iff_exists'.mp hne
    exact hheld step hstep (hbefore step hstep).2
  · rintro first v c _ _ _ _ _ ⟨⟨hfaultless, hfresh⟩, hsound, hheld, hranged⟩ -
    refine ⟨⟨hfaultless, hfresh⟩, hsound, fun step hfirst hclose => ?_, fun hfirst => ?_⟩
    · obtain ⟨hfaultless, hsound, hresident, hahead⟩ := hheld step hfirst hclose
      exact ⟨hfaultless, hsound, hresident, hahead⟩
    · obtain ⟨hbounded, hnonneg, hle, hahead⟩ := hranged hfirst
      exact ⟨hbounded, hnonneg, hle, hahead⟩
  · rintro - first v c ⟨hopening, hsound, -⟩
    exact ⟨hopening.restarted, hsound, nofun, fun _ => .restarted hs g v c⟩

/-- The counters stay within the window as long as nothing is evicted, if every dialogue begins with
a step that covers one of both prompts and the negative prompt fits into a batch. -/
theorem notedInvariant_ranged_of_unmoved (hg : s.guidance = some g) (hk : 0 ≤ s.window.keep)
    (hs : 0 ≤ s.window.size) (hoffset : g.input.length - g.promptSize ≤ g.offset)
    (hn : g.input.length ≤ s.config.batchSize) (moves : Nat) :
    NotedInvariant noteFirst (fun _ => none) (fun _ => True) fun first t =>
      t.settled = s.settled ∧ Opening first t.mainContext t.guidanceContext ∧
        moves ≤ t.mainContext.moves ∧
        (t.mainContext.moves = moves → (∀ step, first = some step → step.Covers g) →
          Ranged s.window g t.mainContext t.guidanceContext ∧
          Whole g first t.mainContext t.guidanceContext) := by
  refine notedInvariant_of_both hg (P := fun first v c => Opening first v c ∧ moves ≤ v.moves ∧
    (v.moves = moves → (∀ step, first = some step → step.Covers g) →
      Ranged s.window g v c ∧ Whole g first v c)) ?_ ?_ ?_
  · rintro first v c step? u d ⟨hopening, hmoves, hranged⟩ he
    have hle := he.moves_le
    refine ⟨hopening.evaluated hk he, Nat.le_trans hmoves hle, fun heq hfirst => ?_⟩
    obtain ⟨hv, hwhole⟩ :=
      hranged (by omega) fun step h => hfirst step (by rw [h, Option.some_or])
    exact ⟨(he.ranged_of_whole hk hoffset hopening hv hfirst hwhole (by omega)).ranged,
      he.whole hn hopening hv.bounded hfirst hwhole (by omega)⟩
  · rintro first v c _ _ _ _ _ ⟨⟨hfaultless, hfresh⟩, hmoves, hranged⟩ -
    refine ⟨⟨hfaultless, hfresh⟩, hmoves, fun heq hfirst => ?_⟩
    obtain ⟨⟨hbounded, hnonneg, hle, hahead⟩, hwhole, hcovered⟩ := hranged heq hfirst
    exact ⟨⟨hbounded, hnonneg, hle, hahead⟩, hwhole, hcovered⟩
  · rintro - first v c ⟨hopening, hmoves, -⟩
    exact ⟨hopening.restarted, hmoves, fun _ _ => ⟨.restarted hs g v c, .inl rfl, nofun⟩⟩

/-- A session that begins. -/
theorem ranged_of_start {now : Nat} {config : Config} {engine : Engine} {directory : Directory}
    {w : Workbench} (h : Session.start now config engine directory = .ok s w) :
    Ranged s.window g s.mainContext s.guidanceContext := by
  have hbegun := start_eq_ok h
  have hcontext : s.guidanceContext.past = 0 := by rw [(guidanceContext_of_start h).1]
  refine ⟨hbegun.bounded, ?_, ?_, ?_⟩
  · exact Int.le_of_eq hcontext.symm
  · rw [hcontext]
    exact hbegun.size_nonneg
  · rw [hcontext, hbegun.past_eq]
    omega

private theorem whole_of_start {now : Nat} {config : Config} {engine : Engine}
    {directory : Directory}
    {w : Workbench} (h : Session.start now config engine directory = .ok s w) :
    Whole g none s.mainContext s.guidanceContext := by
  refine ⟨.inl ?_, nofun⟩
  rw [(guidanceContext_of_start h).1]

/-- A pass keeps the counter of the guidance context within the window, and so it does the calls
that decode into it. -/
structure PassRanged (w : Window) (g : Guidance) (s : Session) : Prop where
  /-- The counters are within the window before the pass. -/
  before : Ranged w g s.mainContext s.guidanceContext
  /-- The counters are within the window after the pass. -/
  after : ∃ v, Ranged w g v (left (pass s)).guidanceContext
  /-- The calls stay below its size. -/
  calls : ∀ call ∈ s.passGuidance, call.GuidanceBelow w.size

private theorem PassRanged.of_evaluated {v : MainContext}
    (h : Ranged w g s.mainContext s.guidanceContext)
    (he : KeptRanged w g s.guidanceContext v (left (pass s)).guidanceContext) :
    PassRanged w g s := by
  obtain ⟨hranged, calls, hcalls, hbelow⟩ := he
  refine ⟨h, ⟨v, hranged⟩, ?_⟩
  rwa [passGuidance_of_eq_append hcalls]

variable {now : Nat} {config : Config} {engine : Engine} {directory : Directory} {w : Workbench}
  {requests : List Request} {first : Option FirstStep} {t : Session}

private theorem passRanged_of_close (h : Session.start now config engine directory = .ok s w)
    (hg : s.guidance = some g) (hmain : ∀ b ∈ engine.faults.decodeMain, b = false)
    (hguidance : ∀ b ∈ engine.faults.decodeGuidance, b = false)
    (hoffset : g.input.length - g.promptSize ≤ g.offset)
    (ht : s.AtNotedPass noteFirst (fun _ => none) none requests first t)
    (hfirst : ∀ step, noteFirst first t = some step → step.Covers g ∧ step.Close s.window g) :
    PassRanged s.window g t := by
  have hbegun := start_eq_ok h
  have hinvariant := notedInvariant_ranged_of_close hg hbegun.keep hbegun.size_nonneg hoffset
  obtain ⟨hsettled, hopening, -, hheld, hranged⟩ := hinvariant.atNotedPass
    ⟨rfl, opening_of_start h hmain, sound_of_start h hg hguidance, nofun,
      fun _ => ranged_of_start h⟩ (fun _ _ => trivial) ht
  have hbefore (step : FirstStep) (h : first = some step) :
      step.Covers g ∧ step.Close s.window g := hfirst step (by rw [noteFirst, h, Option.some_or])
  obtain ⟨v, he, -⟩ := pass_both ((guidance_of_settled hsettled).trans hg)
  rw [window_of_settled hsettled] at he
  refine .of_evaluated (hranged hbefore) (he.ranged_of_held hbegun.keep hoffset hopening
    (hranged hbefore) (fun step h => (hfirst step h).1) fun hne => ?_)
  obtain ⟨step, hstep⟩ := Option.ne_none_iff_exists'.mp hne
  exact hheld step hstep (hbefore step hstep).2

private theorem passRanged_of_unmoved (h : Session.start now config engine directory = .ok s w)
    (hg : s.guidance = some g) (hmain : ∀ b ∈ engine.faults.decodeMain, b = false)
    (hn : g.input.length ≤ s.config.batchSize)
    (hoffset : g.input.length - g.promptSize ≤ g.offset)
    (ht : s.AtNotedPass noteFirst (fun _ => none) none requests first t)
    (hfirst : ∀ step, noteFirst first t = some step → step.Covers g)
    (hmoves : (left (pass t)).mainContext.moves = s.mainContext.moves) :
    PassRanged s.window g t := by
  have hbegun := start_eq_ok h
  have hinvariant := notedInvariant_ranged_of_unmoved hg hbegun.keep hbegun.size_nonneg hoffset hn
    s.mainContext.moves
  obtain ⟨hsettled, hopening, hle, hranged⟩ := hinvariant.atNotedPass
    ⟨rfl, opening_of_start h hmain, Nat.le_refl _, fun _ _ => ⟨ranged_of_start h, whole_of_start h⟩⟩
    (fun _ _ => trivial) ht
  obtain ⟨v, he, hv⟩ := pass_both ((guidance_of_settled hsettled).trans hg)
  rw [window_of_settled hsettled] at he
  have hpass : (left (pass t)).mainContext.moves = v.moves := by
    rcases hv with hv | ⟨_, hv⟩
    · rw [hv]
    · exact hv.moves_eq
  have hle' := he.moves_le
  obtain ⟨hranged, hwhole⟩ :=
    hranged (by omega) fun step h => hfirst step (by rw [noteFirst, h, Option.some_or])
  exact .of_evaluated hranged
    (he.ranged_of_whole hbegun.keep hoffset hopening hranged hfirst hwhole (by omega))

/-- The counter of the guidance context stays within the window, and the calls that decode into it
stay below its size. This is so without failures of decode calls if no more than what is kept and
two tokens were of the prompt in the first step or were still to be compared before it. It is so
whatever fails of the guidance context if nothing was evicted and the negative prompt fits into a
batch. In both cases the first step has to have as many tokens as the negative prompt or the real
one. -/
theorem guidance_window_bound (h : Session.start now config engine directory = .ok s w)
    (hg : s.guidance = some g) (hmain : ∀ b ∈ engine.faults.decodeMain, b = false)
    (hword : g.input.length < 0x80000000)
    (ht : s.AtNotedPass noteFirst (fun _ => none) none requests first t)
    (hcovers : ∀ step, noteFirst first t = some step → step.Covers g)
    (hlag : (∀ b ∈ engine.faults.decodeGuidance, b = false) ∧
        (∀ step, noteFirst first t = some step → step.Close s.window g) ∨
      (left (pass t)).mainContext.moves = s.mainContext.moves ∧
        g.input.length ≤ config.batchSize) :
    (0 ≤ t.progress.guidancePast ∧ t.progress.guidancePast ≤ engine.contextSize) ∧
      (0 ≤ (left (pass t)).progress.guidancePast ∧
        (left (pass t)).progress.guidancePast ≤ engine.contextSize) ∧
      ∀ call ∈ t.passGuidance, call.GuidanceBelow engine.contextSize := by
  have hbegun := start_eq_ok h
  have hsize : s.window.size ≤ engine.contextSize := by
    rw [hbegun.size]
    exact Number.signedWord_le _
  have hoffset := g.sub_le_offset hword
  have hpass : PassRanged s.window g t := by
    rcases hlag with ⟨hguidance, hclose⟩ | ⟨hmoves, hn⟩
    · exact passRanged_of_close h hg hmain hguidance hoffset ht fun step hfirst =>
        ⟨hcovers step hfirst, hclose step hfirst⟩
    · rw [← hbegun.batchSize] at hn
      exact passRanged_of_unmoved h hg hmain hn hoffset ht hcovers hmoves
  obtain ⟨v, hafter⟩ := hpass.after
  exact ⟨⟨hpass.before.nonneg, Int.le_trans hpass.before.le hsize⟩,
    ⟨hafter.nonneg, Int.le_trans hafter.le hsize⟩,
    fun call hmem => (hpass.calls call hmem).mono hsize⟩

/-- A pass in which the context is swapped for the fifth time, with all positions of the guidance
context in use. -/
theorem guidance_window_bound_of_swapped_pass :
    ∃ s w g step t, Session.start 0
        { prompt := "abc", negativePrompt := "vwxyz", guidanceScale := ⟨0x40000000⟩ }
        { contextSize := 8, hasGuidance := true, script := Token.ofText "fghijk" } {} = .ok s w ∧
      s.guidance = some g ∧ g.input.length < 0x80000000 ∧
      s.AtNotedPass noteFirst (fun _ => none) none [.answer none, .query "def" none] (some step) t ∧
      step.Covers g ∧ step.Close s.window g ∧
      t.mainContext.moves = 3 ∧ (left (pass t)).mainContext.moves = 4 ∧
      t.progress.guidancePast = 8 ∧ (left (pass t)).progress.guidancePast = 8 ∧
      t.passGuidance ≠ [] ∧ ∀ call ∈ t.passGuidance, call.GuidanceBelow 8 := by
  let g : Guidance := ⟨Token.ofText "vwxyz", 3⟩
  obtain ⟨s, w, h, htest⟩ := exists_of_gives
    (fun s : Session =>
      let requests : List Request := [.answer none, .query "def" none]
      let t := (s.serveAll requests).showing none
      decide (s.guidance = some g) && decide (s.window.keep = 3) &&
        decide (s.noted noteFirst (fun _ => none) none requests = some ⟨3, 0⟩) &&
        decide (t.mainContext.moves = 3) && decide ((left (pass t)).mainContext.moves = 4) &&
        decide (t.progress.guidancePast = 8) &&
        decide ((left (pass t)).progress.guidancePast = 8) && !t.passGuidance.isEmpty)
    (r := Session.start 0
      { prompt := "abc", negativePrompt := "vwxyz", guidanceScale := ⟨0x40000000⟩ }
      { contextSize := 8, hasGuidance := true, script := Token.ofText "fghijk" } {})
    (by decide +kernel)
  simp only [Bool.and_eq_true, decide_eq_true_eq, Bool.not_eq_true',
    List.isEmpty_eq_false_iff] at htest
  obtain ⟨⟨⟨⟨⟨⟨⟨hg, hkeep⟩, hfirst⟩, hthree⟩, hfour⟩, hpast⟩, hpast'⟩, hcalls⟩ := htest
  have hclose : FirstStep.Close ⟨3, 0⟩ s.window g := by
    rw [FirstStep.Close, hkeep]
    decide
  have hcovers : FirstStep.Covers ⟨3, 0⟩ g := .inr (by decide)
  have hword : g.input.length < 0x80000000 := by decide
  have ht : s.AtNotedPass noteFirst (fun _ => none) none [.answer none, .query "def" none]
      (some ⟨3, 0⟩) _ := ⟨none, by rw [hfirst]⟩
  obtain ⟨-, -, hbelow⟩ := guidance_window_bound h hg (by rintro _ ⟨⟩) hword ht
    (by rintro _ ⟨⟩; exact hcovers) (.inl ⟨by rintro _ ⟨⟩, by rintro _ ⟨⟩; exact hclose⟩)
  exact ⟨s, w, g, _, _, h, hg, hword, ht, hcovers, hclose, hthree, hfour, hpast, hpast', hcalls,
    hbelow⟩

/-- Where the first step holds but one token of a prompt as long as the negative prompt, the
guidance context is fed beyond the window. Where none of the prompt are kept, evictions take more
tokens than the guidance context holds, and it is fed at negative positions. -/
theorem guidance_window_exceeded :
    (∃ s w, Session.start 0
        { prompt := "abcd", negativePrompt := "wxyz", guidanceScale := ⟨0x40000000⟩
          batchSize := 1, predict := 4 }
        { contextSize := 8, hasGuidance := true, script := Token.ofText "efgh" } {} = .ok s w ∧
      (s.serveAll [.answer none]).progress.guidancePast = 10 ∧
      .decode .guidance (Token.ofText "g") 9 ∈
        (s.serveAll [.answer none]).engine.guidanceCalls) ∧
    ∃ s w, Session.start 0
        { prompt := "abcdefgh", negativePrompt := "x", guidanceScale := ⟨0x40000000⟩
          keep := some 0 }
        { contextSize := 12, hasGuidance := true, script := Token.ofText "ijkl" } {} = .ok s w ∧
      (s.serveAll [.answer none, .query "12345678" none, .answer none]).progress.guidancePast =
        -3 ∧
      .decode .guidance (Token.ofText "x") (-4) ∈
        (s.serveAll [.answer none, .query "12345678" none, .answer none]).engine.guidanceCalls := by
  constructor
  · obtain ⟨s, w, h, htest⟩ := exists_of_gives
      (fun s : Session =>
        let t := s.serveAll [.answer none]
        decide (t.progress.guidancePast = 10) &&
          decide (.decode .guidance (Token.ofText "g") 9 ∈ t.engine.guidanceCalls))
      (r := Session.start 0
        { prompt := "abcd", negativePrompt := "wxyz", guidanceScale := ⟨0x40000000⟩
          batchSize := 1, predict := 4 }
        { contextSize := 8, hasGuidance := true, script := Token.ofText "efgh" } {})
      (by decide +kernel)
    simp only [Bool.and_eq_true, decide_eq_true_eq] at htest
    exact ⟨s, w, h, htest⟩
  · obtain ⟨s, w, h, htest⟩ := exists_of_gives
      (fun s : Session =>
        let t := s.serveAll [.answer none, .query "12345678" none, .answer none]
        decide (t.progress.guidancePast = -3) &&
          decide (.decode .guidance (Token.ofText "x") (-4) ∈ t.engine.guidanceCalls))
      (r := Session.start 0
        { prompt := "abcdefgh", negativePrompt := "x", guidanceScale := ⟨0x40000000⟩
          keep := some 0 }
        { contextSize := 12, hasGuidance := true, script := Token.ofText "ijkl" } {})
      (by decide +kernel)
    simp only [Bool.and_eq_true, decide_eq_true_eq] at htest
    exact ⟨s, w, h, htest⟩

end Session

end Dialogue
