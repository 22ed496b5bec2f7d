import Dialogue.Proofs.GuidedPasses
/-!
# The negative prompt

Whether the negative prompt is still to be fed is told from the counter of the guidance context,
which evictions lower by as many tokens as they take from the main context. They leave two tokens
there behind those that are kept. So the negative prompt stays resident as long as the main context
is not too far ahead: where it was fed in place of more tokens of the prompt than are kept, an
eviction can take the counter below its length, and it is fed once more.
-/

namespace Dialogue

open Effect

/-- The tokens that a call decodes. -/
def Call.tokens : Call → List Token
  | .decode _ tokens _ => tokens
  | _ => []

private theorem Feed.map_tokens_calls (stream : Stream) (p : Int) (l : List (List Token)) :
    (calls stream p l).map Call.tokens = l := by
  induction l generalizing p with
  | nil => rfl
  | cons b l ih => exact congrArg _ (ih _)

variable {w : Window} {g : Guidance} {n : Nat} {v u t : MainContext} {c d : GuidanceContext}

/-- The negative prompt is resident, and no eviction takes the counter below its length. -/
structure PromptHeld (w : Window) (g : Guidance) (v : MainContext) (c : GuidanceContext) :
    Prop where
  /-- No call that decodes into the main context is to fail. -/
  faultless : ∀ b ∈ v.decodeFaults, b = false
  /-- No call that decodes into the guidance context is to fail. -/
  sound : c.Sound
  /-- The negative prompt is resident. -/
  resident : g.input.length ≤ c.past
  /-- The main context is not too far ahead, nor can it come to be by what is skipped. -/
  close : v.past + v.uncompared + g.input.length ≤ c.past + (w.keep + 2)

namespace PromptHeld

/-- Room is made in both contexts. -/
theorem madeRoom (h : PromptHeld w g v c) (hm : v.MadeRoom w u) :
    PromptHeld w g u (c.movedBy (u.past - v.past)) := by
  have hresident := h.resident
  have hclose := h.close
  have huncompared := hm.uncompared_eq
  refine ⟨?_, h.sound, ?_, ?_⟩
  · rw [hm.decodeFaults]
    exact h.faultless
  · simp only [GuidanceContext.movedBy]
    rcases hm.past with hp | hp <;> omega
  · simp only [GuidanceContext.movedBy]
    omega

/-- The guidance context is fed what is fed to the main context. -/
theorem nextInput_eq (h : PromptHeld w g v c) (tokens : List Token) :
    g.nextInput c.past tokens = tokens := by
  have hresident := h.resident
  rw [Guidance.nextInput, Guidance.needsPrompt, if_neg]
  rw [decide_eq_true_eq]
  omega

end PromptHeld

/-- As long as the negative prompt stays resident the calls that decode into both contexts take the
same tokens. -/
def Together (v : MainContext) (c : GuidanceContext) (u : MainContext) (d : GuidanceContext) :
    Prop :=
  ∃ calls calls', u.calls = v.calls ++ calls ∧ d.calls = c.calls ++ calls' ∧
    calls'.map Call.tokens = (calls.filter Call.decodesMain).map Call.tokens

/-- An evaluation keeps the negative prompt resident. -/
theorem EvaluatedBoth.promptHeld {step? : Option FirstStep} (h : EvaluatedBoth w g n v c step? u d)
    (hv : PromptHeld w g v c) : PromptHeld w g u d ∧ Together v c u d := by
  rcases h.of_faultless hv.faultless with ⟨-, hm, rfl, calls, hcalls, hnone⟩ | ⟨t, -, hfed⟩
  · exact ⟨hv.madeRoom hm, calls, [], hcalls, (List.append_nil _).symm, by rw [hnone]⟩
  · have ht := hv.madeRoom hfed.madeRoom
    obtain ⟨calls, hcalls, hmain⟩ := hfed.calls
    have hguidance := hfed.guidance
    rw [ht.nextInput_eq] at hguidance
    obtain ⟨hsound, hpast, -, hcalls'⟩ := hguidance.of_sound ht.sound
    have hresident := ht.resident
    have hclose := ht.close
    have hskips := t.uncompared_reuse
    have hlogs := hfed.main.uncompared_le
    have hpast' := hfed.main.past
    refine ⟨⟨hfed.faultless, hsound, ?_, ?_⟩, calls, _, hcalls, hcalls', ?_⟩
    · omega
    · omega
    · rw [hmain, Feed.map_tokens_calls, Feed.map_tokens_calls]

/-! ### The first step -/

/-- How much is fed to the guidance context. -/
theorem Guidance.length_nextInput (g : Guidance) (past : Int) (tokens : List Token) :
    (g.nextInput past tokens).length =
      if past < g.input.length then g.input.length + (tokens.length - g.promptSize)
      else tokens.length := by
  simp only [nextInput, needsPrompt, decide_eq_true_eq]
  split
  · rw [List.length_append, List.length_drop]
  · rfl

/-- A first step that leaves the main context no further ahead than by the tokens that are kept and
two: so far it can be ahead by the tokens of the prompt in place of which the negative prompt was
fed, and by what is skipped. -/
def FirstStep.Close (step : FirstStep) (w : Window) (g : Guidance) : Prop :=
  (step.uncompared + min step.size g.promptSize : Nat) ≤ w.keep + 2

/-- The negative prompt is resident once the first step was fed. -/
theorem FedBoth.promptHeld (h : FedBoth w g n v c t u d) (hv : Opening none v c) (hc : c.Sound)
    (hk : 0 ≤ w.keep) (hclose : FirstStep.Close ⟨t.pending.length, t.uncompared⟩ w g) :
    PromptHeld w g u d := by
  have ht := hv.madeRoom hk h.madeRoom
  obtain ⟨htpast, hcpast⟩ := ht.fresh rfl
  obtain ⟨hsound, hpast, -⟩ := h.guidance.of_sound hc
  rw [hcpast, Guidance.length_nextInput] at hpast
  have hpast' := h.main.past
  have hlogs := h.main.uncompared_le
  have hskips := t.uncompared_reuse
  have htotal := t.past_add_pending_reuse
  have hreuse := t.past_le_reuse
  simp only [FirstStep.Close] at hclose
  refine ⟨h.faultless, hsound, ?_, ?_⟩ <;> split at hpast <;> omega

/-- As long as no decode call fails, the negative prompt stays resident once a step was fed first
that leaves the main context close. -/
theorem EvaluatedBoth.promptHeld_of_close {first step? : Option FirstStep}
    (h : EvaluatedBoth w g n v c step? u d) (hk : 0 ≤ w.keep) (hv : Opening first v c)
    (hc : c.Sound)
    (hheld : ∀ step, first = some step → step.Close w g → PromptHeld w g v c) :
    d.Sound ∧ ∀ step, first.or step? = some step → step.Close w g → PromptHeld w g u d := by
  rcases h.of_faultless hv.faultless with ⟨rfl, hm, rfl, -⟩ | ⟨t, rfl, hfed⟩
  · rw [Option.or_none]
    exact ⟨hc, fun step hfirst hclose => (hheld step hfirst hclose).madeRoom hm⟩
  · refine ⟨(hfed.guidance.of_sound hc).1, fun step hfirst hclose => ?_⟩
    cases first with
    | none =>
      cases hfirst
      exact hfed.promptHeld hv hc hk hclose
    | some => exact (h.promptHeld (hheld step hfirst hclose)).1

namespace Session

variable {s : Session}

/-- What is known as long as no decode call fails. -/
theorem notedInvariant_promptHeld (hg : s.guidance = some g) (hk : 0 ≤ s.window.keep) :
    NotedInvariant noteFirst (fun _ => none) (fun _ => True) fun first t =>
      t.settled = s.settled ∧ Opening first t.mainContext t.guidanceContext ∧
        t.guidanceContext.Sound ∧ ∀ step, first = some step → step.Close s.window g →
          PromptHeld s.window g t.mainContext t.guidanceContext := by
  refine notedInvariant_of_both hg (P := fun first v c => Opening first v c ∧ c.Sound ∧
    ∀ step, first = some step → step.Close s.window g → PromptHeld s.window g v c) ?_ ?_ ?_
  · rintro first v c step? u d ⟨hopening, hsound, hheld⟩ he
    exact ⟨hopening.evaluated hk he, he.promptHeld_of_close hk hopening hsound hheld⟩
  · rintro first v c _ _ _ _ _ ⟨⟨hfaultless, hfresh⟩, hsound, hheld⟩ -
    refine ⟨⟨hfaultless, hfresh⟩, hsound, fun step hfirst hclose => ?_⟩
    obtain ⟨hfaultless, hsound, hresident, hahead⟩ := hheld step hfirst hclose
    exact ⟨hfaultless, hsound, hresident, hahead⟩
  · rintro - first v c ⟨hopening, hsound, -⟩
    exact ⟨hopening.restarted, hsound, nofun⟩

/-- Once the negative prompt is resident and the main context is not too far ahead, this stays so
until the dialogue begins anew. -/
theorem notedInvariant_held (hg : s.guidance = some g) :
    NotedInvariant noteFirst (fun _ => none) (· ≠ .reset) fun _ t =>
      t.settled = s.settled ∧ PromptHeld s.window g t.mainContext t.guidanceContext := by
  refine notedInvariant_of_both hg (P := fun _ v c => PromptHeld s.window g v c) ?_ ?_ ?_
  · intro first v c size? u d h he
    exact (he.promptHeld h).1
  · rintro first v c _ _ _ _ _ ⟨hfaultless, hsound, hresident, hclose⟩ -
    exact ⟨hfaultless, hsound, hresident, hclose⟩
  · exact fun h => absurd rfl h

/-- A pass that begins with the negative prompt resident feeds the same to both contexts. -/
theorem passGuidance_of_promptHeld (hg : s.guidance = some g)
    (h : PromptHeld s.window g s.mainContext s.guidanceContext) :
    s.passGuidance.map Call.tokens = s.passDecodes.map Call.tokens := by
  obtain ⟨v, hv, hu⟩ := pass_both hg
  obtain ⟨-, calls, calls', hcalls, hcalls', heq⟩ := hv.promptHeld h
  have hpass : (left (pass s)).mainContext.calls = s.mainContext.calls ++ calls := by
    rcases hu with hu | ⟨n, hu⟩
    · rw [hu, hcalls]
    · rw [hu.calls_eq, hcalls]
  rw [passGuidance_of_eq_append hcalls', passDecodes, mainCallsSince_of_eq_append hpass, heq]

/-- As long as no decode call fails, once the negative prompt is resident every pass feeds the
guidance context what it feeds to the main context until the dialogue begins anew, however often
the context is swapped. For this the main context may be ahead by the tokens that are kept and two,
less those of the negative prompt, with what of the log is still to be compared. It is no further
ahead if no more than those that are kept and two were of the prompt in the first step or were still
to be compared before it, as where all of the prompt is kept and there is no session file. -/
theorem negative_prompt_fed_once {now : Nat} {config : Config} {engine : Engine}
    {directory : Directory} {w : Workbench}
    (h : Session.start now config engine directory = .ok s w) (hg : s.guidance = some g)
    (hmain : ∀ b ∈ engine.faults.decodeMain, b = false)
    (hguidance : ∀ b ∈ engine.faults.decodeGuidance, b = false) {requests : List Request}
    {first : Option FirstStep} {t : Session}
    (ht : s.AtNotedPass noteFirst (fun _ => none) none requests first t)
    (hresident : g.input.length ≤ t.progress.guidancePast)
    (hclose : t.progress.past + t.mainContext.uncompared + g.input.length ≤
        t.progress.guidancePast + (s.window.keep + 2) ∨
      ∃ step, first = some step ∧ step.Close s.window g) {u : Session}
    (hu : t.GoesOnTo u) : u.passGuidance.map Call.tokens = u.passDecodes.map Call.tokens := by
  have hkeep := (start_eq_ok h).keep
  obtain ⟨hsettled, hopening, hsound, hheld⟩ := (notedInvariant_promptHeld hg hkeep).atNotedPass
    ⟨rfl, opening_of_start h hmain, sound_of_start h hg hguidance, nofun⟩ (fun _ _ => trivial) ht
  have hheld : PromptHeld s.window g t.mainContext t.guidanceContext := by
    rcases hclose with hclose | ⟨step, hfirst, hclose⟩
    · exact ⟨hopening.faultless, hsound, hresident, hclose⟩
    · exact hheld step hfirst hclose
  obtain ⟨_, hsettled', hheld'⟩ := (notedInvariant_held hg).goesOn (g := first) ⟨hsettled, hheld⟩ hu
  rw [← window_of_settled hsettled'] at hheld'
  exact passGuidance_of_promptHeld ((guidance_of_settled hsettled').trans hg) hheld'

/-- A pass in which the context is swapped for the fifth time. -/
theorem negative_prompt_fed_once_of_swapped_pass :
    ∃ s w g step t u, Session.start 0
        { prompt := "abc", negativePrompt := "vwxyz", guidanceScale := ⟨0x40000000⟩ }
        { contextSize := 8, hasGuidance := true, script := Token.ofText "fghijk" } {} = .ok s w ∧
      s.guidance = some g ∧
      s.AtNotedPass noteFirst (fun _ => none) none [.answer none, .query "defg" none] (some step)
        t ∧
      g.input.length ≤ t.progress.guidancePast ∧ step.Close s.window g ∧ t.GoesOnTo u ∧
      u.mainContext.moves = 4 ∧ (left (pass u)).mainContext.moves = 5 ∧
      u.passDecodes.map Call.tokens = [Token.ofText "d"] ∧
      u.passGuidance.map Call.tokens = u.passDecodes.map Call.tokens := by
  let g : Guidance := ⟨Token.ofText "vwxyz", 3⟩
  obtain ⟨s, w, h, htest⟩ := exists_of_gives
    (fun s : Session =>
      let requests : List Request := [.answer none, .query "defg" none]
      let t := (s.serveAll requests).showing none
      decide (s.guidance = some g) && decide (s.window.keep = 3) &&
        decide (s.noted noteFirst (fun _ => none) none requests = some ⟨3, 0⟩) &&
        decide ((g.input.length : Int) ≤ t.progress.guidancePast) &&
        goesOn (fun u : Session => decide (u.mainContext.moves = 4) &&
          decide ((left (pass u)).mainContext.moves = 5) &&
          decide (u.passDecodes.map Call.tokens = [Token.ofText "d"])) t)
    (r := Session.start 0
      { prompt := "abc", negativePrompt := "vwxyz", guidanceScale := ⟨0x40000000⟩ }
      { contextSize := 8, hasGuidance := true, script := Token.ofText "fghijk" } {})
    (by decide +kernel)
  simp only [Bool.and_eq_true, decide_eq_true_eq] at htest
  obtain ⟨⟨⟨⟨hg, hkeep⟩, hfirst⟩, hresident⟩, hgoes⟩ := htest
  obtain ⟨u, hu, htest⟩ := exists_goesOnTo hgoes
  simp only [Bool.and_eq_true, decide_eq_true_eq] at htest
  obtain ⟨⟨hfour, hfive⟩, hdecodes⟩ := htest
  have hclose : FirstStep.Close ⟨3, 0⟩ s.window g := by
    rw [FirstStep.Close, hkeep]
    decide
  have ht : s.AtNotedPass noteFirst (fun _ => none) none [.answer none, .query "defg" none]
      (some ⟨3, 0⟩) _ := ⟨none, by rw [hfirst]⟩
  have heq := negative_prompt_fed_once h hg nofun nofun ht hresident (.inr ⟨_, rfl, hclose⟩) hu
  exact ⟨s, w, g, _, _, u, h, hg, ht, hresident, hclose, hu, hfour, hfive, hdecodes, heq⟩

/-- Where the first step holds three tokens of the prompt but none are kept, the negative prompt is
fed once more after a swap, in place of the first tokens that the user said. -/
theorem negative_prompt_fed_again_of_unkept_prompt :
    ∃ s w g t u, Session.start 0
        { prompt := "abc", negativePrompt := "vwxyz", guidanceScale := ⟨0x40000000⟩
          keep := some 0 }
        { contextSize := 8, hasGuidance := true } {} = .ok s w ∧
      s.guidance = some g ∧ s.AtPass [.answer none, .query "defg" none] t ∧
      g.input.length ≤ t.progress.guidancePast ∧ t.GoesOnTo u ∧
      u.passDecodes.map Call.tokens = [Token.ofText "defg"] ∧
      u.passGuidance.map Call.tokens = [Token.ofText "vwxyzg"] := by
  let g : Guidance := ⟨Token.ofText "vwxyz", 3⟩
  obtain ⟨s, w, h, htest⟩ := exists_of_gives
    (fun s : Session =>
      let t := (s.serveAll [.answer none, .query "defg" none]).showing none
      decide (s.guidance = some g) &&
        decide ((g.input.length : Int) ≤ t.progress.guidancePast) &&
        goesOn (fun u : Session =>
          decide (u.passDecodes.map Call.tokens = [Token.ofText "defg"]) &&
          decide (u.passGuidance.map Call.tokens = [Token.ofText "vwxyzg"])) t)
    (r := Session.start 0
      { prompt := "abc", negativePrompt := "vwxyz", guidanceScale := ⟨0x40000000⟩, keep := some 0 }
      { contextSize := 8, hasGuidance := true } {})
    (by decide +kernel)
  simp only [Bool.and_eq_true, decide_eq_true_eq] at htest
  obtain ⟨⟨hg, hresident⟩, hgoes⟩ := htest
  obtain ⟨u, hu, htest⟩ := exists_goesOnTo hgoes
  simp only [Bool.and_eq_true, decide_eq_true_eq] at htest
  exact ⟨s, w, g, _, u, h, hg, ⟨none, .refl⟩, hresident, hu, htest⟩

end Session

end Dialogue
