import Dialogue.Proofs.GuidedDraws
import Dialogue.Proofs.GuidedPasses
/-!
# What the guidance context holds

As long as nothing fails and nothing is evicted, the guidance context holds the negative prompt and
then what the main context holds behind some of its first tokens, however the steps are cut into
batches. These are the tokens of the prompt that are in the first step. Where the prompt arrives in
more than one step, the guidance context holds the rest of it; and it holds all of the prompt where
the negative prompt is empty.
-/

namespace Dialogue

open Effect

/-- In place of how many tokens of the main context the negative prompt is resident. -/
def Guidance.replaced (g : Guidance) (first : FirstStep) : Nat :=
  if g.input = [] then 0 else min first.size g.promptSize

/-- What the guidance context holds next to what the main context holds. -/
def Guidance.content (g : Guidance) (first : Option FirstStep) (stream : List Token) : List Token :=
  match first with
  | none => []
  | some step => g.input ++ stream.drop (g.replaced step)

variable {w : Window} {g : Guidance} {n : Nat} {v u t : MainContext} {c d : GuidanceContext}
  {first step? : Option FirstStep} {stream : List Token} {base base' : Cells}

namespace Guidance

private theorem replaced_le (g : Guidance) (step : FirstStep) : g.replaced step ≤ step.size := by
  unfold replaced
  split
  · exact Nat.zero_le _
  · exact Nat.min_le_left _ _

/-- What follows the first step is appended. -/
theorem content_append {step : FirstStep} (h : step.size ≤ stream.length) (tokens : List Token) :
    g.content (some step) (stream ++ tokens) = g.content (some step) stream ++ tokens := by
  have hle := Nat.le_trans (g.replaced_le step) h
  rw [content, content, List.drop_append_of_le_length hle, List.append_assoc]

/-- A first step is fed with the negative prompt in place of the prompt. -/
theorem nextInput_first (g : Guidance) (tokens : List Token) (uncompared : Nat) :
    g.nextInput 0 tokens = g.content (some ⟨tokens.length, uncompared⟩) tokens := by
  have hdrop : tokens.drop (min tokens.length g.promptSize) = tokens.drop g.promptSize := by
    rcases Nat.le_total tokens.length g.promptSize with hle | hle
    · rw [Nat.min_eq_left hle, List.drop_length, List.drop_of_length_le hle]
    · rw [Nat.min_eq_right hle]
  rw [nextInput, needsPrompt, content, replaced]
  by_cases hnil : g.input = []
  · simp [hnil]
  · have hpos := List.length_pos_iff.mpr hnil
    rw [if_neg hnil, hdrop, if_pos]
    exact decide_eq_true (by omega)

/-- A later step is fed as it is. -/
theorem nextInput_later {step : FirstStep} (tokens : List Token) :
    g.nextInput (g.content (some step) stream).length tokens = tokens := by
  rw [nextInput, needsPrompt, if_neg]
  rw [decide_eq_true_eq, content, List.length_append]
  omega

end Guidance

/-- Both contexts hold a stream of tokens, the guidance context with the negative prompt in place of
the first ones, in cells that held others when the dialogue began. -/
structure Paired (g : Guidance) (first : Option FirstStep) (base base' : Cells) (v : MainContext)
    (c : GuidanceContext) (stream : List Token) : Prop where
  /-- The first step is resident. -/
  fed : match first with
    | none => stream = []
    | some step => step.size ≤ stream.length
  /-- The main context holds as many tokens. -/
  past : v.past = stream.length
  /-- The cells of the main context hold the stream. -/
  cells : base.Extends 0 stream v.cells
  /-- The guidance context holds as many tokens. -/
  guidancePast : c.past = (g.content first stream).length
  /-- The cells of the guidance context hold its part. -/
  guidanceCells : base'.Extends 0 (g.content first stream) c.cells

/-- Nothing is resident yet. -/
theorem Paired.nil (g : Guidance) (hv : v.past = 0) (hc : c.past = 0) :
    Paired g none v.cells c.cells v c [] :=
  ⟨rfl, hv, .refl _ _, hc, .refl _ _⟩

/-- What is fed to the guidance context is what its part of the stream grows by. -/
theorem Paired.append_nextInput (h : Paired g first base base' v c stream) (tokens : List Token)
    (uncompared : Nat) :
    g.content (first.or (some ⟨tokens.length, uncompared⟩)) (stream ++ tokens) =
      g.content first stream ++ g.nextInput c.past tokens := by
  have hfed := h.fed
  have hpast := h.guidancePast
  cases first with
  | none =>
    obtain rfl : stream = [] := hfed
    have hzero : c.past = 0 := hpast
    rw [hzero, g.nextInput_first tokens uncompared]
    rfl
  | some step =>
    rw [hpast, Guidance.nextInput_later]
    exact Guidance.content_append hfed tokens

/-- A step that is fed to both contexts is appended. -/
theorem FedBoth.paired (h : FedBoth w g n v c t u d) (hv : Paired g first base base' v c stream)
    (hlogged : v.logged = []) (hc : c.Sound) (hm : u.moves ≤ v.moves) :
    Paired g (first.or (some ⟨t.pending.length, t.uncompared⟩)) base base' u d
      (stream ++ t.pending) := by
  have hmade := h.madeRoom
  have hguidance := h.guidance
  have hmain := h.main
  rw [MainContext.reuse_of_logged_nil (hmade.logged.trans hlogged)] at hguidance hmain
  rw [hmain.moves] at hm
  obtain ⟨hpast, hcells⟩ := hmade.unmoved hm
  rw [hmade.movedBy_eq hm] at hguidance
  obtain ⟨-, hcpast, hccells, -⟩ := hguidance.of_sound hc
  have hupast := hmain.past
  have hucells := hmain.cells
  rw [List.take_length, hpast, hcells] at hucells
  rw [hpast] at hupast
  have happend := hv.append_nextInput t.pending t.uncompared
  constructor
  · have hfed := hv.fed
    rw [List.length_append]
    cases first with
    | none => exact Nat.le_add_left _ _
    | some step => exact Nat.le_trans hfed (Nat.le_add_right _ _)
  · rw [hupast, hv.past, List.length_append]
    rfl
  · have hat : v.past = 0 + stream.length := by rw [hv.past, Int.zero_add]
    rw [hat] at hucells
    exact hv.cells.append hucells
  · rw [happend, hcpast, hv.guidancePast, List.length_append]
    rfl
  · have hat : c.past = 0 + (g.content first stream).length := by rw [hv.guidancePast, Int.zero_add]
    rw [happend]
    refine hv.guidanceCells.append ?_
    rw [← hat]
    exact hccells

/-- Both contexts stay as they are if no step is fed and nothing is evicted. -/
theorem Paired.madeRoom (h : Paired g first base base' v c stream) (hm : v.MadeRoom w u)
    (hmoves : u.moves ≤ v.moves) :
    Paired g first base base' u (c.movedBy (u.past - v.past)) stream := by
  obtain ⟨hpast, hcells⟩ := hm.unmoved hmoves
  rw [hm.movedBy_eq hmoves]
  refine ⟨h.fed, hpast.trans h.past, ?_, h.guidancePast, h.guidanceCells⟩
  rw [hcells]
  exact h.cells

/-! ### Throughout -/

/-- What is known of both contexts without a session file as long as no decode call fails. They are
paired as long as there are no more moves than there were at the beginning. -/
structure Mirroring (g : Guidance) (before : Nat) (alone : Prop) (base base' : Cells)
    (first : Option FirstStep) (v : MainContext) (c : GuidanceContext) : Prop where
  /-- No call that decodes into the main context is to fail. -/
  faultless : ∀ b ∈ v.decodeFaults, b = false
  /-- No call that decodes into the guidance context is to fail. -/
  sound : c.Sound
  /-- No session file is in use. -/
  path : v.path = none
  /-- Nothing is logged. -/
  logged : v.logged = []
  /-- Moves are counted. -/
  moves : before ≤ v.moves
  /-- Guidance is ready only if a step was fed. -/
  ready : c.ready = true → first ≠ none
  /-- Both contexts hold a stream, in cells that are known if the dialogue did not begin anew. -/
  paired : v.moves = before → ∃ b b' stream, Paired g first b b' v c stream ∧
    (alone → b = base ∧ b' = base')

variable {before : Nat} {alone : Prop}

/-- An evaluation feeds a step to both contexts, or none. -/
theorem EvaluatedBoth.mirroring (h : EvaluatedBoth w g n v c step? u d)
    (hv : Mirroring g before alone base base' first v c) :
    Mirroring g before alone base base' (first.or step?) u d := by
  have hmoves := Nat.le_trans hv.moves h.moves_le
  have hle := hv.moves
  have hle' := h.moves_le
  rcases h.of_faultless hv.faultless with ⟨rfl, hm, rfl, -⟩ | ⟨t, rfl, hfed⟩
  · rw [Option.or_none]
    refine ⟨?_, hv.sound, ?_, hm.logged.trans hv.logged, hmoves, hv.ready, fun heq => ?_⟩
    · rw [hm.decodeFaults]
      exact hv.faultless
    · exact hm.path.elim id fun hp => hp.trans hv.path
    · obtain ⟨b, b', stream, hpaired, hbase⟩ := hv.paired (by omega)
      exact ⟨b, b', stream, hpaired.madeRoom hm (by omega), hbase⟩
  · have hmade := hfed.madeRoom
    have htpath : t.path = none := hmade.path.elim id fun hp => hp.trans hv.path
    have htlogged := hmade.logged.trans hv.logged
    have hlogged := hfed.main.logged
    rw [MainContext.reuse_of_logged_nil htlogged, if_neg (by simp [htpath])] at hlogged
    refine ⟨hfed.faultless, (hfed.guidance.of_sound hv.sound).1, hfed.main.path.trans htpath,
      hlogged.trans htlogged, hmoves, ?_, fun heq => ?_⟩
    · rintro -
      cases first <;> exact nofun
    · obtain ⟨b, b', stream, hpaired, hbase⟩ := hv.paired (by omega)
      exact ⟨b, b', _, hfed.paired hpaired hv.logged hv.sound (by omega), hbase⟩

namespace Session

variable {s : Session}

private theorem notedInvariant_mirroring (hg : s.guidance = some g) (before : Nat) (alone : Prop)
    (base base' : Cells) :
    NotedInvariant noteFirst (fun _ => none) (fun r => r = .reset → ¬ alone) fun first t =>
      t.settled = s.settled ∧
        Mirroring g before alone base base' first t.mainContext t.guidanceContext := by
  refine notedInvariant_of_both hg
    (P := fun first v c => Mirroring g before alone base base' first v c) ?_ ?_ ?_
  · intro first v c step? u d hv he
    exact he.mirroring hv
  · intro first v c _ _ _ path _ hv hpath
    refine ⟨hv.faultless, hv.sound, hpath.elim id fun hp => hp.trans hv.path, hv.logged, hv.moves,
      hv.ready, fun heq => ?_⟩
    obtain ⟨b, b', stream, hpaired, hbase⟩ := hv.paired heq
    exact ⟨b, b', stream, ⟨hpaired.fed, hpaired.past, hpaired.cells, hpaired.guidancePast,
      hpaired.guidanceCells⟩, hbase⟩
  · intro hnone first v c hv
    refine ⟨hv.faultless, hv.sound, hv.path, hv.logged, hv.moves, nofun, fun _ => ?_⟩
    exact ⟨v.cells, c.cells, [], .nil (v := v.restarted) (c := c.restarted) g rfl rfl,
      fun ha => absurd ha (hnone rfl)⟩

/-- There is no step of guidance where no step is fed. -/
theorem guidanceStep?_eq_none_of_unfed (h : s.fedStep? = none) : s.guidanceStep? = none := by
  unfold fedStep? at h
  unfold guidanceStep?
  split
  · rfl
  · next hne =>
    rw [if_neg hne] at h
    split
    · next u hu =>
      rw [hu] at h
      cases h
    · rfl

/-- A draw is guided only if a step was fed. -/
theorem noteFirst_ne_none_of_guided (hready : s.progress.guidanceReady = true → first ≠ none)
    (h : true ∈ s.passDraws) : noteFirst first s ≠ none := by
  have hguided := (pass_ready s).2.2 true h
  rw [noteFirst, Ne, Option.or_eq_none_iff]
  rintro ⟨hnone, hstep⟩
  rw [guidanceStep?_eq_none_of_unfed hstep, Option.getD_none, eq_comm, Bool.and_eq_true] at hguided
  exact hready hguided.2 hnone

/-- A session that begins without a session file. -/
theorem mirroring_of_start {now : Nat} {config : Config} {engine : Engine} {directory : Directory}
    {w : Workbench} (h : Session.start now config engine directory = .ok s w)
    (hg : s.guidance = some g) (hfile : config.cachePath = none)
    (hmain : ∀ b ∈ engine.faults.decodeMain, b = false)
    (hguidance : ∀ b ∈ engine.faults.decodeGuidance, b = false) (alone : Prop) :
    Mirroring g s.mainContext.moves alone engine.mainCells engine.guidanceCells none s.mainContext
      s.guidanceContext := by
  have hopening := opening_of_start h hmain
  obtain ⟨hpast, hcpast⟩ := hopening.fresh rfl
  have hv := (start_eq_ok h).mainContext_eq hfile
  have hc := (guidanceContext_of_start h).1
  refine ⟨hopening.faultless, sound_of_start h hg hguidance, ?_, ?_, Nat.le_refl _, ?_,
    fun _ => ⟨_, _, [], .nil g hpast hcpast, fun _ => ⟨?_, ?_⟩⟩⟩
  · rw [hv]
    rfl
  · rw [hv]
    rfl
  · rw [hc]
    exact nofun
  · rw [hv]
    rfl
  · rw [hc]

/-- Without a session file, as long as no decode call fails and nothing was evicted, at every guided
draw the guidance context holds the negative prompt and then what the main context holds behind the
tokens that it replaces, whatever the size of the batches. These are the tokens of the prompt that
are in the first step, and none if the negative prompt is empty. There is nothing else in the cells
but what was there when the dialogue began. -/
theorem guidance_content {now : Nat} {config : Config} {engine : Engine} {directory : Directory}
    {w : Workbench} (h : Session.start now config engine directory = .ok s w)
    (hg : s.guidance = some g) (hfile : config.cachePath = none)
    (hmain : ∀ b ∈ engine.faults.decodeMain, b = false)
    (hguidance : ∀ b ∈ engine.faults.decodeGuidance, b = false) {requests : List Request}
    {t : Session} (ht : s.AtNotedPass noteFirst (fun _ => none) none requests first t)
    (hmoves : (left (pass t)).mainContext.moves = s.mainContext.moves)
    (hdraw : true ∈ t.passDraws) :
    ∃ step stream base base', noteFirst first t = some step ∧
      (left (pass t)).progress.past = stream.length ∧
      base.Extends 0 stream (left (pass t)).engine.mainCells ∧
      (left (pass t)).progress.guidancePast = (g.input ++ stream.drop (g.replaced step)).length ∧
      base'.Extends 0 (g.input ++ stream.drop (g.replaced step))
        (left (pass t)).engine.guidanceCells ∧
      (.reset ∉ requests → base = engine.mainCells ∧ base' = engine.guidanceCells) := by
  have hallowed : ∀ r ∈ requests, r = .reset → ¬ (.reset ∉ requests) := by
    rintro _ hr rfl hnone
    exact hnone hr
  have hinvariant := notedInvariant_mirroring hg s.mainContext.moves (.reset ∉ requests)
    engine.mainCells engine.guidanceCells
  obtain ⟨hsettled, hmirrors⟩ := hinvariant.atNotedPass
    ⟨rfl, mirroring_of_start h hg hfile hmain hguidance _⟩ hallowed ht
  obtain ⟨-, hpass⟩ := hinvariant.pass _ _ ⟨hsettled, hmirrors⟩
  obtain ⟨step, hstep⟩ :=
    Option.ne_none_iff_exists'.mp (noteFirst_ne_none_of_guided hmirrors.ready hdraw)
  obtain ⟨b, b', stream, hpaired, hbase⟩ := hpass.paired hmoves
  rw [hstep] at hpaired
  exact ⟨step, stream, b, b', hstep, hpaired.past, hpaired.cells, hpaired.guidancePast,
    hpaired.guidanceCells, hbase⟩

/-- The guided draw after the user's words of a second turn. -/
theorem guidance_content_of_second_turn :
    ∃ s w g t step stream, Session.start 0
        { prompt := "ab", negativePrompt := "xyz", guidanceScale := ⟨0x40000000⟩, batchSize := 2 }
        { contextSize := 64, hasGuidance := true, script := Token.ofText "c" } {} = .ok s w ∧
      s.guidance = some g ∧
      s.AtNotedPass noteFirst (fun _ => none) none [.answer none, .query "de" none] (some step) t ∧
      (left (pass t)).mainContext.moves = s.mainContext.moves ∧ t.passDraws = [true] ∧
      g.replaced step = 2 ∧ (left (pass t)).progress.past = 6 ∧
      (left (pass t)).progress.past = stream.length ∧
      Cells.empty.Extends 0 stream (left (pass t)).engine.mainCells ∧
      Cells.empty.Extends 0 (Token.ofText "xyz" ++ stream.drop 2)
        (left (pass t)).engine.guidanceCells := by
  let g : Guidance := ⟨Token.ofText "xyz", 2⟩
  obtain ⟨s, w, h, htest⟩ := exists_of_gives
    (fun s : Session =>
      let requests : List Request := [.answer none, .query "de" none]
      let t := (s.serveAll requests).showing none
      decide (s.guidance = some g) &&
        decide (noteFirst (s.noted noteFirst (fun _ => none) none requests) t = some ⟨2, 0⟩) &&
        goesOn (fun t : Session =>
          decide ((left (pass t)).mainContext.moves = s.mainContext.moves) &&
          decide (t.passDraws = [true]) && decide ((left (pass t)).progress.past = 6)) t)
    (r := Session.start 0
      { prompt := "ab", negativePrompt := "xyz", guidanceScale := ⟨0x40000000⟩, batchSize := 2 }
      { contextSize := 64, hasGuidance := true, script := Token.ofText "c" } {})
    (by decide +kernel)
  simp only [Bool.and_eq_true, decide_eq_true_eq] at htest
  obtain ⟨⟨hg, hfirst⟩, hgoes⟩ := htest
  obtain ⟨t, ht, htest⟩ := exists_noted_of_goesOn noteFirst (fun _ => none) none hgoes
  rw [hfirst] at ht
  simp only [Bool.and_eq_true, decide_eq_true_eq] at htest
  obtain ⟨⟨hmoves, hdraws⟩, hpast⟩ := htest
  obtain ⟨step, stream, base, base', hstep, hlength, hcells, -, hcells', hbase⟩ :=
    guidance_content h hg rfl nofun nofun ht hmoves (hdraws ▸ List.mem_singleton_self _)
  obtain ⟨rfl, rfl⟩ := hbase (by decide)
  obtain rfl : ⟨2, 0⟩ = step := Option.some.inj hstep
  exact ⟨s, w, g, t, ⟨2, 0⟩, stream, h, hg, ht, hmoves, hdraws, rfl, hpast, hlength, hcells,
    hcells'⟩

/-- Where the prompt arrives in two steps, the negative prompt replaces the first of them only. -/
theorem guidance_content_of_divided_prompt :
    ∃ s w, Session.start 0
        { prompt := "abcd", negativePrompt := "xy", guidanceScale := ⟨0x40000000⟩, batchSize := 2 }
        { contextSize := 64, hasGuidance := true, script := Token.ofText "ef" } {} = .ok s w ∧
      (s.serveAll [.answer none]).engine.draws = [true, true, true] ∧
      (s.serveAll [.answer none]).engine.mainCells =
        Cells.empty.write 0 (Token.ofText "abcdef") ∧
      (s.serveAll [.answer none]).engine.guidanceCells =
        Cells.empty.write 0 (Token.ofText "xycdef") := by
  obtain ⟨s, w, h, htest⟩ := exists_of_gives
    (fun s : Session =>
      let t := s.serveAll [.answer none]
      decide (t.engine.draws = [true, true, true]) &&
        decide (t.engine.mainCells = Cells.empty.write 0 (Token.ofText "abcdef")) &&
        decide (t.engine.guidanceCells = Cells.empty.write 0 (Token.ofText "xycdef")))
    (r := Session.start 0
      { prompt := "abcd", negativePrompt := "xy", guidanceScale := ⟨0x40000000⟩, batchSize := 2 }
      { contextSize := 64, hasGuidance := true, script := Token.ofText "ef" } {})
    (by decide +kernel)
  simp only [Bool.and_eq_true, decide_eq_true_eq] at htest
  obtain ⟨⟨hdraws, hmain⟩, hguidance⟩ := htest
  exact ⟨s, w, h, hdraws, hmain, hguidance⟩

end Session

end Dialogue
