import Dialogue.Proofs.QueuedTokens
import Dialogue.Proofs.ReversePrompts
import Dialogue.Proofs.TemplateSteps
import Dialogue.Proofs.TurnLength
/-!
# The template of instruct mode

In instruct mode every typed turn follows the marker of an instruction, and the marker of a response
follows it. A turn brings the first marker along unless a reverse prompt was said last. What carries
this through a dialogue is that a reverse prompt stands at the end of what was said and is queued,
as long as no typed turn waits to be read.
-/

namespace Dialogue

open Effect

/-! ### Reverse prompts at the end of what was said -/

namespace Config

variable {c : Config} {tokens : List Token}

/-- What a configuration is resolved to in instruct mode. -/
theorem resolve_eq_ok_of_instruct {now : Nat} {config : Config} (h : config.resolve now = .ok c)
    (hi : config.instruct = true) : c.instruct = true ∧ c.interactive = true ∧
      c.inputLead = config.inputLead ∧ c.inputTail = config.inputTail := by
  obtain ⟨-, -, rfl⟩ := resolve_eq_ok_iff.mp h
  simp [completed, hi]

/-- Whether the first reverse prompt is empty, so that none shows behind the end of a generation,
and some tokens come to that end. Tokens that open a sequence may follow it. -/
def CuedUnseen (c : Config) (tokens : List Token) : Prop :=
  c.antiprompts.head? = some "" ∧ ∃ n, Token.eos :: List.replicate n Token.bos <:+ tokens

/-- Whether a reverse prompt stands at the end of what some tokens say, or the end of a generation
where the reverse prompt that follows it does not show. -/
def Cued (c : Config) (tokens : List Token) : Prop :=
  (∃ a ∈ c.antiprompts, a ≠ "" ∧
      Antiprompt.endsText true (Token.render tokens).toList a.toList = true) ∨
    c.CuedUnseen tokens

/-- Whether what some tokens say ends with the marker of an instruction, or, where a reverse prompt
is taken to be said last, with another one, or with the end of a generation behind which it does not
show. -/
def Introduces (c : Config) (atAntiprompt : Bool) (tokens : List Token) : Prop :=
  instructAntiprompt.toList <:+ (Token.render tokens).toList ∨
    atAntiprompt = true ∧
      ((∃ a ∈ c.antiprompts, a ≠ "" ∧ a ≠ instructAntiprompt ∧
          Antiprompt.endsText true (Token.render tokens).toList a.toList = true) ∨
        c.CuedUnseen tokens)

private theorem Cued.introduces (h : c.Cued tokens) : c.Introduces true tokens := by
  rcases h with ⟨a, ha, hne, hends⟩ | hunseen
  · by_cases hmarker : a = instructAntiprompt
    · rw [hmarker] at hends
      exact .inl (Antiprompt.suffix_of_endsText rfl hends)
    · exact .inr ⟨rfl, .inl ⟨a, ha, hne, hmarker, hends⟩⟩
  · exact .inr ⟨rfl, .inr hunseen⟩

/-- What ends with the instruction of a turn ends with its marker. -/
theorem introduces_lead (atAntiprompt : Bool) (tokens : List Token) :
    c.Introduces atAntiprompt (tokens ++ Token.ofText Session.leadText) := by
  left
  rw [Token.render_append, Token.render_ofText, String.toList_append]
  have hmarker : instructAntiprompt.toList <:+ Session.leadText.toList := by decide
  exact hmarker.trans (List.suffix_append _ _)

private theorem Cued.append_left (h : c.Cued tokens) (before : List Token) :
    c.Cued (before ++ tokens) := by
  rcases h with ⟨a, ha, hne, hends⟩ | ⟨hempty, n, hends⟩
  · refine .inl ⟨a, ha, hne, ?_⟩
    rw [Token.render_append, String.toList_append]
    exact Antiprompt.endsText_append hends _
  · exact .inr ⟨hempty, n, hends.trans (List.suffix_append _ _)⟩

private theorem cued_of_find?
    (h : (Antiprompt.find? (Token.render tokens) c.antiprompts true).isSome =
    true) : c.Cued tokens := by
  rw [Antiprompt.find?, List.find?_isSome] at h
  obtain ⟨a, ha, hfound⟩ := h
  obtain ⟨hne, hends⟩ := Bool.and_eq_true_iff.mp hfound
  exact .inl ⟨a, ha, of_decide_eq_true hne, hends⟩

end Config

namespace Template

variable {v : Template} {tokens : List Token}

private theorem exists_opening (v : Template) : ∃ n, v.opening = List.replicate n Token.bos := by
  unfold opening
  split
  · exact ⟨1, rfl⟩
  · exact ⟨0, rfl⟩

/-- The token that opens a sequence says nothing. -/
theorem cued_opening (h : v.config.Cued tokens) : v.config.Cued (tokens ++ v.opening) := by
  rcases h with ⟨a, ha, hne, hends⟩ | ⟨hempty, n, hends⟩
  · have hrender : Token.render v.opening = "" := by
      unfold opening
      split <;> decide
    refine .inl ⟨a, ha, hne, ?_⟩
    rwa [Token.render_append, hrender, String.append_empty]
  · obtain ⟨m, hopening⟩ := v.exists_opening
    refine .inr ⟨hempty, n + m, ?_⟩
    rw [hopening, ← List.replicate_append_replicate, ← List.cons_append]
    exact (List.suffix_append_inj_of_length_eq rfl).mpr ⟨hends, rfl⟩

/-- Without spellings of their own, texts are spelled character by character. -/
theorem spell_eq (h : v.spellings = []) (text : String) : v.spell text = Token.ofText text := by
  rw [spell, h]
  rfl

/-- Behind the end of a generation the first reverse prompt stands, or does not show. -/
theorem cued_cue (hs : v.spellings = []) (ha : v.config.antiprompts ≠ [])
    (hends : [Token.eos] <:+ tokens) : v.config.Cued (tokens ++ v.cue) := by
  obtain ⟨first, rest, hfirst⟩ := List.exists_cons_of_ne_nil ha
  have hcue : v.cue = Token.ofText first := by
    unfold cue
    rw [hfirst]
    exact spell_eq hs first
  by_cases hempty : first = ""
  · right
    rw [hcue, hempty]
    exact ⟨by rw [hfirst, hempty]; rfl, 0, by simpa [Token.ofText] using hends⟩
  · apply Config.Cued.append_left
    refine .inl ⟨first, by simp [hfirst], hempty, ?_⟩
    rw [hcue, Token.render_ofText]
    exact Antiprompt.endsText_of_suffix (List.suffix_refl _) true

end Template

namespace QueryState

variable {v : QueryState} {text : String}

/-- What stands in front of a typed turn: the instruction that it brings, or what is queued
already. -/
def ahead (v : QueryState) : List Token :=
  if v.leads then v.lead else v.queue.drop v.queueRead ++ v.opening

/-- What is to be read after a typed turn. -/
theorem drop_heard (hle : v.queueRead ≤ v.queue.length) (hl : 1 < text.utf8ByteSize) :
    (v.heard text).queue.drop (v.heard text).queueRead =
      v.ahead ++ (v.spell v.config.inputLead ++ v.said text ++ v.after) := by
  have hleads : (v.queued v.opening).leads = v.leads := rfl
  rw [heard, if_pos hl, turned, led_eq, hleads, ahead]
  cases v.leads with
  | true =>
    change List.drop (v.queue ++ v.opening).length (v.queue ++ v.opening ++ v.lead ++ _) = _
    rw [List.append_assoc, List.drop_left]
    rfl
  | false =>
    change List.drop v.queueRead (v.queue ++ v.opening ++ [] ++ _) = _
    rw [List.append_nil, List.append_assoc, List.drop_append_of_le_length hle]
    exact (List.append_assoc _ _ _).symm

end QueryState

/-! ### Filling a step -/

namespace TurnState

variable {c : Config} {v u : TurnState} {told : List Token}

/-- The tokens that the sampler was told of. -/
def accepted (v : TurnState) : List Token := v.calls.filterMap Call.accepted?

private theorem remembered_suffix {recent : List Token} (h : recent <:+ told) (token : Token) :
    remembered recent token <:+ told ++ [token] := by
  unfold remembered
  obtain ⟨before, rfl⟩ := h
  rw [List.append_assoc]
  split
  · obtain ⟨first, hfirst⟩ := List.tail_suffix recent
    exact ⟨before ++ first, by rw [List.append_assoc, ← List.append_assoc first, hfirst]⟩
  · exact List.suffix_append _ _

private theorem foldl_remembered_suffix {recent : List Token} (h : recent <:+ told)
    (tokens : List Token) : tokens.foldl remembered recent <:+ told ++ tokens := by
  induction tokens generalizing recent told with
  | nil => rwa [List.append_nil]
  | cons t tokens ih =>
    rw [List.append_cons]
    exact ih (remembered_suffix h t)

private theorem unread_take {batch rest : List Token} (h : v.unread = batch ++ rest) :
    (v.take batch).unread = rest := by
  change v.queue.drop (v.queueRead + batch.length) = rest
  rw [← List.drop_drop]
  change v.unread.drop batch.length = rest
  rw [h, List.drop_left]

/-- To fill a step leaves the queue alone. The sampler is told of more, the last of which are
remembered, and of the first unread tokens in their order if some are left. -/
theorem Filled.exists_accepted (h : v.Filled c (.ok ()) u) (hle : v.queueRead ≤ v.queue.length) :
    u.queue = v.queue ∧ u.queueRead ≤ u.queue.length ∧ ∃ more,
      u.accepted = v.accepted ++ more ∧ (∀ told, v.recent <:+ told → u.recent <:+ told ++ more) ∧
        (u.drained = false → more ++ u.unread = v.unread) := by
  cases h with
  | spent hq =>
    refine ⟨rfl, hle, [], (List.append_nil _).symm, ?_, fun hu => absurd hq (by simp [hu])⟩
    exact fun told h => by rwa [List.append_nil]
  | drawn hq _ _ _ guided =>
    have hdrained : (v.draw guided).drained = v.drained := rfl
    refine ⟨rfl, hle, [v.next], ?_, fun told h => remembered_suffix h _, ?_⟩
    · simp only [accepted, draw, ask, List.filterMap_append, List.append_assoc]
      rfl
    · exact fun hu => absurd hq (by rw [← hdrained, hu]; decide)
  | taken =>
    refine ⟨rfl, ?_, v.unread.take (max c.batchSize 1), ?_, ?_, fun _ => ?_⟩
    · simp only [take, unread, List.length_take, List.length_drop]
      omega
    · simp only [accepted, take, List.filterMap_append, filterMap_accepted_map]
    · exact fun told h => foldl_remembered_suffix h _
    · obtain ⟨rest, hrest⟩ := List.take_prefix (max c.batchSize 1) v.unread
      rw [unread_take hrest.symm, hrest]

end TurnState

/-! ### Turns -/

namespace Session

variable {s s₀ t u : Session} {told : List Token} {waits : Bool} {n : Nat}

/-- Where a reverse prompt is taken to stand at the end, one does, of what was said and what is
queued then. -/
theorem cued_of_handback (hi : s.config.interactive = true)
    (hs : s.engine.spellings = []) (hr : s.turnState.recent <:+ told)
    (h : s.handback.atAntiprompt = true) :
    s.config.Cued (told ++ if s.handback.injects then s.template.cue else []) := by
  by_cases hinjects : s.handback.injects = true
  · rw [if_pos hinjects]
    have hparts := hinjects
    simp only [handback, Handback.decide, Bool.and_eq_true, decide_eq_true_eq] at hparts
    obtain ⟨⟨hend, -⟩, hsome⟩ := hparts
    obtain ⟨before, hbefore⟩ := List.getLast?_eq_some_iff.mp (of_decide_eq_true hend)
    have hends : [Token.eos] <:+ s.turnState.recent := ⟨before, hbefore.symm⟩
    exact Template.cued_cue (v := s.template) hs hsome (hends.trans hr)
  · have hfound : s.antiprompt?.isSome = true :=
      (Bool.or_eq_true_iff.mp h).resolve_right hinjects
    rw [antiprompt?, hi] at hfound
    obtain ⟨before, hbefore⟩ := (List.drop_suffix _ _).trans hr
    rw [if_neg hinjects, List.append_nil, ← hbefore]
    exact (Config.cued_of_find? hfound).append_left before

/-- What was said since an earlier state of the session: the sampler was told of it, and what is put
around the user's turns is what it was then. -/
structure Says (s₀ : Session) (told : List Token) (t : Session) : Prop where
  /-- What is put around the user's turns stays. -/
  template : t.template = { s₀.template with atAntiprompt := t.progress.atAntiprompt }
  /-- No more is moved out of the queue than there is. -/
  read_le : t.turnState.queueRead ≤ t.turnState.queue.length
  /-- The sampler was told of it. -/
  accepted : t.turnState.accepted = s₀.turnState.accepted ++ told
  /-- Its last tokens are remembered. -/
  recent : t.turnState.recent <:+ told

private theorem Says.config (h : s₀.Says told t) : t.config = s₀.config :=
  congrArg Template.config h.template

private theorem Says.spellings (h : s₀.Says told t) : t.engine.spellings = s₀.engine.spellings :=
  congrArg Template.spellings h.template

/-- What was said stays where queue and sampler do. -/
theorem Says.stays (h : s₀.Says told t) (hqueryState : u.queryState = t.queryState)
    (hcalls : u.turnState.calls = t.turnState.calls) (hrecent : u.turnState.recent =
      t.turnState.recent) :
    s₀.Says told u := by
  have hflag : u.progress.atAntiprompt = t.progress.atAntiprompt :=
    congrArg (fun v : QueryState => v.atAntiprompt) hqueryState
  have hqueue : u.turnState.queue = t.turnState.queue := congrArg QueryState.queue hqueryState
  have hread : u.turnState.queueRead = t.turnState.queueRead :=
    congrArg QueryState.queueRead hqueryState
  refine ⟨?_, ?_, ?_, ?_⟩
  · rw [hflag, ← h.template]
    exact congrArg QueryState.toTemplate hqueryState
  · rw [hqueue, hread]
    exact h.read_le
  · rw [TurnState.accepted, hcalls]
    exact h.accepted
  · rw [hrecent]
    exact h.recent

/-- Filling a step says more. -/
theorem Says.filled (h : s₀.Says told t) (hf : t.turnState.Filled t.config (.ok ()) u.turnState)
    (htemplate : u.template = t.template) : ∃ more, s₀.Says (told ++ more) u ∧
      u.turnState.queue = t.turnState.queue ∧
      (u.turnState.drained = false → more ++ u.turnState.unread = t.turnState.unread) := by
  obtain ⟨hqueue, hle, more, haccepted, hrecent, hunread⟩ := hf.exists_accepted h.read_le
  have hflag : u.progress.atAntiprompt = t.progress.atAntiprompt :=
    congrArg Template.atAntiprompt htemplate
  refine ⟨more, ⟨?_, hle, ?_, hrecent told h.recent⟩, hqueue, hunread⟩
  · rw [htemplate, hflag]
    exact h.template
  · rw [haccepted, h.accepted, List.append_assoc]

/-- Once the queue is read, a reverse prompt stands at the end of what was said and is queued, if
one is taken to. -/
theorem Says.handed (h : s₀.Says told t) (hi : s₀.config.interactive = true)
    (hs : s₀.engine.spellings = []) (hd : t.turnState.drained = true)
    (hqueryState : u.queryState = t.queryState.handed t.handback)
      (hcalls : u.turnState.calls = t.turnState.calls)
    (hrecent : u.turnState.recent = t.turnState.recent) :
    s₀.Says told u ∧
      (u.progress.atAntiprompt = true → s₀.config.Cued (told ++ u.turnState.unread)) := by
  have hflag : u.progress.atAntiprompt = t.handback.atAntiprompt :=
    congrArg (fun v : QueryState => v.atAntiprompt) hqueryState
  have hqueue : u.turnState.queue = t.turnState.queue ++ if t.handback.injects then t.template.cue
    else [] :=
    congrArg QueryState.queue hqueryState
  have hread : u.turnState.queueRead = t.turnState.queueRead :=
    congrArg QueryState.queueRead hqueryState
  refine ⟨⟨?_, ?_, ?_, ?_⟩, fun hcued => ?_⟩
  · have htemplate : u.template = { t.template with atAntiprompt := t.handback.atAntiprompt } :=
      congrArg QueryState.toTemplate hqueryState
    rw [htemplate, h.template, hflag]
  · rw [hqueue, hread, List.length_append]
    exact Nat.le_add_right_of_le h.read_le
  · rw [TurnState.accepted, hcalls]
    exact h.accepted
  · rw [hrecent]
    exact h.recent
  · have hall : t.turnState.queueRead = t.turnState.queue.length :=
      Nat.le_antisymm h.read_le (of_decide_eq_true hd)
    have hunread : u.turnState.unread = if t.handback.injects then t.template.cue else [] := by
      rw [TurnState.unread, hqueue, hread, hall, List.drop_left]
    rw [hunread, ← h.config]
    rw [← h.config] at hi
    exact cued_of_handback hi (h.spellings.trans hs) h.recent (hflag ▸ hcued)

/-- What is known of reverse prompts while an answer is given that found `n` tokens queued: if one
is taken to be said last, it stands at the end of what was said and is queued, or a typed turn waits
among those. -/
def Cues (s₀ : Session) (waits : Bool) (n : Nat) (t : Session) : Prop :=
  ∃ told, s₀.Says told t ∧ (t.progress.atAntiprompt = true →
    (waits = true ∧ t.turnState.queueRead < n ∧ t.turnState.queue.length = n) ∨
      s₀.config.Cued (told ++ t.turnState.unread))

private theorem Cues.stays (h : s₀.Cues waits n t) (hqueryState : u.queryState = t.queryState)
    (hcalls : u.turnState.calls = t.turnState.calls) (hrecent : u.turnState.recent =
      t.turnState.recent) :
    s₀.Cues waits n u := by
  obtain ⟨told, hsaid, hcued⟩ := h
  refine ⟨told, hsaid.stays hqueryState hcalls hrecent, ?_⟩
  change (u.queryState.atAntiprompt = true →
    (waits = true ∧ u.queryState.queueRead < n ∧ u.queryState.queue.length = n) ∨
      s₀.config.Cued (told ++ u.queryState.queue.drop u.queryState.queueRead))
  rw [hqueryState]
  exact hcued

private theorem queryState_eq (hturnState : u.turnState = t.turnState)
    (htemplate : u.template = t.template) : u.queryState = t.queryState := by
  change QueryState.mk u.template u.turnState.queue u.turnState.queueRead =
    QueryState.mk t.template t.turnState.queue t.turnState.queueRead
  rw [hturnState, htemplate]

/-- A pass that succeeds leaves the reverse prompts at the end. -/
theorem Cues.pass (h : s₀.Cues waits n t) (hi : s₀.config.interactive = true)
    (hs : s₀.engine.spellings = []) {o : Option Outcome} (hpass : pass t = .ok o u) :
    s₀.Cues waits n u := by
  obtain ⟨told, hsaid, hcued⟩ := h
  have hti : t.config.interactive = true := by rwa [hsaid.config]
  rcases pass_eq_ok hpass hti with
    ⟨hturnState, htemplate⟩ | ⟨v, -, hfilled, htemplate, hqueryState, hcalls, hrecent⟩
  · exact Cues.stays ⟨told, hsaid, hcued⟩ (queryState_eq hturnState htemplate)
      (congrArg TurnState.calls hturnState)
      (congrArg TurnState.recent hturnState)
  · obtain ⟨more, hfilled, hqueue, hunread⟩ := hsaid.filled hfilled htemplate
    cases hd : v.turnState.drained with
    | true =>
      rw [if_pos hd] at hqueryState
      obtain ⟨hsaid, hcued⟩ := hfilled.handed hi hs hd hqueryState hcalls hrecent
      exact ⟨told ++ more, hsaid, fun h => .inr (hcued h)⟩
    | false =>
      rw [if_neg (Bool.eq_false_iff.mp hd)] at hqueryState
      refine Cues.stays ⟨told ++ more, hfilled, fun h => ?_⟩ hqueryState hcalls hrecent
      have hflag : v.progress.atAntiprompt = t.progress.atAntiprompt :=
        congrArg Template.atAntiprompt htemplate
      rcases hcued (hflag ▸ h) with ⟨hw, -, hn⟩ | hc
      · have hlt : v.turnState.queueRead < v.turnState.queue.length := by
          simpa [TurnState.drained] using hd
        rw [← hn, ← hqueue]
        exact .inl ⟨hw, hlt, rfl⟩
      · rw [List.append_assoc, hunread hd]
        exact .inr hc

/-- As long as only turns are taken and nothing fails, the reverse prompts stay at the end. -/
theorem successInvariant_cues (hi : s₀.config.interactive = true) (hs : s₀.engine.spellings = [])
    (waits : Bool) (n : Nat) :
    SuccessInvariant (fun r => ∃ room, r = .answer room) (s₀.Cues waits n) where
  showing := by
    rintro t room ⟨told, ⟨htemplate, hle, haccepted, hrecent⟩, hcued⟩
    exact ⟨told, ⟨htemplate, hle, haccepted, hrecent⟩, hcued⟩
  pass t outcome u h hpass := h.pass hi hs hpass
  query := by
    rintro t text room u - ⟨_, ⟨⟩⟩
  reset := by
    rintro t - ⟨_, ⟨⟩⟩

/-- A query says nothing more. -/
theorem Says.query (h : s₀.Says told t) {text : String} (hq : query text t = .ok () u) :
    s₀.Says told u := by
  have hqueryState := query_eq_ok hq
  obtain ⟨-, hheard⟩ := (ends_query_turnState text t).of_ok hq
  have hcalls : u.turnState.calls = t.turnState.calls ++ [.resetSampler] ∧ u.turnState.recent =
    [] := by
    generalize u.turnState = v at hheard
    cases hheard
    exact ⟨rfl, rfl⟩
  have htemplate : u.template = t.template := (congrArg QueryState.toTemplate hqueryState).trans
    (QueryState.toTemplate_heard _ _)
  have hflag : u.progress.atAntiprompt = t.progress.atAntiprompt :=
    congrArg Template.atAntiprompt htemplate
  refine ⟨?_, ?_, ?_, ?_⟩
  · rw [htemplate, hflag]
    exact h.template
  · obtain ⟨rest, hqueue, hread⟩ := t.queryState.heard_cases text
    change u.queryState.queueRead ≤ u.queryState.queue.length
    rw [hqueryState, hqueue]
    have hle : t.queryState.queueRead ≤ t.queryState.queue.length := h.read_le
    rcases hread with ⟨-, hread⟩ | ⟨-, hread⟩ <;> rw [hread] <;>
      simp only [List.length_append] <;> omega
  · rw [TurnState.accepted, hcalls.1, List.filterMap_append, ← h.accepted]
    exact List.append_nil _
  · rw [hcalls.2]
    exact List.nil_suffix

/-- A session in instruct mode, with one token for each character. -/
structure Instructs (s : Session) : Prop where
  /-- User turns are wrapped as instructions. -/
  instruct : s.config.instruct = true
  /-- The user takes turns. -/
  interactive : s.config.interactive = true
  /-- No text has a spelling of its own. -/
  spellings : s.engine.spellings = []
  /-- What is put before the user's turns. -/
  lead : ∃ opening, s.instructLead = opening ++ Token.ofText leadText
  /-- What is put after the user's turns. -/
  tail : s.instructTail = Token.ofText tailText

/-- What is to be read after a typed turn, in instruct mode. -/
theorem unread_of_query (h : s₀.Says told t) (hs : s₀.Instructs) {text : String}
    (hl : 1 < text.utf8ByteSize) (hq : query text t = .ok () u) :
    u.turnState.unread = t.queryState.ahead ++ (Token.ofText s₀.config.inputLead ++
      Token.ofText (s₀.userText text) ++
        (Token.ofText s₀.config.inputTail ++ Token.ofText tailText)) := by
  have hunread := t.queryState.drop_heard h.read_le hl
  have hspell (text : String) : t.queryState.spell text = Token.ofText text :=
    Template.spell_eq (h.spellings.trans hs.spellings) text
  have hconfig : t.queryState.config = s₀.config := h.config
  have htail : t.queryState.tail = Token.ofText tailText := (congrArg Template.tail
    h.template).trans hs.tail
  change u.queryState.queue.drop u.queryState.queueRead = _
  rw [query_eq_ok hq, hunread, Template.said, Template.after, hspell, hspell, hspell, hconfig,
    if_pos hs.instruct, htail]
  rfl

/-- In front of a typed turn stands an instruction, or a reverse prompt if one is taken to be said
last and stands at the end. -/
theorem Says.introduces (h : s₀.Says told t) (hs : s₀.Instructs)
    (hcued : t.progress.atAntiprompt = true → s₀.config.Cued (told ++ t.turnState.unread)) :
    s₀.config.Introduces t.progress.atAntiprompt (told ++ t.queryState.ahead) := by
  have hleads : t.queryState.leads = !t.progress.atAntiprompt := by
    change (t.config.instruct && !t.progress.atAntiprompt) = _
    rw [h.config, hs.instruct, Bool.true_and]
  rw [QueryState.ahead, hleads]
  cases hat : t.progress.atAntiprompt with
  | false =>
    obtain ⟨opening, hopening⟩ := hs.lead
    have hlead : t.queryState.lead = s₀.instructLead := congrArg Template.lead h.template
    rw [Bool.not_false, if_pos rfl, hlead, hopening, ← List.append_assoc]
    exact Config.introduces_lead _ _
  | true =>
    have hends := hcued hat
    rw [Bool.not_true, if_neg Bool.false_ne_true, ← List.append_assoc]
    apply Config.Cued.introduces
    rw [← h.config] at hends ⊢
    exact Template.cued_opening (v := t.template) hends

/-- A query leaves the reverse prompts at the end, or the turn that it queues waits. -/
theorem cues_of_query (h : s₀.Cues waits t.turnState.queue.length t) (hs : s₀.Instructs)
    {text : String}
    (hq : query text t = .ok () u) :
    s₀.Cues (waits || 1 < text.utf8ByteSize) u.turnState.queue.length u := by
  obtain ⟨told, hsaid, hcued⟩ := h
  refine ⟨told, hsaid.query hq, fun hflag => ?_⟩
  by_cases hl : 1 < text.utf8ByteSize
  · have hlt : u.turnState.queueRead < u.turnState.queue.length := by
      have hne : u.turnState.unread ≠ [] := by
        rw [unread_of_query hsaid hs hl hq]
        simp [Token.ofText, tailText]
      rw [← Nat.not_le]
      exact fun hge => hne (List.drop_eq_nil_of_le hge)
    exact .inl ⟨by simp [hl], hlt, rfl⟩
  · have hqueryState : u.queryState = t.queryState.queued t.queryState.opening := by
      rw [query_eq_ok hq, QueryState.heard, if_neg hl]
    have hat : t.progress.atAntiprompt = true := by
      rw [← hflag]
      exact (congrArg (fun v : QueryState => v.atAntiprompt) hqueryState).symm
    have hqueue : u.turnState.queue = t.turnState.queue ++ t.queryState.opening :=
      congrArg QueryState.queue hqueryState
    have hread : u.turnState.queueRead = t.turnState.queueRead :=
      congrArg QueryState.queueRead hqueryState
    rcases hcued hat with ⟨hw, hlt, -⟩ | hc
    · refine .inl ⟨by simp [hw], ?_, rfl⟩
      rw [hread, hqueue, List.length_append]
      exact Nat.lt_add_right _ hlt
    · right
      have hunread : u.turnState.unread = t.turnState.unread ++ t.queryState.opening := by
        rw [TurnState.unread, hqueue, hread, List.drop_append_of_le_length hsaid.read_le]
        rfl
      rw [hunread, ← List.append_assoc]
      rw [← hsaid.config] at hc ⊢
      exact Template.cued_opening (v := t.template) hc

/-- Whether a typed turn waits to be read, once a request was served. -/
def waitsAfter (s : Session) (waits : Bool) : Request → Bool
  | .answer room =>
    waits && (s.serve (.answer room)).progress.queueRead < s.progress.queue.length
  | .query text _ => waits || 1 < text.utf8ByteSize
  | .reset => waits

/-- Whether a typed turn waits to be read, once requests were served: no turn taken since has read
all that was queued. -/
def turnWaits (s : Session) (waits : Bool) : List Request → Bool
  | [] => waits
  | r :: rs => (s.serve r).turnWaits (s.waitsAfter waits r) rs

private theorem Cues.serve (h : s₀.Cues waits s.turnState.queue.length s) (hs : s₀.Instructs)
    {r : Request} (hreset : r ≠ .reset) (hr : s.Succeeds r) :
    s₀.Cues (s.waitsAfter waits r) (s.serve r).turnState.queue.length (s.serve r) := by
  cases r with
  | answer room =>
    obtain ⟨outcome, t, ht⟩ := hr
    have hserve : s.serve (.answer room) = t := by rw [Session.serve, ht]; rfl
    have hI := successInvariant_cues hs.interactive hs.spellings waits s.turnState.queue.length
    obtain ⟨told, hsaid, hcued⟩ := hI.answer (hI.showing s room h) ht
    rw [hserve, waitsAfter, hserve]
    refine ⟨told, hsaid, fun hflag => (hcued hflag).imp_left ?_⟩
    rintro ⟨hw, hlt, hn⟩
    exact ⟨Bool.and_eq_true_iff.mpr ⟨hw, decide_eq_true hlt⟩, hn ▸ hlt, rfl⟩
  | query text room =>
    obtain ⟨t, ht⟩ := hr
    have hserve : s.serve (.query text room) = t := by rw [Session.serve, ht]; rfl
    rw [hserve]
    have hI := successInvariant_cues hs.interactive hs.spellings waits s.turnState.queue.length
    exact cues_of_query (t := s.showing room) (hI.showing s room h) hs ht
  | reset => exact absurd rfl hreset

private theorem Cues.serveAll (h : s₀.Cues waits s.turnState.queue.length s) (hs : s₀.Instructs)
    {requests : List Request} (hreset : .reset ∉ requests) (hall : s.AllAllowed Succeeds requests) :
    s₀.Cues (s.turnWaits waits requests) (s.serveAll requests).turnState.queue.length
      (s.serveAll requests) := by
  induction requests generalizing s waits with
  | nil => exact h
  | cons r rs ih =>
    obtain ⟨hr, hrs⟩ := not_or.mp (mt List.mem_cons.mpr hreset)
    exact ih (h.serve hs (Ne.symm hr) hall.1) hrs hall.2

/-- What is known of a session that begins in instruct mode. -/
theorem instructs_of_start {now : Nat} {config : Config} {engine : Engine} {directory : Directory}
    {w : Workbench} (h : Session.start now config engine directory = .ok s w)
    (hi : config.instruct = true) (hs : engine.spellings = []) :
    s.Instructs ∧ s.progress.atAntiprompt = false ∧ s.config.inputLead = config.inputLead ∧
      s.config.inputTail = config.inputTail := by
  obtain ⟨hresolve, opening, htemplate⟩ := template_of_start h
  obtain ⟨hinstruct, hinteractive, hlead, htail⟩ := Config.resolve_eq_ok_of_instruct hresolve hi
  have hspell (text : String) : engine.spell text = Token.ofText text := by
    rw [Engine.spell, hs]
    rfl
  rw [hspell, hspell] at htemplate
  exact ⟨⟨hinstruct, hinteractive, (congrArg Template.spellings htemplate).trans hs,
    ⟨opening, congrArg Template.lead htemplate⟩, congrArg Template.tail htemplate⟩,
    congrArg Template.atAntiprompt htemplate, hlead, htail⟩

private theorem Says.acceptedSince (h : s₀.Says told t) : s₀.acceptedSince t = told := by
  rw [Session.acceptedSince, accepted_eq, accepted_eq]
  change t.turnState.accepted.drop s₀.turnState.accepted.length = told
  rw [h.accepted, List.drop_left]

/-- In instruct mode, with one token for each character and no text of the configuration in front of
the user's turns, the marker of a response follows every typed turn, as long as nothing fails and
the dialogue does not begin anew. What was said and is queued in front of the turn ends with the
marker of an instruction, or, where a reverse prompt is taken to be said last, with another one or
with the end of a generation behind which it does not show, unless a typed turn still waits to be
read then. -/
theorem typed_turn_follows_instruction {now : Nat} {config : Config} {engine : Engine}
    {directory : Directory} {s t : Session} {w : Workbench} {requests : List Request}
    {text : String} {room : Option Nat}
    (h : Session.start now config engine directory = .ok s w) (hi : config.instruct = true)
    (hlead : config.inputLead = "") (hs : engine.spellings = []) (hreset : .reset ∉ requests)
    (hall : s.AllAllowed Succeeds requests) (hl : 1 < text.utf8ByteSize)
    (hq : query text ((s.serveAll requests).showing room) = .ok () t) :
    ∃ ahead,
      t.progress.unread = ahead ++ Token.ofText (s.userText text) ++
        (Token.ofText config.inputTail ++ Token.ofText tailText) ∧
      (((s.serveAll requests).progress.atAntiprompt = true →
          s.turnWaits false requests = false) →
        s.config.Introduces (s.serveAll requests).progress.atAntiprompt
          (s.acceptedSince t ++ ahead)) := by
  obtain ⟨hinstructs, hflag, hlead', htail'⟩ := instructs_of_start h hi hs
  have hbegun := start_eq_ok h
  have hread : s.progress.queueRead = 0 := congrArg (·.progress.queueRead) hbegun.anew.symm
  have hbegins : s.Cues false s.turnState.queue.length s := by
    refine ⟨[], ⟨rfl, ?_, (List.append_nil _).symm, ?_⟩, fun hat => ?_⟩
    · change s.progress.queueRead ≤ _
      rw [hread]
      exact Nat.zero_le _
    · exact ⟨[], hbegun.recent⟩
    · rw [hflag] at hat
      cases hat
  obtain ⟨told, ⟨htemplate, hle, haccepted, hrecent⟩, hcued⟩ :=
    hbegins.serveAll hinstructs hreset hall
  have hsaid : s.Says told ((s.serveAll requests).showing room) :=
    ⟨htemplate, hle, haccepted, hrecent⟩
  refine ⟨(s.serveAll requests).queryState.ahead, ?_, fun hwaits => ?_⟩
  · have hunread := unread_of_query hsaid hinstructs hl hq
    rw [hlead', htail', hlead] at hunread
    rw [List.append_assoc]
    exact hunread
  · rw [(hsaid.query hq).acceptedSince]
    apply hsaid.introduces hinstructs
    intro hat
    rcases hcued hat with ⟨hw, -⟩ | hc
    · exact absurd hw (Bool.eq_false_iff.mp (hwaits hat))
    · exact hc

/-- A turn that follows a reverse prompt still queued is led in by that. -/
theorem typed_turn_follows_queued_reverse_prompt :
    ∃ s w t ahead,
      Session.start 0
        { prompt := "ab", batchSize := 2, instruct := true, antiprompts := ["B:"] }
        { contextSize := 96, script := Token.ofText "ok" ++ [Token.eos] } {} = .ok s w ∧
      query "yo" ((s.serveAll [.answer none, .query "hi" none, .answer none]).showing none) =
        .ok () t ∧
      t.progress.unread = ahead ++ Token.ofText (s.userText "yo") ++
        (Token.ofText "" ++ Token.ofText tailText) ∧
      s.config.Introduces true (s.acceptedSince t ++ ahead) := by
  obtain ⟨s, w, h, htest⟩ := exists_of_gives
    (fun s : Session =>
      decide (s.AllAllowed Succeeds [.answer none, .query "hi" none, .answer none] ∧
        (s.serveAll [.answer none, .query "hi" none, .answer none]).Succeeds (.query "yo" none) ∧
        (s.serveAll [.answer none, .query "hi" none, .answer none]).progress.atAntiprompt = true ∧
        s.turnWaits false [.answer none, .query "hi" none, .answer none] = false))
    (r := Session.start 0
      { prompt := "ab", batchSize := 2, instruct := true, antiprompts := ["B:"] }
      { contextSize := 96, script := Token.ofText "ok" ++ [Token.eos] } {}) (by decide +kernel)
  obtain ⟨hall, ⟨t, ht⟩, hat, hwaits⟩ := of_decide_eq_true htest
  obtain ⟨ahead, hunread, hintroduces⟩ :=
    typed_turn_follows_instruction h rfl rfl rfl (by simp) hall (by decide) ht
  rw [hat] at hintroduces
  exact ⟨s, w, t, ahead, h, ht, hunread, hintroduces fun _ => hwaits⟩

/-- Behind another reverse prompt a typed turn brings no marker along. -/
theorem typed_turn_without_instruction :
    ∃ s w, Session.start 0
        { prompt := "ab", instruct := true, antiprompts := ["B:"] }
        { contextSize := 96, script := Token.ofText "B:" } {} = .ok s w ∧
      s.AllAllowed Succeeds
        [.answer none, .query "hi" none, .answer none, .query "yo" none] ∧
      let t := s.serveAll [.answer none, .query "hi" none, .answer none, .query "yo" none]
      t.progress.unread = Token.ofText "yo" ++ Token.ofText tailText ∧
        ¬ Config.instructAntiprompt.toList <:+ (Token.render (s.acceptedSince t)).toList := by
  obtain ⟨s, w, h, htest⟩ := exists_of_gives
    (fun s : Session =>
      let t := s.serveAll [.answer none, .query "hi" none, .answer none, .query "yo" none]
      decide (s.AllAllowed Succeeds
          [.answer none, .query "hi" none, .answer none, .query "yo" none] ∧
        t.progress.unread = Token.ofText "yo" ++ Token.ofText tailText ∧
        ¬ Config.instructAntiprompt.toList <:+ (Token.render (s.acceptedSince t)).toList))
    (r := Session.start 0
      { prompt := "ab", instruct := true, antiprompts := ["B:"] }
      { contextSize := 96, script := Token.ofText "B:" } {}) (by decide +kernel)
  exact ⟨s, w, h, of_decide_eq_true htest⟩

end Session

end Dialogue
