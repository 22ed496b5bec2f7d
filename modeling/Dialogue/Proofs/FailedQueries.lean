import Dialogue.Proofs.Notices
import Dialogue.Proofs.Queuing
import Dialogue.Proofs.Requests
import Dialogue.Proofs.UnfailingTurns
/-!
# Queries that fail

A query fails in the engine only where a text cannot be spelled. By then it has queued its preamble:
the token that opens a sequence, if that is asked for, and in instruct mode its instruction, in
front of which everything was passed over. Nothing else has changed, and nothing of what the user
said is queued. So a query that is repeated queues what was said once, but its preamble twice.
-/

namespace Dialogue

open Effect

namespace Template

/-- What a query queues in front of the turn before it spells any text. -/
def preamble (v : Template) : List Token := v.opening ++ if v.leads then v.lead else []

/-- The user's turn, with the texts put around it. -/
def turn (v : Template) (text : String) : List Token :=
  v.spell v.config.inputLead ++ v.said text ++ v.after

end Template

namespace QueryState

/-- The query state with the preamble of a turn queued. -/
def introduced (v : QueryState) : QueryState := (v.queued v.opening).led

/-- The preamble is queued, and the queue is passed over if it is an instruction's. -/
theorem introduced_eq (v : QueryState) : v.introduced =
    { v with
      queue := v.queue ++ v.preamble
      queueRead := if v.leads then v.queue.length + v.opening.length else v.queueRead } := by
  rw [introduced, led_eq]
  simp only [queued, Template.preamble, List.append_assoc, List.length_append]
  rfl

/-- A text that is more than a character is queued behind the preamble. -/
theorem heard_of_typed (v : QueryState) {text : String} (h : 1 < text.utf8ByteSize) :
    v.heard text = v.introduced.queued (v.turn text) := by
  rw [heard, if_pos h, turned, ← introduced, Template.turn]
  rfl

/-- A turn that is heard behind the preamble of another one is queued with its own. -/
theorem heard_introduced (v : QueryState) {text : String} (h : 1 < text.utf8ByteSize) :
    (v.introduced.heard text).queue =
        v.queue ++ v.preamble ++ v.preamble ++ v.turn text ∧
      (v.introduced.heard text = v.heard text ↔ v.preamble = []) := by
  have hheard : v.introduced.heard text =
      { v with
        queue := v.queue ++ v.preamble ++ v.preamble ++ v.turn text
        queueRead := if v.leads then (v.queue ++ v.preamble).length + v.opening.length
          else v.queueRead } := by
    rw [heard_of_typed _ h, introduced_eq v, introduced_eq]
    dsimp only [queued]
    congr 1
    split <;> rfl
  rw [hheard, heard_of_typed _ h, introduced_eq]
  refine ⟨rfl, fun heq => ?_, fun hnil => ?_⟩
  · have hlength := congrArg (fun u : QueryState => u.queue.length) heq
    simp only [queued, List.length_append] at hlength
    exact List.length_eq_zero_iff.mp (by omega)
  · simp [queued, hnil]

end QueryState

namespace Session

variable {s t : Session} {text : String} {cause : EngineError}

/-- The session but for what it has shown and reported, and for the log of the calls. -/
def withoutLogs (s : Session) : Session :=
  { s with journal := #[], output := {}, engine := { s.engine with calls := #[] } }

/-- The session with another query state. -/
def placing (s : Session) (v : QueryState) : Session :=
  { s with progress := { s.progress with queue := v.queue, queueRead := v.queueRead } }

/-- The texts that a query has to spell. -/
def turnTexts (s : Session) (text : String) : List String :=
  [s.config.inputLead, s.userText text, s.config.inputTail]

/-! ### Failing -/

private theorem queryState_of_withoutLogs (h : t.withoutLogs = s.withoutLogs) : t.queryState =
    s.queryState := by
  change t.withoutLogs.queryState = s.withoutLogs.queryState
  rw [h]

private theorem withoutLogs_placing (h : t.withoutLogs = s.withoutLogs) (v : QueryState) :
    (t.placing v).withoutLogs = (s.placing v).withoutLogs := by
  change (t.withoutLogs.placing v).withoutLogs = (s.withoutLogs.placing v).withoutLogs
  rw [h]

private theorem ends_tokenize_withoutLogs (text : String) (special : Bool) (s : Session) :
    Ends (call (Engine.tokenize text false special)) s fun r t => t.withoutLogs = s.withoutLogs ∧
      ∀ e, r = .error e →
        e = .engine (.tokenizer "scripted failure") ∧ text ∈ s.engine.refused := by
  rw [ends_call]
  simp only [Engine.tokenize, Engine.note, ends_bind, ends_modify, ends_get, ends_failIf,
    ends_pure]
  split
  · next h =>
    refine ⟨rfl, ?_⟩
    rintro _ ⟨⟩
    exact ⟨rfl, of_decide_eq_true h⟩
  · refine ⟨rfl, ?_⟩
    rintro _ ⟨⟩

private theorem keeps_withoutLogs_tokenize (text : String) (special : Bool) :
    Keeps withoutLogs (call (Engine.tokenize text false special)) := fun s =>
  ((ends_tokenize_withoutLogs text special s).mono fun _ _ h => h.1).left

private theorem tokenize_eq_error {special : Bool}
    (h : call (Engine.tokenize text false special) s = .error (.engine cause) t) :
    t.withoutLogs = s.withoutLogs ∧ cause = .tokenizer "scripted failure" ∧
      text ∈ s.withoutLogs.engine.refused := by
  obtain ⟨ht, herror⟩ := (ends_iff_of_eq_error h).mp (ends_tokenize_withoutLogs text special s)
  obtain ⟨hcause, hrefused⟩ := herror _ rfl
  cases hcause
  exact ⟨ht, rfl, hrefused⟩

private theorem keeps_withoutLogs_write (text : String) : Keeps withoutLogs (write text) :=
  .bind .get fun _ => .bind (.modify fun _ => rfl) fun _ => .failIf _ _

private theorem write_ne_engine_error : write text s ≠ .error (.engine cause) t := by
  intro h
  rcases ((ends_iff_of_eq_error h).mp (ends_write text s)).2 with h | ⟨h, -⟩ <;> cases h

/-- The instruction is queued in its place, and that cannot fail. -/
theorem queueInstructLead_eq (s : Session) :
    queueInstructLead s = .ok () (s.placing s.queryState.led) := by
  change onlyIf s.queryState.leads _ s = _
  unfold QueryState.led
  cases s.queryState.leads <;> rfl

private theorem placing_queryState (s : Session) : s.placing s.queryState = s := rfl

private theorem queryState_placing_introduced (s : Session) :
    (s.placing s.queryState.introduced).queryState = s.queryState.introduced := by
  rw [QueryState.introduced_eq]
  rfl

/-- Queuing the user's turn fails in the engine where a text cannot be spelled. By then the
instruction is queued. -/
theorem queueInput_eq_error (h : queueInput text s = .error (.engine cause) t) :
    t.withoutLogs = (s.placing s.queryState.led).withoutLogs ∧ cause = .tokenizer
      "scripted failure" ∧
      ∃ x ∈ s.turnTexts text, x ∈ s.engine.refused := by
  rcases bind_eq_error h with h | ⟨_, _, h₀, h⟩
  · cases h
  cases h₀
  rcases bind_eq_error h with h | ⟨_, s₁, h₁, h⟩
  · cases write_ne_engine_error h
  rcases bind_eq_error h with h | ⟨_, s₂, h₂, h⟩
  · rw [queueInstructLead_eq] at h
    cases h
  rw [queueInstructLead_eq] at h₂
  cases h₂
  have hs₁ : s₁.withoutLogs = s.withoutLogs := (keeps_withoutLogs_write _).of_ok h₁
  have hs₂ : (s₁.placing s₁.queryState.led).withoutLogs =
    (s.placing s.queryState.led).withoutLogs := by
    rw [queryState_of_withoutLogs hs₁]
    exact withoutLogs_placing hs₁ _
  rcases bind_eq_error h with h | ⟨lead, s₃, h₃, h⟩
  · obtain ⟨ht, hcause, hrefused⟩ := tokenize_eq_error h
    rw [hs₂] at ht hrefused
    exact ⟨ht, hcause, _, .head _, hrefused⟩
  have hs₃ := ((keeps_withoutLogs_tokenize _ _).of_ok h₃).trans hs₂
  rcases bind_eq_error h with h | ⟨input, s₄, h₄, h⟩
  · obtain ⟨ht, hcause, hrefused⟩ := tokenize_eq_error h
    rw [hs₃] at ht hrefused
    exact ⟨ht, hcause, _, .tail _ (.head _), hrefused⟩
  have hs₄ := ((keeps_withoutLogs_tokenize _ _).of_ok h₄).trans hs₃
  rcases bind_eq_error h with h | ⟨tail, s₅, h₅, h⟩
  · obtain ⟨ht, hcause, hrefused⟩ := tokenize_eq_error h
    rw [hs₄] at ht hrefused
    exact ⟨ht, hcause, _, .tail _ (.tail _ (.head _)), hrefused⟩
  rcases bind_eq_error h with h | ⟨_, s₆, h₆, h⟩
  · cases h
  cases hinstruct : s.config.instruct <;> rw [hinstruct] at h <;> cases h

private theorem onlyIf_queueBos_withoutLogs (c : Bool) (h : onlyIf c queueBos s = .ok () t) :
    t.withoutLogs = (s.placing
      (s.queryState.queued (if c then [Token.bos] else []))).withoutLogs := by
  cases c <;> cases h
  · rw [if_neg Bool.false_ne_true, QueryState.queued_nil, placing_queryState]
  · rfl

/-- A query fails in the engine where a text cannot be spelled. By then its preamble is queued. -/
theorem query_eq_error (h : query text s = .error (.engine cause) t) :
    t.withoutLogs = (s.placing s.queryState.introduced).withoutLogs ∧ 1 < text.utf8ByteSize ∧
      cause = .tokenizer "scripted failure" ∧ ∃ x ∈ s.turnTexts text, x ∈ s.engine.refused := by
  rcases bind_eq_error h with h | ⟨_, _, h₀, h⟩
  · cases h
  cases h₀
  rcases bind_eq_error h with h | ⟨_, s₁, h₁, h⟩
  · cases hinstruct : s.config.instruct <;> rw [hinstruct] at h
    · cases h
    · cases write_ne_engine_error h
  have hs₁ : s₁.withoutLogs = s.withoutLogs := (Keeps.onlyIf _ (keeps_withoutLogs_write _)).of_ok h₁
  rcases bind_eq_error h with h | ⟨_, s₂, h₂, h⟩
  · cases hbos : s.config.inputBos <;> rw [hbos] at h <;> cases h
  have hs₂ : s₂.withoutLogs =
    (s.placing (s.queryState.queued s.queryState.opening)).withoutLogs := by
    rw [onlyIf_queueBos_withoutLogs _ h₂, queryState_of_withoutLogs hs₁]
    exact withoutLogs_placing hs₁ _
  rcases bind_eq_error h with h | ⟨_, s₃, h₃, h⟩
  · cases write_ne_engine_error h
  have hs₃ := ((keeps_withoutLogs_write _).of_ok h₃).trans hs₂
  split at h
  · next hl =>
    rcases bind_eq_error h with h | ⟨_, s₄, h₄, h⟩
    · obtain ⟨ht, hcause, x, hx, hrefused⟩ := queueInput_eq_error h
      have hqueryState : s₃.queryState = s.queryState.queued s.queryState.opening :=
        queryState_of_withoutLogs hs₃
      rw [hqueryState] at ht
      refine ⟨ht.trans (withoutLogs_placing hs₃ _), hl, hcause, x, ?_, ?_⟩
      · have hconfig : s₃.config = s.config := congrArg (·.config) hs₃
        rwa [turnTexts, userText, hconfig] at hx
      · have hrefuses : s₃.engine.refused = s.engine.refused := congrArg (·.engine.refused) hs₃
        rwa [hrefuses] at hrefused
    · cases h
  · cases h

/-! ### Taking the turn again -/

/-- The session with an output that takes everything, and texts that cannot be spelled. -/
def refusing (s : Session) (refused : List String) : Session :=
  { s.showing none with engine := { s.engine with refused } }

/-- Whether the output takes everything, and the texts of a turn can be spelled. -/
structure TakesTurn (c : Config) (text : String) (s : Session) : Prop where
  /-- It has this configuration. -/
  config : s.config = c
  /-- The output takes everything. -/
  room : s.output.room = none
  /-- The texts can be spelled. -/
  spells : ∀ x ∈ s.turnTexts text, x ∉ s.engine.refused

section

variable {c : Config}

private theorem unfailing_advance_turn (f : Progress → Progress) :
    Unfailing (TakesTurn c text) (advance f) := .modify fun _ h => ⟨h.config, h.room, h.spells⟩

private theorem unfailing_report_turn (e : Event) : Unfailing (TakesTurn c text) (report e) :=
  .modify fun _ h => ⟨h.config, h.room, h.spells⟩

private theorem unfailing_write_turn (shown : String) :
    Unfailing (TakesTurn c text) (write shown) := by
  intro s hs
  have htakes : s.output.takes shown = true := by
    rw [Output.takes, hs.room]
    rfl
  simp only [write, ends_bind, ends_get, ends_modify, ends_failIf, htakes, Bool.not_true,
    Bool.false_eq_true, if_false]
  refine ⟨⟨(), trivial⟩, hs.config, ?_, hs.spells⟩
  rw [Output.write, hs.room]

private theorem unfailing_tokenize_turn {x : String} (special : Bool)
    (hx : ∀ s, TakesTurn c text s → x ∈ s.turnTexts text) :
    Unfailing (TakesTurn c text) (call (Engine.tokenize x false special)) := by
  intro s hs
  simp only [ends_call, Engine.tokenize, Engine.note, ends_bind, ends_modify, ends_get, ends_failIf,
    ends_pure, decide_eq_false (hs.spells x (hx s hs)), Bool.false_eq_true, if_false]
  exact ⟨⟨_, rfl⟩, hs.config, hs.room, hs.spells⟩

private theorem unfailing_queueInput : Unfailing (TakesTurn c text) (queueInput text) := by
  refine .reads fun s hs => ?_
  have htexts {x : String} (hx : x ∈ s.turnTexts text) (u : Session) (hu : TakesTurn c text u) :
      x ∈ u.turnTexts text := by
    rwa [turnTexts, userText, hu.config, ← hs.config]
  have hqueues (tokens : List Token) : Unfailing (TakesTurn c text) (queueTokens tokens) :=
    unfailing_advance_turn _
  have hleads : Unfailing (TakesTurn c text) queueInstructLead :=
    .get_bind fun _ => .onlyIf _ (.bind (unfailing_advance_turn _) fun _ => hqueues _)
  have hrecords (start : Nat) : Unfailing (TakesTurn c text) (recordQueued start) :=
    .modify fun _ h => ⟨h.config, h.room, h.spells⟩
  have hbody : Unfailing (TakesTurn c text) (do
      write s.config.inputTail
      queueInstructLead
      let lead ← call (Engine.tokenize s.config.inputLead false true)
      let input ← call (Engine.tokenize (s.userText text) false false)
      let tail ← call (Engine.tokenize s.config.inputTail false true)
      queueTokens (lead ++ input ++ tail)
      onlyIf s.config.instruct (queueTokens s.instructTail)
      recordQueued s.progress.queue.length
      advance fun p => { p with remaining := p.remaining - input.length }
      report (.inputQueued input.length (← get).progress.remaining)) := by
    apply Unfailing.bind (unfailing_write_turn _)
    intro _
    apply Unfailing.bind hleads
    intro _
    apply Unfailing.bind (unfailing_tokenize_turn _ (htexts (.head _)))
    intro _
    apply Unfailing.bind (unfailing_tokenize_turn _ (htexts (.tail _ (.head _))))
    intro _
    apply Unfailing.bind (unfailing_tokenize_turn _ (htexts (.tail _ (.tail _ (.head _)))))
    intro _
    apply Unfailing.bind (hqueues _)
    intro _
    apply Unfailing.bind (.onlyIf _ (hqueues _))
    intro _
    apply Unfailing.bind (hrecords _)
    intro _
    apply Unfailing.bind (unfailing_advance_turn _)
    intro _
    exact .get_bind fun _ => unfailing_report_turn _
  exact hbody s hs

/-- A query cannot fail if all of its texts can be spelled. -/
theorem unfailing_query : Unfailing (TakesTurn c text) (query text) := by
  have hends : Unfailing (TakesTurn c text) (do
      advance ({ · with echo := false })
      call Engine.resetSampler
      advance fun p => { p.forget with userTurn := false }
      enter .processingQueue) := by
    refine .bind (unfailing_advance_turn _) fun _ => ?_
    refine .bind (fun s h => ⟨⟨(), rfl⟩, h.config, h.room, h.spells⟩) fun _ => ?_
    exact .bind (unfailing_advance_turn _) fun _ => .modify fun _ h => ⟨h.config, h.room, h.spells⟩
  refine .get_bind fun s => ?_
  refine .bind (.onlyIf _ (unfailing_write_turn _)) fun _ => ?_
  refine .bind (.onlyIf _ (.bind (unfailing_report_turn _) fun _ => unfailing_advance_turn _))
    fun _ => ?_
  refine .bind (unfailing_write_turn _) fun _ => ?_
  refine .ite ?_ ?_
  · exact .bind unfailing_queueInput fun _ => hends
  · exact .bind (unfailing_report_turn _) fun _ => hends

end

/-- A query that fails in the engine has queued its preamble, in front of which an instruction
passes over everything, and has changed nothing else: not the draws that are left, nor whose turn it
is, nor the tokens accepted last, nor the transcript. It leaves no trace just if the preamble is
empty and there was nothing to pass over. Once the texts can be spelled the query can be repeated.
What the user said is queued once then, but behind the preamble twice; so the turn is queued as it
would have been just if the preamble is empty. -/
theorem failed_query_leaves_preamble (h : query text s = .error (.engine cause) t) :
    t.progress =
        { s.progress with
          queue := s.progress.queue ++ s.queryState.preamble
          queueRead := if s.queryState.leads then s.progress.queue.length +
            s.queryState.opening.length
            else s.progress.queueRead } ∧
      t.withoutLogs = { s.withoutLogs with progress := t.progress } ∧
      (t.progress = s.progress ↔ s.queryState.preamble = [] ∧
        (s.queryState.leads = true → s.progress.queueRead = s.progress.queue.length)) ∧
      ∀ refused, (∀ x ∈ s.turnTexts text, x ∉ refused) →
        ∃ u, query text (t.refusing refused) = .ok () u ∧
          u.progress.queue =
            s.progress.queue ++ s.queryState.preamble ++ s.queryState.preamble ++
              s.queryState.turn text ∧
          (u.queryState = s.queryState.heard text ↔ s.queryState.preamble = []) := by
  obtain ⟨ht, hl, -⟩ := query_eq_error h
  have hp : t.progress =
      { s.progress with
        queue := s.progress.queue ++ s.queryState.preamble
        queueRead := if s.queryState.leads then s.progress.queue.length +
          s.queryState.opening.length
          else s.progress.queueRead } := by
    have hplaced : t.progress = (s.placing s.queryState.introduced).progress :=
      congrArg (·.progress) ht
    rw [hplaced, QueryState.introduced_eq]
    rfl
  refine ⟨hp, ?_, ?_, fun refused hrefused => ?_⟩
  · rw [ht, ← show (s.placing s.queryState.introduced).progress = t.progress from
      (congrArg (·.progress) ht).symm]
    rfl
  · constructor
    · intro heq
      have hqueue := congrArg Progress.queue (hp.symm.trans heq)
      have hread := congrArg Progress.queueRead (hp.symm.trans heq)
      have hnil : s.queryState.preamble = [] := by simpa using hqueue
      refine ⟨hnil, fun hleads => ?_⟩
      have hopening : s.queryState.opening = [] := (List.append_eq_nil_iff.mp hnil).1
      simpa [hleads, hopening] using hread.symm
    · rintro ⟨hnil, hread⟩
      have hopening : s.queryState.opening = [] := (List.append_eq_nil_iff.mp hnil).1
      have hsame : (if s.queryState.leads then s.progress.queue.length + s.queryState.opening.length
          else s.progress.queueRead) = s.progress.queueRead := by
        split
        · next hleads => rw [hopening, hread hleads, List.length_nil, Nat.add_zero]
        · rfl
      rw [hp, hsame, hnil, List.append_nil]
  -- The query that is repeated begins with the preamble queued, and queues it once more.
  · have hqueryState : t.queryState = s.queryState.introduced :=
      (queryState_of_withoutLogs ht).trans (queryState_placing_introduced s)
    have hconfig : t.config = s.config := congrArg (·.config) ht
    have htakes : (t.refusing refused).TakesTurn t.config text := by
      refine ⟨rfl, rfl, ?_⟩
      change ∀ x ∈ t.turnTexts text, x ∉ refused
      rwa [turnTexts, userText, hconfig]
    obtain ⟨_, u, hu, -⟩ :=
      ((unfailing_query _ htakes).mono fun r u ⟨⟨a, ha⟩, hP⟩ => ⟨a, ha, hP⟩).exists_eq_ok
    have hheard : u.queryState = s.queryState.introduced.heard text := by
      rw [← hqueryState]
      have hqueryStates : u.queryState = (t.refusing refused).queryState.heard text :=
        query_eq_ok hu
      exact hqueryStates
    obtain ⟨hqueue, hiff⟩ := s.queryState.heard_introduced hl
    refine ⟨u, hu, (congrArg QueryState.queue hheard).trans hqueue, ?_⟩
    rw [hheard]
    exact hiff

/-- Outside instruct mode, without a token that opens a sequence, a query can be repeated as if it
had not failed. -/
theorem failed_query_leaves_preamble_of_bare_turn :
    ∃ s w cause t,
      start 0 { prompt := "ab", interactive := true } { refused := ["hi"] } {} = .ok s w ∧
      query "hi" s = .error (.engine cause) t ∧ t.progress = s.progress ∧
      ∃ u, query "hi" (t.refusing []) = .ok () u ∧ u.queryState = s.queryState.heard "hi" ∧
        u.progress.queue = Token.ofText "abhi" := by
  obtain ⟨s, w, h, htest⟩ := exists_of_gives
    (fun s : Session => decide (
      failure? (query "hi" s) = some (.engine (.tokenizer "scripted failure")) ∧
      s.queryState.preamble = [] ∧ s.queryState.leads = false ∧
      s.progress.queue = Token.ofText "ab" ∧
      s.queryState.turn "hi" = Token.ofText "hi"))
    (r := start 0 { prompt := "ab", interactive := true } { refused := ["hi"] } {})
    (by decide +kernel)
  obtain ⟨hfails, hnil, hleads, hqueue, hturn⟩ := of_decide_eq_true htest
  have hq := eq_error_of_failure? hfails
  obtain ⟨-, -, htrace, hagain⟩ := failed_query_leaves_preamble hq
  obtain ⟨u, hu, hqueued, hqueryState⟩ := hagain [] (fun _ _ => List.not_mem_nil)
  refine ⟨s, w, _, _, h, hq, htrace.mpr ⟨hnil, ?_⟩, u, hu, hqueryState.mpr hnil, ?_⟩
  · rw [hleads]
    exact fun h => absurd h Bool.false_ne_true
  · rw [hqueued, hnil, hqueue, hturn]
    rfl

/-- A query that failed has queued the token that opens a sequence, and one that is repeated queues
it again. In instruct mode it has passed over the prompt. -/
theorem failed_query_leaves_trace :
    (∃ s w cause t u,
      start 0 { prompt := "ab", interactive := true, inputBos := true } { refused := ["hi"] } {} =
        .ok s w ∧
      query "hi" s = .error (.engine cause) t ∧ query "hi" (t.refusing []) = .ok () u ∧
      s.progress.queue = Token.ofText "ab" ∧
      t.progress.queue = Token.ofText "ab" ++ [Token.bos] ∧
      u.progress.queue = Token.ofText "ab" ++ [Token.bos, Token.bos] ++ Token.ofText "hi") ∧
    ∃ s w cause t,
      start 0 { prompt := "ab", instruct := true } { refused := ["hi"] } {} = .ok s w ∧
      query "hi" s = .error (.engine cause) t ∧ s.progress.queueRead = 0 ∧
      t.progress.queueRead = s.progress.queue.length ∧
      t.progress.queue = s.progress.queue ++ s.instructLead := by
  constructor
  · obtain ⟨s, w, h, htest⟩ := exists_of_gives
      (fun s : Session => decide (
        failure? (query "hi" s) = some (.engine (.tokenizer "scripted failure")) ∧
        gives (fun _ => true) (query "hi" ((left (query "hi" s)).refusing [])) = true ∧
        s.progress.queue = Token.ofText "ab" ∧
        (left (query "hi" s)).progress.queue = Token.ofText "ab" ++ [Token.bos] ∧
        (left (query "hi" ((left (query "hi" s)).refusing []))).progress.queue =
          Token.ofText "ab" ++ [Token.bos, Token.bos] ++ Token.ofText "hi"))
      (r := start 0 { prompt := "ab", interactive := true, inputBos := true }
        { refused := ["hi"] } {})
      (by decide +kernel)
    obtain ⟨hfails, hgives, hbefore, hqueue, hqueue'⟩ := of_decide_eq_true htest
    obtain ⟨_, u, hu, -⟩ := exists_of_gives _ hgives
    rw [hu] at hqueue'
    exact ⟨s, w, _, _, u, h, eq_error_of_failure? hfails, hu, hbefore, hqueue, hqueue'⟩
  · obtain ⟨s, w, h, htest⟩ := exists_of_gives
      (fun s : Session => decide (
        failure? (query "hi" s) = some (.engine (.tokenizer "scripted failure")) ∧
        s.progress.queueRead = 0 ∧
        (left (query "hi" s)).progress.queueRead = s.progress.queue.length ∧
        (left (query "hi" s)).progress.queue = s.progress.queue ++ s.instructLead))
      (r := start 0 { prompt := "ab", instruct := true } { refused := ["hi"] } {})
      (by decide +kernel)
    obtain ⟨hfails, hread, hpassed, hqueue⟩ := of_decide_eq_true htest
    exact ⟨s, w, _, _, h, eq_error_of_failure? hfails, hread, hpassed, hqueue⟩

end Session

end Dialogue
