import Dialogue.Proofs.Taking
import Dialogue.Proofs.QueuedTokens
/-!
# What is recorded

The transcript grows in two places only: a step that is shown is recorded with all its tokens, and a
query records the turn that it queues. Whether steps are shown changes in two places: they are not
after a query, and they are from the next draw on.
-/

namespace Dialogue

open Effect

/-! ### The tokens of a transcript -/

namespace Transcript

/-- All tokens that are recorded, as input or as output. -/
def tokens (t : Transcript) : List Token := t.inputTokens.toList ++ t.outputTokens.toList

/-- A token is recorded once, wherever it is recorded. -/
theorem tokens_recordInput (t : Transcript) (token : Token) :
    (t.recordInput token).tokens.Perm (t.tokens ++ [token]) := by
  simp only [tokens, recordInput, Array.toList_push, List.append_assoc]
  exact List.perm_append_comm.append_left _

private theorem tokens_recordOutput (t : Transcript) (token : Token) :
    (t.recordOutput token).tokens = t.tokens ++ [token] := by
  simp [tokens, recordOutput]

private theorem tokens_foldl_recordOutput (l : List Token) (t : Transcript) :
    (l.foldl recordOutput t).tokens = t.tokens ++ l := by
  induction l generalizing t with
  | nil => exact (List.append_nil _).symm
  | cons token l ih =>
    rw [List.foldl_cons, ih, tokens_recordOutput, List.append_assoc, List.singleton_append]

end Transcript

/-! ### Work that shows nothing -/

namespace Workbench

variable {α : Type}

/-- Whether the next step is shown. -/
def echo (w : Workbench) : Bool := w.progress.echo

private theorem keeps_echo_call (x : EngineM α) : Keeps echo (call x) := keeps_call fun _ _ => rfl

/-- Making room, feeding and saving leave it alone. -/
theorem frame_echo : Frame echo where
  engine w := .const w.echo
  decodes _ _ := keeps_echo_call _
  reports _ _ _ := rfl
  progress _ _ _ _ _ := rfl
  files _ _ _ := rfl

end Workbench

namespace Session

variable {α : Type}

/-- What is recorded, and whether the next step is shown. -/
def record (s : Session) : Transcript × Bool := (s.transcript, s.progress.echo)

/-- Evaluating a step and saving the prompt record nothing. -/
theorem frame_record : StepFrame record where
  bench s := Workbench.frame_echo.map (s.transcript, ·)
  progress _ _ _ _ _ _ _ := rfl
  turn _ _ _ := rfl
  decodes s _ _ w := congrArg (s.transcript, ·) (Workbench.keeps_echo_call _ w)
  cuts _ _ := rfl
  fails _ _ := rfl

/-- Deciding whose turn it is records nothing. -/
theorem turnFrame_record : TurnFrame record where
  toFrame := frame_record.toFrame
  hands _ _ _ _ _ := rfl

private theorem keeps_record_advance {f : Progress → Progress} (hf : ∀ p, (f p).echo = p.echo) :
    Keeps record (advance f) := .modify fun s => congrArg (s.transcript, ·) (hf s.progress)

private theorem keeps_record_call (x : EngineM α) : Keeps record (call x) :=
  keeps_onBench_of_keeps _ fun s w => congrArg (s.transcript, ·) (Workbench.keeps_echo_call x w)

/-! ### Filling a step and showing it -/

variable {s t : Session}

/-- A step that is drawn is shown. -/
theorem drawNext_record (h : drawNext s = .ok () t) : t.record = (s.transcript, true) := by
  obtain ⟨_, s₁, h₁, h⟩ := bind_eq_ok h
  obtain ⟨_, _, h₂, h⟩ := bind_eq_ok h
  cases h₂
  obtain ⟨token, s₂, h₂, h⟩ := bind_eq_ok h
  have hsame : s₂.record = s.record :=
    ((keeps_record_call _).of_ok h₂).trans (frame_record.keeps_savePrompt.of_ok h₁)
  cases h
  exact congrArg (·.1, true) hsame

/-- A step is filled with a draw, once the queue is read, and is shown then; or with queued tokens,
and is shown if the last step was. -/
theorem refill_record (h : refill s = .ok () t) : t.transcript = s.transcript ∧
    (s.turnState.drained = true ∧ t.progress.echo = true ∨
      t.progress.echo = s.progress.echo ∧ ∃ tokens, tokens <+: s.turnState.unread ∧
        t.turnState = s.turnState.take tokens) := by
  obtain ⟨_, _, h₀, h⟩ := bind_eq_ok h
  cases h₀
  split at h
  · next hq =>
    obtain ⟨_, s₁, h₁, h⟩ := bind_eq_ok h
    cases h₁
    split at h
    · cases h
      refine ⟨rfl, .inr ⟨rfl, [], List.nil_prefix, ?_⟩⟩
      exact TurnState.ext rfl rfl (List.append_nil _).symm rfl rfl rfl rfl rfl
    · obtain ⟨htranscript, hecho⟩ := Prod.mk.inj (drawNext_record h)
      exact ⟨htranscript, .inl ⟨(Bool.and_eq_true_iff.mp hq).1, hecho⟩⟩
  · obtain ⟨_, s₁, h₁, h⟩ := bind_eq_ok h
    cases h₁
    obtain ⟨_, _, h₂, h⟩ := bind_eq_ok h
    cases h₂
    obtain ⟨_, s₂, h₂, h⟩ := bind_eq_ok h
    cases h₂
    obtain ⟨-, -, hturnState⟩ := (ends_forM_takeQueued_turnState _ _).of_ok h
    have htakes (token : Token) : Keeps record (takeQueued token) :=
      .bind (.bind (keeps_record_call _) fun _ => keeps_record_advance fun _ => rfl) fun _ =>
        keeps_record_advance fun _ => rfl
    obtain ⟨htranscript, hecho⟩ :=
      Prod.mk.inj ((Keeps.forM fun token _ => htakes token).of_ok h)
    exact ⟨htranscript, .inr ⟨hecho, _, List.take_prefix _ _, hturnState⟩⟩

/-- All tokens that are shown are recorded. -/
theorem forM_showToken_record (several : Bool) {l : List Token}
    (h : l.forM (showToken several) s = .ok () t) :
    t.transcript.tokens.Perm (s.transcript.tokens ++ l) := by
  induction l generalizing s with
  | nil =>
    cases h
    rw [List.append_nil]
  | cons token l ih =>
    obtain ⟨_, s₁, h₁, h⟩ := bind_eq_ok h
    obtain ⟨_, s₂, h₂, h₁⟩ := bind_eq_ok h₁
    have hsame : s₂.transcript = s.transcript :=
      congrArg Prod.fst ((frame_record.keeps_write _).of_ok h₂)
    have hone : s₁.transcript.tokens.Perm (s.transcript.tokens ++ [token]) := by
      cases h₁
      rw [← hsame]
      cases several with
      | false => exact .of_eq (Transcript.tokens_recordOutput _ _)
      | true => exact Transcript.tokens_recordInput _ _
    rw [List.append_cons]
    exact (ih h).trans (hone.append_right l)

/-- A step is recorded if it is shown. -/
theorem display_record (h : display s = .ok () t) : t.transcript.tokens.Perm
    (s.transcript.tokens ++ if s.progress.echo then s.progress.pending else []) := by
  obtain ⟨_, _, h₀, h⟩ := bind_eq_ok h
  cases h₀
  cases hecho : s.progress.echo <;> rw [hecho] at h
  · cases h
    rw [if_neg Bool.false_ne_true, List.append_nil]
  · obtain ⟨_, s₁, h₁, h⟩ := bind_eq_ok h
    cases h₁
    have hshown := forM_showToken_record _ h
    rw [if_pos rfl]
    exact hshown

/-! ### Hearing the user -/

/-- A query records the turn that it queues, which stands behind all that was queued. -/
theorem queueInput_record {text : String} (h : queueInput text s = .ok () t) :
    t.transcript.tokens = s.transcript.tokens ++ t.progress.queue.drop s.progress.queue.length := by
  have hqueues (tokens : List Token) : Keeps record (queueTokens tokens) :=
    keeps_record_advance fun _ => rfl
  have hleads : Keeps record queueInstructLead := .bind .get fun _ =>
    .onlyIf _ (.bind (keeps_record_advance fun _ => rfl) fun _ => hqueues _)
  obtain ⟨_, _, h₀, h⟩ := bind_eq_ok h
  cases h₀
  obtain ⟨_, s₁, h₁, h⟩ := bind_eq_ok h
  obtain ⟨_, s₂, h₂, h⟩ := bind_eq_ok h
  obtain ⟨lead, s₃, h₃, h⟩ := bind_eq_ok h
  obtain ⟨input, s₄, h₄, h⟩ := bind_eq_ok h
  obtain ⟨tail, s₅, h₅, h⟩ := bind_eq_ok h
  obtain ⟨_, s₆, h₆, h⟩ := bind_eq_ok h
  obtain ⟨_, s₇, h₇, h⟩ := bind_eq_ok h
  have hsame : s₇.record = s.record := by
    rw [(Keeps.onlyIf _ (hqueues _)).of_ok h₇, (hqueues _).of_ok h₆, (keeps_record_call _).of_ok h₅,
      (keeps_record_call _).of_ok h₄, (keeps_record_call _).of_ok h₃, hleads.of_ok h₂,
      (frame_record.keeps_write _).of_ok h₁]
  cases h
  change Transcript.tokens ((s₇.progress.queue.drop _).foldl _ s₇.transcript) = _
  rw [Transcript.tokens_foldl_recordOutput, show s₇.transcript = s.transcript from
    congrArg Prod.fst hsame]

/-- After a query nothing is shown, and what is recorded of it stands behind the token that opens
its sequence. -/
theorem query_record {text : String} (h : query text s = .ok () t) : t.progress.echo = false ∧
    t.transcript.tokens = s.transcript.tokens ++
      t.progress.queue.drop (s.progress.queue ++ s.queryState.opening).length := by
  have hqueryState := query_eq_ok h
  obtain ⟨_, _, h₀, h⟩ := bind_eq_ok h
  cases h₀
  obtain ⟨_, s₁, h₁, h⟩ := bind_eq_ok h
  obtain ⟨_, s₂, h₂, h⟩ := bind_eq_ok h
  obtain ⟨_, s₃, h₃, h⟩ := bind_eq_ok h
  have hbos : Keeps record queueBos :=
    .bind (frame_record.keeps_report rfl) fun _ => keeps_record_advance fun _ => rfl
  have htranscript : s₃.transcript = s.transcript := by
    have hsame : s₃.record = s.record := by
      rw [(frame_record.keeps_write _).of_ok h₃, (Keeps.onlyIf _ hbos).of_ok h₂,
        (Keeps.onlyIf _ (frame_record.keeps_write _)).of_ok h₁]
    exact congrArg Prod.fst hsame
  have hqueue : s₃.progress.queue = s.progress.queue ++ s.queryState.opening := by
    have hqueryState₃ : s₃.queryState = s.queryState.queued s.queryState.opening := by
      rw [(keeps_queryState_write _).of_ok h₃, queryState_queueBos _ h₂,
        (Keeps.onlyIf _ (keeps_queryState_write _)).of_ok h₁]
      rfl
    exact congrArg QueryState.queue hqueryState₃
  split at h
  · obtain ⟨_, s₄, h₄, h⟩ := bind_eq_ok h
    have hturn := queueInput_record h₄
    rw [htranscript, hqueue] at hturn
    cases h
    exact ⟨rfl, hturn⟩
  · next hl =>
    have hnone : t.progress.queue = s.progress.queue ++ s.queryState.opening := by
      rw [QueryState.heard, if_neg hl] at hqueryState
      exact congrArg QueryState.queue hqueryState
    rw [hnone, List.drop_length, List.append_nil]
    cases h
    exact ⟨rfl, congrArg Transcript.tokens htranscript⟩

end Session

end Dialogue
