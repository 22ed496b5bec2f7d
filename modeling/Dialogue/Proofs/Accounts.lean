import Dialogue.Proofs.Coherence
import Dialogue.Proofs.Notices
import Dialogue.Proofs.Residents
import Dialogue.Proofs.Taking
import Dialogue.Proofs.Turns
/-!
# What becomes of accepted tokens

Every token that the sampler is told of goes into a step. An account of a dialogue lists the steps
with what became resident of each. As long as no decode call on the main context fails, no token is
lost, repeated or taken out of its order but those that the user is told of, which are the last ones
of their step.
-/

namespace Dialogue

open Effect

/-- A step: the tokens that it was filled with, and those that became resident while it was
evaluated. -/
structure Step where
  /-- The tokens that the sampler was told of. -/
  accepted : List Token := []
  /-- The tokens that became resident. -/
  resident : List Token := []
deriving DecidableEq, Repr

/-- How many tokens of a step did not become resident. -/
def Step.missing (s : Step) : Nat := s.accepted.length - s.resident.length

/-- An account of a dialogue. -/
structure Account where
  /-- The steps that were evaluated. -/
  steps : List Step := []
  /-- The step that waits to be evaluated. -/
  current : Step := {}
  /-- The numbers in the notices of lost tokens. -/
  notices : List Nat := []
deriving DecidableEq, Repr

namespace Session

/-- The tokens that the sampler was told of since an earlier state of the session. -/
def acceptedSince (s t : Session) : List Token :=
  t.tally.accepted.drop s.tally.accepted.length

/-- The numbers of tokens that were cut off since an earlier state of the session. -/
def cutsSince (s t : Session) : List Nat := t.tally.cuts.drop s.tally.cuts.length

/-- The numbers in the notices that an evaluation shows. -/
def passNotices (s : Session) : List Nat := s.cutsSince (left (evaluatePending s))

/-- The account after a pass. A step that was evaluated without a stop makes place for the next
one. -/
def noteStep (a : Account) (s : Session) : Account :=
  let resident := a.current.resident ++ s.passResident
  let accepted := s.acceptedSince (left (pass s))
  let notices := a.notices ++ s.passNotices
  match evaluatePending s with
  | .ok none _ =>
    { steps := a.steps ++ [⟨a.current.accepted, resident⟩], current := ⟨accepted, []⟩, notices }
  | _ => { a with current := ⟨a.current.accepted ++ accepted, resident⟩, notices }

/-- The account of the passes of a dialogue. -/
def account (s : Session) (requests : List Request) : Account :=
  s.noted noteStep id {} requests

/-! ### Evaluating a step -/

/-- What an evaluation with some result makes of the pending tokens: some are cut off, and the
others become resident or wait. -/
structure Settles (s : Session) (r : Except SessionError (Option StopReason)) (t : Session)
    (lost : List Nat) (rest : List Token) : Prop where
  /-- The sampler is told of nothing. -/
  accepted : t.tally.accepted = s.tally.accepted
  /-- What is cut off. -/
  cuts : t.tally.cuts = s.tally.cuts ++ lost
  /-- The user is told of that. -/
  told : Told s t lost r
  /-- What is not cut off. -/
  kept : rest <+: s.progress.pending
  /-- Nothing else is lost. -/
  length : s.progress.pending.length = rest.length + lost.sum
  /-- Calls can fail. -/
  failed : s.tally.failed ≤ t.tally.failed
  /-- If none does and the dialogue goes on, all of it is resident. -/
  resident : t.tally.failed = s.tally.failed → r = .ok none → s.reused ++ s.decodedSince t = rest
  /-- If none does and the dialogue does not go on, all of it waits. -/
  waiting : t.tally.failed = s.tally.failed → r ≠ .ok none →
    s.reused ++ s.decodedSince t = [] ∧ t.progress.pending = rest

/-- A step that does not arrive waits with what is left of it. -/
theorem Shortened.settles {s t : Session} {cuts : List Nat}
    {r : Except SessionError (Option StopReason)} (h : Shortened s t cuts) (ht : Told s t cuts r)
    (hr : r ≠ .ok none) (hreused : s.reused = []) : Settles s r t cuts t.progress.pending := by
  have htally := h.tally
  have hdecoded : s.decodedSince t = [] := decodedSince_of_batches (by rw [htally])
  refine ⟨by rw [htally], by rw [htally], ht, h.pending, h.length, ?_, ?_, ?_⟩
  · rw [htally]
    exact Int.le_refl _
  · exact fun _ h => absurd h hr
  · exact fun _ _ => ⟨by rw [hreused, hdecoded, List.append_nil], rfl⟩

/-- A step that is fed is resident as a whole unless a decode call fails. -/
theorem Shortened.settles_fed {s u : Session} {cuts : List Nat} (h : Shortened s u cuts)
    (ht : Told s u cuts (.ok (none : Option StopReason))) (ha : arrive s = .ok none u) :
    Ends feedRest u fun r t => Settles s (r.map fun _ => none) t cuts u.progress.pending := by
  have htally := h.tally
  apply ((ends_feedRest_tally u).and (Ends.keeps keeps_output_feedRest)).mono
  rintro r t ⟨⟨done, failed, -, -, htt, hall⟩, ho⟩
  have hfed : t.tally.batches =
      s.tally.batches ++ Batch.laid u.mainContext.reuse.past done := by
    rw [htt, htally]
    rfl
  have hdecoded : s.decodedSince t = done.flatten := by
    rw [decodedSince, hfed, List.drop_left, Batch.flatMap_tokens_laid]
  have hfailed : t.tally.failed = s.tally.failed + failed.toNat := by
    rw [htt, Tally.failed_fed, htally]
    rfl
  have hnone (heq : t.tally.failed = s.tally.failed) : failed = false :=
    Bool.toNat_eq_zero.mp (by omega)
  refine ⟨?_, ?_, ?_, h.pending, h.length, ?_, ?_, ?_⟩
  · rw [htt, htally]
    rfl
  · rw [htt, htally]
    rfl
  · have hsame : Told u t [] (r.map fun _ => (none : Option StopReason)) := Told.of_eq ho
    have htold := ht.trans hsame
    rwa [List.append_nil] at htold
  · omega
  · intro heq _
    rw [reused_of_arrive ha, hdecoded, (hall (hnone heq)).2]
    exact List.take_append_drop _ _
  · intro heq hr
    rw [(hall (hnone heq)).1] at hr
    exact absurd rfl hr

/-- What an evaluation comes to. -/
theorem ends_evaluatePending_settles (s : Session) :
    Ends evaluatePending s fun r t => ∃ cuts kept, Settles s r t cuts kept := by
  apply ends_evaluatePending_of
  · intro hnil
    have hdecoded : s.decodedSince s = [] := decodedSince_of_batches rfl
    refine ⟨[], [], rfl, (List.append_nil _).symm, Told.of_eq rfl, List.nil_prefix, ?_,
      Int.le_refl _, ?_, ?_⟩
    · simp [hnil]
    · exact fun _ _ => by rw [reused_of_pending_eq_nil hnil, hdecoded, List.append_nil]
    · exact fun _ h => absurd rfl h
  · apply ((ends_arrive_told s).and (ends_arrive_reused s)).mono
    rintro r t ⟨⟨cuts, h, ht⟩, hreused⟩ hr
    exact ⟨cuts, _, h.settles ht hr (hreused hr)⟩
  · intro u ha
    obtain ⟨cuts, h, ht⟩ := (ends_arrive_told s).of_ok ha
    apply (h.settles_fed ht ha).mono
    intro r t hs
    exact ⟨cuts, _, hs⟩

/-! ### Balance -/

/-- The account agrees with the logs and with the pending tokens. -/
structure Balanced (s₀ : Session) (a : Account) (s : Session) : Prop where
  /-- What the sampler was told of, step by step. -/
  accepted : s.tally.accepted =
    s₀.tally.accepted ++ (a.steps.flatMap (·.accepted) ++ a.current.accepted)
  /-- What was cut off. -/
  cuts : s.tally.cuts = s₀.tally.cuts ++ a.notices
  /-- Of a step the first tokens are resident. -/
  evaluated : ∀ step ∈ a.steps, step.resident <+: step.accepted
  /-- Of the step that waits none is. -/
  waiting : a.current.resident = []
  /-- The others are pending or lost, and those that were lost were told of. -/
  pending : ∃ lost, a.current.accepted = s.progress.pending ++ lost ∧
    (a.steps.map Step.missing).sum + lost.length = a.notices.sum

variable {s₀ s t : Session} {a : Account} {lost : List Nat} {rest : List Token}

private theorem passNotices_of_settles {r : Except SessionError (Option StopReason)}
    (h : Settles s r (left (evaluatePending s)) lost rest) : s.passNotices = lost := by
  rw [passNotices, cutsSince, h.cuts, List.drop_left]

/-- A step that was evaluated makes place for one that is filled with what the sampler is told of.
-/
theorem Balanced.goes_on (h : Balanced s₀ a s) (hr : evaluatePending s = .ok none t)
    (hs : Settles s (.ok none) t lost rest) (hf : t.tally.failed = s.tally.failed) :
    Balanced s₀ (noteStep a s) (left (pass s)) := by
  have hpass := left_pass_of_goes_on hr
  have htaken := tally_takeStep t
  have hleft : Settles s (.ok none) (left (evaluatePending s)) lost rest := by
    rw [hr]
    exact hs
  have hnotices : s.passNotices = lost := passNotices_of_settles hleft
  have haccepted : s.acceptedSince (left (pass s)) = (left (pass s)).progress.pending := by
    rw [acceptedSince, hpass, htaken, hs.accepted, List.drop_left]
  have hresident : s.passResident = rest := by
    rw [← hs.resident hf rfl, passResident, decodedSince, hpass, htaken]
    rfl
  obtain ⟨gone, hgone, hsum⟩ := h.pending
  have hnote : noteStep a s =
      { steps := a.steps ++ [⟨a.current.accepted, rest⟩]
        current := ⟨(left (pass s)).progress.pending, []⟩
        notices := a.notices ++ lost } := by
    rw [noteStep, hr, hnotices, haccepted, hresident, h.waiting, List.nil_append]
  rw [hnote]
  refine ⟨?_, ?_, ?_, rfl, [], (List.append_nil _).symm, ?_⟩
  · rw [hpass, htaken]
    simp [hs.accepted, h.accepted]
  · rw [hpass, htaken]
    simp [hs.cuts, h.cuts]
  · intro step hmem
    rcases List.mem_append.mp hmem with hmem | hmem
    · exact h.evaluated step hmem
    · rw [List.mem_singleton.mp hmem, hgone]
      exact hs.kept.trans (List.prefix_append _ _)
  · have hmissing : Step.missing ⟨a.current.accepted, rest⟩ = lost.sum + gone.length := by
      have hlength := hs.length
      simp only [Step.missing, hgone, List.length_append]
      omega
    simp only [List.map_append, List.map_cons, List.map_nil, List.sum_append, List.sum_cons,
      List.sum_nil, List.length_nil, hmissing]
    omega

/-- A step that was not evaluated waits with what is left of it. -/
theorem Balanced.ends (h : Balanced s₀ a s) {r : Except SessionError (Option StopReason)}
    (hr : ∀ t, evaluatePending s ≠ .ok none t) (hne : r ≠ .ok none)
    (hs : Settles s r (left (evaluatePending s)) lost rest)
    (hf : (left (evaluatePending s)).tally.failed = s.tally.failed) :
    Balanced s₀ (noteStep a s) (left (pass s)) := by
  obtain ⟨htally, hpending⟩ := left_pass_of_ends hr
  have haccepted : s.acceptedSince (left (pass s)) = [] := by
    rw [acceptedSince, htally, hs.accepted, List.drop_length]
  obtain ⟨hnone, hwaits⟩ := hs.waiting hf hne
  have hresident : s.passResident = [] := by
    rw [← hnone, passResident, decodedSince, htally]
    rfl
  obtain ⟨gone, hgone, hsum⟩ := h.pending
  have hnote : noteStep a s = { a with notices := a.notices ++ lost } := by
    unfold noteStep
    split
    · next t ht => exact absurd ht (hr t)
    · simp [haccepted, hresident, passNotices_of_settles hs]
  rw [hnote]
  obtain ⟨cut, hcut⟩ := hs.kept
  refine ⟨?_, ?_, h.evaluated, h.waiting, cut ++ gone, ?_, ?_⟩
  · rw [htally, hs.accepted, h.accepted]
  · rw [htally, hs.cuts, h.cuts, List.append_assoc]
  · rw [hgone, hpending, hwaits, ← hcut, List.append_assoc]
  · have hlength := hs.length
    rw [← hcut, List.length_append] at hlength
    simp only [List.length_append, List.sum_append]
    omega

/-- Unless a decode call fails, a pass that is noted leaves the account balanced. -/
theorem balanced_pass (s₀ s : Session) :
    s.tally.failed ≤ (left (pass s)).tally.failed ∧
      ∀ a, Balanced s₀ a s → (left (pass s)).tally.failed = s.tally.failed →
        Balanced s₀ (noteStep a s) (left (pass s)) := by
  obtain ⟨r, ⟨lost, rest, hs⟩, hr, -⟩ := (ends_evaluatePending_settles s).exists_left
  by_cases hgo : r = .ok none
  · subst hgo
    obtain ⟨t, ht⟩ := (hr none).mp rfl
    rw [ht] at hs
    have hfailed : (left (pass s)).tally.failed = t.tally.failed := by
      rw [left_pass_of_goes_on ht, tally_takeStep]
      rfl
    rw [hfailed]
    exact ⟨hs.failed, fun a ha hf => ha.goes_on ht hs hf⟩
  · have hends : ∀ t, evaluatePending s ≠ .ok none t := fun t ht => hgo ((hr none).mpr ⟨t, ht⟩)
    rw [(left_pass_of_ends hends).1]
    exact ⟨hs.failed, fun a ha hf => ha.ends hends hgo hs hf⟩

/-- As long as no decode call on the main context has failed, the account is balanced. -/
theorem notedInvariant_balanced (s₀ : Session) :
    NotedInvariant noteStep id (· ≠ .reset) fun a s =>
      s₀.tally.failed ≤ s.tally.failed ∧
        (s.tally.failed = s₀.tally.failed → Balanced s₀ a s) where
  showing := by
    rintro a s room ⟨hle, hs⟩
    refine ⟨hle, fun hf => ?_⟩
    obtain ⟨h₁, h₂, h₃, h₄, h₅⟩ := hs hf
    exact ⟨h₁, h₂, h₃, h₄, h₅⟩
  pass := by
    rintro a s ⟨hle, hs⟩
    obtain ⟨hmono, hpass⟩ := balanced_pass s₀ s
    refine ⟨Int.le_trans hle hmono, fun hf => ?_⟩
    exact hpass a (hs (by omega)) (by omega)
  query := by
    rintro a s text room ⟨hle, hs⟩
    have htally : (left (query text (s.showing room))).tally = s.tally :=
      frame_tally.keeps_query text (s.showing room)
    have hpending : (left (query text (s.showing room))).progress.pending = s.progress.pending := by
      apply Ends.left (P := fun t : Session => t.progress.pending = s.progress.pending)
      apply (ends_query text (s.showing room)).mono
      rintro r t ⟨-, hv⟩
      change t.mainContext.pending = (s.showing room).mainContext.pending
      generalize t.mainContext = u at hv
      cases hv <;> rfl
    rw [htally]
    refine ⟨hle, fun hf => ?_⟩
    obtain ⟨h₁, h₂, h₃, h₄, h₅⟩ := hs hf
    refine ⟨?_, ?_, h₃, h₄, ?_⟩
    · rw [htally]
      exact h₁
    · rw [htally]
      exact h₂
    · rw [hpending]
      exact h₅
  reset := by
    intro h
    exact absurd rfl h

/-- Unless the output takes no more bytes, an evaluation shows the notices of what is cut off, and
nothing else. -/
theorem shown_evaluatePending {s : Session}
    (h : ∀ t, evaluatePending s ≠ .error (.io .outputFull) t) :
    (left (evaluatePending s)).output.shown.toList =
      s.output.shown.toList ++ noticeBytes s.passNotices := by
  obtain ⟨r, ⟨lost, rest, hs⟩, -, hr⟩ := (ends_evaluatePending_settles s).exists_left
  rw [passNotices_of_settles hs]
  apply hs.told.resolve_left
  intro hfull
  obtain ⟨t, ht⟩ := (hr _).mp hfull
  exact h t ht

end Session

end Dialogue
