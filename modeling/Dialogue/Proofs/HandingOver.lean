import Dialogue.Proofs.Querying
import Dialogue.Proofs.QueryTurnState
import Dialogue.Proofs.Starting
/-!
# Nothing is drawn after handing over

What was said since the last query is read off the calls to the sampler. In interactive mode it
hands the turn to the user when it ends the generation or ends with a reverse prompt, and as long as
nothing fails no token is drawn then before the next query. What carries this through a dialogue is
that the tokens accepted last are those said last, and that once the queue is read the user has the
turn or what was said does not hand it over.
-/

namespace Dialogue

open Effect

/-- What was said, once one more call was made to the sampler. -/
def Call.saying (said : List Token) : Call → List Token
  | .accept token _ => said ++ [token]
  | .resetSampler => []
  | _ => said

/-- What was said since the sampler began anew last. -/
def said (calls : List Call) : List Token := calls.foldl Call.saying []

/-- Whether what was said hands the turn to the user of an interactive session: it ends the
generation, or the text of its last tokens ends with a reverse prompt. -/
def HandsOver (antiprompts : List String) (said : List Token) : Prop :=
  said.getLast? = some Token.eos ∨ ∃ a ∈ antiprompts, a ≠ "" ∧
    a.toList <:+ (Token.render (said.drop (said.length - Antiprompt.recentTokens))).toList

/-- Whether the turn is handed over can be read off what was said. -/
instance (antiprompts : List String) (said : List Token) : Decidable (HandsOver antiprompts said) :=
  inferInstanceAs (Decidable (_ ∨ ∃ a ∈ antiprompts, _))

/-- Whether a token is drawn, after some calls, that hands the turn to the user. -/
def DrawsHandover (antiprompts : List String) (calls more : List Call) : Prop :=
  ∃ before token, before ++ [.accept token true] <+: more ∧
    HandsOver antiprompts (said (calls ++ before ++ [.accept token true]))

private theorem not_handsOver_nil (antiprompts : List String) : ¬ HandsOver antiprompts [] := by
  rintro (hend | ⟨a, -, hne, hsuffix⟩)
  · cases hend
  · have hnil : a.toList = [] := List.suffix_nil.mp hsuffix
    exact hne (String.toList_eq_nil_iff.mp hnil)

private theorem said_concat (calls : List Call) (c : Call) :
    said (calls ++ [c]) = c.saying (said calls) := by
  rw [said, List.foldl_append]
  rfl

private theorem said_accept (calls : List Call) (token : Token) (sampled : Bool) :
    said (calls ++ [.accept token sampled]) = said calls ++ [token] := said_concat _ _

private theorem said_accepted (calls : List Call) (tokens : List Token) :
    said (calls ++ tokens.map (.accept · false)) = said calls ++ tokens := by
  induction tokens generalizing calls with
  | nil => simp
  | cons t tokens ih =>
    rw [List.map_cons, List.append_cons, ih, said_accept, List.append_assoc,
      List.singleton_append]

/-- A call that is not among the last ones was made before them. -/
theorem prefix_of_not_mem {α : Type} {before l more : List α} {c : α}
    (h : before ++ [c] <+: l ++ more) (hc : c ∉ more) : before ++ [c] <+: l := by
  induction more generalizing l with
  | nil => rwa [List.append_nil] at h
  | cons d more ih =>
    obtain ⟨hd, hmore⟩ := not_or.mp (mt List.mem_cons.mpr hc)
    have h' : before ++ [c] <+: l ++ [d] ++ more := by rwa [← List.append_cons]
    rcases List.prefix_concat_iff.mp (ih h' hmore) with heq | hprefix
    · exact absurd (List.singleton_inj.mp (List.append_inj_right' heq rfl)) hd
    · exact hprefix

private theorem not_drawsHandover_nil (antiprompts : List String) (calls : List Call) :
    ¬ DrawsHandover antiprompts calls [] := by
  rintro ⟨before, token, h, -⟩
  simp at h

private theorem DrawsHandover.of_append {antiprompts : List String} {calls more last : List Call}
    (h : DrawsHandover antiprompts calls (more ++ last)) (hlast : ∀ t, .accept t true ∉ last) :
    DrawsHandover antiprompts calls more := by
  obtain ⟨before, token, hprefix, hover⟩ := h
  exact ⟨before, token, prefix_of_not_mem hprefix (hlast token), hover⟩

namespace TurnState

variable {c : Config} {calls more : List Call} {v u : TurnState}

/-- The turn state remembers the tokens said last, and nothing was drawn after handing over. -/
structure Follows (c : Config) (calls : List Call) (v : TurnState) : Prop where
  /-- The tokens accepted last are those said last. -/
  recent : v.recent = (said calls).drop ((said calls).length - Progress.recentCapacity)
  /-- What was said before a draw does not hand over. -/
  draws : ∀ before guided, before ++ [.sample guided] <+: calls →
    ¬ HandsOver c.antiprompts (said before)

private theorem remembered_eq (said : List Token) (token : Token) :
    remembered (said.drop (said.length - Progress.recentCapacity)) token =
      (said ++ [token]).drop ((said ++ [token]).length - Progress.recentCapacity) := by
  have hle : (said ++ [token]).length - Progress.recentCapacity ≤ said.length := by
    simp only [List.length_append, List.length_singleton, Progress.recentCapacity]
    omega
  rw [List.drop_append_of_le_length hle, remembered]
  congr 1
  simp only [List.length_drop, List.length_append, List.length_singleton, Progress.recentCapacity]
  split
  · rw [List.tail_drop]
    congr 1
    omega
  · congr 1
    omega

/-- What is remembered after each token of a list is the end of all that was said. -/
theorem foldl_remembered (said tokens : List Token) :
    tokens.foldl remembered (said.drop (said.length - Progress.recentCapacity)) =
      (said ++ tokens).drop ((said ++ tokens).length - Progress.recentCapacity) := by
  induction tokens generalizing said with
  | nil => simp
  | cons t tokens ih =>
    rw [List.foldl_cons, remembered_eq, ih, List.append_assoc]
    rfl

private theorem Follows.take (h : v.Follows c calls) (tokens : List Token) :
    (v.take tokens).Follows c (calls ++ tokens.map (.accept · false)) := by
  constructor
  · rw [said_accepted, ← foldl_remembered, ← h.recent]
    rfl
  · intro before guided hprefix
    exact h.draws before guided (prefix_of_not_mem hprefix (not_mem_accepted nofun))

private theorem Follows.draw (h : v.Follows c calls)
    (hover : ¬ HandsOver c.antiprompts (said calls)) (guided : Bool) :
    (v.draw guided).Follows c (calls ++ [.sample guided] ++ [.accept v.next true]) := by
  constructor
  · have hasked : said (calls ++ [.sample guided]) = said calls := said_concat _ _
    rw [said_accept, hasked, ← remembered_eq, ← h.recent]
    rfl
  · intro before g hprefix
    rcases List.prefix_concat_iff.mp (prefix_of_not_mem hprefix (by simp)) with heq | hprefix
    · rwa [List.append_inj_left' heq rfl]
    · exact h.draws before g hprefix

/-- What is remembered of what was said ends as that ends. -/
theorem getLast?_remembered (said : List Token) :
    (said.drop (said.length - Progress.recentCapacity)).getLast? = said.getLast? := by
  rw [List.getLast?_drop, Progress.recentCapacity]
  split
  · next hle =>
    have hnil : said = [] := List.length_eq_zero_iff.mp (by omega)
    rw [hnil]
    rfl
  · rfl

/-- Reverse prompts are looked for in what was said last, all of which is remembered. -/
theorem drop_remembered (said : List Token) :
    (said.drop (said.length - Progress.recentCapacity)).drop
      ((said.drop (said.length - Progress.recentCapacity)).length - Antiprompt.recentTokens) =
        said.drop (said.length - Antiprompt.recentTokens) := by
  rw [List.drop_drop, List.length_drop, Progress.recentCapacity, Antiprompt.recentTokens]
  congr 1
  omega

/-- What was said is what is judged once the queue is read. -/
theorem Follows.toUser (h : v.Follows c calls) (hi : c.interactive = true)
    (hover : HandsOver c.antiprompts (said calls)) : (v.handback c).toUser = true := by
  have hlast : v.recent.getLast? = (said calls).getLast? := by rw [h.recent, getLast?_remembered]
  have htail : v.recent.drop (v.recent.length - Antiprompt.recentTokens) =
      (said calls).drop ((said calls).length - Antiprompt.recentTokens) := by
    rw [h.recent, drop_remembered]
  simp only [handback, Handback.decide, hlast, htail, hi]
  rcases hover with hend | ⟨a, ha, hne, hsuffix⟩
  · simp [hend]
  · simp [Antiprompt.find?_isSome_of_suffix ha hne hsuffix]

/-- The turn state follows what was said, and heeds it: once the queue is read, the user has the
turn or what was said does not hand it over. -/
structure Heeds (c : Config) (calls : List Call) (v : TurnState) : Prop
    extends Follows c calls v where
  /-- The turn was handed over if it was to be. -/
  heeded : v.drained = true → v.userTurn = true ∨ ¬ HandsOver c.antiprompts (said calls)

/-- After a handover the user has the turn, and keeps it: neither after a handover `stopped` before
some calls nor after a draw that hands over since then is anything drawn. -/
structure Yields (c : Config) (stopped : Prop) (calls more : List Call) (v : TurnState) : Prop where
  /-- The user has the turn after a handover. -/
  turn : stopped ∨ DrawsHandover c.antiprompts calls more → v.userTurn = true
  /-- Nothing is drawn after a handover. -/
  draws : ∀ before guided, before ++ [.sample guided] <+: more →
    ¬ stopped ∧ ¬ DrawsHandover c.antiprompts calls before

/-- Nothing happened yet since now. -/
theorem Yields.nil {stopped : Prop} (h : stopped → v.userTurn = true) :
    v.Yields c stopped calls [] := by
  constructor
  · intro hstop
    exact h (hstop.resolve_right (not_drawsHandover_nil _ _))
  · intro before guided hprefix
    simp at hprefix

/-- What filling a step says, and that nothing is drawn for it after a handover. -/
theorem Heeds.filled {stopped : Prop} (h : v.Heeds c (calls ++ more))
    (hy : v.Yields c stopped calls more) (hf : v.Filled c (.ok ()) u) :
    ∃ last, u.calls = v.calls ++ last ∧ u.Follows c (calls ++ (more ++ last)) ∧
      (stopped ∨ DrawsHandover c.antiprompts calls (more ++ last) → u.userTurn = true ∨
        u.drained = true ∧ HandsOver c.antiprompts (said (calls ++ (more ++ last)))) ∧
      ∀ before guided, before ++ [.sample guided] <+: more ++ last →
        ¬ stopped ∧ ¬ DrawsHandover c.antiprompts calls before := by
  cases hf with
  | spent =>
    refine ⟨[], ?_⟩
    simp only [List.append_nil, true_and]
    exact ⟨h.toFollows, fun hstop => .inl (hy.turn hstop), hy.draws⟩
  | drawn hq hu _ _ guided =>
    -- A draw needs that the user does not have the turn, so nothing before it handed over.
    have hover : ¬ HandsOver c.antiprompts (said (calls ++ more)) :=
      (h.heeded hq).resolve_left (Bool.eq_false_iff.mp hu)
    have hnone : ¬ (stopped ∨ DrawsHandover c.antiprompts calls more) := fun hstop =>
      Bool.eq_false_iff.mp hu (hy.turn hstop)
    refine ⟨[.sample guided] ++ [.accept v.next true], ?_, ?_, ?_, ?_⟩
    · rw [← List.append_assoc]
      rfl
    · have hdraw := h.draw hover guided
      simpa only [List.append_assoc] using hdraw
    · rintro (hstop | ⟨before, token, hprefix, hover⟩)
      · exact absurd (.inl hstop) hnone
      · rw [← List.append_assoc] at hprefix
        rcases List.prefix_concat_iff.mp hprefix with heq | hprefix
        · rw [List.append_assoc, heq, List.append_assoc more] at hover
          exact .inr ⟨hq, hover⟩
        · have hmore := prefix_of_not_mem hprefix (by simp)
          exact absurd (.inr ⟨before, token, hmore, hover⟩) hnone
    · intro before g hprefix
      rw [← List.append_assoc] at hprefix
      rcases List.prefix_concat_iff.mp (prefix_of_not_mem hprefix (by simp)) with heq | hprefix
      · rw [List.append_inj_left' heq rfl]
        exact not_or.mp hnone
      · exact hy.draws before g hprefix
  | taken =>
    refine ⟨_, rfl, ?_, ?_, ?_⟩
    · have htake := h.take (v.unread.take (max c.batchSize 1))
      simpa only [List.append_assoc] using htake
    · intro hstop
      apply Or.inl (hy.turn (hstop.imp_right fun hdraws => hdraws.of_append ?_))
      exact fun t => TurnState.not_mem_accepted nofun
    · intro before guided hprefix
      exact hy.draws before guided (prefix_of_not_mem hprefix (not_mem_accepted nofun))

/-- Deciding whose turn it is heeds what was said. -/
theorem Follows.concluded (h : v.Follows c calls) (hi : c.interactive = true) {o : Option Outcome}
    (hc : v.Concluded c (.ok o) u) : u.Heeds c calls := by
  obtain ⟨tokens, n, b, rfl, -⟩ := hc.exists_eq
  refine ⟨⟨h.recent, h.draws⟩, fun hq => ?_⟩
  have hdrained : v.drained = true := by
    simp only [drained, List.length_append, decide_eq_true_eq] at hq ⊢
    omega
  by_cases hover : HandsOver c.antiprompts (said calls)
  · exact .inl (hc.userTurn (.inr ⟨hdrained, h.toUser hi hover⟩))
  · exact .inr hover

/-- A pass that succeeds heeds what was said. -/
theorem Heeds.passed {stopped : Prop} (h : v.Heeds c (calls ++ more))
    (hy : v.Yields c stopped calls more) (hi : c.interactive = true) {o : Option Outcome}
    (hp : v.Passed c (.ok o) u) :
    ∃ last, u.calls = v.calls ++ last ∧ u.Heeds c (calls ++ (more ++ last)) ∧
      u.Yields c stopped calls (more ++ last) := by
  cases hp with
  | ended =>
    refine ⟨[], ?_⟩
    simp only [List.append_nil, true_and]
    exact ⟨h, hy⟩
  | stepped hf hc =>
    obtain ⟨last, hcalls, hfollows, hturn, hdraws⟩ := h.filled hy hf
    refine ⟨last, hc.calls_eq.trans hcalls, hfollows.concluded hi hc, ?_, hdraws⟩
    intro hstop
    apply hc.userTurn
    refine (hturn hstop).imp_right fun ⟨hq, hover⟩ => ⟨hq, hfollows.toUser hi hover⟩

/-- After a query nothing was said yet. -/
theorem Heeds.heard (h : v.Heeds c calls) (hh : v.Heard (.ok ()) u) :
    u.calls = v.calls ++ [.resetSampler] ∧ u.Heeds c (calls ++ [.resetSampler]) := by
  have hsaid : said (calls ++ [.resetSampler]) = [] := said_concat _ _
  cases hh with
  | heard =>
    refine ⟨rfl, ⟨?_, ?_⟩, ?_⟩
    · rw [hsaid]
      rfl
    · intro before guided hprefix
      exact h.draws before guided (prefix_of_not_mem hprefix (by simp))
    · rw [hsaid]
      exact fun _ => .inr (not_handsOver_nil _)

end TurnState

namespace Session

variable {s t : Session}

/-- The session heeds what was said since an earlier state of it, when some calls had been made. -/
structure Attends (s : Session) (calls : List Call) (t : Session) : Prop where
  /-- The configuration stays. -/
  config : t.config = s.config
  /-- There is something to say. -/
  queue_ne_nil : t.turnState.queue ≠ []
  /-- These are the calls since then. -/
  calls_eq : t.turnState.calls = s.turnState.calls ++ calls
  /-- What was said is heeded. -/
  heeds : t.turnState.Heeds s.config calls

/-- A pass that succeeds heeds what was said, and draws nothing after a handover. -/
theorem Attends.pass {calls more : List Call} {stopped : Prop} {outcome : Option Outcome}
    {u : Session} (h : s.Attends (calls ++ more) t)
    (hy : t.turnState.Yields s.config stopped calls more)
    (hi : s.config.interactive = true) (hpass : pass t = .ok outcome u) :
    ∃ last, s.Attends (calls ++ (more ++ last)) u ∧
      u.turnState.Yields s.config stopped calls (more ++ last) := by
  obtain ⟨hconfig, hpassed⟩ := (ends_pass_turnState t).of_ok hpass
  rw [h.config] at hconfig hpassed
  obtain ⟨last, hcalls, hlast, hyields⟩ := h.heeds.passed hy hi hpassed
  refine ⟨last, ⟨hconfig, ?_, ?_, hlast⟩, hyields⟩
  · exact fun hnil => h.queue_ne_nil (List.prefix_nil.mp (hnil ▸ hpassed.prefix_queue))
  · rw [hcalls, h.calls_eq, List.append_assoc, List.append_assoc]

/-- As long as nothing fails, what was said is heeded. -/
theorem successInvariant_attends (hi : s.config.interactive = true) :
    SuccessInvariant (fun _ => True) fun t => ∃ calls, s.Attends calls t where
  showing := by
    rintro t room ⟨calls, h⟩
    exact ⟨calls, h.config, h.queue_ne_nil, h.calls_eq, h.heeds⟩
  pass := by
    rintro t outcome u ⟨calls, h⟩ hpass
    rw [← List.append_nil calls] at h
    have hyields : t.turnState.Yields s.config False calls [] := .nil nofun
    obtain ⟨last, hu, -⟩ := h.pass hyields hi hpass
    exact ⟨_, hu⟩
  query := by
    rintro t text room u ⟨calls, h⟩ - hquery
    obtain ⟨hconfig, hheard⟩ := (ends_query_turnState text _).of_ok hquery
    obtain ⟨-, hqueued⟩ := (ends_query text _).of_ok hquery
    have hqueue : t.turnState.queue <+: u.turnState.queue := hqueued.prefix_queue
    obtain ⟨hcalls, hheeds⟩ := h.heeds.heard hheard
    refine ⟨calls ++ [.resetSampler], hconfig.trans h.config, ?_, ?_, hheeds⟩
    · exact fun hnil => h.queue_ne_nil (List.prefix_nil.mp (hnil ▸ hqueue))
    · rw [hcalls, ← List.append_assoc, ← h.calls_eq]
  reset := by
    rintro t ⟨calls, h⟩ -
    refine ⟨calls, h.config, h.queue_ne_nil, h.calls_eq, ⟨h.heeds.recent, h.heeds.draws⟩, ?_⟩
    intro hq
    have hnil : t.turnState.queue = [] := by simpa [turnState_reset, TurnState.drained] using hq
    exact absurd hnil h.queue_ne_nil

/-- As long as only turns are taken and nothing fails, nothing is drawn after a handover. -/
theorem successInvariant_yields (hi : s.config.interactive = true) (stopped : Prop)
    (calls : List Call) :
    SuccessInvariant (fun r => ∃ room, r = .answer room) fun t =>
      ∃ more, s.Attends (calls ++ more) t ∧ t.turnState.Yields s.config stopped calls more where
  showing := by
    rintro t room ⟨more, h, hy⟩
    exact ⟨more, ⟨h.config, h.queue_ne_nil, h.calls_eq, h.heeds⟩, hy⟩
  pass := by
    rintro t outcome u ⟨more, h, hy⟩ hpass
    obtain ⟨last, hu, hyields⟩ := h.pass hy hi hpass
    exact ⟨_, hu, hyields⟩
  query := by
    rintro t text room u - ⟨_, ⟨⟩⟩
  reset := by
    rintro t - ⟨_, ⟨⟩⟩

/-- In interactive mode nothing is drawn after what hands the turn to the user, as long as nothing
fails: what was said since the last query does not hand over at any draw; and no matter how often
turns are taken, nothing is drawn after a token that hands over was drawn, or after a queue was read
that hands over, before the next query or new beginning. -/
theorem no_draw_after_handover {now : Nat} {config : Config} {engine : Engine}
    {directory : Directory} {s : Session} {w : Workbench}
    (h : Session.start now config engine directory = .ok s w) (hi : s.config.interactive = true)
    (requests answers : List Request) (hs : s.AllAllowed Succeeds (requests ++ answers))
    (ha : ∀ r ∈ answers, ∃ room, r = .answer room) :
    (∀ before guided,
      before ++ [.sample guided] <+: s.samplerCallsSince (s.serveAll (requests ++ answers)) →
        ¬ HandsOver s.config.antiprompts (said before)) ∧
    ∀ before guided,
      before ++ [.sample guided] <+:
        (s.serveAll requests).samplerCallsSince (s.serveAll (requests ++ answers)) →
      ¬ ((s.serveAll requests).progress.queueDrained = true ∧
        HandsOver s.config.antiprompts (said (s.samplerCallsSince (s.serveAll requests)))) ∧
      ¬ DrawsHandover s.config.antiprompts (s.samplerCallsSince (s.serveAll requests)) before := by
  have hbegun := start_eq_ok h
  have hbegins : s.Attends [] s := by
    refine ⟨rfl, hbegun.queue_ne_nil, (List.append_nil _).symm, ⟨hbegun.recent, ?_⟩, ?_⟩
    · intro before guided hprefix
      simp at hprefix
    · exact fun _ => .inr (not_handsOver_nil _)
  obtain ⟨hrequests, hanswers⟩ := allAllowed_append.mp hs
  obtain ⟨calls, hu⟩ := (successInvariant_attends hi).serveAll ⟨[], hbegins⟩
    (fun _ _ => trivial) hrequests
  rw [serveAll_append]
  generalize s.serveAll requests = u at hu hanswers ⊢
  rw [samplerCallsSince_of_eq_append hu.calls_eq]
  -- From here on only turns are taken, so that a handover keeps anything from being drawn.
  have hstopped : u.progress.queueDrained = true ∧ HandsOver s.config.antiprompts (said calls) →
      u.turnState.userTurn = true := fun ⟨hq, hover⟩ =>
    (hu.heeds.heeded hq).resolve_right (not_not_intro hover)
  obtain ⟨more, ht, hyields⟩ := (successInvariant_yields hi _ calls).serveAll
    ⟨[], by simpa using hu, .nil hstopped⟩ ha hanswers
  have hmore : u.samplerCallsSince (u.serveAll answers) = more := by
    apply samplerCallsSince_of_eq_append
    rw [ht.calls_eq, hu.calls_eq, List.append_assoc]
  rw [samplerCallsSince_of_eq_append ht.calls_eq, hmore]
  exact ⟨ht.heeds.draws, hyields.draws⟩

/-- A second answer draws no token once the first one came to the reverse prompt. -/
theorem no_draw_after_handover_of_repeated_answer :
    ∃ s w, Session.start 0 { prompt := "ab", interactive := true, antiprompts := ["B:"] }
        { script := Token.ofText "cB:xy" } {} = .ok s w ∧
      HandsOver s.config.antiprompts (said (s.samplerCallsSince (s.serveAll [.answer none]))) ∧
      (s.samplerCallsSince (s.serveAll [.answer none, .answer none])).countP
        (· = .sample false) = 3 ∧
      ∀ before guided,
        before ++ [.sample guided] <+:
          s.samplerCallsSince (s.serveAll [.answer none, .answer none]) →
        ¬ HandsOver s.config.antiprompts (said before) := by
  obtain ⟨s, w, h, htest⟩ := exists_of_gives
    (fun s => s.config.interactive ∧
      s.AllAllowed Succeeds ([.answer none] ++ [.answer none]) ∧
      HandsOver s.config.antiprompts (said (s.samplerCallsSince (s.serveAll [.answer none]))) ∧
      (s.samplerCallsSince (s.serveAll [.answer none, .answer none])).countP
        (· = .sample false) = 3)
    (r := Session.start 0 { prompt := "ab", interactive := true, antiprompts := ["B:"] }
      { script := Token.ofText "cB:xy" } {}) (by decide +kernel)
  obtain ⟨hi, hs, hover, hcount⟩ := of_decide_eq_true htest
  exact ⟨s, w, h, hover, hcount,
    (no_draw_after_handover h hi [.answer none] [.answer none] hs (by simp)).1⟩

end Session

end Dialogue
