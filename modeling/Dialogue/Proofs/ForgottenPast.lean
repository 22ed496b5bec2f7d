import Dialogue.Proofs.BareSessions
import Dialogue.Proofs.GuidanceFailures
import Dialogue.Proofs.QueryTurnState
import Dialogue.Proofs.History
/-!
# The past of a dialogue that begins anew

To begin a dialogue anew leaves the tokens accepted last as they are, though reverse prompts are
looked for in them. So a session goes on as one that was built with its queue only as long as no
reverse prompt reaches back over the queue into what was accepted before.
-/

namespace Dialogue

open Effect

/-! ### What is found at the end -/

/-- Of accepted tokens, those in which reverse prompts are looked for. -/
def lately (accepted : List Token) : List Token :=
  accepted.drop (accepted.length - Antiprompt.recentTokens)

private theorem lately_append_of_le {b : List Token} (h : Antiprompt.recentTokens ≤ b.length)
    (a : List Token) : lately (a ++ b) = lately b := by
  have hlength : (a ++ b).length - Antiprompt.recentTokens =
      a.length + (b.length - Antiprompt.recentTokens) := by
    rw [List.length_append]
    omega
  rw [lately, hlength, ← List.drop_drop, List.drop_left, lately]

private theorem exists_lately_append {b : List Token} (h : b.length ≤ Antiprompt.recentTokens)
    (a : List Token) : ∃ r, lately (a ++ b) = r ++ b := by
  refine ⟨a.drop ((a ++ b).length - Antiprompt.recentTokens), ?_⟩
  rw [lately, List.drop_append_of_le_length]
  rw [List.length_append]
  omega

/-- What comes later does not bring back what was too long ago. -/
theorem lately_lately_append (a b : List Token) : lately (lately a ++ b) = lately (a ++ b) := by
  by_cases h : a.length ≤ Antiprompt.recentTokens
  · have hall : lately a = a := by rw [lately, Nat.sub_eq_zero_of_le h, List.drop_zero]
    rw [hall]
  · have hlength : (lately a).length = Antiprompt.recentTokens := by
      rw [lately, List.length_drop]
      omega
    have hle : Antiprompt.recentTokens ≤ (lately a ++ b).length := by
      rw [List.length_append]
      omega
    have hsplit : a.take (a.length - Antiprompt.recentTokens) ++ lately a = a :=
      List.take_append_drop _ _
    calc lately (lately a ++ b)
        = lately (a.take (a.length - Antiprompt.recentTokens) ++ (lately a ++ b)) :=
          (lately_append_of_le hle _).symm
      _ = lately (a ++ b) := by rw [← List.append_assoc, hsplit]

private theorem lately_append_congr {a b : List Token} (h : lately a = lately b)
    (tokens : List Token) :
    lately (a ++ tokens) = lately (b ++ tokens) := by
  rw [← lately_lately_append a, h, lately_lately_append]

private theorem getLast?_lately (a : List Token) : (lately a).getLast? = a.getLast? := by
  rw [lately, List.getLast?_drop, Antiprompt.recentTokens]
  split
  · next hle =>
    have hnil : a = [] := List.length_eq_zero_iff.mp (by omega)
    rw [hnil]
    rfl
  · rfl

namespace Config

/-- Whether a reverse prompt is found at the end of accepted tokens. -/
def stopsAt (c : Config) (accepted : List Token) : Bool :=
  (Antiprompt.find? (Token.render (lately accepted)) c.antiprompts c.interactive).isSome

/-- What follows a step, by the tokens accepted up to its end. -/
def handback (c : Config) (accepted : List Token) : Handback :=
  .decide (c.stopsAt accepted) (accepted.getLast? = some Token.eos) c.interactive c.instruct
    (c.antiprompts ≠ [])

private theorem handback_congr (c : Config) {a b : List Token} (h : lately a = lately b) :
    c.handback a = c.handback b := by
  rw [handback, handback, stopsAt, stopsAt, h, ← getLast?_lately a, h, getLast?_lately]

/-- Behind a text as long as every reverse prompt, with the tail that is allowed, it does not matter
what was accepted before. -/
theorem stopsAt_append_of_long {c : Config} {queue : List Token}
    (h : ∀ a ∈ c.antiprompts, Text.byteLength a.toList + Antiprompt.slack c.interactive ≤
      Text.byteLength (Token.render queue).toList) (x y more : List Token) :
    c.stopsAt (x ++ (queue ++ more)) = c.stopsAt (y ++ (queue ++ more)) := by
  rcases Nat.le_total (queue ++ more).length Antiprompt.recentTokens with hle | hle
  · -- All of the queue is looked at, and behind it the same is found whatever is in front.
    have hfinds (x : List Token) : ∀ a ∈ c.antiprompts,
        Antiprompt.endsText c.interactive (Token.render (x ++ (queue ++ more))).toList a.toList =
          Antiprompt.endsText c.interactive (Token.render (queue ++ more)).toList a.toList := by
      intro a ha
      rw [Token.render_append, String.toList_append]
      apply Antiprompt.endsText_append_of_le
      rw [Token.render_append, String.toList_append, Antiprompt.byteLength_append]
      exact Nat.le_trans (h a ha) (Nat.le_add_right _ _)
    obtain ⟨r, hr⟩ := exists_lately_append hle x
    obtain ⟨r', hr'⟩ := exists_lately_append hle y
    rw [stopsAt, stopsAt, hr, hr', Antiprompt.find?, Antiprompt.find?, Bool.eq_iff_iff,
      List.find?_isSome, List.find?_isSome]
    refine exists_congr fun a => and_congr_right fun ha => ?_
    rw [hfinds r a ha, hfinds r' a ha]
  · rw [stopsAt, stopsAt, lately_append_of_le hle, lately_append_of_le hle]

end Config

/-! ### What the turn state remembers -/

namespace TurnState

variable {c : Config} {again : Prop} {v u v' u' : TurnState} {old queue part since : List Token}

private theorem lately_remembered (recent : List Token) (token : Token) :
    lately (remembered recent token) = lately (recent ++ [token]) := by
  unfold remembered
  split
  · next h =>
    cases recent with
    | nil => rfl
    | cons t recent =>
      have hle : Antiprompt.recentTokens ≤ (recent ++ [token]).length := by
        rw [List.length_cons, Progress.recentCapacity] at h
        rw [List.length_append, Antiprompt.recentTokens]
        omega
      exact (lately_append_of_le hle [t]).symm
  · rfl

private theorem lately_foldl_remembered (recent tokens : List Token) :
    lately (tokens.foldl remembered recent) = lately (recent ++ tokens) := by
  induction tokens generalizing recent with
  | nil => rw [List.foldl_nil, List.append_nil]
  | cons token tokens ih =>
    rw [List.foldl_cons, ih, lately_append_congr (lately_remembered recent token),
      List.append_assoc]
    rfl

/-- The turn state apart from the tokens accepted last. -/
def forgetful (v : TurnState) : TurnState := { v with recent := [] }

/-- The tokens that are accepted to fill the next step. -/
def filling (v : TurnState) (c : Config) : List Token :=
  if v.drained && !v.userTurn then if v.spent c then [] else [v.next]
  else v.unread.take (max c.batchSize 1)

private theorem Filled.recent_eq (h : v.Filled c (.ok ()) u) :
    u.recent = (v.filling c).foldl remembered v.recent := by
  cases h with
  | spent hq hu hs => simp [filling, hq, hu, hs]
  | drawn hq hu hs => simp [filling, hq, hu, hs, draw]
  | taken h =>
    have hopen : (v.drained && !v.userTurn) = false := by rcases h with h | h <;> simp [h]
    simp [filling, hopen, take]

/-- How the tokens that two turn states remember came about: since a queue was to be read from its
beginning on, the same tokens were accepted, and before them there are other ones in the first
turn state, which do not matter behind the queue. If the dialogue can begin once more, a part of the
queue may have been read before. -/
structure Since (c : Config) (again : Prop) (old queue part since : List Token) (v u : TurnState) :
    Prop where
  /-- What was accepted before does not matter behind the queue. -/
  alone : ∀ part more, part = [] ∨ again →
    c.handback (old ++ (part ++ (queue ++ more))) = c.handback (part ++ (queue ++ more))
  /-- Whether something may have been read before. -/
  part_eq : part = [] ∨ again
  /-- The queue is still there. -/
  prefix_queue : queue <+: v.queue
  /-- It was read, or nothing else was accepted since. -/
  reads : queue <+: since ∨ since = v.queue.take v.queueRead
  /-- What the first turn state remembers. -/
  recent : lately v.recent = lately (old ++ (part ++ since))
  /-- What the second turn state remembers. -/
  recent' : lately u.recent = lately (part ++ since)

/-- Whether the tokens that two turn states remember came about like that. -/
def Joined (c : Config) (again : Prop) (v u : TurnState) : Prop :=
  ∃ old queue part since, Since c again old queue part since v u

private theorem Since.read (h : Since c again old queue part since v u) (hd : v.drained = true) :
    queue <+: since := by
  rcases h.reads with hread | hread
  · exact hread
  · have hle : v.queue.length ≤ v.queueRead := of_decide_eq_true hd
    rw [hread, List.take_of_length_le hle]
    exact h.prefix_queue

/-- Once the queue is read, the same follows the step. -/
theorem Joined.handback_eq (h : Joined c again v u) (hd : v.drained = true) :
    v.handback c = u.handback c := by
  obtain ⟨old, queue, part, since, h⟩ := h
  obtain ⟨more, rfl⟩ := h.read hd
  calc v.handback c = c.handback (old ++ (part ++ (queue ++ more))) := c.handback_congr h.recent
    _ = c.handback (part ++ (queue ++ more)) := h.alone part more h.part_eq
    _ = u.handback c := (c.handback_congr h.recent').symm

/-- Turn states that remember the same are joined. -/
theorem joined_of_recent_eq (h : v.recent = u.recent) : Joined c again v u :=
  ⟨[], [], [], u.recent, fun _ _ _ => rfl, .inl rfl, List.nil_prefix, .inl List.nil_prefix,
    congrArg lately h, rfl⟩

/-- The same tokens are accepted in both turn states to fill the next step. -/
theorem Joined.filled (h : Joined c again v u) (hsame : v.forgetful = u.forgetful)
    (hv : v.Filled c (.ok ()) v') (hu : u.Filled c (.ok ()) u') : Joined c again v' u' := by
  obtain ⟨old, queue, part, since, h⟩ := h
  have hfilling := congrArg (fun v => filling v c) hsame
  change v.filling c = u.filling c at hfilling
  have hqueue : v'.queue = v.queue := by cases hv <;> rfl
  refine ⟨old, queue, part, since ++ v.filling c, h.alone, h.part_eq, ?_, ?_, ?_, ?_⟩
  · rw [hqueue]
    exact h.prefix_queue
  · cases hv with
    | spent hq => exact .inl ((h.read hq).trans (List.prefix_append _ _))
    | drawn hq => exact .inl ((h.read hq).trans (List.prefix_append _ _))
    | taken hopen =>
      refine h.reads.imp (fun hread => hread.trans (List.prefix_append _ _)) fun hread => ?_
      have hrest : (v.drained && !v.userTurn) = false := by
        rcases hopen with hopen | hopen <;> simp [hopen]
      rw [hread, filling, hrest, if_neg Bool.false_ne_true]
      simp only [take, unread, List.take_add, List.length_take]
      rw [← List.take_take, List.take_length]
  · rw [hv.recent_eq, lately_foldl_remembered, lately_append_congr h.recent]
    simp only [List.append_assoc]
  · rw [hu.recent_eq, ← hfilling, lately_foldl_remembered, lately_append_congr h.recent']
    simp only [List.append_assoc]

/-- Deciding whose turn it is concerns nothing of this. -/
theorem Joined.concluded (h : Joined c again v u) {o : Option Outcome}
    (hv : v.Concluded c (.ok o) v') (hu : u.Concluded c (.ok o) u') : Joined c again v' u' := by
  obtain ⟨old, queue, part, since, h⟩ := h
  obtain ⟨tokens, _, _, rfl, -⟩ := hv.exists_eq
  obtain ⟨_, _, _, rfl, -⟩ := hu.exists_eq
  refine ⟨old, queue, part, since, h.alone, h.part_eq,
    h.prefix_queue.trans (List.prefix_append _ _), ?_, h.recent, h.recent'⟩
  by_cases hd : v.drained = true
  · exact .inl (h.read hd)
  · have hle : v.queueRead ≤ v.queue.length := by
      rw [drained, decide_eq_true_eq] at hd
      omega
    refine h.reads.imp_right fun hread => ?_
    rw [hread, List.take_append_of_le_length hle]

/-- If the dialogue begins once more, what was accepted stands before the queue that is read again.
-/
theorem Joined.restarted (h : Joined c again v u) (ha : again) (hq : v'.queue = v.queue)
    (hread : v'.queueRead = 0) (hv : v'.recent = v.recent) (hu : u'.recent = u.recent) :
    Joined c again v' u' := by
  obtain ⟨old, queue, part, since, h⟩ := h
  refine ⟨old, queue, part ++ since, [], h.alone, .inr ha, hq ▸ h.prefix_queue, .inr ?_, ?_, ?_⟩
  · rw [hread, List.take_zero]
  · rw [hv, h.recent, List.append_nil]
  · rw [hu, h.recent', List.append_nil]

end TurnState

/-! ### Sessions that remember different tokens -/

namespace Session

variable {α : Type} {again : Prop} {s t u : Session}

/-- Two sessions without a session file that are the same apart from what their contexts hold and
from the tokens accepted before a queue, which do not matter behind it. -/
structure Rejoined (again : Prop) (s t : Session) : Prop where
  /-- They are the same apart from that. -/
  twin : s.Twin t
  /-- What they remember came about like that. -/
  joined : s.turnState.Joined s.config again t.turnState

private theorem twin_left_of_meets {x : SessionM α} (h : Meets Twin (Rejoined again) x s t) :
    (left (x s)).Twin (left (x t)) :=
  h.left (P := Twin) (fun _ _ h => h) fun _ _ h => h.twin

private theorem Twin.rejoined_self (h : s.Twin s) : Rejoined again s s :=
    ⟨h, TurnState.joined_of_recent_eq rfl⟩

namespace Rejoined

private theorem meets_of_keeps {x : SessionM α} (h : Rejoined again s t) (hx : Respects Twin x)
    (hk : Keeps turnAndConfig x) : Meets Twin (Rejoined again) x s t :=
  (hx s t h.twin).mono_ok fun _ s' t' hs ht h' => ⟨h', by
    obtain ⟨hturnState, hconfig⟩ := turnAndConfig_eq (hk.of_ok hs)
    obtain ⟨hturnState', -⟩ := turnAndConfig_eq (hk.of_ok ht)
    rw [hturnState, hconfig, hturnState']
    exact h.joined⟩

private theorem meets_refill (h : Rejoined again s t) : Meets Twin (Rejoined again) refill s t :=
  (twin_refill s t h.twin).mono_ok fun _ s' t' hs ht h' => by
    obtain ⟨hconfig, hfilled⟩ := (ends_refill_turnState s).of_ok hs
    obtain ⟨-, hfilled'⟩ := (ends_refill_turnState t).of_ok ht
    rw [h.twin.config_eq] at hfilled'
    have hsame := congrArg Session.turnState h.twin.bare
    refine ⟨h', ?_⟩
    rw [hconfig]
    exact h.joined.filled hsame hfilled hfilled'

private theorem meets_conclude (h : Rejoined again s t) :
    Meets Twin (Rejoined again) conclude s t := by
  have hhandback (hq : s.progress.queueDrained = true) : s.handback = t.handback := by
    calc s.handback = t.turnState.handback s.config := h.joined.handback_eq hq
      _ = t.handback := by
        rw [← h.twin.config_eq]
        rfl
  refine (Session.meets_conclude h.twin hhandback).mono_ok fun o s' t' hs ht h' => ?_
  obtain ⟨hconfig, hconcluded⟩ := (ends_conclude_turnState s).of_ok hs
  obtain ⟨-, hconcluded'⟩ := (ends_conclude_turnState t).of_ok ht
  rw [h.twin.config_eq] at hconcluded'
  refine ⟨h', ?_⟩
  rw [hconfig]
  exact h.joined.concluded hconcluded hconcluded'

private theorem meets_takeStep (h : Rejoined again s t) :
    Meets Twin (Rejoined again) takeStep s t := by
  refine (h.meets_of_keeps twin_clearPending frame_turnAndConfig.keeps_clearPending).bind
    fun _ _ _ _ _ hcleared => ?_
  refine hcleared.meets_refill.bind fun _ _ _ _ _ hfilled => ?_
  refine (hfilled.meets_of_keeps twin_display keeps_turnAndConfig_display).bind
    fun _ _ _ _ _ hshown => ?_
  exact hshown.meets_conclude

/-- A pass comes to the same in both sessions. -/
theorem meets_pass (h : Rejoined again s t) : Meets Twin (Rejoined again) pass s t := by
  refine (h.meets_of_keeps twin_evaluatePending frame_turnAndConfig.keeps_evaluatePending).bind
    fun r s' t' _ _ h' => ?_
  cases r with
  | none => exact h'.meets_takeStep
  | some reason =>
    apply h'.meets_of_keeps
    · exact .bind (twin_finish _ _) fun _ => .pure _
    · exact .bind (frame_turnAndConfig.keeps_finish _ _) fun _ => .pure _

/-- So does a turn. -/
theorem meets_answer (h : Rejoined again s t) : Meets Twin (Rejoined again) answer s t := by
  unfold Meets
  fun_induction answer s generalizing t with
  | case1 s e s' hpass =>
    rcases h.meets_pass.cases with ⟨_, _, _, hs, -, -⟩ | ⟨_, _, t', hs, ht, h'⟩ <;>
      cases hpass.symm.trans hs
    rw [answer_eq t, ht]
    exact ⟨rfl, h'⟩
  | case2 s outcome s' hpass =>
    obtain ⟨t', ht, h'⟩ := h.meets_pass.exists_ok hpass
    rw [answer_eq t, ht]
    exact ⟨rfl, h'⟩
  | case3 s s' hpass ih =>
    obtain ⟨t', ht, h'⟩ := h.meets_pass.exists_ok hpass
    rw [answer_eq t, ht]
    exact ih h'

end Rejoined

/-- A query leaves nothing to remember. -/
theorem Twin.meets_query (h : s.Twin t) (text : String) :
    Meets Twin (Rejoined again) (query text) s t :=
  (twin_query text s t h).mono_ok fun _ s' t' hs ht h' => by
    have hforgets {s s' : Session} (hs : query text s = .ok () s') : s'.turnState.recent = [] := by
      obtain ⟨-, hheard⟩ := (ends_query_turnState text s).of_ok hs
      generalize s'.turnState = v at hheard
      cases hheard
      rfl
    exact ⟨h', TurnState.joined_of_recent_eq ((hforgets hs).trans (hforgets ht).symm)⟩

/-! ### Requests -/

/-- Whether two sessions answer a request alike: they give and show the same, and make the same
calls. -/
def AnswersAlike (s t : Session) (r : Request) : Prop :=
  s.reply r = t.reply r ∧ (r ≠ .reset → (s.serve r).output = (t.serve r).output) ∧
    (s.serve r).engine.calls = (t.serve r).engine.calls

private theorem Twin.output_eq (h : s.Twin t) : s.output = t.output := by
  have houtput := congrArg Session.output h.bare
  exact houtput

private theorem Twin.calls_eq (h : s.Twin t) : s.engine.calls = t.engine.calls := by
  have hcalls := congrArg (fun s => s.engine.calls) h.bare
  exact hcalls

/-- A dialogue that begins anew looks the same wherever it was, if there is no session file. -/
theorem Twin.reset (h : s.Twin t) : s.reset.Twin t.reset := by
  have hbare {s : Session} (hs : s.cache.path = none) : s.reset.bare = s.bare.reset := by
    simp [Session.reset, Session.bare, Workbench.bare, Cache.isActive, hs]
  refine ⟨?_, h.filing⟩
  rw [hbare h.bench.path.1, hbare h.bench.path.2, h.bare]

namespace Rejoined

/-- What is shown at first does not matter. -/
theorem showing (h : Rejoined again s t) (room : Option Nat) :
    Rejoined again (s.showing room) (t.showing room) :=
  ⟨⟨congrArg (fun s : Session => s.showing room) h.twin.bare, h.twin.filing⟩, h.joined⟩

private theorem reset (h : Rejoined again s t) (ha : again) : Rejoined again s.reset t.reset :=
  ⟨h.twin.reset, h.joined.restarted ha rfl rfl rfl rfl⟩

/-- A request that succeeds is served in the same way. -/
theorem serve {r : Request} (h : Rejoined again (s.showing none) (t.showing none))
    (hr : s.Succeeds r) (ha : r = .reset → again) :
    Rejoined again ((s.serve r).showing none) ((t.serve r).showing none) := by
  cases r with
  | answer room =>
    obtain ⟨o, s', hs⟩ := hr
    obtain ⟨t', ht, h'⟩ := (h.showing room).meets_answer.exists_ok hs
    change answer (t.showing room) = .ok o t' at ht
    rw [Session.serve, Session.serve, hs, ht]
    exact h'.showing none
  | query text room =>
    obtain ⟨s', hs⟩ := hr
    obtain ⟨t', ht, h'⟩ := ((h.showing room).twin.meets_query text).exists_ok hs
    change query text (t.showing room) = .ok () t' at ht
    rw [Session.serve, Session.serve, hs, ht]
    exact h'.showing none
  | reset => exact h.reset (ha rfl)

private theorem serveAll {requests : List Request}
    (h : Rejoined again (s.showing none) (t.showing none))
    (hr : s.AllAllowed Succeeds requests) (ha : .reset ∈ requests → again) :
    Rejoined again ((s.serveAll requests).showing none) ((t.serveAll requests).showing none) := by
  induction requests generalizing s t with
  | nil => exact h
  | cons r rs ih =>
    refine ih (h.serve hr.1 fun hr => ha ?_) hr.2 fun hrs => ha (List.mem_cons_of_mem _ hrs)
    rw [hr]
    exact List.mem_cons_self

/-- The next request is answered alike, also if it fails. -/
theorem answersAlike (h : Rejoined again (s.showing none) (t.showing none)) (r : Request) :
    s.AnswersAlike t r := by
  cases r with
  | answer room =>
    have hmeets := (h.showing room).meets_answer
    have htwin := twin_left_of_meets hmeets
    exact ⟨congrArg (Except.map some) hmeets.outcome_eq, fun _ => htwin.output_eq, htwin.calls_eq⟩
  | query text room =>
    have hmeets : Meets Twin (Rejoined again) (query text) (s.showing room) (t.showing room) :=
      (h.showing room).twin.meets_query text
    have htwin := twin_left_of_meets hmeets
    exact ⟨congrArg (Except.map fun _ => none) hmeets.outcome_eq, fun _ => htwin.output_eq,
      htwin.calls_eq⟩
  | reset => exact ⟨rfl, fun hr => absurd rfl hr, h.twin.calls_eq⟩

/-- The same becomes of a history. -/
theorem history_eq {requests : List Request}
    (h : Rejoined again (s.showing none) (t.showing none)) (hr : s.AllAllowed Succeeds requests)
    (ha : .reset ∈ requests → again) (past : List Token) :
    s.history past requests = t.history past requests := by
  induction requests generalizing s t past with
  | nil => rfl
  | cons r rs ih =>
    have hserve : Rejoined again ((s.serve r).showing none) ((t.serve r).showing none) :=
      h.serve hr.1 fun hr => ha (by rw [hr]; exact List.mem_cons_self)
    have hrest (past : List Token) : (s.serve r).history past rs = (t.serve r).history past rs :=
      ih hserve hr.2 (fun hrs => ha (List.mem_cons_of_mem _ hrs)) past
    have hsince : s.historySince (s.serve r) past = t.historySince (t.serve r) past := by
      have hboth := congr (congrArg (fun s t : Session => s.historySince t past) h.twin.bare)
        hserve.twin.bare
      exact hboth
    cases r with
    | answer room | query text room =>
      rw [history, history, hsince]
      · exact hrest _
      · nofun
      · nofun
    | reset => exact hrest []

end Rejoined

/-- Without a session file nothing is logged, whatever is asked. -/
theorem filing_serveAll (requests : List Request) (h : s.filing = (none, [])) :
    (s.serveAll requests).filing = (none, []) := by
  induction requests generalizing s with
  | nil => exact h
  | cons r rs ih =>
    apply ih
    cases r with
    | answer room =>
      have htwin : (s.showing room).Twin (s.showing room) := ⟨rfl, h⟩
      have hself : Rejoined True (s.showing room) (s.showing room) := htwin.rejoined_self
      exact (twin_left_of_meets hself.meets_answer).filing
    | query text room =>
      have htwin : (s.showing room).Twin (s.showing room) := ⟨rfl, h⟩
      have hmeets : Meets Twin (Rejoined True) (query text) (s.showing room) (s.showing room) :=
        htwin.meets_query text
      exact (twin_left_of_meets hmeets).filing
    | reset => exact h

/-- There always is something queued. -/
theorem invariant_queue_ne_nil :
    Invariant (fun _ _ => True) fun s => s.progress.queue ≠ [] where
  showing _ _ h := h
  pass s h := by
    have hprefix : Ends pass s fun _ t => s.turnState.queue <+: t.turnState.queue :=
      (ends_pass_turnState s).mono fun _ _ ht => ht.2.prefix_queue
    exact fun hnil => h (List.prefix_nil.mp (hnil ▸ hprefix.left))
  query s text room h _ := by
    have hprefix : Ends (query text) (s.showing room) fun _ t =>
        s.mainContext.queue <+: t.mainContext.queue :=
      (ends_query text _).mono fun _ _ ht => ht.2.prefix_queue
    exact fun hnil => h (List.prefix_nil.mp (hnil ▸ hprefix.left))
  reset _ h _ := h

/-! ### The session built anew -/

/-- A session that begins with the queue of this one, with what was settled for it and on its
engine, whose contexts are empty. The calls that were made are left in the log. -/
def rebuilt (s : Session) : Session :=
  reset
    { engine := s.engine.emptied
      directory := s.directory
      progress := { remaining := s.config.predict, queue := s.progress.queue }
      config := s.config
      window := s.window
      guidance := s.guidance
      instructLead := s.instructLead
      instructTail := s.instructTail
      matched := 0 }

/-- A session that begins without a session file is the one that is built anew of it, apart from the
cells and the journal. -/
theorem twin_rebuilt_of_start {now : Nat} {config : Config} {engine : Engine}
    {directory : Directory} {s : Session} {w : Workbench}
    (h : Session.start now config engine directory = .ok s w) (hfile : config.cachePath = none) :
    s.Twin s.rebuilt := by
  have hmain := (start_eq_ok h).mainContext_eq hfile
  have hfiling : s.filing = (none, []) :=
    congrArg (fun v : MainContext => (v.path, v.logged)) hmain
  rw [start, Workbench.startSession_eq] at h
  obtain ⟨v, w₁, -, h⟩ := bind_eq_ok h
  cases h
  refine ⟨?_, hfiling⟩
  obtain ⟨hpath, hlogged⟩ := Prod.mk.inj hfiling
  simp only [Workbench.Settlement.session, Session.reset] at hpath hlogged
  simp [Workbench.Settlement.session, rebuilt, Session.reset, bare, Workbench.bare,
    Engine.emptied, Cache.isActive, hlogged, hpath]

/-- Whether no reverse prompt reaches back over the queue: what is found at the end of the tokens
accepted from the queue on does not depend on those accepted last. If the queue may be read again, a
part of it may stand between. -/
def StandsAlone (s : Session) (again : Prop) : Prop :=
  ∀ part more, part = [] ∨ again →
    s.config.stopsAt (s.progress.recent ++ (part ++ (s.progress.queue ++ more))) =
      s.config.stopsAt (part ++ (s.progress.queue ++ more))

/-- No reverse prompt reaches back over a queue whose text is as long, with the tail that is
allowed. -/
theorem standsAlone_of_long (again : Prop)
    (h : ∀ a ∈ s.config.antiprompts,
      Text.byteLength a.toList + Antiprompt.slack s.config.interactive ≤
        Text.byteLength (Token.render s.progress.queue).toList) : s.StandsAlone again := by
  intro part more _
  rw [← List.append_assoc]
  exact Config.stopsAt_append_of_long h _ _ _

/-- A dialogue that begins anew is at first the session that is built anew. -/
theorem StandsAlone.rejoined (h : s.StandsAlone again) (hfiling : s.filing = (none, []))
    (hqueue : s.progress.queue ≠ []) :
    Rejoined again (s.reset.showing none) (s.rebuilt.showing none) := by
  obtain ⟨hpath, hlogged⟩ := Prod.mk.inj hfiling
  refine ⟨⟨?_, hfiling⟩, s.progress.recent, s.progress.queue, [], [], ?_, .inl rfl,
    List.prefix_rfl, .inr rfl, ?_, rfl⟩
  · simp [rebuilt, Session.reset, showing, bare, Workbench.bare, Engine.emptied, Cache.isActive,
      hpath, hlogged]
  · intro part more hpart
    have hne : part ++ (s.progress.queue ++ more) ≠ [] := by simp [hqueue]
    have hlast : (s.progress.recent ++ (part ++ (s.progress.queue ++ more))).getLast? =
        (part ++ (s.progress.queue ++ more)).getLast? := by
      rw [List.getLast?_append, List.getLast?_eq_some_getLast hne, Option.some_or]
    change s.config.handback _ = s.config.handback _
    rw [Config.handback, Config.handback, h part more hpart, hlast]
  · rw [List.append_nil, List.append_nil]
    rfl

/-- If the same becomes of both histories, the cells that are resident hold the same, as long as
cells are removed and moved without fail. -/
theorem get?_serveAll_of_history_eq {later : List Request} (hfiling : u.filing = (none, []))
    (hkeep : 0 ≤ u.window.keep) (hremove : ∀ b ∈ u.engine.faults.remove, b = false)
    (hshift : ∀ b ∈ u.engine.faults.shift, b = false)
    (hhistory : u.reset.history [] later = u.rebuilt.history [] later) {p : Int} (hp : 0 ≤ p)
    (hlt : p < (u.reset.serveAll later).progress.past) :
    (u.reset.serveAll later).engine.mainCells.get? p =
      (u.rebuilt.serveAll later).engine.mainCells.get? p := by
  obtain ⟨hpath, hlogged⟩ := Prod.mk.inj hfiling
  have hunfiled : u.reset.mainContext.Unfiled := ⟨hpath, hlogged, hremove, hshift⟩
  have hunfiled' : u.rebuilt.mainContext.Unfiled := ⟨rfl, rfl, hremove, hshift⟩
  have hempty : u.reset.mainContext.Mirrors [] := ⟨rfl, nofun⟩
  have hempty' : u.rebuilt.mainContext.Mirrors [] := ⟨rfl, nofun⟩
  obtain ⟨-, -, ⟨hsize, hcells⟩, -⟩ := mirrors_history (s := u.reset) later hkeep hunfiled hempty
  obtain ⟨-, -, ⟨-, hcells'⟩, -⟩ := mirrors_history (s := u.rebuilt) later hkeep hunfiled' hempty'
  rw [← hhistory] at hcells'
  obtain ⟨n, rfl⟩ := Int.eq_ofNat_of_zero_le hp
  have hn : n < (u.reset.history [] later).length := by
    change ((u.reset.serveAll later).progress.past = _) at hsize
    omega
  exact (hcells n hn).trans (hcells' n hn).symm

/-- To begin anew forgets the past: without a session file, and whatever was asked before, the
requests that follow are answered as by the session that is built anew with the queue there is, as
long as none fails; the same calls are made, as many tokens are resident, and the cells up to there
hold the same unless removing or moving cells fails. This holds where no reverse prompt reaches back
over the queue into what was accepted before. -/
theorem reset_forgets_past {now : Nat} {config : Config} {engine : Engine} {directory : Directory}
    {s : Session} {w : Workbench} (h : Session.start now config engine directory = .ok s w)
    (hfile : config.cachePath = none) (before later : List Request)
    (halone : (s.serveAll before).StandsAlone (.reset ∈ later))
    (hlater : (s.serveAll before).reset.AllAllowed Succeeds later) :
    (∀ r, ((s.serveAll before).reset.serveAll later).AnswersAlike
      ((s.serveAll before).rebuilt.serveAll later) r) ∧
    ((s.serveAll before).reset.serveAll later).engine.calls =
      ((s.serveAll before).rebuilt.serveAll later).engine.calls ∧
    ((s.serveAll before).reset.serveAll later).progress.past =
      ((s.serveAll before).rebuilt.serveAll later).progress.past ∧
    ((∀ b ∈ (s.serveAll before).engine.faults.remove, b = false) →
      (∀ b ∈ (s.serveAll before).engine.faults.shift, b = false) →
      ∀ p, 0 ≤ p → p < ((s.serveAll before).reset.serveAll later).progress.past →
        ((s.serveAll before).reset.serveAll later).engine.mainCells.get? p =
          ((s.serveAll before).rebuilt.serveAll later).engine.mainCells.get? p) := by
  have hbegun := start_eq_ok h
  have hall : s.AllAllowed (fun _ _ => True) before := allAllowed_true s before
  have hfiling : (s.serveAll before).filing = (none, []) :=
    filing_serveAll before (congrArg (fun v : MainContext => (v.path, v.logged))
      (hbegun.mainContext_eq hfile))
  have hqueue : (s.serveAll before).progress.queue ≠ [] :=
    invariant_queue_ne_nil.serveAll hbegun.queue_ne_nil hall
  have hkeep : 0 ≤ (s.serveAll before).window.keep := by
    rw [window_of_settled ((invariant_settled s).serveAll rfl hall)]
    exact hbegun.keep
  generalize s.serveAll before = u at halone hlater hfiling hqueue hkeep ⊢
  have hrejoined := halone.rejoined hfiling hqueue
  have hend := hrejoined.serveAll hlater id
  have hpast := congrArg (fun s => s.progress.past) hend.twin.bare
  have hhistory := hrejoined.history_eq (s := u.reset) (t := u.rebuilt) hlater id []
  exact ⟨hend.answersAlike, hend.twin.calls_eq, hpast, fun hremove hshift _ hp hlt =>
    get?_serveAll_of_history_eq hfiling hkeep hremove hshift hhistory hp hlt⟩

/-- After a dialogue whose last token begins the reverse prompt, a prompt as long as that is read
once more, and again after a further beginning. -/
theorem reset_forgets_past_of_long_prompt :
    ∃ s w, Session.start 0
        { prompt := "cd", interactive := true, antiprompts := ["ab"], predict := 2 }
        { contextSize := 16, script := Token.ofText "xayzbvw" } {} = .ok s w ∧
      (s.serveAll [.answer none]).progress.recent = Token.ofText "cdxa" ∧
      ((s.serveAll [.answer none]).rebuilt.serveAll
        [.answer none, .reset, .answer none, .query "ef" none]).progress.past = 3 ∧
      ∀ r, ((s.serveAll [.answer none]).reset.serveAll
          [.answer none, .reset, .answer none, .query "ef" none]).AnswersAlike
        ((s.serveAll [.answer none]).rebuilt.serveAll
          [.answer none, .reset, .answer none, .query "ef" none]) r := by
  obtain ⟨s, w, h, htest⟩ := exists_of_gives
    (fun s => (s.serveAll [.answer none]).progress.recent = Token.ofText "cdxa" ∧
      ((s.serveAll [.answer none]).rebuilt.serveAll
        [.answer none, .reset, .answer none, .query "ef" none]).progress.past = 3 ∧
      (∀ a ∈ (s.serveAll [.answer none]).config.antiprompts,
        Text.byteLength a.toList +
            Antiprompt.slack (s.serveAll [.answer none]).config.interactive ≤
          Text.byteLength (Token.render (s.serveAll [.answer none]).progress.queue).toList) ∧
      (s.serveAll [.answer none]).reset.AllAllowed Succeeds
        [.answer none, .reset, .answer none, .query "ef" none])
    (r := Session.start 0
      { prompt := "cd", interactive := true, antiprompts := ["ab"], predict := 2 }
      { contextSize := 16, script := Token.ofText "xayzbvw" } {}) (by decide +kernel)
  obtain ⟨hrecent, hpast, hlong, hlater⟩ := of_decide_eq_true htest
  exact ⟨s, w, h, hrecent, hpast,
    (reset_forgets_past h rfl [.answer none] _ (standsAlone_of_long _ hlong) hlater).1⟩

/-- Where the queue is shorter than the reverse prompt, the dialogue that begins anew stops at one
that the last token of the dialogue before it and the queue make up, and draws nothing. -/
theorem reset_remembers_joined_prompt :
    ∃ s w, Session.start 0
        { prompt := "b", interactive := true, antiprompts := ["ab"], predict := 1 }
        { script := Token.ofText "ax" } {} = .ok s w ∧
      (s.serveAll [.answer none]).progress.recent = Token.ofText "ba" ∧
      ((s.serveAll [.answer none]).reset.reply (.answer none)).toOption =
        some (some ⟨.awaitingUser, .antiprompt⟩) ∧
      ((s.serveAll [.answer none]).rebuilt.reply (.answer none)).toOption =
        some (some ⟨.awaitingUser, .budgetExhausted⟩) := by
  obtain ⟨s, w, h, htest⟩ := exists_of_gives
    (fun s => (s.serveAll [.answer none]).progress.recent = Token.ofText "ba" ∧
      ((s.serveAll [.answer none]).reset.reply (.answer none)).toOption =
        some (some ⟨.awaitingUser, .antiprompt⟩) ∧
      ((s.serveAll [.answer none]).rebuilt.reply (.answer none)).toOption =
        some (some ⟨.awaitingUser, .budgetExhausted⟩))
    (r := Session.start 0
      { prompt := "b", interactive := true, antiprompts := ["ab"], predict := 1 }
      { script := Token.ofText "ax" } {}) (by decide +kernel)
  obtain ⟨hrecent, hreset, hrebuilt⟩ := of_decide_eq_true htest
  exact ⟨s, w, h, hrecent, hreset, hrebuilt⟩

end Session

end Dialogue
