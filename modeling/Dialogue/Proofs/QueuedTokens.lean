import Dialogue.Proofs.Accounts
import Dialogue.Proofs.QueryTurnState
import Dialogue.Proofs.Queuing
import Dialogue.Proofs.Starting
/-!
# What becomes of queued tokens

The sampler is told of the queued tokens in their order, and of each at most once. It is told of all
that were moved into a step but those that a query passed over: in instruct mode, when no reverse
prompt was said last, a query passes over what is queued and not moved yet, the token that opens its
own turn included.
-/

namespace Dialogue

open Effect

/-- The queued token that the sampler is told of. -/
def Call.queued? : Call → Option Token
  | .accept token false => some token
  | _ => none

/-- The entries of a list but those at some places. -/
def without {α : Type} (places : List Nat) (l : List α) : List α :=
  (l.zipIdx.filter fun e => e.2 ∉ places).map Prod.fst

section

variable {α : Type} {places : List Nat} {l m : List α}

private theorem without_append (places : List Nat) (l m : List α) :
    without places (l ++ m) = without places l ++
      ((m.zipIdx l.length).filter fun e => e.2 ∉ places).map Prod.fst := by
  rw [without, List.zipIdx_append, List.filter_append, List.map_append, Nat.zero_add]
  rfl

private theorem without_nil (l : List α) : without [] l = l := by
  rw [without, List.filter_eq_self.mpr (by simp), List.zipIdx_map_fst]

/-- What comes behind all of the places stays. -/
theorem without_append_of_lt (h : ∀ i ∈ places, i < l.length) (m : List α) :
    without places (l ++ m) = without places l ++ m := by
  rw [without_append, List.filter_eq_self.mpr, List.zipIdx_map_fst]
  rintro ⟨a, i⟩ hi
  have hle := List.le_snd_of_mem_zipIdx hi
  simp only [decide_eq_true_eq]
  exact fun hmem => absurd (h i hmem) (Nat.not_lt.mpr hle)

/-- What stands at the places that are added is left out. -/
theorem without_append_places (places : List Nat) (l m : List α) :
    without (places ++ List.range' l.length m.length) (l ++ m) = without places l := by
  have hnone : (m.zipIdx l.length).filter
      (fun e => e.2 ∉ places ++ List.range' l.length m.length) = [] := by
    rw [List.filter_eq_nil_iff]
    rintro ⟨a, i⟩ hi
    have hlt := List.snd_lt_add_of_mem_zipIdx hi
    have hle := List.le_snd_of_mem_zipIdx hi
    simp only [List.mem_append, List.mem_range'_1, decide_eq_true_eq]
    omega
  rw [without_append, hnone, List.map_nil, List.append_nil, without, without]
  congr 1
  apply List.filter_congr
  rintro ⟨a, i⟩ hi
  have hlt := List.snd_lt_of_mem_zipIdx hi
  rw [decide_eq_decide, List.mem_append, List.mem_range'_1, or_iff_left (by omega)]

/-- What stands at all places from some place on is left out. -/
theorem without_places_from (places : List Nat) {n : Nat} (h : n ≤ l.length) :
    without (places ++ List.range' n (l.length - n)) l = without places (l.take n) := by
  have hsplit := without_append_places places (l.take n) (l.drop n)
  rwa [List.take_append_drop, List.length_take, List.length_drop, Nat.min_eq_left h] at hsplit

/-- Nothing is left out just if no place is one of the list. -/
theorem without_eq_self_iff (h : ∀ i ∈ places, i < l.length) :
    without places l = l ↔ places = [] := by
  constructor
  · intro heq
    rw [List.eq_nil_iff_forall_not_mem]
    intro i hi
    have hlt : i < l.length := h i hi
    have hmem : (l[i], i) ∈ l.zipIdx := by
      rw [List.mk_mem_zipIdx_iff_getElem?, List.getElem?_eq_getElem]
    have hfewer : (l.zipIdx.filter fun e => e.2 ∉ places).length < l.zipIdx.length :=
      List.length_filter_lt_length_iff_exists.mpr ⟨_, hmem, by simp [hi]⟩
    have hlength := congrArg List.length heq
    rw [without, List.length_map] at hlength
    rw [List.length_zipIdx] at hfewer
    omega
  · rintro rfl
    exact without_nil l

end

namespace TurnState

variable {c : Config} {calls : List Call} {places : List Nat} {v u : TurnState}

/-- The sampler was told, since some calls, of what was moved out of the queue, but what stands at
the places that were passed over. -/
structure Tells (calls : List Call) (places : List Nat) (v : TurnState) : Prop where
  /-- No more is moved out of the queue than there is. -/
  read_le : v.queueRead ≤ v.queue.length
  /-- What was passed over counts as moved. -/
  passed_lt : ∀ i ∈ places, i < v.queueRead
  /-- What the sampler was told of. -/
  told : ∃ more, v.calls = calls ++ more ∧
    more.filterMap Call.queued? = without places (v.queue.take v.queueRead)

private theorem Tells.length_take (h : v.Tells calls places) :
    (v.queue.take v.queueRead).length = v.queueRead := by
  rw [List.length_take, Nat.min_eq_left h.read_le]

/-- Queuing more makes no difference. -/
theorem Tells.queued (h : v.Tells calls places) (tokens : List Token) :
    (v.queued tokens).Tells calls places where
  read_le := Nat.le_trans h.read_le (by simp [TurnState.queued])
  passed_lt := h.passed_lt
  told := by
    obtain ⟨more, hcalls, htold⟩ := h.told
    refine ⟨more, hcalls, ?_⟩
    rw [htold]
    congr 1
    exact (List.take_append_of_le_length h.read_le).symm

/-- Of tokens told from the queue, all come from the queue. -/
theorem filterMap_queued?_accepted (tokens : List Token) :
    (tokens.map (.accept · false)).filterMap Call.queued? = tokens := by
  rw [List.filterMap_map]
  exact List.filterMap_some

/-- No more is moved into a step than there is. -/
theorem read_le_take (h : v.queueRead ≤ v.queue.length) (n : Nat) :
    (v.take (v.unread.take n)).queueRead ≤ v.queue.length := by
  simp only [TurnState.take, unread, List.length_take, List.length_drop]
  omega

/-- What is moved into a step follows what was moved before. -/
theorem moved_take (v : TurnState) (n : Nat) :
    v.queue.take (v.take (v.unread.take n)).queueRead =
      v.queue.take v.queueRead ++ v.unread.take n := by
  change v.queue.take (v.queueRead + _) = _
  rw [List.take_add]
  congr 1
  exact (List.prefix_iff_eq_take.mp (List.take_prefix n v.unread)).symm

/-- The sampler is told of what is moved into a step. -/
theorem Tells.take (h : v.Tells calls places) (n : Nat) :
    (v.take (v.unread.take n)).Tells calls places where
  read_le := read_le_take h.read_le n
  passed_lt i hi := Nat.lt_of_lt_of_le (h.passed_lt i hi) (Nat.le_add_right _ _)
  told := by
    obtain ⟨more, hcalls, htold⟩ := h.told
    refine ⟨more ++ (v.unread.take n).map (.accept · false), ?_, ?_⟩
    · simp only [TurnState.take, hcalls, List.append_assoc]
    · rw [List.filterMap_append, filterMap_queued?_accepted, htold]
      change _ = without places (v.queue.take (v.take (v.unread.take n)).queueRead)
      rw [moved_take, without_append_of_lt]
      rw [h.length_take]
      exact h.passed_lt

/-- A step that was filled was told of. -/
theorem Tells.filled (h : v.Tells calls places) (hf : v.Filled c (.ok ()) u) :
    u.Tells calls places := by
  cases hf with
  | spent => exact h
  | drawn _ _ _ _ guided =>
    obtain ⟨more, hcalls, htold⟩ := h.told
    refine ⟨h.read_le, h.passed_lt, more ++ [.sample guided] ++ [.accept v.next true], ?_, ?_⟩
    · simp only [draw, ask, hcalls, List.append_assoc]
    · rw [List.filterMap_append, List.filterMap_append, htold]
      simp [Call.queued?, draw, ask]
  | taken => exact h.take _

/-- A pass that succeeds tells the sampler of what it moves out of the queue. -/
theorem Tells.passed (h : v.Tells calls places) {o : Option Outcome} (hp : v.Passed c (.ok o) u) :
    u.Tells calls places := by
  cases hp with
  | ended => exact h
  | stepped hf hc =>
    obtain ⟨tokens, _, _, rfl, -⟩ := hc.exists_eq
    have hqueued := (h.filled hf).queued tokens
    exact ⟨hqueued.read_le, hqueued.passed_lt, hqueued.told⟩

/-- What is queued before a place up to which the queue is passed over can be left out. -/
theorem Tells.passing (h : v.Tells calls places) (more rest : List Token) :
    { v with
      queue := v.queue ++ more ++ rest
      queueRead := (v.queue ++ more).length : TurnState }.Tells calls
      (places ++ List.range' v.queueRead ((v.queue ++ more).length - v.queueRead)) where
  read_le := by simp
  passed_lt i hi := by
    have hle := h.read_le
    simp only [List.length_append] at hi ⊢
    rcases List.mem_append.mp hi with hi | hi
    · have hlt := h.passed_lt i hi
      omega
    · rw [List.mem_range'_1] at hi
      omega
  told := by
    obtain ⟨calls', hcalls, htold⟩ := h.told
    refine ⟨calls', hcalls, ?_⟩
    have hle : v.queueRead ≤ (v.queue ++ more).length :=
      Nat.le_trans h.read_le (by simp)
    change _ = without _ ((v.queue ++ more ++ rest).take (v.queue ++ more).length)
    rw [htold, List.take_left, without_places_from places hle,
      List.take_append_of_le_length h.read_le]

end TurnState

namespace QueryState

/-- The places in the queue that a query passes over. -/
def passedBy (v : QueryState) (text : String) : List Nat :=
  if 1 < text.utf8ByteSize ∧ v.leads then
    List.range' v.queueRead ((v.queue ++ v.opening).length - v.queueRead)
  else []

/-- A query queues behind what is queued already, and passes over what stands in front of its own
instruction, or over nothing. -/
theorem heard_cases (v : QueryState) (text : String) : ∃ rest,
    (v.heard text).queue = v.queue ++ v.opening ++ rest ∧
      ((v.passedBy text = [] ∧ (v.heard text).queueRead = v.queueRead) ∨
        v.passedBy text =
            List.range' v.queueRead ((v.queue ++ v.opening).length - v.queueRead) ∧
          (v.heard text).queueRead = (v.queue ++ v.opening).length) := by
  unfold heard passedBy
  by_cases hl : 1 < text.utf8ByteSize
  · rw [if_pos hl, turned, led_eq]
    refine ⟨_, List.append_assoc _ _ _, ?_⟩
    have hleads : (v.queued v.opening).leads = v.leads := rfl
    rw [hleads]
    cases v.leads with
    | false => exact .inl ⟨if_neg (by simp), rfl⟩
    | true => exact .inr ⟨if_pos ⟨hl, rfl⟩, rfl⟩
  · rw [if_neg hl]
    exact ⟨[], (List.append_nil _).symm, .inl ⟨if_neg fun h => hl h.1, rfl⟩⟩

end QueryState

namespace Session

variable {s s₀ t : Session} {places : List Nat}

/-- The queued tokens that the sampler was told of since an earlier state of the session. -/
def queuedSince (s t : Session) : List Token := (s.samplerCallsSince t).filterMap Call.queued?

/-- The places in the queue that a request passes over. -/
def placesPassed (s : Session) : Request → List Nat
  | .query text _ => s.queryState.passedBy text
  | _ => []

/-- The places in the queue that some requests pass over. -/
def passedOver (s : Session) : List Request → List Nat
  | [] => []
  | r :: rs => s.placesPassed r ++ (s.serve r).passedOver rs

/-- What is known of a session while requests are served: its configuration, and what the sampler
was told of since an earlier state. -/
def Tells (s₀ : Session) (places : List Nat) (t : Session) : Prop :=
  t.config = s₀.config ∧ t.turnState.Tells s₀.turnState.calls places

/-- As long as nothing was moved out of the queue the sampler was told of nothing. -/
theorem Tells.refl (h : s.progress.queueRead = 0) : s.Tells [] s := by
  refine ⟨rfl, ?_, by simp, [], (List.append_nil _).symm, ?_⟩
  · change s.progress.queueRead ≤ _
    rw [h]
    exact Nat.zero_le _
  · change _ = without [] (s.progress.queue.take s.progress.queueRead)
    rw [h]
    rfl

/-- As long as only turns are taken and nothing fails, nothing is passed over. -/
theorem successInvariant_tells (s₀ : Session) (places : List Nat) :
    SuccessInvariant (fun r => ∃ room, r = .answer room) (s₀.Tells places) where
  showing _ _ h := h
  pass := by
    rintro t outcome u ⟨hc, h⟩ hpass
    obtain ⟨hconfig, hpassed⟩ := (ends_pass_turnState t).of_ok hpass
    exact ⟨hconfig.trans hc, h.passed hpassed⟩
  query := by
    rintro t text room u - ⟨_, ⟨⟩⟩
  reset := by
    rintro t - ⟨_, ⟨⟩⟩

/-- A query tells the sampler of nothing, and passes over what it passes over. -/
theorem Tells.query (h : s₀.Tells places s) {text : String} (hq : query text s = .ok () t) :
    s₀.Tells (places ++ s.queryState.passedBy text) t := by
  obtain ⟨hc, h⟩ := h
  obtain ⟨hconfig, hheard⟩ := (ends_query_turnState text s).of_ok hq
  obtain ⟨rest, hqueue, hread⟩ := s.queryState.heard_cases text
  rw [← query_eq_ok hq] at hqueue hread
  refine ⟨hconfig.trans hc, ?_⟩
  have hresets {v u : TurnState} {places : List Nat} (hv : v.Tells s₀.turnState.calls places)
      (hcalls : u.calls = v.calls ++ [.resetSampler]) (hq : u.queue = v.queue)
      (hr : u.queueRead = v.queueRead) : u.Tells s₀.turnState.calls places := by
    obtain ⟨more, hmore, htold⟩ := hv.told
    refine ⟨?_, ?_, more ++ [.resetSampler], ?_, ?_⟩
    · rw [hq, hr]
      exact hv.read_le
    · rw [hr]
      exact hv.passed_lt
    · rw [hcalls, hmore, List.append_assoc]
    · rw [List.filterMap_append, htold, hq, hr]
      exact List.append_nil _
  have hcalls : t.turnState.calls = s.turnState.calls ++ [.resetSampler] := by
    generalize t.turnState = u at hheard
    cases hheard
    rfl
  rcases hread with ⟨hpassed, hread⟩ | ⟨hpassed, hread⟩
  · rw [hpassed, List.append_nil]
    refine hresets (h.queued (s.queryState.opening ++ rest)) hcalls ?_ hread
    rw [List.append_assoc] at hqueue
    exact hqueue
  · rw [hpassed]
    exact hresets (h.passing s.queryState.opening rest) hcalls hqueue hread

/-- What is known of a session is known after a request that succeeds, with the places that it
passed over. -/
theorem Tells.serve (h : s₀.Tells places s) {r : Request} (hreset : r ≠ .reset)
    (hr : s.Succeeds r) : s₀.Tells (places ++ s.placesPassed r) (s.serve r) := by
  cases r with
  | answer room =>
    obtain ⟨outcome, t, ht⟩ := hr
    change s₀.Tells (places ++ []) _
    rw [List.append_nil, Session.serve, ht]
    exact (successInvariant_tells s₀ places).answer (s := s.showing room) h ht
  | query text room =>
    obtain ⟨t, ht⟩ := hr
    rw [Session.serve, ht]
    exact Tells.query (s := s.showing room) h ht
  | reset => exact absurd rfl hreset

/-- While requests are served that succeed, the sampler is told of what is moved out of the queue
but what the queries pass over. -/
theorem Tells.serveAll (h : s₀.Tells places s) {requests : List Request}
    (hreset : .reset ∉ requests) (hs : s.AllAllowed Succeeds requests) :
    s₀.Tells (places ++ s.passedOver requests) (s.serveAll requests) := by
  induction requests generalizing s places with
  | nil =>
    rw [passedOver, List.append_nil]
    exact h
  | cons r rs ih =>
    obtain ⟨hr, hrs⟩ := not_or.mp (mt List.mem_cons.mpr hreset)
    rw [passedOver, ← List.append_assoc]
    exact ih (h.serve (Ne.symm hr) hs.1) hrs hs.2

/-- Outside instruct mode nothing is passed over. -/
theorem Tells.passedOver_eq_nil (h : s₀.Tells places s) (hi : s₀.config.instruct = false)
    {requests : List Request} (hreset : .reset ∉ requests)
    (hs : s.AllAllowed Succeeds requests) : s.passedOver requests = [] := by
  induction requests generalizing s places with
  | nil => rfl
  | cons r rs ih =>
    obtain ⟨hr, hrs⟩ := not_or.mp (mt List.mem_cons.mpr hreset)
    rw [passedOver, ih (h.serve (Ne.symm hr) hs.1) hrs hs.2, List.append_nil]
    cases r with
    | query text room =>
      have hleads : s.queryState.leads = false := by
        change (s.config.instruct && _) = false
        rw [h.1, hi]
        rfl
      exact if_neg (by simp [hleads])
    | answer room => rfl
    | reset => rfl

/-- In a pass the step is filled with what the sampler is told of. -/
theorem acceptedSince_pass (h : evaluatePending s = .ok none t) :
    s.acceptedSince (left (pass s)) = (left (pass s)).progress.pending := by
  obtain ⟨cuts, kept, hsettles⟩ := (ends_evaluatePending_settles s).of_ok h
  rw [acceptedSince, left_pass_of_goes_on h, tally_takeStep, hsettles.accepted, List.drop_left]

/-- As long as nothing fails and the dialogue does not begin anew, the sampler is told of the queued
tokens that were moved out of the queue, each once and in their order, but those that a query passed
over, and each step is filled with what it is told of. It is told of all that were moved just if no
query passed over any, and no query does outside instruct mode. -/
theorem queued_tokens_told_in_order {now : Nat} {config : Config} {engine : Engine}
    {directory : Directory} {s t : Session} {w : Workbench} {requests : List Request}
    (h : Session.start now config engine directory = .ok s w) (hreset : .reset ∉ requests)
    (hs : s.AllAllowed Succeeds requests) (ht : s.AtPass requests t) :
    s.queuedSince t =
        without (s.passedOver requests) (t.progress.queue.take t.progress.queueRead) ∧
      (s.queuedSince t = t.progress.queue.take t.progress.queueRead ↔
        s.passedOver requests = []) ∧
      (config.instruct = false → s.passedOver requests = []) ∧
      ∀ u, evaluatePending t = .ok none u →
        t.acceptedSince (left (pass t)) = (left (pass t)).progress.pending := by
  have hbegun := start_eq_ok h
  have hread : s.progress.queueRead = 0 := congrArg (·.progress.queueRead) hbegun.anew.symm
  have hbegins : s.Tells [] s := .refl hread
  obtain ⟨room, hpasses⟩ := ht
  obtain ⟨-, htells⟩ := (successInvariant_tells s _).passes
    (s := (s.serveAll requests).showing room) (hbegins.serveAll hreset hs) hpasses
  obtain ⟨more, hmore, htold⟩ := htells.told
  have hsince : s.queuedSince t =
      without (s.passedOver requests) (t.progress.queue.take t.progress.queueRead) := by
    rw [queuedSince, samplerCallsSince_of_eq_append hmore]
    exact htold
  refine ⟨hsince, ?_, ?_, fun u => acceptedSince_pass⟩
  · rw [hsince]
    apply without_eq_self_iff
    have hlength : (t.progress.queue.take t.progress.queueRead).length = t.progress.queueRead :=
      htells.length_take
    rw [hlength]
    exact htells.passed_lt
  · intro hi
    rw [← hbegun.instruct] at hi
    exact hbegins.passedOver_eq_nil hi hreset hs

/-- In instruct mode a query passes over what is left of the prompt, and the rest of the queue is
told in order. -/
theorem queued_tokens_told_in_order_of_instructed_turn :
    ∃ s w t, Session.start 0 { prompt := "abcd", batchSize := 2, instruct := true, inputBos := true
      }
        { contextSize := 96 } {} = .ok s w ∧
      s.AtPass [.answer none, .query "xy" none] t ∧
      s.passedOver [.answer none, .query "xy" none] = [2, 3, 4] ∧
      t.progress.queueRead = 7 ∧
      s.queuedSince t = without [2, 3, 4] (t.progress.queue.take t.progress.queueRead) := by
  obtain ⟨s, w, h, htest⟩ := exists_of_gives
    (fun s : Session => decide (s.AllAllowed Succeeds [.answer none, .query "xy" none] ∧
        s.passedOver [.answer none, .query "xy" none] = [2, 3, 4]) &&
      goesOn (fun t => t.progress.queueRead = 7)
        ((s.serveAll [.answer none, .query "xy" none]).showing none))
    (r := Session.start 0 { prompt := "abcd", batchSize := 2, instruct := true, inputBos := true }
      { contextSize := 96 } {}) (by decide +kernel)
  obtain ⟨hdone, hgoes⟩ := Bool.and_eq_true_iff.mp htest
  obtain ⟨hs, hpassed⟩ := of_decide_eq_true hdone
  obtain ⟨t, ht, hread⟩ := exists_of_goesOn hgoes
  have htold := (queued_tokens_told_in_order h (by simp) hs ht).1
  rw [hpassed] at htold
  exact ⟨s, w, t, h, ht, hpassed, of_decide_eq_true hread, htold⟩

/-- Of a prompt that is longer than a batch a query in instruct mode passes over the rest, and over
the token that opens its own turn. -/
theorem queued_tokens_passed_over :
    ∃ s w, Session.start 0 { prompt := "abcd", batchSize := 2, instruct := true, inputBos := true }
        { contextSize := 96 } {} = .ok s w ∧
      s.AllAllowed Succeeds [.answer none, .query "xy" none, .answer none] ∧
      s.AtPass [.answer none, .query "xy" none, .answer none]
        ((s.serveAll [.answer none, .query "xy" none, .answer none]).showing none) ∧
      let t := (s.serveAll [.answer none, .query "xy" none, .answer none]).showing none
      s.queuedSince t = Token.ofText ("ab" ++ leadText ++ "xy" ++ tailText) ∧
        t.progress.queue.take t.progress.queueRead =
          Token.ofText "abcd" ++ [Token.bos] ++ Token.ofText (leadText ++ "xy" ++ tailText) := by
  obtain ⟨s, w, h, htest⟩ := exists_of_gives
    (fun s : Session =>
      let t := (s.serveAll [.answer none, .query "xy" none, .answer none]).showing none
      decide (s.AllAllowed Succeeds [.answer none, .query "xy" none, .answer none] ∧
        s.queuedSince t = Token.ofText ("ab" ++ leadText ++ "xy" ++ tailText) ∧
        t.progress.queue.take t.progress.queueRead =
          Token.ofText "abcd" ++ [Token.bos] ++ Token.ofText (leadText ++ "xy" ++ tailText)))
    (r := Session.start 0 { prompt := "abcd", batchSize := 2, instruct := true, inputBos := true }
      { contextSize := 96 } {}) (by decide +kernel)
  obtain ⟨hs, htold⟩ := of_decide_eq_true htest
  exact ⟨s, w, h, hs, ⟨none, .refl⟩, htold⟩

end Session

end Dialogue
