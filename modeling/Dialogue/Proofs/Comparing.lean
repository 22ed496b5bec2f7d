import Dialogue.Proofs.Querying
import Dialogue.Proofs.Trusted
/-!
# Comparing the log with the stream

What the session logs is compared with what it is about to decode. As long as no cell was moved, the
cells hold all that is logged, except at first, when the log still ends with tokens of the session
file that the prompt does not agree with: the cells of these were dropped. The step that reaches the
first of them also drops them from the log. `Compares` is the invariant that carries this, with a
case for each of the two situations.
-/

namespace Dialogue

open Effect

namespace MainContext

/-- The cells hold all that is logged. -/
def Holds (v : MainContext) : Prop :=
  ∀ i, i < v.logged.length → v.cells.get? (i : Nat) = v.logged[i]?

/-- How the pending tokens follow the queue up to the place where the prompt and the session file
of a session differ. -/
inductive Follows (s₀ : Session) (v : MainContext) : Prop
  /-- The window is full, so that none of them will be compared. -/
  | full (hp : v.path = none) (h : s₀.window.size ≤ v.past + max s₀.offset 0)
  /-- They are what is queued next, and they reach that place, are all that was taken of the queue,
  or will fill the window. -/
  | agreeing (hagree : ∀ i, i < v.pending.length → v.loggedRead + i ≤ s₀.matched →
        v.pending[i]? = v.queue[v.loggedRead + i]?)
      (hreach : s₀.matched < v.loggedRead + v.pending.length ∨
        v.loggedRead + v.pending.length = v.queueRead ∨
        (v.path = none ∧ s₀.window.size ≤ v.past + v.pending.length + max s₀.offset 0))

/-- The log is still that of the session file, and the place where the prompt differs from it lies
ahead. -/
structure Forked (s₀ : Session) (v : MainContext) : Prop where
  /-- The log is that of the file. -/
  logged : v.logged = s₀.progress.logged
  /-- The file goes on at that place. -/
  lt_logged : s₀.matched < s₀.progress.logged.length
  /-- The prompt goes on at that place. -/
  lt_queue : s₀.matched < s₀.progress.queue.length
  /-- They differ there. -/
  ne : s₀.progress.logged[s₀.matched]? ≠ s₀.progress.queue[s₀.matched]?
  /-- The place lies ahead. -/
  le : v.loggedRead ≤ s₀.matched
  /-- The cells hold the log up to that place. -/
  held : ∀ i, i < s₀.matched → v.cells.get? (i : Nat) = s₀.progress.logged[i]?
  /-- The cells hold nothing there. -/
  gone : v.cells.get? (s₀.matched : Nat) = none
  /-- The pending tokens lead there. -/
  follows : v.Follows s₀

/-- The log agrees with the cells, up to the place where the prompt and the session file of a
session differ if that lies ahead. If the dialogue begins only `once`, the log is that of the file
or all of it was compared. -/
structure Compares (s₀ : Session) (once : Prop) (v : MainContext) : Prop where
  /-- The prompt stays queued. -/
  prompt : s₀.progress.queue <+: v.queue
  /-- The counters agree. -/
  counted : ∀ bound, v.Counted bound
  /-- The log agrees with the cells. -/
  log : v.Forked s₀ ∨
    (v.Holds ∧ (once → v.logged.length ≤ s₀.matched ∨ v.loggedRead = v.logged.length))

variable {s₀ : Session} {once : Prop} {v u : MainContext}

/-- A log that agrees with the cells can be trusted altogether. -/
theorem trusted_of_holds (hc : ∀ bound, v.Counted bound) (hh : v.Holds) (bound : Int) :
    v.Trusted bound := ⟨hc bound, fun i hi _ => hh i hi⟩

/-- A log that can be trusted up to every bound is held by the cells. -/
theorem holds_of_trusted (h : ∀ bound, v.Trusted bound) : v.Holds := by
  intro i hi
  exact (h (i + 1)).holds i hi (by omega)

/-- Up to the place where the prompt and the session file differ the log can be trusted. -/
theorem Compares.trusted_of_forked (h : v.Compares s₀ once) (hf : v.Forked s₀) :
    v.Trusted s₀.matched := by
  refine ⟨h.counted _, ?_⟩
  intro i _ hi
  rw [hf.held i (by omega), hf.logged]

/-- The log can be trusted up to a bound, unless that place lies before it. -/
theorem Compares.trusted_or (h : v.Compares s₀ once) (bound : Int) :
    v.Trusted bound ∨ (v.Forked s₀ ∧ s₀.matched < bound) := by
  rcases h.log with hf | ⟨hh, -⟩
  · by_cases hb : s₀.matched < bound
    · exact .inr ⟨hf, hb⟩
    · left
      exact (h.trusted_of_forked hf).mono (by omega)
  · exact .inl (trusted_of_holds h.counted hh bound)

private theorem Compares.past_eq_of_forked (h : v.Compares s₀ once) (hf : v.Forked s₀) :
    v.past = v.loggedRead := by
  apply (h.counted (v.past + 1)).past_eq
  have hle := hf.le
  have hlt := hf.lt_logged
  rw [← hf.logged] at hlt
  right
  constructor <;> omega

/-- As long as the place of a fork lies ahead no more is resident than what agreed. -/
theorem Compares.past_le_of_forked (h : v.Compares s₀ once) (hf : v.Forked s₀) :
    v.past ≤ s₀.matched := by
  rw [h.past_eq_of_forked hf]
  exact Int.ofNat_le.mpr hf.le

/-! ### What skipping finds -/

/-- Skipping never passes the place where the prompt and the session file differ. -/
theorem Forked.add_skipped_le (h : v.Forked s₀) (hprompt : s₀.progress.queue <+: v.queue)
    (hroom : v.past + max s₀.offset 0 < s₀.window.size) :
    v.loggedRead + v.skipped ≤ s₀.matched := by
  have hle := h.le
  have hne : (v.logged.drop v.loggedRead)[s₀.matched - v.loggedRead]? ≠
      v.pending[s₀.matched - v.loggedRead]? := by
    have hat : v.loggedRead + (s₀.matched - v.loggedRead) = s₀.matched := by omega
    rw [List.getElem?_drop, hat, h.logged]
    by_cases hp : s₀.matched - v.loggedRead < v.pending.length
    · cases h.follows with
      | full _ hfull => omega
      | agreeing hagree _ =>
        obtain ⟨rest, hrest⟩ := hprompt
        rw [hagree _ hp (by omega), hat, ← hrest, List.getElem?_append_left h.lt_queue]
        exact h.ne
    · have hnone : v.pending[s₀.matched - v.loggedRead]? = none :=
        List.getElem?_eq_none (by omega)
      rw [hnone, List.getElem?_eq_getElem h.lt_logged]
      exact Option.some_ne_none _
  have hk := commonLength_le_of_ne hne
  unfold skipped
  omega

/-- The pending tokens that are skipped are held by the cells where they are counted. -/
theorem Compares.held_of_skipped (h : v.Compares s₀ once)
    (hroom : v.past + max s₀.offset 0 < s₀.window.size) {i : Nat} (hi : i < v.skipped) :
    v.cells.get? (v.past + i) = v.pending[i]? := by
  rcases h.log with hf | ⟨hh, -⟩
  · have hpast := h.past_eq_of_forked hf
    have hle := hf.add_skipped_le h.prompt hroom
    exact (h.trusted_of_forked hf).held_of_skipped hi (by omega)
  · exact (trusted_of_holds h.counted hh (v.past + i + 1)).held_of_skipped hi (by omega)

/-- The cells do not hold a log with a fork ahead. -/
theorem Forked.not_holds (h : v.Forked s₀) : ¬ v.Holds := by
  intro hh
  have hat := hh s₀.matched (by rw [h.logged]; exact h.lt_logged)
  rw [h.gone, h.logged, List.getElem?_eq_getElem h.lt_logged] at hat
  cases hat

/-! ### What leaves the comparison alone -/

/-- Whether a main context differs in calls and files only, and the session file was at most given
up. -/
def Alike (v u : MainContext) : Prop :=
  ∃ path directory calls decodeFaults removeFaults shiftFaults,
    u = { v with path, directory, calls, decodeFaults, removeFaults, shiftFaults } ∧
      (path = none ∨ path = v.path)

/-- A main context is like itself. -/
theorem Alike.refl (v : MainContext) : v.Alike v :=
  ⟨v.path, v.directory, v.calls, v.decodeFaults, v.removeFaults, v.shiftFaults, rfl, .inr rfl⟩

/-- What is like one that is like a third is like the third. -/
theorem Alike.trans {t : MainContext} (h : v.Alike u) (h' : u.Alike t) : v.Alike t := by
  obtain ⟨path, _, _, _, _, _, rfl, hp⟩ := h
  obtain ⟨path', directory, calls, decode, remove, shift, rfl, hp'⟩ := h'
  refine ⟨path', directory, calls, decode, remove, shift, rfl, ?_⟩
  rcases hp' with hp' | hp'
  · exact .inl hp'
  · rw [hp']
    exact hp

/-- Main contexts that are alike have the same cells. -/
theorem Alike.cells_eq (h : v.Alike u) : u.cells = v.cells := by
  obtain ⟨_, _, _, _, _, _, rfl, -⟩ := h
  rfl

/-- The log agrees with the cells as well in a main context that is alike. -/
theorem Compares.alike (h : v.Compares s₀ once) (ha : v.Alike u) : u.Compares s₀ once := by
  obtain ⟨path, directory, calls, decode, remove, shift, rfl, hp⟩ := ha
  have hnone (hv : v.path = none) : path = none := by
    rcases hp with hp | hp
    · exact hp
    · rw [hp, hv]
  constructor
  · exact h.prompt
  · intro bound
    exact (h.counted bound).of_eq rfl rfl rfl hp
  · rcases h.log with hf | hh
    · left
      refine { hf with follows := ?_ }
      cases hf.follows with
      | full hv hfull => exact .full (hnone hv) hfull
      | agreeing hagree hreach =>
        refine .agreeing hagree ?_
        rcases hreach with hr | hr | ⟨hv, hr⟩
        · exact .inl hr
        · exact .inr (.inl hr)
        · exact .inr (.inr ⟨hnone hv, hr⟩)
    · exact .inr hh

/-- What is pending and queued matters only as long as the log is that of the file. -/
theorem Compares.requeue (h : v.Compares s₀ once) {pending queue : List Token} {queueRead : Nat}
    (hprompt : s₀.progress.queue <+: queue)
    (hf : v.Forked s₀ →
      ({ v with pending, queue, queueRead } : MainContext).Follows s₀) :
    ({ v with pending, queue, queueRead } : MainContext).Compares s₀ once := by
  refine ⟨hprompt, fun bound => (h.counted bound).of_eq rfl rfl rfl (.inr rfl), ?_⟩
  rcases h.log with hv | hv
  · exact .inl { hv with follows := hf hv }
  · exact .inr hv

/-- The pending tokens may be cut if none are lost, if they still reach the place where the prompt
and the session file differ, or if they still fill the window. -/
theorem Compares.cut (h : v.Compares s₀ once) {n : Nat}
    (hn : v.Forked s₀ → v.pending.length ≤ n ∨ s₀.matched < v.loggedRead + n ∨
      (v.path = none ∧ s₀.window.size ≤ v.past + n + max s₀.offset 0)) :
    (v.cut n).Compares s₀ once := by
  apply h.requeue h.prompt
  intro hf
  by_cases hle : v.pending.length ≤ n
  · rw [List.take_of_length_le hle]
    exact hf.follows
  · have hlen : (v.pending.take n).length = n := List.length_take_of_le (by omega)
    cases hf.follows with
    | full hv hfull => exact .full hv hfull
    | agreeing hagree _ =>
      apply Follows.agreeing
      · intro i hi hm
        dsimp only at hi hm ⊢
        rw [hlen] at hi
        rw [List.getElem?_take_of_lt hi]
        exact hagree i (by omega) hm
      · dsimp only
        rw [hlen]
        rcases hn hf with hn | hn | hn
        · exact absurd hn hle
        · exact .inl hn
        · exact .inr (.inr hn)

/-- With nothing pending, the place where the prompt and the session file differ is still queued,
unless the window is full. -/
theorem Forked.ahead (hf : v.Forked s₀) (hp : v.pending = []) :
    v.loggedRead = v.queueRead ∨
      (v.path = none ∧ s₀.window.size ≤ v.past + max s₀.offset 0) := by
  have hle := hf.le
  cases hf.follows with
  | full hv hfull => exact .inr ⟨hv, hfull⟩
  | agreeing _ hreach =>
    rw [hp, List.length_nil] at hreach
    rcases hreach with hr | hr | ⟨hv, hr⟩
    · omega
    · exact .inl hr
    · refine .inr ⟨hv, ?_⟩
      omega

/-- The place of a fork that lies ahead is one of the queue. -/
theorem Forked.lt_queue_length (hf : v.Forked s₀) (hprompt : s₀.progress.queue <+: v.queue) :
    s₀.matched < v.queue.length := Nat.lt_of_lt_of_le hf.lt_queue hprompt.length_le

/-- What is taken of the queue leads to the place where the prompt and the session file differ. -/
theorem Compares.drain (h : v.Compares s₀ once) (hp : v.pending = []) (n : Nat) :
    (v.drain n).Compares s₀ once := by
  apply h.requeue h.prompt
  intro hf
  rcases hf.ahead hp with hr | ⟨hv, hfull⟩
  · rw [hp, List.nil_append]
    apply Follows.agreeing
    · intro i hi _
      dsimp only at hi ⊢
      rw [List.length_take] at hi
      rw [List.getElem?_take_of_lt (by omega), List.getElem?_drop, hr]
    · exact .inr (.inl (congrArg (· + _) hr))
  · exact .full hv hfull

/-- A draw is made only when no such place is queued. -/
theorem Compares.drawn (h : v.Compares s₀ once) (hp : v.pending = [])
    (hq : v.queue.length ≤ v.queueRead) (token : Token) :
    ({ v with pending := v.pending ++ [token] } : MainContext).Compares s₀ once := by
  apply h.requeue h.prompt
  intro hf
  rcases hf.ahead hp with hr | ⟨hv, hfull⟩
  · have hle := hf.le
    have hlt := hf.lt_queue_length h.prompt
    omega
  · exact .full hv hfull

private theorem Follows.append (h : v.Follows s₀) (hlt : s₀.matched < v.queue.length)
    (tokens : List Token) :
    ({ v with queue := v.queue ++ tokens } : MainContext).Follows s₀ := by
  cases h with
  | full hv hfull => exact .full hv hfull
  | agreeing hagree hreach =>
    refine .agreeing ?_ hreach
    intro i hi hm
    dsimp only at hi hm ⊢
    rw [List.getElem?_append_left (by omega)]
    exact hagree i hi hm

/-- More can be queued. -/
theorem Compares.queued (h : v.Compares s₀ once) (tokens : List Token) :
    ({ v with queue := v.queue ++ tokens } : MainContext).Compares s₀ once := by
  apply h.requeue (h.prompt.trans (List.prefix_append _ _))
  intro hf
  exact hf.follows.append (hf.lt_queue_length h.prompt) tokens

/-- What is queued can be passed over if the place where the prompt and the session file differ is
not among it. -/
theorem Compares.passedOver (h : v.Compares s₀ once) (hf : v.Forked s₀ → s₀.matched < v.queueRead)
    (before after : List Token) :
    ({ v with
        queue := v.queue ++ before ++ after
        queueRead := (v.queue ++ before).length } : MainContext).Compares s₀ once := by
  rw [List.append_assoc]
  apply h.requeue (h.prompt.trans (List.prefix_append _ _))
  intro hv
  have hread := hf hv
  cases hv.follows.append (hv.lt_queue_length h.prompt) (before ++ after) with
  | full hp hfull => exact .full hp hfull
  | agreeing hagree hreach =>
    refine .agreeing (fun i hi hm => hagree i hi hm) ?_
    rcases hreach with hr | hr | hr
    · exact .inl hr
    · left
      dsimp only at hr ⊢
      omega
    · exact .inr (.inr hr)

/-! ### A step that is skipped and fed -/

/-- A step that agrees with the log does not reach the place where the prompt and the session file
differ. -/
private theorem Forked.reuse (hf : v.Forked s₀) (hprompt : s₀.progress.queue <+: v.queue)
    (hroom : v.past + max s₀.offset 0 < s₀.window.size)
    (hk : ¬ (v.skipped < v.pending.length ∧ v.loggedRead + v.skipped < v.logged.length)) :
    v.reuse.Forked s₀ ∧ v.reuse.pending = [] := by
  have hlogged : v.reuse.logged = v.logged := by rw [logged_reuse, if_neg hk]
  have hle := v.skipped_le_pending
  have hn := hf.add_skipped_le hprompt hroom
  have hlt := hf.lt_logged
  rw [← hf.logged] at hlt
  have hall : v.pending.length ≤ v.skipped := by omega
  have hnil : v.reuse.pending = [] := List.drop_of_length_le hall
  refine ⟨⟨hlogged.trans hf.logged, hf.lt_logged, hf.lt_queue, hf.ne, hn, hf.held, hf.gone, ?_⟩,
    hnil⟩
  cases hf.follows with
  | full _ hfull => omega
  | agreeing _ hreach =>
    rcases hreach with hr | hr | ⟨hp, hr⟩
    · omega
    · refine .agreeing (fun i hi _ => ?_) (.inr (.inl ?_))
      · rw [hnil] at hi
        cases hi
      · rw [hnil, List.length_nil, loggedRead_reuse]
        change v.loggedRead + v.skipped + 0 = v.queueRead
        omega
    · refine .full hp ?_
      rw [past_reuse]
      omega

/-- A step that differs from the log cuts it to what the cells hold. -/
private theorem Compares.reuse_of_differs (h : v.Compares s₀ once)
    (hroom : v.past + max s₀.offset 0 < s₀.window.size)
    (hk : v.skipped < v.pending.length ∧ v.loggedRead + v.skipped < v.logged.length) :
    v.reuse.Holds ∧ v.reuse.loggedRead = v.reuse.logged.length := by
  have hlogged : v.reuse.logged = v.logged.take (v.loggedRead + v.skipped) := by
    rw [logged_reuse, if_pos hk]
  have hlength : v.reuse.logged.length = v.loggedRead + v.skipped := by
    rw [hlogged, List.length_take_of_le (Nat.le_of_lt hk.2)]
  refine ⟨?_, hlength.symm⟩
  rcases h.log with hf | ⟨hh, -⟩
  · have hn := hf.add_skipped_le h.prompt hroom
    intro i hi
    exact (h.trusted_of_forked hf).reuse.holds i hi (by omega)
  · exact holds_of_trusted fun bound => (trusted_of_holds h.counted hh bound).reuse

/-- Once it was compared, a step that is left differs from nothing that is logged. -/
theorem Compares.reuse (h : v.Compares s₀ once)
    (hroom : v.past + max s₀.offset 0 < s₀.window.size) :
    v.reuse.Compares s₀ once ∧ (v.reuse.pending = [] ∨
      (v.reuse.Holds ∧ v.reuse.loggedRead = v.reuse.logged.length)) := by
  have hcounted (bound : Int) := (h.counted bound).reuse
  by_cases hk : v.skipped < v.pending.length ∧ v.loggedRead + v.skipped < v.logged.length
  · obtain ⟨hholds, hall⟩ := h.reuse_of_differs hroom hk
    exact ⟨⟨h.prompt, hcounted, .inr ⟨hholds, fun _ => .inr hall⟩⟩, .inr ⟨hholds, hall⟩⟩
  · rcases h.log with hf | ⟨hh, honce⟩
    · obtain ⟨hf, hnil⟩ := hf.reuse h.prompt hroom hk
      exact ⟨⟨h.prompt, hcounted, .inl hf⟩, .inl hnil⟩
    · have hholds := holds_of_trusted fun bound => (trusted_of_holds h.counted hh bound).reuse
      have hle := (hcounted 0).le_logged
      have hend := v.pending_reuse_eq_nil_or (h.counted 0).le_logged
      refine ⟨⟨h.prompt, hcounted, .inr ⟨hholds, fun ho => ?_⟩⟩,
        hend.imp_right fun hall => ⟨hholds, hall⟩⟩
      rw [logged_reuse, if_neg hk, loggedRead_reuse] at hle ⊢
      refine (honce ho).imp_right fun hm => ?_
      omega

/-- A step of which nothing is decoded leaves the log where it is. -/
private theorem Forked.decoded (hf : v.Forked s₀) (hd : Decoded v 0 u)
    (hpending : u.pending = v.pending) : u.Forked s₀ := by
  have hread : u.loggedRead = v.loggedRead := hd.loggedRead
  have hpast : u.past = v.past := by
    rw [hd.past]
    exact Int.add_zero _
  refine ⟨hd.logged.trans hf.logged, hf.lt_logged, hf.lt_queue, hf.ne, ?_, ?_, ?_, ?_⟩
  · rw [hread]
    exact hf.le
  · intro i hi
    rw [hd.get?_cells]
    exact hf.held i hi
  · rw [hd.get?_cells]
    exact hf.gone
  · cases hf.follows with
    | full hv hfull =>
      refine .full (hd.path.trans hv) ?_
      rwa [hpast]
    | agreeing hagree hreach =>
      apply Follows.agreeing
      · rw [hpending, hread, hd.queue]
        exact hagree
      · rw [hpending, hread, hd.queueRead, hd.path, hpast]
        exact hreach

/-- A step of which nothing is decoded leaves the comparison alone. -/
private theorem Compares.decoded_none (h : v.Compares s₀ once) (hnil : v.pending = [])
    (hd : Decoded v 0 u) : u.Compares s₀ once ∧ u.pending = [] := by
  have hpending : u.pending = v.pending := by
    rcases hd.pending with hp | hp
    · exact hp
    · rw [hp, hnil]
  refine ⟨⟨?_, fun bound => (h.counted bound).decoded hd (.inl rfl), ?_⟩, hpending.trans hnil⟩
  · rw [hd.queue]
    exact h.prompt
  · rcases h.log with hf | ⟨hh, honce⟩
    · exact .inl (hf.decoded hd hpending)
    · right
      have hlogged : u.logged = v.logged := hd.logged
      have hread : u.loggedRead = v.loggedRead := hd.loggedRead
      rw [hread, hlogged]
      refine ⟨?_, honce⟩
      apply holds_of_trusted
      exact fun bound => (trusted_of_holds h.counted hh bound).decoded hd (.inl rfl)

/-- What is decoded of a step that was compared is logged where it is resident. -/
private theorem Compares.decoded_some (h : v.Compares s₀ once) (hh : v.Holds)
    (hall : v.loggedRead = v.logged.length) {m : Nat} (hd : Decoded v m u) :
    u.Compares s₀ once ∧ u.Holds := by
  have htrusted (bound : Int) : u.Trusted bound :=
    (trusted_of_holds h.counted hh bound).decoded hd (.inr hall)
  have hholds := holds_of_trusted htrusted
  refine ⟨⟨?_, fun bound => (htrusted bound).toCounted, .inr ⟨hholds, fun _ => .inr ?_⟩⟩, hholds⟩
  · rw [hd.queue]
    exact h.prompt
  · have hlogged := hd.logged
    have hread := hd.loggedRead
    by_cases hm : 0 < m ∧ v.path ≠ none
    · rwa [if_pos hm] at hread
    · rw [if_neg hm] at hlogged hread
      rw [hread, hlogged, hall]

/-- Feeding a step that was compared keeps the comparison. -/
theorem Compares.fed (h : v.Compares s₀ once)
    (hs : v.pending = [] ∨ (v.Holds ∧ v.loggedRead = v.logged.length)) {n : Nat}
    (hf : FedStep n v u) : u.Compares s₀ once ∧ (u.pending = [] ∨ u.Holds) := by
  obtain ⟨m, hd⟩ := hf.decoded
  rcases hs with hnil | ⟨hh, hall⟩
  · have hm : m = 0 := by
      have hle := hd.le
      rw [hnil] at hle
      exact Nat.le_zero.mp hle
    rw [hm] at hd
    obtain ⟨hc, hp⟩ := h.decoded_none hnil hd
    exact ⟨hc, .inl hp⟩
  · obtain ⟨hc, hu⟩ := h.decoded_some hh hall hd
    exact ⟨hc, .inr hu⟩

end MainContext

end Dialogue
