import Dialogue.Proofs.GuidanceSteps
import Dialogue.Proofs.UnbatchedSteps
/-!
# What feeding commits

Tokens are fed in batches, one call for each, until a call fails. On either context, and whichever
call it is that fails, the batches before it are decoded and counted and nothing else is: the tokens
that the failure counts are a beginning of the list, and to feed the rest from there comes to what
feeding the whole list comes to where no call fails.
-/

namespace Dialogue

open Effect

/-! ### Pieces of a list -/

section Pieces

variable {α : Type} {n : Nat}

private theorem pieces_of_ne_nil (hn : 1 ≤ n) {l : List α} (h : l ≠ []) :
    pieces n l = l.take n :: pieces n (l.drop n) := by
  rw [pieces, if_neg h, Nat.max_eq_left hn]

/-- The first pieces make up the beginning of the list. -/
theorem flatten_take_pieces (hn : 1 ≤ n) (j : Nat) (l : List α) :
    ((pieces n l).take j).flatten = l.take (j * n) := by
  induction j generalizing l with
  | zero => simp
  | succ j ih =>
    by_cases h : l = []
    · simp [h, pieces_nil]
    · rw [pieces_of_ne_nil hn h, List.take_succ_cons, List.flatten_cons, ih, Nat.succ_mul,
        Nat.add_comm, List.take_add]

private theorem prefix_flatten_take_pieces (hn : 1 ≤ n) (j : Nat) (l : List α) :
    ((pieces n l).take j).flatten <+: l := by
  rw [flatten_take_pieces hn]
  exact List.take_prefix _ _

/-- Each piece is full but for the last. -/
theorem getElem?_pieces (hn : 1 ≤ n) (j : Nat) (l : List α) :
    (pieces n l)[j]? = if j * n < l.length then some ((l.drop (j * n)).take n) else none := by
  induction j generalizing l with
  | zero =>
    by_cases h : l = []
    · simp [h, pieces_nil]
    · simp [pieces_of_ne_nil hn h, List.length_pos_iff.mpr h]
  | succ j ih =>
    by_cases h : l = []
    · simp [h, pieces_nil]
    · have hlt : j * n < l.length - n ↔ (j + 1) * n < l.length := by
        rw [Nat.succ_mul]
        omega
      rw [pieces_of_ne_nil hn h, List.getElem?_cons_succ, ih, List.length_drop, List.drop_drop,
        Nat.succ_mul, Nat.add_comm n]
      simp only [hlt, Nat.succ_mul]

end Pieces

/-! ### The calls -/

namespace Engine

/-- Whether there is such a context. -/
def has (e : Engine) : Stream → Bool
  | .main => true
  | .guidance => e.hasGuidance

/-- Whether the decode call on a context that comes after `i` others succeeds. -/
def decodes (e : Engine) (stream : Stream) (i : Nat) : Bool :=
  e.has stream && !(e.faults.schedule (.decode stream)).getD i false

private theorem decodes_zero (e : Engine) (stream : Stream) :
    e.decodes stream 0 = (e.has stream && !(e.faults.schedule (.decode stream)).headD false) := by
  rw [decodes]
  cases e.faults.schedule (.decode stream) <;> rfl

private theorem decodes_of_has_eq_false {e : Engine} {stream : Stream} (h : e.has stream = false)
    (i : Nat) : e.decodes stream i = false := by
  rw [decodes, h, Bool.false_and]

/-- The decode calls to come fail as they were to. -/
theorem decodes_next {e e' : Engine} {stream : Stream} (hhas : e'.has stream = e.has stream)
    (hfaults : e'.faults = e.faults.next (.decode stream)) (i : Nat) :
    e'.decodes stream i = e.decodes stream (i + 1) := by
  have hschedule : (e.faults.next (.decode stream)).schedule (.decode stream) =
      (e.faults.schedule (.decode stream)).tail := by
    cases stream <;> rfl
  rw [decodes, decodes, hhas, hfaults, hschedule]
  simp [List.getD_eq_getElem?_getD]

/-- What a decode call does to an engine. -/
structure Called (stream : Stream) (tokens : List Token) (start : Int) (e : Engine)
    (r : Except EngineError Unit) (e' : Engine) : Prop where
  /-- It is logged. -/
  calls : e'.calls.toList = e.calls.toList ++ [.decode stream tokens start]
  /-- Those to come fail as they were to. -/
  decodes : ∀ i, e'.decodes stream i = e.decodes stream (i + 1)
  /-- Whether it succeeds. -/
  result : r = .ok () ↔ e.decodes stream 0 = true
  /-- The cells hold the tokens unless it fails. -/
  cells : r = .ok () → e'.cells stream = (e.cells stream).write start tokens
  /-- All other cells stay. -/
  others : ∀ other, r = .ok () ∧ other = stream ∨ e'.cells other = e.cells other

private theorem ends_decode (stream : Stream) (tokens : List Token) (start : Int) (e : Engine) :
    Ends (decode stream tokens start) e (Called stream tokens start e) := by
  have hcells (calls : Array Call) (faults : Faults) (other : Stream) :
      ({ e with calls, faults } : Engine).cells other = e.cells other := by
    cases other <;> rfl
  simp only [decode, note, fails, ends_bind, ends_modify, ends_modifyGet, ends_failIf, ends_get]
  split
  · next h =>
    have hhas : e.has stream = false := by
      cases stream
      · cases h
      · simpa [has] using h
    refine ⟨Array.toList_push, fun i => ?_, ?_, nofun, fun other => .inr (hcells _ _ other)⟩
    · rw [decodes_of_has_eq_false hhas]
      apply decodes_of_has_eq_false
      cases stream
      · cases hhas
      · exact hhas
    · rw [decodes_of_has_eq_false hhas]
      exact ⟨nofun, nofun⟩
  · next h =>
    have hhas : e.has stream = true := by
      cases stream
      · rfl
      · simpa [has] using h
    split
    · next hf =>
      refine ⟨Array.toList_push, decodes_next ?_ rfl, ?_, nofun,
        fun other => .inr (hcells _ _ other)⟩
      · cases stream <;> rfl
      · rw [decodes_zero, hhas, hf]
        exact ⟨nofun, nofun⟩
    · next hf =>
      refine ⟨?_, decodes_next ?_ ?_, ?_, fun _ => ?_, fun other => ?_⟩
      · cases stream <;> exact Array.toList_push
      · cases stream <;> rfl
      · cases stream <;> rfl
      · rw [Bool.not_eq_true] at hf
        rw [decodes_zero, hhas, hf]
        exact ⟨fun _ => rfl, fun _ => rfl⟩
      · cases stream <;> rfl
      · cases stream <;> cases other <;> simp [cells, setCells]

/-- What decoding batches from a position on does to an engine: the first `j` are decoded, and the
next one is tried if there is one. -/
structure Committed (stream : Stream) (l : List (List Token)) (p : Int) (j : Nat) (e e' : Engine) :
    Prop where
  /-- So many batches there are. -/
  le : j ≤ l.length
  /-- The calls are logged, and no other. -/
  calls : e'.calls.toList = e.calls.toList ++ Feed.calls stream p (l.take (j + 1))
  /-- The calls for these batches succeed. -/
  decodes : ∀ i < j, e.decodes stream i = true
  /-- The call behind them fails. -/
  fails : j < l.length → e.decodes stream j = false
  /-- The cells hold these batches. -/
  cells : e'.cells stream = (e.cells stream).write p (l.take j).flatten
  /-- The cells of the other context stay. -/
  others : ∀ other, other ≠ stream → e'.cells other = e.cells other

variable {stream : Stream} {b : List Token} {l : List (List Token)} {p : Int} {j : Nat}
  {e e' e'' : Engine}

private theorem committed_nil (stream : Stream) (p : Int) (e : Engine) :
    Committed stream [] p 0 e e where
  le := Nat.le_refl 0
  calls := (List.append_nil _).symm
  decodes i hi := absurd hi (Nat.not_lt_zero i)
  fails h := absurd h (Nat.lt_irrefl 0)
  cells := rfl
  others _ _ := rfl

/-- Nothing is decoded if the first call fails. -/
theorem Called.committed_zero {cause : EngineError} (h : Called stream b p e (.error cause) e')
    (l : List (List Token)) : Committed stream (b :: l) p 0 e e' where
  le := Nat.zero_le _
  calls := h.calls
  decodes i hi := absurd hi (Nat.not_lt_zero i)
  fails _ := Bool.eq_false_iff.mpr fun hdecodes => nomatch h.result.mpr hdecodes
  cells := (h.others stream).resolve_left nofun
  others other _ := (h.others other).resolve_left nofun

/-- A batch that is decoded comes in front of what is decoded from its end on. -/
theorem Committed.cons (h : Committed stream l (p + b.length) j e' e'')
    (hcall : Called stream b p e (.ok ()) e') : Committed stream (b :: l) p (j + 1) e e'' where
  le := Nat.succ_le_succ h.le
  calls := by
    rw [h.calls, hcall.calls, List.append_assoc]
    rfl
  decodes := by
    rintro (_ | i) hi
    · exact hcall.result.mp rfl
    · rw [← hcall.decodes]
      exact h.decodes i (Nat.lt_of_succ_lt_succ hi)
  fails hj := by
    rw [← hcall.decodes]
    exact h.fails (Nat.lt_of_succ_lt_succ hj)
  cells := by
    rw [h.cells, List.take_succ_cons, List.flatten_cons, Cells.write_append]
    exact congrArg (fun c : Cells => c.write _ _) (hcall.cells rfl)
  others other hother := by
    rw [h.others other hother]
    exact (hcall.others other).resolve_left fun hsame => hother hsame.2

end Engine

/-- The workbench with other failures to come. -/
def Workbench.facing (w : Workbench) (faults : Faults) : Workbench :=
  { w with engine := { w.engine with faults } }

private theorem Workbench.cells_facing (w : Workbench) (faults : Faults) (stream : Stream) :
    (w.facing faults).engine.cells stream = w.engine.cells stream := by
  cases stream <;> rfl

private theorem Progress.pastOn_setPast (p : Progress) (stream : Stream) (n : Int) :
    (p.setPast stream n).pastOn stream = n := by
  cases stream <;> rfl

private theorem Progress.setPast_setPast (p : Progress) (stream : Stream) (m n : Int) :
    (p.setPast stream m).setPast stream n = p.setPast stream n := by
  cases stream <;> rfl

namespace Feed

open Workbench

/-- Batches are decoded up to the first call that fails. -/
theorem ends_batches (stream : Stream) (l : List (List Token)) (p : Int) (n : Nat) (w : Workbench) :
    Ends (batches stream l p n) w fun r t => ∃ j,
      w.engine.Committed stream l p j t.engine ∧ t.progress = w.progress ∧
      match r with
      | .ok q => j = l.length ∧ q = p + (l.take j).flatten.length
      | .error e => ∃ b cause, l[j]? = some b ∧ e = ⟨stream, p + (l.take j).flatten.length,
          b.length, n + (l.take j).flatten.length, cause⟩ := by
  induction l generalizing p n w with
  | nil => exact ⟨0, Engine.committed_nil stream p w.engine, rfl, rfl, (Int.add_zero p).symm⟩
  | cons b l ih =>
    unfold batches
    rw [ends_bind, ends_report, ends_bind, ends_adaptExcept, ends_call]
    apply (Engine.ends_decode stream b p w.engine).mono
    intro r e' hcall
    cases r with
    | error cause =>
      refine ⟨0, hcall.committed_zero l, rfl, b, cause, rfl, ?_⟩
      simp
    | ok u =>
      apply (ih _ _ _).mono
      rintro r t ⟨j, hd, hp, hr⟩
      refine ⟨j + 1, hd.cons hcall, hp, ?_⟩
      have hpos : p + b.length + (l.take j).flatten.length =
          p + ((b :: l).take (j + 1)).flatten.length := by
        rw [List.take_succ_cons, List.flatten_cons, List.length_append]
        omega
      cases r with
      | ok q => exact ⟨congrArg Nat.succ hr.1, hr.2.trans hpos⟩
      | error e =>
        obtain ⟨b', cause, hb, rfl⟩ := hr
        refine ⟨b', cause, hb, ?_⟩
        rw [hpos, List.take_succ_cons, List.flatten_cons, List.length_append, Nat.add_assoc]

/-- The pieces of a list of tokens are decoded up to the first call that fails, and counted. -/
theorem ends_feed (stream : Stream) (tokens : List Token) (n : Nat) (w : Workbench) :
    Ends (feed stream tokens n) w fun r t => ∃ j,
      w.engine.Committed stream (pieces n tokens) (w.progress.pastOn stream) j t.engine ∧
      t.progress = w.progress.setPast stream
        (w.progress.pastOn stream + ((pieces n tokens).take j).flatten.length) ∧
      match r with
      | .ok _ => j = (pieces n tokens).length
      | .error e => ∃ b cause, (pieces n tokens)[j]? = some b ∧ e = ⟨stream,
          w.progress.pastOn stream + ((pieces n tokens).take j).flatten.length,
          b.length, ((pieces n tokens).take j).flatten.length, cause⟩ := by
  simp only [feed, ends_bind, ends_get, ends_attempt]
  apply (ends_batches stream (pieces n tokens) _ 0 w).mono
  rintro r t ⟨j, hd, hp, hr⟩
  cases r with
  | ok q =>
    obtain ⟨hj, rfl⟩ := hr
    refine ⟨j, hd, ?_, hj⟩
    rw [← hp]
  | error e =>
    obtain ⟨b, cause, hb, rfl⟩ := hr
    refine ⟨j, hd, ?_, b, cause, hb, ?_⟩
    · rw [← hp]
    · rw [Nat.zero_add]

variable {stream : Stream} {tokens : List Token} {n : Nat} {w t : Workbench}

/-- Tokens that are fed to the end are all decoded, whatever the batches. -/
theorem feed_eq_ok (h : feed stream tokens n w = .ok () t) :
    t.engine.cells stream = (w.engine.cells stream).write (w.progress.pastOn stream) tokens ∧
      (∀ other, other ≠ stream → t.engine.cells other = w.engine.cells other) ∧
      t.progress = w.progress.setPast stream (w.progress.pastOn stream + tokens.length) := by
  obtain ⟨j, hd, hp, hj⟩ := (ends_feed stream tokens n w).of_ok h
  have hall : ((pieces n tokens).take j).flatten = tokens := by
    rw [hj, List.take_length, flatten_pieces]
  have hcells := hd.cells
  rw [hall] at hcells hp
  exact ⟨hcells, hd.others, hp⟩

/-- Tokens are fed to the end if no call fails. -/
theorem exists_feed_eq_ok (h : ∀ i, w.engine.decodes stream i = true) (tokens : List Token)
    (n : Nat) : ∃ t, feed stream tokens n w = .ok () t := by
  have hends := ends_feed stream tokens n w
  match hr : feed stream tokens n w with
  | .ok () t => exact ⟨t, rfl⟩
  | .error e t =>
    rw [ends_iff_of_eq_error hr] at hends
    obtain ⟨j, hd, -, b, cause, hb, -⟩ := hends
    have hlt := (List.getElem?_eq_some_iff.mp hb).1
    cases (hd.fails hlt).symm.trans (h j)

/-! ### What is committed -/

/-- Feeding commits the first `k` tokens of a list, in the batches that were tried. -/
structure Commits (stream : Stream) (tokens : List Token) (n : Nat) (w : Workbench) (k : Nat)
    (tried : List (List Token)) (t : Workbench) : Prop where
  /-- There is one call for each batch, and they are placed one behind the other. -/
  calls : t.engine.calls.toList =
    w.engine.calls.toList ++ Feed.calls stream (w.progress.pastOn stream) tried
  /-- The batches hold the tokens in order, from the first on. -/
  order : tried.flatten <+: tokens
  /-- No batch is empty, and none is too large. -/
  size : ∀ b ∈ tried, 1 ≤ b.length ∧ b.length ≤ n
  /-- The tokens are counted. Nothing else changes of the progress. -/
  progress : t.progress = w.progress.setPast stream (w.progress.pastOn stream + k)
  /-- The cells hold the tokens, each at its position. -/
  cells : (w.engine.cells stream).Extends (w.progress.pastOn stream) (tokens.take k)
    (t.engine.cells stream)
  /-- The cells of the other context stay. -/
  others : ∀ other, other ≠ stream → t.engine.cells other = w.engine.cells other

/-- A failure tells how far feeding has come: `k` tokens, a number of whole batches. -/
structure CutShort (stream : Stream) (tokens : List Token) (n : Nat) (w : Workbench) (k : Nat)
    (tried : List (List Token)) (e : DecodeError) : Prop where
  /-- It is the context that was fed. -/
  context : e.stream = stream
  /-- The batch that failed was to be placed behind them. -/
  position : e.position = w.progress.pastOn stream + k
  /-- They were decoded. -/
  evaluated : e.evaluated = k
  /-- All batches before the one that failed are full. -/
  dvd : n ∣ k
  /-- Some tokens are left. -/
  lt : k < tokens.length
  /-- The batch that failed was full too, or the last. -/
  batch : e.size = min n (tokens.length - k)
  /-- No batch was tried behind it. -/
  last : tried.flatten = tokens.take (k + e.size) ∧ tried.length = k / n + 1
  /-- The calls before succeed. -/
  decodes : ∀ i < k / n, w.engine.decodes stream i = true
  /-- This one fails. -/
  fails : w.engine.decodes stream (k / n) = false

private theorem commits_of_committed {j : Nat} (hn : 1 ≤ n)
    (hd : w.engine.Committed stream (pieces n tokens) (w.progress.pastOn stream) j t.engine)
    (hp : t.progress = w.progress.setPast stream
      (w.progress.pastOn stream + ((pieces n tokens).take j).flatten.length)) :
    Commits stream tokens n w ((pieces n tokens).take j).flatten.length
      ((pieces n tokens).take (j + 1)) t := by
  have hinitial := prefix_flatten_take_pieces hn (l := tokens)
  refine ⟨hd.calls, hinitial _, fun b hb => ?_, hp, ?_, hd.others⟩
  · have hlength := length_mem_pieces (List.mem_of_mem_take hb)
    rwa [Nat.max_eq_left hn] at hlength
  · rw [hd.cells, ← List.prefix_iff_eq_take.mp (hinitial j)]
    exact Cells.extends_write _ _ _

private theorem cutShort_of_committed {j : Nat} {b : List Token} (cause : EngineError) (hn : 1 ≤ n)
    (hd : w.engine.Committed stream (pieces n tokens) (w.progress.pastOn stream) j t.engine)
    (hb : (pieces n tokens)[j]? = some b) :
    CutShort stream tokens n w ((pieces n tokens).take j).flatten.length
      ((pieces n tokens).take (j + 1)) ⟨stream, w.progress.pastOn stream +
        ((pieces n tokens).take j).flatten.length, b.length,
        ((pieces n tokens).take j).flatten.length, cause⟩ := by
  have hpiece := getElem?_pieces hn j tokens
  have hj : j < (pieces n tokens).length := (List.getElem?_eq_some_iff.mp hb).1
  rw [hb] at hpiece
  split at hpiece
  · next hlt =>
    have hk : ((pieces n tokens).take j).flatten.length = j * n := by
      rw [flatten_take_pieces hn, List.length_take]
      omega
    have hsize : b.length = min n (tokens.length - j * n) := by
      rw [Option.some.inj hpiece, List.length_take, List.length_drop]
    have hdiv : j * n / n = j := Nat.mul_div_cancel j hn
    rw [hk]
    refine ⟨rfl, rfl, rfl, Nat.dvd_mul_left n j, hlt, hsize, ⟨?_, ?_⟩, ?_, ?_⟩
    · have hmin : min (j * n + n) tokens.length = min (j * n + b.length) tokens.length := by omega
      rw [flatten_take_pieces hn, Nat.succ_mul, List.take_eq_take_iff, hmin]
    · rw [List.length_take, hdiv]
      omega
    · rw [hdiv]
      exact hd.decodes
    · rw [hdiv]
      exact hd.fails hj
  · cases hpiece

/-- The rest of what was cut short comes to the whole list. -/
theorem resumed_eq_whole {k m m' : Nat} {f f' : Faults} {u v : Workbench}
    (hcells : t.engine.cells stream =
      (w.engine.cells stream).write (w.progress.pastOn stream) (tokens.take k))
    (hothers : ∀ other, other ≠ stream → t.engine.cells other = w.engine.cells other)
    (hp : t.progress = w.progress.setPast stream (w.progress.pastOn stream + k))
    (hk : k ≤ tokens.length)
    (hu : feed stream (tokens.drop k) m (t.facing f) = .ok () u)
    (hv : feed stream tokens m' (w.facing f') = .ok () v) :
    (∀ other, u.engine.cells other = v.engine.cells other) ∧ u.progress = v.progress := by
  obtain ⟨hucells, huothers, hup⟩ := feed_eq_ok hu
  obtain ⟨hvcells, hvothers, hvp⟩ := feed_eq_ok hv
  have hpast : t.progress.pastOn stream = w.progress.pastOn stream + k := by
    rw [hp, Progress.pastOn_setPast]
  constructor
  · intro other
    by_cases h : other = stream
    · subst h
      rw [hucells, hvcells, cells_facing, cells_facing, hcells]
      change Cells.write _ (t.progress.pastOn other) _ = _
      have hwrite := Cells.write_append (w.engine.cells other) (w.progress.pastOn other)
        (tokens.take k) (tokens.drop k)
      rw [List.take_append_drop, List.length_take_of_le hk] at hwrite
      rw [hpast, ← hwrite]
      rfl
    · rw [huothers other h, hvothers other h, cells_facing, cells_facing, hothers other h]
  · rw [hup, hvp]
    change t.progress.setPast stream (t.progress.pastOn stream + _) = w.progress.setPast stream _
    rw [hpast, hp, Progress.setPast_setPast, List.length_drop]
    congr 1
    change _ = w.progress.pastOn stream + _
    omega

/-- Feeding tokens to a context commits a beginning of them, the whole if no call fails. The calls
are one for each batch of at most `n` tokens, one placed behind the other, from the counter on; the
cells hold exactly the committed tokens, whatever the batches, and the counter stands behind them.
If a call fails it is the last, the failure tells how many tokens were committed, these are whole
batches, and to feed the others later leaves the cells and the counter as feeding the whole list
would have left them without the failure. -/
theorem feed_commits_prefix (stream : Stream) (tokens : List Token) {n : Nat} (hn : 1 ≤ n)
    (w : Workbench) :
    Ends (feed stream tokens n) w fun r t => ∃ k tried, Commits stream tokens n w k tried t ∧
      match r with
      | .ok _ => k = tokens.length ∧ tried.flatten = tokens ∧
          ∀ i < tried.length, w.engine.decodes stream i = true
      | .error e => CutShort stream tokens n w k tried e ∧ ∀ m f,
          ((∀ i, (t.facing f).engine.decodes stream i = true) →
            ∃ u, feed stream (tokens.drop e.evaluated) m (t.facing f) = .ok () u) ∧
          ∀ u, feed stream (tokens.drop e.evaluated) m (t.facing f) = .ok () u →
            ∀ m' f' v, feed stream tokens m' (w.facing f') = .ok () v →
              (∀ other, u.engine.cells other = v.engine.cells other) ∧
                u.progress = v.progress := by
  apply (ends_feed stream tokens n w).mono
  rintro r t ⟨j, hd, hp, hr⟩
  refine ⟨_, _, commits_of_committed hn hd hp, ?_⟩
  cases r with
  | ok u =>
    dsimp only at hr ⊢
    subst hr
    rw [List.take_length, List.take_of_length_le (Nat.le_succ _), flatten_pieces]
    exact ⟨rfl, rfl, hd.decodes⟩
  | error e =>
    obtain ⟨b, cause, hb, rfl⟩ := hr
    have hcut := cutShort_of_committed cause hn hd hb
    refine ⟨hcut, fun m f => ⟨fun h => exists_feed_eq_ok h _ _, fun u hu m' f' v hv => ?_⟩⟩
    have hcells := hd.cells
    rw [List.prefix_iff_eq_take.mp (prefix_flatten_take_pieces hn j tokens)] at hcells
    exact resumed_eq_whole hcells hd.others hp (Nat.le_of_lt hcut.lt) hu hv

/-- The second of three batches fails. The rest is fed at once later. -/
theorem feed_commits_prefix_of_failed_batch :
    ∃ w e t u v,
      feed .guidance [1, 2, 3, 4, 5] 2 w = .error e t ∧ e.evaluated = 2 ∧ e.position = 5 ∧
      feed .guidance [3, 4, 5] 3 (t.facing {}) = .ok () u ∧
      feed .guidance [1, 2, 3, 4, 5] 4 (w.facing {}) = .ok () v ∧
      (∀ other, u.engine.cells other = v.engine.cells other) ∧ u.progress = v.progress := by
  let w : Workbench :=
    { engine := { hasGuidance := true, faults := { decodeGuidance := [false, true] } }
      progress := { guidancePast := 3, remaining := 0 } }
  have hall {w : Workbench} (h : w.engine.hasGuidance = true) (i : Nat) :
      (w.facing {}).engine.decodes .guidance i = true := by
    rw [Engine.decodes]
    exact Bool.and_eq_true_iff.mpr ⟨h, rfl⟩
  have htest : (match feed .guidance [1, 2, 3, 4, 5] 2 w with
      | .ok .. => false
      | .error e t => t.engine.hasGuidance && e.evaluated = 2 && e.position = 5) = true := by
    decide +kernel
  have hcommits := feed_commits_prefix .guidance [1, 2, 3, 4, 5] (n := 2) (by decide) w
  match hr : feed .guidance [1, 2, 3, 4, 5] 2 w with
  | .ok _ t =>
    rw [hr] at htest
    cases htest
  | .error e t =>
    rw [hr] at htest
    simp only [Bool.and_eq_true, decide_eq_true_eq] at htest
    obtain ⟨⟨hhas, hevaluated⟩, hposition⟩ := htest
    rw [ends_iff_of_eq_error hr] at hcommits
    obtain ⟨-, -, -, -, hresume⟩ := hcommits
    rw [hevaluated] at hresume
    obtain ⟨u, hu⟩ := (hresume 3 {}).1 (hall hhas)
    obtain ⟨v, hv⟩ := exists_feed_eq_ok (hall (w := w) rfl) [1, 2, 3, 4, 5] 4
    exact ⟨w, e, t, u, v, hr, hevaluated, hposition, hu, hv, (hresume 3 {}).2 u hu 4 {} v hv⟩

end Feed

end Dialogue
