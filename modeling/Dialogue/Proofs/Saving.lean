import Dialogue.Proofs.Dropped
import Dialogue.Proofs.SkippedTokens
import Dialogue.Proofs.WindowBound
import Dialogue.Session.Run
/-!
# Saving

As long as the session file is in use no cell is moved, unless a move fails. What is written is then
coherent unless the log lists what was dropped when the session began. Before a draw it does not, if
no query passed over the place where the prompt and the session file differ: all of the log was
compared by then. A session that ends before saves tokens whose cells it dropped.
-/

namespace Dialogue

open Effect

variable {s₀ : Session} {w : Window} {offset : Int} {n : Nat} {path : String} {v u : MainContext}
  {r : Except SessionError (Option StopReason)}

/-! ### As long as the session file is in use -/

/-- A swap that keeps the session file in use moves nothing. -/
theorem Swap.moves_of_path (h : Swap w v u) (hs : ∀ b ∈ v.shiftFaults, b = false)
    (hp : u.path ≠ none) : u.moves ≤ v.moves := by
  cases h with
  | idle => exact absurd rfl hp
  | unremoved =>
    unfold MainContext.moves
    rw [List.countP_append]
    exact Nat.le_refl _
  | unmoved _ _ hf =>
    rw [headD_of_all_false hs] at hf
    cases hf
  | evicted => exact absurd rfl hp

private theorem Swaps.moves_of_path (h : Swaps w v u) (hs : ∀ b ∈ v.shiftFaults, b = false)
    (hp : u.path ≠ none) : u.moves ≤ v.moves := by
  induction h with
  | refl => exact Nat.le_refl _
  | tail hswaps hswap ih =>
    have hsuffix := (Swaps.onward hswaps).shiftFaults
    have hlast := hswap.moves_of_path (fun b hb => hs b (hsuffix.subset hb)) hp
    have hpath := fun hnone => hp (hswap.path_eq_none hnone)
    exact Nat.le_trans hlast (ih hpath)

private theorem Arrived.moves_of_path (h : Arrived w offset v r u)
    (hs : ∀ b ∈ v.shiftFaults, b = false) (hp : u.path ≠ none) : u.moves ≤ v.moves := by
  cases h with
  | stopped h =>
    have hm := Swaps.moves_of_path h hs hp
    exact hm
  | ready h _ _ =>
    have hm := Swaps.moves_of_path h hs hp
    exact hm

private theorem Evaluated.moves_of_path (h : Evaluated w offset n v r u)
    (hs : ∀ b ∈ v.shiftFaults, b = false) (hp : u.path ≠ none) : u.moves ≤ v.moves := by
  cases h with
  | idle => exact Nat.le_refl _
  | stopped h => exact h.moves_of_path hs hp
  | fed h hf =>
    have hpath := hf.onward.path.resolve_left hp
    rw [hf.moves_eq]
    exact h.moves_of_path hs fun hnone => hp (hpath.trans hnone)

private theorem Arrived.cells_eq (h : Arrived w offset v r u) (hm : u.moves ≤ v.moves) :
    u.cells = v.cells := by
  cases h with
  | stopped h => exact (Swaps.alike h hm).cells_eq
  | ready h _ _ => exact (Swaps.alike h hm).cells_eq

/-- The positions of what is decoded fit into four bytes. -/
theorem Evaluated.encodable (h : Evaluated w offset n v r u) (hk : 0 ≤ w.keep)
    (hw : w.size < 0x80000000) (hb : v.Bounded w) (hm : u.moves ≤ v.moves)
    (hv : v.cells.Encodable) : u.cells.Encodable := by
  cases h with
  | idle => exact hv
  | stopped h hr =>
    rw [h.cells_eq hm]
    exact hv
  | @fed _ u _ h hf =>
    rw [hf.moves_eq] at hm
    obtain ⟨hpast, hfits⟩ := (h.fits hk hb).reuse
    have hcells : u.reuse.cells = v.cells := h.cells_eq hm
    obtain ⟨m, hd⟩ := hf.decoded
    have hle := hd.le
    intro q hq
    rw [hd.cells q] at hq
    split at hq
    · next hrange =>
      rw [List.length_take] at hrange
      omega
    · rw [hcells] at hq
      exact hv q hq

/-! ### What a pass leaves, and what it writes -/

private theorem Stepped.cells_eq (h : Stepped n v u) : u.cells = v.cells := by
  obtain ⟨_, _, _, _, hs, -, rfl⟩ := h.exists_saved
  exact hs.alike.cells_eq

private theorem Stepped.shiftFaults_eq (h : Stepped n v u) : u.shiftFaults = v.shiftFaults := by
  obtain ⟨_, _, _, _, hs, -, rfl⟩ := h.exists_saved
  cases hs <;> rfl

/-- Taking the next step does not take a session file into use. -/
theorem Stepped.path_eq (h : Stepped n v u) : u.path = none ∨ u.path = v.path := by
  obtain ⟨_, _, _, _, hs, -, rfl⟩ := h.exists_saved
  cases hs with
  | kept => exact .inr rfl
  | written => exact .inr rfl
  | failed => exact .inl rfl

/-- A pass does not take a session file into use. -/
theorem Passed.path_eq (h : Passed w offset n v u) : u.path = none ∨ u.path = v.path := by
  cases h with
  | ended h => exact h.onward.path
  | stepped h hs =>
    rcases hs.path_eq with hp | hp
    · exact .inl hp
    · rw [hp]
      exact h.onward.path

private theorem Passed.shiftFaults (h : Passed w offset n v u) :
    u.shiftFaults <:+ v.shiftFaults := by
  cases h with
  | ended h => exact h.onward.shiftFaults
  | stepped h hs =>
    rw [hs.shiftFaults_eq]
    exact h.onward.shiftFaults

private theorem Passed.moves_of_path (h : Passed w offset n v u)
    (hs : ∀ b ∈ v.shiftFaults, b = false) (hp : u.path ≠ none) : u.moves ≤ v.moves := by
  cases h with
  | ended h => exact h.moves_of_path hs hp
  | stepped h hstep =>
    have hpath := hstep.path_eq.resolve_left hp
    rw [hstep.moves_eq]
    exact h.moves_of_path hs fun hnone => hp (hpath.trans hnone)

private theorem Passed.encodable (h : Passed w offset n v u) (hk : 0 ≤ w.keep)
    (hw : w.size < 0x80000000) (hb : v.Bounded w) (hm : u.moves ≤ v.moves)
    (hv : v.cells.Encodable) : u.cells.Encodable := by
  cases h with
  | ended h => exact h.encodable hk hw hb hm hv
  | stepped h hs =>
    rw [hs.moves_eq] at hm
    rw [hs.cells_eq]
    exact h.encodable hk hw hb hm hv

/-- A pass that writes the session file writes the log and the cells that it leaves. -/
theorem Passed.directory_eq (h : Passed w offset n v u) :
    u.directory = v.directory ∨ ∃ p, u.path = some p ∧
      v.directory.write p (SessionFile.encode u.logged u.cells.snapshot) = .ok u.directory := by
  cases h with
  | ended h => exact .inl h.onward.directory
  | stepped h hs =>
    rw [← h.onward.directory]
    obtain ⟨_, _, _, _, hsaved, -, rfl⟩ := hs.exists_saved
    cases hsaved with
    | kept => exact .inl rfl
    | written hp hd => exact .inr ⟨_, hp, hd⟩
    | failed => exact .inl rfl

/-- Before a draw the log agrees with the cells. -/
theorem MainContext.Compares.holds_of_drained {once : Prop} (h : v.Compares s₀ once)
    (hp : v.path ≠ none) (hs : v.pending = [] ∨ v.Holds) (hq : v.queue.length ≤ v.queueRead) :
    v.Holds := by
  rcases h.log with hf | ⟨hh, -⟩
  · rcases hs with hnil | hh
    · have hle := hf.le
      have hlt := hf.lt_queue_length h.prompt
      rcases hf.ahead hnil with hr | ⟨hnone, -⟩
      · omega
      · exact absurd hnone hp
    · exact hh
  · exact hh

/-- What a pass writes agrees with the cells if the log could be compared. -/
theorem Passed.holds_of_written {once : Prop} (h : Passed s₀.window s₀.offset n v u)
    (hm : u.moves ≤ v.moves) (hs₀ : s₀.Sized) (hv : v.Compares s₀ once) (hp : u.path ≠ none) :
    u.directory = v.directory ∨ u.Holds := by
  cases h with
  | ended h => exact .inl h.onward.directory
  | @stepped t _ h hs =>
    have hpath := hs.path_eq.resolve_left hp
    rw [hs.moves_eq] at hm
    obtain ⟨ht, hpending⟩ := h.compares hm hs₀ hv
    rw [← h.onward.directory]
    obtain ⟨_, _, _, _, hsaved, hq, rfl⟩ := hs.exists_saved
    refine hq.imp_right fun hq => ?_
    have hh := ht.holds_of_drained (fun hnone => hp (hpath.trans hnone)) (hpending rfl) hq
    cases hsaved <;> exact hh

/-! ### What can be saved -/

namespace MainContext

/-- What holds of a session that is to keep a session file, with a property of its log. -/
structure Saveable (s₀ : Session) (path : String) (P : MainContext → Prop) (v : MainContext) :
    Prop where
  /-- The resident tokens fit into the window. -/
  bounded : v.Bounded s₀.window
  /-- No move fails. -/
  shiftFaults : ∀ b ∈ v.shiftFaults, b = false
  /-- While the file is in use the log has the property, and the cells can be written. -/
  inUse : v.path = none ∨ (v.path = some path ∧ P v ∧ v.cells.Encodable)

variable {P : MainContext → Prop}

private theorem Saveable.imp {Q : MainContext → Prop} (h : v.Saveable s₀ path P) (hPQ : P v → Q v) :
    v.Saveable s₀ path Q :=
  ⟨h.bounded, h.shiftFaults, h.inUse.imp_right fun ⟨hp, hP, he⟩ => ⟨hp, hPQ hP, he⟩⟩

/-- A file that is written is coherent just if the log lists nothing that was dropped, unless it is
not kept. -/
theorem Saveable.coherentAt_iff (h : v.Saveable s₀ path (Divided s₀)) (hs₀ : s₀.Sized)
    {d d' : Directory} {path' : String} (hp : v.path = some path')
    (hd : d.write path' (SessionFile.encode v.logged v.cells.snapshot) = .ok d') :
    d' = d ∨ (d'.CoherentAt path ↔ ¬ v.Drops s₀) := by
  rcases h.inUse with hnone | ⟨hpath, hv, he⟩
  · rw [hnone] at hp
    cases hp
  · rw [hpath] at hp
    cases hp
    apply (Directory.read_of_write hd).imp_right
    intro hread
    rw [← hv.holds_iff, Directory.CoherentAt, hread]
    have hlength : v.logged.length < 0x100000000 := by
      have hle := hv.length_le
      have hpast := h.bounded.2
      have hsize := hs₀.size_lt
      have hlogged := hs₀.logged_lt
      omega
    have hcoherent := SessionFile.coherent_encode_iff hlength he
    constructor
    · intro hall
      exact hcoherent.mp (hall _ rfl)
    · rintro hh _ ⟨⟩
      exact hcoherent.mpr hh

/-- Whether the log agrees with the cells can be told from how far it was compared. -/
theorem Compares.holds_iff (h : v.Compares s₀ True) :
    v.Holds ↔ v.logged.length ≤ s₀.matched ∨ v.loggedRead = v.logged.length := by
  rcases h.log with hf | ⟨hh, honce⟩
  · have hle := hf.le
    have hlt := hf.lt_logged
    rw [← hf.logged] at hlt
    constructor
    · intro hh
      exact absurd hh hf.not_holds
    · intro hc
      omega
  · exact ⟨fun _ => honce trivial, fun _ => hh⟩

end MainContext

open MainContext

variable {P : MainContext → Prop}

/-- A pass keeps what is needed to save. -/
theorem Passed.saveable (h : Passed s₀.window s₀.offset n v u) (hs₀ : s₀.Sized)
    (hk : 0 ≤ s₀.window.keep) (hP : u.moves ≤ v.moves → P v → P u)
    (hv : v.Saveable s₀ path P) : u.Saveable s₀ path P := by
  refine ⟨h.bounded hk hv.bounded, fun b hb => hv.shiftFaults b (h.shiftFaults.subset hb), ?_⟩
  by_cases hp : u.path = none
  · exact .inl hp
  · have hpath := h.path_eq.resolve_left hp
    have hm := h.moves_of_path hv.shiftFaults hp
    obtain ⟨hsome, hPv, he⟩ := hv.inUse.resolve_left fun hnone => hp (hpath.trans hnone)
    exact .inr ⟨hpath.trans hsome, hP hm hPv, h.encodable hk hs₀.size_lt hv.bounded hm he⟩

private theorem Queried.saveable {passes : Prop} (h : Queried passes v u) (hP : P v → P u)
    (hv : v.Saveable s₀ path P) : u.Saveable s₀ path P := by
  refine ⟨h.bounded hv.bounded, ?_, ?_⟩
  · cases h <;> exact hv.shiftFaults
  · refine hv.inUse.imp ?_ ?_
    · intro hnone
      cases h <;> exact hnone
    · rintro ⟨hsome, hPv, he⟩
      have hPu := hP hPv
      cases h <;> exact ⟨hsome, hPu, he⟩

/-- A pass that writes the session file writes a coherent one just if it leaves a log that lists
nothing that was dropped. -/
theorem Passed.coherentAt_iff (h : Passed s₀.window s₀.offset n v u) (hs₀ : s₀.Sized)
    (hk : 0 ≤ s₀.window.keep) (hv : v.Saveable s₀ path (Divided s₀)) :
    u.directory = v.directory ∨ (u.directory.CoherentAt path ↔ ¬ u.Drops s₀) := by
  have hu := h.saveable hs₀ hk (fun hm => h.divided hm) hv
  rcases h.directory_eq with heq | ⟨_, hp, hd⟩
  · exact .inl heq
  · exact hu.coherentAt_iff hs₀ hp hd

/-- A session that can be compared keeps its file coherent. -/
theorem Passed.coherentAt (h : Passed s₀.window s₀.offset n v u) (hs₀ : s₀.Sized)
    (hk : 0 ≤ s₀.window.keep)
    (hv : v.Saveable s₀ path fun v => v.Divided s₀ ∧ v.Compares s₀ True)
    (hfile : v.directory.CoherentAt path) : u.directory.CoherentAt path := by
  rcases h.directory_eq with heq | ⟨p, hp, -⟩
  · rwa [heq]
  · have hne : u.path ≠ none := by simp [hp]
    have hm := h.moves_of_path hv.shiftFaults hne
    have hpath := h.path_eq.resolve_left hne
    obtain ⟨-, ⟨hd, hc⟩, -⟩ := hv.inUse.resolve_left fun hnone => hne (hpath.trans hnone)
    rcases h.coherentAt_iff hs₀ hk (hv.imp And.left) with heq | hiff
    · rwa [heq]
    · rcases h.holds_of_written hm hs₀ hc hne with heq | hh
      · rwa [heq]
      · exact hiff.mpr ((h.divided hm hd).holds_iff.mp hh)

namespace Session

/-- In a dialogue that begins only once what is needed to save is kept. -/
theorem invariant_divided (hs₀ : s₀.Sized) (hk : 0 ≤ s₀.window.keep) (path : String) :
    Invariant (fun _ r => r ≠ .reset) fun s =>
      s.settled = s₀.settled ∧ s.mainContext.Saveable s₀ path (Divided s₀) := by
  apply invariant_of_mainContext
  · intro v u hv hp
    exact hp.saveable hs₀ hk (fun hm => hp.divided hm) hv
  · intro s text room u _ hv _ hq
    exact hq.saveable hq.divided hv
  · intro s _ _ hallowed
    exact absurd rfl hallowed

/-- If no query passes over the place where the prompt and the session file differ, the log can be
compared besides, and the file stays coherent. -/
theorem invariant_saveable (hs₀ : s₀.Sized) (hk : 0 ≤ s₀.window.keep) (path : String) :
    Invariant (fun s r => r ≠ .reset ∧ s₀.KeepsFork s r) fun s =>
      s.settled = s₀.settled ∧
        ((s.mainContext.Saveable s₀ path fun v => v.Divided s₀ ∧ v.Compares s₀ True) ∧
          s.mainContext.directory.CoherentAt path) := by
  apply invariant_of_mainContext (P := fun v =>
    (v.Saveable s₀ path fun v => v.Divided s₀ ∧ v.Compares s₀ True) ∧
      v.directory.CoherentAt path)
  · rintro v u ⟨hv, hfile⟩ hp
    refine ⟨?_, hp.coherentAt hs₀ hk hv hfile⟩
    exact hp.saveable hs₀ hk (fun hm h => ⟨hp.divided hm h.1, hp.compares hm hs₀ h.2⟩) hv
  · rintro s text room u - ⟨hv, hfile⟩ hallowed hq
    have hpasses (hp : s.passesOver text) (hf : s.mainContext.Forked s₀) :=
      hallowed.2.lt_queueRead hp hf
    refine ⟨hq.saveable (fun h => ⟨hq.divided h.1, hq.compares h.2 hpasses⟩) hv, ?_⟩
    cases hq <;> exact hfile
  · intro s _ _ hallowed
    exact absurd rfl hallowed.1

private theorem ends_saveAll (s : Session) :
    Ends saveAll s fun _ t => Saved s.mainContext t.mainContext := by
  simp only [saveAll, ends_bind, ends_get, ends_onlyIf]
  split
  · rw [ends_report, ends_discard, ends_onBench]
    have hsave := Cache.ends_saveOrDisable (ε := SessionError) { s.toWorkbench with
      journal := s.journal.push (.finalSave s.progress.logged.length) }
    exact hsave
  · exact Saved.kept

/-- What is needed to save holds when a session begins. -/
theorem Begun.saveable {config : Config} {engine : Engine} {directory : Directory} {s : Session}
    {path : String} (h : Begun config engine directory s) (hpath : config.cachePath = some path)
    (hfile : directory.CoherentAt path) (hcells : engine.mainCells.Encodable)
    (hshift : ∀ b ∈ engine.faults.shift, b = false) :
    (s.mainContext.Saveable s path fun v => v.Divided s ∧ v.Compares s True) ∧
      s.mainContext.directory.CoherentAt path := by
  have hc : s.mainContext.Compares s True := by
    apply h.compares
    intro path' hpath'
    rw [hpath] at hpath'
    cases hpath'
    exact hfile
  have hdivided : s.mainContext.Divided s := hc.divided (Nat.le_refl _)
  obtain ⟨logged, v, hl, heq, -⟩ := h.mainContext
  have hv : v.shiftFaults = engine.faults.shift ∧ v.directory = directory ∧
      (v.path = none ∨ v.path = some path) ∧ v.cells.Encodable := by
    cases hl with
    | nothing hp =>
      rw [hpath] at hp
      exact ⟨rfl, rfl, hp, hcells⟩
    | restored hf _ _ hc =>
      rw [hpath] at hf
      exact ⟨rfl, rfl, .inr hf.symm, Cells.encodable_of_ofSnapshot? hc⟩
  obtain ⟨hs, hd, hp, he⟩ := hv
  have hu : s.mainContext.shiftFaults = v.shiftFaults ∧ s.mainContext.directory = v.directory ∧
      s.mainContext.path = v.path ∧ s.mainContext.cells.Encodable := by
    rw [heq, MainContext.aligned]
    split
    · exact ⟨rfl, rfl, rfl, he⟩
    · exact ⟨rfl, rfl, rfl, he.remove _ _⟩
  obtain ⟨hs', hd', hp', he'⟩ := hu
  refine ⟨⟨h.bounded, ?_, ?_⟩, ?_⟩
  · rw [hs', hs]
    exact hshift
  · rw [hp']
    exact hp.imp_right fun hp => ⟨hp, ⟨hdivided, hc⟩, he'⟩
  · rw [hd', hd]
    exact hfile

/-- Saving leaves the files, or writes the log with the cells to the session file. -/
theorem saveAll_directory_eq (t : Session) :
    (left (saveAll t)).directory = t.directory ∨ ∃ p, t.mainContext.path = some p ∧
      t.directory.write p
        (SessionFile.encode t.mainContext.logged t.mainContext.cells.snapshot) =
          .ok (left (saveAll t)).directory := by
  have hsaved : Saved t.mainContext (left (saveAll t)).mainContext :=
    Ends.left (P := fun u : Session => Saved t.mainContext u.mainContext) (ends_saveAll t)
  change (left (saveAll t)).mainContext.directory = t.mainContext.directory ∨
    ∃ p, t.mainContext.path = some p ∧ t.mainContext.directory.write p _ =
      .ok (left (saveAll t)).mainContext.directory
  generalize (left (saveAll t)).mainContext = u at hsaved
  cases hsaved with
  | kept => exact .inl rfl
  | written hp hd => exact .inr ⟨_, hp, hd⟩
  | failed => exact .inl rfl

/-- The last save writes a coherent file just if the log lists nothing that was dropped. -/
theorem saveAll_coherentAt_iff {t : Session} (hs₀ : s₀.Sized)
    (ht : t.mainContext.Saveable s₀ path (Divided s₀)) :
    (left (saveAll t)).directory = t.directory ∨
      ((left (saveAll t)).directory.CoherentAt path ↔ ¬ t.mainContext.Drops s₀) := by
  rcases saveAll_directory_eq t with heq | ⟨_, hp, hd⟩
  · exact .inl heq
  · exact ht.coherentAt_iff hs₀ hp hd

/-- If the log can be compared, how far it was compared tells whether the last save writes a
coherent file. -/
theorem saveAll_coherentAt_iff_of_compares {t : Session} (hs₀ : s₀.Sized)
    (ht : t.mainContext.Saveable s₀ path fun v => v.Divided s₀ ∧ v.Compares s₀ True)
    (hfile : t.directory.CoherentAt path) :
    (left (saveAll t)).directory.CoherentAt path ↔
      (left (saveAll t)).directory = t.directory ∨
        t.progress.logged.length ≤ s₀.matched ∨
          t.progress.loggedRead = t.progress.logged.length := by
  have hkept (heq : (left (saveAll t)).directory = t.directory) :
      (left (saveAll t)).directory.CoherentAt path := by
    rw [heq]
    exact hfile
  rcases saveAll_directory_eq t with heq | ⟨_, hp, hd⟩
  · exact ⟨fun _ => .inl heq, fun _ => hkept heq⟩
  · have hne : t.mainContext.path ≠ none := by simp [hp]
    obtain ⟨-, ⟨hdivided, hc⟩, -⟩ := ht.inUse.resolve_left hne
    rcases (ht.imp And.left).coherentAt_iff hs₀ hp hd with heq | hiff
    · exact ⟨fun _ => .inl heq, fun _ => hkept heq⟩
    · rw [← hdivided.holds_iff] at hiff
      exact ⟨fun h => .inr (hc.holds_iff.mp (hiff.mp h)),
        fun h => h.elim hkept fun h => hiff.mpr (hc.holds_iff.mpr h)⟩

/-- In a dialogue that begins only once, and as long as no move fails, what is written before a draw
or at the end is coherent just if the log does not list the first token that was dropped when the
session began. Before a draw it never does, unless a query passed over the place of that token; at
the end it does unless the log is no longer than what the prompt agrees with, or all of it was
compared. -/
theorem session_file_coherent {now : Nat} {config : Config} {engine : Engine}
    {directory : Directory} {s : Session} {w : Workbench} {path : String}
    {requests : List Request} (h : Session.start now config engine directory = .ok s w)
    (hpath : config.cachePath = some path) (hfile : directory.CoherentAt path)
    (hcells : engine.mainCells.Encodable) (hshift : ∀ b ∈ engine.faults.shift, b = false)
    (hr : .reset ∉ requests) :
    (∀ t, s.AtPass requests t →
      (left (pass t)).directory = t.directory ∨
        ((left (pass t)).directory.CoherentAt path ↔ ¬ (left (pass t)).mainContext.Drops s)) ∧
    ((left (saveAll (s.serveAll requests))).directory = (s.serveAll requests).directory ∨
      ((left (saveAll (s.serveAll requests))).directory.CoherentAt path ↔
        ¬ (s.serveAll requests).mainContext.Drops s)) ∧
    (s.AllAllowed s.KeepsFork requests →
      (∀ t, s.AtPass requests t → (left (pass t)).directory.CoherentAt path) ∧
      (s.serveAll requests).directory.CoherentAt path ∧
      ((left (saveAll (s.serveAll requests))).directory.CoherentAt path ↔
        (left (saveAll (s.serveAll requests))).directory = (s.serveAll requests).directory ∨
          (s.serveAll requests).progress.logged.length ≤ s.matched ∨
            (s.serveAll requests).progress.loggedRead =
              (s.serveAll requests).progress.logged.length)) := by
  have hbegun := start_eq_ok h
  have hsized := hbegun.sized
  have hsaveable := hbegun.saveable hpath hfile hcells hshift
  have hdivided := invariant_divided hsized hbegun.keep path
  have honce : s.AllAllowed (fun _ r => r ≠ .reset) requests := allAllowed_ne_reset hr s
  have hbegins : s.settled = s.settled ∧ s.mainContext.Saveable s path (Divided s) :=
    ⟨rfl, hsaveable.1.imp And.left⟩
  refine ⟨?_, ?_, ?_⟩
  · intro t ht
    obtain ⟨hsettled, hv⟩ := hdivided.atPass hbegins honce ht
    have hpassed : Passed t.window t.offset t.config.batchSize t.mainContext
        (left (pass t)).mainContext :=
      Ends.left (P := fun u : Session => Passed t.window t.offset t.config.batchSize t.mainContext
        u.mainContext) ((ends_pass t).mono fun _ _ hu => hu.2)
    rw [window_of_settled hsettled, offset_of_settled hsettled] at hpassed
    exact hpassed.coherentAt_iff hsized hbegun.keep hv
  · exact saveAll_coherentAt_iff hsized (hdivided.serveAll hbegins honce).2
  · intro hk
    -- Where no query passes over the fork, a stronger invariant holds of the files as well.
    have hinvariant := invariant_saveable hsized hbegun.keep path
    have hallowed := honce.and hk
    obtain ⟨-, hv, hcoherent⟩ := hinvariant.serveAll ⟨rfl, hsaveable⟩ hallowed
    refine ⟨?_, hcoherent, saveAll_coherentAt_iff_of_compares hsized hv hcoherent⟩
    intro t ht
    exact (hinvariant.pass t (hinvariant.atPass ⟨rfl, hsaveable⟩ hallowed ht)).2.2

/-- The file saved after an answer is coherent although the prompt parts from the one it was begun
with. -/
theorem session_file_coherent_of_saved_dialogue :
    ∃ s w, Session.start 0 { prompt := "abxy", cachePath := some "s.bin", cacheAll := true }
        { script := Token.ofText "z" } (Directory.ofSession (Token.ofText "abcd")) = .ok s w ∧
      (s.serveAll [.answer none]).progress.logged = Token.ofText "abxyz" ∧
      (left (saveAll (s.serveAll [.answer none]))).directory.CoherentAt "s.bin" := by
  obtain ⟨s, w, h, htest⟩ := exists_of_gives
    (fun s : Session => decide ((s.serveAll [.answer none]).progress.logged = Token.ofText "abxyz" ∧
      (s.serveAll [.answer none]).progress.loggedRead =
        (s.serveAll [.answer none]).progress.logged.length))
    (r := Session.start 0 { prompt := "abxy", cachePath := some "s.bin", cacheAll := true }
      { script := Token.ofText "z" } (Directory.ofSession (Token.ofText "abcd")))
    (by decide +kernel)
  obtain ⟨hlogged, hread⟩ := of_decide_eq_true htest
  have hk : s.AllAllowed s.KeepsFork [.answer none] := ⟨trivial, trivial⟩
  have hcells : Cells.empty.Encodable := fun p hp => absurd (Cells.get?_empty p) hp
  have hr : Request.reset ∉ [Request.answer none] := by decide
  obtain ⟨-, -, hkept⟩ := session_file_coherent h rfl (Directory.coherentAt_ofSession (by decide))
    hcells nofun hr
  exact ⟨s, w, h, hlogged, (hkept hk).2.2.mpr (.inr (.inr hread))⟩

/-- A session that ends before the prompt is evaluated saves tokens whose cells it dropped. After a
query that passes over the place where the prompt and the session file differ, so does the file that
is written before the first draw. -/
theorem session_file_incoherent :
    (∃ s w, Session.start 0 { prompt := "abxy", cachePath := some "s.bin", cacheAll := true } {}
        (Directory.ofSession (Token.ofText "abcd")) = .ok s w ∧
      (Directory.ofSession (Token.ofText "abcd")).CoherentAt "s.bin" ∧
      ¬ (left (saveAll s)).directory.CoherentAt "s.bin") ∧
    ∃ s w, Session.start 0
        { prompt := "abxy", cachePath := some "s.bin", batchSize := 2, instruct := true }
        { contextSize := 96 } (Directory.ofSession (Token.ofText ("ab" ++ leadText))) = .ok s w ∧
      (Directory.ofSession (Token.ofText ("ab" ++ leadText))).CoherentAt "s.bin" ∧
      ¬ (s.serveAll [.answer none, .query "cd" none, .answer none]).directory.CoherentAt
        "s.bin" := by
  constructor
  · obtain ⟨s, w, h, htest⟩ := exists_of_gives
      (fun s : Session => (left (saveAll s)).directory.missesAt "s.bin" 512 2)
      (r := Session.start 0 { prompt := "abxy", cachePath := some "s.bin", cacheAll := true } {}
        (Directory.ofSession (Token.ofText "abcd"))) (by decide +kernel)
    exact ⟨s, w, h, Directory.coherentAt_ofSession (by decide),
      Directory.not_coherentAt_of_missesAt htest⟩
  · obtain ⟨s, w, h, htest⟩ := exists_of_gives
      (fun s : Session => (s.serveAll
        [.answer none, .query "cd" none, .answer none]).directory.missesAt "s.bin" 512 2)
      (r := Session.start 0
        { prompt := "abxy", cachePath := some "s.bin", batchSize := 2, instruct := true }
        { contextSize := 96 } (Directory.ofSession (Token.ofText ("ab" ++ leadText))))
      (by decide +kernel)
    exact ⟨s, w, h, Directory.coherentAt_ofSession (by decide),
      Directory.not_coherentAt_of_missesAt htest⟩

end Session

end Dialogue
