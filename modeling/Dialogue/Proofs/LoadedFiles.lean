import Dialogue.Cache.Storage
import Dialogue.Proofs.FileCodec
import Dialogue.Proofs.WrittenFiles
import Dialogue.Session.Ends
/-!
# Loading session files

What is loaded from a file is what was saved to it: the bytes of a file that loads are those that
are written for its tokens and its snapshot, and no other file that begins like it, or that it
begins like, loads. The engine is called for a file only when all of it was read.
-/

namespace Dialogue

open Effect Workbench

/-- Whether bytes are not those of a session file at all. Those of one that holds too much are. -/
def FileDefect.isCorrupt : FileDefect → Bool
  | .tooLarge .. => false
  | _ => true

namespace SessionFile

variable {defect : FileDefect} {n size capacity capacity' : Nat}
  {bytes other a b state : List UInt8} {tokens : List Token}

/-! ### Files that are cut or added to -/

private theorem takeOr_append_right (h : takeOr defect n bytes = .ok (a, b)) (more : List UInt8) :
    takeOr defect n (bytes ++ more) = .ok (a, b ++ more) := by
  obtain ⟨rfl, ha⟩ := takeOr_eq_ok h
  rw [List.append_assoc]
  exact takeOr_append ha

private theorem takeOr_eq_error {e : FileDefect} (h : takeOr defect n bytes = .error e) :
    e = defect := by
  unfold takeOr at h
  cases ht : Bytes.take? n bytes with
  | none =>
    rw [ht] at h
    cases h
    rfl
  | some p =>
    rw [ht] at h
    cases h

/-- Where reading some bytes fails otherwise, it goes on behind them. -/
private theorem takeOr_bind_eq_error {α : Type} {e : FileDefect}
    {g : List UInt8 × List UInt8 → Except FileDefect α}
    (h : (takeOr defect n bytes >>= g) = .error e) (he : e ≠ defect) :
    ∃ a b, takeOr defect n bytes = .ok (a, b) ∧ g (a, b) = .error e := by
  cases hx : takeOr defect n bytes with
  | ok p => exact ⟨p.1, p.2, rfl, by rwa [hx] at h⟩
  | error e' =>
    rw [hx] at h
    cases h
    exact absurd (takeOr_eq_error hx) he

private theorem decodeTokens_eq_error {e : FileDefect} (h : decodeTokens n bytes = .error e) :
    e = .truncatedTokens := by
  induction n generalizing bytes with
  | zero => cases h
  | succ n ih =>
    refine Decidable.byContradiction fun he => ?_
    rw [decodeTokens] at h
    obtain ⟨word, rest, -, h⟩ := takeOr_bind_eq_error h he
    cases hx : decodeTokens n rest with
    | ok p =>
      simp only [hx] at h
      cases h
    | error e' =>
      simp only [hx] at h
      cases h
      exact he (ih hx)

/-- That a file holds too much is said before its tokens are read. -/
theorem decode_append_of_tooLarge (h : decode capacity bytes = .error (.tooLarge size n))
    (more : List UInt8) : decode capacity (bytes ++ more) = .error (.tooLarge size n) := by
  unfold decode at h ⊢
  obtain ⟨letters, b₁, h₁, h⟩ := takeOr_bind_eq_error h nofun
  rw [takeOr_append_right h₁]
  change (if letters ≠ magic then _ else _) = _
  dsimp only at h
  split at h
  · cases h
  · next hmagic =>
    rw [if_neg hmagic]
    obtain ⟨word, b₂, h₂, h⟩ := takeOr_bind_eq_error h nofun
    rw [takeOr_append_right h₂]
    change (if Bytes.toNat word ≠ version then _ else _) = _
    dsimp only at h
    split at h
    · cases h
    · next hversion =>
      rw [if_neg hversion]
      obtain ⟨count, b₃, h₃, h⟩ := takeOr_bind_eq_error h nofun
      rw [takeOr_append_right h₃]
      change (if capacity < Bytes.toNat count then _ else _) = _
      dsimp only at h
      split at h
      · next hcapacity =>
        rw [if_pos hcapacity]
        exact h
      · next hcapacity =>
        exfalso
        cases hx : decodeTokens (Bytes.toNat count) b₃ with
        | error e =>
          simp only [hx] at h
          cases h
          exact FileDefect.noConfusion (decodeTokens_eq_error hx)
        | ok p =>
          simp only [hx] at h
          obtain ⟨size', b₄, -, h⟩ := takeOr_bind_eq_error h nofun
          obtain ⟨state, b₅, -, h⟩ := takeOr_bind_eq_error h nofun
          dsimp only at h
          split at h <;> cases h

/-- What begins like a file that can be read and ends before it cannot be read. -/
theorem decode_of_prefix (h : decode capacity bytes = .ok (tokens, state)) (hp : other <+: bytes)
    (hne : other ≠ bytes) :
    ∃ defect, defect.isCorrupt = true ∧ decode capacity other = .error defect := by
  obtain ⟨more, rfl⟩ := hp
  have hmore : more ≠ [] := by
    rintro rfl
    exact hne (List.append_nil _).symm
  cases hd : decode capacity other with
  | ok p =>
    obtain ⟨tokens', state'⟩ := p
    obtain ⟨rfl, hc, ht, hs⟩ := decode_eq_ok hd
    rw [decode_encode_append hc ht hs, if_neg hmore] at h
    cases h
  | error defect =>
    refine ⟨defect, ?_, rfl⟩
    cases defect with
    | tooLarge size n =>
      rw [decode_append_of_tooLarge hd] at h
      cases h
    | _ => rfl

/-- What goes on behind a file that can be read cannot be read. -/
theorem decode_of_extension (h : decode capacity bytes = .ok (tokens, state)) (hp : bytes <+: other)
    (hne : other ≠ bytes) : decode capacity other = .error .trailingBytes := by
  obtain ⟨more, rfl⟩ := hp
  obtain ⟨rfl, hc, ht, hs⟩ := decode_eq_ok h
  rw [decode_encode_append hc ht hs, if_neg]
  rintro rfl
  exact hne (List.append_nil _)

end SessionFile

/-! ### Loading and saving -/

/-- The engine is called once with the snapshot; it takes the cells of it, or fails and keeps those
it has. -/
theorem Engine.ends_restoreSnapshot_calls (bytes : List UInt8) (e : Engine) :
    Ends (restoreSnapshot bytes) e fun r e' =>
      e'.calls = e.calls.push (.restoreSnapshot bytes) ∧
        match r with
        | .ok _ => Cells.ofSnapshot? bytes = some e'.mainCells
        | .error _ => e'.mainCells = e.mainCells := by
  simp only [restoreSnapshot, note, fails, ends_bind, ends_modify, ends_modifyGet, ends_failIf]
  split
  · exact ⟨trivial, trivial⟩
  · cases hc : Cells.ofSnapshot? bytes with
    | none => exact ⟨rfl, rfl⟩
    | some cells => exact ⟨rfl, rfl⟩

namespace Cache

variable {path : String} {capacity : Nat} {bytes state : List UInt8} {tokens : List Token}
  {w t : Workbench}

/-- What it is to load a file: the engine is called once with the snapshot; it takes the cells of
it, and the tokens are given, or it fails and keeps the cells it has. -/
def Restores (path : String) (tokens : List Token) (state : List UInt8) (w : Workbench)
    (r : Except FileError (List Token)) (t : Workbench) : Prop :=
  t.engine.calls = w.engine.calls.push (.restoreSnapshot state) ∧
    match r with
    | .ok loaded => loaded = tokens ∧ Cells.ofSnapshot? state = some t.engine.mainCells
    | .error e => t.engine.mainCells = w.engine.mainCells ∧
        ∃ cause, Engine.restoreSnapshot state w.engine = .error cause t.engine ∧
          e = .state path cause

/-- Bytes that are no session file are rejected before anything is done. -/
theorem load_of_decode_eq_error {defect : FileDefect} (hr : w.directory.read path = .ok bytes)
    (hd : SessionFile.decode capacity bytes = .error defect) :
    load path capacity w = .error (.defective path defect) w := by
  have hload : Ends (load path capacity) w fun r t =>
      r = .error (.defective path defect) ∧ t = w := by
    simp only [load, ends_bind, ends_get, hr, hd]
    exact ⟨rfl, rfl⟩
  obtain ⟨_, ⟨rfl, ht⟩, -, he⟩ := hload.exists_left
  obtain ⟨t, hload⟩ := (he _).mp rfl
  rw [hload] at ht
  rw [hload, show t = w from ht]

/-- A session file is loaded. -/
theorem ends_load_restores (hr : w.directory.read path = .ok bytes)
    (hd : SessionFile.decode capacity bytes = .ok (tokens, state)) :
    Ends (load path capacity) w (Restores path tokens state w) := by
  have hcalls := Engine.ends_restoreSnapshot_calls state w.engine
  simp only [load, ends_bind, ends_get, hr, hd, ends_adaptExcept, ends_call]
  cases hx : Engine.restoreSnapshot state w.engine with
  | ok _ e =>
    rw [ends_iff_of_eq_ok hx] at hcalls ⊢
    exact ⟨hcalls.1, rfl, hcalls.2⟩
  | error cause e =>
    rw [ends_iff_of_eq_error hx] at hcalls ⊢
    exact ⟨hcalls.1, hcalls.2, cause, hx, rfl⟩

/-- The snapshot of cells gives them back, where the engine does not fail. -/
theorem load_snapshot {c : Cells} (hr : w.directory.read path = .ok bytes)
    (hd : SessionFile.decode capacity bytes = .ok (tokens, c.snapshot)) (hc : c.Encodable)
    (hf : w.engine.faults.restoreSnapshot.headD false = false) :
    ∃ t, load path capacity w = .ok tokens t ∧ ∀ p, t.engine.mainCells.get? p = c.get? p := by
  obtain ⟨cells, hcells, hget⟩ := Cells.ofSnapshot?_snapshot hc
  have hload : Ends (load path capacity) w fun r t =>
      ∃ loaded, r = .ok loaded ∧ loaded = tokens ∧ t.engine.mainCells = cells := by
    simp only [load, ends_bind, ends_get, hr, hd, ends_adaptExcept, ends_call,
      Engine.restoreSnapshot, Engine.note, Engine.fails, ends_modify, ends_modifyGet, ends_failIf,
      Faults.schedule, hf, hcells, Bool.false_eq_true, if_false]
    exact ⟨tokens, rfl, rfl, rfl⟩
  obtain ⟨_, t, ht, rfl, hcells⟩ := hload.exists_eq_ok
  exact ⟨t, ht, fun p => by rw [hcells, hget]⟩

/-- What saving a session file comes to. -/
theorem ends_save_written (path : String) (tokens : List Token) (w : Workbench) :
    Ends (save path tokens) w fun r t => r = .ok () →
      w.directory.write path (SessionFile.encode tokens w.engine.mainCells.snapshot) =
          .ok t.directory ∧
        t.engine.calls = w.engine.calls.push .takeSnapshot := by
  simp only [save, ends_bind, ends_get, ends_adaptExcept, ends_call, Engine.takeSnapshot,
    Engine.note, Engine.fails, ends_modify, ends_modifyGet, ends_failIf]
  split
  · intro h
    cases h
  · rw [ends_pure, mapError_ok]
    dsimp only
    split
    · intro h
      cases h
    · next directory hwrite => exact fun _ => ⟨hwrite, rfl⟩

/-- A session file is saved where it can be written and the engine does not fail. -/
theorem save_of_write {d : Directory} (hf : w.engine.faults.takeSnapshot.headD false = false)
    (hw : w.directory.write path (SessionFile.encode tokens w.engine.mainCells.snapshot) = .ok d) :
    ∃ t, save path tokens w = .ok () t ∧ t.directory = d := by
  have hsave : Ends (save path tokens) w fun r t => ∃ u, r = .ok u ∧ t.directory = d := by
    simp only [save, ends_bind, ends_get, ends_adaptExcept, ends_call, Engine.takeSnapshot,
      Engine.note, Engine.fails, ends_modify, ends_modifyGet, ends_failIf, Faults.schedule, hf,
      Bool.false_eq_true, if_false, ends_pure, mapError_ok, hw]
    exact ⟨(), rfl, rfl⟩
  obtain ⟨_, t, ht, hd⟩ := hsave.exists_eq_ok
  exact ⟨t, ht, hd⟩

end Cache

/-- A session file holds what was saved, and what is loaded from a file is what it holds. Saving
writes the tokens and the snapshot of the engine, and they can be read there if they are kept. A
file that was written for tokens that fit in, and for any snapshot, is loaded: the engine is called
once, with just that snapshot, and the tokens are given unless it fails; the snapshot of cells gives
them back. A file that loads is the one that is written for what is loaded from it; from every other
file nothing is loaded, and nothing is done. What begins like a file that loads and is shorter or
longer is rejected as corrupt. -/
theorem session_file_codec (path : String) (capacity : Nat) :
    (∀ tokens w,
      (∀ t, Cache.save path tokens w = .ok () t →
        t.engine.calls = w.engine.calls.push .takeSnapshot ∧
        w.directory.write path (SessionFile.encode tokens w.engine.mainCells.snapshot) =
          .ok t.directory ∧
        (t.directory = w.directory ∨ t.directory.read path =
          .ok (SessionFile.encode tokens w.engine.mainCells.snapshot))) ∧
      ∀ d, w.engine.faults.takeSnapshot.headD false = false →
        w.directory.write path (SessionFile.encode tokens w.engine.mainCells.snapshot) = .ok d →
        ∃ t, Cache.save path tokens w = .ok () t ∧ t.directory = d) ∧
    (∀ tokens state w, tokens.length < 0x100000000 → state.length < 0x10000000000000000 →
      tokens.length ≤ capacity →
      w.directory.read path = .ok (SessionFile.encode tokens state) →
      Ends (Cache.load path capacity) w (Cache.Restores path tokens state w) ∧
      ∀ c : Cells, c.Encodable → state = c.snapshot →
        w.engine.faults.restoreSnapshot.headD false = false →
        ∃ t, Cache.load path capacity w = .ok tokens t ∧
          ∀ p, t.engine.mainCells.get? p = c.get? p) ∧
    (∀ bytes w, w.directory.read path = .ok bytes →
      Ends (Cache.load path capacity) w fun r t =>
        (∃ tokens state, bytes = SessionFile.encode tokens state ∧ tokens.length ≤ capacity ∧
          Cache.Restores path tokens state w r t) ∨
        ∃ defect, r = .error (.defective path defect) ∧ t = w) ∧
    ∀ bytes other w w' tokens t, w.directory.read path = .ok bytes →
      Cache.load path capacity w = .ok tokens t → (other <+: bytes ∨ bytes <+: other) →
      other ≠ bytes → w'.directory.read path = .ok other →
      ∃ defect : FileDefect, defect.isCorrupt = true ∧
        Cache.load path capacity w' = .error (.defective path defect) w' := by
  refine ⟨fun tokens w => ⟨fun t h => ?_, fun d => Cache.save_of_write⟩, ?_, ?_, ?_⟩
  · obtain ⟨hwrite, hcalls⟩ := (Cache.ends_save_written path tokens w).of_ok h rfl
    exact ⟨hcalls, hwrite, Directory.read_of_write hwrite⟩
  · intro tokens state w ht hs hc hr
    have hd := SessionFile.decode_encode hc ht hs
    refine ⟨Cache.ends_load_restores hr hd, ?_⟩
    rintro c hc rfl hf
    exact Cache.load_snapshot hr hd hc hf
  · intro bytes w hr
    cases hd : SessionFile.decode capacity bytes with
    | ok p =>
      obtain ⟨tokens, state⟩ := p
      obtain ⟨hbytes, hle, -, -⟩ := SessionFile.decode_eq_ok hd
      apply (Cache.ends_load_restores hr hd).mono
      intro r t h
      exact .inl ⟨tokens, state, hbytes, hle, h⟩
    | error defect =>
      rw [ends_iff_of_eq_error (Cache.load_of_decode_eq_error hr hd)]
      exact .inr ⟨defect, rfl, rfl⟩
  -- The counts in a file settle where it ends.
  · intro bytes other w w' tokens t hr hload hprefix hne hr'
    cases hd : SessionFile.decode capacity bytes with
    | error defect =>
      rw [Cache.load_of_decode_eq_error hr hd] at hload
      cases hload
    | ok p =>
      rcases hprefix with hprefix | hprefix
      · obtain ⟨defect, hcorrupt, hd'⟩ := SessionFile.decode_of_prefix hd hprefix hne
        exact ⟨defect, hcorrupt, Cache.load_of_decode_eq_error hr' hd'⟩
      · have hd' := SessionFile.decode_of_extension hd hprefix hne
        exact ⟨.trailingBytes, rfl, Cache.load_of_decode_eq_error hr' hd'⟩

/-- The cells of a file that was saved are those found when it is loaded. -/
theorem session_file_codec_of_saved_cells :
    ∃ w t v u : Workbench, v.engine.mainCells = .empty ∧ v.directory = t.directory ∧
      Cache.save "session" (Token.ofText "ab") w = .ok () t ∧
      Cache.load "session" 8 v = .ok (Token.ofText "ab") u ∧
      u.engine.mainCells.get? 1 = some (Token.ofChar 'b') := by
  let c := Cells.empty.write 0 (Token.ofText "ab")
  let w : Workbench := { engine := { mainCells := c }, progress := { remaining := 0 } }
  have hcells : c.Encodable := by
    intro p hp
    rw [Cells.get?_write, Cells.get?_empty] at hp
    split at hp
    · next h =>
      change 0 ≤ p ∧ p < 0 + 2 at h
      omega
    · exact absurd rfl hp
  obtain ⟨d, hd, hread⟩ : ∃ d, w.directory.write "session"
      (SessionFile.encode (Token.ofText "ab") c.snapshot) = .ok d ∧
      d.read "session" = .ok (SessionFile.encode (Token.ofText "ab") c.snapshot) := by
    exact ⟨_, rfl, rfl⟩
  obtain ⟨hsave, hload, -⟩ := session_file_codec "session" 8
  obtain ⟨t, ht, rfl⟩ := (hsave (Token.ofText "ab") w).2 d rfl hd
  let v : Workbench := { engine := {}, directory := t.directory, progress := { remaining := 0 } }
  obtain ⟨-, hcells'⟩ := hload (Token.ofText "ab") c.snapshot v (by decide +kernel)
    (by decide +kernel) (by decide +kernel) hread
  obtain ⟨u, hu, hget⟩ := hcells' c hcells rfl rfl
  refine ⟨w, t, v, u, rfl, rfl, ht, hu, ?_⟩
  rw [hget]
  decide +kernel

end Dialogue
