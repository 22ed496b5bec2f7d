import Dialogue.Session.Ends
/-!
# The main context

What the main context holds, the tokens on their way to it, and the calls that concern it, read off
a workbench. Each operation is said to do to this view what it does to the workbench; operations
that leave the view alone need no more than that.
-/

namespace Dialogue

open Effect

/-- Whether a call decodes into the main context, or removes or moves cells of it. -/
def Call.onMain : Call → Bool
  | .decode .main .. | .removeCells .main .. | .shiftCells .main .. => true
  | _ => false

/-- What the main context amounts to. -/
@[ext] structure MainContext where
  /-- How many tokens are resident. -/
  past : Int
  /-- The cells. -/
  cells : Cells
  /-- The tokens of the next step. -/
  pending : List Token
  /-- The tokens queued so far. -/
  queue : List Token
  /-- How many of the queued tokens were moved into a step. -/
  queueRead : Nat
  /-- The tokens the session file is to hold. -/
  logged : List Token
  /-- How many of the logged tokens are known to be resident. -/
  loggedRead : Nat
  /-- The session file, as long as it is in use. -/
  path : Option String
  /-- The files. -/
  directory : Directory
  /-- The calls that concern the main context, oldest first. -/
  calls : List Call
  /-- Which of the next decode calls fail. -/
  decodeFaults : List Bool
  /-- Which of the next removals fail. -/
  removeFaults : List Bool
  /-- Which of the next moves fail. -/
  shiftFaults : List Bool

namespace Engine

/-- The calls that concern the main context, oldest first. -/
def mainCalls (e : Engine) : List Call := e.calls.toList.filter Call.onMain

/-- What the main context amounts to for the engine. -/
def mainPart (e : Engine) : Cells × List Call × List Bool × List Bool × List Bool :=
  (e.mainCells, e.mainCalls, e.faults.decodeMain, e.faults.remove, e.faults.shift)

end Engine

/-- The main context when the dialogue begins anew. -/
def MainContext.restarted (v : MainContext) : MainContext :=
  { v with past := 0, pending := [], queueRead := 0, loggedRead := 0 }

/-- The main context of a workbench. -/
def Workbench.mainContext (w : Workbench) : MainContext where
  past := w.progress.past
  cells := w.engine.mainCells
  pending := w.progress.pending
  queue := w.progress.queue
  queueRead := w.progress.queueRead
  logged := w.progress.logged
  loggedRead := w.progress.loggedRead
  path := w.cache.path
  directory := w.directory
  calls := w.engine.mainCalls
  decodeFaults := w.engine.faults.decodeMain
  removeFaults := w.engine.faults.remove
  shiftFaults := w.engine.faults.shift

/-! ### Calls that concern the main context -/

namespace Engine

variable {e : Engine} {tokens : List Token} {start first delta : Int} {last : Option Int}
  {s : Option Nat} {n : Nat}

/-- A decode call that is not to fail writes its tokens, and is logged as a batch. -/
theorem decode_main_eq_ok (h : e.faults.decodeMain.headD false = false) :
    decode .main tokens start e = .ok ()
      { e with
        calls := e.calls.push (.decode .main tokens start)
        faults := { e.faults with decodeMain := e.faults.decodeMain.tail }
        mainCells := e.mainCells.write start tokens
        batches := e.batches.push ⟨.main, tokens, start⟩ } := by
  change EStateM.bind (failIf (e.faults.decodeMain.headD false) _) _ _ = _
  rw [h]
  rfl

/-- A decode call that is to fail leaves the cells. -/
theorem decode_main_eq_error (h : e.faults.decodeMain.headD false = true) :
    decode .main tokens start e = .error (.inference "scripted failure")
      { e with
        calls := e.calls.push (.decode .main tokens start)
        faults := { e.faults with decodeMain := e.faults.decodeMain.tail } } := by
  change EStateM.bind (failIf (e.faults.decodeMain.headD false) _) _ _ = _
  rw [h]
  rfl

/-- A removal that is not to fail removes the cells. -/
theorem removeCells_main_eq_ok (h : e.faults.remove.headD false = false) :
    removeCells .main s first last e = .ok ()
      { e with
        calls := e.calls.push (.removeCells .main s first last)
        faults := { e.faults with remove := e.faults.remove.tail }
        mainCells := e.mainCells.remove first last } := by
  change EStateM.bind (failIf (e.faults.remove.headD false) _) _ _ = _
  rw [h]
  rfl

/-- A removal that is to fail leaves the cells. -/
theorem removeCells_main_eq_error (h : e.faults.remove.headD false = true) :
    removeCells .main s first last e = .error (.cells "scripted remove failure")
      { e with
        calls := e.calls.push (.removeCells .main s first last)
        faults := { e.faults with remove := e.faults.remove.tail } } := by
  change EStateM.bind (failIf (e.faults.remove.headD false) _) _ _ = _
  rw [h]
  rfl

/-- A move that is not to fail moves the cells. -/
theorem shiftCells_main_eq_ok (h : e.faults.shift.headD false = false) :
    shiftCells .main n first last delta e = .ok ()
      { e with
        calls := e.calls.push (.shiftCells .main n first last delta)
        faults := { e.faults with shift := e.faults.shift.tail }
        mainCells := e.mainCells.shift first last delta } := by
  change EStateM.bind (failIf (e.faults.shift.headD false) _) _ _ = _
  rw [h]
  rfl

/-- A move that is to fail leaves the cells. -/
theorem shiftCells_main_eq_error (h : e.faults.shift.headD false = true) :
    shiftCells .main n first last delta e = .error (.cells "scripted shift failure")
      { e with
        calls := e.calls.push (.shiftCells .main n first last delta)
        faults := { e.faults with shift := e.faults.shift.tail } } := by
  change EStateM.bind (failIf (e.faults.shift.headD false) _) _ _ = _
  rw [h]
  rfl

/-- A call that concerns the main context is added to those that do. -/
theorem mainCalls_push {c : Call} (h : c.onMain = true) (calls : Array Call) :
    (calls.push c).toList.filter Call.onMain = calls.toList.filter Call.onMain ++ [c] := by
  simp [h]

/-- Another call is not one of those that concern the main context. -/
theorem mainCalls_push_other {c : Call} (h : c.onMain = false) (calls : Array Call) :
    (calls.push c).toList.filter Call.onMain = calls.toList.filter Call.onMain := by
  simp [h]

end Engine

/-! ### Calls that leave the main context alone -/

namespace Engine

/-- A call that does not concern the main context leaves it alone. -/
theorem keeps_mainPart_note {c : Call} (h : c.onMain = false) : Keeps mainPart (note c) := by
  apply Keeps.modify
  intro e
  simp only [mainPart, mainCalls, mainCalls_push_other h]

/-- Spelling a text leaves the main context alone. -/
theorem keeps_mainPart_tokenize (text : String) (addBos special : Bool) :
    Keeps mainPart (tokenize text addBos special) := by
  apply Keeps.bind (keeps_mainPart_note rfl)
  intro _
  apply Keeps.bind Keeps.get
  intro _
  exact Keeps.bind (Keeps.failIf _ _) fun _ => Keeps.pure _

/-- Decoding for the guidance context leaves the main context alone. -/
theorem keeps_mainPart_decode_guidance (tokens : List Token) (start : Int) :
    Keeps mainPart (decode .guidance tokens start) := by
  apply Keeps.bind (keeps_mainPart_note rfl)
  intro _
  apply Keeps.bind Keeps.get
  intro _
  apply Keeps.bind (Keeps.failIf _ _)
  intro _
  apply Keeps.bind (fun _ => rfl)
  intro _
  exact Keeps.bind (Keeps.failIf _ _) fun _ => Keeps.modify fun _ => rfl

/-- Drawing a token leaves the main context alone. -/
theorem keeps_mainPart_sample (guided : Bool) : Keeps mainPart (sample guided) := by
  apply Keeps.bind (keeps_mainPart_note rfl)
  intro _
  apply Keeps.bind (fun _ => rfl)
  intro _
  exact Keeps.bind (Keeps.failIf _ _) fun _ _ => rfl

/-- A snapshot is one of the cells as they are. -/
theorem ends_takeSnapshot (e : Engine) :
    Ends takeSnapshot e fun r e' =>
      mainPart e' = mainPart e ∧ ∀ bytes, r = .ok bytes → bytes = e.mainCells.snapshot := by
  have hcalls := mainCalls_push_other (c := .takeSnapshot) rfl e.calls
  simp only [takeSnapshot, note, fails, ends_bind, ends_modify, ends_modifyGet, ends_failIf,
    ends_get, ends_pure, mainPart, mainCalls, hcalls]
  split
  · exact ⟨rfl, by rintro _ ⟨⟩⟩
  · constructor
    · rfl
    · intro bytes hb
      cases hb
      rfl

/-- A snapshot that is restored gives the cells. -/
theorem ends_restoreSnapshot (bytes : List UInt8) (e : Engine) :
    Ends (restoreSnapshot bytes) e fun r e' =>
      match r with
      | .ok _ => ∃ cells, Cells.ofSnapshot? bytes = some cells ∧
          mainPart e' = (cells, (mainPart e).2)
      | .error _ => mainPart e' = mainPart e := by
  have hcalls := mainCalls_push_other (c := .restoreSnapshot bytes) rfl e.calls
  simp only [restoreSnapshot, note, fails, ends_bind, ends_modify, ends_modifyGet, ends_failIf,
    mainPart, mainCalls]
  split
  · rw [hcalls]
    rfl
  · cases hc : Cells.ofSnapshot? bytes with
    | none =>
      simp only [orFail, ends_throw, hcalls]
      rfl
    | some cells =>
      simp only [orFail, ends_pure, hcalls]
      exact ⟨cells, rfl, rfl⟩

/-- Setting the seed leaves the main context alone. -/
theorem keeps_mainPart_setSeed (seed : Nat) : Keeps mainPart (setSeed seed) := by
  apply Keeps.bind (keeps_mainPart_note rfl)
  intro _
  exact Keeps.modify fun _ => rfl

end Engine

namespace Workbench

variable {ε α : Type}

/-- A report leaves the main context alone. -/
theorem keeps_mainContext_report (e : Event) :
    Keeps mainContext (report e : WorkM ε Unit) := Keeps.modify fun _ => rfl

/-- A call leaves the main context alone if it leaves alone the part of the engine that belongs to
it. -/
theorem keeps_mainContext_call {x : EngineM α} (h : Keeps Engine.mainPart x) :
    Keeps mainContext (call x) := by
  apply Keeps.onPart h
  intro w e he
  simp only [Engine.mainPart, Prod.mk.injEq] at he
  simp only [mainContext, he]

end Workbench

end Dialogue
