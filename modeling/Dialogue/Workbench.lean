import Dialogue.Directory
import Dialogue.Effect
import Dialogue.Engine.Basic
import Dialogue.Event
import Dialogue.Progress
/-!
# The workbench

What the parts of a session work on together: an engine, a directory, the journal, the progress made
and the session cache. A computation that fails leaves the workbench as it was then.
-/

namespace Dialogue

/-- Where a session is kept between runs. Follows `SessionCache`. -/
structure Cache where
  /-- The session file, as long as it is in use. -/
  path : Option String := none
  /-- Whether the file is only read. -/
  readOnly : Bool := false
deriving DecidableEq, Repr, Inhabited

namespace Cache

/-- Whether there is a session file in use. Follows `SessionCache.is_active`. -/
def isActive (c : Cache) : Bool := c.path.isSome

/-- Whether the session file is written. Follows `SessionCache.is_writable`. -/
def isWritable (c : Cache) : Bool := c.isActive && !c.readOnly

end Cache

/-- What the parts of a session work on. -/
structure Workbench where
  /-- The engine. -/
  engine : Engine
  /-- The files. -/
  directory : Directory := {}
  /-- What was reported. -/
  journal : Journal := #[]
  /-- How far the session has come. -/
  progress : Progress
  /-- The session cache. -/
  cache : Cache := {}
deriving Inhabited

/-- A computation on a workbench. -/
abbrev WorkM (ε : Type) := EStateM ε Workbench

namespace Workbench

variable {ε : Type}

/-- Reports an event. -/
def report (e : Event) : WorkM ε Unit := modify fun w => { w with journal := w.journal.push e }

/-- Changes the progress. -/
def advance (f : Progress → Progress) : WorkM ε Unit :=
  modify fun w => { w with progress := f w.progress }

/-- Calls the engine. -/
def call {α : Type} (x : EngineM α) : WorkM EngineError α :=
  Effect.onPart Workbench.engine (fun w engine => { w with engine }) x

end Workbench

end Dialogue
