import Dialogue.Fault
import Dialogue.Text.Line
/-!
# Directories

The files a session reads and writes. A path starts at the working directory, or at the root if it
begins with a slash. Every place on the way to a file has to be a directory. Of the directories
around the working directory only the devices are known.
-/

namespace Dialogue

/-- What stands at a place. -/
inductive DirectoryEntry where
  /-- A file, with its contents. -/
  | file (bytes : List UInt8)
  /-- A directory. -/
  | directory
deriving DecidableEq, Repr

/-- The names from the working directory to a place. Those of a place outside of it begin with `..`
for each directory that is left, or with `/` for the root. -/
abbrev Place := List String

namespace Place

/-- The outermost directory, which is its own parent. -/
def root : Place := ["/"]

/-- The device that keeps nothing of what is written. -/
def nullDevice : Place := ["/", "dev", "null"]

/-- The device that takes no bytes. -/
def fullDevice : Place := ["/", "dev", "full"]

/-- Whether a place is the working directory or one that it lies in. -/
def isAround (place : Place) : Bool := place = root || place.all (· = "..")

/-- The directory a place lies in. -/
def parent (place : Place) : Place :=
  if place = root then place else if place.isAround then ".." :: place else place.dropLast

/-- The place of a name in a directory; `.` and `..` stand for the directory itself and for its
parent. -/
def enter (place : Place) (name : String) : Place :=
  if name = "." then place else if name = ".." then place.parent else place ++ [name]

/-- Where a path starts. -/
def start (path : String) : Place := if path.toList.head? = some '/' then root else []

end Place

/-- Files and directories. -/
structure Directory where
  /-- What stands where. -/
  entries : List (Place × DirectoryEntry) := []
deriving Repr, Inhabited

namespace Directory

/-- What stands at a place. Devices are read as empty files. -/
def get? (d : Directory) (place : Place) : Option DirectoryEntry :=
  if place.isAround || place = ["/", "dev"] then some .directory
  else if place = .nullDevice || place = .fullDevice then some (.file [])
  else d.entries.lookup place

/-- Leaves a place empty. -/
def erase (d : Directory) (place : Place) : Directory := ⟨d.entries.filter (·.1 ≠ place)⟩

/-- Puts a file or a directory at a place, in exchange for what stands there. -/
def insert (d : Directory) (place : Place) (entry : DirectoryEntry) : Directory :=
  ⟨(place, entry) :: (d.erase place).entries⟩

/-- What stands in the working directory, by name. -/
def list (d : Directory) : List (String × DirectoryEntry) :=
  d.entries.filterMap fun (place, entry) =>
    match place with
    | [name] => some (name, entry)
    | _ => none

/-- The names in a path. -/
def names (path : String) : List String :=
  ((path.toList.splitOn '/').filter (· ≠ [])).map String.ofList

/-- Whether a path ends in a slash, and so can only mean a directory. -/
def namesDirectory (path : String) : Bool := path.toList.getLast? = some '/'

/-- The greatest number of bytes of a path. -/
def maxPath : Nat := 4095

/-- The greatest number of bytes of a name in a path. -/
def maxName : Nat := 255

/-- Why a text is no path at all. -/
def pathFault? (path : String) : Option Fault :=
  if path = "" then some .notFound
  else if Char.ofNat 0 ∈ path.toList then some .nullInName
  else if maxPath < Text.byteLength path.toList then some .nameTooLong
  else none

/-- Follows names from a place. -/
def walk (d : Directory) (place : Place) : List String → Except Fault Place
  | [] => .ok place
  | name :: rest =>
    match d.get? place with
    | none => .error .notFound
    | some (.file _) => .error .notADirectory
    | some .directory =>
      if maxName < Text.byteLength name.toList then .error .nameTooLong
      else d.walk (place.enter name) rest

/-- The place a path means, whether or not something stands there. -/
def locate (d : Directory) (path : String) : Except Fault Place :=
  match pathFault? path with
  | some fault => .error fault
  | none => d.walk (.start path) (names path ++ if namesDirectory path then ["."] else [])

/-- Whether something stands at the end of a path. -/
def contains (d : Directory) (path : String) : Bool :=
  match d.locate path with
  | .ok place => (d.get? place).isSome
  | .error _ => false

/-- The contents of a file. -/
def read (d : Directory) (path : String) : Except Fault (List UInt8) := do
  match d.get? (← d.locate path) with
  | none => .error .notFound
  | some .directory => .error .isADirectory
  | some (.file bytes) => .ok bytes

/-- Writes a file to a place in a directory, over one that stands there already. -/
def writeAt (d : Directory) (place : Place) (bytes : List UInt8) : Except Fault Directory :=
  if d.get? place = some .directory then .error .isADirectory
  else if place = .nullDevice then .ok d
  else if place = .fullDevice then if bytes = [] then .ok d else .error .deviceFull
  else .ok (d.insert place (.file bytes))

/-- Writes a file. A path that can only mean a directory is no place for one. -/
def write (d : Directory) (path : String) (bytes : List UInt8) : Except Fault Directory := do
  if let some fault := pathFault? path then throw fault
  let parent ← d.walk (.start path) (names path).dropLast
  let directory ← d.walk parent ["."]
  let name := (names path).getLastD "."
  if namesDirectory path || name = "." || name = ".." then throw .isADirectory
  d.writeAt (← d.walk directory [name]) bytes

/-- Makes a directory, if nothing stands at the path and its parent is a directory. -/
def makeDirectory (d : Directory) (path : String) : Directory :=
  match d.walk (.start path) (names path) with
  | .ok place => if (d.get? place).isSome then d else d.insert place .directory
  | .error _ => d

/-- Removes a file, if one stands at the path. -/
def removeFile (d : Directory) (path : String) : Directory :=
  match d.locate path with
  | .error _ => d
  | .ok place =>
    match d.get? place with
    | some (.file _) => d.erase place
    | _ => d

/-- The contents read from a place that was written to. -/
theorem get?_writeAt {d e : Directory} {place : Place} {bytes : List UInt8}
    (h : d.writeAt place bytes = .ok e) (hn : place ≠ .nullDevice) (hf : place ≠ .fullDevice) :
    e.get? place = some (.file bytes) := by
  unfold writeAt at h
  by_cases hd : d.get? place = some .directory
  · rw [if_pos hd] at h
    cases h
  · rw [if_neg hd, if_neg hn, if_neg hf] at h
    cases h
    unfold get? at hd ⊢
    by_cases ha : (place.isAround || place = ["/", "dev"]) = true
    · exact absurd (if_pos ha) hd
    · rw [if_neg ha, if_neg (by simp [hn, hf])]
      simp [insert]

end Directory

end Dialogue
