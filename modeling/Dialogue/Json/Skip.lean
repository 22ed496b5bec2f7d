import Dialogue.Json.Lexeme
/-!
# Skipped values

A value that nobody asks for is skipped lexeme by lexeme. All that has to be kept is which lists
and objects are open, so values may be nested to any depth.
-/

namespace Dialogue.Json

/-- A list or an object that is open. -/
inductive Frame where
  | list
  | object
deriving DecidableEq, Repr

/-- What the lexemes of a value that is skipped have to go on with. -/
inductive Skip where
  /-- A value, within the open frames. -/
  | value (frames : List Frame)
  /-- The first member of the innermost frame, or its end. -/
  | first (frame : Frame) (frames : List Frame)
  /-- A comma or the end of the innermost frame. -/
  | next (frame : Frame) (frames : List Frame)
  /-- The name of a member. -/
  | key (frames : List Frame)
  /-- The colon behind the name of a member. -/
  | colon (frames : List Frame)
  /-- Nothing: the value is complete. -/
  | done
deriving DecidableEq, Repr

namespace Skip

/-- Goes on behind a value within the open frames. -/
def behind : List Frame → Skip
  | [] => done
  | frame :: frames => next frame frames

/-- Goes on behind a scalar that was skipped. -/
def scalar (frames : List Frame) (skipped : Except DocumentError Unit) :
    Except DocumentError Skip :=
  skipped.map fun _ => behind frames

/-- Skips the first lexeme of a value. -/
def readValue (frames : List Frame) : Lexeme → Except DocumentError Skip
  | .null | .true | .false => .ok (behind frames)
  | .string _ skipped => scalar frames skipped
  | .number _ skipped => scalar frames skipped
  | .openList => .ok (first .list frames)
  | .openObject => .ok (first .object frames)
  | .word error => .error error
  | _ => .error .syntactic

/-- Skips the name of a member. -/
def readKey (frames : List Frame) : Lexeme → Except DocumentError Skip
  | .string _ skipped => skipped.map fun _ => colon frames
  | _ => .error .syntactic

/-- Skips one lexeme. -/
def read : Skip → Lexeme → Except DocumentError Skip
  | value frames, l => readValue frames l
  | first .list frames, .closeList => .ok (behind frames)
  | first .list frames, l => readValue (.list :: frames) l
  | first .object frames, .closeObject => .ok (behind frames)
  | first .object frames, l => readKey (.object :: frames) l
  | next .list frames, .comma => .ok (value (.list :: frames))
  | next .list frames, .closeList => .ok (behind frames)
  | next .object frames, .comma => .ok (key (.object :: frames))
  | next .object frames, .closeObject => .ok (behind frames)
  | next _ _, _ => .error .syntactic
  | key frames, l => readKey frames l
  | colon frames, .colon => .ok (value frames)
  | colon _, _ => .error .syntactic
  | done, _ => .error .syntactic

end Skip

end Dialogue.Json
