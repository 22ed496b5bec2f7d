/-!
# Input and output faults

Why reading a file, writing one, reading what the user types or writing what is shown to the user
fails.
-/

namespace Dialogue

/-- Why input or output fails. -/
inductive Fault where
  /-- There is no such file, or no directory to put it in. -/
  | notFound
  /-- A directory stands where a file is wanted. -/
  | isADirectory
  /-- A file stands where a directory is wanted. -/
  | notADirectory
  /-- A path, or a name in it, has more bytes than it may have. -/
  | nameTooLong
  /-- A path has a null character. -/
  | nullInName
  /-- A device takes no more bytes. -/
  | deviceFull
  /-- Bytes that are to be read as text are not valid UTF-8. -/
  | invalidText
  /-- The output takes no more bytes. -/
  | outputFull
deriving DecidableEq, Repr

/-- The message for the user. -/
def Fault.message : Fault → String
  | notFound => "No such file or directory (os error 2)"
  | isADirectory => "Is a directory (os error 21)"
  | notADirectory => "Not a directory (os error 20)"
  | nameTooLong => "File name too long (os error 36)"
  | nullInName => "file name contained an unexpected NUL byte"
  | deviceFull => "No space left on device (os error 28)"
  | invalidText => "stream did not contain valid UTF-8"
  | outputFull => "output is full"

end Dialogue
