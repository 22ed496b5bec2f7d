import Dialogue.Engine.Cells
/-!
# Snapshots

A snapshot writes cells as eight bytes each, the position before the token, in order of position.
-/

namespace Dialogue.Cells

/-- The eight bytes of an entry. -/
def entryBytes (e : Int × Token) : List UInt8 := Bytes.ofInt 4 e.1 ++ Bytes.ofInt 4 e.2.toInt

/-- The snapshot of the cells. Part of `ScriptedBackend.state_data`. -/
def snapshot (c : Cells) : List UInt8 := c.entries.flatMap entryBytes

/-- The entries of a snapshot; fails if some bytes are left that make no entry. -/
def entriesOf? : List UInt8 → Option (List (Int × Token))
  | [] => some []
  | p₀ :: p₁ :: p₂ :: p₃ :: t₀ :: t₁ :: t₂ :: t₃ :: r =>
    (entriesOf? r).map fun entries =>
      (Bytes.toInt [p₀, p₁, p₂, p₃], Int32.ofInt (Bytes.toInt [t₀, t₁, t₂, t₃])) :: entries
  | _ => none

/-- The cells of a snapshot. Part of `ScriptedBackend.restore_state`. -/
def ofSnapshot? (bytes : List UInt8) : Option Cells := (entriesOf? bytes).map ofList

end Dialogue.Cells
