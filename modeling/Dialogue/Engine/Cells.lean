import Dialogue.Token
import Dialogue.Bytes.LittleEndian
/-!
# Cells

The cells of an engine's context hold one token each at a position. They are kept in order of
position, each position at most once, so that a context has one representation only; what an
operation does is said through `Cells.get?`.
-/

namespace Dialogue

/-- Tokens by position, in order of position. -/
@[ext] structure Cells where
  /-- The cells that hold a token. -/
  entries : List (Int × Token)
  /-- Positions increase. -/
  sorted : entries.Pairwise (·.1 < ·.1)
deriving DecidableEq, Repr

namespace Cells

/-- No cell holds a token. -/
def empty : Cells := ⟨[], .nil⟩

/-- A context without tokens is there when no other one is given. -/
instance : Inhabited Cells := ⟨empty⟩

/-- The token at a position. -/
def get? (c : Cells) (p : Int) : Option Token := c.entries.lookup p

/-- Puts an entry in its place of an ordered list, in exchange for one of the same position. -/
def insertEntry (p : Int) (t : Token) : List (Int × Token) → List (Int × Token)
  | [] => [(p, t)]
  | (q, u) :: r =>
    if p < q then (p, t) :: (q, u) :: r
    else if p = q then (p, t) :: r
    else (q, u) :: insertEntry p t r

private theorem mem_insertEntry {p : Int} {t : Token} {l : List (Int × Token)} {e : Int × Token}
    (h : e ∈ insertEntry p t l) : e = (p, t) ∨ e ∈ l := by
  induction l with
  | nil => simpa [insertEntry] using h
  | cons f r ih =>
    obtain ⟨q, u⟩ := f
    simp only [insertEntry] at h
    split at h
    · simpa using h
    · split at h
      · rcases List.mem_cons.mp h with h | h
        · exact .inl h
        · exact .inr (List.mem_cons_of_mem _ h)
      · rcases List.mem_cons.mp h with h | h
        · exact .inr (h ▸ List.mem_cons_self)
        · rcases ih h with h | h
          · exact .inl h
          · exact .inr (List.mem_cons_of_mem _ h)

private theorem sorted_insertEntry (p : Int) (t : Token) {l : List (Int × Token)}
    (h : l.Pairwise (·.1 < ·.1)) : (insertEntry p t l).Pairwise (·.1 < ·.1) := by
  induction l with
  | nil => simp [insertEntry]
  | cons f r ih =>
    obtain ⟨q, u⟩ := f
    obtain ⟨hf, hr⟩ := List.pairwise_cons.mp h
    simp only [insertEntry]
    split
    · next hpq =>
      refine List.pairwise_cons.mpr ⟨fun e he => ?_, h⟩
      rcases List.mem_cons.mp he with rfl | he
      · exact hpq
      · exact Int.lt_trans hpq (hf e he)
    · split
      · next hpq =>
        subst hpq
        exact List.pairwise_cons.mpr ⟨hf, hr⟩
      · next hlt hne =>
        refine List.pairwise_cons.mpr ⟨fun e he => ?_, ih hr⟩
        rcases mem_insertEntry he with rfl | he
        · show q < p
          omega
        · exact hf e he

/-- Sets the token at a position. -/
def insert (c : Cells) (p : Int) (t : Token) : Cells :=
  ⟨insertEntry p t c.entries, sorted_insertEntry p t c.sorted⟩

/-- Sets the tokens at the positions from `start` on. Part of `ScriptedBackend.decode`. -/
def write (c : Cells) (start : Int) : List Token → Cells
  | [] => c
  | t :: ts => (c.insert start t).write (start + 1) ts

/-- Keeps the cells whose position satisfies a test. -/
def filter (keep : Int → Bool) (c : Cells) : Cells :=
  ⟨c.entries.filter fun e => keep e.1, c.sorted.filter _⟩

/-- Whether a position lies in the range from `first` up to `last`, which is not in it; without
`last` the range goes on to the last position there is. -/
def inRange (first : Int) (last : Option Int) (p : Int) : Bool :=
  first ≤ p && p < last.getD 2147483647

/-- Empties the cells of a range. Part of `ScriptedBackend.cache_remove`. -/
def remove (c : Cells) (first : Int) (last : Option Int) : Cells :=
  c.filter fun p => !inRange first last p

/-- Moves the cells of a range by `delta`; they replace what they land on.
Part of `ScriptedBackend.cache_shift`. -/
def shift (c : Cells) (first : Int) (last : Option Int) (delta : Int) : Cells :=
  (c.entries.filter fun e => inRange first last e.1).foldl
    (fun cells e => cells.insert (e.1 + delta) e.2) (c.remove first last)

/-- The cells of a list of entries; of two entries for a position the later counts. -/
def ofList (l : List (Int × Token)) : Cells := l.foldl (fun cells e => cells.insert e.1 e.2) empty

end Cells

end Dialogue
