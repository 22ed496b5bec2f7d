import Dialogue.Cache.File
import Dialogue.Engine.Snapshot
import Dialogue.Proofs.CellTokens
import Dialogue.Effect.Ends
/-!
# Reading what was written

A session file that can be read is just the one that is written for its tokens and its snapshot, and
the snapshot of cells gives them back. Both need counts and positions that fit into their words.
-/

namespace Dialogue

open Effect

/-! ### Words -/

namespace Bytes

/-- A signed number that fits into four bytes is read back. -/
theorem toInt_ofInt {n : Int} (h : -0x80000000 ≤ n ∧ n < 0x80000000) : toInt (ofInt 4 n) = n := by
  have hpow : Nat.pow 256 4 = 0x100000000 := rfl
  rw [toInt, length_ofInt, ofInt, toNat_ofNat, hpow]
  have hmod : (((n % (0x100000000 : Nat)).toNat % 0x100000000 : Nat) : Int) =
      n % (0x100000000 : Nat) := by omega
  rw [hmod, Int.emod_bmod]
  exact Int.bmod_eq_of_le (by omega) (by omega)

private theorem ofNat_toNat_of_length {k : Nat} {word : List UInt8} (h : word.length = k) :
    ofNat k (toNat word) = word := by
  rw [← h, ofNat_toNat]

/-- Four bytes are those of the signed number that they stand for. -/
theorem ofInt_toInt {word : List UInt8} (h : word.length = 4) : ofInt 4 (toInt word) = word := by
  have hpow : Nat.pow 256 4 = 0x100000000 := rfl
  have hlt := toNat_lt word
  rw [h, hpow] at hlt
  have hmod : (((toNat word : Nat) : Int) % (0x100000000 : Nat)).toNat = toNat word := by omega
  rw [ofInt, toInt, h, hpow, Int.bmod_emod, hmod, ofNat_toNat_of_length h]

private theorem toInt_bounds {word : List UInt8} (h : word.length = 4) :
    -0x80000000 ≤ toInt word ∧ toInt word < 0x80000000 := by
  have hpow : Nat.pow 256 4 = 0x100000000 := rfl
  rw [toInt, h, hpow, Int.bmod_def]
  split <;> omega

end Bytes

namespace SessionFile

variable {defect : FileDefect} {n capacity : Nat} {bytes a b rest state : List UInt8}
  {tokens : List Token}

/-! ### Tokens -/

/-- A token is written in four bytes. -/
@[simp] theorem length_tokenBytes (t : Token) : (tokenBytes t).length = 4 := Bytes.length_ofInt 4 _

/-- A token is read back from its bytes. -/
theorem ofInt_toInt_tokenBytes (t : Token) : Int32.ofInt (Bytes.toInt (tokenBytes t)) = t := by
  have hle := t.le_toInt
  have hlt := t.toInt_lt
  rw [tokenBytes, Bytes.toInt_ofInt (by omega), Int32.ofInt_toInt]

/-- Four bytes are those of the token that they stand for. -/
theorem tokenBytes_ofInt_toInt {word : List UInt8} (h : word.length = 4) :
    tokenBytes (Int32.ofInt (Bytes.toInt word)) = word := by
  obtain ⟨hle, hlt⟩ := Bytes.toInt_bounds h
  rw [tokenBytes, Int32.toInt_ofInt_of_le (by omega) (by omega), Bytes.ofInt_toInt h]

/-- A field is taken off the bytes that follow it. -/
theorem takeOr_append (ha : a.length = n) : takeOr defect n (a ++ b) = .ok (a, b) := by
  subst ha
  rw [takeOr, Bytes.take?_append]
  rfl

/-- A field that is taken off stood in front, with its length. -/
theorem takeOr_eq_ok (h : takeOr defect n bytes = .ok (a, b)) : bytes = a ++ b ∧ a.length = n := by
  unfold takeOr at h
  cases ht : Bytes.take? n bytes with
  | none =>
    rw [ht] at h
    cases h
  | some p =>
    rw [ht] at h
    cases h
    exact Bytes.eq_append_of_take?_eq_some ht

private theorem ok_bind {α β : Type} (a : α) (g : α → Except FileDefect β) :
    (Except.ok a >>= g) = g a := rfl

private theorem unless_eq_ok {α β : Type} {c : Prop} [Decidable c] {e : FileDefect}
    {b : β} {g : α → Except FileDefect β} {x : Except FileDefect β}
    (h : (if c then Except.error e >>= g else x) = .ok b) : ¬ c ∧ x = .ok b := by
  split at h
  · cases h
  · next hc => exact ⟨hc, h⟩

private theorem decodeTokens_append (tokens : List Token) (rest : List UInt8) :
    decodeTokens tokens.length (tokens.flatMap tokenBytes ++ rest) = .ok (tokens, rest) := by
  induction tokens with
  | nil => rfl
  | cons t tokens ih =>
    rw [List.flatMap_cons, List.append_assoc, List.length_cons, decodeTokens,
      takeOr_append (length_tokenBytes t)]
    change (decodeTokens tokens.length (tokens.flatMap tokenBytes ++ rest) >>= _) = _
    rw [ih]
    change Except.ok (Int32.ofInt (Bytes.toInt (tokenBytes t)) :: tokens, rest) = _
    rw [ofInt_toInt_tokenBytes]

private theorem decodeTokens_eq_ok (h : decodeTokens n bytes = .ok (tokens, rest)) :
    bytes = tokens.flatMap tokenBytes ++ rest ∧ tokens.length = n := by
  induction n generalizing bytes tokens with
  | zero =>
    cases h
    exact ⟨rfl, rfl⟩
  | succ n ih =>
    rw [decodeTokens] at h
    obtain ⟨⟨word, bytes'⟩, hword, h'⟩ := except_bind_eq_ok h
    obtain ⟨⟨tokens', rest'⟩, htokens, hend⟩ := except_bind_eq_ok h'
    obtain ⟨hbytes, hlength⟩ := takeOr_eq_ok hword
    cases hend
    obtain ⟨hbytes', hn⟩ := ih htokens
    constructor
    · rw [hbytes, hbytes', List.flatMap_cons, tokenBytes_ofInt_toInt hlength, List.append_assoc]
    · rw [List.length_cons, hn]

/-! ### The whole file -/

private theorem toNat_version : Bytes.toNat (Bytes.ofNat 4 version) = version := by
  rw [Bytes.toNat_ofNat]
  rfl

private theorem toNat_length (ht : tokens.length < 0x100000000) :
    Bytes.toNat (Bytes.ofNat 4 tokens.length) = tokens.length := by
  rw [Bytes.toNat_ofNat]
  exact Nat.mod_eq_of_lt ht

/-- A file is read back if the context can hold its tokens and nothing follows it. -/
theorem decode_encode_append (hc : tokens.length ≤ capacity) (ht : tokens.length < 0x100000000)
    (hs : state.length < 0x10000000000000000) (rest : List UInt8) :
    decode capacity (encode tokens state ++ rest) =
      if rest = [] then .ok (tokens, state) else .error .trailingBytes := by
  have hcount := toNat_length ht
  have hstate : Bytes.toNat (Bytes.ofNat 8 state.length) = state.length := by
    rw [Bytes.toNat_ofNat]
    exact Nat.mod_eq_of_lt hs
  simp only [decode, encode, List.append_assoc, ok_bind, toNat_version, hcount, hstate,
    takeOr_append (a := magic) (n := 4) rfl, takeOr_append (Bytes.length_ofNat 4 _),
    takeOr_append (Bytes.length_ofNat 8 _), takeOr_append (rfl : state.length = state.length),
    decodeTokens_append, Nat.not_lt.mpr hc, ne_eq, not_true_eq_false, if_false]
  by_cases hrest : rest = []
  · rw [if_pos hrest, if_neg (not_not_intro hrest)]
    rfl
  · rw [if_neg hrest, if_pos hrest]
    rfl

/-- A file is read back if the context can hold its tokens. -/
theorem decode_encode (hc : tokens.length ≤ capacity) (ht : tokens.length < 0x100000000)
    (hs : state.length < 0x10000000000000000) :
    decode capacity (encode tokens state) = .ok (tokens, state) := by
  have h := decode_encode_append hc ht hs []
  rwa [List.append_nil, if_pos rfl] at h

/-- A file that is written for no more tokens than there is room for is not too large, whatever
its snapshot. -/
theorem decode_encode_ne_tooLarge (hc : tokens.length ≤ capacity) (ht : tokens.length < 0x100000000)
    (size capacity' : Nat) :
    decode capacity (encode tokens state) ≠ .error (.tooLarge size capacity') := by
  have hcount := toNat_length ht
  simp only [decode, encode, List.append_assoc, ok_bind, toNat_version, hcount,
    takeOr_append (a := magic) (n := 4) rfl, takeOr_append (Bytes.length_ofNat 4 _),
    takeOr_append (Bytes.length_ofNat 8 _), decodeTokens_append, Nat.not_lt.mpr hc, ne_eq,
    not_true_eq_false, if_false]
  intro h
  unfold takeOr at h
  cases hstate : Bytes.take? (Bytes.toNat (Bytes.ofNat 8 state.length)) state with
  | none =>
    rw [hstate] at h
    cases h
  | some p =>
    rw [hstate] at h
    simp only [Option.elim_some, ok_bind] at h
    split at h <;> cases h

/-- A file that can be read is the one that is written for its tokens and its snapshot. -/
theorem decode_eq_ok (h : decode capacity bytes = .ok (tokens, state)) :
    bytes = encode tokens state ∧ tokens.length ≤ capacity ∧ tokens.length < 0x100000000 ∧
      state.length < 0x10000000000000000 := by
  obtain ⟨⟨letters, bytes₁⟩, h₁, h⟩ := except_bind_eq_ok h
  obtain ⟨hmagic, h⟩ := unless_eq_ok h
  obtain ⟨⟨version', bytes₂⟩, h₂, h⟩ := except_bind_eq_ok h
  obtain ⟨hversion, h⟩ := unless_eq_ok h
  obtain ⟨⟨count, bytes₃⟩, h₃, h⟩ := except_bind_eq_ok h
  obtain ⟨hcapacity, h⟩ := unless_eq_ok h
  obtain ⟨⟨tokens', bytes₄⟩, h₄, h⟩ := except_bind_eq_ok h
  obtain ⟨⟨size, bytes₅⟩, h₅, h⟩ := except_bind_eq_ok h
  obtain ⟨⟨state', bytes₆⟩, h₆, h⟩ := except_bind_eq_ok h
  obtain ⟨hrest, h⟩ := unless_eq_ok h
  cases h
  rw [Decidable.not_not] at hmagic hversion hrest
  obtain ⟨hb₁, -⟩ := takeOr_eq_ok h₁
  obtain ⟨hb₂, hl₂⟩ := takeOr_eq_ok h₂
  obtain ⟨hb₃, hl₃⟩ := takeOr_eq_ok h₃
  obtain ⟨hb₄, hl₄⟩ := decodeTokens_eq_ok h₄
  obtain ⟨hb₅, hl₅⟩ := takeOr_eq_ok h₅
  obtain ⟨hb₆, hl₆⟩ := takeOr_eq_ok h₆
  have hcount := Bytes.toNat_lt count
  have hsize := Bytes.toNat_lt size
  rw [hl₃] at hcount
  rw [hl₅] at hsize
  refine ⟨?_, ?_, ?_, ?_⟩
  · rw [encode, hb₁, hb₂, hb₃, hb₄, hb₅, hb₆, hmagic, hrest, hl₄, hl₆, ← hversion,
      Bytes.ofNat_toNat_of_length hl₂, Bytes.ofNat_toNat_of_length hl₃,
      Bytes.ofNat_toNat_of_length hl₅]
    simp only [List.append_assoc, List.append_nil]
  · omega
  · rw [hl₄]
    exact hcount
  · rw [hl₆]
    exact hsize

/-- A file that can be read is read with every capacity that its tokens fit in. -/
theorem decode_of_length_le {capacity' : Nat} (h : decode capacity bytes = .ok (tokens, state))
    (hle : tokens.length ≤ capacity') : decode capacity' bytes = .ok (tokens, state) := by
  obtain ⟨rfl, -, ht, hs⟩ := decode_eq_ok h
  exact decode_encode hle ht hs

/-- The capacity of the context makes no difference to what a file is read as. -/
theorem decode_unique {capacity' : Nat} {tokens' : List Token} {state' : List UInt8}
    (h : decode capacity bytes = .ok (tokens, state))
    (h' : decode capacity' bytes = .ok (tokens', state')) : tokens = tokens' ∧ state = state' := by
  obtain ⟨hb, -, ht, hs⟩ := decode_eq_ok h
  obtain ⟨hb', -, ht', hs'⟩ := decode_eq_ok h'
  have hd := decode_encode (Nat.le_max_left tokens.length tokens'.length) ht hs
  have hd' := decode_encode (Nat.le_max_right tokens.length tokens'.length) ht' hs'
  rw [← hb] at hd
  rw [← hb', hd] at hd'
  cases hd'
  exact ⟨rfl, rfl⟩

end SessionFile

/-! ### Snapshots -/

namespace Cells

/-- Every position that holds a token fits into four bytes. -/
def Encodable (c : Cells) : Prop :=
  ∀ p, c.get? p ≠ none → -0x80000000 ≤ p ∧ p < 0x80000000

private theorem Encodable.of_mem {c : Cells} (h : c.Encodable) {e : Int × Token}
    (he : e ∈ c.entries) :
    -0x80000000 ≤ e.1 ∧ e.1 < 0x80000000 := by
  apply h
  intro hnone
  have hne := List.lookup_eq_none_iff.mp hnone e he
  simp at hne

/-- Cells can be written down also after some are removed. -/
theorem Encodable.remove {c : Cells} (h : c.Encodable) (first : Int) (last : Option Int) :
    (c.remove first last).Encodable := by
  intro p hp
  rw [get?_remove] at hp
  split at hp
  · exact absurd rfl hp
  · exact h p hp

private theorem entriesOf?_append (e : Int × Token) (bytes : List UInt8) :
    entriesOf? (entryBytes e ++ bytes) = (entriesOf? bytes).map fun entries =>
      (Bytes.toInt (Bytes.ofInt 4 e.1), Int32.ofInt (Bytes.toInt (Bytes.ofInt 4 e.2.toInt)))
        :: entries := rfl

private theorem entriesOf?_flatMap {l : List (Int × Token)}
    (h : ∀ e ∈ l, -0x80000000 ≤ e.1 ∧ e.1 < 0x80000000) :
    entriesOf? (l.flatMap entryBytes) = some l := by
  induction l with
  | nil => rfl
  | cons e l ih =>
    have htoken : Int32.ofInt (Bytes.toInt (Bytes.ofInt 4 e.2.toInt)) = e.2 :=
      SessionFile.ofInt_toInt_tokenBytes e.2
    rw [List.flatMap_cons, entriesOf?_append, ih fun e' he' => h e' (List.mem_cons_of_mem _ he'),
      Bytes.toInt_ofInt (h e List.mem_cons_self), htoken]
    rfl

/-- The snapshot of cells gives them back. -/
theorem ofSnapshot?_snapshot {c : Cells} (h : c.Encodable) :
    ∃ d, ofSnapshot? c.snapshot = some d ∧ ∀ p, d.get? p = c.get? p := by
  refine ⟨ofList c.entries, ?_, get?_ofList c.sorted⟩
  rw [ofSnapshot?, snapshot, entriesOf?_flatMap fun _ he => h.of_mem he]
  rfl

private theorem entriesOf?_bounds {bytes : List UInt8} {l : List (Int × Token)}
    (h : entriesOf? bytes = some l) : ∀ e ∈ l, -0x80000000 ≤ e.1 ∧ e.1 < 0x80000000 := by
  fun_induction entriesOf? bytes generalizing l with
  | case1 =>
    cases h
    intro e he
    cases he
  | case2 p₀ p₁ p₂ p₃ t₀ t₁ t₂ t₃ r ih =>
    obtain ⟨l', hl', rfl⟩ := Option.map_eq_some_iff.mp h
    intro e he
    rcases List.mem_cons.mp he with rfl | he
    · exact Bytes.toInt_bounds rfl
    · exact ih hl' e he
  | case3 => cases h

/-- The positions of a snapshot fit into four bytes. -/
theorem encodable_of_ofSnapshot? {bytes : List UInt8} {c : Cells} (h : ofSnapshot? bytes = some c) :
    c.Encodable := by
  obtain ⟨l, hl, rfl⟩ := Option.map_eq_some_iff.mp h
  intro p hp
  obtain ⟨e, he, rfl⟩ := exists_of_get?_ofList hp
  exact entriesOf?_bounds hl e he

/-- Positions in order that lie between two bounds are no more than the numbers between them. -/
private theorem length_le_of_sorted {l : List (Int × Token)} (hl : l.Pairwise (·.1 < ·.1))
    {a b : Int} (hab : a ≤ b) (h : ∀ e ∈ l, a ≤ e.1 ∧ e.1 < b) : (l.length : Int) ≤ b - a := by
  induction l generalizing a with
  | nil =>
    rw [List.length_nil]
    omega
  | cons e l ih =>
    obtain ⟨hlt, hl⟩ := List.pairwise_cons.mp hl
    obtain ⟨ha, hb⟩ := h e List.mem_cons_self
    have hrest := ih hl (a := e.1 + 1) (by omega) fun e' he' =>
      ⟨hlt e' he', (h e' (List.mem_cons_of_mem _ he')).2⟩
    rw [List.length_cons]
    omega

/-- The size of a snapshot fits into its word. -/
theorem length_snapshot_lt {c : Cells} (h : c.Encodable) :
    c.snapshot.length < 0x10000000000000000 := by
  have hle := length_le_of_sorted c.sorted (a := -0x80000000) (b := 0x80000000) (by omega)
    fun _ he => h.of_mem he
  have hlength : c.snapshot.length = 8 * c.entries.length := by
    have heach : (fun e : Int × Token => (entryBytes e).length) = fun _ => 8 := rfl
    rw [snapshot, List.length_flatMap, heach, List.map_const', List.sum_replicate_nat]
    omega
  omega

end Cells

end Dialogue
