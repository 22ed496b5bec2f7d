import Dialogue.Engine.Cells
/-!
# What the cells hold

The token at each position after every operation on cells, told through `Cells.get?`.
-/

namespace Dialogue.Cells

variable {c : Cells} {first delta p q : Int} {last : Option Int} {t : Token}

/-- No cells hold no token. -/
theorem get?_empty (p : Int) : empty.get? p = none := rfl

private theorem lookup_cons_ite (q u : Int) (v : Token) (r : List (Int × Token)) :
    ((u, v) :: r).lookup q = if q = u then some v else r.lookup q := by
  rw [List.lookup_cons]
  by_cases hq : q = u
  · simp [hq]
  · have hb : (q == u) = false := by simpa using hq
    rw [hb, if_neg hq]

private theorem lookup_insertEntry (p q : Int) (t : Token) (l : List (Int × Token)) :
    (insertEntry p t l).lookup q = if q = p then some t else l.lookup q := by
  induction l with
  | nil => exact lookup_cons_ite q p t []
  | cons e r ih =>
    obtain ⟨u, v⟩ := e
    simp only [insertEntry]
    split
    · rw [lookup_cons_ite]
    · split
      · next hpu =>
        subst hpu
        rw [lookup_cons_ite, lookup_cons_ite]
        by_cases hq : q = p <;> simp [hq]
      · next hpu =>
        rw [lookup_cons_ite, lookup_cons_ite, ih]
        by_cases hu : q = u
        · rw [if_pos hu, if_pos hu, if_neg (by omega)]
        · rw [if_neg hu, if_neg hu]

/-- An inserted token is found at its position, and nothing else changes. -/
theorem get?_insert (c : Cells) (p q : Int) (t : Token) :
    (c.insert p t).get? q = if q = p then some t else c.get? q :=
  lookup_insertEntry p q t c.entries

/-- Written tokens are found in order from the first position on, and nothing else changes. -/
theorem get?_write (c : Cells) (start : Int) (ts : List Token) (q : Int) :
    (c.write start ts).get? q =
      if start ≤ q ∧ q < start + ts.length then ts[(q - start).toNat]? else c.get? q := by
  induction ts generalizing c start with
  | nil =>
    have hq : ¬ (start ≤ q ∧ q < start + ([] : List Token).length) := by
      simp only [List.length_nil]
      omega
    rw [if_neg hq, write]
  | cons t ts ih =>
    rw [write, ih, get?_insert]
    simp only [List.length_cons]
    by_cases hq : q = start
    · subst hq
      rw [if_neg (by omega), if_pos rfl, if_pos (by omega), Int.sub_self]
      rfl
    · rw [if_neg hq]
      by_cases hr : start + 1 ≤ q ∧ q < start + 1 + ts.length
      · have hn : (q - start).toNat = (q - (start + 1)).toNat + 1 := by omega
        rw [if_pos hr, if_pos (by omega), hn, List.getElem?_cons_succ]
      · rw [if_neg hr, if_neg (by omega)]

private theorem lookup_filter (keep : Int → Bool) (l : List (Int × Token)) (q : Int) :
    (l.filter fun e => keep e.1).lookup q = if keep q then l.lookup q else none := by
  induction l with
  | nil => simp
  | cons e r ih =>
    obtain ⟨u, v⟩ := e
    rw [List.filter_cons]
    by_cases hk : keep u = true
    · rw [if_pos hk, lookup_cons_ite, lookup_cons_ite, ih]
      by_cases hq : q = u
      · subst hq
        rw [if_pos rfl, if_pos rfl, if_pos hk]
      · rw [if_neg hq, if_neg hq]
    · rw [if_neg hk, lookup_cons_ite, ih]
      by_cases hq : q = u
      · subst hq
        rw [if_neg hk, if_neg hk]
      · rw [if_neg hq]

/-- Of the cells that are kept each holds what it held. -/
theorem get?_filter (keep : Int → Bool) (c : Cells) (q : Int) :
    (c.filter keep).get? q = if keep q then c.get? q else none :=
  lookup_filter keep c.entries q

/-- The cells of a removed range are empty, and nothing else changes. -/
theorem get?_remove (c : Cells) (first : Int) (last : Option Int) (q : Int) :
    (c.remove first last).get? q = if inRange first last q then none else c.get? q := by
  rw [remove, get?_filter]
  by_cases hq : inRange first last q = true <;> simp [hq]

private theorem get?_foldl_insert (l : List (Int × Token)) (h : l.Pairwise (·.1 < ·.1))
    (c : Cells) (delta q : Int) :
    (l.foldl (fun cells e => cells.insert (e.1 + delta) e.2) c).get? q =
      (l.lookup (q - delta)).or (c.get? q) := by
  induction l generalizing c with
  | nil => rfl
  | cons e r ih =>
    obtain ⟨u, v⟩ := e
    obtain ⟨hlt, hr⟩ := List.pairwise_cons.mp h
    rw [List.foldl_cons, ih hr, get?_insert, lookup_cons_ite]
    by_cases hq : q = u + delta
    · have hu : q - delta = u := by omega
      have hnone : r.lookup u = none := by
        rw [List.lookup_eq_none_iff]
        intro p hp
        have hup : u < p.1 := hlt p hp
        simpa using fun hu : u = p.1 => by omega
      rw [if_pos hq, if_pos hu, hu, hnone]
      rfl
    · rw [if_neg hq, if_neg (by omega)]

/-- A moved token is found at its new position; what is left of the range is empty, and nothing
else changes. -/
theorem get?_shift (c : Cells) (first : Int) (last : Option Int) (delta q : Int) :
    (c.shift first last delta).get? q =
      (if inRange first last (q - delta) then c.get? (q - delta) else none).or
        (if inRange first last q then none else c.get? q) := by
  rw [shift, get?_foldl_insert _ (c.sorted.filter _), lookup_filter, get?_remove]
  rfl

/-- The cells of a list hold its entries. -/
theorem get?_ofList {l : List (Int × Token)} (h : l.Pairwise (·.1 < ·.1)) (q : Int) :
    (ofList l).get? q = l.lookup q := by
  have hl := get?_foldl_insert l h empty 0 q
  simp only [Int.add_zero, Int.sub_zero, get?_empty, Option.or_none] at hl
  exact hl

/-- Only positions of a list hold a token of its cells. -/
theorem exists_of_get?_ofList {l : List (Int × Token)} {q : Int} (h : (ofList l).get? q ≠ none) :
    ∃ e ∈ l, e.1 = q := by
  have hfold (c : Cells)
      (hc : (l.foldl (fun cells e => cells.insert e.1 e.2) c).get? q ≠ none) :
      c.get? q ≠ none ∨ ∃ e ∈ l, e.1 = q := by
    clear h
    induction l generalizing c with
    | nil => exact .inl hc
    | cons e l ih =>
      rcases ih _ hc with hc | ⟨e', he', hq⟩
      · rw [get?_insert] at hc
        by_cases hq : q = e.1
        · exact .inr ⟨e, List.mem_cons_self, hq.symm⟩
        · rw [if_neg hq] at hc
          exact .inl hc
      · exact .inr ⟨e', List.mem_cons_of_mem _ he', hq⟩
  exact (hfold empty h).resolve_left fun hne => hne rfl

/-- A position is in a range with an end if it stands at its start or behind, and before its end. -/
theorem inRange_some (first last p : Int) :
    inRange first (some last) p = true ↔ first ≤ p ∧ p < last := by
  simp [inRange]

end Dialogue.Cells
