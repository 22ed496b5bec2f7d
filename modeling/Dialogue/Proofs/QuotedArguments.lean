import Dialogue.Text.Argument
/-!
# Arguments with quotes

Arguments can be written in a row, those with spaces in them in quotes. They are read back, whatever
spaces stand around them. And whatever a text holds, its arguments put together are the text without
its quotes and without the spaces outside them.
-/

namespace Dialogue.Text.Argument

variable {quoted : Bool} {segment s r : List Char}

/-! ### Written arguments -/

/-- An argument, and how it is written. -/
structure Entry where
  /-- The argument. -/
  text : String
  /-- Whether it stands in quotes. -/
  quoted : Bool
  /-- It is not empty. -/
  ne_empty : text ≠ ""
  /-- There is no quote in it. -/
  quoteless : '"' ∉ text.toList
  /-- There is no space in it, unless it stands in quotes. -/
  spaceless : quoted = false → ' ' ∉ text.toList

namespace Entry

/-- The characters that an argument is written with. -/
def written (e : Entry) : List Char :=
  if e.quoted then '"' :: (e.text.toList ++ ['"']) else e.text.toList

end Entry

/-- Some spaces. -/
def spaces (n : Nat) : List Char := List.replicate n ' '

/-- Arguments in a row, with one space behind each but the last, and as many more as `gaps` says. -/
def row (gaps : Nat → Nat) : List Entry → List Char
  | [] => []
  | [e] => e.written
  | e :: next :: es =>
    e.written ++ spaces (gaps 0 + 1) ++ row (fun i => gaps (i + 1)) (next :: es)

/-- Arguments in a row, with spaces at both ends. -/
def line (before after : Nat) (gaps : Nat → Nat) (entries : List Entry) : List Char :=
  spaces before ++ (row gaps entries ++ spaces after)

/-- A text without its quotes and without the spaces outside them, from a place that lies inside
quotes iff `quoted`. A quote that is not closed goes on to the end. -/
def content (quoted : Bool) : List Char → List Char
  | [] => []
  | c :: r =>
    if c = '"' then content (!quoted) r
    else if c = ' ' ∧ quoted = false then content quoted r
    else c :: content quoted r

/-! ### Segments -/

/-- The arguments of one segment. -/
def ofSegment (quoted : Bool) (segment : List Char) : List (List Char) :=
  if quoted then [segment].filter (· ≠ []) else words segment

/-- The arguments of a text, from a place that lies inside quotes iff `quoted`. -/
def readFrom (quoted : Bool) (s : List Char) : List (List Char) := ofSegments quoted (cut '"' s)

private theorem ofSegments_cons (segments : List (List Char)) :
    ofSegments quoted (segment :: segments) =
      ofSegment quoted segment ++ ofSegments (!quoted) segments := rfl

private theorem split_eq (s : String) : split s = (readFrom false s.toList).map String.ofList := rfl

private theorem words_append (s r : List Char) : words (s ++ ' ' :: r) = words s ++ words r := by
  rw [words, cut_append, List.filter_append]
  rfl

private theorem words_of_not_mem (hne : s ≠ []) (h : ' ' ∉ s) : words s = [s] := by
  rw [words, cut_of_not_mem h, List.filter_cons_of_pos (by simpa using hne), List.filter_nil]

/-- An argument of a segment is one of its pieces: it is not empty, and all of it stands there. -/
theorem mem_ofSegment {argument : List Char} (h : argument ∈ ofSegment quoted segment) :
    argument ≠ [] ∧ argument ⊆ segment := by
  cases quoted with
  | true =>
    obtain ⟨hmem, hne⟩ := List.mem_filter.mp h
    obtain rfl := List.mem_singleton.mp hmem
    exact ⟨of_decide_eq_true hne, List.Subset.refl _⟩
  | false =>
    obtain ⟨hmem, hne⟩ := List.mem_filter.mp h
    refine ⟨of_decide_eq_true hne, fun c hc => ?_⟩
    have hflat : c ∈ (cut ' ' segment).flatten := List.mem_flatten_of_mem hmem hc
    rw [flatten_cut] at hflat
    exact (List.mem_filter.mp hflat).1

/-- The arguments of a segment put together are the segment, without its spaces outside quotes. -/
theorem flatten_ofSegment (quoted : Bool) (segment : List Char) :
    (ofSegment quoted segment).flatten =
      if quoted then segment else segment.filter (· ≠ ' ') := by
  cases quoted with
  | true =>
    rw [ofSegment, if_pos rfl, List.flatten_filter_ne_nil]
    exact List.append_nil segment
  | false => exact List.flatten_filter_ne_nil.trans (flatten_cut ' ' segment)

/-! ### Reading -/

/-- A text without quotes is one segment. -/
theorem readFrom_of_not_mem (h : '"' ∉ segment) :
    readFrom quoted segment = ofSegment quoted segment := by
  rw [readFrom, cut_of_not_mem h]
  exact List.append_nil _

/-- A quote ends a segment. -/
theorem readFrom_quote (h : '"' ∉ segment) (r : List Char) :
    readFrom quoted (segment ++ '"' :: r) = ofSegment quoted segment ++ readFrom (!quoted) r := by
  rw [readFrom, cut_append, cut_of_not_mem h]
  rfl

/-- A space outside quotes ends a word. -/
theorem readFrom_space (h : '"' ∉ segment) (r : List Char) :
    readFrom false (segment ++ ' ' :: r) = words segment ++ readFrom false r := by
  have hspace : '"' ∉ segment ++ [' '] := by simpa using h
  obtain ⟨piece, pieces, hr, hs⟩ := cut_append_of_not_mem hspace r
  rw [List.append_assoc, List.singleton_append, List.append_assoc, List.singleton_append] at hs
  rw [readFrom, readFrom, hr, hs, ofSegments_cons, ofSegments_cons, ← List.append_assoc]
  exact congrArg (· ++ ofSegments true pieces) (words_append segment piece)

private theorem readFrom_spaces (n : Nat) (r : List Char) :
    readFrom false (spaces n ++ r) = readFrom false r := by
  induction n with
  | zero => rfl
  | succ n ih =>
    rw [← ih]
    exact readFrom_space List.not_mem_nil (spaces n ++ r)

/-- A written argument is read alone, if a space follows or nothing. -/
theorem readFrom_written (e : Entry) (hr : ∀ c ∈ r.head?, c = ' ') :
    readFrom false (e.written ++ r) = e.text.toList :: readFrom false r := by
  have hne : e.text.toList ≠ [] := fun h => e.ne_empty (String.toList_eq_nil_iff.mp h)
  cases hq : e.quoted with
  | true =>
    have hinside : ofSegment true e.text.toList = [e.text.toList] :=
      List.filter_cons_of_pos (p := fun s => decide (s ≠ [])) (decide_eq_true hne)
    have hwritten : e.written ++ r = [] ++ '"' :: (e.text.toList ++ '"' :: r) := by
      simp [Entry.written, hq]
    rw [hwritten, readFrom_quote List.not_mem_nil, Bool.not_false, readFrom_quote e.quoteless,
      hinside]
    rfl
  | false =>
    have hword : words e.text.toList = [e.text.toList] := words_of_not_mem hne (e.spaceless hq)
    have hwritten : e.written = e.text.toList := by simp [Entry.written, hq]
    rw [hwritten]
    cases r with
    | nil =>
      rw [List.append_nil, readFrom_of_not_mem e.quoteless]
      exact hword
    | cons c r =>
      obtain rfl : c = ' ' := hr c rfl
      rw [readFrom_space e.quoteless, hword]
      exact congrArg _ (readFrom_spaces 1 r).symm

private theorem readFrom_row (gaps : Nat → Nat) (after : Nat) (entries : List Entry) :
    readFrom false (row gaps entries ++ spaces after) = entries.map (·.text.toList) := by
  have hafter : readFrom false (spaces after) = [] := by
    rw [← List.append_nil (spaces after), readFrom_spaces]
    rfl
  induction entries generalizing gaps with
  | nil => exact hafter
  | cons e entries ih =>
    cases entries with
    | nil =>
      have hspace : ∀ c ∈ (spaces after).head?, c = ' ' := fun c hc =>
        List.eq_of_mem_replicate (List.mem_of_mem_head? hc)
      rw [row, readFrom_written e hspace, hafter]
      rfl
    | cons next entries =>
      have hspace (r : List Char) : ∀ c ∈ (spaces (gaps 0 + 1) ++ r).head?, c = ' ' := fun c hc =>
        (Option.some.inj hc).symm
      rw [row, List.append_assoc, List.append_assoc, readFrom_written e (hspace _),
        readFrom_spaces, ih]
      rfl

private theorem split_line (before after : Nat) (gaps : Nat → Nat) (entries : List Entry) :
    split (String.ofList (line before after gaps entries)) = entries.map Entry.text := by
  rw [split_eq, String.toList_ofList, line, readFrom_spaces, readFrom_row, List.map_map]
  exact List.map_congr_left fun e _ => String.ofList_toList

/-! ### What is read of a text -/

private theorem exists_of_mem_ofSegments {argument : List Char} {segments : List (List Char)}
    (h : argument ∈ ofSegments quoted segments) :
    ∃ segment ∈ segments, ∃ inside, argument ∈ ofSegment inside segment := by
  induction segments generalizing quoted with
  | nil => cases h
  | cons segment segments ih =>
    rw [ofSegments_cons, List.mem_append] at h
    rcases h with h | h
    · exact ⟨segment, List.mem_cons_self, quoted, h⟩
    · obtain ⟨other, hmem, hother⟩ := ih h
      exact ⟨other, List.mem_cons_of_mem segment hmem, hother⟩

private theorem mem_readFrom {argument : List Char} (h : argument ∈ readFrom quoted s) :
    argument ≠ [] ∧ '"' ∉ argument := by
  obtain ⟨segment, hsegment, inside, hmem⟩ := exists_of_mem_ofSegments h
  obtain ⟨hne, hsubset⟩ := mem_ofSegment hmem
  exact ⟨hne, fun hquote => not_mem_of_mem_cut hsegment (hsubset hquote)⟩

private theorem flatten_readFrom (quoted : Bool) (s : List Char) :
    (readFrom quoted s).flatten = content quoted s := by
  induction s generalizing quoted with
  | nil => cases quoted <;> rfl
  | cons c r ih =>
    by_cases hc : c = '"'
    · have hempty : ofSegment quoted [] = [] := by cases quoted <;> rfl
      have hread : readFrom quoted (c :: r) = readFrom (!quoted) r := by
        rw [hc]
        exact (readFrom_quote List.not_mem_nil r).trans (by rw [hempty, List.nil_append])
      rw [hread, ih, content, if_pos hc]
    · -- The character is the first of the segment that what follows begins with.
      obtain ⟨piece, pieces, hr, hcons⟩ := cut_cons_of_ne hc r
      have hflat (segment : List Char) : (ofSegments quoted (segment :: pieces)).flatten =
          (if quoted then segment else segment.filter (· ≠ ' ')) ++
            (ofSegments (!quoted) pieces).flatten := by
        rw [ofSegments_cons, List.flatten_append, flatten_ofSegment]
      have hrest := ih quoted
      rw [readFrom, hr, hflat] at hrest
      rw [readFrom, hcons, hflat, content, if_neg hc, ← hrest]
      cases quoted with
      | true => simp
      | false => by_cases hspace : c = ' ' <;> simp [hspace]

private theorem join_split (s : String) :
    String.join (split s) = String.ofList (content false s.toList) := by
  have hlists : (split s).map String.toList = readFrom false s.toList := by
    rw [split_eq, List.map_map]
    exact (List.map_congr_left fun _ _ => String.toList_ofList).trans (List.map_id _)
  rw [← String.toList_inj, String.toList_join, String.toList_ofList, List.flatMap_def, hlists,
    flatten_readFrom]

/-- Arguments that are written in a row, with or without quotes, are read back, whatever spaces
stand around them. Of any text no argument is empty or has a quote in it, and the arguments put
together are the text without its quotes and without the spaces outside them. -/
theorem written_arguments_read_back :
    (∀ (before after : Nat) (gaps : Nat → Nat) (entries : List Entry),
      split (String.ofList (line before after gaps entries)) = entries.map Entry.text) ∧
    ∀ s : String, (∀ argument ∈ split s, argument ≠ "" ∧ '"' ∉ argument.toList) ∧
      String.join (split s) = String.ofList (content false s.toList) := by
  refine ⟨split_line, fun s => ⟨fun argument h => ?_, join_split s⟩⟩
  rw [split_eq] at h
  obtain ⟨chars, hchars, rfl⟩ := List.mem_map.mp h
  obtain ⟨hne, hquote⟩ := mem_readFrom hchars
  rw [String.toList_ofList]
  exact ⟨fun hempty => hne (by rw [← String.toList_ofList (l := chars), hempty]; rfl), hquote⟩

/-- Arguments in quotes and without, and a quote that is opened within a word and not closed. -/
theorem written_arguments_read_back_of_open_quote :
    split " -i --prompt \"a b\"  -r \"User:\" " = ["-i", "--prompt", "a b", "-r", "User:"] ∧
      "-p" ∈ split "-p\"a \" b \"c d" ∧ "-p" ≠ "" ∧ '"' ∉ "-p".toList ∧
      String.join (split "-p\"a \" b \"c d") = "-pa bc d" := by
  have hmem : "-p" ∈ split "-p\"a \" b \"c d" := by decide +kernel
  have hline := written_arguments_read_back.1 1 1 (fun i => if i = 2 then 1 else 0)
    [⟨"-i", false, by decide, by decide, by decide⟩,
      ⟨"--prompt", false, by decide, by decide, by decide⟩,
      ⟨"a b", true, by decide, by decide, by decide⟩,
      ⟨"-r", false, by decide, by decide, by decide⟩,
      ⟨"User:", true, by decide, by decide, by decide⟩]
  obtain ⟨hargument, hjoin⟩ := written_arguments_read_back.2 "-p\"a \" b \"c d"
  exact ⟨hline, hmem, (hargument _ hmem).1, (hargument _ hmem).2, hjoin⟩

end Dialogue.Text.Argument
