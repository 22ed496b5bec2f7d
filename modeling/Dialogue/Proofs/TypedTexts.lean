import Dialogue.Text.Argument
import Dialogue.Text.Line
/-!
# Typing texts

Any text can be typed as one turn: each of its lines but the last with a backslash behind it, the
last with a slash. What is read is the text again, whatever it holds, and the turn that is typed
behind it is read alone.
-/

namespace Dialogue.Text

variable {l segment : List Char} {multiline : Bool} {rest : List UInt8}

/-! ### Line ends -/

/-- How a line that is typed ends. -/
inductive LineEnd where
  /-- With a line feed. -/
  | feed
  /-- With a carriage return and a line feed. -/
  | returnFeed
deriving DecidableEq, Repr

namespace LineEnd

/-- What stands in front of the line feed. -/
def front : LineEnd → List Char
  | feed => []
  | returnFeed => ['\r']

/-- The characters of a line end. -/
def chars (e : LineEnd) : List Char := e.front ++ ['\n']

end LineEnd

namespace Line

private theorem stripEnd_ended (h : l.getLast? ≠ some '\r') (e : LineEnd) :
    stripEnd (l ++ e.chars) = l := by
  cases e with
  | returnFeed => simp [stripEnd, LineEnd.chars, LineEnd.front]
  | feed =>
    have hreverse : (l ++ LineEnd.feed.chars).reverse = '\n' :: l.reverse := by
      simp [LineEnd.chars, LineEnd.front]
    rw [stripEnd, hreverse]
    split
    · next r hr =>
      rw [List.cons.injEq] at hr
      rw [← List.head?_reverse, hr.2] at h
      exact absurd rfl h
    · next r hr =>
      obtain ⟨-, rfl⟩ := List.cons.inj hr
      exact List.reverse_reverse l
    · next hr => exact absurd rfl (hr l.reverse)

private theorem stripEnd_unended (h : l.getLast? ≠ some '\n') : stripEnd l = l := by
  have hhead (r : List Char) : l.reverse ≠ '\n' :: r := fun hr => by
    rw [← List.head?_reverse, hr] at h
    exact h rfl
  rw [stripEnd]
  split
  · next r hr => exact absurd hr (hhead _)
  · next r hr => exact absurd hr (hhead _)
  · rfl

/-- A line that ends in a slash submits what is in front of it. -/
theorem read_slash (h : stripEnd l = segment ++ ['/']) (multiline : Bool) :
    read multiline l = (segment, false) := by
  rw [read, h, List.reverse_append]
  exact congrArg (·, false) (List.reverse_reverse segment)

/-- A line that ends in a backslash is a line without it, and flips whether collection goes on. -/
theorem read_backslash (h : stripEnd l = segment ++ ['\\']) (multiline : Bool) :
    read multiline l = (segment ++ ['\n'], !multiline) := by
  rw [read, h, List.reverse_append]
  exact congrArg (· ++ ['\n'], !multiline) (List.reverse_reverse segment)

private theorem read_congr {l' : List Char} (h : stripEnd l = stripEnd l') (multiline : Bool) :
    read multiline l = read multiline l' := by rw [read, read, h]

end Line

/-! ### Reading lines -/

/-- The text that a line adds, and whether collection goes on after it. -/
def readLine (multiline : Bool) (line : List Char) : String × Bool :=
  (String.ofList (Line.read multiline line).1, (Line.read multiline line).2)

private theorem lines_go_utf8 (multiline : Bool) (l : List Char) (raw : List (List UInt8)) :
    lines.go multiline (utf8 (String.ofList l) :: raw) =
      some (readLine multiline l) :: lines.go multiline raw := by
  simp only [lines.go, ofUtf8?_utf8, String.toList_ofList, readLine]

/-- A line up to its line feed is read first, and what is behind it alone. -/
theorem lines_append (h : '\n' ∉ l) (multiline : Bool) (rest : List UInt8) :
    lines multiline (utf8 (String.ofList (l ++ ['\n'])) ++ rest) =
      some (readLine multiline (l ++ ['\n'])) :: lines multiline rest := by
  have hbytes : utf8 (String.ofList (l ++ ['\n'])) = utf8 (String.ofList l) ++ [10] := by
    rw [String.ofList_append, utf8_append]
    rfl
  have hraw : rawLines (utf8 (String.ofList (l ++ ['\n'])) ++ rest) =
      utf8 (String.ofList (l ++ ['\n'])) :: rawLines rest := by
    rw [hbytes, List.append_assoc]
    exact rawLines_append (not_mem_utf8 h) rest
  rw [lines, hraw, lines_go_utf8, lines]

private theorem lines_unended (h : '\n' ∉ l) (hne : l ≠ []) (multiline : Bool) :
    lines multiline (utf8 (String.ofList l)) = [some (readLine multiline l)] := by
  have hbytes : utf8 (String.ofList l) ≠ [] := by
    obtain ⟨c, r, rfl⟩ := List.exists_cons_of_ne_nil hne
    rw [utf8_ofList, List.flatMap_cons]
    exact List.append_ne_nil_of_left_ne_nil String.utf8EncodeChar_ne_nil _
  rw [lines, rawLines_unended (not_mem_utf8 h) hbytes, lines_go_utf8, lines.go]

/-! ### Typed lines -/

/-- Whether a line, without its end, is one line and ends in a marker. -/
structure Marked (l : List Char) : Prop where
  /-- It is one line. -/
  feedless : '\n' ∉ l
  /-- It ends in a slash or in a backslash. -/
  marker : l.getLast? = some '/' ∨ l.getLast? = some '\\'

/-- Some lines as they are typed: each but the last with a backslash behind it, the last with a
slash. -/
def marked : List (List Char) → List (List Char)
  | [] => []
  | [last] => [last ++ ['/']]
  | segment :: next :: segments => (segment ++ ['\\']) :: marked (next :: segments)

/-- The lines that a text is typed with, without their ends. -/
def typedLines (text : String) : List (List Char) := marked (Argument.cut '\n' text.toList)

/-- Typed lines, each with its end, of which the last one may be missing. -/
def keys (ends : Nat → LineEnd) (ended : Bool) : List (List Char) → List Char
  | [] => []
  | [l] => l ++ if ended then (ends 0).chars else []
  | l :: next :: ls => l ++ (ends 0).chars ++ keys (fun i => ends (i + 1)) ended (next :: ls)

namespace Marked

private theorem ne_nil (h : Marked l) : l ≠ [] := by
  rintro rfl
  rcases h.marker with h | h <;> cases h

private theorem getLast?_ne (h : Marked l) {c : Char} (hc : c ≠ '/' ∧ c ≠ '\\') :
    l.getLast? ≠ some c := by
  rcases h.marker with h | h
  · rw [h, ne_eq, Option.some.injEq]
    exact hc.1.symm
  · rw [h, ne_eq, Option.some.injEq]
    exact hc.2.symm

private theorem append (h : '\n' ∉ segment) {c : Char} (hc : c = '/' ∨ c = '\\') :
    Marked (segment ++ [c]) := by
  constructor
  · rcases hc with rfl | rfl <;> simpa using h
  · rcases hc with rfl | rfl <;> simp

/-- The end of a line with a marker makes no difference. -/
theorem read_ended (h : Marked l) (e : LineEnd) :
    readLine multiline (l ++ e.chars) = readLine multiline l := by
  have hread : Line.read multiline (l ++ e.chars) = Line.read multiline l := by
    apply Line.read_congr
    rw [Line.stripEnd_ended (h.getLast?_ne (by decide)) e,
      Line.stripEnd_unended (h.getLast?_ne (by decide))]
  rw [readLine, readLine, hread]

private theorem lines_ended (h : Marked l) (e : LineEnd) (rest : List UInt8) :
    lines multiline (utf8 (String.ofList (l ++ e.chars)) ++ rest) =
      some (readLine multiline l) :: lines multiline rest := by
  have hfront : '\n' ∉ l ++ e.front := by
    rw [List.mem_append]
    rintro (hl | hl)
    · exact h.feedless hl
    · cases e <;> simp [LineEnd.front] at hl
  rw [← h.read_ended e, LineEnd.chars, ← List.append_assoc]
  exact lines_append hfront multiline rest

end Marked

private theorem marked_marked {segments : List (List Char)} (h : ∀ s ∈ segments, '\n' ∉ s) :
    ∀ l ∈ marked segments, Marked l := by
  induction segments with
  | nil => exact nofun
  | cons segment segments ih =>
    cases segments with
    | nil =>
      intro l hl
      obtain rfl := List.mem_singleton.mp hl
      exact Marked.append (h segment List.mem_cons_self) (.inl rfl)
    | cons next segments =>
      intro l hl
      rcases List.mem_cons.mp hl with rfl | hl
      · exact Marked.append (h segment List.mem_cons_self) (.inr rfl)
      · exact ih (fun s hs => h s (List.mem_cons_of_mem _ hs)) l hl

section

variable {ls : List (List Char)}

/-- Typed lines are read one by one, and what is behind them alone. -/
theorem lines_keys_append (h : ∀ l ∈ ls, Marked l) (ends : Nat → LineEnd) (rest : List UInt8) :
    lines multiline (utf8 (String.ofList (keys ends true ls)) ++ rest) =
      ls.map (some ∘ readLine multiline) ++ lines multiline rest := by
  induction ls generalizing ends with
  | nil => rfl
  | cons l ls ih =>
    have hl := h l List.mem_cons_self
    cases ls with
    | nil => exact hl.lines_ended (ends 0) rest
    | cons next ls =>
      rw [keys, String.ofList_append, utf8_append, List.append_assoc, hl.lines_ended,
        ih fun l' hl' => h l' (List.mem_cons_of_mem _ hl')]
      rfl

/-- The last line end makes no difference. -/
theorem lines_keys (h : ∀ l ∈ ls, Marked l) (ends : Nat → LineEnd) (ended : Bool) :
    lines multiline (utf8 (String.ofList (keys ends ended ls))) =
      ls.map (some ∘ readLine multiline) := by
  cases ended with
  | true =>
    have hread : lines multiline (utf8 (String.ofList (keys ends true ls)) ++ []) = _ :=
      lines_keys_append h ends []
    rwa [List.append_nil, show lines multiline [] = [] from rfl, List.append_nil] at hread
  | false =>
    induction ls generalizing ends with
    | nil => rfl
    | cons l ls ih =>
      have hl := h l List.mem_cons_self
      cases ls with
      | nil =>
        rw [keys, if_neg Bool.false_ne_true, List.append_nil]
        exact lines_unended hl.feedless hl.ne_nil multiline
      | cons next ls =>
        rw [keys, String.ofList_append, utf8_append, hl.lines_ended,
          ih fun l' hl' => h l' (List.mem_cons_of_mem _ hl')]
        rfl

end

/-! ### Typed turns -/

private theorem readLine_slash (segment : List Char) :
    readLine multiline (segment ++ ['/']) = (String.ofList segment, false) := by
  have hstrip : Line.stripEnd (segment ++ ['/']) = segment ++ ['/'] :=
    Line.stripEnd_unended (by simp)
  rw [readLine, Line.read_slash hstrip]

private theorem readLine_backslash (segment : List Char) :
    readLine multiline (segment ++ ['\\']) = (String.ofList (segment ++ ['\n']), !multiline) := by
  have hstrip : Line.stripEnd (segment ++ ['\\']) = segment ++ ['\\'] :=
    Line.stripEnd_unended (by simp)
  rw [readLine, Line.read_backslash hstrip]

/-- Typed lines are collected up to the last, which ends the turn. -/
theorem turns_go_marked {segments : List (List Char)} (hne : segments ≠ [])
    (collected : Option String) (behind : List (Option (String × Bool))) :
    turns.go collected ((marked segments).map (some ∘ readLine false) ++ behind) =
      some (collected.getD "" ++ String.ofList (['\n'].intercalate segments)) ::
        turns.go none behind := by
  induction segments generalizing collected with
  | nil => exact absurd rfl hne
  | cons segment segments ih =>
    cases segments with
    | nil =>
      simp only [marked, List.map_cons, List.map_nil, Function.comp_apply, readLine_slash,
        List.cons_append, List.nil_append, turns.go, Bool.false_eq_true, if_false,
        List.intercalate_singleton]
    | cons next segments =>
      simp only [marked, List.map_cons, Function.comp_apply, readLine_backslash, List.cons_append,
        turns.go, Bool.not_false, if_true]
      rw [ih (List.cons_ne_nil _ _), List.intercalate_cons_cons, Option.getD_some,
        String.append_assoc, ← String.ofList_append]

private theorem marked_typedLines (text : String) : ∀ l ∈ typedLines text, Marked l :=
  marked_marked fun _ => Argument.not_mem_of_mem_cut

private theorem turns_go_typedLines (text : String) (behind : List (Option (String × Bool))) :
    turns.go none ((typedLines text).map (some ∘ readLine false) ++ behind) =
      some text :: turns.go none behind := by
  rw [typedLines, turns_go_marked (Argument.cut_ne_nil _ _), Argument.intercalate_cut,
    Option.getD_none, String.empty_append, String.ofList_toList]

/-- Texts that are typed one after the other are the turns that are read, in their order, and then
the input is at its end. A text that is typed with all its line ends is read in front of anything,
and leaves what is behind it alone. -/
theorem typed_texts_read_back (texts : List String) (ends : Nat → LineEnd) (ended : Bool) :
    turns false (utf8 (String.ofList (keys ends ended (texts.flatMap typedLines)))) =
        texts.map some ∧
      ∀ (text : String) (rest : List UInt8),
        turns false (utf8 (String.ofList (keys ends true (typedLines text))) ++ rest) =
          some text :: turns false rest := by
  constructor
  · have hmarked : ∀ l ∈ texts.flatMap typedLines, Marked l := by
      intro l hl
      obtain ⟨text, -, hl⟩ := List.mem_flatMap.mp hl
      exact marked_typedLines text l hl
    rw [turns, lines_keys hmarked]
    clear hmarked
    induction texts with
    | nil => rfl
    | cons text texts ih =>
      rw [List.flatMap_cons, List.map_append, turns_go_typedLines, ih, List.map_cons]
  · intro text rest
    rw [turns, lines_keys_append (marked_typedLines text), turns_go_typedLines, turns]

/-- A text of two lines, of which the first ends in a marker itself, and an empty one. -/
example : keys (fun _ => .feed) false (["a/\nb", ""].flatMap typedLines) =
    "a/\\\nb/\n/".toList := by decide +kernel

end Dialogue.Text
