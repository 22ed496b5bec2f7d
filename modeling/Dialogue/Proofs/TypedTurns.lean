import Dialogue.Effect.Shuns
import Dialogue.Proofs.FailedQueries
import Dialogue.Proofs.TypedTexts
/-!
# Turns that are typed

A turn is the text of the lines it collects, without their ends and markers, each line but one that
is submitted with a line break behind it. Such a text is queued, unless it is a single character of
one byte that was submitted: a turn of no more than one byte hands control back, as an empty line
does.
-/

namespace Dialogue

namespace Text

variable {multiline : Bool} {l : List Char} {input : List UInt8} {collected : List String}

namespace Line

/-- The text of a line without its end and its marker. -/
def content (line : List Char) : List Char :=
  match (stripEnd line).getLast? with
  | some '/' => (stripEnd line).dropLast
  | some '\\' => (stripEnd line).dropLast
  | _ => stripEnd line

/-- Whether a line is submitted by a slash. -/
def submits (line : List Char) : Bool := (stripEnd line).getLast? = some '/'

/-- The text that a line adds to its turn. -/
def said (line : List Char) : List Char :=
  content line ++ if submits line then [] else ['\n']

/-- A line adds its text without its end and its marker, and a line break unless it is submitted. -/
theorem read_fst (multiline : Bool) (line : List Char) : (read multiline line).1 = said line := by
  rcases List.eq_nil_or_concat (stripEnd line) with h | ⟨segment, c, h⟩
  · simp [read, said, content, submits, h]
  · rw [List.concat_eq_append] at h
    by_cases hslash : c = '/'
    · rw [hslash] at h
      simp [read_slash h, said, content, submits, h]
    · by_cases hback : c = '\\'
      · rw [hback] at h
        simp [read_backslash h, said, content, submits, h]
      · simp [read, said, content, submits, h, hslash, hback]

/-- A line that is submitted ends its turn. -/
theorem submits_eq_false (h : (read multiline l).2 = true) : submits l = false := by
  apply Bool.eq_false_iff.mpr
  intro hsubmits
  have hlast : (stripEnd l).getLast? = some '/' := of_decide_eq_true hsubmits
  obtain ⟨segment, hstrip⟩ := List.getLast?_eq_some_iff.mp hlast
  rw [read_slash hstrip] at h
  cases h

end Line

/-- The lines that each turn of a byte stream collects. A line that is not valid text makes `none`
of its turn, and ends the list. -/
def turnLines (multiline : Bool) (input : List UInt8) : List (Option (List String)) :=
  go [] (rawLines input)
where
  /-- Collects lines after those in `collected`. -/
  go (collected : List String) : List (List UInt8) → List (Option (List String))
    | [] => if collected = [] then [] else [some collected]
    | line :: rest =>
      match ofUtf8? line with
      | none => [none]
      | some text =>
        if (Line.read multiline text.toList).2 then go (collected ++ [text]) rest
        else some (collected ++ [text]) :: go [] rest

/-- What some lines say. -/
def textOf (lines : List String) : String :=
  String.ofList (lines.flatMap fun line => Line.said line.toList)

/-! ### The lines of a turn -/

private theorem textOf_append (a b : List String) : textOf (a ++ b) = textOf a ++ textOf b := by
  rw [textOf, List.flatMap_append, String.ofList_append]
  rfl

/-- What was collected so far, if anything was. -/
theorem getD_collected (collected : List String) :
    (if collected = [] then none else some (textOf collected)).getD "" = textOf collected := by
  split
  · next h =>
    rw [h]
    rfl
  · rfl

private theorem turns_go_lines_go (collected : List String) (raw : List (List UInt8)) :
    turns.go (if collected = [] then none else some (textOf collected)) (lines.go multiline raw) =
      (turnLines.go multiline collected raw).map (Option.map textOf) := by
  induction raw generalizing collected with
  | nil =>
    rw [lines.go, turnLines.go, turns.go]
    split <;> rfl
  | cons line rest ih =>
    rw [lines.go, turnLines.go]
    cases ofUtf8? line with
    | none => rfl
    | some text =>
      have hadded : textOf collected ++ String.ofList (Line.read multiline text.toList).1 =
          textOf (collected ++ [text]) := by
        rw [textOf_append, Line.read_fst, textOf, textOf, List.flatMap_singleton]
      have hgo := ih (collected ++ [text])
      rw [if_neg (List.append_ne_nil_of_right_ne_nil _ (List.cons_ne_nil _ _))] at hgo
      dsimp only
      rw [turns.go, getD_collected, hadded]
      split
      · exact hgo
      · rw [List.map_cons, ← ih []]
        rfl

/-- A turn is what the lines say that it collects. -/
theorem turns_eq (multiline : Bool) (input : List UInt8) :
    turns multiline input = (turnLines multiline input).map (Option.map textOf) :=
  turns_go_lines_go [] (rawLines input)

private theorem mem_turnLines_go {raw : List (List UInt8)} {lines : List String}
    (hc : ∀ line ∈ collected, Line.submits line.toList = false)
    (h : some lines ∈ turnLines.go multiline collected raw) :
    ∃ first last, lines = first ++ [last] ∧ ∀ line ∈ first, Line.submits line.toList = false := by
  induction raw generalizing collected with
  | nil =>
    rw [turnLines.go] at h
    split at h
    · cases h
    · next hne =>
      obtain rfl : lines = collected := by simpa using h
      refine ⟨lines.dropLast, lines.getLast hne, (List.dropLast_concat_getLast hne).symm, ?_⟩
      exact fun line hline => hc line (List.dropLast_subset _ hline)
  | cons line rest ih =>
    rw [turnLines.go] at h
    cases hutf : ofUtf8? line with
    | none => simp [hutf] at h
    | some text =>
      simp only [hutf] at h
      split at h
      · next hmore =>
        refine ih (fun l hl => ?_) h
        rcases List.mem_append.mp hl with hl | hl
        · exact hc l hl
        · obtain rfl := List.mem_singleton.mp hl
          exact Line.submits_eq_false hmore
      · rcases List.mem_cons.mp h with h | h
        · cases h
          exact ⟨collected, text, rfl, hc⟩
        · exact ih (fun _ hl => absurd hl List.not_mem_nil) h

/-- Only the last line of a turn can be submitted. -/
theorem mem_turnLines {lines : List String} (h : some lines ∈ turnLines multiline input) :
    ∃ first last, lines = first ++ [last] ∧ ∀ line ∈ first, Line.submits line.toList = false :=
  mem_turnLines_go (fun line (hline : line ∈ []) => absurd hline List.not_mem_nil) h

/-! ### How long a turn is -/

/-- The line break of a line that is not submitted is one byte more. -/
theorem byteLength_said (line : List Char) : byteLength (Line.said line) =
    byteLength (Line.content line) + if Line.submits line then 0 else 1 := by
  rw [Line.said, Antiprompt.byteLength_append]
  split <;> rfl

private theorem byteLength_textOf (lines : List String) : (textOf lines).utf8ByteSize =
    (lines.map fun line => byteLength (Line.said line.toList)).sum := by
  rw [textOf, utf8ByteSize_ofList]
  induction lines with
  | nil => rfl
  | cons line lines ih =>
    rw [List.flatMap_cons, Antiprompt.byteLength_append, ih, List.map_cons, List.sum_cons]

/-- A turn that says something has more than one byte if its first line is not submitted, since that
has a line break. -/
theorem one_lt_of_unsubmitted {opening : String} {rest : List String}
    (hopening : Line.submits opening.toList = false)
    (h : ∃ line ∈ opening :: rest, Line.content line.toList ≠ []) :
    1 < (textOf (opening :: rest)).utf8ByteSize := by
  obtain ⟨line, hline, hcontent⟩ := h
  have hbreak := byteLength_said opening.toList
  rw [hopening, if_neg Bool.false_ne_true] at hbreak
  have hpos := byteLength_pos hcontent
  rw [byteLength_textOf, List.map_cons, List.sum_cons]
  rcases List.mem_cons.mp hline with rfl | hline
  · omega
  · obtain ⟨before, after, rfl⟩ := List.append_of_mem hline
    have hsaid := byteLength_said line.toList
    rw [List.map_append, List.map_cons, List.sum_append_nat, List.sum_cons]
    omega

/-- A turn that says something has no more than one byte just if it is one character of one byte
that was submitted. -/
theorem utf8ByteSize_le_one_iff {first : List String} {last : String}
    (hfirst : ∀ line ∈ first, Line.submits line.toList = false)
    (h : ∃ line ∈ first ++ [last], Line.content line.toList ≠ []) :
    (textOf (first ++ [last])).utf8ByteSize ≤ 1 ↔
      first = [] ∧ Line.submits last.toList = true ∧
        ∃ c, Line.content last.toList = [c] ∧ c.utf8Size = 1 := by
  cases first with
  | cons opening first =>
    have hlt := one_lt_of_unsubmitted (hfirst opening List.mem_cons_self) h
    exact iff_of_false (Nat.not_le.mpr hlt) fun h => nomatch h.1
  | nil =>
    cases hsubmits : Line.submits last.toList with
    | false =>
      have hlt := one_lt_of_unsubmitted hsubmits h
      exact iff_of_false (Nat.not_le.mpr hlt) fun h => nomatch h.2.1
    | true =>
      obtain ⟨line, hline, hcontent⟩ := h
      obtain rfl : line = last := List.mem_singleton.mp hline
      have hsize : (textOf ([] ++ [line])).utf8ByteSize = byteLength (Line.said line.toList) := by
        rw [byteLength_textOf]
        rfl
      rw [hsize, byteLength_said, hsubmits, if_pos rfl, Nat.add_zero]
      obtain ⟨c, r, hcr⟩ := List.exists_cons_of_ne_nil hcontent
      have hpos := c.utf8Size_pos
      rw [hcr]
      cases r with
      | nil =>
        simp only [byteLength, List.cons.injEq, and_true, true_and, exists_eq_left']
        omega
      | cons c' r =>
        have hpos' := c'.utf8Size_pos
        refine iff_of_false (by simp only [byteLength]; omega) ?_
        rintro ⟨-, -, c, hc, -⟩
        cases hc

end Text

namespace Session

open Effect

variable {s t : Session} {text : String}

/-! ### Queuing a turn -/

/-- Whether an error is neither that of a full output nor one of the engine. -/
def Stray : SessionError → Prop
  | .io .outputFull => False
  | .engine _ => False
  | _ => True

private theorem shuns_write (text : String) : Shuns Stray (write text) :=
  .bind .get fun _ => .bind (.modify _) fun _ => .failIf _ fun h => h

private theorem shuns_call {α : Type} (x : EngineM α) : Shuns Stray (call x) :=
  .adaptExcept (fun _ h => h) _

private theorem shuns_queueInput (text : String) : Shuns Stray (queueInput text) := by
  have hlead : Shuns Stray queueInstructLead :=
    .bind .get fun _ => .onlyIf _ (.bind (.modify _) fun _ => .modify _)
  refine .bind .get fun _ => ?_
  refine .bind (shuns_write _) fun _ => ?_
  refine .bind hlead fun _ => ?_
  refine .bind (shuns_call _) fun _ => ?_
  refine .bind (shuns_call _) fun _ => ?_
  refine .bind (shuns_call _) fun _ => ?_
  refine .bind (.modify _) fun _ => ?_
  refine .bind (.onlyIf _ (.modify _)) fun _ => ?_
  refine .bind (.modify _) fun _ => ?_
  refine .bind (.modify _) fun _ => ?_
  exact .bind .get fun _ => .modify _

private theorem shuns_query (text : String) : Shuns Stray (query text) := by
  have hends : Shuns Stray (do
      advance ({ · with echo := false })
      call Engine.resetSampler
      advance fun p => { p.forget with userTurn := false }
      enter .processingQueue) := by
    refine .bind (.modify _) fun _ => ?_
    refine .bind (shuns_call _) fun _ => ?_
    exact .bind (.modify _) fun _ => .modify _
  refine .bind .get fun _ => ?_
  refine .bind (.onlyIf _ (shuns_write _)) fun _ => ?_
  refine .bind (.onlyIf _ (.bind (.modify _) fun _ => .modify _)) fun _ => ?_
  refine .bind (shuns_write _) fun _ => ?_
  exact .ite (.bind (shuns_queueInput _) fun _ => hends) (.bind (.modify _) fun _ => hends)

/-- A query fails only where the output is full or a text cannot be spelled. -/
theorem query_error_cases {e : SessionError} (h : query text s = .error e t) :
    e = .io .outputFull ∨ ∃ x ∈ s.turnTexts text, x ∈ s.engine.refused := by
  have hstray : ¬ Stray e := fun he => (ends_iff_of_eq_error h).mp (shuns_query text s) e he rfl
  cases e with
  | engine cause => exact .inr (query_eq_error h).2.2.2
  | io fault =>
    cases fault with
    | outputFull => exact .inl rfl
    | _ => exact absurd trivial hstray
  | _ => exact absurd trivial hstray

/-- A query succeeds where the output takes everything and the texts can be spelled. -/
theorem exists_query_eq_ok (hroom : s.output.room = none)
    (hspells : ∀ x ∈ s.turnTexts text, x ∉ s.engine.refused) : ∃ t, query text s = .ok () t := by
  have htakes : s.TakesTurn s.config text := ⟨rfl, hroom, hspells⟩
  obtain ⟨_, t, ht, -⟩ :=
    ((unfailing_query _ htakes).mono fun r u ⟨⟨a, ha⟩, hP⟩ => ⟨a, ha, hP⟩).exists_eq_ok
  exact ⟨t, ht⟩

/-- Without escapes, a turn of more than one byte is queued as it is. -/
theorem queue_of_query (hescapes : s.config.escapes = false) (hl : 1 < text.utf8ByteSize)
    (h : query text s = .ok () t) : t.progress.queue = s.progress.queue ++ s.queryState.preamble ++
      (s.queryState.spell s.config.inputLead ++ s.queryState.spell text ++ s.queryState.after) := by
  have hsaid : s.queryState.said text = s.queryState.spell text := by
    change s.queryState.spell (if s.config.escapes then Text.Escape.process text else text) = _
    rw [hescapes, if_neg Bool.false_ne_true]
  have hqueue := congrArg QueryState.queue (query_eq_ok h)
  rw [QueryState.heard_of_typed _ hl, QueryState.introduced_eq, Template.turn, hsaid] at hqueue
  exact hqueue

/-- A turn of no more than one byte hands control back, and nothing of it is queued. -/
theorem queue_of_short_query (hl : text.utf8ByteSize ≤ 1) (h : query text s = .ok () t) :
    t.progress.queue = s.progress.queue ++ s.queryState.opening := by
  have hqueue := congrArg QueryState.queue (query_eq_ok h)
  rw [QueryState.heard, if_neg (Nat.not_lt.mpr hl)] at hqueue
  exact hqueue

/-- A turn whose lines say something is what they say, each line but one that is submitted with a
line break. Unless it is a single character of one byte, which was submitted, it is queued as it is,
escapes being off: a query that succeeds queues just its tokens, with what is put around every turn,
and one fails only where the output is full or a text cannot be spelled. Such a single character
hands control back. -/
theorem typed_text_queued {multiline : Bool} {input : List UInt8} {i : Nat} {lines : List String}
    (hlines : (Text.turnLines multiline input)[i]? = some (some lines))
    (hspoken : ∃ line ∈ lines, Text.Line.content line.toList ≠ []) {s : Session}
    (hescapes : s.config.escapes = false) :
    (Text.turns multiline input)[i]? = some (some (Text.textOf lines)) ∧
      ((Text.textOf lines).utf8ByteSize ≤ 1 ↔ ∃ line c, lines = [line] ∧
        Text.Line.submits line.toList = true ∧ Text.Line.content line.toList = [c] ∧
        c.utf8Size = 1) ∧
      (1 < (Text.textOf lines).utf8ByteSize →
        (∀ t, query (Text.textOf lines) s = .ok () t →
          t.progress.queue = s.progress.queue ++ s.queryState.preamble ++
            (s.queryState.spell s.config.inputLead ++ s.queryState.spell (Text.textOf lines) ++
              s.queryState.after)) ∧
        (∀ e t, query (Text.textOf lines) s = .error e t →
          e = .io .outputFull ∨ ∃ x ∈ s.turnTexts (Text.textOf lines), x ∈ s.engine.refused) ∧
        (s.output.room = none →
          (∀ x ∈ s.turnTexts (Text.textOf lines), x ∉ s.engine.refused) →
          ∃ t, query (Text.textOf lines) s = .ok () t)) ∧
      ((Text.textOf lines).utf8ByteSize ≤ 1 → ∀ t, query (Text.textOf lines) s = .ok () t →
        t.progress.queue = s.progress.queue ++ s.queryState.opening) := by
  obtain ⟨first, last, rfl, hfirst⟩ := Text.mem_turnLines (List.mem_of_getElem? hlines)
  refine ⟨?_, ?_, fun hl => ⟨fun t ht => queue_of_query hescapes hl ht,
    fun e t ht => query_error_cases ht, exists_query_eq_ok⟩,
    fun hl t ht => queue_of_short_query hl ht⟩
  · rw [Text.turns_eq, List.getElem?_map, hlines]
    rfl
  · rw [Text.utf8ByteSize_le_one_iff hfirst hspoken]
    constructor
    · rintro ⟨rfl, hsubmits, c, hcontent, hc⟩
      exact ⟨last, c, rfl, hsubmits, hcontent, hc⟩
    · rintro ⟨line, c, hsingle, hsubmits, hcontent, hc⟩
      obtain ⟨rfl, hlast⟩ := List.append_inj' (hsingle.trans (List.nil_append _).symm) rfl
      obtain rfl : last = line := List.head_eq_of_cons_eq hlast
      exact ⟨rfl, hsubmits, c, hcontent, hc⟩

/-- A turn of two lines, the second submitted, is queued with the line break between them. -/
theorem typed_text_queued_of_two_lines :
    ∃ s w t, start 0 { prompt := "ab", interactive := true } {} {} = .ok s w ∧
      Text.turns false (Text.utf8 "a\\\r\n/b/\nz\n") = [some "a\n/b", some "z\n"] ∧
      query "a\n/b" s = .ok () t ∧ t.progress.queue = s.progress.queue ++ Token.ofText "a\n/b" := by
  obtain ⟨s, w, h, htest⟩ := exists_of_gives
    (fun s : Session => decide (
      s.config.escapes = false ∧ s.output.room = none ∧ s.engine.refused = [] ∧
      s.queryState.preamble ++ (s.queryState.spell s.config.inputLead ++ s.queryState.spell
        "a\n/b" ++ s.queryState.after) =
        Token.ofText "a\n/b"))
    (r := start 0 { prompt := "ab", interactive := true } {} {}) (by decide +kernel)
  obtain ⟨hescapes, hroom, hrefused, htokens⟩ := of_decide_eq_true htest
  have hlines : (Text.turnLines false (Text.utf8 "a\\\r\n/b/\nz\n"))[0]? =
      some (some ["a\\\r\n", "/b/\n"]) := by decide +kernel
  have hspoken : ∃ line ∈ ["a\\\r\n", "/b/\n"], Text.Line.content line.toList ≠ [] := by
    decide +kernel
  have htext : Text.textOf ["a\\\r\n", "/b/\n"] = "a\n/b" := by decide +kernel
  obtain ⟨-, -, hqueued, -⟩ := typed_text_queued hlines hspoken hescapes
  rw [htext] at hqueued
  obtain ⟨hqueue, -, hexists⟩ := hqueued (by decide +kernel)
  obtain ⟨t, ht⟩ := hexists hroom fun x _ => by rw [hrefused]; exact List.not_mem_nil
  refine ⟨s, w, t, h, by decide +kernel, ht, ?_⟩
  rw [hqueue t ht, List.append_assoc, htokens]

/-- A single character that is submitted is not queued: it is taken for an empty line. -/
theorem typed_character_passed_back :
    ∃ s w t, start 0 { prompt := "ab", interactive := true } {} {} = .ok s w ∧
      s.config.escapes = false ∧ Text.turns false (Text.utf8 "y/\n") = [some "y"] ∧
      Text.Line.content "y/\n".toList = ['y'] ∧
      query "y" s = .ok () t ∧ t.progress.queue = s.progress.queue := by
  obtain ⟨s, w, h, htest⟩ := exists_of_gives
    (fun s : Session => decide (s.config.escapes = false ∧
      gives (fun _ => true) (query "y" s) = true ∧
      (left (query "y" s)).progress.queue = s.progress.queue))
    (r := start 0 { prompt := "ab", interactive := true } {} {}) (by decide +kernel)
  obtain ⟨hescapes, hgives, hqueue⟩ := of_decide_eq_true htest
  obtain ⟨_, t, ht, -⟩ := exists_of_gives _ hgives
  rw [ht] at hqueue
  exact ⟨s, w, t, h, hescapes, by decide +kernel, by decide +kernel, ht, hqueue⟩

end Session

end Dialogue
