import Mathlib.Algebra.GroupWithZero.Nat
import Dialogue.Proofs.Tally
/-!
# Notices of lost tokens

Before a step is fed it can lose tokens twice, at its end each time. What is lost is told to the
user at once: unless the output takes no more bytes, an evaluation shows a notice of each cut, with
the number of tokens that were lost, and nothing else.
-/

namespace Dialogue

open Effect

/-- Making room leaves the step alone. -/
theorem Swaps.pending_eq {w : Window} {v u : MainContext} (h : Swaps w v u) :
    u.pending = v.pending := by
  induction h with
  | refl => rfl
  | tail _ hs ih =>
    rw [← ih]
    cases hs <;> rfl

namespace Session

/-- The bytes of the notices of some cuts. -/
def noticeBytes (cuts : List Nat) : List UInt8 := cuts.flatMap fun n => Text.utf8 (cutNotice n)

/-- The step loses tokens at its end, so many each time; the logs tell nothing else. -/
structure Shortened (s t : Session) (cuts : List Nat) : Prop where
  /-- What the logs tell. -/
  tally : t.tally = { s.tally with cuts := s.tally.cuts ++ cuts }
  /-- What is left is the beginning of the step. -/
  pending : t.progress.pending <+: s.progress.pending
  /-- Nothing is lost but what is told. -/
  length : s.progress.pending.length = t.progress.pending.length + cuts.sum

/-- The user is told of some cuts, unless that fails. -/
def Told (s t : Session) (cuts : List Nat) {α : Type} (r : Except SessionError α) : Prop :=
  r = .error (.io .outputFull) ∨
    t.output.shown.toList = s.output.shown.toList ++ noticeBytes cuts

variable {s t u : Session} {a b : List Nat} {α β : Type}

private theorem Shortened.of_eq (ht : t.tally = s.tally)
    (hp : t.progress.pending = s.progress.pending) :
    Shortened s t [] := by
  refine ⟨?_, ?_, ?_⟩
  · rw [ht, List.append_nil]
  · simp [hp]
  · simp [hp]

private theorem Shortened.trans (h : Shortened s t a) (h' : Shortened t u b) :
    Shortened s u (a ++ b) := by
  refine ⟨?_, h'.pending.trans h.pending, ?_⟩
  · rw [h'.tally, h.tally, List.append_assoc]
  · rw [h.length, h'.length, List.sum_append]
    omega

private theorem Shortened.reported (h : Shortened s t a) {e : Event} (he : e.cut? = none) :
    Shortened s { t with journal := t.journal.push e } a :=
  ⟨(Workbench.tally_report he t.toWorkbench).trans h.tally, h.pending, h.length⟩

/-- A failure is told of as such, whatever it keeps from being given. -/
theorem Told.error {e : SessionError} (h : Told s t a (.error e : Except SessionError α)) :
    Told s t a (.error e : Except SessionError β) :=
  h.imp_left fun h => by
    cases h
    rfl

private theorem Told.ok {x : α} {y : β} (h : Told s t a (.ok x)) : Told s t a (.ok y) :=
  .inr (h.resolve_left nofun)

/-- Nothing is told of where nothing is shown. -/
theorem Told.of_eq (h : t.output = s.output) {r : Except SessionError α} : Told s t [] r := by
  right
  simp [h, noticeBytes]

/-- What is told of in two steps is told of in both, one behind the other. -/
theorem Told.trans {x : α} {r : Except SessionError β} (h : Told s t a (.ok x))
    (h' : Told t u b r) : Told s u (a ++ b) r := by
  refine h'.imp_right fun h' => ?_
  rw [h', h.resolve_left nofun, noticeBytes, noticeBytes, noticeBytes, List.flatMap_append,
    List.append_assoc]

/-! ### What leaves the output alone -/

/-- Making room shows nothing. -/
theorem keeps_output_makeRoom : Keeps Session.output makeRoom :=
  .bind .get fun _ => .bind (keeps_onBench (fun _ _ => rfl) _ _) fun _ => .pure _

/-- Feeding what is left of a step shows nothing. -/
theorem keeps_output_feedRest : Keeps Session.output feedRest := by
  have hlogs (n : Nat) : Keeps Session.output (logPending n) :=
    .bind .get fun _ => .onlyIf _ (.modify fun _ => rfl)
  have hguides : Keeps Session.output feedGuidance := by
    refine .bind .get fun s => ?_
    split
    · exact .pure _
    · refine .bind (keeps_onBench (fun _ _ => rfl) _ _) fun r => ?_
      cases r with
      | ok u => exact .pure _
      | error e => exact .modify fun _ => rfl
  have hfails (e : DecodeError) : Keeps Session.output (failStep e) := by
    refine .bind (.modify fun _ => rfl) fun _ => ?_
    refine .bind .get fun _ => ?_
    refine .bind (.modify fun _ => rfl) fun _ => ?_
    refine .bind (hlogs _) fun _ => ?_
    refine .bind .get fun _ => ?_
    refine .onlyIf _ ?_
    refine .bind (.modify fun _ => rfl) fun _ => ?_
    exact .bind (.modify fun _ => rfl) fun _ => .throw _
  refine .bind (.modify fun _ => rfl) fun _ => ?_
  refine .bind hguides fun _ => ?_
  refine .bind .get fun s => ?_
  refine .bind (keeps_onBench (fun _ _ => rfl) _ _) fun r => ?_
  cases r with
  | ok u => exact .bind (.modify fun _ => rfl) fun _ => hlogs _
  | error e => exact hfails e

/-! ### Cutting -/

/-- A text is shown as a whole unless the output has too little room. -/
theorem ends_write (text : String) (s : Session) :
    Ends (write text) s fun r t => t = { s with output := s.output.write text } ∧
      (r = .error (.io .outputFull) ∨ (r = .ok () ∧
        t.output.shown.toList = s.output.shown.toList ++ Text.utf8 text)) := by
  simp only [write, ends_bind, ends_get, ends_modify, ends_failIf]
  cases htakes : s.output.takes text with
  | false => simp
  | true =>
    simp only [Bool.not_true, Bool.false_eq_true, if_false]
    refine ⟨trivial, .inr ⟨trivial, ?_⟩⟩
    unfold Output.takes at htakes
    unfold Output.write
    cases hroom : s.output.room with
    | none => simp
    | some n =>
      have hle : (Text.utf8 text).length ≤ n := by simpa [hroom] using htakes
      simp [List.take_of_length_le hle]

private theorem ends_cutPending_told (n : Nat) (s : Session) :
    Ends (cutPending n) s fun r t => ∃ cuts, Shortened s t cuts ∧ Told s t cuts r := by
  simp only [cutPending, ends_bind, ends_get, ends_onlyIf]
  by_cases h : n < s.progress.pending.length
  · rw [if_pos (by simpa using h), ends_advance, ends_report]
    apply (ends_write _ _).mono
    rintro r t ⟨rfl, hr⟩
    refine ⟨[s.progress.pending.length - n], ⟨?_, List.take_prefix _ _, ?_⟩, ?_⟩
    · simp [tally, Workbench.tally, Event.cut?]
    · simp only [List.length_take, List.sum_cons, List.sum_nil]
      omega
    · refine hr.imp_right fun hr => ?_
      rw [hr.2, noticeBytes, List.flatMap_singleton]
  · rw [if_neg (by simpa using h)]
    exact ⟨[], Shortened.of_eq rfl rfl, Told.of_eq rfl⟩

/-! ### Arriving -/

private theorem ends_makeRoom_told (s : Session) :
    Ends makeRoom s fun r t => Shortened s t [] ∧ Told s t [] r := by
  apply ((ends_makeRoom s).and
    ((Ends.keeps frame_tally.keeps_makeRoom).and (Ends.keeps keeps_output_makeRoom))).mono
  rintro r t ⟨⟨-, hswaps, -⟩, ht, ho⟩
  exact ⟨Shortened.of_eq ht hswaps.pending_eq, Told.of_eq ho⟩

/-- Whatever a step loses before it is fed is told. -/
theorem ends_arrive_told (s : Session) :
    Ends arrive s fun r t => ∃ cuts, Shortened s t cuts ∧ Told s t cuts r := by
  simp only [arrive, ends_bind, ends_get]
  apply (ends_cutPending_told _ s).mono
  rintro r s₁ ⟨a, hs₁, ht₁⟩
  cases r with
  | error e => exact ⟨a, hs₁, ht₁.error⟩
  | ok _ =>
    simp only [ends_bind, ends_get, ends_ite, ends_report, ends_pure]
    split
    · exact ⟨a, hs₁.reported rfl, ht₁.ok⟩
    · apply (ends_makeRoom_told s₁).mono
      rintro r s₂ ⟨hs₂, ht₂⟩
      replace hs₂ := hs₁.trans hs₂
      replace ht₂ := ht₁.trans ht₂
      cases r with
      | error e => exact ⟨_, hs₂, ht₂.error⟩
      | ok _ =>
        dsimp only
        split
        · exact ⟨_, hs₂.reported rfl, ht₂.ok⟩
        · apply (ends_cutPending_told _ s₂).mono
          rintro r s₃ ⟨b, hs₃, ht₃⟩
          replace ht₃ := ht₂.trans ht₃
          cases r with
          | error e => exact ⟨_, hs₂.trans hs₃, ht₃.error⟩
          | ok _ => exact ⟨_, hs₂.trans hs₃, ht₃.ok⟩

end Session

end Dialogue
