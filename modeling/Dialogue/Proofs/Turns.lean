import Dialogue.Proofs.Requests
/-!
# Notes on a dialogue

What can be noted of a dialogue while its passes follow each other: something is added at every pass
of a turn, and the notes may be begun anew with the dialogue. What holds of the notes and the
session is shown pass by pass.
-/

namespace Dialogue

open Effect

namespace Session

variable {γ : Type}

/-- The sessions that begin the passes of a turn, the first one first. -/
def turn (s : Session) : List Session :=
  match _h : pass s with
  | .ok none t => s :: turn t
  | _ => [s]
termination_by s.passesLeft
decreasing_by exact pass_eq_none _h

/-- A turn that goes on is its first pass and the turn from the next one. -/
theorem turn_of_goes_on {s t : Session} (h : pass s = .ok none t) : s.turn = s :: t.turn := by
  rw [turn]
  split
  · next heq =>
    cases h.symm.trans heq
    rfl
  · next hne => exact absurd h (hne t)

/-- A turn that ends with its first pass is that pass. -/
theorem turn_of_ends {s : Session} (h : ∀ t, pass s ≠ .ok none t) : s.turn = [s] := by
  rw [turn]
  split
  · next heq => exact absurd heq (h _)
  · rfl

/-- A turn begins with its first pass and goes on with the turn from the next one, if there is one.
-/
theorem turn_cases (s : Session) :
    (∃ t, pass s = .ok none t ∧ s.turn = s :: t.turn) ∨
      (∀ t, pass s ≠ .ok none t) ∧ s.turn = [s] := by
  by_cases h : ∃ t, pass s = .ok none t
  · obtain ⟨t, ht⟩ := h
    exact .inl ⟨t, ht, turn_of_goes_on ht⟩
  · rw [not_exists] at h
    exact .inr ⟨h, turn_of_ends h⟩

/-- A turn begins with the session that it is a turn of. -/
theorem exists_turn_eq_cons (s : Session) : ∃ after, s.turn = s :: after := by
  rcases turn_cases s with ⟨t, -, h⟩ | ⟨-, h⟩
  · exact ⟨t.turn, h⟩
  · exact ⟨[], h⟩

/-- The passes of a turn that come behind some others are the turn from there. -/
theorem turn_eq_append (note : γ → Session → γ) (g : γ) {s p : Session}
    {before after : List Session} (h : s.turn = before ++ p :: after) :
    p.turn = p :: after ∧ Relation.ReflTransGen
      (fun a b : γ × Session => pass a.2 = .ok none b.2 ∧ b.1 = note a.1 a.2) (g, s)
      (before.foldl note g, p) := by
  induction before generalizing s g with
  | nil =>
    obtain ⟨rest, hturn⟩ := exists_turn_eq_cons s
    obtain ⟨rfl, -⟩ := List.cons.inj (hturn.symm.trans h)
    exact ⟨h, .refl⟩
  | cons q before ih =>
    rcases turn_cases s with ⟨t, hpass, hturn⟩ | ⟨-, hturn⟩
    · obtain ⟨rfl, hrest⟩ := List.cons.inj (hturn.symm.trans h)
      obtain ⟨hp, hsteps⟩ := ih (note g s) hrest
      exact ⟨hp, .head ⟨hpass, rfl⟩ hsteps⟩
    · obtain ⟨-, hrest⟩ := List.cons.inj (hturn.symm.trans h)
      simp at hrest

/-- A turn is taken with its passes: it returns where the last of them ends. -/
theorem left_answer (s : Session) : ∃ u, s.turn.getLast? = some u ∧
    (∀ t, pass u ≠ .ok none t) ∧ left (answer s) = left (pass u) := by
  fun_induction Session.answer s with
  | case1 s e t hpass =>
    have hends (u : Session) : pass s ≠ .ok none u := by simp [hpass]
    refine ⟨s, ?_, hends, ?_⟩
    · rw [turn_of_ends hends]
      rfl
    · rw [hpass]
      rfl
  | case2 s outcome t hpass =>
    have hends (u : Session) : pass s ≠ .ok none u := by simp [hpass]
    refine ⟨s, ?_, hends, ?_⟩
    · rw [turn_of_ends hends]
      rfl
    · rw [hpass]
      rfl
  | case3 s t hpass ih =>
    obtain ⟨u, hlast, hends, hleft⟩ := ih
    refine ⟨u, ?_, hends, hleft⟩
    rw [turn_of_goes_on hpass, List.getLast?_cons, hlast]
    rfl

/-- A turn has no more passes than a measure tells that every pass lowers which does not end the
turn, and one more. -/
theorem length_turn_le {P : Session → Prop} {measure : Session → Nat}
    (hstep : ∀ s t, P s → pass s = .ok none t → P t ∧ measure t < measure s) {s : Session}
    (hs : P s) : s.turn.length ≤ measure s + 1 := by
  fun_induction turn s with
  | case1 s t hpass ih =>
    obtain ⟨ht, hlt⟩ := hstep s t hs hpass
    have hle := ih ht
    rw [List.length_cons]
    omega
  | case2 => exact Nat.le_add_left _ _

/-- The notes on a dialogue: each pass is noted, and a dialogue that begins anew has notes of its
own. -/
def noted (note : γ → Session → γ) (anew : γ → γ) (s : Session) (g : γ) : List Request → γ
  | [] => g
  | .answer room :: rs =>
    noted note anew (s.serve (.answer room)) ((s.showing room).turn.foldl note g) rs
  | .query text room :: rs => noted note anew (s.serve (.query text room)) g rs
  | .reset :: rs => noted note anew s.reset (anew g) rs

/-- A session that begins a pass of the turn that follows some requests, with the notes by then. -/
def AtNotedPass (note : γ → Session → γ) (anew : γ → γ) (s : Session) (g : γ)
    (requests : List Request) (g' : γ) (t : Session) : Prop :=
  ∃ room, Relation.ReflTransGen
    (fun a b : γ × Session => pass a.2 = .ok none b.2 ∧ b.1 = note a.1 a.2)
    (s.noted note anew g requests, (s.serveAll requests).showing room) (g', t)

/-- Whenever a pass begins there are notes. -/
theorem AtPass.exists_notes {s t : Session} {requests : List Request} (h : s.AtPass requests t)
    (note : γ → Session → γ) (anew : γ → γ) (g : γ) :
    ∃ g', s.AtNotedPass note anew g requests g' t := by
  obtain ⟨room, hpasses⟩ := h
  induction hpasses with
  | refl => exact ⟨_, room, .refl⟩
  | tail _ hpass ih =>
    obtain ⟨g', room', hnoted⟩ := ih
    exact ⟨_, room', hnoted.tail ⟨hpass, rfl⟩⟩

/-- When a pass of a turn begins the passes before it are noted. -/
theorem atNotedPass_of_turn {note : γ → Session → γ} {anew : γ → γ} {g : γ} {s p : Session}
    {requests : List Request} {room : Option Nat} {before after : List Session}
    (h : ((s.serveAll requests).showing room).turn = before ++ p :: after) :
    s.AtNotedPass note anew g requests (before.foldl note (s.noted note anew g requests)) p :=
  ⟨room, (turn_eq_append note _ h).2⟩

/-- A pass of the turn that follows some requests is one at which a session can stand. -/
theorem atPass_of_turn {s p : Session} {requests : List Request} {room : Option Nat}
    {before after : List Session}
    (h : ((s.serveAll requests).showing room).turn = before ++ p :: after) : s.AtPass requests p :=
  ⟨room, (turn_eq_append (fun _ _ => ()) () h).2.lift Prod.snd fun _ _ h => h.1⟩

/-- A turn that goes on after some requests has another pass, with its first one noted. -/
theorem exists_noted_of_goesOn {test : Session → Bool} {s : Session} {requests : List Request}
    {room : Option Nat} (note : γ → Session → γ) (anew : γ → γ) (g : γ)
    (h : goesOn test ((s.serveAll requests).showing room) = true) :
    ∃ t, s.AtNotedPass note anew g requests
      (note (s.noted note anew g requests) ((s.serveAll requests).showing room)) t ∧
      test t = true := by
  obtain ⟨t, hpass, ht⟩ := exists_pass_of_goesOn h
  exact ⟨t, ⟨room, Relation.ReflTransGen.single ⟨hpass, rfl⟩⟩, ht⟩

/-- Whether one session begins a pass of the dialogue that goes on with the pass that the other one
begins: that one itself, or a later one. -/
def GoesOnTo (s t : Session) : Prop :=
  Passes s t ∨ ∃ more, .reset ∉ more ∧ (left (answer s)).AtPass more t

/-- A session that goes on does so to a pass that begins in a state that passes the test. -/
theorem exists_goesOnTo {test : Session → Bool} {s : Session} (h : goesOn test s = true) :
    ∃ t, s.GoesOnTo t ∧ test t = true := by
  obtain ⟨t, hpass, ht⟩ := exists_pass_of_goesOn h
  exact ⟨t, .inl (Relation.ReflTransGen.single hpass), ht⟩

/-- What holds of the notes and the session throughout. -/
structure NotedInvariant (note : γ → Session → γ) (anew : γ → γ) (allowed : Request → Prop)
    (I : γ → Session → Prop) : Prop where
  /-- The output does not matter. -/
  showing : ∀ g s room, I g s → I g (s.showing room)
  /-- A pass that is noted preserves it, also one that fails. -/
  pass : ∀ g s, I g s → I (note g s) (left (pass s))
  /-- A query preserves it, also one that fails. -/
  query : ∀ g s text room, I g s → I g (left (query text (s.showing room)))
  /-- It holds of a dialogue that begins anew, if that is allowed. -/
  reset : allowed .reset → ∀ g s, I g s → I (anew g) s.reset

namespace NotedInvariant

variable {note : γ → Session → γ} {anew : γ → γ} {allowed : Request → Prop}
  {I : γ → Session → Prop} {g : γ} {s : Session}

/-- A turn preserves what its passes preserve. -/
theorem turn (hI : NotedInvariant note anew allowed I) (h : I g s) :
    I (s.turn.foldl note g) (left (answer s)) := by
  fun_induction Session.answer s generalizing g with
  | case1 s e t hpass =>
    have ht := hI.pass g s h
    rw [hpass] at ht
    rw [turn_of_ends (by simp [hpass])]
    exact ht
  | case2 s outcome t hpass =>
    have ht := hI.pass g s h
    rw [hpass] at ht
    rw [turn_of_ends (by simp [hpass])]
    exact ht
  | case3 s t hpass ih =>
    have ht := hI.pass g s h
    rw [hpass] at ht
    rw [turn_of_goes_on hpass]
    exact ih ht

/-- What holds throughout holds after every sequence of allowed requests. -/
theorem serveAll (hI : NotedInvariant note anew allowed I) {requests : List Request} (h : I g s)
    (hr : ∀ r ∈ requests, allowed r) : I (s.noted note anew g requests) (s.serveAll requests) := by
  induction requests generalizing g s with
  | nil => exact h
  | cons r rs ih =>
    have hrs : ∀ r ∈ rs, allowed r := fun r hmem => hr r (List.mem_cons_of_mem _ hmem)
    cases r with
    | answer room => exact ih (hI.turn (hI.showing g s room h)) hrs
    | query text room => exact ih (hI.query g s text room h) hrs
    | reset => exact ih (hI.reset (hr .reset List.mem_cons_self) g s h) hrs

/-- Whenever a pass begins, it holds of the notes by then. -/
theorem atNotedPass (hI : NotedInvariant note anew allowed I) {requests : List Request} {g' : γ}
    {t : Session} (h : I g s) (hr : ∀ r ∈ requests, allowed r)
    (ht : s.AtNotedPass note anew g requests g' t) : I g' t := by
  obtain ⟨room, hpasses⟩ := ht
  generalize hb : (g', t) = b at hpasses
  induction hpasses generalizing g' t with
  | refl =>
    cases hb
    exact hI.showing _ _ room (hI.serveAll h hr)
  | tail _ hpass ih =>
    cases hb
    obtain ⟨hpass, rfl⟩ := hpass
    have hu := hI.pass _ _ (ih rfl)
    rwa [hpass] at hu

/-- Whenever a pass begins, it holds of some notes. -/
theorem atPass (hI : NotedInvariant note anew allowed I) {requests : List Request} {t : Session}
    (h : I g s) (hr : ∀ r ∈ requests, allowed r) (ht : s.AtPass requests t) : ∃ g', I g' t := by
  obtain ⟨g', hg'⟩ := ht.exists_notes note anew g
  exact ⟨g', hI.atNotedPass h hr hg'⟩

/-- What holds throughout holds on until the dialogue begins anew. -/
theorem goesOn (hI : NotedInvariant note anew (· ≠ .reset) I) {t : Session} (h : I g s)
    (ht : s.GoesOnTo t) : ∃ g', I g' t := by
  rcases ht with hpasses | ⟨more, hreset, ht⟩
  · induction hpasses with
    | refl => exact ⟨g, h⟩
    | @tail u t _ hpass ih =>
      obtain ⟨g', hu⟩ := ih
      have ht := hI.pass g' u hu
      rw [hpass] at ht
      exact ⟨_, ht⟩
  · obtain ⟨g', hnoted⟩ := ht.exists_notes note anew (s.turn.foldl note g)
    exact ⟨g', hI.atNotedPass (hI.turn h) (fun r hr heq => hreset (heq ▸ hr)) hnoted⟩

end NotedInvariant

end Session

end Dialogue
