import Mathlib.Logic.Relation
import Dialogue.Effect.Ends
import Dialogue.Session.Answer
import Dialogue.Session.Query
/-!
# Requests

A session is asked to take a turn, to hear the user, or to begin anew, each time with an output of
its own. A request that fails leaves the session as it was then, and the next one goes on from
there. What every pass and every request preserves holds throughout.
-/

namespace Dialogue

open Effect

/-- What can be asked of a session. -/
inductive Request where
  /-- To take a turn, with some room for what is shown. -/
  | answer (room : Option Nat)
  /-- To hear the user, with some room for what is shown. -/
  | query (text : String) (room : Option Nat)
  /-- To begin the dialogue anew. -/
  | reset
deriving DecidableEq, Repr

namespace Session

/-- The session with an output that shows nothing yet. -/
def showing (s : Session) (room : Option Nat) : Session := { s with output := { room } }

/-- The session after a request. -/
def serve (s : Session) : Request → Session
  | .answer room => left (answer (s.showing room))
  | .query text room => left (query text (s.showing room))
  | .reset => s.reset

/-- The session after requests. -/
def serveAll (s : Session) (requests : List Request) : Session := requests.foldl serve s

/-- Passes that do not end the turn. -/
abbrev Passes : Session → Session → Prop :=
  Relation.ReflTransGen fun s t => pass s = .ok none t

/-- A session that begins a pass of the turn that follows some requests. -/
def AtPass (s : Session) (requests : List Request) (t : Session) : Prop :=
  ∃ room, Passes ((s.serveAll requests).showing room) t

/-- Whether the turn goes on after a pass, in a state that passes a test. -/
def goesOn (test : Session → Bool) (s : Session) : Bool :=
  match pass s with
  | .ok none t => test t
  | _ => false

/-- A turn that goes on does so with a pass that lets it. -/
theorem exists_pass_of_goesOn {test : Session → Bool} {s : Session} (h : goesOn test s = true) :
    ∃ t, pass s = .ok none t ∧ test t = true := by
  unfold goesOn at h
  split at h
  · next t hpass => exact ⟨t, hpass, h⟩
  · cases h

/-- A turn that goes on after some requests has another pass, which begins in a state that passes
the test. -/
theorem exists_of_goesOn {test : Session → Bool} {s : Session} {requests : List Request}
    {room : Option Nat} (h : goesOn test ((s.serveAll requests).showing room) = true) :
    ∃ t, s.AtPass requests t ∧ test t = true := by
  obtain ⟨t, hpass, ht⟩ := exists_pass_of_goesOn h
  exact ⟨t, ⟨room, Relation.ReflTransGen.single hpass⟩, ht⟩

/-- Whether each request meets a condition on the session that is to serve it. -/
def AllAllowed (allowed : Session → Request → Prop) : Session → List Request → Prop
  | _, [] => True
  | s, r :: rs => allowed s r ∧ AllAllowed allowed (s.serve r) rs

/-- What every session allows is allowed throughout. -/
theorem allAllowed_of_forall {allowed : Session → Request → Prop} {requests : List Request}
    (h : ∀ s, ∀ r ∈ requests, allowed s r) (s : Session) : s.AllAllowed allowed requests := by
  induction requests generalizing s with
  | nil => trivial
  | cons r rs ih =>
    constructor
    · exact h s r List.mem_cons_self
    · apply ih
      intro s' r' hr'
      exact h s' r' (List.mem_cons_of_mem _ hr')

/-- Where every request is allowed, all are. -/
theorem allAllowed_true (s : Session) (requests : List Request) :
    s.AllAllowed (fun _ _ => True) requests := allAllowed_of_forall (fun _ _ _ => trivial) s

/-- A dialogue that is not asked to begin anew does not. -/
theorem allAllowed_ne_reset {requests : List Request} (h : .reset ∉ requests) (s : Session) :
    s.AllAllowed (fun _ r => r ≠ .reset) requests := by
  apply allAllowed_of_forall
  rintro _ _ hmem rfl
  exact h hmem

/-- Requests that meet a condition meet a weaker one. -/
theorem AllAllowed.mono {allowed allowed' : Session → Request → Prop} {s : Session}
    {requests : List Request} (h : s.AllAllowed allowed requests)
    (hle : ∀ s r, allowed s r → allowed' s r) : s.AllAllowed allowed' requests := by
  induction requests generalizing s with
  | nil => trivial
  | cons r rs ih => exact ⟨hle s r h.1, ih h.2⟩

/-- Requests that meet two conditions meet both at once. -/
theorem AllAllowed.and {allowed allowed' : Session → Request → Prop} {s : Session}
    {requests : List Request} (h : s.AllAllowed allowed requests)
    (h' : s.AllAllowed allowed' requests) :
    s.AllAllowed (fun t r => allowed t r ∧ allowed' t r) requests := by
  induction requests generalizing s with
  | nil => trivial
  | cons r rs ih => exact ⟨⟨h.1, h'.1⟩, ih h.2 h'.2⟩

/-- What every allowed request preserves holds after all of them. -/
theorem AllAllowed.serveAll {allowed : Session → Request → Prop} {P : Session → Prop} {s : Session}
    {requests : List Request} (h : s.AllAllowed allowed requests) (hs : P s)
    (hserve : ∀ t r, P t → allowed t r → P (t.serve r)) : P (s.serveAll requests) := by
  induction requests generalizing s with
  | nil => exact hs
  | cons r rs ih => exact ih h.2 (hserve s r hs h.1)

/-- Requests are served one list after the other. -/
theorem serveAll_append (s : Session) (requests more : List Request) :
    s.serveAll (requests ++ more) = (s.serveAll requests).serveAll more :=
  List.foldl_append

/-- Two lists of requests are allowed if the one is, and the other one after it. -/
theorem allAllowed_append {allowed : Session → Request → Prop} {s : Session}
    {requests more : List Request} :
    s.AllAllowed allowed (requests ++ more) ↔
      s.AllAllowed allowed requests ∧ (s.serveAll requests).AllAllowed allowed more := by
  induction requests generalizing s with
  | nil => exact (and_iff_right trivial).symm
  | cons r rs ih =>
    simp only [List.cons_append, AllAllowed, ih, and_assoc]
    rfl

/-- What every pass and every allowed request preserves. -/
structure Invariant (allowed : Session → Request → Prop) (P : Session → Prop) : Prop where
  /-- The output does not matter. -/
  showing : ∀ s room, P s → P (s.showing room)
  /-- Every pass preserves it, also one that fails. -/
  pass : ∀ s, P s → P (left (pass s))
  /-- Every allowed query preserves it, also one that fails. -/
  query : ∀ s text room, P s → allowed s (.query text room) →
    P (left (query text (s.showing room)))
  /-- Every allowed beginning anew preserves it. -/
  reset : ∀ s, P s → allowed s .reset → P s.reset

namespace Invariant

variable {allowed : Session → Request → Prop} {P : Session → Prop} {s t : Session}
  {requests : List Request}

/-- An invariant holds after an answer. -/
theorem answer (hI : Invariant allowed P) (hs : P s) : P (left (answer s)) := by
  fun_induction Session.answer s with
  | case1 s e t h =>
    have ht := hI.pass s hs
    rwa [h] at ht
  | case2 s outcome t h =>
    have ht := hI.pass s hs
    rwa [h] at ht
  | case3 s t h ih =>
    have ht := hI.pass s hs
    rw [h] at ht
    exact ih ht

/-- An invariant holds after a request that is allowed. -/
theorem serve (hI : Invariant allowed P) (hs : P s) {r : Request} (hr : allowed s r) :
    P (s.serve r) := by
  cases r with
  | answer room => exact hI.answer (hI.showing s room hs)
  | query text room => exact hI.query s text room hs hr
  | reset => exact hI.reset s hs hr

/-- What is preserved holds after every sequence of allowed requests. -/
theorem serveAll (hI : Invariant allowed P) (hs : P s) (hr : s.AllAllowed allowed requests) :
    P (s.serveAll requests) :=
  hr.serveAll hs fun _ _ ht hr => hI.serve ht hr

/-- What is preserved holds at the beginning of every pass. -/
theorem atPass (hI : Invariant allowed P) (hs : P s) (hr : s.AllAllowed allowed requests)
    (ht : s.AtPass requests t) : P t := by
  obtain ⟨room, hpasses⟩ := ht
  have h₀ := hI.showing _ room (hI.serveAll hs hr)
  induction hpasses with
  | refl => exact h₀
  | tail _ hpass ih =>
    have hu := hI.pass _ ih
    rwa [hpass] at hu

end Invariant

/-! ### Requests that succeed -/

/-- Whether a request is served without a failure. -/
def Succeeds (s : Session) : Request → Prop
  | .answer room => ∃ outcome t, answer (s.showing room) = .ok outcome t
  | .query text room => ∃ t, query text (s.showing room) = .ok () t
  | .reset => True

/-- Whether a request succeeds can be found out by serving it. -/
instance (s : Session) (r : Request) : Decidable (s.Succeeds r) :=
  match r with
  | .answer room =>
    match h : answer (s.showing room) with
    | .ok outcome t => .isTrue ⟨outcome, t, h⟩
    | .error _ _ => .isFalse (by simp [Succeeds, h])
  | .query text room =>
    match h : query text (s.showing room) with
    | .ok _ t => .isTrue ⟨t, h⟩
    | .error _ _ => .isFalse (by simp [Succeeds, h])
  | .reset => .isTrue trivial

/-- Whether requests are allowed can be found out by serving them. -/
instance decidableAllAllowed (allowed : Session → Request → Prop) [∀ s r, Decidable (allowed s r)] :
    (s : Session) → (requests : List Request) → Decidable (s.AllAllowed allowed requests)
  | _, [] => .isTrue trivial
  | s, r :: rs =>
    have := decidableAllAllowed allowed (s.serve r) rs
    inferInstanceAs (Decidable (allowed s r ∧ AllAllowed allowed (s.serve r) rs))

/-- What every pass and every allowed request preserves as long as nothing fails. -/
structure SuccessInvariant (allowed : Request → Prop) (P : Session → Prop) : Prop where
  /-- The output does not matter. -/
  showing : ∀ s room, P s → P (s.showing room)
  /-- Every pass that succeeds preserves it. -/
  pass : ∀ s outcome t, P s → pass s = .ok outcome t → P t
  /-- Every allowed query that succeeds preserves it. -/
  query : ∀ s text room t, P s → allowed (.query text room) →
    query text (s.showing room) = .ok () t → P t
  /-- Beginning anew preserves it, if that is allowed. -/
  reset : ∀ s, P s → allowed .reset → P s.reset

namespace SuccessInvariant

variable {allowed : Request → Prop} {P : Session → Prop} {s t : Session}
  {requests : List Request}

/-- An invariant of success holds after an answer that succeeds. -/
theorem answer (hI : SuccessInvariant allowed P) (hs : P s) {outcome : Outcome}
    (h : answer s = .ok outcome t) : P t := by
  fun_induction Session.answer s with
  | case1 => cases h
  | case2 s outcome' t' hpass =>
    cases h
    exact hI.pass s _ _ hs hpass
  | case3 s t' hpass ih => exact ih (hI.pass s _ _ hs hpass) h

/-- What is preserved holds at the beginning of every pass of a turn. -/
theorem passes (hI : SuccessInvariant allowed P) (hs : P s) (h : Passes s t) : P t := by
  induction h with
  | refl => exact hs
  | tail _ hpass ih => exact hI.pass _ _ _ ih hpass

/-- What is preserved holds after every sequence of allowed requests that succeed. -/
theorem serveAll (hI : SuccessInvariant allowed P) (hs : P s) (hr : ∀ r ∈ requests, allowed r)
    (h : s.AllAllowed Succeeds requests) : P (s.serveAll requests) := by
  apply (h.and (allAllowed_of_forall (fun _ => hr) s)).serveAll hs
  rintro u r hu ⟨hsucceeds, hallowed⟩
  cases r with
  | answer room =>
    obtain ⟨outcome, t, ht⟩ := hsucceeds
    rw [serve, ht]
    exact hI.answer (hI.showing u room hu) ht
  | query text room =>
    obtain ⟨t, ht⟩ := hsucceeds
    rw [serve, ht]
    exact hI.query u text room t hu hallowed ht
  | reset => exact hI.reset u hu hallowed

end SuccessInvariant

end Session

end Dialogue
