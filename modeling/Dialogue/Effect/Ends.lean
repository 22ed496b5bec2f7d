import Dialogue.Effect
/-!
# Where a computation ends

`Ends x s Q` says that `x`, begun in the state `s`, ends in a state that `Q` allows for what it
gives, whether that is a value or a failure. The rules follow the ways computations are put
together; a failure skips what comes after it.
-/

namespace Dialogue.Effect

variable {ε ε' σ τ α β : Type}

/-- The computation ends as `Q` says when it is begun in the state `s`. -/
def Ends (x : EStateM ε σ α) (s : σ) (Q : Except ε α → σ → Prop) : Prop :=
  match x s with
  | .ok a t => Q (.ok a) t
  | .error e t => Q (.error e) t

/-- What a result gives, without the state. -/
def outcome : EStateM.Result ε σ α → Except ε α
  | .ok a _ => .ok a
  | .error e _ => .error e

/-- There is one end, with what is given and the state that is left. -/
theorem ends_iff_outcome {x : EStateM ε σ α} {s : σ} {Q : Except ε α → σ → Prop} :
    Ends x s Q ↔ Q (outcome (x s)) (left (x s)) := by
  unfold Ends
  cases x s <;> rfl

/-- A computation that gives a value has this end only. -/
theorem ends_iff_of_eq_ok {x : EStateM ε σ α} {s t : σ} {a : α} {Q : Except ε α → σ → Prop}
    (h : x s = .ok a t) : Ends x s Q ↔ Q (.ok a) t := by
  unfold Ends
  rw [h]

/-- A computation that fails has this end only. -/
theorem ends_iff_of_eq_error {x : EStateM ε σ α} {s t : σ} {e : ε} {Q : Except ε α → σ → Prop}
    (h : x s = .error e t) : Ends x s Q ↔ Q (.error e) t := by
  unfold Ends
  rw [h]

/-- What a step gives before another one that gives a value. -/
theorem except_bind_eq_ok {x : Except ε α} {g : α → Except ε β} {b : β} (h : x >>= g = .ok b) :
    ∃ a, x = .ok a ∧ g a = .ok b := by
  cases x with
  | error e => cases h
  | ok a => exact ⟨a, rfl, h⟩

/-- Whether a result is a value that passes a test. -/
def gives (test : α → Bool) : EStateM.Result ε σ α → Bool
  | .ok a _ => test a
  | .error .. => false

/-- A result that passes a test is a value that does. -/
theorem exists_of_gives (test : α → Bool) {r : EStateM.Result ε σ α} (h : gives test r = true) :
    ∃ a s, r = .ok a s ∧ test a = true := by
  cases r with
  | ok a s => exact ⟨a, s, rfl, h⟩
  | error e s => cases h

/-- The failure, if a computation fails. -/
def failure? : EStateM.Result ε σ α → Option ε
  | .ok .. => none
  | .error e _ => some e

/-- What fails fails with the state that is left. -/
theorem eq_error_of_failure? {r : EStateM.Result ε σ α} {e : ε} (h : failure? r = some e) :
    r = .error e (left r) := by
  cases r with
  | ok a s => cases h
  | error e' s =>
    cases h
    rfl

/-- What holds of every end holds of the state that is left. -/
theorem Ends.left {x : EStateM ε σ α} {s : σ} {P : σ → Prop} (h : Ends x s fun _ t => P t) :
    P (left (x s)) := by
  unfold Ends at h
  cases hx : x s <;> rw [hx] at h <;> exact h

/-- The end that is come to goes with a result, which tells what was given. -/
theorem Ends.exists_left {x : EStateM ε σ α} {s : σ} {Q : Except ε α → σ → Prop}
    (h : Ends x s Q) : ∃ r, Q r (Effect.left (x s)) ∧ (∀ a, r = .ok a ↔ ∃ t, x s = .ok a t) ∧
      ∀ e, r = .error e ↔ ∃ t, x s = .error e t := by
  unfold Ends at h
  cases hx : x s with
  | ok a t =>
    rw [hx] at h
    exact ⟨.ok a, h, fun b => by simp, fun e => by simp⟩
  | error e t =>
    rw [hx] at h
    exact ⟨.error e, h, fun b => by simp, fun e => by simp⟩

/-- A computation that gives a value at every end gives one. -/
theorem Ends.exists_eq_ok {x : EStateM ε σ α} {s : σ} {P : α → σ → Prop}
    (h : Ends x s fun r t => ∃ a, r = .ok a ∧ P a t) : ∃ a t, x s = .ok a t ∧ P a t := by
  unfold Ends at h
  cases hx : x s with
  | ok a t =>
    rw [hx] at h
    obtain ⟨_, ⟨⟩, ht⟩ := h
    exact ⟨a, t, rfl, ht⟩
  | error e t =>
    rw [hx] at h
    obtain ⟨_, ⟨⟩, _⟩ := h

/-- An end with a value is one of the ends. -/
theorem Ends.of_ok {x : EStateM ε σ α} {s t : σ} {a : α} {Q : Except ε α → σ → Prop}
    (h : Ends x s Q) (hx : x s = .ok a t) : Q (.ok a) t := by
  unfold Ends at h
  rwa [hx] at h

/-- Ends can be described more loosely. -/
theorem Ends.mono {x : EStateM ε σ α} {s : σ} {Q R : Except ε α → σ → Prop} (h : Ends x s Q)
    (hQ : ∀ r t, Q r t → R r t) : Ends x s R := by
  unfold Ends at h ⊢
  cases hx : x s <;> rw [hx] at h <;> exact hQ _ _ h

/-- A view that is kept can be added to what is known of the end. -/
theorem Ends.keeps {x : EStateM ε σ α} {s : σ} {f : σ → τ} (h : Keeps f x) :
    Ends x s fun _ t => f t = f s := by
  have hs := h s
  unfold Ends
  cases hx : x s <;> rw [hx] at hs <;> exact hs

/-- Two descriptions of the ends hold together. -/
theorem Ends.and {x : EStateM ε σ α} {s : σ} {Q R : Except ε α → σ → Prop} (hQ : Ends x s Q)
    (hR : Ends x s R) : Ends x s fun r t => Q r t ∧ R r t := by
  unfold Ends at hQ hR ⊢
  cases hx : x s <;> rw [hx] at hQ hR <;> exact ⟨hQ, hR⟩

/-- A value is given, and the state is left as it is. -/
@[simp] theorem ends_pure {a : α} {s : σ} {Q : Except ε α → σ → Prop} :
    Ends (pure a) s Q ↔ Q (.ok a) s := Iff.rfl

/-- The state is given, and left as it is. -/
@[simp] theorem ends_get {s : σ} {Q : Except ε σ → σ → Prop} :
    Ends (MonadState.get : EStateM ε σ σ) s Q ↔ Q (.ok s) s := Iff.rfl

/-- The failure is given, and the state is left as it is. -/
@[simp] theorem ends_throw {e : ε} {s : σ} {Q : Except ε α → σ → Prop} :
    Ends (throw e) s Q ↔ Q (.error e) s := Iff.rfl

/-- The changed state is left. -/
@[simp] theorem ends_modify {f : σ → σ} {s : σ} {Q : Except ε PUnit → σ → Prop} :
    Ends (modify f) s Q ↔ Q (.ok ⟨⟩) (f s) := Iff.rfl

/-- The value that goes with the change is given, and the changed state is left. -/
@[simp] theorem ends_modifyGet {f : σ → α × σ} {s : σ} {Q : Except ε α → σ → Prop} :
    Ends (modifyGet f) s Q ↔ Q (.ok (f s).1) (f s).2 := Iff.rfl

/-- What comes after a computation is begun where that ends, unless it fails. -/
theorem ends_bind {x : EStateM ε σ α} {g : α → EStateM ε σ β} {s : σ}
    {Q : Except ε β → σ → Prop} :
    Ends (x >>= g) s Q ↔ Ends x s fun r t =>
      match r with
      | .ok a => Ends (g a) t Q
      | .error e => Q (.error e) t := by
  change (match EStateM.bind x g s with | .ok b t => _ | .error e t => _) ↔ _
  unfold EStateM.bind Ends
  cases x s <;> rfl

/-- What comes after a computation that gives a value is begun with the value. -/
theorem ends_bind_of_ok {x : EStateM ε σ α} {g : α → EStateM ε σ β} {s : σ} {P : α → σ → Prop}
    {Q : Except ε β → σ → Prop} (hx : Ends x s fun r t => ∃ a, r = .ok a ∧ P a t)
    (hg : ∀ a t, P a t → Ends (g a) t Q) : Ends (x >>= g) s Q := by
  rw [ends_bind]
  apply hx.mono
  rintro _ t ⟨a, rfl, ht⟩
  exact hg a t ht

/-- What comes after a computation that keeps a view is begun in some state with the same view. -/
theorem ends_bind_of_keeps {f : σ → τ} {x : EStateM ε σ α} {g : α → EStateM ε σ β} {s t : σ}
    {Q : Except ε β → σ → Prop} (hx : Keeps f x) (ht : f t = f s)
    (hg : ∀ a u, f u = f s → Ends (g a) u Q) (he : ∀ e u, f u = f s → Q (.error e) u) :
    Ends (x >>= g) t Q := by
  rw [ends_bind]
  apply (Ends.keeps hx).mono
  intro r u hu
  cases r with
  | ok a => exact hg a u (hu.trans ht)
  | error e => exact he e u (hu.trans ht)

/-- A value that is disregarded is not given. -/
theorem ends_discard {x : EStateM ε σ α} {s : σ} {Q : Except ε Unit → σ → Prop} :
    Ends (discard x) s Q ↔ Ends x s fun r t => Q (r.map fun _ => ()) t := by
  change Ends (x >>= fun _ => pure ()) s Q ↔ _
  rw [ends_bind]
  unfold Ends
  cases x s <;> rfl

/-- A choice ends as the branch that is taken. -/
theorem ends_ite {c : Prop} [Decidable c] {x y : EStateM ε σ α} {s : σ}
    {Q : Except ε α → σ → Prop} :
    Ends (if c then x else y) s Q ↔ if c then Ends x s Q else Ends y s Q := by
  split <;> rfl

/-- A check ends in its failure or in the same state. -/
theorem ends_failIf {c : Bool} {e : ε} {s : σ} {Q : Except ε Unit → σ → Prop} :
    Ends (failIf c e) s Q ↔ if c then Q (.error e) s else Q (.ok ()) s := by
  cases c <;> rfl

/-- A step that is not taken ends in the same state. -/
theorem ends_onlyIf {c : Bool} {x : EStateM ε σ Unit} {s : σ} {Q : Except ε Unit → σ → Prop} :
    Ends (onlyIf c x) s Q ↔ if c then Ends x s Q else Q (.ok ()) s := by
  cases c <;> rfl

/-- A failure that is taken as a value is one of the values. -/
theorem ends_attempt {x : EStateM ε σ α} {s : σ} {Q : Except ε' (Except ε α) → σ → Prop} :
    Ends (attempt x) s Q ↔ Ends x s fun r t => Q (.ok r) t := by
  unfold Ends attempt
  cases x s <;> rfl

/-- On a part of the state, the ends are those of the part. -/
theorem ends_onPart {part : σ → τ} {replace : σ → τ → σ} {x : EStateM ε τ α} {s : σ}
    {Q : Except ε α → σ → Prop} :
    Ends (onPart part replace x) s Q ↔ Ends x (part s) fun r t => Q r (replace s t) := by
  unfold Ends onPart
  cases x (part s) <;> rfl

/-- A value has no failure to wrap. -/
@[simp] theorem mapError_ok (wrap : ε → ε') (a : α) :
    (Except.ok a : Except ε α).mapError wrap = .ok a := rfl

/-- A failure is wrapped. -/
@[simp] theorem mapError_error (wrap : ε → ε') (e : ε) :
    (Except.error e : Except ε α).mapError wrap = .error (wrap e) := rfl

/-- A computation with its failures wrapped ends as before, but for the failure. -/
theorem ends_adaptExcept {x : EStateM ε σ α} {wrap : ε → ε'} {s : σ}
    {Q : Except ε' α → σ → Prop} :
    Ends (x.adaptExcept wrap) s Q ↔ Ends x s fun r t => Q (r.mapError wrap) t := by
  unfold Ends EStateM.adaptExcept
  cases x s <;> rfl

end Dialogue.Effect
