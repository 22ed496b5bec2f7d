/-!
# Effects

Computations that change a state and may fail; a failure leaves the state as it was then. A
computation on a part of a state is one on the whole, one may depend on a condition, and a failure
can be taken as a value.

`Keeps f x` says that `x` leaves `f` of the state as it was, whether or not it fails. The parts of a
computation that keep `f` make up one that keeps it.
-/

namespace Dialogue.Effect

variable {ε ε' σ τ α β : Type}

/-- Fails on a condition. -/
def failIf (c : Bool) (e : ε) : EStateM ε σ Unit := if c then throw e else pure ()

/-- The value of an option, or a failure if it has none. -/
def orFail (e : ε) : Option α → EStateM ε σ α
  | some a => pure a
  | none => throw e

/-- Runs a computation on a condition. -/
def onlyIf (c : Bool) (x : EStateM ε σ Unit) : EStateM ε σ Unit := if c then x else pure ()

/-- Runs a computation and takes a failure as a value. -/
def attempt (x : EStateM ε σ α) : EStateM ε' σ (Except ε α) := fun s =>
  match x s with
  | .ok a s => .ok (.ok a) s
  | .error e s => .ok (.error e) s

/-- Runs a computation on a part of the state. -/
def onPart (part : σ → τ) (replace : σ → τ → σ) (x : EStateM ε τ α) : EStateM ε σ α := fun s =>
  match x (part s) with
  | .ok a t => .ok a (replace s t)
  | .error e t => .error e (replace s t)

/-- The state that a result goes with. -/
def left : EStateM.Result ε σ α → σ
  | .ok _ s => s
  | .error _ s => s

/-- Whether a computation leaves a view of the state as it was. -/
def Keeps (f : σ → τ) (x : EStateM ε σ α) : Prop := ∀ s, f (left (x s)) = f s

/-- What a computation does before another one that succeeds. -/
theorem bind_eq_ok {x : EStateM ε σ α} {g : α → EStateM ε σ β} {s t : σ} {b : β}
    (h : (x >>= g) s = .ok b t) : ∃ a u, x s = .ok a u ∧ g a u = .ok b t := by
  change EStateM.bind x g s = _ at h
  unfold EStateM.bind at h
  split at h
  · next a u hx => exact ⟨a, u, hx, h⟩
  · cases h

/-- What fails of two computations, one after the other. -/
theorem bind_eq_error {x : EStateM ε σ α} {g : α → EStateM ε σ β} {s t : σ} {e : ε}
    (h : (x >>= g) s = .error e t) :
    x s = .error e t ∨ ∃ a u, x s = .ok a u ∧ g a u = .error e t := by
  change EStateM.bind x g s = _ at h
  unfold EStateM.bind at h
  split at h
  · next a u hx => exact .inr ⟨a, u, hx, h⟩
  · next e' u hx =>
    cases h
    exact .inl hx

/-- What comes after a computation that gives a value is begun where that ends. -/
theorem bind_eq_of_ok {x : EStateM ε σ α} {g : α → EStateM ε σ β} {s t : σ} {a : α}
    (hx : x s = .ok a t) : (x >>= g) s = g a t := by
  change EStateM.bind x g s = _
  unfold EStateM.bind
  rw [hx]

/-- What comes after a computation that fails is skipped. -/
theorem bind_eq_of_error {x : EStateM ε σ α} {g : α → EStateM ε σ β} {s t : σ} {e : ε}
    (hx : x s = .error e t) : (x >>= g) s = .error e t := by
  change EStateM.bind x g s = _
  unfold EStateM.bind
  rw [hx]

/-- What goes on past a check passed it, and changed nothing. -/
theorem failIf_eq_ok {c : Bool} {e : ε} {s t : σ} {u : Unit}
    (h : (failIf c e : EStateM ε σ Unit) s = .ok u t) : c = false ∧ t = s := by
  cases c
  · cases h
    exact ⟨rfl, rfl⟩
  · cases h

/-- A value that is given with failures wrapped is given without that. -/
theorem adaptExcept_eq_ok {x : EStateM ε σ α} {wrap : ε → ε'} {s t : σ} {a : α}
    (h : x.adaptExcept wrap s = .ok a t) : x s = .ok a t := by
  unfold EStateM.adaptExcept at h
  split at h
  · cases h
  · next hx =>
    cases h
    exact hx

namespace Keeps

variable {f : σ → τ}

/-- A view that is kept is the same in the state that is left. -/
theorem of_ok {x : EStateM ε σ α} {s t : σ} {a : α} (hx : Keeps f x) (h : x s = .ok a t) :
    f t = f s := by
  have hs := hx s
  rwa [h] at hs

/-- Giving a value keeps every view. -/
theorem pure (a : α) : Keeps f (Pure.pure a : EStateM ε σ α) := fun _ => rfl

/-- Reading the state keeps every view. -/
theorem get : Keeps f (MonadState.get : EStateM ε σ σ) := fun _ => rfl

/-- Failing keeps every view. -/
theorem throw (e : ε) : Keeps f (MonadExcept.throw e : EStateM ε σ α) := fun _ => rfl

/-- A change of the state keeps a view that it does not show in. -/
theorem modify {g : σ → σ} (h : ∀ s, f (g s) = f s) :
    Keeps f (MonadState.modifyGet fun s => (PUnit.unit, g s) : EStateM ε σ PUnit) := h

/-- Two steps keep what both keep. -/
theorem bind {x : EStateM ε σ α} {g : α → EStateM ε σ β} (hx : Keeps f x)
    (hg : ∀ a, Keeps f (g a)) : Keeps f (x >>= g) := by
  intro s
  cases h : x s with
  | ok a t =>
    rw [bind_eq_of_ok h]
    exact (hg a t).trans (hx.of_ok h)
  | error e t =>
    have hs := hx s
    rw [h] at hs
    rw [bind_eq_of_error h]
    exact hs

/-- A check keeps every view. -/
theorem failIf (c : Bool) (e : ε) : Keeps f (failIf c e : EStateM ε σ Unit) := by
  cases c
  · exact .pure _
  · exact .throw _

/-- Failing for want of a value keeps every view. -/
theorem orFail (e : ε) (o : Option α) : Keeps f (orFail e o : EStateM ε σ α) := by
  cases o
  · exact .throw _
  · exact .pure _

/-- A step that is taken only sometimes keeps what it keeps. -/
theorem onlyIf (c : Bool) {x : EStateM ε σ Unit} (hx : Keeps f x) : Keeps f (onlyIf c x) := by
  cases c
  · exact .pure _
  · exact hx

/-- A choice keeps what both branches keep. -/
theorem ite {c : Prop} [Decidable c] {x y : EStateM ε σ α} (hx : Keeps f x) (hy : Keeps f y) :
    Keeps f (if c then x else y) := by
  split
  · exact hx
  · exact hy

/-- A computation with its failures wrapped keeps what it keeps. -/
theorem adaptExcept {x : EStateM ε σ α} (wrap : ε → ε') (hx : Keeps f x) :
    Keeps f (x.adaptExcept wrap) := by
  intro s
  have hs := hx s
  unfold EStateM.adaptExcept
  cases h : x s <;> rw [h] at hs <;> exact hs

/-- An attempt keeps what is kept by what it attempts. -/
theorem attempt {x : EStateM ε σ α} (hx : Keeps f x) :
    Keeps f (attempt x : EStateM ε' σ (Except ε α)) := by
  intro s
  have hs := hx s
  unfold Effect.attempt
  cases h : x s <;> rw [h] at hs <;> exact hs

/-- Work on a part of the state keeps a view if it keeps what that shows of the part. -/
theorem onPart {υ ρ : Type} {part : σ → υ} {replace : σ → υ → σ} {g : υ → ρ} {x : EStateM ε υ α}
    (hx : Keeps g x) (hr : ∀ s t, g t = g (part s) → f (replace s t) = f s) :
    Keeps f (onPart part replace x) := by
  intro s
  have hs := hx (part s)
  unfold Effect.onPart
  cases h : x (part s) <;> rw [h] at hs <;> exact hr _ _ hs

/-- Steps for the entries of a list keep what each of them keeps. -/
theorem forM {l : List α} {g : α → EStateM ε σ PUnit} (hg : ∀ a ∈ l, Keeps f (g a)) :
    Keeps f (l.forM g) := by
  induction l with
  | nil => exact Keeps.pure _
  | cons a l ih =>
    exact Keeps.bind (hg a List.mem_cons_self) fun _ =>
      ih fun b hb => hg b (List.mem_cons_of_mem _ hb)

/-- Steps that give a value for each entry of a list keep what each of them keeps. -/
theorem mapM {l : List α} {g : α → EStateM ε σ β} (hg : ∀ a ∈ l, Keeps f (g a)) :
    Keeps f (l.mapM g) := by
  induction l with
  | nil => exact Keeps.pure _
  | cons a l ih =>
    rw [List.mapM_cons]
    exact Keeps.bind (hg a List.mem_cons_self) fun _ =>
      Keeps.bind (ih fun b hb => hg b (List.mem_cons_of_mem _ hb)) fun _ => Keeps.pure _

end Keeps

end Dialogue.Effect
