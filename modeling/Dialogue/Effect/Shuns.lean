import Dialogue.Effect.Ends
/-!
# Computations that never fail in some ways

`Shuns P x` says that `x`, in whatever state it is begun, does not fail with an error of which `P`
holds. A computation that is put together from such ones is one itself, and one whose errors are
wrapped fails in no way but the wrapped ones.
-/

namespace Dialogue.Effect

variable {ε ε' σ τ α β : Type}

/-- Whether a computation never fails in one of some ways. -/
def Shuns (P : ε → Prop) (x : EStateM ε σ α) : Prop :=
  ∀ s, Ends x s fun r _ => ∀ e, P e → r ≠ .error e

namespace Shuns

variable {P : ε → Prop} {x : EStateM ε σ α}

/-- Giving a value shuns every failure. -/
theorem pure (a : α) : Shuns P (Pure.pure a : EStateM ε σ α) := fun _ => nofun

/-- Reading the state shuns every failure. -/
theorem get : Shuns P (MonadState.get : EStateM ε σ σ) := fun _ => nofun

/-- Changing the state shuns every failure. -/
theorem modify (f : σ → σ) :
    Shuns P (MonadState.modifyGet fun s => (PUnit.unit, f s) : EStateM ε σ PUnit) := fun _ => nofun

/-- Two steps shun what both shun. -/
theorem bind {g : α → EStateM ε σ β} (hx : Shuns P x) (hg : ∀ a, Shuns P (g a)) :
    Shuns P (x >>= g) := by
  intro s
  rw [ends_bind]
  apply (hx s).mono
  intro r t hr
  cases r with
  | ok a => exact hg a t
  | error e => exact fun e' he' h => hr e' he' (congrArg Except.error (Except.error.inj h))

/-- A step that is taken only sometimes shuns what it shuns. -/
theorem onlyIf (c : Bool) {x : EStateM ε σ Unit} (hx : Shuns P x) : Shuns P (onlyIf c x) := by
  cases c
  · exact .pure _
  · exact hx

/-- A choice shuns what both branches shun. -/
theorem ite {c : Prop} [Decidable c] {y : EStateM ε σ α} (hx : Shuns P x) (hy : Shuns P y) :
    Shuns P (if c then x else y) := by
  split
  · exact hx
  · exact hy

/-- A check shuns all failures but its own. -/
theorem failIf (c : Bool) {e : ε} (he : ¬ P e) : Shuns P (failIf c e : EStateM ε σ Unit) := by
  intro s
  rw [ends_failIf]
  split
  · rintro _ he' ⟨⟩
    exact he he'
  · exact nofun

/-- Steps for the entries of a list shun what each of them shuns. -/
theorem forM {l : List α} {g : α → EStateM ε σ PUnit} (hg : ∀ a, Shuns P (g a)) :
    Shuns P (l.forM g) := by
  induction l with
  | nil => exact Shuns.pure _
  | cons a l ih => exact Shuns.bind (hg a) fun _ => ih

/-- A computation shuns what none of its failures is wrapped to. -/
theorem adaptExcept {wrap : ε' → ε} (h : ∀ e, ¬ P (wrap e)) (x : EStateM ε' σ α) :
    Shuns P (x.adaptExcept wrap) := by
  intro s
  rw [ends_adaptExcept, ends_iff_outcome]
  cases outcome (x s) with
  | ok a => exact nofun
  | error e =>
    rintro _ he ⟨⟩
    exact h e he

end Shuns

end Dialogue.Effect
