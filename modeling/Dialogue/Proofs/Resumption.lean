import Dialogue.Proofs.RedactedSessions
/-!
# Computations that can be begun again

A computation is struck by a failure to come, or it comes to what it comes to where none is to come.
One that is struck has fewer failures to come, and can be begun again: where no more are to come, it
comes to the same then. How many failures are to come is the rank that a struck computation falls
on.
-/

namespace Dialogue

open Effect

namespace Effect

variable {ε ε' σ τ ρ κ α β : Type}

/-- Whether computations come to the same from states, as far as `p` shows it. -/
def SameEnd (p : σ → ρ) (x y : EStateM ε σ α) (s t : σ) : Prop :=
  outcome (x s) = outcome (y t) ∧ p (left (x s)) = p (left (y t))

/-- Whether a computation from `s`, with failures to come that `c` counts, comes to what it comes to
from `t`, or is struck by one of them as `E` says, so that another computation comes to that, from
every state that looks like the one that was left and has no failures to come. -/
inductive Resumes (p : σ → ρ) (c : σ → Nat) (E : ε → σ → Prop) (x y : EStateM ε σ α) (s t : σ) :
    Prop
  /-- It comes to the same. -/
  | same (h : SameEnd p x x s t) (hle : c (left (x s)) ≤ c s)
  /-- It is struck. -/
  | struck {e : ε} {s' : σ} (hx : x s = .error e s') (he : E e s') (hlt : c s' < c s)
      (hagain : ∀ u, c u = 0 → p u = p s' → SameEnd p y x u t)

/-- It does not matter which of two ends is compared with the other. -/
theorem SameEnd.symm {p : σ → ρ} {x y : EStateM ε σ α} {s t : σ} (h : SameEnd p x y s t) :
    SameEnd p y x t s := ⟨h.1.symm, h.2.symm⟩

/-- What ends like one that ends like a third ends like the third. -/
theorem SameEnd.trans {p : σ → ρ} {x y z : EStateM ε σ α} {s t u : σ} (h : SameEnd p x y s t)
    (h' : SameEnd p y z t u) : SameEnd p x z s u := ⟨h.1.trans h'.1, h.2.trans h'.2⟩

/-- Computations that come to the same result end alike. -/
theorem SameEnd.of_eq {p : σ → ρ} {x y : EStateM ε σ α} {s t : σ} (h : x s = y t) :
    SameEnd p x y s t := by
  rw [SameEnd, h]
  exact ⟨rfl, rfl⟩

/-- Where the one gives a value the other gives it too. -/
theorem SameEnd.exists_ok {p : σ → ρ} {x y : EStateM ε σ α} {s t s' : σ} {a : α}
    (h : SameEnd p x y s t) (hx : x s = .ok a s') : ∃ t', y t = .ok a t' ∧ p s' = p t' := by
  obtain ⟨ho, hl⟩ := h
  rw [hx] at ho hl
  cases hy : y t with
  | ok b t' =>
    rw [hy] at ho hl
    cases ho
    exact ⟨t', rfl, hl⟩
  | error e t' =>
    rw [hy] at ho
    cases ho

/-- Where the one fails the other fails too. -/
theorem SameEnd.exists_error {p : σ → ρ} {x y : EStateM ε σ α} {s t s' : σ} {e : ε}
    (h : SameEnd p x y s t) (hx : x s = .error e s') : ∃ t', y t = .error e t' ∧ p s' = p t' := by
  obtain ⟨ho, hl⟩ := h
  rw [hx] at ho hl
  cases hy : y t with
  | ok b t' =>
    rw [hy] at ho
    cases ho
  | error e' t' =>
    rw [hy] at ho hl
    cases ho
    exact ⟨t', rfl, hl⟩

/-- What comes after computations that come to the same comes to the same. -/
theorem SameEnd.bind {p : σ → ρ} {x y : EStateM ε σ α} {g h : α → EStateM ε σ β} {s t : σ}
    (hxy : SameEnd p x y s t)
    (hg : ∀ a s' t', x s = .ok a s' → y t = .ok a t' → p s' = p t' →
      SameEnd p (g a) (h a) s' t') :
    SameEnd p (x >>= g) (y >>= h) s t := by
  cases hx : x s with
  | ok a s' =>
    obtain ⟨t', hy, hp⟩ := hxy.exists_ok hx
    rw [SameEnd, bind_eq_of_ok hx, bind_eq_of_ok hy]
    exact hg a s' t' hx hy hp
  | error e s' =>
    obtain ⟨t', hy, hp⟩ := hxy.exists_error hx
    rw [SameEnd, bind_eq_of_error hx, bind_eq_of_error hy]
    exact ⟨rfl, hp⟩

/-- What a list of computations gives can be left. -/
theorem discard_mapM (l : List τ) (x : τ → EStateM ε σ α) (f : List α → β) :
    discard (do return f (← l.mapM x)) = (l.forM fun a => discard (x a) : EStateM ε σ Unit) := by
  change (l.mapM x >>= fun b => pure (f b)) >>= (fun _ => pure ()) = _
  simp only [bind_assoc, pure_bind]
  induction l with
  | nil => rfl
  | cons a l ih =>
    change _ = (x a >>= fun _ => pure ()) >>= fun _ => l.forM fun a => discard (x a)
    rw [List.mapM_cons, ← ih]
    simp only [bind_assoc, pure_bind]

namespace Resumes

variable {p : σ → ρ} {c : σ → Nat} {E E' : ε → σ → Prop} {x y : EStateM ε σ α} {s t : σ}

/-- Where no failures are to come nothing is struck. -/
theorem sameEnd_of_eq_zero (h : Resumes p c E x y s t) (hs : c s = 0) : SameEnd p x x s t := by
  cases h with
  | same h => exact h
  | struck _ _ hlt => omega

/-- No more failures are to come after a computation that is struck or not. -/
theorem le (h : Resumes p c E x y s t) : c (left (x s)) ≤ c s := by
  cases h with
  | same _ hle => exact hle
  | struck hx _ hlt =>
    rw [hx]
    exact Nat.le_of_lt hlt

/-- A computation that is in step with itself is not struck. -/
theorem of_inStep {k : σ → κ} (h : InStep p k x x) (hc : Keeps c x) (hst : p s = p t) :
    Resumes p c E x y s t := .same (h.same s t hst) (Nat.le_of_eq (hc s))

/-- Less can be said of where a computation is struck. -/
theorem mono (h : Resumes p c E x y s t) (hE : ∀ e s', E e s' → E' e s') :
    Resumes p c E' x y s t := by
  cases h with
  | same h hle => exact .same h hle
  | struck hx he hlt hagain => exact .struck hx (hE _ _ he) hlt hagain

/-- Another computation can be begun in place of the one that is begun again, if it comes to the
same where the first was struck. -/
theorem again {z : EStateM ε σ α} (h : Resumes p c E x y s t)
    (hE : ∀ e s', E e s' → E' e s')
    (hz : ∀ e s', E e s' → ∀ u, c u = 0 → p u = p s' → SameEnd p z y u u) :
    Resumes p c E' x z s t := by
  cases h with
  | same h hle => exact .same h hle
  | struck hx he hlt hagain =>
    exact .struck hx (hE _ _ he) hlt fun u hu hp => (hz _ _ he u hu hp).trans (hagain u hu hp)

/-- Another computation that does the same, from where no more failures are to come, is struck in
the same way. -/
theorem congr {z : EStateM ε σ α} {s' t' : σ} (h : Resumes p c E x y s' t') (hs : z s = x s')
    (ht : z t = x t') (hle : c s' ≤ c s) : Resumes p c E z y s t := by
  cases h with
  | same h hle' =>
    refine .same ?_ ?_
    · rw [SameEnd, hs, ht]
      exact h
    · rw [hs]
      exact Nat.le_trans hle' hle
  | struck hx he hlt hagain =>
    exact .struck (hs.trans hx) he (Nat.lt_of_lt_of_le hlt hle) fun u hu hp =>
      (hagain u hu hp).trans (.of_eq ht.symm)

/-- A computation that depends on the state is struck as it is with the state that it finds. -/
theorem reads {g : σ → EStateM ε σ α} (h : Resumes p c E (g s) y s t) (hg : g t = g s) :
    Resumes p c E (get >>= g) y s t :=
  h.congr rfl (congrFun hg t) (Nat.le_refl _)

/-- A computation whose first part comes to the same is struck after that. -/
theorem bind_of_sameEnd {g : α → EStateM ε σ β} {y : EStateM ε σ β} (h : SameEnd p x x s t)
    (hle : c (left (x s)) ≤ c s)
    (hg : ∀ a s' t', x s = .ok a s' → x t = .ok a t' → p s' = p t' →
      Resumes p c E (g a) y s' t') :
    Resumes p c E (x >>= g) y s t := by
  cases hxs : x s with
  | error e s' =>
    rw [hxs] at hle
    refine .same (h.bind fun a s' t' hs _ _ => ?_) ?_
    · cases hxs.symm.trans hs
    · rwa [bind_eq_of_error hxs]
  | ok a s' =>
    obtain ⟨t', hxt, hp⟩ := h.exists_ok hxs
    rw [hxs] at hle
    cases hg a s' t' hxs hxt hp with
    | same hga hle' =>
      refine .same ?_ ?_
      · rw [SameEnd, bind_eq_of_ok hxs, bind_eq_of_ok hxt]
        exact hga
      · rw [bind_eq_of_ok hxs]
        exact Nat.le_trans hle' hle
    | struck hgs he hlt hagain =>
      refine .struck ((bind_eq_of_ok hxs).trans hgs) he (Nat.lt_of_lt_of_le hlt hle)
        fun u hu hp => ?_
      exact (hagain u hu hp).trans (.of_eq (bind_eq_of_ok hxt).symm)

/-- A computation is struck in its first part or after that. -/
theorem bind {g : α → EStateM ε σ β} {y' : EStateM ε σ β}
    (hx : Resumes p c E x y s t) (hE : ∀ e s', E e s' → E' e s')
    (hstruck : ∀ e s', x s = .error e s' → E e s' → ∀ u, c u = 0 → p u = p s' →
      SameEnd p y x u t → SameEnd p y' (x >>= g) u t)
    (hg : ∀ a s' t', x s = .ok a s' → x t = .ok a t' → p s' = p t' →
      Resumes p c E' (g a) y' s' t') :
    Resumes p c E' (x >>= g) y' s t := by
  cases hx with
  | same h hle => exact bind_of_sameEnd h hle hg
  | struck hxs he hlt hagain =>
    exact .struck (bind_eq_of_error hxs) (hE _ _ he) hlt fun u hu hp =>
      hstruck _ _ hxs he u hu hp (hagain u hu hp)

/-- What is in step with itself can come after. -/
theorem bind_inStep {k : α → σ → κ} {g : α → EStateM ε σ β} (hx : Resumes p c E x y s t)
    (hg : ∀ a, InStep p (k a) (g a) (g a)) (hc : ∀ a, Keeps c (g a)) :
    Resumes p c E (x >>= g) (y >>= g) s t :=
  hx.bind (fun _ _ h => h)
    (fun _ _ _ _ _ _ _ h => h.bind fun a s' t' _ _ hp => (hg a).same s' t' hp)
    fun a _ _ _ _ hp => .of_inStep (hg a) (hc a) hp

/-- What is in step with itself can come before, and need not be begun again. -/
theorem inStep_bind {k : σ → κ} {g : α → EStateM ε σ β} {y : EStateM ε σ β}
    (hx : InStep p k x x) (hc : Keeps c x) (hst : p s = p t)
    (hg : ∀ a s' t', x s = .ok a s' → x t = .ok a t' → p s' = p t' →
      Resumes p c E (g a) y s' t') :
    Resumes p c E (x >>= g) y s t :=
  bind_of_sameEnd (hx.same s t hst) (Nat.le_of_eq (hc s)) hg

/-- On a part of the state, a computation is struck as it is on the part. -/
theorem onPart {υ : Type} {part : σ → τ} {replace : σ → τ → σ} {q : τ → υ} {d : τ → Nat}
    {E : ε → τ → Prop} {x y : EStateM ε τ α} (h : Resumes q d E x y (part s) (part t))
    (hst : p s = p t) (hE : ∀ e w, E e w → E' e (replace s w))
    (hq : ∀ s t, p s = p t → q (part s) = q (part t))
    (hp : ∀ s t u v, p s = p t → q u = q v → p (replace s u) = p (replace t v))
    (hc : ∀ s, c s = d (part s)) (hpart : ∀ s u, part (replace s u) = u)
    (hreplace : ∀ s u v, replace (replace s u) v = replace s v) :
    Resumes p c E' (onPart part replace x) (Effect.onPart part replace y) s t := by
  have houtcome (x : EStateM ε τ α) (s : σ) :
      outcome (Effect.onPart part replace x s) = outcome (x (part s)) := by
    unfold Effect.onPart
    cases x (part s) <;> rfl
  have hleft (x : EStateM ε τ α) (s : σ) :
      left (Effect.onPart part replace x s) = replace s (left (x (part s))) := by
    unfold Effect.onPart
    cases x (part s) <;> rfl
  cases h with
  | same h hle =>
    refine .same ⟨?_, ?_⟩ ?_
    · rw [houtcome, houtcome, h.1]
    · rw [hleft, hleft]
      exact hp _ _ _ _ hst h.2
    · rw [hleft, hc, hc, hpart]
      exact hle
  | @struck e w hx he hlt hagain =>
    have hxs : Effect.onPart part replace x s = .error e (replace s w) := by
      unfold Effect.onPart
      rw [hx]
    refine .struck hxs (hE _ _ he) ?_ fun u hu hpu => ?_
    · rw [hc, hc, hpart]
      exact hlt
    · have hq' := hq _ _ hpu
      rw [hpart] at hq'
      obtain ⟨ho, hl⟩ := hagain (part u) ((hc u).symm.trans hu) hq'
      refine ⟨?_, ?_⟩
      · rw [houtcome, houtcome, ho]
      · rw [hleft, hleft, hp _ _ _ _ hpu hl, hreplace]
        exact hp _ _ _ _ hst rfl

/-- A computation that is struck is so with its failures wrapped. -/
theorem adaptExcept (wrap : ε → ε') (h : Resumes p c E x y s t) :
    Resumes p c (fun e s' => ∃ cause, E cause s' ∧ e = wrap cause) (x.adaptExcept wrap)
      (y.adaptExcept wrap) s t := by
  have houtcome (x : EStateM ε σ α) (s : σ) :
      outcome (x.adaptExcept wrap s) = (outcome (x s)).mapError wrap := by
    unfold EStateM.adaptExcept
    cases x s <;> rfl
  have hleft (x : EStateM ε σ α) (s : σ) : left (x.adaptExcept wrap s) = left (x s) := by
    unfold EStateM.adaptExcept
    cases x s <;> rfl
  have hsame {x y : EStateM ε σ α} {s t : σ} (h : SameEnd p x y s t) :
      SameEnd p (x.adaptExcept wrap) (y.adaptExcept wrap) s t := by
    rw [SameEnd, houtcome, houtcome, hleft, hleft, h.1]
    exact ⟨rfl, h.2⟩
  cases h with
  | same h hle =>
    refine .same (hsame h) ?_
    rw [hleft]
    exact hle
  | @struck e s' hx he hlt hagain =>
    refine .struck ?_ ⟨e, he, rfl⟩ hlt fun u hu hp => hsame (hagain u hu hp)
    unfold EStateM.adaptExcept
    rw [hx]

end Resumes

end Effect

end Dialogue
