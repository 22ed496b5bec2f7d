import Dialogue.Effect.Ends
/-!
# Computations that respect a relation

A computation meets in two states if it gives the same in both and leaves related states, by one
relation where it gives a value and by another where it fails. It respects a relation if it meets in
all states that are so related, and leaves them so. What it depends on is the same in such states.
-/

namespace Dialogue.Effect

variable {ε ε' σ τ α β : Type}

/-- Whether a computation gives the same in two states, and leaves them related, by `S` if that is a
value. -/
def Meets (R S : σ → σ → Prop) (x : EStateM ε σ α) (s t : σ) : Prop :=
  match x s, x t with
  | .ok a s', .ok b t' => a = b ∧ S s' t'
  | .error e s', .error e' t' => e = e' ∧ R s' t'
  | .ok _ _, .error _ _ => False
  | .error _ _, .ok _ _ => False

namespace Meets

variable {R S S' : σ → σ → Prop} {x : EStateM ε σ α} {s t : σ}

/-- Two runs that give the same value and leave related states meet. -/
theorem ok_ok {s' t' : σ} {a : α} (hs : x s = .ok a s') (ht : x t = .ok a t') (h : S s' t') :
    Meets R S x s t := by
  unfold Meets
  rw [hs, ht]
  exact ⟨rfl, h⟩

private theorem error_error {s' t' : σ} {e : ε} (hs : x s = .error e s') (ht : x t = .error e t')
    (h : R s' t') : Meets R S x s t := by
  unfold Meets
  rw [hs, ht]
  exact ⟨rfl, h⟩

/-- Both give a value, or both fail. -/
theorem cases (h : Meets R S x s t) :
    (∃ a s' t', x s = .ok a s' ∧ x t = .ok a t' ∧ S s' t') ∨
      ∃ e s' t', x s = .error e s' ∧ x t = .error e t' ∧ R s' t' := by
  unfold Meets at h
  cases hs : x s <;> cases ht : x t <;> rw [hs, ht] at h
  · obtain ⟨rfl, h⟩ := h
    exact .inl ⟨_, _, _, rfl, rfl, h⟩
  · cases h
  · cases h
  · obtain ⟨rfl, h⟩ := h
    exact .inr ⟨_, _, _, rfl, rfl, h⟩

/-- Runs that meet give the same. -/
theorem outcome_eq (h : Meets R S x s t) : outcome (x s) = outcome (x t) := by
  rcases h.cases with ⟨a, s', t', hs, ht, -⟩ | ⟨e, s', t', hs, ht, -⟩ <;> rw [hs, ht] <;> rfl

/-- What holds where a value is given and where not holds of the states that are left. -/
theorem left {P : σ → σ → Prop} (h : Meets R S x s t) (hR : ∀ s t, R s t → P s t)
    (hS : ∀ s t, S s t → P s t) : P (left (x s)) (left (x t)) := by
  rcases h.cases with ⟨a, s', t', hs, ht, h⟩ | ⟨e, s', t', hs, ht, h⟩
  · rw [hs, ht]
    exact hS _ _ h
  · rw [hs, ht]
    exact hR _ _ h

/-- Where a value is given in the one state, it is given in the other one. -/
theorem exists_ok {s' : σ} {a : α} (h : Meets R S x s t) (hs : x s = .ok a s') :
    ∃ t', x t = .ok a t' ∧ S s' t' := by
  rcases h.cases with ⟨b, u, t', hu, ht, h⟩ | ⟨e, u, t', hu, -, -⟩ <;> rw [hs] at hu <;> cases hu
  exact ⟨t', ht, h⟩

/-- Of where a value is given more can be said, by how the states came about. -/
theorem mono_ok (h : Meets R S x s t)
    (hS : ∀ a s' t', x s = .ok a s' → x t = .ok a t' → S s' t' → S' s' t') :
    Meets R S' x s t := by
  rcases h.cases with ⟨a, s', t', hs, ht, h⟩ | ⟨e, s', t', hs, ht, h⟩
  · exact .ok_ok hs ht (hS a s' t' hs ht h)
  · exact .error_error hs ht h

/-- What comes after a value may depend on how the states came about. -/
theorem bind {g : α → EStateM ε σ β} (h : Meets R S x s t)
    (hg : ∀ a s' t', x s = .ok a s' → x t = .ok a t' → S s' t' → Meets R S' (g a) s' t') :
    Meets R S' (x >>= g) s t := by
  rcases h.cases with ⟨a, s', t', hs, ht, h⟩ | ⟨e, s', t', hs, ht, h⟩
  · have hmeets := hg a s' t' hs ht h
    unfold Meets at hmeets ⊢
    rwa [bind_eq_of_ok hs, bind_eq_of_ok ht]
  · exact error_error (bind_eq_of_error hs) (bind_eq_of_error ht) h

/-- What reads the state is the same computation in both. -/
theorem reads {g : σ → EStateM ε σ α} (hg : g s = g t) (h : Meets R S (g s) s t) :
    Meets R S (MonadState.get >>= g) s t := by
  have ht : (MonadState.get >>= g) t = g s t := congrFun hg.symm t
  unfold Meets at h ⊢
  rw [ht]
  exact h

end Meets

/-- Whether a computation gives the same in related states, and leaves them related. -/
def Respects (R : σ → σ → Prop) (x : EStateM ε σ α) : Prop := ∀ s t, R s t → Meets R R x s t

namespace Respects

variable {R : σ → σ → Prop} {x : EStateM ε σ α}

/-- Giving a value respects every relation. -/
theorem pure (a : α) : Respects R (Pure.pure a : EStateM ε σ α) := fun _ _ h => ⟨rfl, h⟩

/-- Failing respects every relation. -/
theorem throw (e : ε) : Respects R (MonadExcept.throw e : EStateM ε σ α) := fun _ _ h => ⟨rfl, h⟩

/-- A computation that does nothing in related states but give a value respects the relation. -/
theorem of_idle {P : σ → Prop} (a : α) (hR : ∀ s t, R s t → P s ∧ P t)
    (hx : ∀ s, P s → Ends x s fun r t => r = .ok a ∧ t = s) : Respects R x := by
  have hidle (s : σ) (hs : P s) : x s = .ok a s := by
    obtain ⟨b, t, hok, rfl, rfl⟩ := Ends.exists_eq_ok (P := fun b t => b = a ∧ t = s)
      ((hx s hs).mono fun _ _ h => ⟨a, h.1, rfl, h.2⟩)
    exact hok
  exact fun s t hst => .ok_ok (hidle s (hR s t hst).1) (hidle t (hR s t hst).2) hst

/-- A change of the state that gives a value respects a relation that it preserves, with the same
value. -/
theorem modifyGet {f : σ → α × σ} (h : ∀ s t, R s t → (f s).1 = (f t).1 ∧ R (f s).2 (f t).2) :
    Respects R (MonadState.modifyGet f : EStateM ε σ α) := h

/-- A change of the state respects a relation that it preserves. -/
theorem modify {f : σ → σ} (h : ∀ s t, R s t → R (f s) (f t)) :
    Respects R (MonadState.modifyGet fun s => (PUnit.unit, f s) : EStateM ε σ PUnit) :=
  fun s t hst => ⟨rfl, h s t hst⟩

/-- Two steps respect what both respect. -/
theorem bind {g : α → EStateM ε σ β} (hx : Respects R x) (hg : ∀ a, Respects R (g a)) :
    Respects R (x >>= g) := fun s t hst =>
  (hx s t hst).bind fun a s' t' _ _ h => hg a s' t' h

/-- A computation that reads what related states share respects the relation. -/
theorem reads {g : σ → EStateM ε σ α} (hR : ∀ s t, R s t → g s = g t)
    (hg : ∀ s, Respects R (g s)) : Respects R (MonadState.get >>= g) := fun s t hst =>
  .reads (hR s t hst) (hg s s t hst)

/-- A choice respects what both branches respect. -/
theorem ite {c : Prop} [Decidable c] {y : EStateM ε σ α} (hx : Respects R x)
    (hy : Respects R y) : Respects R (if c then x else y) := by
  split
  · exact hx
  · exact hy

/-- A check respects every relation. -/
theorem failIf (c : Bool) (e : ε) : Respects R (failIf c e : EStateM ε σ Unit) := by
  cases c
  · exact .pure _
  · exact .throw _

/-- A step that is taken only sometimes respects what it respects. -/
theorem onlyIf (c : Bool) {x : EStateM ε σ Unit} (hx : Respects R x) :
    Respects R (onlyIf c x) := by
  cases c
  · exact .pure _
  · exact hx

/-- An attempt respects what is respected by what it attempts. -/
theorem attempt (hx : Respects R x) :
    Respects R (attempt x : EStateM ε' σ (Except ε α)) := fun s t hst => by
  unfold Meets Effect.attempt
  rcases (hx s t hst).cases with ⟨a, s', t', hs, ht, h⟩ | ⟨e, s', t', hs, ht, h⟩ <;>
    rw [hs, ht] <;> exact ⟨rfl, h⟩

/-- A computation with its failures wrapped respects what it respects. -/
theorem adaptExcept (wrap : ε → ε') (hx : Respects R x) : Respects R (x.adaptExcept wrap) :=
  fun s t hst => by
    unfold Meets EStateM.adaptExcept
    rcases (hx s t hst).cases with ⟨a, s', t', hs, ht, h⟩ | ⟨e, s', t', hs, ht, h⟩ <;>
      rw [hs, ht] <;> exact ⟨rfl, h⟩

/-- On a part of the state, a relation is respected if the computation respects one on the part. -/
theorem onPart {part : σ → τ} {replace : σ → τ → σ} {Q : τ → τ → Prop} {x : EStateM ε τ α}
    (hx : Respects Q x) (hQ : ∀ s t, R s t → Q (part s) (part t))
    (hR : ∀ s t u v, R s t → Q u v → R (replace s u) (replace t v)) :
    Respects R (onPart part replace x) := fun s t hst => by
  unfold Meets Effect.onPart
  rcases (hx _ _ (hQ s t hst)).cases with ⟨a, u, v, hs, ht, h⟩ | ⟨e, u, v, hs, ht, h⟩ <;>
    rw [hs, ht] <;> exact ⟨rfl, hR s t u v hst h⟩

/-- Steps for the entries of a list respect what each of them respects. -/
theorem forM {l : List α} {g : α → EStateM ε σ PUnit} (hg : ∀ a ∈ l, Respects R (g a)) :
    Respects R (l.forM g) := by
  induction l with
  | nil => exact Respects.pure _
  | cons a l ih =>
    exact Respects.bind (hg a List.mem_cons_self) fun _ =>
      ih fun b hb => hg b (List.mem_cons_of_mem _ hb)

/-- Steps that give a value for each entry of a list respect what each of them respects. -/
theorem mapM {l : List α} {g : α → EStateM ε σ β} (hg : ∀ a ∈ l, Respects R (g a)) :
    Respects R (l.mapM g) := by
  induction l with
  | nil => exact Respects.pure _
  | cons a l ih =>
    rw [List.mapM_cons]
    exact Respects.bind (hg a List.mem_cons_self) fun _ =>
      Respects.bind (ih fun b hb => hg b (List.mem_cons_of_mem _ hb)) fun _ => Respects.pure _

end Respects

end Dialogue.Effect
