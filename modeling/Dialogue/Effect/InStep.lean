import Dialogue.Effect.Ends
/-!
# Computations in step

Two computations are in step as far as a view of the state shows it: begun in states that look the
same they give the same, and leave states that look the same. What they do besides does not show; a
second view says what of that they leave as it was. A computation in step with itself does not let
through what its view hides.
-/

namespace Dialogue.Effect

variable {ε ε' σ τ ρ κ κ' ρ' α β : Type}

/-- Whether two computations are in step as far as `p` shows the state, and keep `k` of it. -/
structure InStep (p : σ → ρ) (k : σ → κ) (x y : EStateM ε σ α) : Prop where
  /-- From states that look the same they go on to states that look the same. -/
  same : ∀ s t, p s = p t → outcome (x s) = outcome (y t) ∧ p (left (x s)) = p (left (y t))
  /-- The one keeps its part. -/
  keeps_left : Keeps k x
  /-- The other keeps its part. -/
  keeps_right : Keeps k y

namespace InStep

variable {p : σ → ρ} {k : σ → κ} {x y : EStateM ε σ α}

/-- Computations in step give the same. -/
theorem outcome_eq (h : InStep p k x y) {s t : σ} (hst : p s = p t) :
    outcome (x s) = outcome (y t) := (h.same s t hst).1

/-- Computations in step leave the same, as far as it shows. -/
theorem left_eq (h : InStep p k x y) {s t : σ} (hst : p s = p t) :
    p (left (x s)) = p (left (y t)) := (h.same s t hst).2

/-- Where the one gives a value the other gives it too. -/
theorem exists_ok (h : InStep p k x y) {s t s' : σ} {a : α} (hst : p s = p t)
    (hx : x s = .ok a s') : ∃ t', y t = .ok a t' ∧ p s' = p t' := by
  obtain ⟨ho, hl⟩ := h.same s t hst
  rw [hx] at ho hl
  cases hy : y t with
  | ok b t' =>
    rw [hy] at ho hl
    cases ho
    exact ⟨t', rfl, hl⟩
  | error e t' =>
    rw [hy] at ho
    cases ho

/-- Where the one fails the other fails too. -/
theorem exists_error (h : InStep p k x y) {s t s' : σ} {e : ε} (hst : p s = p t)
    (hx : x s = .error e s') : ∃ t', y t = .error e t' ∧ p s' = p t' := by
  obtain ⟨ho, hl⟩ := h.same s t hst
  rw [hx] at ho hl
  cases hy : y t with
  | ok b t' =>
    rw [hy] at ho
    cases ho
  | error e' t' =>
    rw [hy] at ho hl
    cases ho
    exact ⟨t', rfl, hl⟩

/-- Less can be said of what is kept. -/
theorem mono (h : InStep p k x y) (f : κ → κ') : InStep p (fun s => f (k s)) x y where
  same := h.same
  keeps_left s := congrArg f (h.keeps_left s)
  keeps_right s := congrArg f (h.keeps_right s)

/-- Two computations that give one value and do nothing that shows are in step. -/
theorem of_keeps (a : α) (hx : ∀ s, outcome (x s) = .ok a) (hy : ∀ s, outcome (y s) = .ok a)
    (hpx : Keeps p x) (hpy : Keeps p y) : InStep p (fun _ => ()) x y where
  same s t h := by
    refine ⟨(hx s).trans (hy t).symm, ?_⟩
    rw [hpx s, hpy t, h]
  keeps_left _ := rfl
  keeps_right _ := rfl

/-- Giving a value is in step with itself. -/
theorem pure (a : α) : InStep p k (Pure.pure a : EStateM ε σ α) (Pure.pure a) :=
  ⟨fun _ _ h => ⟨rfl, h⟩, .pure a, .pure a⟩

/-- Failing is in step with itself. -/
theorem throw (e : ε) :
    InStep p k (MonadExcept.throw e : EStateM ε σ α) (MonadExcept.throw e) :=
  ⟨fun _ _ h => ⟨rfl, h⟩, .throw e, .throw e⟩

/-- Changes are in step if they show as the same change. -/
theorem modify {f g : σ → σ} (F : ρ → ρ) (hf : ∀ s, p (f s) = F (p s))
    (hg : ∀ s, p (g s) = F (p s)) (hkf : ∀ s, k (f s) = k s) (hkg : ∀ s, k (g s) = k s) :
    InStep p k (MonadState.modifyGet fun s => (PUnit.unit, f s) : EStateM ε σ PUnit)
      (MonadState.modifyGet fun s => (PUnit.unit, g s)) where
  same s t h := ⟨rfl, by
    change p (f s) = p (g t)
    rw [hf, hg, h]⟩
  keeps_left := .modify hkf
  keeps_right := .modify hkg

/-- A change that only concerns what shows is in step with itself. -/
theorem change {q : σ → σ} {f : σ → σ} (hf : ∀ s, q (f s) = f (q s)) (hk : ∀ s, k (f s) = k s) :
    InStep q k (MonadState.modifyGet fun s => (PUnit.unit, f s) : EStateM ε σ PUnit)
      (MonadState.modifyGet fun s => (PUnit.unit, f s)) :=
  .modify f hf hf hk hk

/-- A change that gives something is in step with itself if both only concern what shows. -/
theorem modifyGet {q : σ → σ} {f : σ → α × σ} (hf : ∀ s, f (q s) = ((f s).1, q (f s).2))
    (hk : ∀ s, k (f s).2 = k s) :
    InStep q k (MonadState.modifyGet f : EStateM ε σ α) (MonadState.modifyGet f) where
  same s t h := by
    have hst := congrArg f h
    rw [hf, hf, Prod.mk.injEq] at hst
    exact ⟨congrArg Except.ok hst.1, hst.2⟩
  keeps_left := hk
  keeps_right := hk

/-- Two steps are in step with two others if each is with its counterpart. -/
theorem bind {g h : α → EStateM ε σ β} (hx : InStep p k x y) (hg : ∀ a, InStep p k (g a) (h a)) :
    InStep p k (x >>= g) (y >>= h) where
  same s t hst := by
    cases hxs : x s with
    | ok a s' =>
      obtain ⟨t', hyt, hp⟩ := hx.exists_ok hst hxs
      rw [bind_eq_of_ok hxs, bind_eq_of_ok hyt]
      exact (hg a).same s' t' hp
    | error e s' =>
      obtain ⟨t', hyt, hp⟩ := hx.exists_error hst hxs
      rw [bind_eq_of_error hxs, bind_eq_of_error hyt]
      exact ⟨rfl, hp⟩
  keeps_left := .bind hx.keeps_left fun a => (hg a).keeps_left
  keeps_right := .bind hx.keeps_right fun a => (hg a).keeps_right

/-- After reading the state, two computations are in step if they are for states that look the
same. -/
theorem get_bind {g h : σ → EStateM ε σ α} (hg : ∀ s t, p s = p t → InStep p k (g s) (h t)) :
    InStep p k (MonadState.get >>= g) (MonadState.get >>= h) where
  same s t hst := (hg s t hst).same s t hst
  keeps_left s := (hg s s rfl).keeps_left s
  keeps_right s := (hg s s rfl).keeps_right s

/-- A computation that only depends on what shows of the state is in step with itself. -/
theorem reads {q : σ → σ} {g : σ → EStateM ε σ α} (hq : ∀ s, g s = g (q s))
    (hg : ∀ s, InStep q k (g s) (g s)) :
    InStep q k (MonadState.get >>= g) (MonadState.get >>= g) := by
  apply get_bind
  intro s t hst
  have heq : g s = g t := by rw [hq s, hq t, hst]
  rw [heq]
  exact hg t

/-- What is kept may depend on the state that is read. -/
theorem reads_keeping {q : σ → σ} {g : σ → EStateM ε σ α} (l : σ → σ → κ')
    (hq : ∀ s, g s = g (q s)) (hg : ∀ s, InStep q (l s) (g s) (g s))
    (hl : ∀ s t, l s t = l s s → k t = k s) :
    InStep q k (MonadState.get >>= g) (MonadState.get >>= g) where
  same s t hst := by
    have heq : g s = g t := by rw [hq s, hq t, hst]
    change outcome (g s s) = outcome (g t t) ∧ q (left (g s s)) = q (left (g t t))
    rw [heq]
    exact (hg t).same s t hst
  keeps_left s := hl s _ ((hg s).keeps_left s)
  keeps_right s := hl s _ ((hg s).keeps_right s)

/-- Two choices are in step if their branches are. -/
theorem ite {c : Prop} [Decidable c] {x' y' : EStateM ε σ α} (hx : InStep p k x y)
    (hx' : InStep p k x' y') : InStep p k (if c then x else x') (if c then y else y') := by
  split
  · exact hx
  · exact hx'

/-- A check is in step with itself. -/
theorem failIf (c : Bool) (e : ε) :
    InStep p k (failIf c e : EStateM ε σ Unit) (Effect.failIf c e) := by
  cases c
  · exact .pure _
  · exact .throw _

/-- Failing for want of a value is in step with itself. -/
theorem orFail (e : ε) (o : Option α) :
    InStep p k (orFail e o : EStateM ε σ α) (Effect.orFail e o) := by
  cases o
  · exact .throw _
  · exact .pure _

/-- Steps that are taken only sometimes are in step if they are when taken. -/
theorem onlyIf (c : Bool) {x y : EStateM ε σ Unit} (h : InStep p k x y) :
    InStep p k (onlyIf c x) (Effect.onlyIf c y) := by
  cases c
  · exact .pure _
  · exact h

/-- Attempts are in step if what they attempt is. -/
theorem attempt (h : InStep p k x y) :
    InStep p k (attempt x : EStateM ε' σ (Except ε α)) (Effect.attempt y) where
  same s t hst := by
    obtain ⟨ho, hl⟩ := h.same s t hst
    unfold Effect.attempt
    cases hx : x s <;> cases hy : y t <;> rw [hx, hy] at ho hl <;> cases ho <;> exact ⟨rfl, hl⟩
  keeps_left := .attempt h.keeps_left
  keeps_right := .attempt h.keeps_right

/-- Computations stay in step with their failures wrapped. -/
theorem adaptExcept (wrap : ε → ε') (h : InStep p k x y) :
    InStep p k (x.adaptExcept wrap) (y.adaptExcept wrap) where
  same s t hst := by
    obtain ⟨ho, hl⟩ := h.same s t hst
    unfold EStateM.adaptExcept
    cases hx : x s <;> cases hy : y t <;> rw [hx, hy] at ho hl <;> cases ho <;> exact ⟨rfl, hl⟩
  keeps_left := .adaptExcept wrap h.keeps_left
  keeps_right := .adaptExcept wrap h.keeps_right

/-- On a part of the state, two computations are in step if they are on the part. -/
theorem onPart {part : σ → τ} {replace : σ → τ → σ} {q : τ → ρ'} {l : τ → κ'}
    {x y : EStateM ε τ α} (h : InStep q l x y) (hq : ∀ s t, p s = p t → q (part s) = q (part t))
    (hp : ∀ s t u v, p s = p t → q u = q v → p (replace s u) = p (replace t v))
    (hk : ∀ s u, l u = l (part s) → k (replace s u) = k s) :
    InStep p k (onPart part replace x) (Effect.onPart part replace y) where
  same s t hst := by
    obtain ⟨ho, hl⟩ := h.same _ _ (hq s t hst)
    unfold Effect.onPart
    cases hx : x (part s) <;> cases hy : y (part t) <;> rw [hx, hy] at ho hl <;> cases ho <;>
      exact ⟨rfl, hp _ _ _ _ hst hl⟩
  keeps_left := .onPart h.keeps_left hk
  keeps_right := .onPart h.keeps_right hk

/-- Steps for the entries of a list are in step if they are for each entry. -/
theorem forM {l : List α} {g h : α → EStateM ε σ PUnit} (hg : ∀ a ∈ l, InStep p k (g a) (h a)) :
    InStep p k (l.forM g) (l.forM h) := by
  induction l with
  | nil => exact InStep.pure _
  | cons a l ih =>
    exact InStep.bind (hg a List.mem_cons_self) fun _ =>
      ih fun b hb => hg b (List.mem_cons_of_mem _ hb)

/-- Steps that give a value for each entry of a list are in step if they are for each entry. -/
theorem mapM {l : List α} {g h : α → EStateM ε σ β} (hg : ∀ a ∈ l, InStep p k (g a) (h a)) :
    InStep p k (l.mapM g) (l.mapM h) := by
  induction l with
  | nil => exact InStep.pure _
  | cons a l ih =>
    rw [List.mapM_cons, List.mapM_cons]
    exact InStep.bind (hg a List.mem_cons_self) fun _ =>
      InStep.bind (ih fun b hb => hg b (List.mem_cons_of_mem _ hb)) fun _ => InStep.pure _

end InStep

end Dialogue.Effect
