import Dialogue.Session.Start
import Mathlib.Algebra.Order.Field.Power
import Mathlib.Algebra.Order.Ring.Rat
/-!
# Resolution

A configuration is rejected if its batches would be empty, or if its guidance strength is not a
number of at least one. Any other is completed with what follows from it. A configuration that is
complete is resolved to itself, whenever that is done.
-/

namespace Dialogue

/-! ### Strengths -/

namespace Number

/-- The value of a magnitude. -/
def Magnitude.value (x : Magnitude) : ℚ := x.m * 2 ^ x.q

/-- The value of a finite number. -/
def Single.value (x : Single) : ℚ :=
  if x.isNegative then -x.magnitude.value else x.magnitude.value

private theorem Magnitude.value_nonneg (x : Magnitude) : 0 ≤ x.value :=
  mul_nonneg (Nat.cast_nonneg x.m) (zpow_nonneg zero_le_two x.q)

private theorem Magnitude.one_le_value {x : Magnitude} {k : Nat} (hm : 2 ^ k ≤ x.m)
    (hq : -(k : Int) ≤ x.q) :
    1 ≤ x.value := by
  have hcast : (2 : ℚ) ^ (k : Int) ≤ x.m := by exact_mod_cast hm
  calc (1 : ℚ) = 2 ^ (k : Int) * 2 ^ (-(k : Int)) := by
        rw [← zpow_add₀ two_ne_zero, add_neg_cancel, zpow_zero]
    _ ≤ x.m * 2 ^ x.q :=
        mul_le_mul hcast (zpow_le_zpow_right₀ one_le_two hq) (zpow_nonneg zero_le_two _)
          (Nat.cast_nonneg x.m)

private theorem Magnitude.value_lt_one {x : Magnitude} {k : Nat} (hm : x.m < 2 ^ k)
    (hq : x.q ≤ -(k : Int)) :
    x.value < 1 := by
  have hcast : (x.m : ℚ) < 2 ^ (k : Int) := by exact_mod_cast hm
  calc x.m * (2 : ℚ) ^ x.q ≤ x.m * 2 ^ (-(k : Int)) :=
        mul_le_mul_of_nonneg_left (zpow_le_zpow_right₀ one_le_two hq) (Nat.cast_nonneg x.m)
    _ < 2 ^ (k : Int) * 2 ^ (-(k : Int)) :=
        mul_lt_mul_of_pos_right hcast (zpow_pos two_pos _)
    _ = 1 := by rw [← zpow_add₀ two_ne_zero, add_neg_cancel, zpow_zero]

namespace Single

variable {x : Single}

/-- The bits without the sign are in the order of the absolute values. -/
theorem one_le_magnitude_iff : 1 ≤ x.magnitude.value ↔ 0x3F800000 ≤ x.absBits := by
  have hbits := Nat.div_add_mod x.absBits 0x800000
  have hfraction : x.absBits % 0x800000 < 0x800000 := Nat.mod_lt _ (by decide)
  rw [magnitude]
  by_cases hsubnormal : x.absBits / 0x800000 = 0
  · rw [if_pos hsubnormal]
    have hlt : Magnitude.value ⟨x.absBits % 0x800000, -149⟩ < 1 :=
      Magnitude.value_lt_one (k := 23) hfraction (show (-149 : Int) ≤ -23 by decide)
    exact iff_of_false (not_le.mpr hlt) (by omega)
  · rw [if_neg hsubnormal]
    -- The significand lies between `2 ^ 23` and `2 ^ 24`, and `2 ^ (127 - 150)` is `2 ^ (-23)`.
    by_cases hexponent : 127 ≤ x.absBits / 0x800000
    · refine iff_of_true (Magnitude.one_le_value (k := 23) ?_ ?_) (by omega)
      · exact Nat.le_add_right _ _
      · change -(23 : Int) ≤ ((x.absBits / 0x800000 : Nat) : Int) - 150
        omega
    · refine iff_of_false (not_le.mpr (Magnitude.value_lt_one (k := 24) ?_ ?_)) (by omega)
      · change 0x800000 + x.absBits % 0x800000 < 2 ^ 24
        omega
      · change ((x.absBits / 0x800000 : Nat) : Int) - 150 ≤ -(24 : Int)
        omega

private theorem isStrength_iff : x.isStrength = true ↔ x.isFinite = true ∧ 1 ≤ x.value := by
  rw [isStrength, value, Bool.and_eq_true, Bool.and_eq_true, decide_eq_true_iff, and_assoc]
  cases hsign : x.isNegative with
  | true =>
    have hle : -x.magnitude.value ≤ 0 := neg_nonpos.mpr x.magnitude.value_nonneg
    simp [not_le.mpr (lt_of_le_of_lt hle zero_lt_one)]
  | false => simp [one_le_magnitude_iff]

end Single

end Number

/-! ### Completion -/

namespace Config

variable {now : Nat} {c : Config}

/-- Whether a configuration cannot be run with. -/
def Unfit (c : Config) : Prop :=
  c.batchSize = 0 ∨ c.guidanceScale.isFinite = false ∨ c.guidanceScale.value < 1

/-- Whether all that follows from a configuration is part of it. -/
structure Complete (c : Config) : Prop where
  /-- There is a seed. -/
  seeded : c.seed.isSome = true
  /-- The context is large enough, or left to the engine. -/
  roomy : c.contextSize = 0 ∨ 8 ≤ c.contextSize
  /-- In instruct mode the user speaks first. -/
  userFirst : c.instruct = true → c.userFirst = true
  /-- A user who speaks first takes turns. -/
  interactive : c.userFirst = true → c.interactive = true
  /-- Instruct mode has its reverse prompt. -/
  antiprompt : c.instruct = true → instructAntiprompt ∈ c.antiprompts

/-- Whether a configuration is another one to which only what follows from it was added. -/
structure Extends (r c : Config) : Prop where
  /-- A seed that was set is kept. -/
  seed : ∀ seed, c.seed = some seed → r.seed = some seed
  /-- A context that is large enough, or left to the engine, is kept. -/
  contextSize : c.contextSize = 0 ∨ 8 ≤ c.contextSize → r.contextSize = c.contextSize
  /-- The user speaks first if that was wanted, or in instruct mode. -/
  userFirst : r.userFirst = (c.userFirst || c.instruct)
  /-- The user takes turns if that was wanted, or to speak first. -/
  interactive : r.interactive = (c.interactive || r.userFirst)
  /-- The reverse prompts are kept, and one is added behind them at most. -/
  antiprompts : ∃ added, r.antiprompts = c.antiprompts ++ added ∧ added.length ≤ 1
  /-- Nothing else is changed. -/
  others : r =
    { c with
      contextSize := r.contextSize
      seed := r.seed
      userFirst := r.userFirst
      interactive := r.interactive
      antiprompts := r.antiprompts }

private theorem unfit_iff : c.Unfit ↔ c.batchSize = 0 ∨ c.guidanceScale.isStrength = false := by
  rw [Unfit, ← Bool.not_eq_true c.guidanceScale.isStrength, Number.Single.isStrength_iff,
    not_and_or, Bool.not_eq_true, not_le]

private theorem resolve_eq_error_iff : (∃ e, c.resolve now = .error e) ↔ c.Unfit := by
  rw [resolve_eq, unfit_iff]
  by_cases hbatch : c.batchSize = 0
  · simp [hbatch]
  · cases hscale : c.guidanceScale.isStrength <;> simp [hbatch]

private theorem resolve_of_fit (h : ¬ c.Unfit) (now : Nat) :
    c.resolve now = .ok (c.completed now) := by
  rw [unfit_iff, not_or, Bool.not_eq_false] at h
  exact resolve_eq_ok_iff.mpr ⟨h.1, h.2, rfl⟩

private theorem isTooSmall_eq_false_iff :
    c.isTooSmall = false ↔ c.contextSize = 0 ∨ 8 ≤ c.contextSize := by
  rw [isTooSmall, Bool.and_eq_false_iff, decide_eq_false_iff_not, decide_eq_false_iff_not,
    not_not, not_lt]
  rfl

private theorem raisedSize_of_roomy (h : c.contextSize = 0 ∨ 8 ≤ c.contextSize) :
    c.raisedSize = c.contextSize := by
  rw [raisedSize, isTooSmall_eq_false_iff.mpr h]
  rfl

private theorem roomy_raisedSize (c : Config) : c.raisedSize = 0 ∨ 8 ≤ c.raisedSize := by
  cases hsmall : c.isTooSmall with
  | true =>
    rw [raisedSize, hsmall]
    exact .inr (Nat.le_refl 8)
  | false =>
    have hroomy := isTooSmall_eq_false_iff.mp hsmall
    rwa [raisedSize_of_roomy hroomy]

private theorem allAntiprompts_of_mem (h : c.instruct = true → instructAntiprompt ∈ c.antiprompts) :
    c.allAntiprompts = c.antiprompts :=
  if_neg fun hadds => hadds.2 (h hadds.1)

private theorem mem_allAntiprompts (h : c.instruct = true) :
    instructAntiprompt ∈ c.allAntiprompts := by
  by_cases hmem : instructAntiprompt ∈ c.antiprompts
  · rwa [allAntiprompts_of_mem fun _ => hmem]
  · rw [allAntiprompts, if_pos ⟨h, hmem⟩]
    exact List.mem_append_right _ List.mem_cons_self

private theorem exists_allAntiprompts (c : Config) :
    ∃ added, c.allAntiprompts = c.antiprompts ++ added ∧ added.length ≤ 1 := by
  unfold allAntiprompts
  split
  · exact ⟨[instructAntiprompt], rfl, Nat.le_refl 1⟩
  · exact ⟨[], (List.append_nil _).symm, Nat.zero_le 1⟩

private theorem complete_completed (now : Nat) (c : Config) : (c.completed now).Complete where
  seeded := rfl
  roomy := c.roomy_raisedSize
  userFirst hinstruct := Bool.or_eq_true_iff.mpr (.inr hinstruct)
  interactive hfirst := Bool.or_eq_true_iff.mpr (.inr hfirst)
  antiprompt hinstruct := mem_allAntiprompts (c := c) hinstruct

private theorem extends_completed (now : Nat) (c : Config) : (c.completed now).Extends c where
  seed seed h := by rw [completed, h, Option.getD_some]
  contextSize h := raisedSize_of_roomy h
  userFirst := rfl
  interactive := rfl
  antiprompts := c.exists_allAntiprompts
  others := rfl

/-- There is nothing to add to a configuration that is complete. -/
theorem Complete.completed_eq (h : c.Complete) (later : Nat) : c.completed later = c := by
  have hseed : some (c.seed.getD later) = c.seed := by
    obtain ⟨seed, hseed⟩ := Option.isSome_iff_exists.mp h.seeded
    rw [hseed, Option.getD_some]
  have hfirst : (c.userFirst || c.instruct) = c.userFirst :=
    Bool.or_eq_left_iff_imp.mpr h.userFirst
  have hinteractive : (c.interactive || c.userFirst) = c.interactive :=
    Bool.or_eq_left_iff_imp.mpr h.interactive
  rw [completed, raisedSize_of_roomy h.roomy, hseed, allAntiprompts_of_mem h.antiprompt, hfirst,
    hinteractive]

end Config

namespace Workbench

/-- A session takes a configuration that is resolved to itself as it is, and reports nothing. -/
theorem settle_of_complete {c : Config} (h : c.Complete) {later : Nat}
    (hresolve : c.resolve later = .ok c) (w : Workbench) : settle later c w = .ok c w := by
  have hsmall : c.isTooSmall = false := Config.isTooSmall_eq_false_iff.mpr h.roomy
  rw [settle, Config.resolveReported, Config.resolutionEvents, hresolve, hsmall]
  rfl

end Workbench

namespace Config

/-- A configuration is rejected just if it cannot be run with. Any other is resolved to one that is
complete, and to which only what follows from it was added; and that one is resolved to itself at
any time, also where a session begins with it. -/
theorem resolution_complete (now : Nat) (c : Config) :
    ((∃ e, c.resolve now = .error e) ↔ c.Unfit) ∧
      (¬ c.Unfit → ∃ r, c.resolve now = .ok r ∧ r.Complete ∧ r.Extends c ∧ ∀ later,
        r.resolve later = .ok r ∧ ∀ w, Workbench.settle later r w = .ok r w) := by
  refine ⟨resolve_eq_error_iff, fun hfit => ?_⟩
  have hcomplete := complete_completed now c
  -- Nothing is added that decides whether a configuration can be run with.
  have hfit' : ¬ (c.completed now).Unfit := hfit
  have hagain (later : Nat) : (c.completed now).resolve later = .ok (c.completed now) := by
    rw [resolve_of_fit hfit', hcomplete.completed_eq]
  exact ⟨c.completed now, resolve_of_fit hfit now, hcomplete, extends_completed now c,
    fun later => ⟨hagain later, Workbench.settle_of_complete hcomplete (hagain later)⟩⟩

/-- A context of four positions is raised, instruct mode brings its reverse prompt along, and the
seed is kept when the configuration is resolved again two seconds later. -/
theorem resolution_complete_of_instruct :
    let c : Config := { contextSize := 4, instruct := true, antiprompts := ["User:"] }
    ¬ c.Unfit ∧ ∃ r, c.resolve 7 = .ok r ∧ r.Complete ∧ r.resolve 9 = .ok r ∧ r.seed = some 7 ∧
      r.contextSize = 8 ∧ r.interactive = true ∧ r.antiprompts = ["User:", instructAntiprompt] := by
  intro c
  have hfit : ¬ c.Unfit := by
    rw [unfit_iff]
    decide
  obtain ⟨r, hr, hcomplete, -, hagain⟩ := (resolution_complete 7 c).2 hfit
  have hcompleted : r = c.completed 7 := (resolve_eq_ok_iff.mp hr).2.2.symm
  refine ⟨hfit, r, hr, hcomplete, (hagain 9).1, ?_⟩
  rw [hcompleted]
  exact ⟨rfl, rfl, rfl, rfl⟩

end Config

end Dialogue
