import Dialogue.Proofs.Resumption
/-!
# Transient faults

Draws, removals and moves can be struck by a failure to come, and can then be begun again. A swap
whose move fails has removed what it evicts and has counted nothing; it removes nothing more when it
is begun again, and all that is retained is moved then.
-/

namespace Dialogue

open Effect

/-- The services whose failures are transient. -/
def Service.isTransient (s : Service) : Bool := s = .sample || s = .remove || s = .shift

/-- The redaction that hides draws, removals and moves, with the failures to come there. -/
abbrev Redaction.transient : Redaction := .over Service.isTransient

/-- How many draws, removals and moves are to fail. -/
def Faults.transient (f : Faults) : Nat :=
  f.sample.count true + f.remove.count true + f.shift.count true

namespace Faults

variable {f : Faults}

private theorem headD_eq_false_of_count {l : List Bool} (h : l.count true = 0) :
    l.headD false = false := by
  cases l with
  | nil => rfl
  | cons b l => cases b <;> simp_all

/-- A call that fails takes one of the failures to come. -/
theorem transient_next_lt {s : Service} (hs : s.isTransient = true)
    (h : (f.schedule s).headD false = true) : (f.next s).transient < f.transient := by
  have hcount := count_tail (f.schedule s)
  rw [h, Bool.toNat_true] at hcount
  unfold transient
  match s with
  | .sample | .remove | .shift =>
    simp only [schedule, next] at hcount ⊢
    omega

/-- No more failures are to come after the next call of a service. -/
theorem transient_next_le (f : Faults) (s : Service) : (f.next s).transient ≤ f.transient := by
  have hsample := count_tail f.sample
  have hremove := count_tail f.remove
  have hshift := count_tail f.shift
  unfold transient
  match s with
  | .decode .main | .decode .guidance | .sample | .remove | .shift | .takeSnapshot
  | .restoreSnapshot =>
    simp only [next]
    omega

/-- Where no draw, removal or move is to fail, the next one does not. -/
theorem headD_of_transient_eq_zero {s : Service} (hs : s.isTransient = true)
    (h : f.transient = 0) : (f.schedule s).headD false = false := by
  unfold transient at h
  apply headD_eq_false_of_count
  match s with
  | .sample | .remove | .shift =>
    simp only [schedule]
    omega

end Faults

namespace Engine

variable {e : Engine}

/-- The engine once a call was made that may fail. -/
def made (e : Engine) (c : Call) (s : Service) : Engine :=
  { e with calls := e.calls.push c, faults := e.faults.next s }

/-- A call of a hidden service does not show. -/
theorem without_made {hides : Service → Bool} {c : Call} {s : Service}
    (hc : c.isFor hides = true) (hs : hides s = true) (e : Engine) :
    (e.made c s).without hides = e.without hides := by
  simp [without, made, hc, Faults.without_next _ hs]

/-- A draw that is not to fail gives the next sample. -/
theorem sample_eq_ok (guided : Bool) (h : e.faults.sample.headD false = false) :
    sample guided e = .ok (e.script.headD Token.eos)
      { e.asked guided with script := e.script.tail } := by
  change EStateM.bind (failIf (e.faults.sample.headD false) _) _ _ = _
  rw [h]
  rfl

private theorem sample_eq_error (guided : Bool) (h : e.faults.sample.headD false = true) :
    sample guided e = .error (.inference "scripted sample failure") (e.asked guided) := by
  change EStateM.bind (failIf (e.faults.sample.headD false) _) _ _ = _
  rw [h]
  rfl

/-- A draw that fails leaves the script, and can be made again. -/
theorem resumes_sample (guided : Bool) {e e' : Engine}
    (hee' : e.without Service.isTransient = e'.without Service.isTransient)
    (he' : e'.faults.transient = 0) :
    Resumes (without Service.isTransient) (·.faults.transient)
      (fun _ u => u.without Service.isTransient = e.without Service.isTransient)
      (sample guided) (sample guided) e e' := by
  have hasked (e : Engine) :
      (e.asked guided).without Service.isTransient = e.without Service.isTransient :=
    without_made rfl rfl e
  have hfree {e : Engine} (he : e.faults.transient = 0) : e.faults.sample.headD false = false :=
    Faults.headD_of_transient_eq_zero (s := .sample) rfl he
  have hdraws {e e' : Engine}
      (hee' : e.without Service.isTransient = e'.without Service.isTransient)
      (he : e.faults.sample.headD false = false) (he' : e'.faults.sample.headD false = false) :
      SameEnd (without Service.isTransient) (sample guided) (sample guided) e e' := by
    have hscript : e.script = e'.script := congrArg (·.script) hee'
    rw [SameEnd, sample_eq_ok guided he, sample_eq_ok guided he', hscript]
    refine ⟨rfl, ?_⟩
    exact congrArg (fun e : Engine => { e with script := e'.script.tail })
      ((hasked e).trans (hee'.trans (hasked e').symm))
  cases he : e.faults.sample.headD false with
  | false =>
    refine .same (hdraws hee' he (hfree he')) ?_
    rw [sample_eq_ok guided he]
    exact Faults.transient_next_le _ .sample
  | true =>
    refine .struck (sample_eq_error guided he) (hasked e)
      (Faults.transient_next_lt (s := .sample) rfl he) fun u hu hp => ?_
    exact hdraws (hp.trans ((hasked e).trans hee')) (hfree hu) (hfree he')

end Engine

/-! ### Swaps -/

/-- Cells that were removed are not removed again. -/
theorem Window.thinned_thinned (w : Window) (past : Int) (c : Cells) :
    w.thinned past (w.thinned past c) = w.thinned past c := by
  apply Cells.ext
  simp only [thinned, Cells.remove, Cells.filter, List.filter_filter, Bool.and_self]

namespace Workbench

variable {w : Window} {b : Workbench}

/-- How many draws, removals and moves are to fail. -/
def transient (b : Workbench) : Nat := b.engine.faults.transient

/-- The workbench with other cells in the main context. -/
def withCells (b : Workbench) (cells : Cells) : Workbench :=
  { b with engine := { b.engine with mainCells := cells } }

/-- The workbench without the tokens that an eviction drops. -/
def thinned (b : Workbench) (w : Window) : Workbench :=
  b.withCells (w.thinned b.progress.past b.engine.mainCells)

/-- The workbench after a swap. -/
def swapped (b : Workbench) (w : Window) (guided : Bool) : Workbench :=
  let d := w.discard b.progress.past
  let evicted : Workbench :=
    if 0 < d then
      let p := b.progress.rewind .main d
      { b.withCells (w.closedUp b.progress.past b.engine.mainCells) with
        progress := if guided then p.rewind .guidance d else p }
    else b
  { evicted with cache := { evicted.cache with path := none } }

/-- What a swap tells of itself. -/
def evictionOf (b : Workbench) (w : Window) : Eviction :=
  ⟨w.evictable b.progress.past, max (w.discard b.progress.past) 0, b.progress.past,
    b.progress.past - max (w.discard b.progress.past) 0⟩

/-- A swap after the removal comes to the same. -/
theorem swapped_thinned (w : Window) (guided : Bool) (h : 0 < w.discard b.progress.past) :
    (b.thinned w).swapped w guided = b.swapped w guided := by
  have hd : 0 < w.discard (b.thinned w).progress.past := h
  rw [swapped, swapped]
  dsimp only
  rw [if_pos hd, if_pos h]
  simp only [thinned, withCells, Window.closedUp, Window.thinned_thinned]

/-- What evicting comes to, as far as it shows: the session file is still to be given up. -/
private theorem ends_evict_redacted (w : Window) (guided : Bool) (b : Workbench)
    (h : 0 < w.discard b.progress.past) :
    Ends (w.evict guided b.progress.past (w.discard b.progress.past)) b fun r b' =>
      match r with
      | .ok _ => b'.transient ≤ b.transient ∧ b'.progress.past =
            b.progress.past - w.discard b.progress.past ∧
          { b'.redacted .transient with cache := { b'.cache with path := none } } =
            (b.redacted .transient).swapped w guided
      | .error _ => b'.transient < b.transient ∧
          (b'.redacted .transient = b.redacted .transient ∨
            b'.redacted .transient = (b.redacted .transient).thinned w) := by
  have hremoved : (b.engine.made (w.removal b.progress.past) .remove).without
      Service.isTransient = b.engine.without Service.isTransient := Engine.without_made rfl rfl _
  have hmoved (e : Engine) : (e.made (w.move b.progress.past) .shift).without
      Service.isTransient = e.without Service.isTransient := Engine.without_made rfl rfl _
  have hremoves := Faults.transient_next_le b.engine.faults .remove
  -- Only the removal and the move can be struck. A move that is struck leaves the cells thinned.
  unfold Window.evict
  rw [ends_bind, ends_call]
  cases hr : b.engine.faults.remove.headD false with
  | true =>
    rw [ends_iff_of_eq_error (Engine.removeCells_main_eq_error hr)]
    refine ⟨Faults.transient_next_lt (s := .remove) rfl hr, .inl ?_⟩
    exact congrArg (fun e => { b.redacted .transient with engine := e }) hremoved
  | false =>
    rw [ends_iff_of_eq_ok (Engine.removeCells_main_eq_ok hr)]
    simp only [ends_bind, ends_call]
    cases hs : b.engine.faults.shift.headD false with
    | true =>
      apply (ends_iff_of_eq_error (Engine.shiftCells_main_eq_error (by exact hs))).mpr
      refine ⟨Nat.lt_of_lt_of_le (Faults.transient_next_lt (f := b.engine.faults.next .remove)
        (s := .shift) rfl hs) hremoves, .inr ?_⟩
      exact congrArg (fun e : Engine => { b.redacted .transient with
        engine := { e with mainCells := w.thinned b.progress.past b.engine.mainCells } })
        ((hmoved _).trans hremoved)
    | false =>
      apply (ends_iff_of_eq_ok (Engine.shiftCells_main_eq_ok (by exact hs))).mpr
      rw [ends_advance, ends_onlyIf]
      have hle : ((b.engine.faults.next .remove).next .shift).transient ≤
          b.engine.faults.transient :=
        Nat.le_trans (Faults.transient_next_le _ _) hremoves
      have hredacted (p : Progress) := congrArg (fun e : Engine => ({ b.redacted .transient with
        engine := { e with mainCells := w.closedUp b.progress.past b.engine.mainCells }
        progress := p
        cache := { b.cache with path := none } } : Workbench))
        ((hmoved (b.engine.made (w.removal b.progress.past) .remove)).trans hremoved)
      rw [swapped]
      dsimp only
      rw [if_pos (show 0 < w.discard (b.redacted .transient).progress.past from h)]
      cases guided with
      | false => exact ⟨hle, rfl, hredacted _⟩
      | true => exact ⟨hle, rfl, hredacted _⟩

/-- What a swap comes to, as far as it shows. -/
theorem ends_swap_redacted (w : Window) (guided : Bool) (b : Workbench) :
    Ends (w.swap guided) b fun r b' =>
      match r with
      | .ok eviction => b'.transient ≤ b.transient ∧ eviction = b.evictionOf w ∧
          b'.redacted .transient = (b.redacted .transient).swapped w guided
      | .error _ => b'.transient < b.transient ∧
          (b'.redacted .transient = b.redacted .transient ∨
            0 < w.discard b.progress.past ∧
              b'.redacted .transient = (b.redacted .transient).thinned w) := by
  unfold Window.swap Window.evictHalf
  simp only [ends_bind, ends_get, ends_report, ends_ite, ends_pure]
  split
  · next h =>
    apply (ends_evict_redacted w guided { b with
      journal := b.journal.push (.swapping b.progress.past (w.evictable b.progress.past) w.size
        w.keep (w.discard b.progress.past)) } h).mono
    intro r b' hb'
    cases r with
    | ok u =>
      obtain ⟨hle, hpast, hredacted⟩ := hb'
      apply Cache.ends_invalidate
      intro journal
      refine ⟨hle, ?_, hredacted⟩
      rw [evictionOf, Int.max_eq_left (Int.le_of_lt h)]
      exact congrArg (Eviction.mk _ _ _) hpast
    | error e => exact ⟨hb'.1, hb'.2.imp_right fun hv => ⟨h, hv⟩⟩
  · next h =>
    apply Cache.ends_invalidate
    intro journal
    refine ⟨Nat.le_refl _, ?_, ?_⟩
    · rw [evictionOf, Int.max_eq_right (Int.not_lt.mp h), Int.sub_zero]
    · rw [swapped]
      dsimp only
      rw [if_neg (show ¬ 0 < w.discard (b.redacted .transient).progress.past from h)]
      rfl

/-- The progress shows. -/
theorem progress_of_redacted {hides : Service → Bool} {b b' : Workbench}
    (h : b.redacted (.over hides) = b'.redacted (.over hides)) : b.progress = b'.progress := by
  have hprogress := congrArg Workbench.progress h
  exact hprogress

/-- Where no faults are to come a swap is made. -/
theorem swap_of_transient_eq_zero (w : Window) (guided : Bool) (hb : b.transient = 0) :
    ∃ b', w.swap guided b = .ok (b.evictionOf w) b' ∧
      b'.redacted .transient = (b.redacted .transient).swapped w guided := by
  have hend := ends_swap_redacted w guided b
  cases hswap : w.swap guided b with
  | ok eviction b' =>
    obtain ⟨-, rfl, hb'⟩ := hend.of_ok hswap
    exact ⟨b', rfl, hb'⟩
  | error e b' =>
    have hlt := ((ends_iff_of_eq_error hswap).mp hend).1
    omega

/-- A swap that is struck has counted nothing, and can be begun again. -/
theorem resumes_swap (w : Window) (guided : Bool) {b b' : Workbench}
    (h : b.redacted .transient = b'.redacted .transient) (hb' : b'.transient = 0) :
    Resumes (redacted .transient) transient (fun _ u => u.progress = b.progress) (w.swap guided)
      (w.swap guided) b b' := by
  obtain ⟨c', hswap', hc'⟩ := swap_of_transient_eq_zero w guided hb'
  have hend := ends_swap_redacted w guided b
  have hprogress := progress_of_redacted h
  cases hswap : w.swap guided b with
  | ok eviction c =>
    obtain ⟨hle, rfl, hc⟩ := hend.of_ok hswap
    refine .same ?_ ?_
    · rw [SameEnd, hswap, hswap', evictionOf, evictionOf, hprogress]
      refine ⟨rfl, ?_⟩
      change c.redacted .transient = c'.redacted .transient
      rw [hc, hc', h]
    · rw [hswap]
      exact hle
  | error e c =>
    obtain ⟨hlt, hc⟩ := (ends_iff_of_eq_error hswap).mp hend
    have hkept : c.progress = b.progress := by
      rcases hc with hc | ⟨-, hc⟩
      · exact progress_of_redacted hc
      · have hthinned := congrArg Workbench.progress hc
        exact hthinned
    -- What a struck swap leaves, thinned or not, swaps to the same.
    have hswapped : (c.redacted .transient).swapped w guided =
        (b.redacted .transient).swapped w guided := by
      rcases hc with hc | ⟨hd, hc⟩
      · rw [hc]
      · rw [hc]
        exact swapped_thinned w guided hd
    refine .struck hswap hkept hlt fun u hu huc => ?_
    obtain ⟨u', hswapu, hu'⟩ := swap_of_transient_eq_zero w guided hu
    rw [SameEnd, hswapu, hswap', evictionOf, evictionOf, progress_of_redacted huc, hkept, hprogress]
    refine ⟨rfl, ?_⟩
    change u'.redacted .transient = c'.redacted .transient
    rw [hu', hc', huc, hswapped, h]

/-! ### Making room -/

/-- Swaps as often as it takes to make room, without what the swaps tell. -/
def swapAll (w : Window) (guided : Bool) (l : List Int) : WorkM EngineError Unit :=
  l.forM fun _ => discard (w.swap guided)

private theorem discard_ensureRoom (w : Window) (offset : Option Int) :
    discard (w.ensureRoom offset) = (do
      let p := (← get).progress
      swapAll w offset.isSome (w.evictions p.pending.length (offset.getD 0) p.past)) := by
  change (w.ensureRoom offset >>= fun _ => pure ()) = _
  rw [Window.ensureRoom, bind_assoc]
  congr 1
  funext b
  exact discard_mapM _ _ _

/-- A swap that is made uses up no fault. -/
theorem ends_discard_swap (w : Window) (guided : Bool) (b : Workbench) :
    Ends (discard (w.swap guided)) b fun r b' => r = .ok () →
      b'.transient ≤ b.transient ∧ b'.progress.pending = b.progress.pending ∧
        b'.progress.past = b.progress.past - max (w.discard b.progress.past) 0 := by
  rw [ends_discard]
  apply ((ends_swap_redacted w guided b).and (Window.ends_swap w guided b)).mono
  rintro (_ | eviction) b' ⟨hredacted, hswap, hr⟩ hok
  · cases hok
  · refine ⟨hredacted.1, ?_, hr.2⟩
    change b'.mainContext.pending = b.mainContext.pending
    generalize b'.mainContext = u at hswap
    cases hswap <;> rfl

variable {b' : Workbench} {offset : Option Int}

/-- What the swaps that make room are struck by leaves the next step, and the room it wants. -/
private theorem resumes_swapAll_cons {l : List Int} {E : EngineError → Workbench → Prop}
    (h : b.redacted .transient = b'.redacted .transient) (hb' : b'.transient = 0)
    (hplan : w.evictions b.progress.pending.length (offset.getD 0) b.progress.past =
      b.progress.past :: l)
    (hE : ∀ e u, u.progress = b.progress → E e u)
    (hrest : ∀ c c' : Workbench, c.redacted .transient = c'.redacted .transient → c'.transient = 0 →
      c.progress.pending = b.progress.pending →
      c.progress.past = b.progress.past - max (w.discard b.progress.past) 0 →
      Resumes (redacted .transient) transient E (swapAll w offset.isSome l)
        (discard (w.ensureRoom offset)) c c') :
    Resumes (redacted .transient) transient E (swapAll w offset.isSome (b.progress.past :: l))
      (discard (w.ensureRoom offset)) b b' := by
  have hfirst : Resumes (redacted .transient) transient (fun _ u => u.progress = b.progress)
      (discard (w.swap offset.isSome)) (discard (w.swap offset.isSome)) b b' :=
    (resumes_swap w offset.isSome h hb').bind_inStep (k := fun _ _ => ()) (g := fun _ => pure ())
      (fun _ => .pure _) fun _ => .pure _
  have hnext {u c : Workbench} {x : Unit} (hc : discard (w.swap offset.isSome) u = .ok x c) :=
    (ends_discard_swap w offset.isSome u).of_ok hc rfl
  refine hfirst.bind hE (fun e s' _ hs' u hu hus' hsame => ?_) fun _ c c' hc hc' hcc' => ?_
  · have hub : u.progress = b.progress := (progress_of_redacted hus').trans hs'
    have hagain : discard (w.ensureRoom offset) u =
        swapAll w offset.isSome (b.progress.past :: l) u := by
      rw [discard_ensureRoom]
      change swapAll w _ (w.evictions u.progress.pending.length _ u.progress.past) u = _
      rw [hub, hplan]
    refine (SameEnd.of_eq hagain).trans (hsame.bind fun _ c c' hc hc' hcc' => ?_)
    obtain ⟨hle, hpending, hpast⟩ := hnext hc
    rw [hub] at hpending hpast
    exact (hrest c c' hcc' (by have := (hnext hc').1; omega) hpending hpast).sameEnd_of_eq_zero
      (by omega)
  · obtain ⟨-, hpending, hpast⟩ := hnext hc
    exact hrest c c' hcc' (by have := (hnext hc').1; omega) hpending hpast

/-- Making room is struck only where there is not enough. The next step stays as it is then, and
making room can be begun again. -/
theorem resumes_ensureRoom (w : Window) (offset : Option Int)
    (h : b.redacted .transient = b'.redacted .transient) (hb' : b'.transient = 0) :
    Resumes (redacted .transient) transient
      (fun _ u => u.progress.pending = b.progress.pending ∧
        w.overflows b.progress.past b.progress.pending.length (offset.getD 0) = true)
      (discard (w.ensureRoom offset)) (discard (w.ensureRoom offset)) b b' := by
  have hplans {step : Nat} {past : Int} (hstep : b.progress.pending.length = step)
      (hpast : b.progress.past = past) :
      Resumes (redacted .transient) transient
        (fun _ u => u.progress.pending = b.progress.pending ∧
          w.overflows past step (offset.getD 0) = true)
        (swapAll w offset.isSome (w.evictions step (offset.getD 0) past))
        (discard (w.ensureRoom offset)) b b' := by
    -- On the planned evictions. One that is struck has counted nothing, so that what is planned
    -- anew is it and those behind it.
    fun_induction Window.evictions w step (offset.getD 0) past generalizing b b' with
    | case1 past hover hd ih =>
      subst hpast
      refine resumes_swapAll_cons h hb' ?_ (fun _ _ hu => ⟨congrArg Progress.pending hu, hover⟩)
        fun c c' hcc' hc' hpending hpast => ?_
      · rw [Window.evictions, hstep, if_pos hover, if_pos hd]
      · rw [Int.max_eq_left (Int.le_of_lt hd)] at hpast
        exact (ih hcc' hc' (by rw [hpending, hstep]) hpast).mono fun _ _ hu =>
          ⟨hu.1.trans hpending, hover⟩
    | case2 past hover hd =>
      subst hpast
      refine resumes_swapAll_cons h hb' ?_ (fun _ _ hu => ⟨congrArg Progress.pending hu, hover⟩)
        fun c c' hcc' hc' hpending hpast => ?_
      · rw [Window.evictions, hstep, if_pos hover, if_neg hd]
      · exact .of_inStep (k := fun _ => ()) (.pure _) (.pure _) hcc'
    | case3 past => exact .of_inStep (k := fun _ => ()) (.pure _) (.pure _) h
  have hreads {E : EngineError → Workbench → Prop} {y : WorkM EngineError Unit}
      (hy : Resumes (redacted .transient) transient E (swapAll w offset.isSome
        (w.evictions b.progress.pending.length (offset.getD 0) b.progress.past)) y b b') :
      Resumes (redacted .transient) transient E (discard (w.ensureRoom offset)) y b b' := by
    rw [discard_ensureRoom]
    refine .reads hy ?_
    rw [progress_of_redacted h]
  exact hreads (hplans rfl rfl)

end Workbench

end Dialogue
