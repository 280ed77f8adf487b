import DkcLinux.CommitOrder

/-!
# Recovery of a publication that was cut

A retry runs with the ETags captured before the first attempt. Between the attempts every key is
either as it was at the start, so its captured ETag still stands, or holds the planned object, so
it is skipped (`Between`). An execution that finds such a store completes (`walk_completes`), and
in a completed store it writes nothing (`Missing`).
-/

open Py PublicationExecutor PublicationPlan

namespace CrashRecovery

/-- Every key is as it was, or holds the planned object. -/
def Between (p : PublicationPlan) (s0 s : Store) : Prop :=
  ∀ k, s.get k = s0.get k ∨ ∃ v, Planned p (k, v) ∧ Present s (k, v)

/-- A write of a planned object that is not there yet, or nothing. -/
def Missing (p : PublicationPlan) (s s' : Store) : Prop :=
  s' = s ∨ ∃ x, Planned p x ∧ ¬ Present s x ∧ s' = s.write x.1 x.2

section
variable {p : PublicationPlan} {s0 s : Store}

theorem Between.refl (p : PublicationPlan) (s0 : Store) : Between p s0 s0 := fun _ => .inl rfl

theorem Between.write (h : Between p s0 s) {x : String × PublicationObject} (hx : Planned p x) :
    Between p s0 (s.write x.1 x.2) := by
  intro k
  by_cases hk : k = x.1
  · subst hk
    exact .inr ⟨x.2, hx, present_write⟩
  · simp only [Present, Conc.CondStore.get_write_ne _ _ hk]
    exact h k

theorem Between.ordered {s' : Store} (h : Between p s0 s) (hs : Ordered p s s') : Between p s0 s' := by
  cases hs with
  | same => exact h
  | create hx _ => exact h.write (.inl hx)
  | replace hx _ _ _ => exact h.write (.inr ⟨_, hx⟩)

/-- No attempt leaves this middle ground. -/
theorem Between.attempts {objects : Dict PublicationObject} (hp : p.Of objects) {s' : Store}
    (h : Between p s0 s) (hs : Attempts p s s') : Between p s0 s' := by
  induction hs with
  | refl => exact h
  | tail _ hstep ih =>
    have hsteps := hstep.ordered hp
    clear hstep
    induction hsteps with
    | refl => exact ih
    | tail _ hs ih => exact ih.ordered hs

/-- Outside the plan nothing changes. -/
theorem Between.outside (h : Between p s0 s) {k : String} (hk : k ∉ handled p) : s.get k = s0.get k := by
  rcases h k with h | ⟨v, hv, -⟩
  · exact h
  · exact absurd (planned_handled hv) hk

/-- The start and the plan determine what a completed store holds. -/
theorem Between.contents {s' : Store} (h : Between p s0 s) (h' : Between p s0 s')
    (hs : ∀ x, Planned p x → Present s x) (hs' : ∀ x, Planned p x → Present s' x) (k : String) :
    (s.get k).map (·.value) = (s'.get k).map (·.value) := by
  rcases h k with hk | ⟨v, hv, hk⟩
  · rcases h' k with hk' | ⟨v, hv, hk'⟩
    · rw [hk, hk']
    · exact (hs _ hv).trans hk'.symm
  · exact hk.trans (hs' _ hv).symm

/-- In a completed store nothing is missing. -/
theorem missing_complete (h : ∀ x, Planned p x → Present s x) {s' : Store}
    (hs : Relation.ReflTransGen (Missing p) s s') : s' = s := by
  induction hs with
  | refl => rfl
  | tail _ hstep ih =>
    subst ih
    rcases hstep with rfl | ⟨x, hx, hnot, -⟩
    · rfl
    · exact absurd (h x hx) hnot

end

/-! ## An execution on a store that answers -/

section
variable {p : PublicationPlan} {objects : Dict PublicationObject} (hp : p.Of objects) {s0 : Store}
  (hmatch : Matches p s0) (himm : ∀ x ∈ p.immutable.items, s0.get x.1 = none ∨ Present s0 x)

/-- What holds when the keys in `D` have been handled. -/
def Reached (p : PublicationPlan) (s0 : Store) (D : Set String) (s : Store) : Prop :=
  Between p s0 s ∧ PresentOn p D s

include hp

theorem Reached.write {D : Set String} {s : Store} (h : Reached p s0 D s)
    {x : String × PublicationObject} (hx : Planned p x) : Reached p s0 (insert x.1 D) (s.write x.1 x.2) :=
  ⟨h.1.write hx, PresentOn.insert hp (fun y hy hmem => Present.planned hp hx hy (h.2 y hy hmem)) hx
    present_write⟩

theorem Reached.skip {D : Set String} {s : Store} (h : Reached p s0 D s)
    {x : String × PublicationObject} (hx : Planned p x) (hs : Present s x) :
    Reached p s0 (insert x.1 D) s := ⟨h.1, h.2.insert hp hx hs⟩

/-- A key between the attempts: still as captured, or already the planned object. -/
theorem Between.key {s : Store} (h : Between p s0 s) {x : String × PublicationObject}
    (hx : Planned p x) : s.get x.1 = s0.get x.1 ∨ Present s x := by
  rcases h x.1 with h | ⟨v, hv, hs⟩
  · exact .inl h
  · obtain rfl : v = x.2 := hp.planned_unique hv hx
    exact .inr hs

include hmatch himm

theorem walk_completes : Walk (Conc.ofHandler Store.serve) Eq (Missing p) p none none
    (fun D (_ : Unit) s => Reached p s0 D s) (fun _ _ _ => False) where
  created x hx D st s h := by
    have hplanned : Planned p x := .inl hx
    rw [create_immutable, Cmd.wp_tryCatch]
    refine Store.wp_put_serve (fun hc => ?_) (fun hc => ⟨.inl rfl, ?_⟩)
    · -- the key was free
      have hnot : ¬ Present s x := by
        rw [Present, Conc.Cond.holds_ifNoneMatch.1 hc]
        simp
      exact ⟨.inr ⟨x, hplanned, hnot, rfl⟩, h.write hp hplanned⟩
    · -- the key was taken, by the planned object
      have hs : Present s x := by
        rcases Between.key hp h.1 hplanned with hk | hs
        · rcases himm x hx with hnone | hs
          · rw [hk, hnone] at hc
            cases hc
          · rw [Present, hk]
            exact hs
        · exact hs
      obtain ⟨current, hget, hv⟩ := Option.map_eq_some_iff.1 hs
      refine Cmd.wp_bind.2 (Store.wp_get_serve.2 ⟨.inl rfl, ?_⟩)
      rw [Cmd.after_ok, hget]
      simp only [hv, ne_eq, not_true_eq_false, if_false]
      exact h.skip hp hplanned hs
  replaced x need pre hx hpre D st s _ h := by
    have hplanned : Planned p x := .inr ⟨need, hx⟩
    refine Cmd.wp_bind.2 (Store.wp_get_serve.2 ⟨.inl rfl, ?_⟩)
    rw [Cmd.after_ok]
    split
    · next hs => exact h.skip hp hplanned hs
    · next hs =>
      -- the captured ETag still stands
      have hholds : (condition pre).holds (s.get x.1) = true := by
        rw [(Between.key hp h.1 hplanned).resolve_right hs, hmatch _ _ hpre]
        cases s0.get x.1 <;> simp [condition]
      refine Cmd.wp_bind.2 (Store.wp_put_serve (fun _ => ?_) fun hc => ?_)
      · exact ⟨.inr ⟨x, hplanned, hs, rfl⟩, h.write hp hplanned⟩
      · rw [hholds] at hc
        cases hc
  verified x hx D st s hmem h := by
    refine Cmd.wp_bind.2 (Store.wp_get_serve.2 ⟨.inl rfl, ?_⟩)
    rw [Cmd.after_ok]
    split
    · next hs => exact hs (h.2 x hx hmem)
    · exact h
  checked D st s h := h
  injected h := absurd rfl h

/-- From the middle ground an execution completes. -/
theorem completes {s : Store} (h : Between p s0 s) : ∃ s',
    (execute p none).run Store.serve () s = ((.ok (), ()), s') ∧ Between p s0 s' ∧
      (∀ x, Planned p x → Present s' x) ∧ Relation.ReflTransGen (Missing p) s s' ∧
      ∀ n, Relation.ReflTransGen (Missing p) s ((execute p none none ()).runN Store.serve n s).2 := by
  have hexec := (walk_completes hp hmatch himm).execute () s
    ⟨h, fun y _ hy => absurd hy (Set.notMem_empty _)⟩
  have hrun := Conc.wp_run hexec
  rcases hr : (execute p none none ()).run Store.serve s with ⟨⟨e | u, st⟩, s'⟩
  · rw [hr] at hrun
    exact hrun.elim
  · rw [hr] at hrun
    have hsteps := Conc.wp_run_steps hexec
    rw [hr] at hsteps
    exact ⟨s', hr, hrun.1, fun x hx => hrun.2 x hx (planned_handled hx), hsteps,
      fun n => Conc.wp_runN hexec⟩

end

end CrashRecovery
