import DkcLinux.PublicationPlan

/-!
# The commit points of a publication

`Present s x`: the object `x` is in the store with exactly its bytes and metadata. The executor
writes a key only when everything it waits for is present (`Ordered`), whatever fails on the way,
and nothing takes a planned object away. So each commit point vouches for what stands before it:

| key                          | vouches for                                |
|------------------------------|--------------------------------------------|
| InRelease                    | immutable and `mutable_before_commit`      |
| `manifest.json`, `SHA256SUMS`| both signatures and InRelease              |
| the state pointer            | the whole plan                             |
-/

open Py PublicationExecutor

def Present (s : Store) (x : String × PublicationObject) : Prop := (s.get x.1).map (·.value) = some x.2

theorem present_write {s : Store} {x : String × PublicationObject} : Present (s.write x.1 x.2) x := by
  simp [Present]

/-- A write of another key, or of the same object, leaves an object in place. -/
theorem Present.write {s : Store} {x y : String × PublicationObject} (h : Present s x)
    (hy : y.1 = x.1 → y.2 = x.2) : Present (s.write y.1 y.2) x := by
  by_cases hk : x.1 = y.1
  · have hxy : y = x := Prod.ext hk.symm (hy hk.symm)
    exact hxy ▸ present_write
  · rw [Present, Conc.CondStore.get_write_ne _ _ hk]
    exact h

namespace PublicationExecutor

/-! ## One request -/

section
variable {σ : Type} {R G : Store → Store → Prop} {J : Store → Prop} {E : PyErr → σ → Store → Prop}
  {key : String} {v : PublicationObject} {st : σ} {s : Store}

/-- `J` is kept by the others and by the write itself. -/
theorem put_wp {c : Conc.Cond} (hR : ∀ s s', J s → R s s' → J s') (hG : ∀ s, J s → G s s)
    (hput : ∀ s, J s → c.holds (s.get key) = true → G s (s.write key v) ∧ J (s.write key v)) (hJ : J s) :
    (Cmd.put key v c : Cmd σ StoredObject).wp Store.Answers R G
      (Cmd.Out (fun _ s => J s ∧ Present s (key, v)) (fun _ _ s => J s)) st s := by
  intro s' hs r s'' hr
  have hJ' := hR _ _ hJ hs
  cases hr with
  | put hc => exact ⟨(hput s' hJ' hc).1, (hput s' hJ' hc).2, present_write⟩
  | putRefused _ => exact ⟨hG s' hJ', hJ'⟩
  | putFailed e => exact ⟨hG s' hJ', hJ'⟩
  | putUnanswered e hc => exact hput s' hJ' hc
  | putReconciled hg hv => exact ⟨hG s' hJ', hJ', by simp [Present, hg, hv]⟩

theorem create_immutable_wp (hR : ∀ s s', J s → R s s' → J s') (hG : ∀ s, J s → G s s)
    (hput : ∀ s, J s → s.get key = none → G s (s.write key v) ∧ J (s.write key v))
    (hE : ∀ e st s, J s → E e st s) (hJ : J s) :
    (create_immutable key v).wp Store.Answers R G
      (Cmd.Out (fun _ s => J s ∧ Present s (key, v)) E) st s := by
  rw [create_immutable, Cmd.wp_tryCatch]
  refine Cmd.wp_mono (put_wp hR hG (by simpa using hput) hJ) fun r st s hr => ?_
  rcases r with e | x
  · cases e with
    | PreconditionFailed msg =>
      refine Cmd.wp_bind.2 (Store.wp_get fun s' hs => ?_)
      have hJ' := hR _ _ hr hs
      refine ⟨hG s' hJ', ?_, fun e => hE e st s' hJ'⟩
      rw [Cmd.after_ok]
      cases hget : s'.get key with
      | none => exact hE _ st s' hJ'
      | some current =>
        by_cases hv : current.value = v
        · simp only [hv, ne_eq, not_true_eq_false, if_false]
          exact ⟨hJ', by simp [Present, hget, hv]⟩
        · simp only [hv, ne_eq, not_false_eq_true, if_true]
          exact hE _ st s' hJ'
    | _ => exact hE _ st s hr
  · exact hr

theorem put_mutable_wp {pre : Option Nat} (hR : ∀ s s', J s → R s s' → J s') (hG : ∀ s, J s → G s s)
    (hput : ∀ s, J s → (condition pre).holds (s.get key) = true →
      G s (s.write key v) ∧ J (s.write key v))
    (hE : ∀ e st s, J s → E e st s) (hJ : J s) :
    (put_mutable key v pre).wp Store.Answers R G
      (Cmd.Out (fun _ s => J s ∧ Present s (key, v)) E) st s := by
  unfold put_mutable
  refine Cmd.wp_bind.2 (Store.wp_get fun s' hs => ?_)
  have hJ' := hR _ _ hJ hs
  refine ⟨hG s' hJ', ?_, fun e => hE e st s' hJ'⟩
  rw [Cmd.after_ok]
  split
  · next heq => exact ⟨hJ', heq⟩
  · refine Cmd.wp_bind.2 (Cmd.wp_mono (put_wp hR hG hput hJ') fun r st s hr => ?_)
    rcases r with e | x
    · exact hE e st s hr
    · exact hr

theorem verify_wp (hR : ∀ s s', J s → R s s' → J s') (hG : ∀ s, J s → G s s)
    (hE : ∀ e st s, J s → E e st s) (hJ : J s) :
    (verify key v).wp Store.Answers R G (Cmd.Out (fun _ s => J s ∧ Present s (key, v)) E) st s := by
  unfold verify
  refine Cmd.wp_bind.2 (Store.wp_get fun s' hs => ?_)
  have hJ' := hR _ _ hJ hs
  refine ⟨hG s' hJ', ?_, fun e => hE e st s' hJ'⟩
  rw [Cmd.after_ok]
  split
  · exact hE _ st s' hJ'
  · next heq => exact ⟨hJ', not_not.1 heq⟩

/-! Their local state is left alone. -/

theorem keeps_create_immutable : Cmd.Keeps (create_immutable key v : Cmd σ _) := by
  unfold create_immutable
  refine Cmd.keeps_tryCatch Cmd.keeps_put fun e => ?_
  unfold collision
  split
  · refine Cmd.keeps_bind Cmd.keeps_get fun current => ?_
    cases current with
    | none => exact Cmd.keeps_throw
    | some current =>
      dsimp only
      split
      · exact Cmd.keeps_throw
      · exact Cmd.keeps_pure
  · exact Cmd.keeps_throw

theorem keeps_put_mutable {pre : Option Nat} : Cmd.Keeps (put_mutable key v pre : Cmd σ _) := by
  unfold put_mutable
  refine Cmd.keeps_bind Cmd.keeps_get fun current => ?_
  split
  · exact Cmd.keeps_pure
  · exact Cmd.keeps_bind Cmd.keeps_put fun _ => Cmd.keeps_pure

theorem keeps_verify : Cmd.Keeps (verify key v : Cmd σ _) := by
  unfold verify
  refine Cmd.keeps_bind Cmd.keeps_get fun current => ?_
  split
  · exact Cmd.keeps_throw
  · exact Cmd.keeps_pure

end

/-! ## One execution -/

/-- What an execution does to the store: it writes a planned object that finds all it waits for. -/
inductive Ordered (p : PublicationPlan) (s : Store) : Store → Prop
  | same : Ordered p s s
  | create {x} : x ∈ p.immutable.items → s.get x.1 = none → Ordered p s (s.write x.1 x.2)
  | replace {x need pre} : Waits p x need → p.mutable_preconditions.get? x.1 = some pre →
      (condition pre).holds (s.get x.1) = true → (∀ y, Planned p y → y.1 ∈ need → Present s y) →
      Ordered p s (s.write x.1 x.2)

/-- The planned objects under the keys in `D` are in the store. -/
def PresentOn (p : PublicationPlan) (D : Set String) (s : Store) : Prop :=
  ∀ y, Planned p y → y.1 ∈ D → Present s y

section
variable {p : PublicationPlan} {objects : Dict PublicationObject} (hp : p.Of objects)
include hp

theorem PresentOn.insert {D : Set String} {s : Store} {x : String × PublicationObject}
    (h : PresentOn p D s) (hx : Planned p x) (hs : Present s x) : PresentOn p (insert x.1 D) s := by
  intro y hy hmem
  rcases hmem with hk | hmem
  · have hxy : y = x := Prod.ext hk (hp.planned_unique (k := x.1) (hk ▸ hy) hx)
    exact hxy ▸ hs
  · exact h y hy hmem

/-- Whatever a write of the plan changes, a planned object stays. -/
theorem Present.planned {s : Store} {x y : String × PublicationObject} (hx : Planned p x)
    (hy : Planned p y) (h : Present s y) : Present (s.write x.1 x.2) y :=
  h.write fun hk => hp.planned_unique (k := x.1) hx (hk ▸ hy)

theorem Ordered.present {s s' : Store} (h : Ordered p s s') {y : String × PublicationObject}
    (hy : Planned p y) (hs : Present s y) : Present s' y := by
  cases h with
  | same => exact hs
  | create hx _ => exact Present.planned hp (.inl hx) hy hs
  | replace hx _ _ _ => exact Present.planned hp (.inr ⟨_, hx⟩) hy hs

/-- An execution alone or among others that take no planned object away. -/
theorem walk_ordered {σ : Type} {R G : Store → Store → Prop} {mutation_checkpoint : Option (Cmd σ Unit)}
    {fail_after : Option Int}
    (hR : ∀ s s', R s s' → ∀ y, Planned p y → Present s y → Present s' y)
    (hG : ∀ s s', Ordered p s s' → G s s')
    (hcp : ∀ D st s, PresentOn p D s → (checkpoint mutation_checkpoint).wp Store.Answers R G
      (Cmd.Out (fun _ s => PresentOn p D s) fun _ _ _ => True) st s) :
    Walk Store.Answers R G p mutation_checkpoint fail_after (fun D _ s => PresentOn p D s)
      (fun _ _ _ => True) where
  created x hx D st s h := by
    refine Cmd.wp_mono (create_immutable_wp (J := PresentOn p D) (E := fun _ _ _ => True)
      (fun s s' h hs y hy hmem => hR s s' hs y hy (h y hy hmem)) (fun s _ => hG s s .same) ?_
      (fun _ _ _ _ => trivial) h) ?_
    · intro s h hnone
      refine ⟨hG _ _ (.create hx hnone), fun y hy hmem => ?_⟩
      exact Present.planned hp (.inl hx) hy (h y hy hmem)
    · rintro (e | a) st s hr
      · trivial
      · exact hr.1.insert hp (.inl hx) hr.2
  replaced x need pre hx hpre D st s hneed h := by
    refine Cmd.wp_mono (put_mutable_wp (J := PresentOn p D) (E := fun _ _ _ => True)
      (fun s s' h hs y hy hmem => hR s s' hs y hy (h y hy hmem)) (fun s _ => hG s s .same) ?_
      (fun _ _ _ _ => trivial) h) ?_
    · intro s h hc
      refine ⟨hG _ _ (.replace hx hpre hc fun y hy hmem => h y hy (hneed hmem)), fun y hy hmem => ?_⟩
      exact Present.planned hp (.inr ⟨_, hx⟩) hy (h y hy hmem)
    · rintro (e | a) st s hr
      · trivial
      · exact hr.1.insert hp (.inr ⟨_, hx⟩) hr.2
  verified x hx D st s hmem h := by
    refine Cmd.wp_mono (verify_wp (J := PresentOn p D) (E := fun _ _ _ => True)
      (fun s s' h hs y hy hmem => hR s s' hs y hy (h y hy hmem)) (fun s _ => hG s s .same)
      (fun _ _ _ _ => trivial) h) ?_
    rintro (e | a) st s hr
    · trivial
    · exact hr.1
  checked := hcp
  injected _ _ _ _ _ _ := trivial

end

/-! ## Commit points -/

/-- An execution that is cut anywhere: between two requests, by an injected failure, by a request
that fails or whose response is lost. -/
def Attempt (p : PublicationPlan) (s s' : Store) : Prop :=
  ∃ (fail_after : Option Int) (rest : Proc (Except PyErr Unit × Unit)),
    Conc.Part Store.Answers (execute p none fail_after ()) s rest s'

/-- Any number of attempts, one after the other. -/
abbrev Attempts (p : PublicationPlan) : Store → Store → Prop := Relation.ReflTransGen (Attempt p)

/-- What a client may conclude from each commit point. -/
structure Vouched (p : PublicationPlan) (s : Store) : Prop where
  inrelease : Present s (p.inrelease_key, p.inrelease) →
    ∀ x, x ∈ p.immutable.items ∨ x ∈ p.mutable_before_commit.items → Present s x
  checksums : ∀ x ∈ p.conveniences.items, x.1 = "manifest.json" ∨ x.1 = "SHA256SUMS" → Present s x →
    (∀ y ∈ p.conveniences.items, y.1 = "manifest.json.asc" ∨ y.1 = "SHA256SUMS.asc" → Present s y) ∧
      Present s (p.inrelease_key, p.inrelease)
  state_pointer : Present s (p.state_key, p.state_pointer) → ∀ x, Planned p x → Present s x

/-- None of the four commit points holds the planned object yet. -/
structure Unpublished (p : PublicationPlan) (s : Store) : Prop where
  inrelease : ¬ Present s (p.inrelease_key, p.inrelease)
  checksums : ∀ x ∈ p.conveniences.items, x.1 = "manifest.json" ∨ x.1 = "SHA256SUMS" → ¬ Present s x
  state_pointer : ¬ Present s (p.state_key, p.state_pointer)

theorem Unpublished.vouched {p : PublicationPlan} {s : Store} (h : Unpublished p s) : Vouched p s where
  inrelease hs := absurd hs h.inrelease
  checksums x hx hk hs := absurd hs (h.checksums x hx hk)
  state_pointer hs := absurd hs h.state_pointer

/-- A planned object that appears was written by this very step. -/
theorem Ordered.appears {p : PublicationPlan} {s s' : Store} (h : Ordered p s s')
    {y : String × PublicationObject} (hy : ¬ Present s y) (hy' : Present s' y) :
    y ∈ p.immutable.items ∨ ∃ need, Waits p y need ∧ PresentOn p need s := by
  have hwritten : ∀ x : String × PublicationObject, s' = s.write x.1 x.2 → y = x := by
    rintro x rfl
    by_cases hk : y.1 = x.1
    · rw [Present, hk, Conc.CondStore.get_write_self] at hy'
      exact Prod.ext hk (Option.some.inj hy').symm
    · rw [Present, Conc.CondStore.get_write_ne _ _ hk] at hy'
      exact absurd hy' hy
  cases h with
  | same => exact absurd hy' hy
  | create hx _ => exact .inl (hwritten _ rfl ▸ hx)
  | replace hx _ _ hneed => exact .inr ⟨_, hwritten _ rfl ▸ hx, hneed⟩

/-- Everything but the state pointer stands before the state pointer. -/
theorem before_state {p : PublicationPlan} {x : String × PublicationObject} (hx : Planned p x) (hk : x.1 ≠ p.state_key) : x.1 ∈ p.immutable.keys ∨
    x.1 ∈ p.mutable_before_commit.keys ∨ x.1 = p.inrelease_key ∨ x.1 ∈ p.conveniences.keys := by
  rcases hx with hx | ⟨need, hx⟩
  · exact .inl (List.mem_map_of_mem hx)
  · cases hx with
    | mutable_before_commit hx => exact .inr (.inl (List.mem_map_of_mem hx))
    | inrelease => exact .inr (.inr (.inl rfl))
    | convenience hx => exact .inr (.inr (.inr (List.mem_map_of_mem hx)))
    | state_pointer => exact absurd rfl hk

theorem planned_handled {p : PublicationPlan} {x : String × PublicationObject} (hx : Planned p x) : x.1 ∈ handled p := by
  by_cases hs : x.1 = p.state_key
  · exact .inr (.inr (.inr (.inr hs)))
  · rcases before_state hx hs with h | h | h | h
    · exact .inl h
    · exact .inr (.inl h)
    · exact .inr (.inr (.inl h))
    · exact .inr (.inr (.inr (.inl h)))

section
variable {p : PublicationPlan} {objects : Dict PublicationObject} (hp : p.Of objects)
  {x : String × PublicationObject} {need : Set String}
include hp

theorem not_immutable {k : String} (hk : x.1 = k) (hreq : k ∈ PublicationPlan.required) :
    x ∉ p.immutable.items := fun h => ((hp.immutable x).1 h).2.1 (hk ▸ hreq)

/-! What the commit points wait for; their keys tell the places of a plan apart. -/

theorem waits_inrelease (h : Waits p x need) (hk : x.1 = p.inrelease_key) :
    need = {k | k ∈ p.immutable.keys ∨ k ∈ p.mutable_before_commit.keys} := by
  rw [hp.inrelease_key] at hk
  cases h with
  | mutable_before_commit hx =>
    exact absurd (show x.1 ∈ PublicationPlan.required by rw [hk]; decide) ((hp.mutable_before x).1 hx).2.1
  | inrelease => rfl
  | convenience hx =>
    have := ((hp.conveniences x).1 hx).2
    rw [hk] at this
    exact absurd this (by decide)
  | state_pointer =>
    rw [hp.state_key] at hk
    dsimp only at hk
    exact absurd hk (by decide)

theorem waits_checksums (h : Waits p x need) (hk : x.1 = "manifest.json" ∨ x.1 = "SHA256SUMS") :
    p.inrelease_key ∈ need ∧ ∀ k ∈ p.conveniences.keys, endswith k ".asc" = true → k ∈ need := by
  cases h with
  | mutable_before_commit hx =>
    refine absurd ?_ ((hp.mutable_before x).1 hx).2.1
    rcases hk with hk | hk <;> rw [hk] <;> decide
  | inrelease =>
    rw [hp.inrelease_key] at hk
    dsimp only at hk
    exact absurd hk (by decide)
  | convenience hx =>
    refine ⟨.inr (.inr (.inl rfl)), fun k hmem hasc => .inr (.inr (.inr ⟨hmem, hasc, ?_⟩))⟩
    rcases hk with hk | hk <;> rw [hk] <;> decide
  | state_pointer =>
    rw [hp.state_key] at hk
    dsimp only at hk
    exact absurd hk (by decide)

theorem waits_state (h : Waits p x need) (hk : x.1 = p.state_key) :
    need = {k | k ∈ p.immutable.keys ∨ k ∈ p.mutable_before_commit.keys ∨ k = p.inrelease_key ∨
      k ∈ p.conveniences.keys} := by
  rw [hp.state_key] at hk
  cases h with
  | mutable_before_commit hx =>
    exact absurd (show x.1 ∈ PublicationPlan.required by rw [hk]; decide) ((hp.mutable_before x).1 hx).2.1
  | inrelease =>
    rw [hp.inrelease_key] at hk
    dsimp only at hk
    exact absurd hk (by decide)
  | convenience hx =>
    have := ((hp.conveniences x).1 hx).2
    rw [hk] at this
    exact absurd this (by decide)
  | state_pointer => rfl

theorem Vouched.step {s s' : Store} (h : Vouched p s) (hs : Ordered p s s') : Vouched p s' := by
  have hkeep : ∀ y, Planned p y → Present s y → Present s' y := fun y hy => hs.present hp hy
  constructor
  · -- InRelease
    intro hnew x hx
    have hplanned : Planned p x := by
      rcases hx with hx | hx
      · exact .inl hx
      · exact .inr ⟨_, .mutable_before_commit hx⟩
    by_cases hold : Present s (p.inrelease_key, p.inrelease)
    · exact hkeep x hplanned (h.inrelease hold x hx)
    · rcases hs.appears hold hnew with him | ⟨need, hw, hneed⟩
      · exact absurd him (not_immutable hp hp.inrelease_key (by decide))
      · refine hkeep x hplanned (hneed x hplanned ?_)
        rw [waits_inrelease hp hw rfl]
        exact hx.imp List.mem_map_of_mem List.mem_map_of_mem
  · -- manifest.json and SHA256SUMS
    intro x hx hk hnew
    by_cases hold : Present s x
    · obtain ⟨hasc, hin⟩ := h.checksums x hx hk hold
      exact ⟨fun y hy hyk => hkeep y (.inr ⟨_, .convenience hy⟩) (hasc y hy hyk),
        hkeep _ (.inr ⟨_, .inrelease⟩) hin⟩
    · rcases hs.appears hold hnew with him | ⟨need, hw, hneed⟩
      · rcases hk with hk | hk <;> exact absurd him (not_immutable hp hk (by decide))
      · obtain ⟨hin, hasc⟩ := waits_checksums hp hw hk
        refine ⟨fun y hy hyk => ?_, ?_⟩
        · have hend : endswith y.1 ".asc" = true := by rcases hyk with hyk | hyk <;> rw [hyk] <;> decide
          have hplanned : Planned p y := .inr ⟨_, .convenience hy⟩
          exact hkeep y hplanned (hneed y hplanned (hasc _ (List.mem_map_of_mem hy) hend))
        · exact hkeep _ (.inr ⟨_, .inrelease⟩) (hneed _ (.inr ⟨_, .inrelease⟩) hin)
  · -- the state pointer
    intro hnew x hx
    by_cases hold : Present s (p.state_key, p.state_pointer)
    · exact hkeep x hx (h.state_pointer hold x hx)
    · by_cases hk : x.1 = p.state_key
      · have hxs : x = (p.state_key, p.state_pointer) :=
          Prod.ext hk (hp.planned_unique (k := p.state_key) (hk ▸ hx) (.inr ⟨_, .state_pointer⟩))
        exact hxs ▸ hnew
      · rcases hs.appears hold hnew with him | ⟨need, hw, hneed⟩
        · exact absurd him (not_immutable hp hp.state_key (by decide))
        · refine hkeep x hx (hneed x hx ?_)
          rw [waits_state hp hw rfl]
          exact before_state hx hk

/-- An attempt takes ordered steps only. -/
theorem Attempt.ordered {s s' : Store} (h : Attempt p s s') : Relation.ReflTransGen (Ordered p) s s' := by
  obtain ⟨fail_after, rest, hpart⟩ := h
  have hw : Walk Store.Answers Eq (Ordered p) p none fail_after (fun D (_ : Unit) s => PresentOn p D s)
      (fun _ _ _ => True) :=
    walk_ordered hp (fun s s' h y _ hy => h ▸ hy) (fun _ _ h => h) (fun _ _ _ h => h)
  have hexec := hw.execute () s (fun y _ hy => absurd hy (Set.notMem_empty _))
  exact (Conc.wp_part hpart hexec).1

end

/-- **Commit points.** At every instant of every crashed and retried publication, a commit point
that shows the planned object vouches for everything that stands before it. -/
theorem commit_order {digest : ByteArray → String} {max_object_bytes : Int}
    {inventory : List RepositoryObject} {p : PublicationPlan}
    (hp : PublicationPlan.Built digest max_object_bytes inventory p) {s0 s : Store}
    (h0 : Unpublished p s0) (h : Attempts p s0 s) : Vouched p s := by
  obtain ⟨objects, -, hof⟩ := hp.of
  induction h with
  | refl => exact h0.vouched
  | tail _ hstep ih =>
    have hsteps := hstep.ordered hof
    clear hstep
    induction hsteps with
    | refl => exact ih
    | tail _ hs ih => exact ih.step hof hs

theorem unpublished_empty (p : PublicationPlan) : Unpublished p Conc.CondStore.empty := by
  constructor <;> simp [Present]

/-- Cut after five requests. -/
theorem commit_order_sample : ∃ p,
    PublicationPlan.Built PublicationPlan.Sample.hexdigest 1000 (PublicationPlan.Sample.repository ⟨#[97]⟩) p ∧
      Vouched p ((execute p none none ()).runN Store.serve 5 Conc.CondStore.empty).2 := by
  obtain ⟨p, s', hrun⟩ := PublicationPlan.Sample.run_of_isOk
    (PublicationPlan.Sample.repository ⟨#[97]⟩) Conc.CondStore.empty (by decide +kernel)
  refine ⟨p, ⟨_, s', hrun⟩, commit_order ⟨_, s', hrun⟩ (unpublished_empty p) ?_⟩
  exact .single ⟨none, _, Conc.part_runN (fun _ _ _ _ => Store.answers_serve) 5 _ _⟩

end PublicationExecutor
