import DkcLinux.CommitOrder
import DkcLinux.StorageRepository

/-!
# Publications that race

Any number of executions over one store, request by request in any order. Every write of a run
names the ETag its own plan captured (`Writes`), so the state pointer, captured by all of them,
moves once (`Race`): whoever finds it moved to something else cannot return. An immutable key is
only ever created, and every plan agrees on which keys are immutable (`ClassedPlan`).
-/

open Py PublicationExecutor

namespace Agreement

/-- What a run does to the store: it creates an absent immutable object, or replaces a mutable
object under the captured precondition. -/
inductive Writes (p : PublicationPlan) (s : Store) : Store → Prop
  | same : Writes p s s
  | create {x} : x ∈ p.immutable.items → s.get x.1 = none → Writes p s (s.write x.1 x.2)
  | replace {x need pre} : Waits p x need → p.mutable_preconditions.get? x.1 = some pre →
      (condition pre).holds (s.get x.1) = true → Writes p s (s.write x.1 x.2)

/-- A write condition that can never hold again. -/
structure Shut (c : Conc.Cond) (k : String) (s : Store) : Prop where
  refused : c.holds (s.get k) = false
  issued : ∀ t, c = .ifMatch t → t < s.revision

/-- The rest of the store moved on, and the key `k` at most from a state that `c` allows to one
that it never allows again. -/
structure Race (c : Conc.Cond) (k : String) (s s' : Store) : Prop where
  revision : s.revision ≤ s'.revision
  key : s'.get k = s.get k ∨ (c.holds (s.get k) = true ∧ Shut c k s')

theorem shut_write {c : Conc.Cond} {k : String} {s : Store} {v : PublicationObject}
    (h : c.holds (s.get k) = true) : Shut c k (s.write k v) := by
  cases c with
  | ifNoneMatch => exact ⟨by simp [Conc.Cond.holds], by simp⟩
  | ifMatch t =>
    obtain ⟨e, he, rfl⟩ := Conc.Cond.holds_ifMatch.1 h
    have hlt := Conc.CondStore.etag_lt he
    refine ⟨?_, ?_⟩
    · rw [Conc.CondStore.get_write_self]
      simp only [Conc.Cond.holds, beq_eq_false_iff_ne, ne_eq]
      omega
    · rintro t ⟨⟩
      rw [Conc.CondStore.revision_write]
      omega

section
variable {c : Conc.Cond} {k : String} {s s' s'' : Store}

theorem Race.refl : Race c k s s := ⟨le_rfl, .inl rfl⟩

theorem Shut.race (h : Shut c k s) (hr : Race c k s s') : Shut c k s' := by
  rcases hr.key with hk | ⟨-, hshut⟩
  · exact ⟨hk ▸ h.refused, fun t ht => lt_of_lt_of_le (h.issued t ht) hr.revision⟩
  · exact hshut

theorem Race.trans (h : Race c k s s') (h' : Race c k s' s'') : Race c k s s'' := by
  refine ⟨h.revision.trans h'.revision, ?_⟩
  rcases h.key with hk | ⟨hc, hshut⟩
  · rcases h'.key with hk' | ⟨hc', hshut'⟩
    · exact .inl (hk'.trans hk)
    · exact .inr ⟨hk ▸ hc', hshut'⟩
  · exact .inr ⟨hc, hshut.race h'⟩

theorem race_write {k' : String} {v : PublicationObject} (h : k' = k → c.holds (s.get k) = true) :
    Race c k s (s.write k' v) := by
  refine ⟨Nat.le_succ _, ?_⟩
  by_cases hk : k' = k
  · subst hk
    exact .inr ⟨h rfl, shut_write (h rfl)⟩
  · exact .inl (Conc.CondStore.get_write_ne _ _ (Ne.symm hk))

end

/-! ## The state pointer -/

/-- Plans of verified repositories that all captured the same precondition of the state pointer
and propose pointers that differ from each other and from the stored one. -/
structure Competing {ι : Type} (digest : ByteArray → String) (guess_type : String → Option String)
    (plans : ι → PublicationPlan) (c : Option Nat) (s0 : Store) : Prop where
  verified : ∀ i, StorageRepository.VerifiedPlan digest guess_type (plans i)
  precondition : ∀ i, (plans i).mutable_preconditions.get? PublicationPlan.STATE_KEY = some c
  distinct : ∀ i j, (plans i).state_pointer = (plans j).state_pointer → i = j
  new : ∀ i, ¬ Present s0 (PublicationPlan.STATE_KEY, (plans i).state_pointer)

section
variable {p : PublicationPlan} {objects : Dict PublicationObject} (hp : p.Of objects) {c : Option Nat}
  (hc : p.mutable_preconditions.get? PublicationPlan.STATE_KEY = some c)
include hp hc

theorem Writes.race {s s' : Store} (h : Writes p s s') :
    Race (condition c) PublicationPlan.STATE_KEY s s' := by
  cases h with
  | same => exact .refl
  | create hx _ =>
    refine race_write fun hk => absurd hx (not_immutable hp hk (by decide))
  | replace hx hpre hholds =>
    refine race_write fun hk => ?_
    rw [hk] at hpre hholds
    obtain rfl := Option.some.inj (hpre.symm.trans hc)
    exact hholds

end

/-- What a run knows of the state pointer: it stands as at the start, or it has moved for good;
after its own turn it has moved to its own proposal. -/
structure Turn (p : PublicationPlan) (c : Option Nat) (s0 : Store) (D : Set String) (s : Store) : Prop where
  moved : s.get PublicationPlan.STATE_KEY = s0.get PublicationPlan.STATE_KEY ∨
    Shut (condition c) PublicationPlan.STATE_KEY s
  own : PublicationPlan.STATE_KEY ∈ D → Present s (PublicationPlan.STATE_KEY, p.state_pointer) ∧
    Shut (condition c) PublicationPlan.STATE_KEY s

theorem Turn.race {p : PublicationPlan} {c : Option Nat} {s0 s s' : Store} {D : Set String}
    (h : Turn p c s0 D s) (hr : Race (condition c) PublicationPlan.STATE_KEY s s') : Turn p c s0 D s' := by
  constructor
  · rcases hr.key with hk | ⟨-, hshut⟩
    · rcases h.moved with hm | hm
      · exact .inl (hk.trans hm)
      · exact .inr (hm.race hr)
    · exact .inr hshut
  · intro hD
    obtain ⟨hpres, hshut⟩ := h.own hD
    refine ⟨?_, hshut.race hr⟩
    rcases hr.key with hk | ⟨hc, -⟩
    · rw [Present, hk]
      exact hpres
    · rw [hshut.refused] at hc
      cases hc

section
variable {p : PublicationPlan} {objects : Dict PublicationObject} (hp : p.Of objects) {c : Option Nat}
  (hc : p.mutable_preconditions.get? PublicationPlan.STATE_KEY = some c) {s0 : Store}
  (hnew : ¬ Present s0 (PublicationPlan.STATE_KEY, p.state_pointer))
include hp hc hnew

theorem walk_turn (fail_after : Option Int) :
    Walk Store.Answers (Race (condition c) PublicationPlan.STATE_KEY) (Writes p) p none fail_after
      (fun D (_ : Unit) s => Turn p c s0 D s) (fun _ _ _ => True) where
  created x hx D st s h := by
    have hk : x.1 ≠ PublicationPlan.STATE_KEY := fun hk => not_immutable hp hk (by decide) hx
    refine Cmd.wp_mono (create_immutable_wp (J := Turn p c s0 D) (E := fun _ _ _ => True)
      (fun s s' h hs => h.race hs) (fun s _ => .same) (fun s h hnone => ?_) (fun _ _ _ _ => trivial) h) ?_
    · have hw : Writes p s (s.write x.1 x.2) := .create hx hnone
      exact ⟨hw, h.race (hw.race hp hc)⟩
    · rintro (e | a) st s hr
      · trivial
      · exact ⟨hr.1.moved, fun hD => hr.1.own (hD.resolve_left (Ne.symm hk))⟩
  replaced x need pre hx hpre D st s hneed h := by
    refine Cmd.wp_mono (put_mutable_wp (J := Turn p c s0 D) (E := fun _ _ _ => True)
      (fun s s' h hs => h.race hs) (fun s _ => .same) (fun s h hholds => ?_) (fun _ _ _ _ => trivial) h) ?_
    · have hw : Writes p s (s.write x.1 x.2) := .replace hx hpre hholds
      exact ⟨hw, h.race (hw.race hp hc)⟩
    · rintro (e | a) st s hr
      · trivial
      · refine ⟨hr.1.moved, fun hD => ?_⟩
        by_cases hk : x.1 = PublicationPlan.STATE_KEY
        · -- the pointer shows the proposal, so it is not the one of the start
          have hx2 : x.2 = p.state_pointer :=
            hp.planned_unique (k := x.1) (.inr ⟨need, hx⟩) (by rw [hk, ← hp.state_key]; exact .inr ⟨_, .state_pointer⟩)
          have hpres : Present s (PublicationPlan.STATE_KEY, p.state_pointer) := by
            rw [← hk, ← hx2]
            exact hr.2
          refine ⟨hpres, hr.1.moved.resolve_left fun hsame => hnew ?_⟩
          rw [Present, ← hsame]
          exact hpres
        · exact hr.1.own (hD.resolve_left (Ne.symm hk))
  verified x hx D st s hmem h := by
    refine Cmd.wp_mono (verify_wp (J := Turn p c s0 D) (E := fun _ _ _ => True)
      (fun s s' h hs => h.race hs) (fun s _ => .same) (fun _ _ _ _ => trivial) h) ?_
    rintro (e | a) st s hr
    · trivial
    · exact hr.1
  checked D st s h := h
  injected _ _ _ _ _ _ := trivial

end

/-! ## A key that was changed meanwhile -/

/-- The condition under which a plan writes a key. -/
def WriteCondition (p : PublicationPlan) (key : String) (c : Conc.Cond) : Prop :=
  (key ∈ p.immutable.keys ∧ c = .ifNoneMatch) ∨
    ∃ pre, p.mutable_preconditions.get? key = some pre ∧ c = condition pre

/-- The requests of an execution. -/
def Issues (p : PublicationPlan) : Op → Prop
  | .get _ => True
  | .put key v c => Planned p (key, v) ∧ WriteCondition p key c
  | _ => False

/-- Answers that neither show the object `x` nor accept a write of its key. -/
def Rejects (x : String × PublicationObject) : (o : Op) → o.Res → Prop
  | .get key, r => key = x.1 → ∀ e, r = .ok (some e) → e.value ≠ x.2
  | .put key _ _, r => key = x.1 → ∀ e, r ≠ .ok e
  | _, _ => True

/-- A key has one write condition. -/
theorem writeCondition_unique {p : PublicationPlan} {key : String} {c c' : Conc.Cond}
    (h : WriteCondition p key c) (h' : WriteCondition p key c') : c = c' := by
  have hdisj : ∀ pre, key ∈ p.immutable.keys → p.mutable_preconditions.get? key ≠ some pre := by
    intro pre hk hpre
    have hmem : key ∈ p.immutable.keys.toFinset := List.mem_toFinset.2 hk
    exact Finset.disjoint_left.1 p.disjoint_immutable hmem (p.mem_mutable.2 ⟨pre, hpre⟩)
  rcases h with ⟨hk, rfl⟩ | ⟨pre, hpre, rfl⟩
  · rcases h' with ⟨-, rfl⟩ | ⟨pre', hpre', -⟩
    · rfl
    · exact absurd hpre' (hdisj pre' hk)
  · rcases h' with ⟨hk, -⟩ | ⟨pre', hpre', rfl⟩
    · exact absurd hpre (hdisj pre hk)
    · rw [hpre, Option.some.injEq] at hpre'
      rw [hpre']

/-- The world of a run that only remembers the last request, and whose answers reject `x`. -/
def rejecting (x : String × PublicationObject) (o : Op) (_ : Option Op) (r : o.Res) (w : Option Op) : Prop :=
  Rejects x o r ∧ w = some o

/-- A program that issues requests of the plan only, and does not return as long as its answers
reject `x`. -/
def Stuck (p : PublicationPlan) (x : String × PublicationObject) (t : Proc (Except PyErr Unit × Unit)) : Prop :=
  ∀ w, Conc.wp (rejecting x) Eq (fun _ w => ∀ o, w = some o → Issues p o) t (fun r _ => ∀ u, r.1 ≠ .ok u) w

theorem Stuck.step {p : PublicationPlan} {x : String × PublicationObject} {o : Op}
    {k : o.Res → Proc (Except PyErr Unit × Unit)} (h : Stuck p x (.op o k)) {r : o.Res} (hr : Rejects x o r) :
    Stuck p x (k r) := by
  intro w
  have hstep := h (some o) (some o) rfl r (some o) ⟨hr, rfl⟩
  cases hk : k r with
  | ret a => rw [hk] at hstep; exact hstep.2
  | op o' k' =>
    rw [hk] at hstep
    rintro w' rfl r' w'' hr'
    exact hstep.2 (some o) rfl r' w'' hr'

theorem Stuck.issues {p : PublicationPlan} {x : String × PublicationObject} {o : Op}
    {k : o.Res → Proc (Except PyErr Unit × Unit)} (h : Stuck p x (.op o k)) : Issues p o := by
  have hr : ∃ r : o.Res, Rejects x o r := by
    cases o with
    | get key => exact ⟨.ok none, fun _ e he => by cases he⟩
    | put key v c => exact ⟨.error .AssertionError, fun _ e he => by cases he⟩
    | delete key => exact ⟨.ok (), trivial⟩
    | list_objects under => exact ⟨.ok [], trivial⟩
    | clock => exact ⟨(0 : Nat), trivial⟩
    | terminal_proof owner => exact ⟨.ok true, trivial⟩
    | sleep seconds => exact ⟨(), trivial⟩
  obtain ⟨r, hr⟩ := hr
  exact (h none none rfl r (some o) ⟨hr, rfl⟩).1 o rfl

section
variable {σ : Type} {p : PublicationPlan} {x : String × PublicationObject} {key : String}
  {v : PublicationObject} {c : Conc.Cond} {st : σ} {w : Option Op}

theorem wp_get_rejecting {Q : Except PyErr (Option StoredObject) → σ → Option Op → Prop}
    (hok : ∀ v w, (key = x.1 → ∀ e, v = some e → e.value ≠ x.2) → Q (.ok v) st w)
    (herr : ∀ e w, Q (.error e) st w) :
    (Cmd.get key : Cmd σ _).wp (rejecting x) Eq (fun _ w => ∀ o, w = some o → Issues p o) Q st w := by
  rintro w' rfl r w'' ⟨hr, rfl⟩
  refine ⟨by rintro o ⟨⟩; trivial, ?_⟩
  cases r with
  | ok v => exact hok v _ fun hk e he => hr hk e (by rw [he])
  | error e => exact herr e _

theorem wp_put_rejecting {Q : Except PyErr StoredObject → σ → Option Op → Prop}
    (hput : Issues p (.put key v c)) (hok : key ≠ x.1 → ∀ e w, Q (.ok e) st w)
    (herr : ∀ e w, Q (.error e) st w) :
    (Cmd.put key v c : Cmd σ _).wp (rejecting x) Eq (fun _ w => ∀ o, w = some o → Issues p o) Q st w := by
  rintro w' rfl r w'' ⟨hr, rfl⟩
  refine ⟨by rintro o ⟨⟩; exact hput, ?_⟩
  cases r with
  | ok e => exact hok (fun hk => hr hk e rfl) e _
  | error e => exact herr e _

end

section
variable {p : PublicationPlan} {objects : Dict PublicationObject} (hp : p.Of objects)
  {x : String × PublicationObject} (hx : Planned p x)
include hp hx

/-- The walk never gets past the key of `x`. -/
theorem walk_stuck (fail_after : Option Int) :
    Walk (rejecting x) Eq (fun _ w => ∀ o, w = some o → Issues p o) p none fail_after
      (fun D (_ : Unit) _ => x.1 ∉ D) (fun _ _ _ => True) where
  created y hy D st w h := by
    have hnext : y.1 ≠ x.1 → x.1 ∉ insert y.1 D := fun hk hmem => hmem.elim (fun he => hk he.symm) h
    rw [create_immutable, Cmd.wp_tryCatch]
    refine wp_put_rejecting ⟨.inl hy, .inl ⟨List.mem_map_of_mem hy, rfl⟩⟩ (fun hk e w => hnext hk)
      fun e w => ?_
    cases e with
    | PreconditionFailed msg =>
      refine Cmd.wp_bind.2 (wp_get_rejecting (fun v w hv => ?_) fun _ _ => trivial)
      rw [Cmd.after_ok]
      cases v with
      | none => trivial
      | some current =>
        by_cases hval : current.value = y.2
        · simp only [hval, ne_eq, not_true_eq_false, if_false]
          refine hnext fun hk => hv hk current rfl ?_
          rw [hval]
          exact hp.planned_unique (k := x.1) (.inl (hk ▸ hy)) hx
        · simp only [hval, ne_eq, not_false_eq_true, if_true]
          trivial
    | _ => trivial
  replaced y need pre hy hpre D st w _ h := by
    have hnext : y.1 ≠ x.1 → x.1 ∉ insert y.1 D := fun hk hmem => hmem.elim (fun he => hk he.symm) h
    refine Cmd.wp_bind.2 (wp_get_rejecting (fun v w hv => ?_) fun _ _ => trivial)
    rw [Cmd.after_ok]
    split
    · next heq =>
      obtain ⟨e, he, hval⟩ := Option.map_eq_some_iff.1 heq
      refine hnext fun hk => hv hk e he ?_
      rw [hval]
      exact hp.planned_unique (k := x.1) (.inr ⟨need, hk ▸ hy⟩) hx
    · exact Cmd.wp_bind.2 (wp_put_rejecting ⟨.inr ⟨need, hy⟩, .inr ⟨pre, hpre, rfl⟩⟩
        (fun hk e w => hnext hk) fun _ _ => trivial)
  verified y hy D st w hmem h := by
    refine Cmd.wp_bind.2 (wp_get_rejecting (fun v w hv => ?_) fun _ _ => trivial)
    rw [Cmd.after_ok]
    split
    · trivial
    · exact h
  checked D st w h := h
  injected _ _ _ _ _ _ := trivial

theorem stuck_execute (fail_after : Option Int) : Stuck p x (execute p none fail_after ()) := by
  intro w
  have hw := (walk_stuck hp hx fail_after).execute () w (Set.notMem_empty _)
  refine Conc.wp_post (fun r w h u hu => ?_) hw
  rw [hu] at h
  exact h (planned_handled hx)

end

/-! ## All runs together -/

theorem condition_holds {pre : Option Nat} {x : Option StoredObject}
    (h : (condition pre).holds x = true) : pre = x.map (·.etag) := by
  cases pre with
  | none =>
    obtain rfl := Conc.Cond.holds_ifNoneMatch.1 h
    rfl
  | some t =>
    obtain ⟨e, rfl, rfl⟩ := Conc.Cond.holds_ifMatch.1 h
    rfl

/-- A key that a run changes was absent and immutable, or carried the captured ETag. -/
theorem Writes.changed {p : PublicationPlan} {s s' : Store} (h : Writes p s s') {k : String}
    (hk : s'.get k ≠ s.get k) : (k ∈ p.immutable.keys ∧ s.get k = none) ∨
      (k ∈ p.mutable ∧ p.mutable_preconditions.get? k = some ((s.get k).map (·.etag))) := by
  have hkey : ∀ x : String × PublicationObject, s' = s.write x.1 x.2 → x.1 = k := by
    rintro x rfl
    by_contra hne
    exact hk (Conc.CondStore.get_write_ne _ _ (Ne.symm hne))
  cases h with
  | same => exact absurd rfl hk
  | create hx hnone =>
    obtain rfl := hkey _ rfl
    exact .inl ⟨List.mem_map_of_mem hx, hnone⟩
  | replace hx hpre hholds =>
    obtain rfl := hkey _ rfl
    exact .inr ⟨hx.mem_mutable, condition_holds hholds ▸ hpre⟩

/-- Nothing is deleted, and a new write carries a new ETag. -/
theorem Writes.shut {p : PublicationPlan} {s s' : Store} (h : Writes p s s') {cond : Conc.Cond} {k : String}
    (hs : Shut cond k s) : Shut cond k s' := by
  have hwrite : ∀ x : String × PublicationObject, Shut cond k (s.write x.1 x.2) := by
    intro x
    refine ⟨?_, fun t ht => Nat.lt_succ_of_lt (hs.issued t ht)⟩
    by_cases hk : k = x.1
    · subst hk
      rw [Conc.CondStore.get_write_self]
      cases cond with
      | ifNoneMatch => rfl
      | ifMatch t =>
        have hlt := hs.issued t rfl
        simp only [Conc.Cond.holds, beq_eq_false_iff_ne, ne_eq]
        omega
    · rw [Conc.CondStore.get_write_ne _ _ hk]
      exact hs.refused
  cases h with
  | same => exact hs
  | create _ _ => exact hwrite _
  | replace _ _ _ => exact hwrite _

/-- What a key carries is no condition that is gone. -/
theorem captured_not_shut {k : String} {s : Store}
    (hs : Shut (condition ((s.get k).map (·.etag))) k s) : False := by
  have := hs.refused
  cases hget : s.get k <;> simp [hget, condition, Conc.Cond.holds] at this

/-- A run does not change a key whose write condition is gone. -/
theorem Writes.frozen {p : PublicationPlan} {s s' : Store} (h : Writes p s s') {cond : Conc.Cond} {k : String}
    (hcond : WriteCondition p k cond) (hs : Shut cond k s) : s'.get k = s.get k := by
  by_contra hne
  rcases h.changed hne with ⟨hk, hnone⟩ | ⟨-, hpre⟩
  · obtain rfl := writeCondition_unique hcond (.inl ⟨hk, rfl⟩)
    have := hs.refused
    rw [hnone] at this
    cases this
  · obtain rfl := writeCondition_unique hcond (.inr ⟨_, hpre, rfl⟩)
    exact captured_not_shut hs

section
variable {ι : Type} [DecidableEq ι]

abbrev Config (ι : Type) := Conc.Config ι Store (Proc (Except PyErr Unit × Unit))

/-- Every run at its beginning. -/
def start (plans : ι → PublicationPlan) (fail_after : ι → Option Int) (s0 : Store) : Config ι :=
  ⟨s0, fun i => execute (plans i) none (fail_after i) ()⟩

abbrev Step : Config ι → Option (ι × Op) → Config ι → Prop :=
  Conc.Step (fun _ => Store.Answers) (fun _ _ => False) (fun _ p => p.next)

abbrev Steps : Config ι → List (Option (ι × Op) × Config ι) → Config ι → Prop :=
  Conc.Steps (fun _ => Store.Answers) (fun _ _ => False) (fun _ p => p.next)

/-- An operation on a key. -/
def Touches (key : String) : Op → Prop
  | .get key' => key' = key
  | .put key' _ _ => key' = key
  | .delete key' => key' = key
  | _ => False

variable {digest : ByteArray → String} {guess_type : String → Option String}
  {plans : ι → PublicationPlan} {c : Option Nat} {s0 : Store} (h : Competing digest guess_type plans c s0)
  {fail_after : ι → Option Int}
include h

/-- What run `i` knows while the others race. -/
def Knows (plans : ι → PublicationPlan) (c : Option Nat) (s0 : Store) (i : ι)
    (t : Proc (Except PyErr Unit × Unit)) (s : Store) : Prop :=
  Conc.wp Store.Answers (Race (condition c) PublicationPlan.STATE_KEY) (Writes (plans i)) t
    (fun r s => Cmd.Out (fun (_ : Unit) s => Turn (plans i) c s0 (handled (plans i)) s)
      (fun _ _ _ => True) r.1 r.2 s) s

omit h [DecidableEq ι] in
theorem turn_stable (i : ι) (r : Except PyErr Unit × Unit) (s s' : Store)
    (hr : Cmd.Out (fun (_ : Unit) s => Turn (plans i) c s0 (handled (plans i)) s)
      (fun _ _ _ => True) r.1 r.2 s) (hs : Race (condition c) PublicationPlan.STATE_KEY s s') :
    Cmd.Out (fun (_ : Unit) s => Turn (plans i) c s0 (handled (plans i)) s)
      (fun _ _ _ => True) r.1 r.2 s' := by
  rcases r with ⟨e | u, st⟩
  · trivial
  · exact Turn.race hr hs

theorem outline : Conc.Outline (fun _ : ι => Store.Answers) (fun _ _ => False) (fun _ p => p.next)
    (fun _ => Race (condition c) PublicationPlan.STATE_KEY) (fun i => Writes (plans i))
    (Knows plans c s0) := by
  refine Conc.outline_wp (fun _ _ => .refl) (fun _ _ _ _ => .trans) turn_stable ?_ (fun _ _ _ h => h.elim)
  intro i j s s' _ hw
  obtain ⟨⟨objects, hof⟩, -⟩ := (h.verified j).of
  exact hw.race hof (h.precondition j)

omit [DecidableEq ι] in
theorem knows_start (i : ι) : Knows plans c s0 i ((start plans fail_after s0).thread i) s0 := by
  obtain ⟨⟨objects, hof⟩, -⟩ := (h.verified i).of
  have hw := walk_turn hof (h.precondition i) (h.new i) (fail_after i)
  refine hw.execute () s0 ⟨.inl rfl, fun hD => absurd hD (Set.notMem_empty _)⟩

theorem knows {tr} {cfg : Config ι} (hs : Steps (start plans fail_after s0) tr cfg) (i : ι) :
    Knows plans c s0 i (cfg.thread i) cfg.world :=
  (outline h).steps (knows_start h) hs i

/-- Every step of a run is a write of its own plan. -/
theorem step_writes {tr} {cfg cfg' : Config ι} (hs : Steps (start plans fail_after s0) tr cfg) {i : ι} {o : Op}
    (hstep : Step cfg (some (i, o)) cfg') : Writes (plans i) cfg.world cfg'.world :=
  (outline h).guarantee (knows h hs) hstep

/-- At most one run returns. -/
theorem one_returns {tr} {cfg : Config ι} (hs : Steps (start plans fail_after s0) tr cfg) {i j : ι}
    {u v st st'} (hi : cfg.thread i = .ret (.ok u, st)) (hj : cfg.thread j = .ret (.ok v, st')) : i = j := by
  have hstate : ∀ i, PublicationPlan.STATE_KEY ∈ handled (plans i) := by
    intro i
    obtain ⟨⟨objects, hof⟩, -⟩ := (h.verified i).of
    exact .inr (.inr (.inr (.inr hof.state_key.symm)))
  have hki := knows h hs i
  have hkj := knows h hs j
  rw [hi] at hki
  rw [hj] at hkj
  have hpi : Present cfg.world _ := (Turn.own hki (hstate i)).1
  have hpj : Present cfg.world _ := (Turn.own hkj (hstate j)).1
  exact h.distinct i j (Option.some.inj (hpi.symm.trans hpj))

omit h in
/-- One step of the system leaves a run stuck, unless the run is given what it waits for. -/
theorem Stuck.system {p : PublicationPlan} {x : String × PublicationObject} {cfg cfg' : Config ι} {l} {i : ι}
    (hst : Stuck p x (cfg.thread i)) (hstep : Step cfg l cfg')
    (hrej : ∀ o r, l = some (i, o) → Issues p o → Store.Answers o cfg.world r cfg'.world → Rejects x o r) :
    Stuck p x (cfg'.thread i) := by
  cases hstep with
  | @client j o k r w hn hr =>
    by_cases hij : i = j
    · subst hij
      cases ht : cfg.thread i with
      | ret a =>
        rw [ht] at hn
        cases hn
      | op o' k' =>
        rw [ht] at hn hst
        cases hn
        simpa using hst.step (hrej o r rfl hst.issues hr)
    · simpa [Function.update_of_ne hij] using hst
  | env he => exact he.elim

/-- A run that has not touched the key of `x` is stuck at it. -/
theorem stuck_untouched {tr} {cfg : Config ι} (hs : Steps (start plans fail_after s0) tr cfg) {i : ι}
    {x : String × PublicationObject} (hx : Planned (plans i) x)
    (htr : ∀ y ∈ tr, ∀ o, y.1 = some (i, o) → ¬ Touches x.1 o) : Stuck (plans i) x (cfg.thread i) := by
  obtain ⟨⟨objects, hof⟩, -⟩ := (h.verified i).of
  have hstart : Stuck (plans i) x ((start plans fail_after s0).thread i) := stuck_execute hof hx _
  clear h
  revert hstart htr
  generalize start plans fail_after s0 = cfg0 at hs
  induction hs with
  | nil => exact fun _ hstart => hstart
  | cons hstep _ ih =>
    intro htr hstart
    refine ih (fun y hy => htr y (List.mem_cons_of_mem _ hy)) (hstart.system hstep ?_)
    intro o r hl _ _
    have hnot := htr _ List.mem_cons_self o hl
    cases o with
    | get key => exact fun hk => absurd hk hnot
    | put key v c => exact fun hk => absurd hk hnot
    | _ => trivial

/-- A key that `x` belongs under was changed to something else, and stays so. -/
structure Stale (x : String × PublicationObject) (cond : Conc.Cond) (s : Store) : Prop where
  shut : Shut cond x.1 s
  other : ¬ Present s x

omit h in
/-- A stale key rejects the run. -/
theorem Stale.rejects {p : PublicationPlan} {objects : Dict PublicationObject} (hp : p.Of objects)
    {x : String × PublicationObject} (hx : Planned p x) {cond : Conc.Cond}
    (hcond : WriteCondition p x.1 cond) {s s' : Store} (hs : Stale x cond s) {o : Op} {r : o.Res}
    (ho : Issues p o) (hr : Store.Answers o s r s') : Rejects x o r := by
  cases o with
  | get key =>
    rintro rfl e he
    cases hr with
    | get =>
      intro hv
      refine hs.other ?_
      rw [Present, Except.ok.inj he, Option.map_some, hv]
    | getFailed _ => cases he
  | put key v c =>
    rintro rfl e he
    obtain ⟨hplanned, hc⟩ := ho
    obtain rfl := writeCondition_unique hcond hc
    cases hr with
    | put hholds =>
      rw [hs.shut.refused] at hholds
      cases hholds
    | putReconciled hget hv =>
      refine hs.other ?_
      rw [Present, hget, Option.map_some, hv, hp.planned_unique (k := x.1) hplanned hx]
    | putRefused _ => cases he
    | putFailed _ => cases he
    | putUnanswered _ _ => cases he
  | _ => trivial

/-- A key that every plan would write under the same condition does not change any more. -/
theorem stale_same {tr} {cfg cfg' : Config ι} {l} (hs : Steps (start plans fail_after s0) tr cfg)
    (hstep : Step cfg l cfg') {i : ι} {x : String × PublicationObject} {cond : Conc.Cond}
    (hcond : WriteCondition (plans i) x.1 cond)
    (hsame : ∀ j pre, (plans j).mutable_preconditions.get? x.1 = some pre → cond = condition pre)
    (hshut : Shut cond x.1 cfg.world) : cfg'.world.get x.1 = cfg.world.get x.1 := by
  cases l with
  | none =>
    cases hstep with
    | env he => exact he.elim
  | some a =>
    obtain ⟨j, o⟩ := a
    by_contra hne
    rcases (step_writes h hs hstep).changed hne with ⟨hk, hnone⟩ | ⟨-, hpre⟩
    · rcases hcond with ⟨-, rfl⟩ | ⟨pre, hpre, -⟩
      · have := hshut.refused
        rw [hnone] at this
        cases this
      · -- mutable in one plan, immutable in the other
        have hmut := (h.verified i).of.2.mutable x.1 ((plans i).mem_mutable.2 ⟨pre, hpre⟩)
        rw [(h.verified j).of.2.immutable x.1 hk] at hmut
        cases hmut
    · rw [hsame j _ hpre] at hshut
      exact captured_not_shut hshut

theorem stale_run {tr tr'} {cfg cfg' : Config ι} (hs : Steps (start plans fail_after s0) tr cfg)
    (hs' : Steps cfg tr' cfg') {i : ι} {x : String × PublicationObject} (hx : Planned (plans i) x)
    {cond : Conc.Cond} (hcond : WriteCondition (plans i) x.1 cond) (hstuck : Stuck (plans i) x (cfg.thread i))
    (hstale : Stale x cond cfg.world)
    (hother : (∀ y ∈ tr', ¬ Present y.2.world x) ∨
      ∀ j pre, (plans j).mutable_preconditions.get? x.1 = some pre → cond = condition pre) :
    Stuck (plans i) x (cfg'.thread i) ∧ Shut cond x.1 cfg'.world := by
  obtain ⟨⟨objects, hof⟩, -⟩ := (h.verified i).of
  induction hs' generalizing tr with
  | nil => exact ⟨hstuck, hstale.shut⟩
  | @cons cfg mid cfg' l tr' hstep hrest ih =>
    have hstuck' : Stuck (plans i) x (mid.thread i) :=
      hstuck.system hstep fun o r _ ho hr => hstale.rejects hof hx hcond ho hr
    have hreach : Steps (start plans fail_after s0) (tr ++ [(l, mid)]) mid :=
      hs.append (.cons hstep .nil)
    have hshut' : Shut cond x.1 mid.world := by
      cases l with
      | none =>
        cases hstep with
        | env he => exact he.elim
      | some a => exact (step_writes h hs hstep).shut hstale.shut
    have hother' : ¬ Present mid.world x := by
      rcases hother with hother | hsame
      · exact hother _ List.mem_cons_self
      · rw [Present, stale_same h hs hstep hcond hsame hstale.shut]
        exact hstale.other
    exact ih hreach hstuck' ⟨hshut', hother'⟩
      (hother.imp_left fun hother y hy => hother y (List.mem_cons_of_mem _ hy))

end

namespace Sample

open PublicationPlan.Sample (hexdigest)

def keys : List String :=
  ["pool/dkc.deb", "dists/trixie/InRelease",
    "state/transactions/1/record.json",
    "state/transactions/1/record.json.asc", "manifest.json", "manifest.json.asc",
    "SHA256SUMS", "SHA256SUMS.asc", "state/current.asc"]

/-- Empty files and a state pointer. -/
def files (pointer : ByteArray) : Dict ByteArray :=
  .ofKeys keys (by decide) fun key => if key = PublicationPlan.STATE_KEY then pointer else ⟨#[]⟩

def repository_sums (pointer : ByteArray) : Dict String :=
  (Dict.ofKeys keys (by decide) fun key =>
    hexdigest (if key = PublicationPlan.STATE_KEY then pointer else ⟨#[]⟩)).filter fun key _ =>
      key ≠ "SHA256SUMS" ∧ key ≠ "SHA256SUMS.asc"

def artifacts : List Artifact :=
  [⟨⟨"pool/dkc.deb", hexdigest ⟨#[]⟩, 0,
      "application/vnd.debian.binary-package", .immutable, none⟩, by decide⟩,
    ⟨⟨"dists/trixie/InRelease", hexdigest ⟨#[]⟩, 0, "text/plain", .mutable, none⟩, by decide⟩]

/-- The repository loads, its plan on an empty store is accepted, and it carries its pointer. -/
def accepted (pointer : ByteArray) : Bool :=
  match StorageRepository.inventoryOf hexdigest (fun _ => none) (files pointer) (repository_sums pointer)
      (artifacts.map StorageRepository.RawArtifact.ofArtifact) with
  | .ok inventory =>
    (inventory.all fun item => item.relative_key ≠ PublicationPlan.STATE_KEY || item.contents.data = pointer.data) &&
      ((PublicationPlan.plan_repository hexdigest 1000 inventory).run Store.serve ()
        Conc.CondStore.empty).1.1.isOk
  | .error _ => false

theorem plan_of_accepted (pointer : ByteArray) (h : accepted pointer = true) :
    ∃ p : PublicationPlan, StorageRepository.VerifiedPlan hexdigest (fun _ => none) p ∧
      p.mutable_preconditions.get? PublicationPlan.STATE_KEY = some none ∧ p.state_pointer.body = pointer := by
  unfold accepted at h
  split at h
  · next inventory hinv =>
    rw [Bool.and_eq_true] at h
    obtain ⟨hpointer, hok⟩ := h
    obtain ⟨p, s', hrun⟩ := PublicationPlan.Sample.run_of_isOk inventory Conc.CondStore.empty hok
    have hbuilt : PublicationPlan.Built hexdigest 1000 inventory p := ⟨_, s', hrun⟩
    have hart : ∀ a ∈ artifacts, StorageRepository.ArtifactFor a := by
      simp only [artifacts, List.forall_mem_cons]
      exact ⟨⟨by decide, by decide⟩, ⟨by decide, by decide⟩, by simp⟩
    obtain ⟨objects, hload, hof⟩ := hbuilt.of
    refine ⟨p, ⟨_, _, artifacts, inventory, 1000, hart, hinv, hbuilt⟩, ?_, ?_⟩
    · have hmem : PublicationPlan.STATE_KEY ∈ p.mutable := by
        rw [← hof.state_key]
        exact Waits.mem_mutable .state_pointer
      obtain ⟨pre, hpre⟩ := p.mem_mutable.1 hmem
      rw [hpre, PublicationPlan.matches_of_run hrun _ _ hpre]
      rfl
    · obtain ⟨item, hitem, heq⟩ := (hload _).1 hof.state_pointer
      have hall := List.all_eq_true.1 hpointer item hitem
      rw [Prod.mk.injEq] at heq
      rw [heq.2]
      exact ByteArray.ext (by simpa [← heq.1] using hall)
  · cases h

end Sample

end Agreement
