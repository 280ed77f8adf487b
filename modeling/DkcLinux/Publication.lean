import DkcLinux.Storage
import DkcLinux.Text.Dict
import Mathlib.Data.Finset.Card
import Mathlib.Data.Prod.Lex
import Mathlib.Data.String.Basic

/-!
# The commit protocol (`dkc/publication.py`)

`PublicationExecutor.execute` over the store requests. What it writes, and what a key waits for:

| phase | slot                    | waits for                                     |
|-------|-------------------------|-----------------------------------------------|
| 5, 6  | `immutable`             |                                               |
| 7     | `mutable_before_commit` | every immutable object                        |
| 8     | `inrelease`             | those and every `mutable_before_commit`       |
| 10    | `conveniences`          | those, InRelease, and signatures before files |
| 11    | `state_pointer`         | everything else                               |

`execute_wp` walks through the executor once, for every property that is proved of it.
-/

open Py Records

abbrev PublicationObject := ObjectValue

structure PublicationPlanFields where
  immutable : Dict PublicationObject
  mutable_before_commit : Dict PublicationObject
  inrelease : PublicationObject
  state_pointer : PublicationObject
  conveniences : Dict PublicationObject
  /-- The ETag each mutable key carried when it was read, `none` for an absent key. -/
  mutable_preconditions : Dict (Option Nat)
  transaction_key : String
  inrelease_key : String := "dists/trixie/InRelease"
  state_key : String := "state/current.asc"

namespace PublicationPlanFields

def mutable (p : PublicationPlanFields) : Finset String :=
  p.mutable_before_commit.keys.toFinset ∪ {p.inrelease_key, p.state_key} ∪ p.conveniences.keys.toFinset

/-- `PublicationPlan.__post_init__`. -/
def post_init (p : PublicationPlanFields) : Except PyErr Unit := do
  if p.mutable_preconditions.keys.toFinset ≠ p.mutable then
    throw (.ValueError "every mutable key needs exactly one captured precondition")
  if (p.immutable.keys.toFinset ∪ p.mutable).card ≠ p.immutable.keys.length + p.mutable.card then
    throw (.ValueError "immutable and mutable publication keys overlap")
  if p.transaction_key ∉ p.immutable.keys then
    throw (.ValueError "the signed transaction record must be immutable input")

end PublicationPlanFields

structure PublicationPlan extends PublicationPlanFields where
  valid : toPublicationPlanFields.post_init = .ok ()

namespace PublicationPlan

def make (p : PublicationPlanFields) : Except PyErr PublicationPlan :=
  match h : p.post_init with
  | .ok () => .ok ⟨p, h⟩
  | .error e => .error e

theorem make_ok {f : PublicationPlanFields} {p : PublicationPlan} (h : make f = .ok p) :
    p.toPublicationPlanFields = f := by
  unfold make at h
  split at h
  · cases h; rfl
  · cases h

variable (p : PublicationPlan)

theorem checks : p.mutable_preconditions.keys.toFinset = p.mutable ∧
    (p.immutable.keys.toFinset ∪ p.mutable).card = p.immutable.keys.length + p.mutable.card ∧
    p.transaction_key ∈ p.immutable.keys := by
  have h := p.valid
  simp only [PublicationPlanFields.post_init, except_throw, except_error_bind, except_check_eq_ok,
    not_not] at h
  exact ⟨h.1, h.2.1, h.2.2.1⟩

theorem disjoint_immutable : Disjoint p.immutable.keys.toFinset p.mutable := by
  have h := p.checks.2.1
  rw [Dict.keys, ← List.toFinset_card_of_nodup p.immutable.nodup] at h
  exact Finset.card_union_eq_card_add_card.1 h

/-- A key whose precondition was captured. -/
theorem mem_mutable {key : String} : key ∈ p.mutable ↔ ∃ pre, p.mutable_preconditions.get? key = some pre := by
  rw [← p.checks.1, List.mem_toFinset, Dict.mem_keys]

end PublicationPlan

/-- `d[key]`. -/
def getItem {V : Type} (d : Dict V) (key : String) : Except PyErr V :=
  match d.get? key with
  | some v => .ok v
  | none => .error (.KeyError key)

@[simp] theorem getItem_some {V : Type} {d : Dict V} {key : String} {v : V} (h : d.get? key = some v) :
    getItem d key = .ok v := by rw [getItem, h]

/-! ## The executor -/

namespace PublicationExecutor

variable {σ : Type}

/-- The end of `create_immutable` after an exception of its `put`. -/
def collision (key : String) (value : PublicationObject) : PyErr → Cmd σ StoredObject
  | .PreconditionFailed _ => do
    match ← Cmd.get key with
    | some current =>
      if current.value ≠ value then
        throw (.PreconditionFailed ("immutable object collision for " ++ key))
      return current
    | none => throw (.PreconditionFailed ("immutable object collision for " ++ key))
  | e => throw e

/-- `S3ObjectStore.create_immutable`. -/
def create_immutable (key : String) (value : PublicationObject) : Cmd σ StoredObject :=
  tryCatch (Cmd.put key value .ifNoneMatch) (collision key value)

/-- `_inject`. -/
def inject (phase : Nat) (fail_after : Option Int) : Cmd σ Unit := do
  if fail_after = some (phase : Int) then
    throw (.InjectedFailure phase)

/-- The condition of a write that must find a key as it was captured. -/
def condition : Option Nat → Conc.Cond
  | none => .ifNoneMatch
  | some etag => .ifMatch etag

/-- `_put_mutable`. -/
def put_mutable (key : String) (value : PublicationObject) (precondition : Option Nat) : Cmd σ Unit := do
  let current ← Cmd.get key
  if current.map (·.value) = some value then
    return
  let _ ← Cmd.put key value (condition precondition)

/-- `_verify`. -/
def verify (key : String) (value : PublicationObject) : Cmd σ Unit := do
  let current ← Cmd.get key
  if current.map (·.value) ≠ some value then
    throw (.RuntimeError ("origin verification failed for " ++ key))

/-- `if mutation_checkpoint is not None: mutation_checkpoint()`. -/
def checkpoint (mutation_checkpoint : Option (Cmd σ Unit)) : Cmd σ Unit :=
  mutation_checkpoint.getD (pure ())

/-- A mutation between two checkpoints. -/
def guarded (mutation_checkpoint : Option (Cmd σ Unit)) (mutation : Cmd σ Unit) : Cmd σ Unit := do
  checkpoint mutation_checkpoint
  mutation
  checkpoint mutation_checkpoint

/-- The order of the convenience files: every signature before every other file. -/
def convenienceOrder (a b : String × PublicationObject) : Prop :=
  toLex (!endswith a.1 ".asc", a.1) ≤ toLex (!endswith b.1 ".asc", b.1)

instance : DecidableRel convenienceOrder := fun _ _ => inferInstanceAs (Decidable (_ ≤ _))

/-- `sorted(plan.conveniences.items(), key=...)`. -/
def sortedConveniences (d : Dict PublicationObject) : List (String × PublicationObject) :=
  d.items.insertionSort convenienceOrder

variable (plan : PublicationPlan) (mutation_checkpoint : Option (Cmd σ Unit))

/-- A loop body of phase 6. -/
def create (x : String × PublicationObject) : Cmd σ Unit :=
  if x.1 = plan.transaction_key then pure ()
  else guarded mutation_checkpoint (do let _ ← create_immutable x.1 x.2)

/-- A loop body of phases 7 and 10, and the single writes of phases 8 and 11. -/
def replace (x : String × PublicationObject) : Cmd σ Unit :=
  guarded mutation_checkpoint (do
    put_mutable x.1 x.2 (← getItem plan.mutable_preconditions x.1))

def execute (fail_after : Option Int := none) : Cmd σ Unit := do
  if fail_after.any fun n => !(1 ≤ n && n ≤ 12) then
    throw (.ValueError "failure phase must be between 1 and 12")
  [1, 2, 3, 4].forM fun phase => inject phase fail_after
  let transaction ← getItem plan.immutable plan.transaction_key
  guarded mutation_checkpoint (do let _ ← create_immutable plan.transaction_key transaction)
  inject 5 fail_after
  (sortedItems plan.immutable.items).forM (create plan mutation_checkpoint)
  inject 6 fail_after
  (sortedItems plan.mutable_before_commit.items).forM (replace plan mutation_checkpoint)
  inject 7 fail_after
  replace plan mutation_checkpoint (plan.inrelease_key, plan.inrelease)
  inject 8 fail_after
  plan.immutable.items.forM fun x => verify x.1 x.2
  plan.mutable_before_commit.items.forM fun x => verify x.1 x.2
  verify plan.inrelease_key plan.inrelease
  inject 9 fail_after
  (sortedConveniences plan.conveniences).forM (replace plan mutation_checkpoint)
  inject 10 fail_after
  -- controller authority moves last
  replace plan mutation_checkpoint (plan.state_key, plan.state_pointer)
  inject 11 fail_after
  plan.mutable_before_commit.items.forM fun x => verify x.1 x.2
  verify plan.inrelease_key plan.inrelease
  verify plan.state_key plan.state_pointer
  plan.conveniences.items.forM fun x => verify x.1 x.2
  inject 12 fail_after

/-! ## What an execution does

A property of the executor is an assertion `Inv D` about the world when the keys in `D` have been
handled, and an assertion `E` for the exceptions. `Walk` lists what has to be shown of one request
of each kind; `Walk.execute` is the property of the whole run. `CheckedWalk` tells apart what holds after
a checkpoint (`Ready D`) and what holds before the next one (`Inv D`).
-/

/-- The keys that a mutable key of a plan waits for. -/
inductive Waits (plan : PublicationPlan) : String × PublicationObject → Set String → Prop
  | mutable_before_commit {x} : x ∈ plan.mutable_before_commit.items →
      Waits plan x {k | k ∈ plan.immutable.keys}
  | inrelease : Waits plan (plan.inrelease_key, plan.inrelease)
      {k | k ∈ plan.immutable.keys ∨ k ∈ plan.mutable_before_commit.keys}
  | convenience {x} : x ∈ plan.conveniences.items → Waits plan x
      {k | k ∈ plan.immutable.keys ∨ k ∈ plan.mutable_before_commit.keys ∨ k = plan.inrelease_key ∨
        (k ∈ plan.conveniences.keys ∧ endswith k ".asc" = true ∧ endswith x.1 ".asc" = false)}
  | state_pointer : Waits plan (plan.state_key, plan.state_pointer)
      {k | k ∈ plan.immutable.keys ∨ k ∈ plan.mutable_before_commit.keys ∨ k = plan.inrelease_key ∨
        k ∈ plan.conveniences.keys}

/-- The objects of a plan. -/
def Planned (plan : PublicationPlan) (x : String × PublicationObject) : Prop :=
  x ∈ plan.immutable.items ∨ ∃ need, Waits plan x need

def keysOf (xs : List (String × PublicationObject)) : Set String := {k | k ∈ xs.map (·.1)}

/-- One more key of a loop. -/
theorem insert_keysOf {D : Set String} (x : String × PublicationObject) (done : List (String × PublicationObject)) :
    insert x.1 (D ∪ keysOf done) = D ∪ keysOf (done ++ [x]) := by
  ext k
  simp only [keysOf, Set.mem_insert_iff, Set.mem_union, Set.mem_ofPred_eq, List.map_append,
    List.mem_append, List.map_cons, List.map_nil, List.mem_singleton]
  tauto

theorem keysOf_sortedItems (d : Dict PublicationObject) : keysOf (sortedItems d.items) = {k | k ∈ d.keys} := by
  ext k
  exact ((perm_sortedItems d.items).map _).mem_iff

theorem keysOf_sortedConveniences (d : Dict PublicationObject) :
    keysOf (sortedConveniences d) = {k | k ∈ d.keys} := by
  ext k
  exact ((List.perm_insertionSort _ _).map _).mem_iff

variable {plan mutation_checkpoint}

theorem Waits.mem_mutable {x : String × PublicationObject} {need : Set String} (h : Waits plan x need) :
    x.1 ∈ plan.mutable := by
  simp only [PublicationPlanFields.mutable, Finset.mem_union, List.mem_toFinset, Finset.mem_insert,
    Finset.mem_singleton, Dict.keys]
  cases h with
  | mutable_before_commit h => exact .inl (.inl (List.mem_map_of_mem h))
  | inrelease => exact .inl (.inr (.inl rfl))
  | convenience h => exact .inr (List.mem_map_of_mem h)
  | state_pointer => exact .inl (.inr (.inr rfl))

theorem Waits.precondition {x : String × PublicationObject} {need : Set String} (h : Waits plan x need) :
    ∃ pre, plan.mutable_preconditions.get? x.1 = some pre := plan.mem_mutable.1 h.mem_mutable

section
variable {W : Type} (sem : (o : Op) → W → o.Res → W → Prop) (R G : W → W → Prop)
  (plan : PublicationPlan) (mutation_checkpoint : Option (Cmd σ Unit)) (fail_after : Option Int)
  (Inv : Set String → σ → W → Prop) (E : PyErr → σ → W → Prop)

structure Walk : Prop where
  created : ∀ x ∈ plan.immutable.items, ∀ D st w, Inv D st w →
    (create_immutable x.1 x.2).wp sem R G (Cmd.Out (Inv (insert x.1 D)) E) st w
  replaced : ∀ x need pre, Waits plan x need → plan.mutable_preconditions.get? x.1 = some pre →
    ∀ D st w, need ⊆ D → Inv D st w →
      (put_mutable x.1 x.2 pre).wp sem R G (Cmd.Out (Inv (insert x.1 D)) E) st w
  verified : ∀ x, Planned plan x → ∀ D st w, x.1 ∈ D → Inv D st w →
    (verify x.1 x.2).wp sem R G (Cmd.Out (Inv D) E) st w
  checked : ∀ D st w, Inv D st w →
    (checkpoint mutation_checkpoint).wp sem R G (Cmd.Out (Inv D) E) st w
  /-- Only an injected failure is raised between two requests. -/
  injected : fail_after ≠ none → ∀ e D st w, Inv D st w → E e st w

/-- Every mutation finds what a checkpoint has established. -/
structure CheckedWalk (Ready : Set String → σ → W → Prop) : Prop where
  created : ∀ x ∈ plan.immutable.items, ∀ D st w, Ready D st w →
    (create_immutable x.1 x.2).wp sem R G (Cmd.Out (Inv (insert x.1 D)) E) st w
  replaced : ∀ x need pre, Waits plan x need → plan.mutable_preconditions.get? x.1 = some pre →
    ∀ D st w, need ⊆ D → Ready D st w →
      (put_mutable x.1 x.2 pre).wp sem R G (Cmd.Out (Inv (insert x.1 D)) E) st w
  verified : ∀ x, Planned plan x → ∀ D st w, x.1 ∈ D → Ready D st w →
    (verify x.1 x.2).wp sem R G (Cmd.Out (Ready D) E) st w
  checked : ∀ D st w, Inv D st w →
    (checkpoint mutation_checkpoint).wp sem R G (Cmd.Out (Ready D) E) st w
  /-- What is ready for a mutation is ready for a checkpoint. -/
  ready : ∀ D st w, Ready D st w → Inv D st w
  injected : fail_after ≠ none → ∀ e D st w, Inv D st w → E e st w

variable {sem R G plan mutation_checkpoint fail_after Inv E}

theorem Walk.toCheckedWalk (hw : Walk sem R G plan mutation_checkpoint fail_after Inv E) :
    CheckedWalk sem R G plan mutation_checkpoint fail_after Inv E Inv where
  created := hw.created
  replaced := hw.replaced
  verified := hw.verified
  checked := hw.checked
  ready _ _ _ h := h
  injected := hw.injected

variable {Ready : Set String → σ → W → Prop} (hw : CheckedWalk sem R G plan mutation_checkpoint fail_after Inv E Ready)
include hw

namespace CheckedWalk

variable {D : Set String} {st : σ} {w : W}

theorem inject_wp (phase : Nat) (h : Ready D st w) :
    (inject phase fail_after : Cmd σ Unit).wp sem R G (Cmd.Out (Ready D) E) st w := by
  unfold inject
  split
  · next hf =>
    rw [Cmd.wp_throw]
    exact hw.injected (by simp [hf]) _ D st w (hw.ready D st w h)
  · exact h

/-- Phases 1 to 4 issue no request. -/
theorem phases_wp (h : Inv D st w) :
    ([1, 2, 3, 4].forM fun phase => (inject phase fail_after : Cmd σ Unit)).wp sem R G (Cmd.Out (Inv D) E) st w := by
  refine Cmd.wp_forM (I := fun _ => Inv D) (fun _ phase _ _ st w h => ?_) h
  unfold inject
  split
  · next hf =>
    rw [Cmd.wp_throw]
    exact hw.injected (by simp [hf]) _ D st w h
  · exact h

theorem guarded_wp {c : Cmd σ Unit} {D' : Set String} (h : Inv D st w)
    (hc : ∀ st w, Ready D st w → c.wp sem R G (Cmd.Out (Inv D') E) st w) :
    (guarded mutation_checkpoint c).wp sem R G (Cmd.Out (Ready D') E) st w := by
  refine Cmd.wp_seq (hw.checked D st w h) fun _ st w h => ?_
  refine Cmd.wp_seq (hc st w h) fun _ st w h => ?_
  exact hw.checked D' st w h

theorem create_wp {x : String × PublicationObject} (hx : x ∈ plan.immutable.items)
    (ht : plan.transaction_key ∈ D) (h : Ready D st w) :
    (create plan mutation_checkpoint x).wp sem R G (Cmd.Out (Ready (insert x.1 D)) E) st w := by
  unfold create
  split
  · next hk =>
    rw [hk, Set.insert_eq_of_mem ht]
    exact h
  · refine hw.guarded_wp (hw.ready D st w h) fun st w h => ?_
    exact Cmd.wp_seq (hw.created x hx D st w h) fun _ st w h => h

theorem replace_wp {x : String × PublicationObject} {need : Set String} (hx : Waits plan x need)
    (hneed : need ⊆ D) (h : Ready D st w) :
    (replace plan mutation_checkpoint x).wp sem R G
      (Cmd.Out (Ready (insert x.1 D)) E) st w := by
  refine hw.guarded_wp (hw.ready D st w h) fun st w h => ?_
  obtain ⟨pre, hpre⟩ := hx.precondition
  rw [getItem_some hpre]
  exact hw.replaced x need pre hx hpre D st w hneed h

theorem transaction_wp {transaction : PublicationObject}
    (ht : (plan.transaction_key, transaction) ∈ plan.immutable.items) (h : Inv D st w) :
    (guarded mutation_checkpoint (do let _ ← create_immutable plan.transaction_key transaction)).wp
      sem R G (Cmd.Out (Ready (insert plan.transaction_key D)) E) st w := by
  refine hw.guarded_wp h fun st w h => ?_
  exact Cmd.wp_seq (hw.created _ ht D st w h) fun _ st w h => h

/-- Phase 6, after the transaction record. -/
theorem createAll_wp (h : Ready (insert plan.transaction_key ∅) st w) :
    ((sortedItems plan.immutable.items).forM (create plan mutation_checkpoint)).wp sem R G
      (Cmd.Out (Ready {k | k ∈ plan.immutable.keys}) E) st w := by
  have hkeys : insert plan.transaction_key ∅ ∪ keysOf (sortedItems plan.immutable.items) =
      {k | k ∈ plan.immutable.keys} := by
    rw [keysOf_sortedItems, Set.insert_union, Set.empty_union]
    exact Set.insert_eq_of_mem plan.checks.2.2
  rw [← hkeys]
  refine Cmd.wp_forM (I := fun done => Ready (insert plan.transaction_key ∅ ∪ keysOf done)) ?_
    (by simpa [keysOf] using h)
  intro done x rest hxs st w h
  have hx : x ∈ plan.immutable.items := mem_sortedItems.1 (by simp [hxs])
  rw [← insert_keysOf]
  exact hw.create_wp hx (.inl (Set.mem_insert _ _)) h

/-- A loop of phases 7 and 10: every key finds the keys that it waits for. -/
theorem replaceAll_wp {xs : List (String × PublicationObject)}
    (hx : ∀ done x rest, xs = done ++ x :: rest →
      ∃ need, Waits plan x need ∧ need ⊆ D ∪ keysOf done) (h : Ready D st w) :
    (xs.forM (replace plan mutation_checkpoint)).wp sem R G (Cmd.Out (Ready (D ∪ keysOf xs)) E) st w := by
  refine Cmd.wp_forM (I := fun done => Ready (D ∪ keysOf done)) ?_ (by simpa [keysOf] using h)
  intro done x rest hxs st w h
  obtain ⟨need, hwaits, hneed⟩ := hx done x rest hxs
  rw [← insert_keysOf]
  exact hw.replace_wp hwaits hneed h

theorem verifyAll_wp {xs : List (String × PublicationObject)}
    (hx : ∀ x ∈ xs, Planned plan x ∧ x.1 ∈ D) (h : Ready D st w) :
    (xs.forM fun x => verify x.1 x.2).wp sem R G (Cmd.Out (Ready D) E) st w := by
  refine Cmd.wp_forM (I := fun _ => Ready D) ?_ h
  intro done x rest hxs st w h
  have hmem := hx x (by simp [hxs])
  exact hw.verified x hmem.1 D st w hmem.2 h

end CheckedWalk

end

section

instance : Std.Total convenienceOrder := ⟨fun _ _ => le_total _ _⟩

instance : IsTrans (String × PublicationObject) convenienceOrder := ⟨fun _ _ _ => le_trans⟩

/-- A signature stands before every file that is not one. -/
theorem signature_first {d : Dict PublicationObject} {x : String × PublicationObject}
    {done rest : List (String × PublicationObject)} (hd : sortedConveniences d = done ++ x :: rest)
    {k : String} (hk : k ∈ d.keys) (hasc : endswith k ".asc" = true)
    (hx : endswith x.1 ".asc" = false) : k ∈ keysOf done := by
  obtain ⟨y, hy, rfl⟩ := List.mem_map.1 hk
  have hsort : (sortedConveniences d).Pairwise convenienceOrder := List.pairwise_insertionSort _ _
  have hmem : y ∈ sortedConveniences d := (List.perm_insertionSort _ _).mem_iff.2 hy
  rw [hd] at hsort hmem
  rcases List.mem_append.1 hmem with h | h
  · exact List.mem_map_of_mem h
  · exfalso
    rcases List.mem_cons.1 h with rfl | h
    · rw [hx] at hasc
      cases hasc
    · have hle := (List.pairwise_cons.1 (List.pairwise_append.1 hsort).2.1).1 y h
      simp [convenienceOrder, Prod.Lex.toLex_le_toLex, hasc, hx] at hle
      exact absurd hle (by decide)

end

/-- Every key of a plan. -/
def handled (plan : PublicationPlan) : Set String :=
  {k | k ∈ plan.immutable.keys ∨ k ∈ plan.mutable_before_commit.keys ∨ k = plan.inrelease_key ∨
    k ∈ plan.conveniences.keys ∨ k = plan.state_key}


section
variable {W : Type} {sem : (o : Op) → W → o.Res → W → Prop} {R G : W → W → Prop}
  {fail_after : Option Int} {Inv Ready : Set String → σ → W → Prop} {E : PyErr → σ → W → Prop}

/-- **One walk through the executor**: if it returns, every key of the plan has been handled, and nothing
has been written since the last checkpoint. -/
theorem CheckedWalk.execute (hw : CheckedWalk sem R G plan mutation_checkpoint fail_after Inv E Ready) (st : σ) (w : W)
    (h : Inv ∅ st w) :
    (execute plan mutation_checkpoint fail_after).wp sem R G (Cmd.Out (Ready (handled plan)) E) st w := by
  unfold PublicationExecutor.execute
  by_cases hf : (fail_after.any fun n => !(decide (1 ≤ n) && decide (n ≤ 12))) = true
  · rw [if_pos hf]
    have hne : fail_after ≠ none := by
      rintro rfl
      cases hf
    exact hw.injected hne _ ∅ st w h
  rw [if_neg hf]
  refine Cmd.wp_seq (hw.phases_wp h) fun _ st w h => ?_
  obtain ⟨transaction, htr⟩ := Dict.mem_keys.1 plan.checks.2.2
  rw [getItem_some htr, Cmd.wp_ok_bind]
  refine Cmd.wp_seq (hw.transaction_wp (Dict.mem_items.2 htr) h) fun _ st w h => ?_
  refine Cmd.wp_seq (hw.inject_wp 5 h) fun _ st w h => ?_
  refine Cmd.wp_seq (hw.createAll_wp h) fun _ st w h => ?_
  refine Cmd.wp_seq (hw.inject_wp 6 h) fun _ st w h => ?_
  refine Cmd.wp_seq (hw.replaceAll_wp (fun done x rest hx => ?_) h) fun _ st w h => ?_
  · have hmem : x ∈ sortedItems plan.mutable_before_commit.items := by simp [hx]
    exact ⟨_, .mutable_before_commit (mem_sortedItems.1 hmem), Set.subset_union_left⟩
  rw [keysOf_sortedItems] at h
  refine Cmd.wp_seq (hw.inject_wp 7 h) fun _ st w h => ?_
  refine Cmd.wp_seq (hw.replace_wp .inrelease (fun k hk => hk) h) fun _ st w h => ?_
  refine Cmd.wp_seq (hw.inject_wp 8 h) fun _ st w h => ?_
  refine Cmd.wp_seq (hw.verifyAll_wp (fun x hx => ⟨.inl hx, ?_⟩) h) fun _ st w h => ?_
  · exact .inr (.inl (List.mem_map_of_mem hx))
  refine Cmd.wp_seq (hw.verifyAll_wp (fun x hx => ⟨.inr ⟨_, .mutable_before_commit hx⟩, ?_⟩) h)
    fun _ st w h => ?_
  · exact .inr (.inr (List.mem_map_of_mem hx))
  refine Cmd.wp_seq (hw.verified (_, _) (.inr ⟨_, .inrelease⟩) _ st w (.inl rfl) h) fun _ st w h => ?_
  refine Cmd.wp_seq (hw.inject_wp 9 h) fun _ st w h => ?_
  refine Cmd.wp_seq (hw.replaceAll_wp (fun done x rest hx => ?_) h) fun _ st w h => ?_
  · have hmem : x ∈ sortedConveniences plan.conveniences := by simp [hx]
    refine ⟨_, .convenience ((List.perm_insertionSort _ _).mem_iff.1 hmem), ?_⟩
    rintro k (hk | hk | hk | ⟨hk, hasc, hnot⟩)
    · exact .inl (.inr (.inl hk))
    · exact .inl (.inr (.inr hk))
    · exact .inl (.inl hk)
    · exact .inr (signature_first hx hk hasc hnot)
  rw [keysOf_sortedConveniences] at h
  refine Cmd.wp_seq (hw.inject_wp 10 h) fun _ st w h => ?_
  refine Cmd.wp_seq (hw.replace_wp .state_pointer (fun k hk => ?_) h) fun _ st w h => ?_
  · rcases hk with hk | hk | hk | hk
    · exact .inl (.inr (.inl hk))
    · exact .inl (.inr (.inr hk))
    · exact .inl (.inl hk)
    · exact .inr hk
  replace h : Ready (handled plan) st w := by
    convert h using 1
    ext k
    simp only [handled, Set.mem_insert_iff, Set.mem_union, Set.mem_ofPred_eq]
    tauto
  refine Cmd.wp_seq (hw.inject_wp 11 h) fun _ st w h => ?_
  refine Cmd.wp_seq (hw.verifyAll_wp (fun x hx => ⟨.inr ⟨_, .mutable_before_commit hx⟩, ?_⟩) h)
    fun _ st w h => ?_
  · exact .inr (.inl (List.mem_map_of_mem hx))
  refine Cmd.wp_seq (hw.verified (_, _) (.inr ⟨_, .inrelease⟩) _ st w (.inr (.inr (.inl rfl))) h)
    fun _ st w h => ?_
  refine Cmd.wp_seq (hw.verified (_, _) (.inr ⟨_, .state_pointer⟩) _ st w
    (.inr (.inr (.inr (.inr rfl)))) h) fun _ st w h => ?_
  refine Cmd.wp_seq (hw.verifyAll_wp (fun x hx => ⟨.inr ⟨_, .convenience hx⟩, ?_⟩) h)
    fun _ st w h => ?_
  · exact .inr (.inr (.inr (.inl (List.mem_map_of_mem hx))))
  exact hw.inject_wp 12 h

theorem Walk.execute (hw : Walk sem R G plan mutation_checkpoint fail_after Inv E) (st : σ) (w : W)
    (h : Inv ∅ st w) :
    (execute plan mutation_checkpoint fail_after).wp sem R G (Cmd.Out (Inv (handled plan)) E) st w :=
  hw.toCheckedWalk.execute st w h

end

end PublicationExecutor
