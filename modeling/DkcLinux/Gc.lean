import DkcLinux.StateRecords
import DkcLinux.Storage
import Mathlib.Algebra.BigOperators.Group.List.Basic

/-!
# Garbage collection (`dkc/gc.py`, `dkc/records.py:526-580`)

`plan_gc` turns the tombstones of a manifest that still have an object into targets; `execute_gc`
deletes them one by one, each between two checks of the generation and two checkpoints. Both are
written over any monad that can raise: the store and the callables are theirs.
-/

open Py Records

structure GcTargetFields where
  key : String
  sha256 : String
  reason : String
  size : Int
deriving Repr, DecidableEq

/-- `GcTarget.__post_init__`. -/
def GcTargetFields.post_init (t : GcTargetFields) : Except PyErr Unit := do
  gc_key t.key
  Records.sha256 t.sha256 "deletion target sha256"
  if t.size < 0 then
    throw (.ValueError "deletion size must not be negative")
  if t.reason = "" || hasControl t.reason then
    throw (.ValueError "a deletion target needs a safe non-empty reason")

structure GcTarget extends GcTargetFields where
  valid : toGcTargetFields.post_init = .ok ()
deriving DecidableEq

def GcTarget.make (t : GcTargetFields) : Except PyErr GcTarget :=
  match h : t.post_init with
  | .ok () => .ok ⟨t, h⟩
  | .error e => .error e

/-- `caps` is the mapping with `max_objects` and `max_bytes`. -/
structure GcPlanFields where
  expected_generation : Int
  targets : List GcTarget
  max_objects : Int
  max_bytes : Int
  planned_utc : String
  schema : String := "dkc.gc-plan.v1"

/-- `GcPlan.__post_init__`. -/
def GcPlanFields.post_init (p : GcPlanFields) : Except PyErr Unit := do
  if p.expected_generation < 0 then
    throw (.ValueError "expected_generation must not be negative")
  let _ ← utc p.planned_utc "planned_utc"
  if p.max_objects ≤ 0 then
    throw (.ValueError "caps.max_objects must be a positive integer")
  if p.max_bytes ≤ 0 then
    throw (.ValueError "caps.max_bytes must be a positive integer")
  if (p.targets.length : Int) > p.max_objects then
    throw (.ValueError ("plan has " ++ toString p.targets.length ++ " targets, over the cap of " ++
      toString p.max_objects))
  if (p.targets.map (·.size)).sum > p.max_bytes then
    throw (.ValueError ("plan totals " ++ toString (p.targets.map (·.size)).sum ++ " bytes, over the cap of " ++
      toString p.max_bytes))
  if ¬ (p.targets.map (·.key)).Nodup then
    throw (.ValueError "duplicate keys in a deletion plan")

structure GcPlan extends GcPlanFields where
  valid : toGcPlanFields.post_init = .ok ()

def GcPlan.make (p : GcPlanFields) : Except PyErr GcPlan :=
  match h : p.post_init with
  | .ok () => .ok ⟨p, h⟩
  | .error e => .error e

/-- The caps of a deletion plan. -/
structure GcCaps where
  max_objects : Int
  max_bytes : Int
deriving Repr, DecidableEq

namespace Gc

section
-- `hashlib.sha256(...).hexdigest()`
variable (hexdigest : ByteArray → String)

/-- `_matches`. -/
def matches_ (value : ObjectValue) (target : GcTargetFields) : Bool :=
  (value.body.size : Int) = target.size && hexdigest value.body = target.sha256 &&
    endswith value.metadata.cache_control "immutable"

/-- `sorted(queued.items())`; the keys of a queue are distinct. -/
def queued (manifest : PublicationManifest) : List GcQueueEntry :=
  (manifest.gc_queue.filter fun entry => entry.key ∉ manifest.live_objects).insertionSort fun a b => a.key ≤ b.key

variable {m : Type → Type} [Monad m] [MonadExceptOf PyErr m] (get : String → m (Option ObjectValue))

/-- The loop of `plan_gc`, with the targets and the bytes so far. -/
def planTargets (caps : GcCaps) : List GcQueueEntry → List GcTarget → Int → m (List GcTarget)
  | [], targets, _ => pure targets
  | entry :: entries, targets, total => do
    let candidate ← MonadExcept.ofExcept (GcTarget.make ⟨entry.key, entry.sha256, entry.reason, entry.size⟩)
    if candidate.size > caps.max_bytes then
      throw (PyErr.ValueError "one GC target exceeds the configured byte cap")
    match ← get entry.key with
    | none => planTargets caps entries targets total
    | some current =>
      if !matches_ hexdigest current candidate.toGcTargetFields then
        throw (PyErr.ValueError "a GC target differs from its signed tombstone")
      if (targets.length : Int) ≥ caps.max_objects ∨ total + candidate.size > caps.max_bytes then
        throw (PyErr.ValueError "the complete GC plan exceeds the configured safety caps")
      planTargets caps entries (targets ++ [candidate]) (total + candidate.size)

/-- `plan_gc`, the time in seconds. -/
def plan_gc (manifest : PublicationManifest) (now : Nat) (caps : GcCaps) : m GcPlan := do
  if caps.max_objects < 1 ∨ caps.max_bytes < 1 then
    throw (PyErr.ValueError "GC caps must be positive")
  let targets ← planTargets hexdigest get caps (queued manifest) [] 0
  MonadExcept.ofExcept (GcPlan.make {
    expected_generation := manifest.generation
    targets := targets
    max_objects := caps.max_objects
    max_bytes := caps.max_bytes
    planned_utc := Calendar.strftime now })

variable (delete : String → m Unit) (plan : GcPlan) (observed_generation : m Int) (mutation_checkpoint : m Unit)

/-- The deletion of one target that is there. -/
def deleteTarget (target : GcTarget) : m Unit := do
  mutation_checkpoint
  delete target.key
  mutation_checkpoint
  if (← get target.key).isSome then
    throw (PyErr.RuntimeError "GC target still exists after deletion")
  if (← observed_generation) ≠ plan.expected_generation then
    throw (PyErr.RuntimeError "authoritative generation changed during GC deletion")

/-- A loop body of `execute_gc`: whether the target was deleted. -/
def removeTarget (target : GcTarget) : m Bool := do
  if (← observed_generation) ≠ plan.expected_generation then
    throw (PyErr.RuntimeError "authoritative generation changed before GC deletion")
  match ← get target.key with
  | none => return false
  | some current =>
    if !matches_ hexdigest current target.toGcTargetFields then
      throw (PyErr.RuntimeError "GC target changed after planning")
    deleteTarget get delete plan observed_generation mutation_checkpoint target
    return true

def removeTargets : List GcTarget → List String → m (List String)
  | [], deleted => pure deleted
  | target :: targets, deleted => do
    if ← removeTarget hexdigest get delete plan observed_generation mutation_checkpoint target then
      removeTargets targets (deleted ++ [target.key])
    else
      removeTargets targets deleted

/-- `execute_gc`: the deleted keys. -/
def execute_gc : m (List String) :=
  removeTargets hexdigest get delete plan observed_generation mutation_checkpoint plan.targets []

end

end Gc

/-! ## The targets -/

theorem GcQueueEntry.target_valid (e : GcQueueEntry) :
    GcTargetFields.post_init ⟨e.key, e.sha256, e.reason, e.size⟩ = .ok () := by
  have h := e.valid
  simp only [GcQueueEntryFields.post_init, except_throw, except_error_bind, except_check_eq_ok,
    except_bind_eq_ok] at h
  obtain ⟨_, hkey, _, hsha, hsize, hreason, -⟩ := h
  rw [GcTargetFields.post_init, hkey, except_ok_bind, Records.sha256, if_pos (Records.sha256_ok hsha), except_ok_bind,
    if_neg hsize, if_neg hreason]
  rfl

/-- What a tombstone says is a target. -/
def GcQueueEntry.target (e : GcQueueEntry) : GcTarget := ⟨⟨e.key, e.sha256, e.reason, e.size⟩, e.target_valid⟩

theorem GcTarget.make_eq (e : GcQueueEntry) : GcTarget.make ⟨e.key, e.sha256, e.reason, e.size⟩ = .ok e.target := by
  unfold GcTarget.make
  split
  · rfl
  · next h =>
    rw [e.target_valid] at h
    cases h

theorem GcQueueEntry.size_nonneg (e : GcQueueEntry) : 0 ≤ e.size := by
  have h := e.target_valid
  simp only [GcTargetFields.post_init, except_throw, except_error_bind, except_check_eq_ok, except_bind_eq_ok] at h
  obtain ⟨_, -, _, -, hsize, -⟩ := h
  omega

theorem GcPlan.make_ok {f : GcPlanFields} {p : GcPlan} (h : GcPlan.make f = .ok p) : p.toGcPlanFields = f := by
  unfold GcPlan.make at h
  split at h
  · cases h
    rfl
  · cases h

theorem GcPlan.keys_nodup (plan : GcPlan) : (plan.targets.map (·.key)).Nodup := by
  have h := plan.valid
  simp only [GcPlanFields.post_init, except_throw, except_error_bind, except_check_eq_ok, except_bind_eq_ok,
    not_not] at h
  obtain ⟨-, _, -, -, -, -, -, hkeys, -⟩ := h
  exact hkeys

@[simp] theorem ofExcept_except {α : Type} (x : Except PyErr α) : (MonadExcept.ofExcept x : Except PyErr α) = x := by
  cases x <;> rfl

namespace Gc

/-- No tombstone is live. -/
theorem queued_perm (manifest : PublicationManifest) : (queued manifest).Perm manifest.gc_queue := by
  have hall : (manifest.gc_queue.filter fun e => e.key ∉ manifest.live_objects) = manifest.gc_queue := by
    refine List.filter_eq_self.2 fun e he => decide_eq_true fun hlive => ?_
    exact manifest.live_not_queued hlive (List.mem_map_of_mem he)
  rw [queued, hall]
  exact List.perm_insertionSort _ _

theorem nodup_queued (manifest : PublicationManifest) : ((queued manifest).map (·.key)).Nodup :=
  ((queued_perm manifest).map _).nodup_iff.2 manifest.keys_checked.2.2.2.1

theorem sorted_queued (manifest : PublicationManifest) : (queued manifest).Pairwise fun a b => a.key < b.key := by
  have hle : (queued manifest).Pairwise fun a b => a.key ≤ b.key := by
    rw [queued]
    exact List.pairwise_insertionSort (fun a b : GcQueueEntry => a.key ≤ b.key) _
  have hne : (queued manifest).Pairwise fun a b => a.key ≠ b.key := List.pairwise_map.1 (nodup_queued manifest)
  exact (hle.and hne).imp fun h => lt_of_le_of_ne h.1 h.2

section
variable (hexdigest : ByteArray → String) (store : String → Option ObjectValue)

/-- The tombstones whose objects are there. -/
def existing (entries : List GcQueueEntry) : List GcQueueEntry := entries.filter fun e => (store e.key).isSome

def totalSize (entries : List GcQueueEntry) : Int := (entries.map (·.size)).sum

/-- What is there is what the tombstone names. -/
def Intact (e : GcQueueEntry) : Prop := ∀ v, store e.key = some v → matches_ hexdigest v e.target.toGcTargetFields = true

theorem totalSize_nonneg : ∀ entries : List GcQueueEntry, 0 ≤ totalSize entries
  | [] => le_rfl
  | e :: entries => by
    have he := e.size_nonneg
    have ih := totalSize_nonneg entries
    simp only [totalSize, List.map_cons, List.sum_cons] at ih ⊢
    omega

@[simp] theorem existing_none {e : GcQueueEntry} {entries : List GcQueueEntry} (h : store e.key = none) :
    existing store (e :: entries) = existing store entries := by
  simp [existing, h]

@[simp] theorem existing_some {e : GcQueueEntry} {entries : List GcQueueEntry} {v : ObjectValue}
    (h : store e.key = some v) : existing store (e :: entries) = e :: existing store entries := by
  simp [existing, h]

variable {hexdigest store}

/-- The loop over a store that answers. -/
theorem planTargets_ok {caps : GcCaps} : ∀ {entries : List GcQueueEntry} {targets : List GcTarget} {total : Int}
    {result : List GcTarget}, 0 ≤ total → (targets.length : Int) ≤ caps.max_objects → total ≤ caps.max_bytes →
    (planTargets hexdigest (fun key => (.ok (store key) : Except PyErr _)) caps entries targets total = .ok result ↔
      (∀ e ∈ entries, store e.key = none → e.size ≤ caps.max_bytes) ∧
      (∀ e ∈ entries, Intact hexdigest store e) ∧
      ((targets.length + (existing store entries).length : ℕ) : Int) ≤ caps.max_objects ∧
      total + totalSize (existing store entries) ≤ caps.max_bytes ∧
      result = targets ++ (existing store entries).map GcQueueEntry.target)
  | [], targets, total, result, _, hlen, hsum => by
    simp [planTargets, existing, totalSize, hlen, hsum, eq_comm]
  | e :: entries, targets, total, result, h0, hlen, hsum => by
    have hsize := e.size_nonneg
    have hkey : e.target.size = e.size := rfl
    rw [planTargets, GcTarget.make_eq]
    simp only [ofExcept_except, except_ok_bind, except_throw, except_error_bind, hkey]
    cases hs : store e.key with
    | none =>
      rw [existing_none store hs, except_check_eq_ok, not_lt, planTargets_ok h0 hlen hsum]
      simp [hs, Intact, and_assoc]
    | some v =>
      have hrest := totalSize_nonneg (existing store entries)
      have hsum' : totalSize (e :: existing store entries) = e.size + totalSize (existing store entries) := by
        simp [totalSize]
      rw [existing_some store hs, except_check_eq_ok, except_check_eq_ok, except_check_eq_ok, not_lt, not_or, not_le,
        not_lt, List.length_cons, hsum', List.map_cons]
      have hintact : Intact hexdigest store e ↔ ¬ (!matches_ hexdigest v e.target.toGcTargetFields) = true := by
        simp [Intact, hs]
      rw [← hintact]
      simp only [List.mem_cons, forall_eq_or_imp, hs, reduceCtorEq, false_imp_iff, true_and]
      constructor
      · rintro ⟨hbig, hfirst, ⟨hlen', hsum'⟩, hok⟩
        rw [planTargets_ok (by omega) (by simp; omega) hsum'] at hok
        obtain ⟨hgone, hintact, hcount, htotal, rfl⟩ := hok
        refine ⟨hgone, ⟨hfirst, hintact⟩, ?_, by omega, by simp⟩
        rw [List.length_append, List.length_singleton] at hcount
        omega
      · rintro ⟨hgone, ⟨hfirst, hintact⟩, hcount, htotal, rfl⟩
        refine ⟨by omega, hfirst, ⟨by omega, by omega⟩, ?_⟩
        rw [planTargets_ok (by omega) (by simp; omega) (by omega)]
        refine ⟨hgone, hintact, ?_, by omega, by simp⟩
        rw [List.length_append, List.length_singleton]
        omega

theorem existing_perm {es fs : List GcQueueEntry} (h : es.Perm fs) :
    (existing store es).Perm (existing store fs) := h.filter _

theorem totalSize_perm {es fs : List GcQueueEntry} (h : es.Perm fs) : totalSize es = totalSize fs :=
  (h.map _).sum_eq

section
variable (hexdigest store) (manifest : PublicationManifest) (caps : GcCaps)

/-- The plan of the tombstones that exist: all of them, in key order, or none. -/
structure Complete (plan : GcPlan) : Prop where
  expected_generation : plan.expected_generation = manifest.generation
  caps : plan.max_objects = caps.max_objects ∧ plan.max_bytes = caps.max_bytes
  sorted : plan.targets.Pairwise fun a b => a.key < b.key
  targets : ∀ t, t ∈ plan.targets ↔ ∃ e ∈ manifest.gc_queue, store e.key ≠ none ∧ t = e.target

/-- What exists differs from its tombstone, or is more than the caps allow. -/
def Refused : Prop :=
  (∃ e ∈ manifest.gc_queue, ¬ Intact hexdigest store e) ∨
    caps.max_objects < (existing store manifest.gc_queue).length ∨
    caps.max_bytes < totalSize (existing store manifest.gc_queue)

/-- The tombstones whose objects are gone are within the byte cap. -/
def GoneFit : Prop := ∀ e ∈ manifest.gc_queue, store e.key = none → e.size ≤ caps.max_bytes

end

variable {manifest : PublicationManifest} {caps : GcCaps} {now : Nat}

theorem make_existing (hnow : now < Calendar.maxSeconds) (hobjects : 1 ≤ caps.max_objects)
    (hbytes : 1 ≤ caps.max_bytes) (hcount : ((existing store (queued manifest)).length : Int) ≤ caps.max_objects)
    (htotal : totalSize (existing store (queued manifest)) ≤ caps.max_bytes) :
    ∃ plan, GcPlan.make {
      expected_generation := manifest.generation
      targets := (existing store (queued manifest)).map GcQueueEntry.target
      max_objects := caps.max_objects
      max_bytes := caps.max_bytes
      planned_utc := Calendar.strftime now } = .ok plan := by
  have hgen := manifest.generation_nonneg
  have hkeys : (((existing store (queued manifest)).map GcQueueEntry.target).map (·.key)).Nodup := by
    rw [List.map_map]
    exact (nodup_queued manifest).sublist (List.filter_sublist.map _)
  have hsum : (((existing store (queued manifest)).map GcQueueEntry.target).map (·.size)).sum =
      totalSize (existing store (queued manifest)) := by
    rw [List.map_map]
    rfl
  unfold GcPlan.make
  split
  · exact ⟨_, rfl⟩
  · next h =>
    simp only [GcPlanFields.post_init, utc_strftime hnow, except_ok_bind, hsum, hkeys, List.length_map] at h
    rw [if_neg (by omega), if_neg (by omega), if_neg (by omega), if_neg (by omega), if_neg (by omega)] at h
    simp at h

/-- Positive caps pass. -/
theorem plan_gc_eq (hobjects : 1 ≤ caps.max_objects) (hbytes : 1 ≤ caps.max_bytes) :
    plan_gc hexdigest (fun key => (.ok (store key) : Except PyErr _)) manifest now caps = (do
      let targets ← planTargets hexdigest (fun key => (.ok (store key) : Except PyErr _)) caps (queued manifest) [] 0
      GcPlan.make {
        expected_generation := manifest.generation
        targets := targets
        max_objects := caps.max_objects
        max_bytes := caps.max_bytes
        planned_utc := Calendar.strftime now }) := by
  rw [plan_gc, if_neg (by omega)]
  simp only [ofExcept_except]

/-- **What planning computes** over a store that answers. -/
theorem plan_gc_spec (hnow : now < Calendar.maxSeconds) (hobjects : 1 ≤ caps.max_objects)
    (hbytes : 1 ≤ caps.max_bytes) :
    (GoneFit store manifest caps ∧ ¬ Refused hexdigest store manifest caps ∧
      ∃ plan, plan_gc hexdigest (fun key => (.ok (store key) : Except PyErr _)) manifest now caps = .ok plan ∧
        plan.targets = (existing store (queued manifest)).map GcQueueEntry.target ∧
        Complete store manifest caps plan) ∨
    (¬ (GoneFit store manifest caps ∧ ¬ Refused hexdigest store manifest caps) ∧
      ∃ e, plan_gc hexdigest (fun key => (.ok (store key) : Except PyErr _)) manifest now caps = .error e) := by
  have hperm := queued_perm manifest
  have hgood : (GoneFit store manifest caps ∧ ¬ Refused hexdigest store manifest caps) ↔
      (∀ e ∈ queued manifest, store e.key = none → e.size ≤ caps.max_bytes) ∧
      (∀ e ∈ queued manifest, Intact hexdigest store e) ∧
      ((existing store (queued manifest)).length : Int) ≤ caps.max_objects ∧
      totalSize (existing store (queued manifest)) ≤ caps.max_bytes := by
    rw [GoneFit, Refused, (existing_perm hperm).length_eq, totalSize_perm (existing_perm hperm)]
    simp only [hperm.mem_iff, not_or, not_exists, not_and, not_not, not_lt]
  rw [plan_gc_eq hobjects hbytes]
  cases hrun : planTargets hexdigest (fun key => (.ok (store key) : Except PyErr _)) caps (queued manifest) [] 0 with
  | ok targets =>
    rw [planTargets_ok le_rfl (by simp; omega) (by omega)] at hrun
    obtain ⟨hgone, hintact, hcount, htotal, rfl⟩ := hrun
    simp only [List.length_nil, Nat.zero_add, Int.zero_add] at hcount htotal
    obtain ⟨plan, hplan⟩ := make_existing hnow hobjects hbytes hcount htotal
    have hfields := GcPlan.make_ok hplan
    have hboth := hgood.2 ⟨hgone, hintact, hcount, htotal⟩
    refine .inl ⟨hboth.1, hboth.2, plan, hplan, by rw [hfields], ?_, ?_, ?_, fun t => ?_⟩
    · rw [hfields]
    · rw [hfields]
      exact ⟨rfl, rfl⟩
    · rw [hfields, List.pairwise_map]
      exact (sorted_queued manifest).sublist List.filter_sublist
    · rw [hfields]
      simp only [List.mem_map, existing, List.mem_filter, hperm.mem_iff, Option.isSome_iff_ne_none, and_assoc]
      exact exists_congr fun e => and_congr_right fun _ => and_congr_right fun _ => eq_comm
  | error e =>
    refine .inr ⟨fun h => ?_, e, rfl⟩
    obtain ⟨hgone, hintact, hcount, htotal⟩ := hgood.1 h
    have hok := (@planTargets_ok hexdigest store caps (queued manifest) [] 0 _ le_rfl (by simp; omega) (by omega)).2
      ⟨hgone, hintact, by simpa using hcount, by simpa using htotal, rfl⟩
    rw [hrun] at hok
    cases hok

end

theorem size_le_totalSize {e : GcQueueEntry} {entries : List GcQueueEntry} (he : e ∈ entries) :
    e.size ≤ totalSize entries := by
  obtain ⟨xs, ys, rfl⟩ := List.append_of_mem he
  have hxs := totalSize_nonneg xs
  have hys := totalSize_nonneg ys
  simp only [totalSize, List.map_append, List.map_cons, List.sum_append, List.sum_cons] at hxs hys ⊢
  omega

/-- A plan: every tombstone is within the byte cap, and what exists is a target. -/
theorem plan_gc_ok {hexdigest : ByteArray → String} {store : String → Option ObjectValue}
    {manifest : PublicationManifest} {now : Nat} {caps : GcCaps} {plan : GcPlan}
    (h : plan_gc hexdigest (fun key => (.ok (store key) : Except PyErr _)) manifest now caps = .ok plan) :
    1 ≤ caps.max_objects ∧ 1 ≤ caps.max_bytes ∧ (∀ e ∈ manifest.gc_queue, e.size ≤ caps.max_bytes) ∧
      plan.targets = (existing store (queued manifest)).map GcQueueEntry.target ∧
      plan.expected_generation = manifest.generation := by
  by_cases hcaps : caps.max_objects < 1 ∨ caps.max_bytes < 1
  · rw [plan_gc, if_pos hcaps] at h
    cases h
  have hobjects : 1 ≤ caps.max_objects := by omega
  have hbytes : 1 ≤ caps.max_bytes := by omega
  rw [plan_gc_eq hobjects hbytes] at h
  obtain ⟨targets, htargets, hplan⟩ := except_bind_eq_ok.1 h
  rw [planTargets_ok le_rfl (by simp; omega) (by omega)] at htargets
  obtain ⟨hgone, -, -, htotal, rfl⟩ := htargets
  have hfields := GcPlan.make_ok hplan
  refine ⟨hobjects, hbytes, fun e he => ?_, by rw [hfields]; rfl, by rw [hfields]⟩
  have hq := (queued_perm manifest).mem_iff.2 he
  cases hs : store e.key with
  | none => exact hgone e hq hs
  | some v =>
    have hle := size_le_totalSize (show e ∈ existing store (queued manifest) from
      List.mem_filter.2 ⟨hq, by rw [hs]; rfl⟩)
    omega

section
variable (hexdigest : ByteArray → String) (store : String → Option ObjectValue) (manifest : PublicationManifest)
  (now : Nat) (caps : GcCaps)

/-- The targets of the plan, if there is one. -/
def planned : Option (List GcTarget) :=
  (plan_gc hexdigest (fun key => (.ok (store key) : Except PyErr _)) manifest now caps).toOption.map (·.targets)

/-- Planning depends on the tombstones that still exist: it raises exactly if what exists has to be
refused, its plan is complete otherwise, and a ledger without the tombstones that are gone has the
same outcome. -/
structure DependsOnExisting : Prop where
  raises : (∃ e, plan_gc hexdigest (fun key => (.ok (store key) : Except PyErr _)) manifest now caps = .error e) ↔
    Refused hexdigest store manifest caps
  complete : ∀ plan, plan_gc hexdigest (fun key => (.ok (store key) : Except PyErr _)) manifest now caps = .ok plan →
    Complete store manifest caps plan
  gone : ∀ manifest' : PublicationManifest, manifest'.gc_queue = existing store manifest.gc_queue →
    planned hexdigest store manifest' now caps = planned hexdigest store manifest now caps

end

/-- **When planning depends on the tombstones that still exist.** -/
theorem plan_gc_iff (hexdigest : ByteArray → String) (store : String → Option ObjectValue)
    (manifest : PublicationManifest) {now : Nat} (hnow : now < Calendar.maxSeconds) (caps : GcCaps)
    (hobjects : 1 ≤ caps.max_objects) (hbytes : 1 ≤ caps.max_bytes) :
    DependsOnExisting hexdigest store manifest now caps ↔
      Refused hexdigest store manifest caps ∨ GoneFit store manifest caps := by
  constructor
  · intro h
    by_cases hrefused : Refused hexdigest store manifest caps
    · exact .inl hrefused
    · rcases @plan_gc_spec hexdigest store manifest caps now hnow hobjects hbytes with ⟨hgone, -⟩ | ⟨-, herr⟩
      · exact .inr hgone
      · exact absurd (h.raises.1 herr) hrefused
  · intro hor
    have hspec := @plan_gc_spec hexdigest store manifest caps now hnow hobjects hbytes
    have hraises : (∃ e, plan_gc hexdigest (fun key => (.ok (store key) : Except PyErr _)) manifest now caps =
        .error e) ↔ Refused hexdigest store manifest caps := by
      rcases hspec with ⟨-, hfit, plan, hplan, -⟩ | ⟨hno, herr⟩
      · rw [hplan]
        simp [hfit]
      · refine iff_of_true herr ?_
        by_contra hfit
        exact hno ⟨hor.resolve_left hfit, hfit⟩
    refine ⟨hraises, fun plan hplan => ?_, fun manifest' hqueue => ?_⟩
    · rcases hspec with ⟨-, -, plan', hplan', -, hcomplete⟩ | ⟨-, e, herr⟩
      · rw [hplan'] at hplan
        cases hplan
        exact hcomplete
      · rw [herr] at hplan
        cases hplan
    · have htwice : existing store (existing store manifest.gc_queue) = existing store manifest.gc_queue := by
        rw [existing, existing, List.filter_filter]
        simp
      have hgone' : GoneFit store manifest' caps := fun e he hnone => by
        rw [hqueue, existing, List.mem_filter, hnone] at he
        cases he.2
      have hrefused : Refused hexdigest store manifest' caps ↔ Refused hexdigest store manifest caps := by
        rw [Refused, Refused, hqueue, htwice]
        refine or_congr_left ⟨?_, ?_⟩
        · rintro ⟨e, he, hne⟩
          exact ⟨e, (List.mem_filter.1 he).1, hne⟩
        · rintro ⟨e, he, hne⟩
          refine ⟨e, List.mem_filter.2 ⟨he, ?_⟩, hne⟩
          cases hs : store e.key with
          | none => exact absurd (fun v hv => by rw [hs] at hv; cases hv) hne
          | some v => rfl
      rcases @plan_gc_spec hexdigest store manifest' caps now hnow hobjects hbytes with
        ⟨-, hfit', plan', hplan', htargets', -⟩ | ⟨hno', e', herr'⟩
      · rcases hspec with ⟨-, -, plan, hplan, htargets, -⟩ | ⟨hno, e, herr⟩
        · rw [planned, planned, hplan, hplan']
          have hlist : existing store (queued manifest') = existing store (queued manifest) := by
            have hperm := @existing_perm store _ _ (queued_perm manifest')
            rw [hqueue, htwice] at hperm
            refine (hperm.trans (existing_perm (queued_perm manifest)).symm).eq_of_pairwise
              (fun a b _ _ (hab : a.key < b.key) hba => absurd hab (lt_asymm hba)) ?_ ?_
            · exact (sorted_queued manifest').sublist List.filter_sublist
            · exact (sorted_queued manifest).sublist List.filter_sublist
          simp only [Except.toOption, Option.map_some, htargets, htargets', hlist]
        · exact absurd (hrefused.2 (hraises.1 ⟨e, herr⟩)) hfit'
      · have hfalse := hrefused.1 (by_contra fun h => hno' ⟨hgone', h⟩)
        obtain ⟨e, herr⟩ := hraises.2 hfalse
        rw [planned, planned, herr, herr']
        rfl

/-! ## A tombstone of three bytes -/

/-- Its object is gone, and it is larger than the cap: nothing would be deleted, and there is no plan. -/
theorem gone_refused :
    (plan_gc (fun _ => "") (fun _ => (.ok none : Except PyErr _)) State.Sample.manifest 0 ⟨10000, 2⟩).toOption.isNone =
      true ∧
    ¬ ∀ hexdigest store manifest now (caps : GcCaps), now < Calendar.maxSeconds → 1 ≤ caps.max_objects →
      1 ≤ caps.max_bytes → DependsOnExisting hexdigest store manifest now caps := by
  have hrun : (plan_gc (fun _ => "") (fun _ => (.ok none : Except PyErr _)) State.Sample.manifest 0
      ⟨10000, 2⟩).toOption.isNone = true := by decide +kernel
  refine ⟨hrun, fun hall => ?_⟩
  have h := hall (fun _ => "") (fun _ => none) State.Sample.manifest 0 ⟨10000, 2⟩ (by decide) (by decide) (by decide)
  cases hplan : plan_gc (fun _ => "") (fun _ => (.ok none : Except PyErr _)) State.Sample.manifest 0 ⟨10000, 2⟩ with
  | ok plan =>
    rw [hplan] at hrun
    cases hrun
  | error e =>
    rcases h.raises.1 ⟨e, hplan⟩ with ⟨entry, -, hne⟩ | hcount | htotal
    · exact hne fun v hv => by cases hv
    · exact absurd hcount (by decide)
    · exact absurd htotal (by decide)

theorem plan_gc_iff_small : DependsOnExisting (fun _ => "") (fun _ => none) State.Sample.manifest 0 ⟨10000, 3⟩ := by
  refine (plan_gc_iff (fun _ => "") (fun _ => none) State.Sample.manifest (by decide) ⟨10000, 3⟩ (by decide)
    (by decide)).2 (.inr fun e he _ => ?_)
  obtain rfl : e = State.Sample.tombstone := List.mem_singleton.1 he
  decide

end Gc
