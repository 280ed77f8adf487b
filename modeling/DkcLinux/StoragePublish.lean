import DkcLinux.CommitOrder
import DkcLinux.GcRuns
import DkcLinux.LeaseSize
import DkcLinux.PublicationPlan
import DkcLinux.StorageBudget

/-!
# Publishing a repository (`scripts/in-container/storage-publish.py:60-263`)

`commit` is the `try` block of `main`: under the lease it projects what the storage will hold, writes the
repository and collects the tombstones. `settle` releases the lease and lists the storage again, and `main` checks
that listing against the signed limit.

| key                            | before `commit`      | after it                 |
|--------------------------------|----------------------|--------------------------|
| of the repository              | anything             | the object of the plan   |
| of a target of the collection  | the queued object    | nothing                  |
| of the lease                   | a record of the run  | a record of the run      |
| any other                      | an object or nothing | the same                 |

`project_storage` counts the right column from the left one (`Published.exact`), and a free lease is not larger than
a held one; so what passed the limit before the commit passes it afterwards (`projection_exact`).
-/

open Py

namespace StoragePublish

/-- What is read before the lease is taken, and the arguments of the run. -/
structure Publication where
  inventory : List RepositoryObject
  desired : StatePointer
  desired_manifest : PublicationManifest
  /-- The bytes of `repository/state/current.asc`. -/
  desired_body : ByteArray
  owner : LeaseOwner
  manager : LeaseManager
  max_object_bytes : Int
  caps : GcCaps

section
-- `hashlib.sha256(...).hexdigest()`, the schema check, what `gpgv` makes of a signed body, and what it says of a
-- detached signature and the body under it
variable (hexdigest : ByteArray → String) (validate : String → Json → Except PyErr Unit)
  (verify : ByteArray → Except PyErr ByteArray) (verify_signed : ByteArray → ByteArray → Except PyErr Unit)

/-- A file that `gpgv` is given. -/
def signed_file (files : Dict ByteArray) (key : String) : Except PyErr ByteArray :=
  match files.get? key with
  | some body => .ok body
  | none => .error (.ValueError "repository signature verification failed")

/-- `desired_pointer`, `files` the tree below `repository`. -/
def desired_pointer (files : Dict ByteArray) : Except PyErr (StatePointer × PublicationManifest) := do
  let payload ← verify (← signed_file files "state/current.asc")
  let pointer ← State.parse_state_pointer validate payload
  match files.get? pointer.manifest_key, files.get? (pointer.manifest_key ++ ".asc") with
  | some manifest, some signature =>
    if hexdigest manifest ≠ pointer.manifest_sha256 then
      throw (.ValueError "desired state manifest hash is inconsistent")
    verify_signed signature manifest
    let _ ← verify (← signed_file files "dists/trixie/InRelease")
    verify_signed (← signed_file files "manifest.json.asc") (← signed_file files "manifest.json")
    return (pointer, ← State.parse_manifest validate manifest)
  | _, _ => throw (.ValueError "desired state references an incomplete manifest")

variable (p : Publication)

abbrev Script (α : Type) := Cmd (Option LeaseHandle) α

def verify_current_generation : Script Unit := do
  match ← Cmd.get PublicationPlan.STATE_KEY with
  | none =>
    if p.desired.generation ≠ 0 ∨ p.desired.previous_generation.isSome then
      throw (.ValueError "non-bootstrap publication found no authoritative state")
  | some current =>
    if current.value.body.data = p.desired_body.data then
      if current.value.metadata.cache_control ≠ "public, max-age=0, must-revalidate" then
        throw (.ValueError "committed state has unexpected HTTP metadata")
    else
      let payload ← verify current.value.body
      let observed ← State.parse_state_pointer validate payload
      if p.desired.generation ≠ observed.generation + 1 ∨ p.desired.previous_generation ≠ some observed.generation ∨
          p.desired_manifest.previous_publication ≠ some ⟨observed.publication_id, observed.generation⟩ then
        throw (.ValueError "desired publication does not follow authoritative state")

/-- `lease` of `main`. -/
def lease : Script LeaseHandle := fun st => .ret (match st with
  | some handle => .ok handle
  | none => .error .AssertionError, st)

def setLease (handle : LeaseHandle) : Script Unit := fun _ => .ret (.ok (), some handle)

def checkpoint : Script Unit := do
  let handle ← lease
  LeaseManager.assert_batch_window handle 120 60
  setLease (← p.manager.renew handle)

def observed_generation : Script Int := do
  let current ← Cmd.get PublicationPlan.STATE_KEY
  return if current.any fun x => x.value.body.data = p.desired_body.data then p.desired.generation else -1

/-- The check before the commit. -/
def projected_limit_check (manifest : PublicationManifest) (projection : StorageProjection) : Except PyErr Unit :=
  if manifest.retention_mode = .series_size ∧ manifest.retention_max_bytes.any (projection.size > ·) = true then
    .error (.ValueError "projected object storage exceeds the signed retention limit")
  else .ok ()

/-- The keys and the sizes that a repository writes. -/
def writes (inventory : List RepositoryObject) : List (String × Int) :=
  inventory.map fun item => (item.relative_key, (item.size : Int))

/-- What is planned under the lease. -/
structure Plans where
  plan : PublicationPlan
  gc_plan : GcPlan
  projection : StorageProjection

def prepare : Script Plans := do
  let plan ← PublicationPlan.plan_repository hexdigest p.max_object_bytes p.inventory
  let now ← LeaseManager.now
  let gc_plan ← Gc.plan_gc hexdigest Gc.storeGet p.desired_manifest now p.caps
  let current ← Cmd.list_objects ""
  let projection ← StorageBudget.project_storage (StorageBudget.listed current) (writes p.inventory)
    (gc_plan.targets.map (·.key))
  projected_limit_check p.desired_manifest projection
  return ⟨plan, gc_plan, projection⟩

/-- The `try` block: what was planned, and the deleted keys. -/
def commit : Script (Plans × List String) := do
  setLease (← p.manager.acquire p.owner)
  verify_current_generation validate verify p
  let plans ← prepare hexdigest p
  PublicationExecutor.execute plans.plan (some (checkpoint p))
  let deleted ← Gc.execute_gc hexdigest Gc.storeGet Cmd.delete plans.gc_plan (observed_generation p) (checkpoint p)
  return (plans, deleted)

/-- The `except` block: a failure is raised again after an attempt to release the lease. -/
def abandon {α : Type} (e : PyErr) : Script α := do
  tryCatch (do setLease (← LeaseManager.release (← lease))) fun _ => pure ()
  throw e

/-- Everything before the final check: what was planned, the deleted keys, and the final listing. -/
def settle : Script (Plans × List String × List (String × Nat)) := do
  let (plans, deleted) ← tryCatch (commit hexdigest validate verify p) abandon
  setLease (← LeaseManager.release (← lease))
  let final_inventory ← Cmd.list_objects ""
  return (plans, deleted, final_inventory)

/-- What the summary tells of the storage. -/
structure Summary where
  generation : Int
  object_count : Nat
  storage_object_count : Nat
  storage_size : Int
  gc_deleted_bytes : Int
  gc_deleted_objects : Nat
deriving Repr, DecidableEq

def main : Script Summary := do
  let (plans, deleted, final_inventory) ← settle hexdigest validate verify p
  let final_storage_size := Lifecycle.storage_size final_inventory
  Lifecycle.final_limit_check p.desired_manifest final_storage_size
  return ⟨p.desired.generation, p.inventory.length, final_inventory.length, final_storage_size,
    (plans.gc_plan.targets.map (·.size)).sum, deleted.length⟩

end

/-! ## Nobody else writes -/

/-- What a command gives if it raises nothing, on a store that only this run writes to. -/
def Alone {σ α : Type} (c : Cmd σ α) (I : α → σ → Store → Prop) (st : σ) (s : Store) : Prop :=
  c.wp Store.Truthful Eq (fun _ _ => True) (Cmd.Gives I fun _ _ _ => True) st s

section
variable {σ α β : Type} {st : σ} {s : Store} {I : α → σ → Store → Prop}

theorem alone_pure {a : α} (h : I a st s) : Alone (pure a : Cmd σ α) I st s := h

theorem alone_throw {e : PyErr} : Alone (throw e : Cmd σ α) I st s := trivial

theorem alone_lift {x : Except PyErr α} (h : ∀ a, x = .ok a → I a st s) : Alone (liftM x : Cmd σ α) I st s := by
  cases x with
  | ok a => exact h a rfl
  | error e => exact trivial

theorem alone_lift_bind {x : Except PyErr β} {f : β → Cmd σ α} (h : ∀ b, x = .ok b → Alone (f b) I st s) :
    Alone ((liftM x : Cmd σ β) >>= f) I st s := by
  cases x with
  | ok b => exact h b rfl
  | error e => exact trivial

theorem alone_bind {c : Cmd σ α} {f : α → Cmd σ β} {I' : β → σ → Store → Prop} (h : Alone c I st s)
    (hf : ∀ a st s, I a st s → Alone (f a) I' st s) : Alone (c >>= f) I' st s := Cmd.wp_gives h hf

theorem alone_mono {c : Cmd σ α} {I' : α → σ → Store → Prop} (h : Alone c I st s)
    (hI : ∀ a st s, I a st s → I' a st s) : Alone c I' st s := by
  refine Cmd.wp_mono h fun r st s hr => ?_
  cases r with
  | ok a => exact hI a st s hr
  | error e => exact trivial

/-- Whatever it does. -/
theorem alone_any {c : Cmd σ α} (h : ∀ a st s, I a st s) : Alone c I st s := by
  refine Conc.wp_any fun r s => ?_
  obtain ⟨r, st⟩ := r
  cases r with
  | ok a => exact h a st s
  | error e => exact trivial

/-- An answer that changes nothing. -/
theorem alone_get (key : String) :
    Alone (Cmd.get key : Cmd σ _) (fun r st' s' => r = s.get key ∧ st' = st ∧ s' = s) st s := by
  rintro s' rfl r s'' hr
  refine ⟨trivial, ?_⟩
  cases hr.out with
  | get => exact ⟨rfl, rfl, rfl⟩
  | getFailed e => trivial

theorem alone_list (under : String) :
    Alone (Cmd.list_objects under : Cmd σ _) (fun r st' s' => r = s.listing under ∧ st' = st ∧ s' = s) st s := by
  rintro s' rfl r s'' hr
  refine ⟨trivial, ?_⟩
  cases hr with
  | answers hne _ => exact absurd rfl (hne under)
  | listed => exact ⟨rfl, rfl, rfl⟩
  | unlisted e => trivial

theorem alone_now : Alone (LeaseManager.now : Cmd σ Nat) (fun _ st' s' => st' = st ∧ s' = s) st s := by
  unfold LeaseManager.now
  refine alone_bind (I := fun _ st' s' => st' = st ∧ s' = s) ?_ fun micros st' s' h => ?_
  · rintro s' rfl r s'' hr
    refine ⟨trivial, ?_⟩
    cases hr.out with
    | clock t => exact ⟨rfl, rfl⟩
  · split
    · exact alone_pure h
    · exact alone_throw

theorem alone_terminal_proof (owner : LeaseOwner) :
    Alone (Cmd.terminal_proof owner : Cmd σ Bool) (fun _ st' s' => st' = st ∧ s' = s) st s := by
  rintro s' rfl r s'' hr
  refine ⟨trivial, ?_⟩
  cases hr.out with
  | terminal_proof =>
    cases r with
    | ok b => exact ⟨rfl, rfl⟩
    | error e => trivial

end

/-! ## The lease object -/

/-- The keys other than that of the lease. -/
def Apart (s s' : Store) : Prop := ∀ k, k ≠ LEASE_KEY → s'.get k = s.get k

theorem Apart.trans {a b c : Store} (h : Apart a b) (h' : Apart b c) : Apart a c := fun k hk => (h' k hk).trans (h k hk)

/-- A lease object that a manager wrote for an owner. -/
def Written (owner : LeaseOwner) (x : StoredObject) : Prop :=
  ∃ (m : LeaseManager) (now : Nat) (acquired : Option Nat) (r : LeaseRecord) (body : ByteArray),
    m.held_record owner now acquired = .ok r ∧ Serialize.canonical_bytes r.to_dict = .ok body ∧
      x.value = ⟨body, LEASE_METADATA⟩

theorem Written.size {owner : LeaseOwner} {x : StoredObject} (h : Written owner x) :
    x.value.body.size = LeaseSize.leaseSize owner := by
  obtain ⟨m, now, acquired, r, body, hr, hbody, hx⟩ := h
  rw [hx]
  exact LeaseSize.held_size hr hbody

/-- Who reads it finds the owner. -/
theorem Written.owner {owner : LeaseOwner} {x : StoredObject} (h : Written owner x) {r : LeaseRecord}
    (hr : LeaseManager.require_exact_object x = .ok r) : r.owner = some owner := by
  obtain ⟨m, now, acquired, r', body, hr', hbody, hx⟩ := h
  obtain ⟨-, howner, hschema, -⟩ := LeaseSafety.held_record_spec hr'
  have hparse := LeaseSafety.parse_of_exact hr
  rw [hx, parse_lease_canonical hschema hbody] at hparse
  rw [← Except.ok.inj hparse]
  exact howner

/-- A stored lease of an owner is one that a manager wrote for it. -/
def Genuine (owner : LeaseOwner) (s : Store) : Prop := ∀ x r, s.get LEASE_KEY = some x →
  LeaseManager.require_exact_object x = .ok r → r.owner = some owner → Written owner x

section
variable {σ : Type} {st : σ} {s : Store}

/-- A record has become the lease object, or was it already. -/
structure Stores (r : LeaseRecord) (x : StoredObject) (s s' : Store) : Prop where
  apart : Apart s s'
  lease : s'.get LEASE_KEY = some x
  body : ∃ body, Serialize.canonical_bytes r.to_dict = .ok body ∧ x.value = ⟨body, LEASE_METADATA⟩

theorem Stores.written {m : LeaseManager} {owner : LeaseOwner} {now : Nat} {acquired : Option Nat} {r : LeaseRecord}
    {x : StoredObject} {s s' : Store} (h : Stores r x s s') (hr : m.held_record owner now acquired = .ok r) :
    Written owner x := by
  obtain ⟨body, hbody, hx⟩ := h.body
  exact ⟨m, now, acquired, r, body, hr, hbody, hx⟩

theorem write_alone (r : LeaseRecord) (c : Conc.Cond) :
    Alone (LeaseManager.write r c : Cmd σ _) (fun x st' s' => st' = st ∧ Stores r x s s') st s := by
  refine alone_lift_bind fun body hbody => ?_
  rintro s' rfl x s'' hr
  refine ⟨trivial, ?_⟩
  cases hr.out with
  | put _ =>
    exact ⟨rfl, fun k hk => Conc.CondStore.get_write_ne _ _ hk, Conc.CondStore.get_write_self _ _ _, body, hbody, rfl⟩
  | putReconciled hget hvalue => exact ⟨rfl, fun _ _ => rfl, hget, body, hbody, hvalue⟩
  | putRefused _ => trivial
  | putFailed e => trivial
  | putUnanswered e _ => trivial

/-- The handle is the stored revision. -/
theorem observe_alone (handle : LeaseHandle) (before : String) :
    Alone (LeaseManager.observe handle before : Cmd σ _) (fun r st' s' => st' = st ∧ s' = s ∧ ∃ x,
      s.get LEASE_KEY = some x ∧ x.etag = handle.etag ∧ LeaseManager.require_exact_object x = .ok r) st s := by
  unfold LeaseManager.observe
  refine alone_bind (alone_get LEASE_KEY) fun current st' s' h => ?_
  obtain ⟨rfl, rfl, rfl⟩ := h
  cases hget : s'.get LEASE_KEY with
  | none => exact alone_throw
  | some x =>
    dsimp only
    split
    · exact alone_throw
    · next hetag => exact alone_lift fun r hr => ⟨rfl, rfl, x, rfl, not_not.1 hetag, hr⟩

/-- A renewal by the holder, or an acquisition: the record that is written is the owner's. -/
theorem take_alone {m : LeaseManager} {owner : LeaseOwner} {now : Nat} {c : Conc.Cond} {takeover : Bool} :
    Alone (m.take owner now c takeover : Cmd σ _) (fun handle st' s' => st' = st ∧ Apart s s' ∧ handle.owner = owner ∧
      ∃ x, s'.get LEASE_KEY = some x ∧ x.etag = handle.etag ∧ Written owner x) st s := by
  unfold LeaseManager.take
  refine alone_lift_bind fun r hr => ?_
  refine alone_bind (write_alone r c) fun x st' s' h => ?_
  obtain ⟨rfl, hstores⟩ := h
  exact alone_pure ⟨rfl, hstores.apart, rfl, x, hstores.lease, rfl, hstores.written hr⟩

theorem reacquire_ok {owner : LeaseOwner} {now : Nat} {x : StoredObject} {observed : LeaseRecord} {handle : LeaseHandle}
    (h : LeaseManager.reacquire owner now x observed = .ok handle) : handle.owner = owner ∧ handle.etag = x.etag := by
  unfold LeaseManager.reacquire at h
  cases hexpires : observed.expires_utc with
  | none =>
    rw [hexpires] at h
    cases h
  | some expires =>
    rw [hexpires] at h
    obtain ⟨t, -, h⟩ := except_bind_eq_ok.1 h
    rw [except_raise_eq_ok] at h
    cases h.2
    exact ⟨rfl, rfl⟩

theorem require_stale_alone {m : LeaseManager} {now : Nat} {observed : LeaseRecord} :
    Alone (m.require_stale now observed : Cmd σ _) (fun _ st' s' => st' = st ∧ s' = s) st s := by
  unfold LeaseManager.require_stale
  cases observed.owner with
  | none => exact alone_throw
  | some old =>
    refine alone_bind (alone_terminal_proof old) fun terminal st' s' h => ?_
    refine alone_lift_bind fun allowed _ => ?_
    split
    · exact alone_throw
    · exact alone_pure h

/-- The owner of a new lease; a stored lease of this owner is one that a manager wrote. -/
theorem acquire_alone {m : LeaseManager} {owner : LeaseOwner}
    (hgenuine : Genuine owner s) :
    Alone (m.acquire owner : Cmd σ _) (fun handle st' s' => st' = st ∧ Apart s s' ∧ handle.owner = owner ∧
      ∃ x, s'.get LEASE_KEY = some x ∧ x.etag = handle.etag ∧ Written owner x) st s := by
  unfold LeaseManager.acquire
  refine alone_bind alone_now fun now st' s' h => ?_
  obtain ⟨rfl, rfl⟩ := h
  refine alone_bind (alone_get LEASE_KEY) fun current st'' s'' h => ?_
  obtain ⟨rfl, rfl, rfl⟩ := h
  cases hget : s''.get LEASE_KEY with
  | none => exact take_alone
  | some x =>
    dsimp only
    refine alone_lift_bind fun observed hobserved => ?_
    split
    · next hown =>
      refine alone_lift fun handle hhandle => ?_
      have hfields := reacquire_ok hhandle
      exact ⟨rfl, fun _ _ => rfl, hfields.1, x, hget, hfields.2.symm, hgenuine x observed hget hobserved hown.2⟩
    · split
      · refine alone_bind require_stale_alone fun _ st' s' h => ?_
        obtain ⟨rfl, rfl⟩ := h
        exact take_alone
      · exact take_alone

/-- **A renewal** leaves the owner's record in the place of the stored one. -/
theorem renew_alone {m : LeaseManager} {handle : LeaseHandle} :
    Alone (m.renew handle : Cmd σ _) (fun handle' st' s' => st' = st ∧ Apart s s' ∧
      (∃ x r, s.get LEASE_KEY = some x ∧ x.etag = handle.etag ∧ LeaseManager.require_exact_object x = .ok r ∧
        r.owner = some handle.owner) ∧
      ∃ x, s'.get LEASE_KEY = some x ∧ x.etag = handle'.etag ∧ Written handle.owner x) st s := by
  unfold LeaseManager.renew
  refine alone_bind alone_now fun now st' s' h => ?_
  obtain ⟨rfl, rfl⟩ := h
  refine alone_bind (observe_alone handle "renewal") fun observed st'' s'' h => ?_
  obtain ⟨rfl, rfl, x, hget, hetag, hexact⟩ := h
  by_cases howner : observed.status ≠ .held ∨ observed.owner ≠ some handle.owner
  · rw [if_pos howner]
    exact alone_throw
  rw [if_neg howner]
  rw [not_or, not_not, not_not] at howner
  dsimp only
  cases observed.expires_utc with
  | none => exact alone_throw
  | some expires =>
    refine alone_lift_bind fun t _ => ?_
    split
    · exact alone_throw
    cases observed.acquired_utc with
    | none => exact alone_throw
    | some acquired =>
      refine alone_lift_bind fun acquired _ => ?_
      refine alone_lift_bind fun renewed hrenewed => ?_
      refine alone_bind (write_alone renewed _) fun written st' s' h => ?_
      obtain ⟨rfl, hstores⟩ := h
      exact alone_pure ⟨rfl, hstores.apart, ⟨x, observed, hget, hetag, hexact, howner.2⟩, written, hstores.lease, rfl,
        hstores.written hrenewed⟩

theorem assert_batch_window_alone {handle : LeaseHandle} {batch safety : Int} :
    Alone (LeaseManager.assert_batch_window handle batch safety : Cmd σ _) (fun _ st' s' => st' = st ∧ s' = s) st s := by
  unfold LeaseManager.assert_batch_window
  split
  · exact alone_throw
  refine alone_bind (observe_alone handle "a mutation batch") fun record st' s' h => ?_
  obtain ⟨rfl, rfl, -⟩ := h
  by_cases howner : record.status ≠ .held ∨ record.owner ≠ some handle.owner
  · rw [if_pos howner]
    exact alone_throw
  rw [if_neg howner]
  dsimp only
  cases record.expires_utc with
  | none => exact alone_throw
  | some expires =>
    refine alone_lift_bind fun t _ => ?_
    refine alone_bind alone_now fun now st' s' h => ?_
    split
    · exact alone_throw
    · exact alone_pure h

/-- **A release** leaves a record that is not larger. -/
theorem release_alone {handle : LeaseHandle} {owner : LeaseOwner} {x : StoredObject} (hx : s.get LEASE_KEY = some x)
    (hwritten : Written owner x) :
    Alone (LeaseManager.release handle : Cmd σ _) (fun _ _ s' => Apart s s' ∧
      ∃ x', s'.get LEASE_KEY = some x' ∧ x'.value.body.size ≤ x.value.body.size) st s := by
  unfold LeaseManager.release
  refine alone_bind alone_now fun now st' s' h => ?_
  obtain ⟨rfl, rfl⟩ := h
  refine alone_bind (observe_alone handle "release") fun observed st'' s'' h => ?_
  obtain ⟨rfl, rfl, -⟩ := h
  split
  · exact alone_throw
  refine alone_lift_bind fun released hreleased => ?_
  refine alone_bind (write_alone released _) fun written st' s' h => ?_
  obtain ⟨rfl, hstores⟩ := h
  obtain ⟨body, hbody, hvalue⟩ := hstores.body
  refine alone_pure ⟨hstores.apart, written, hstores.lease, ?_⟩
  rw [hvalue, hwritten.size]
  exact LeaseSize.free_size hreleased hbody owner

end

/-! ## Planning -/

section
variable {σ : Type} {st : σ} {s : Store} {hexdigest : ByteArray → String}

/-- Nothing but reads. -/
def Still (st : σ) (s : Store) (st' : σ) (s' : Store) : Prop := st' = st ∧ s' = s

theorem captureAll_alone : ∀ {keys : List String} {st : σ} {s : Store},
    Alone (PublicationPlan.captureAll keys : Cmd σ _) (fun _ => Still st s) st s
  | [], _, _ => alone_pure ⟨rfl, rfl⟩
  | key :: keys, st, s => by
    unfold PublicationPlan.captureAll
    refine alone_bind (alone_get key) fun current st' s' h => ?_
    obtain ⟨-, rfl, rfl⟩ := h
    exact alone_bind captureAll_alone fun rest st'' s'' h => alone_pure h

/-- The sizes of an inventory are those of the files. -/
def Sized (inventory : List RepositoryObject) : Prop := ∀ item ∈ inventory, item.contents.size = item.size

theorem loaded_sized {max_object_bytes : Int} {inventory : List RepositoryObject} {start objects : Dict PublicationObject}
    (h : inventory.foldlM (PublicationPlan.addObject hexdigest max_object_bytes) start = .ok objects) :
    Sized inventory := by
  induction inventory generalizing start with
  | nil => exact fun item hitem => absurd hitem List.not_mem_nil
  | cons item inventory ih =>
    rw [List.foldlM_cons] at h
    obtain ⟨next, hnext, h⟩ := except_bind_eq_ok.1 h
    refine List.forall_mem_cons.2 ⟨?_, ih h⟩
    simp only [PublicationPlan.addObject, except_throw, except_error_bind, except_check_eq_ok] at hnext
    obtain ⟨-, hnext⟩ := hnext
    split at hnext
    · cases hnext
    · obtain ⟨body, hread, -⟩ := except_bind_eq_ok.1 hnext
      unfold RepositoryObject.read at hread
      rw [except_check_eq_ok, not_or, not_not] at hread
      exact hread.1.1

theorem plan_repository_alone {max_object_bytes : Int} {inventory : List RepositoryObject} :
    Alone (PublicationPlan.plan_repository hexdigest max_object_bytes inventory : Cmd σ _)
      (fun plan st' s' => Still st s st' s' ∧ Sized inventory ∧
        ∃ objects, PublicationPlan.Loaded inventory objects ∧ plan.Of objects) st s := by
  unfold PublicationPlan.plan_repository
  refine alone_lift_bind fun c hc => ?_
  obtain ⟨objects, hloaded, hof⟩ := PublicationPlan.classify_ok hc
  have hsized : Sized inventory := by
    simp only [PublicationPlan.classify, except_throw, except_error_bind, except_check_eq_ok] at hc
    obtain ⟨-, hc⟩ := hc
    obtain ⟨objects, hload, -⟩ := except_bind_eq_ok.1 hc
    exact loaded_sized hload
  refine alone_bind captureAll_alone fun preconditions st' s' h => ?_
  refine alone_lift fun plan hplan => ?_
  exact ⟨h, hsized, objects, hloaded, hof.plan (PublicationPlan.make_ok hplan)⟩

theorem ofExcept_alone {α : Type} {x : Except PyErr α} {I : α → σ → Store → Prop} (h : ∀ a, x = .ok a → I a st s) :
    Alone (MonadExcept.ofExcept x : Cmd σ α) I st s := by
  cases x with
  | ok a => exact alone_pure (h a rfl)
  | error e => exact alone_throw

theorem planTargets_alone {caps : GcCaps} {keys : List String} : ∀ {entries : List GcQueueEntry} {targets : List GcTarget}
    {total : Int} {st : σ} {s : Store}, (∀ e ∈ entries, e.key ∈ keys) → (∀ t ∈ targets, t.key ∈ keys) →
      Alone (Gc.planTargets hexdigest Gc.storeGet caps entries targets total : Cmd σ _)
        (fun result st' s' => Still st s st' s' ∧ ∀ t ∈ result, t.key ∈ keys) st s
  | [], _, _, _, _, _, htargets => alone_pure ⟨⟨rfl, rfl⟩, htargets⟩
  | entry :: entries, targets, total, st, s, hentries, htargets => by
    obtain ⟨hentry, hentries⟩ := List.forall_mem_cons.1 hentries
    rw [Gc.planTargets, GcTarget.make_eq]
    refine alone_bind (I := fun candidate st' s' => Still st s st' s' ∧ candidate = entry.target)
      (alone_pure ⟨⟨rfl, rfl⟩, rfl⟩) fun candidate st' s' h => ?_
    obtain ⟨⟨rfl, rfl⟩, rfl⟩ := h
    by_cases hbig : entry.target.size > caps.max_bytes
    · rw [if_pos hbig]
      exact alone_throw
    rw [if_neg hbig]
    refine alone_bind (I := fun _ => Still st' s') ?_ fun current st'' s'' h => ?_
    · exact alone_bind (alone_get entry.key) fun object st'' s'' h => alone_pure h.2
    obtain ⟨rfl, rfl⟩ := h
    cases current with
    | none => exact planTargets_alone hentries htargets
    | some current =>
      dsimp only
      split
      · exact alone_throw
      split
      · exact alone_throw
      exact planTargets_alone hentries (List.forall_mem_append.2 ⟨htargets, List.forall_mem_singleton.2 hentry⟩)

/-- The targets are queued. -/
theorem plan_gc_alone {manifest : PublicationManifest} {now : Nat} {caps : GcCaps} :
    Alone (Gc.plan_gc hexdigest Gc.storeGet manifest now caps : Cmd σ _)
      (fun plan st' s' => Still st s st' s' ∧ ∀ t ∈ plan.targets, t.key ∈ manifest.queuedKeys) st s := by
  unfold Gc.plan_gc
  split
  · exact alone_throw
  have hqueued : ∀ e ∈ Gc.queued manifest, e.key ∈ manifest.queuedKeys := fun e he =>
    List.mem_map_of_mem ((Gc.queued_perm manifest).mem_iff.1 he)
  refine alone_bind (planTargets_alone hqueued fun t ht => absurd ht List.not_mem_nil) fun targets st' s' h => ?_
  obtain ⟨⟨rfl, rfl⟩, htargets⟩ := h
  refine ofExcept_alone fun plan hplan => ⟨⟨rfl, rfl⟩, ?_⟩
  rw [GcPlan.make_ok hplan]
  exact htargets

end

section
variable {hexdigest : ByteArray → String} {validate : String → Json → Except PyErr Unit}
  {verify : ByteArray → Except PyErr ByteArray} {p : Publication} {st : Option LeaseHandle} {s : Store}

/-- What a publication may find as the state. -/
def Admits (validate : String → Json → Except PyErr Unit) (verify : ByteArray → Except PyErr ByteArray) (p : Publication)
    (s : Store) : Prop :=
  match s.get PublicationPlan.STATE_KEY with
  | none => p.desired.generation = 0 ∧ p.desired.previous_generation = none
  | some current => current.value.body.data = p.desired_body.data ∨ ∃ payload observed,
      verify current.value.body = .ok payload ∧ State.parse_state_pointer validate payload = .ok observed ∧
      p.desired.generation = observed.generation + 1 ∧ p.desired.previous_generation = some observed.generation ∧
      p.desired_manifest.previous_publication = some ⟨observed.publication_id, observed.generation⟩

theorem verify_current_generation_alone : Alone (verify_current_generation validate verify p)
    (fun _ st' s' => Still st s st' s' ∧ Admits validate verify p s) st s := by
  unfold verify_current_generation Admits
  refine alone_bind (alone_get PublicationPlan.STATE_KEY) fun current st' s' h => ?_
  obtain ⟨rfl, rfl, rfl⟩ := h
  cases s'.get PublicationPlan.STATE_KEY with
  | none =>
    dsimp only
    by_cases hfirst : p.desired.generation ≠ 0 ∨ p.desired.previous_generation.isSome = true
    · rw [if_pos hfirst]
      exact alone_throw
    · rw [if_neg hfirst]
      rw [not_or, not_not, Bool.not_eq_true, Option.isSome_eq_false_iff, Option.isNone_iff_eq_none] at hfirst
      exact alone_pure ⟨⟨rfl, rfl⟩, hfirst⟩
  | some current =>
    dsimp only
    by_cases hbody : current.value.body.data = p.desired_body.data
    · rw [if_pos hbody]
      split
      · exact alone_throw
      · exact alone_pure ⟨⟨rfl, rfl⟩, .inl hbody⟩
    rw [if_neg hbody]
    refine alone_lift_bind fun payload hpayload => ?_
    refine alone_lift_bind fun observed hobserved => ?_
    by_cases hfollows : p.desired.generation ≠ observed.generation + 1 ∨
        p.desired.previous_generation ≠ some observed.generation ∨
        p.desired_manifest.previous_publication ≠ some ⟨observed.publication_id, observed.generation⟩
    · rw [if_pos hfollows]
      exact alone_throw
    · rw [if_neg hfollows]
      rw [not_or, not_or, not_not, not_not, not_not] at hfollows
      exact alone_pure ⟨⟨rfl, rfl⟩, .inr ⟨payload, observed, hpayload, hobserved, hfollows⟩⟩

/-- What was planned on a store. -/
structure Prepared (hexdigest : ByteArray → String) (p : Publication) (s : Store) (plans : Plans) : Prop where
  sized : Sized p.inventory
  queued : ∀ t ∈ plans.gc_plan.targets, t.key ∈ p.desired_manifest.queuedKeys
  of : ∃ objects, PublicationPlan.Loaded p.inventory objects ∧ plans.plan.Of objects
  projected : StorageBudget.project_storage (StorageBudget.listed (s.listing "")) (writes p.inventory)
    (plans.gc_plan.targets.map (·.key)) = .ok plans.projection
  admitted : projected_limit_check p.desired_manifest plans.projection = .ok ()

theorem prepare_alone : Alone (prepare hexdigest p)
    (fun plans st' s' => Still st s st' s' ∧ Prepared hexdigest p s plans) st s := by
  unfold prepare
  refine alone_bind plan_repository_alone fun plan st' s' h => ?_
  obtain ⟨⟨rfl, rfl⟩, hsized, hof⟩ := h
  refine alone_bind alone_now fun now st'' s'' h => ?_
  obtain ⟨rfl, rfl⟩ := h
  refine alone_bind plan_gc_alone fun gc_plan st' s' h => ?_
  obtain ⟨⟨rfl, rfl⟩, hqueued⟩ := h
  refine alone_bind (alone_list "") fun current st'' s'' h => ?_
  obtain ⟨rfl, rfl, rfl⟩ := h
  refine alone_lift_bind fun projection hprojection => ?_
  refine alone_lift_bind fun _ hadmitted => ?_
  exact alone_pure ⟨⟨rfl, rfl⟩, hsized, hqueued, hof, hprojection, hadmitted⟩

/-! ## A checkpoint -/

/-- The lease of `owner` is stored. -/
def Leased (owner : LeaseOwner) (s : Store) : Prop := ∃ x, s.get LEASE_KEY = some x ∧ Written owner x

/-- The handle of the run is the stored revision. -/
def Current (st : Option LeaseHandle) (s : Store) : Prop :=
  ∃ handle x, st = some handle ∧ s.get LEASE_KEY = some x ∧ x.etag = handle.etag

/-- A checkpoint that passes has found the lease of the run, and has renewed it. -/
structure Renewed (st : Option LeaseHandle) (s : Store) (st' : Option LeaseHandle) (s' : Store) : Prop where
  found : Current st s
  current : Current st' s'
  apart : Apart s s'
  leased : ∀ owner, Leased owner s → Leased owner s'

theorem lease_alone : Alone lease (fun handle st' s' => Still st s st' s' ∧ st = some handle) st s := by
  cases st with
  | none => exact trivial
  | some handle => exact ⟨⟨rfl, rfl⟩, rfl⟩

theorem setLease_alone {handle : LeaseHandle} :
    Alone (setLease handle) (fun _ st' s' => st' = some handle ∧ s' = s) st s := ⟨rfl, rfl⟩

theorem checkpoint_alone : Alone (checkpoint p) (fun _ st' s' => Renewed st s st' s') st s := by
  unfold checkpoint
  refine alone_bind lease_alone fun handle st₁ s₁ h => ?_
  obtain ⟨⟨rfl, rfl⟩, hst⟩ := h
  refine alone_bind assert_batch_window_alone fun _ st₂ s₂ h => ?_
  obtain ⟨rfl, rfl⟩ := h
  refine alone_bind renew_alone fun handle' st₃ s₃ h => ?_
  obtain ⟨rfl, hapart, ⟨x, r, hget, hetag, hexact, howner⟩, x', hget', hetag', hwritten⟩ := h
  refine alone_mono setLease_alone fun _ st₄ s₄ h => ?_
  obtain ⟨rfl, rfl⟩ := h
  refine ⟨⟨handle, x, hst, hget, hetag⟩, ⟨handle', x', rfl, hget', hetag'⟩, hapart, fun owner hleased => ?_⟩
  obtain ⟨y, hy, hwritten'⟩ := hleased
  obtain rfl : x = y := Option.some.inj (hget.symm.trans hy)
  -- the record that was read names the owner of what is stored
  obtain rfl : handle.owner = owner := Option.some.inj (howner.symm.trans (hwritten'.owner hexact))
  exact ⟨x', hget', hwritten⟩

end

/-! ## The writes -/

section
variable {p : Publication} {plan : PublicationPlan} {objects : Dict PublicationObject} {owner : LeaseOwner}
  {st : Option LeaseHandle} {s s₀ : Store}

open PublicationExecutor

/-- The part of a plan under the keys in `D` is in the store, the lease is the owner's, and whatever is not planned is
as it was. -/
structure Done (s₀ : Store) (plan : PublicationPlan) (owner : LeaseOwner) (D : Set String) (s : Store) : Prop where
  present : ∀ x, Planned plan x → x.1 ∈ D → x.1 ≠ LEASE_KEY → Present s x
  others : ∀ k, k ≠ LEASE_KEY → k ∉ handled plan → s.get k = s₀.get k
  leased : Leased owner s
  /-- A planned object that takes the place of the lease is not of another size. -/
  size : ∀ v, Planned plan (LEASE_KEY, v) → LEASE_KEY ∈ D → v.body.size = LeaseSize.leaseSize owner

theorem Done.start (h : Leased owner s₀) : Done s₀ plan owner ∅ s₀ where
  present _ _ hmem := absurd hmem (Set.notMem_empty _)
  others _ _ _ := rfl
  leased := h
  size _ _ hmem := absurd hmem (Set.notMem_empty _)

theorem Done.renewed {D : Set String} (h : Done s₀ plan owner D s) {s' : Store} (hapart : Apart s s')
    (hleased : Leased owner s') : Done s₀ plan owner D s' where
  present x hx hmem hk := by
    rw [Present, hapart _ hk]
    exact h.present x hx hmem hk
  others k hk hnot := (hapart k hk).trans (h.others k hk hnot)
  leased := hleased
  size := h.size

theorem Done.write (hof : plan.Of objects) {D : Set String} (h : Done s₀ plan owner D s)
    {x : String × PublicationObject} (hx : Planned plan x) (hk : x.1 ≠ LEASE_KEY) :
    Done s₀ plan owner D (s.write x.1 x.2) where
  present y hy hmem hyk := Present.planned hof hx hy (h.present y hy hmem hyk)
  others k hlease hnot := by
    have hne : k ≠ x.1 := fun heq => hnot (heq ▸ planned_handled hx)
    rw [Conc.CondStore.get_write_ne _ _ hne]
    exact h.others k hlease hnot
  leased := by
    obtain ⟨y, hy, hwritten⟩ := h.leased
    exact ⟨y, (Conc.CondStore.get_write_ne _ _ hk.symm).trans hy, hwritten⟩
  size := h.size

theorem Done.insert (hof : plan.Of objects) {D : Set String} (h : Done s₀ plan owner D s)
    {x : String × PublicationObject} (hx : Planned plan x) (hs : Present s x) :
    Done s₀ plan owner (insert x.1 D) s where
  present y hy hmem hk := by
    rcases hmem with heq | hmem
    · have hyx : y = x := Prod.ext heq (hof.planned_unique (k := x.1) (heq ▸ hy) hx)
      exact hyx ▸ hs
    · exact h.present y hy hmem hk
  others := h.others
  leased := h.leased
  size v hv hmem := by
    rcases hmem with heq | hmem
    · obtain rfl : v = x.2 := hof.planned_unique (k := x.1) (heq ▸ hv) hx
      obtain ⟨y, hy, hwritten⟩ := h.leased
      rw [Present, ← heq, hy] at hs
      rw [← Option.some.inj hs, hwritten.size]
    · exact h.size v hv hmem

/-- Before a checkpoint: what is done if the checkpoint will find the lease. A write in its place makes the handle a
past revision, and nothing is claimed. -/
structure Before (s₀ : Store) (plan : PublicationPlan) (owner : LeaseOwner) (D : Set String) (st : Option LeaseHandle)
    (s : Store) : Prop where
  past : ∀ handle, st = some handle → handle.etag < s.revision
  done : Current st s → Done s₀ plan owner D s

/-- After a checkpoint. -/
structure After (s₀ : Store) (plan : PublicationPlan) (owner : LeaseOwner) (D : Set String) (st : Option LeaseHandle)
    (s : Store) : Prop where
  current : Current st s
  done : Done s₀ plan owner D s

theorem Current.past (h : Current st s) : ∀ handle, st = some handle → handle.etag < s.revision := by
  rintro handle rfl
  obtain ⟨_, x, heq, hget, hetag⟩ := h
  cases heq
  rw [← hetag]
  exact Conc.CondStore.etag_lt hget

theorem After.before {D : Set String} (h : After s₀ plan owner D st s) : Before s₀ plan owner D st s :=
  ⟨h.current.past, fun _ => h.done⟩

/-- A planned object is written. -/
theorem Before.write (hof : plan.Of objects) {D : Set String} (h : Before s₀ plan owner D st s)
    {x : String × PublicationObject} (hx : Planned plan x) : Before s₀ plan owner D st (s.write x.1 x.2) where
  past handle hst := Nat.lt_succ_of_lt (h.past handle hst)
  done := by
    rintro ⟨handle, y, hst, hget, hetag⟩
    by_cases hk : x.1 = LEASE_KEY
    · rw [hk, Conc.CondStore.get_write_self] at hget
      have hpast := h.past handle hst
      rw [← hetag, ← Option.some.inj hget] at hpast
      exact absurd hpast (lt_irrefl _)
    · rw [Conc.CondStore.get_write_ne _ _ (Ne.symm hk)] at hget
      exact (h.done ⟨handle, y, hst, hget, hetag⟩).write hof hx hk

theorem Before.insert (hof : plan.Of objects) {D : Set String} (h : Before s₀ plan owner D st s)
    {x : String × PublicationObject} (hx : Planned plan x) (hs : Present s x) :
    Before s₀ plan owner (insert x.1 D) st s :=
  ⟨h.past, fun hcurrent => (h.done hcurrent).insert hof hx hs⟩

/-- An execution of this run alone, one request after the other. -/
theorem walk_alone (hof : plan.Of objects) : CheckedWalk Store.Truthful Eq (fun _ _ => True) plan (some (checkpoint p)) none
    (Before s₀ plan owner) (fun _ _ _ => True) (After s₀ plan owner) where
  created x hx D st s h := by
    refine Cmd.wp_mono (keeps_create_immutable.wp (Conc.wp_sem (fun _ _ _ _ => Store.Truthful.out) (create_immutable_wp
      (J := Before s₀ plan owner D st) (E := fun _ _ _ => True) (fun s s' h hs => hs ▸ h) (fun _ _ => trivial)
      (fun s h _ => ⟨trivial, h.write hof (.inl hx)⟩) (fun _ _ _ _ => trivial) h.before))) ?_
    rintro (e | x) st' s' ⟨rfl, hr⟩
    · trivial
    · exact hr.1.insert hof (.inl hx) hr.2
  replaced x need pre hx hpre D st s hneed h := by
    refine Cmd.wp_mono (keeps_put_mutable.wp (Conc.wp_sem (fun _ _ _ _ => Store.Truthful.out) (put_mutable_wp
      (J := Before s₀ plan owner D st) (E := fun _ _ _ => True) (fun s s' h hs => hs ▸ h) (fun _ _ => trivial)
      (fun s h _ => ⟨trivial, h.write hof (.inr ⟨need, hx⟩)⟩) (fun _ _ _ _ => trivial) h.before))) ?_
    rintro (e | x) st' s' ⟨rfl, hr⟩
    · trivial
    · exact hr.1.insert hof (.inr ⟨need, hx⟩) hr.2
  verified x hx D st s hmem h := by
    refine Cmd.wp_mono (keeps_verify.wp (Conc.wp_sem (fun _ _ _ _ => Store.Truthful.out) (verify_wp
      (J := After s₀ plan owner D st) (E := fun _ _ _ => True) (fun s s' h hs => hs ▸ h) (fun _ _ => trivial)
      (fun _ _ _ _ => trivial) h))) ?_
    rintro (e | x) st' s' ⟨rfl, hr⟩
    · trivial
    · exact hr.1
  checked D st s h := by
    refine Cmd.wp_mono checkpoint_alone fun r st' s' hr => ?_
    rcases r with e | _
    · trivial
    · have hdone := h.done hr.found
      exact ⟨hr.current, hdone.renewed hr.apart (hr.leased owner hdone.leased)⟩
  ready D st s h := h.before
  injected h := absurd rfl h

end

/-! ## The deletions -/

section
variable {hexdigest : ByteArray → String} {validate : String → Json → Except PyErr Unit}
  {verify : ByteArray → Except PyErr ByteArray} {p : Publication} {st : Option LeaseHandle} {s : Store} {owner : LeaseOwner}

/-- Only the lease has changed, and it is held by whoever held it. -/
structure Renews (s s' : Store) : Prop where
  apart : Apart s s'
  leased : ∀ owner, Leased owner s → Leased owner s'

theorem checkpoint_kept : Gc.Kept Store.Truthful Eq (fun _ _ => True) Renews (checkpoint p) := by
  intro J hJ st s hj
  refine alone_mono checkpoint_alone fun _ st' s' h => ?_
  exact hJ s s' hj ⟨h.apart, h.leased⟩

theorem observed_generation_kept : Gc.Kept Store.Truthful Eq (fun _ _ => True) Renews (observed_generation p) := by
  intro J hJ st s hj
  unfold observed_generation
  refine alone_bind (alone_get PublicationPlan.STATE_KEY) fun current st' s' h => ?_
  obtain ⟨-, rfl, rfl⟩ := h
  exact alone_pure hj

/-- The lease is never a target. -/
theorem target_key {t : GcTarget} : t.key ≠ LEASE_KEY := by
  have h := t.valid
  obtain ⟨_, hkey, -⟩ := except_bind_eq_ok.1 h
  rintro heq
  have hno : (Records.gc_key LEASE_KEY).isOk = false := by decide +kernel
  rw [heq] at hkey
  rw [hkey] at hno
  cases hno

/-- What a collection leaves. -/
structure Collected (gone : List String) (owner : LeaseOwner) (s s' : Store) : Prop where
  remains : ∀ k, k ≠ LEASE_KEY → s'.get k = Gc.remains s gone k
  leased : Leased owner s'

theorem execute_gc_alone {plan : GcPlan} (h : Leased owner s) :
    Alone (Gc.execute_gc hexdigest Gc.storeGet Cmd.delete plan (observed_generation p) (checkpoint p))
      (fun _ _ s' => Collected (plan.targets.map (·.key)) owner s s') st s := by
  refine Gc.execute_gc_wp Store.service_truthful (K := Renews) ?_ (fun _ => trivial)
    observed_generation_kept checkpoint_kept (J := fun done s' => Collected (done.map (·.key)) owner s s') ?_ ?_ ?_ ?_
    ⟨fun _ _ => rfl, h⟩
  · rintro s₁ _ rfl
    exact ⟨fun _ _ => rfl, fun _ h => h⟩
  · intro done s₁ s₂ hj hs
    exact ⟨fun k hk => (hs.apart k hk).trans (hj.remains k hk), hs.leased owner hj.leased⟩
  · intro t _ s₁ s₂ hs
    rw [Gc.values, Gc.values, hs.apart _ target_key]
  · intro done t s₁ _ hj hnone
    refine ⟨fun k hk => ?_, hj.leased⟩
    rw [List.map_append, List.map_singleton, Gc.remains_snoc]
    split
    · next heq =>
      rw [heq]
      exact Option.map_eq_none_iff.1 hnone
    · exact hj.remains k hk
  · intro done t s₁ v _ hj _ _
    refine ⟨trivial, fun k hk => ?_, ?_⟩
    · rw [List.map_append, List.map_singleton, Gc.remains_snoc]
      split
      · next heq => rw [heq, Conc.CondStore.get_delete_self]
      · next hne =>
        rw [Conc.CondStore.get_delete_ne _ hne]
        exact hj.remains k hk
    · obtain ⟨x, hx, hwritten⟩ := hj.leased
      exact ⟨x, (Conc.CondStore.get_delete_ne _ (Ne.symm target_key)).trans hx, hwritten⟩

/-- **The right column of the table**: the planned objects, nothing under a target, and the rest of `s₀`. -/
structure Published (p : Publication) (plans : Plans) (s₀ s : Store) : Prop where
  present : ∀ item ∈ p.inventory, item.relative_key ≠ LEASE_KEY →
    Present s (item.relative_key, ⟨item.contents, item.metadata⟩)
  gone : ∀ t ∈ plans.gc_plan.targets, s.get t.key = none
  others : ∀ k, k ≠ LEASE_KEY → k ∉ p.inventory.map (·.relative_key) → k ∉ plans.gc_plan.targets.map (·.key) →
    s.get k = s₀.get k
  leased : Leased p.owner s
  size : ∀ item ∈ p.inventory, item.relative_key = LEASE_KEY → item.contents.size = LeaseSize.leaseSize p.owner

end

section
variable {hexdigest : ByteArray → String} {validate : String → Json → Except PyErr Unit}
  {verify : ByteArray → Except PyErr ByteArray} {p : Publication} {plans : Plans} {st : Option LeaseHandle}
  {s s₀ : Store}

open PublicationExecutor in
/-- A key of a plan has an object. -/
theorem handled_planned {plan : PublicationPlan} {k : String} (h : k ∈ handled plan) : ∃ v, Planned plan (k, v) := by
  rcases h with h | h | rfl | h | rfl
  · obtain ⟨v, hv⟩ := Dict.mem_keys.1 h
    exact ⟨v, .inl (Dict.mem_items.2 hv)⟩
  · obtain ⟨v, hv⟩ := Dict.mem_keys.1 h
    exact ⟨v, .inr ⟨_, .mutable_before_commit (Dict.mem_items.2 hv)⟩⟩
  · exact ⟨_, .inr ⟨_, .inrelease⟩⟩
  · obtain ⟨v, hv⟩ := Dict.mem_keys.1 h
    exact ⟨v, .inr ⟨_, .convenience (Dict.mem_items.2 hv)⟩⟩
  · exact ⟨_, .inr ⟨_, .state_pointer⟩⟩

/-- A target is not written. -/
theorem Prepared.target_unwritten (h : Prepared hexdigest p s plans) {k : String}
    (hk : k ∈ plans.gc_plan.targets.map (·.key)) : k ∉ p.inventory.map (·.relative_key) := by
  obtain ⟨-, -, hdisjoint⟩ := StorageBudget.project_ok h.projected
  intro hmem
  refine hdisjoint k ?_ hk
  rw [writes, List.map_map]
  exact hmem

theorem Prepared.published {owner : LeaseOwner} {s₁ s₂ : Store} (h : Prepared hexdigest p s₀ plans)
    (hdone : Done s₀ plans.plan owner (PublicationExecutor.handled plans.plan) s₁)
    (hcollected : Collected (plans.gc_plan.targets.map (·.key)) owner s₁ s₂) (howner : owner = p.owner) :
    Published p plans s₀ s₂ := by
  subst howner
  obtain ⟨objects, hloaded, hof⟩ := h.of
  have hplanned : ∀ item ∈ p.inventory,
      PublicationExecutor.Planned plans.plan (item.relative_key, ⟨item.contents, item.metadata⟩) := fun item hitem =>
    hof.planned_iff.2 ((hloaded _).2 ⟨item, hitem, rfl⟩)
  have hhandled : ∀ item ∈ p.inventory, item.relative_key ∈ PublicationExecutor.handled plans.plan := fun item hitem =>
    PublicationExecutor.planned_handled (hplanned item hitem)
  refine ⟨fun item hitem hk => ?_, fun t ht => ?_, fun k hk hnot hkeep => ?_, hcollected.leased, fun item hitem hk => ?_⟩
  · have hnot : item.relative_key ∉ plans.gc_plan.targets.map (·.key) := fun hgone =>
      h.target_unwritten hgone (List.mem_map_of_mem hitem)
    rw [Present, hcollected.remains _ hk, Gc.remains, if_neg hnot]
    exact hdone.present _ (hplanned item hitem) (hhandled item hitem) hk
  · rw [hcollected.remains _ target_key, Gc.remains, if_pos (List.mem_map_of_mem ht)]
  · rw [hcollected.remains k hk, Gc.remains, if_neg hkeep]
    refine hdone.others k hk fun hmem => hnot ?_
    obtain ⟨v, hv⟩ := handled_planned hmem
    obtain ⟨item, hitem, heq⟩ := (hloaded _).1 (hof.planned_iff.1 hv)
    rw [show k = item.relative_key from congrArg Prod.fst heq]
    exact List.mem_map_of_mem hitem
  · exact hdone.size _ (hk ▸ hplanned item hitem) (hk ▸ hhandled item hitem)

/-- **The commit, alone**: it publishes what was planned on the store that the lease was taken in. -/
theorem commit_alone (hgenuine : Genuine p.owner s) :
    Alone (commit hexdigest validate verify p) (fun result _ s' => ∃ s₀, Apart s s₀ ∧ Leased p.owner s₀ ∧
      Prepared hexdigest p s₀ result.1 ∧ Published p result.1 s₀ s') st s := by
  unfold commit
  refine alone_bind (acquire_alone hgenuine) fun handle st₁ s₁ h => ?_
  obtain ⟨rfl, hapart, -, x, hget, hetag, hwritten⟩ := h
  refine alone_bind setLease_alone fun _ st₂ s₂ h => ?_
  obtain ⟨rfl, rfl⟩ := h
  refine alone_bind verify_current_generation_alone fun _ st₃ s₃ h => ?_
  obtain ⟨⟨rfl, rfl⟩, -⟩ := h
  refine alone_bind prepare_alone fun plans st₄ s₄ h => ?_
  obtain ⟨⟨rfl, rfl⟩, hprepared⟩ := h
  obtain ⟨objects, hloaded, hof⟩ := hprepared.of
  have hleased : Leased p.owner s₄ := ⟨x, hget, hwritten⟩
  have hstart : Before s₄ plans.plan p.owner ∅ (some handle) s₄ := by
    refine ⟨?_, fun _ => Done.start hleased⟩
    rintro _ ⟨⟩
    exact hetag ▸ Conc.CondStore.etag_lt hget
  refine alone_bind (I := fun _ => After s₄ plans.plan p.owner (PublicationExecutor.handled plans.plan)) ?_
    fun _ st₅ s₅ h => ?_
  · refine Cmd.wp_mono ((walk_alone hof).execute (some handle) s₄ hstart) fun r st s hr => ?_
    rcases r with e | _
    · trivial
    · exact hr
  refine alone_bind (execute_gc_alone h.done.leased) fun deleted st₆ s₆ hcollected => ?_
  exact alone_pure ⟨s₄, hapart, hleased, hprepared, hprepared.published h.done hcollected rfl⟩

/-! ## The projection -/

theorem writes_keys : (writes p.inventory).map (·.1) = p.inventory.map (·.relative_key) := by
  rw [writes, List.map_map]
  rfl

theorem mem_listed_iff {k : String} {x : StoredObject} (h : s.get k = some x) {n : Int} :
    (k, n) ∈ StorageBudget.listed (s.listing "") ↔ n = x.value.body.size := by
  rw [StorageBudget.mem_listed, h]
  constructor
  · rintro ⟨y, hy, rfl⟩
    rw [Option.some.inj hy]
  · rintro rfl
    exact ⟨x, rfl, rfl⟩

theorem Leased.mem_listed {owner : LeaseOwner} (h : Leased owner s) {n : Int} :
    (LEASE_KEY, n) ∈ StorageBudget.listed (s.listing "") ↔ n = LeaseSize.leaseSize owner := by
  obtain ⟨x, hget, hwritten⟩ := h
  rw [mem_listed_iff hget, hwritten.size]

/-- The object of an inventory has the size that is written for it. -/
theorem Published.mem_listed (h : Published p plans s₀ s) (hsized : Sized p.inventory) {item : RepositoryObject}
    (hitem : item ∈ p.inventory) {n : Int} :
    (item.relative_key, n) ∈ StorageBudget.listed (s.listing "") ↔ n = item.size := by
  by_cases hk : item.relative_key = LEASE_KEY
  · rw [hk, h.leased.mem_listed, ← h.size item hitem hk, hsized item hitem]
  · obtain ⟨x, hget, hvalue⟩ := Option.map_eq_some_iff.1 (h.present item hitem hk)
    rw [mem_listed_iff hget, hvalue, hsized item hitem]

/-- What is left of the listing, key by key. -/
theorem Published.left (h : Published p plans s₀ s) (hprepared : Prepared hexdigest p s₀ plans)
    (hleased : Leased p.owner s₀) (k : String) (n : Int) :
    (k, n) ∈ StorageBudget.listed (s.listing "") ↔
      StorageBudget.Left (StorageBudget.listed (s₀.listing "")) (writes p.inventory)
        (plans.gc_plan.targets.map (·.key)) k n := by
  obtain ⟨-, hnodup, -⟩ := StorageBudget.project_ok hprepared.projected
  rw [StorageBudget.Left, writes_keys]
  by_cases hwritten : k ∈ p.inventory.map (·.relative_key)
  · have hkeep : k ∉ plans.gc_plan.targets.map (·.key) := fun hgone => hprepared.target_unwritten hgone hwritten
    obtain ⟨item, hitem, rfl⟩ := List.mem_map.1 hwritten
    have hmem : (item.relative_key, n) ∈ writes p.inventory ↔ n = item.size := by
      constructor
      · intro hmem
        obtain ⟨other, hother, heq⟩ := List.mem_map.1 hmem
        rw [writes_keys] at hnodup
        have hsame := List.inj_on_of_nodup_map hnodup hother hitem (congrArg Prod.fst heq)
        exact hsame ▸ (congrArg Prod.snd heq).symm
      · rintro rfl
        exact List.mem_map.2 ⟨item, hitem, rfl⟩
    rw [h.mem_listed hprepared.sized hitem, hmem]
    tauto
  · have hnot : (k, n) ∉ writes p.inventory := fun hmem => hwritten (writes_keys ▸ List.mem_map_of_mem (f := (·.1)) hmem)
    by_cases hgone : k ∈ plans.gc_plan.targets.map (·.key)
    · obtain ⟨t, ht, rfl⟩ := List.mem_map.1 hgone
      rw [StorageBudget.mem_listed, h.gone t ht]
      simp [hgone]
    · by_cases hk : k = LEASE_KEY
      · subst hk
        rw [h.leased.mem_listed, hleased.mem_listed]
        tauto
      · rw [StorageBudget.mem_listed, StorageBudget.mem_listed, h.others k hk hwritten hgone]
        tauto

/-- The storage holds what was projected. -/
theorem Published.exact (h : Published p plans s₀ s) (hprepared : Prepared hexdigest p s₀ plans)
    (hleased : Leased p.owner s₀) : StorageBudget.Exact plans.projection s := by
  obtain ⟨⟨objects, hcounts⟩, -, -⟩ := StorageBudget.project_ok hprepared.projected
  exact hcounts.exact (h.left hprepared hleased)

end

/-! ## After the release -/

section
variable {s s' : Store} {x x' : StoredObject}

theorem nodup_listing (s : Store) : (s.listing "").Nodup := (Store.nodup_listing s "").of_map

theorem mem_listing {k : String} {n : Nat} :
    (k, n) ∈ s.listing "" ↔ ∃ y, s.get k = some y ∧ y.value.body.size = n := by
  have hall : startswith k "" = true := by simp [startswith]
  rw [Store.mem_listing]
  exact and_iff_right hall

/-- Another object in the place of the lease. -/
theorem listing_perm (hapart : Apart s s') (hx : s.get LEASE_KEY = some x) (hx' : s'.get LEASE_KEY = some x') :
    (s'.listing "").Perm ((LEASE_KEY, x'.value.body.size) :: (s.listing "").erase (LEASE_KEY, x.value.body.size)) := by
  have herase : ∀ k n, (k, n) ∈ (s.listing "").erase (LEASE_KEY, x.value.body.size) ↔
      k ≠ LEASE_KEY ∧ ∃ y, s.get k = some y ∧ y.value.body.size = n := by
    intro k n
    rw [(nodup_listing s).mem_erase_iff, mem_listing]
    constructor
    · rintro ⟨hne, y, hy, rfl⟩
      refine ⟨?_, y, hy, rfl⟩
      rintro rfl
      rw [hx] at hy
      exact hne (by rw [Option.some.inj hy])
    · rintro ⟨hk, hy⟩
      exact ⟨fun heq => hk (congrArg Prod.fst heq), hy⟩
  have hnodup : ((LEASE_KEY, x'.value.body.size) :: (s.listing "").erase (LEASE_KEY, x.value.body.size)).Nodup :=
    List.nodup_cons.2 ⟨fun hmem => ((herase _ _).1 hmem).1 rfl, (nodup_listing s).erase _⟩
  refine (List.perm_ext_iff_of_nodup (nodup_listing s') hnodup).2 ?_
  rintro ⟨k, n⟩
  rw [List.mem_cons, herase, mem_listing]
  by_cases hk : k = LEASE_KEY
  · subst hk
    rw [hx']
    simp [eq_comm]
  · rw [hapart k hk]
    simp [hk]

/-- A smaller lease makes a smaller store. -/
theorem listing_le (hapart : Apart s s') (hx : s.get LEASE_KEY = some x) (hx' : s'.get LEASE_KEY = some x')
    (hsize : x'.value.body.size ≤ x.value.body.size) : (s'.listing "").length = (s.listing "").length ∧
      Lifecycle.storage_size (s'.listing "") ≤ Lifecycle.storage_size (s.listing "") := by
  have hperm := listing_perm hapart hx hx'
  have hold := List.perm_cons_erase (mem_listing.2 ⟨x, hx, rfl⟩)
  refine ⟨by rw [hperm.length_eq, hold.length_eq, List.length_cons, List.length_cons], ?_⟩
  unfold Lifecycle.storage_size
  rw [(hperm.map _).sum_eq, (hold.map _).sum_eq, List.map_cons, List.map_cons, List.sum_cons, List.sum_cons]
  omega

end

section
variable {hexdigest : ByteArray → String} {validate : String → Json → Except PyErr Unit}
  {verify : ByteArray → Except PyErr ByteArray} {p : Publication} {plans : Plans} {st : Option LeaseHandle}
  {s s' s₀ : Store}

/-- What is listed at the end is not more than what was projected. -/
structure Within (projection : StorageProjection) (inventory : List (String × Nat)) : Prop where
  object_count : (inventory.length : Int) = projection.object_count
  size : Lifecycle.storage_size inventory ≤ projection.size

/-- What passed the check before the commit passes the check after it. -/
theorem Within.final {manifest : PublicationManifest} {projection : StorageProjection} {inventory : List (String × Nat)}
    (h : Within projection inventory) (hadmitted : projected_limit_check manifest projection = .ok ()) :
    Lifecycle.final_limit_check manifest (Lifecycle.storage_size inventory) = .ok () := by
  unfold projected_limit_check at hadmitted
  unfold Lifecycle.final_limit_check
  rw [except_guard_eq_ok] at hadmitted ⊢
  rintro ⟨hmode, hlimit⟩
  refine hadmitted ⟨hmode, ?_⟩
  rw [Option.any_eq_true] at hlimit ⊢
  obtain ⟨limit, hmax, hover⟩ := hlimit
  have hsize := h.size
  exact ⟨limit, hmax, by simp at hover ⊢; omega⟩

/-- A failed commit stays a failure. -/
theorem abandon_alone {α : Type} {e : PyErr} {I : α → Option LeaseHandle → Store → Prop} :
    Alone (abandon e : Script α) I st s := by
  unfold abandon
  exact alone_bind (I := fun _ _ _ => True) (alone_any fun _ _ _ => trivial) fun _ _ _ _ => alone_throw

theorem settle_alone (hgenuine : Genuine p.owner s) :
    Alone (settle hexdigest validate verify p) (fun result _ _ => Within result.1.projection result.2.2 ∧
      projected_limit_check p.desired_manifest result.1.projection = .ok ()) st s := by
  unfold settle
  refine alone_bind (I := fun result _ s' => StorageBudget.Exact result.1.projection s' ∧ Leased p.owner s' ∧
    projected_limit_check p.desired_manifest result.1.projection = .ok ()) ?_ fun result st₁ s₁ h => ?_
  · refine Cmd.wp_tryCatch.2 (Cmd.wp_mono (commit_alone hgenuine) fun r st' s' hr => ?_)
    rcases r with e | result
    · exact abandon_alone
    · obtain ⟨s₀, -, hleased, hprepared, hpublished⟩ := hr
      exact ⟨hpublished.exact hprepared hleased, hpublished.leased, hprepared.admitted⟩
  obtain ⟨plans, deleted⟩ := result
  obtain ⟨hexact, ⟨x, hget, hwritten⟩, hadmitted⟩ := h
  refine alone_bind lease_alone fun handle st₂ s₂ h => ?_
  obtain ⟨⟨rfl, rfl⟩, -⟩ := h
  refine alone_bind (release_alone hget hwritten) fun handle' st₃ s₃ h => ?_
  obtain ⟨hapart, x', hget', hsize⟩ := h
  refine alone_bind setLease_alone fun _ st₄ s₄ h => ?_
  obtain ⟨rfl, rfl⟩ := h
  refine alone_bind (alone_list "") fun inventory st₅ s₅ h => ?_
  obtain ⟨rfl, -, -⟩ := h
  obtain ⟨hlength, hle⟩ := listing_le hapart hget hget' hsize
  refine alone_pure ⟨⟨?_, ?_⟩, hadmitted⟩
  · rw [hlength, hexact.object_count]
  · exact hexact.size ▸ hle

end

section
variable (hexdigest : ByteArray → String) (validate : String → Json → Except PyErr Unit)
  (verify : ByteArray → Except PyErr ByteArray) {p : Publication} {st : Option LeaseHandle} {s : Store}

/-- **The storage projection is exact.** A commit that returns leaves as many objects and bytes as were projected under
the lease, whatever the store held and however the written, the queued and the stored keys overlap; after the release
there are as many objects and not more bytes, so the final check passes. -/
theorem projection_exact (hgenuine : Genuine p.owner s) :
    (∀ tr plans deleted st' s', Conc.Trace Store.Truthful Eq (commit hexdigest validate verify p st) s tr
      (.ret (.ok (plans, deleted), st')) s' → StorageBudget.Exact plans.projection s') ∧
    ∀ tr plans deleted final_inventory st' s', Conc.Trace Store.Truthful Eq (settle hexdigest validate verify p st) s tr
      (.ret (.ok (plans, deleted, final_inventory), st')) s' → Within plans.projection final_inventory ∧
        Lifecycle.final_limit_check p.desired_manifest (Lifecycle.storage_size final_inventory) = .ok () := by
  refine ⟨fun tr plans deleted st' s' htr => ?_, fun tr plans deleted final_inventory st' s' htr => ?_⟩
  · obtain ⟨s₀, -, hleased, hprepared, hpublished⟩ := (Conc.wp_trace htr (commit_alone hgenuine)).2
    exact hpublished.exact hprepared hleased
  · obtain ⟨hwithin, hadmitted⟩ := (Conc.wp_trace htr (settle_alone hgenuine)).2
    exact ⟨hwithin, hwithin.final hadmitted⟩

end

/-! A commit that is carried out again, with one object still to be collected. -/

namespace Sample

def owner : LeaseOwner :=
  ⟨⟨"dkc/linux", "1", "1", "publish", "0123456789abcdef0123456789abcdef"⟩, by decide +kernel⟩

def manifest : PublicationManifest :=
  ⟨{ State.Sample.manifest with retention_mode := .series_size, retention_max_bytes := some 1000 }, by decide +kernel⟩

def publication : Publication where
  inventory := PublicationPlan.Sample.repository ⟨#[97]⟩
  desired := State.Sample.pointer
  desired_manifest := manifest
  desired_body := ⟨#[97]⟩
  owner := owner
  manager := ⟨900, 600, by decide⟩
  max_object_bytes := 1000
  caps := ⟨10, 100⟩

def store : Store :=
  (Conc.CondStore.empty.write "state/current.asc" ⟨⟨#[97]⟩, PublicationPlan.Sample.mutable_metadata⟩).write "pool/old.deb"
    ⟨⟨#[1, 2, 3]⟩, PublicationPlan.Sample.immutable_metadata⟩

def hexdigest (b : ByteArray) : String := if b.data = #[1, 2, 3] then State.Sample.digest else PublicationPlan.Sample.hexdigest b

def run : (Except PyErr (Plans × List String × List (String × Nat)) × Option LeaseHandle) × Store :=
  (settle hexdigest (fun _ _ => .ok ()) .ok publication none).run Store.serve store

end Sample

theorem projection_exact_sample : ∃ tr, Conc.Trace Store.Truthful Eq
    (settle Sample.hexdigest (fun _ _ => .ok ()) .ok Sample.publication none) Sample.store tr (.ret Sample.run.1) Sample.run.2 ∧
    ∀ plans deleted final_inventory, Sample.run.1.1 = .ok (plans, deleted, final_inventory) →
      Within plans.projection final_inventory ∧
        Lifecycle.final_limit_check Sample.manifest (Lifecycle.storage_size final_inventory) = .ok () := by
  have hgenuine : Genuine Sample.publication.owner Sample.store := fun x r hget => by
    have hnone : Sample.store.get LEASE_KEY = none := by decide +kernel
    rw [hnone] at hget
    cases hget
  obtain ⟨tr, htr⟩ : ∃ tr, Conc.Trace Store.Truthful Eq (settle Sample.hexdigest (fun _ _ => .ok ()) .ok Sample.publication none)
      Sample.store tr (.ret Sample.run.1) Sample.run.2 :=
    Conc.trace_run Store.service_serve.truthful (fun _ => rfl) _ _
  refine ⟨tr, htr, fun plans deleted final_inventory h => ?_⟩
  have hresult : Sample.run.1 = (.ok (plans, deleted, final_inventory), Sample.run.1.2) := h ▸ Prod.mk.eta.symm
  rw [hresult] at htr
  exact (@projection_exact Sample.hexdigest (fun _ _ => .ok ()) .ok Sample.publication none Sample.store hgenuine).2 _ _ _ _ _ _
    htr

end StoragePublish
