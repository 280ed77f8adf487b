import DkcLinux.SignedTree

/-!
# Publications one after the other (`scripts/in-container/storage-publish.py:124-263`)

A `History` is a list of attempts at `main`, each of a signed repository and each cut between any two requests; the lease
keeps them apart in time. Whatever was abandoned, resumed or put back, a client can follow what it is shown:

| what is stored          | is the object of an attempt whose                         |
|-------------------------|-----------------------------------------------------------|
| `dists/trixie/InRelease`| immutable objects are all in the store (`clients_served`) |
| `state/current.asc`     | immutable objects are all in the store (`clients_served`) |

and the generation of the state goes up by one or stays (`state_advances`). `Does` lists what a request of an attempt can
change, and under which condition; both theorems are about a run of `Does`.
-/

open Py Records

namespace StoragePublish

/-! ## What one request does -/

/-- The object of an inventory, under its key. -/
def entry (item : RepositoryObject) : String × PublicationObject := (item.relative_key, ⟨item.contents, item.metadata⟩)

/-- What leaves a key as it was leaves its object there. -/
theorem present_same {item : RepositoryObject} {s s' : Store} (h : s'.get item.relative_key = s.get item.relative_key) :
    Present s' (entry item) ↔ Present s (entry item) := by
  rw [Present, Present, entry, h]

/-- Every immutable object of a publication is in the store. -/
def Whole (p : Publication) (s : Store) : Prop :=
  ∀ item ∈ p.inventory, PublicationPlan.allowedImmutable item.relative_key = true → Present s (entry item)

/-- A key has the object of a publication. -/
def Shows (p : Publication) (key : String) (s : Store) : Prop :=
  ∃ item ∈ p.inventory, item.relative_key = key ∧ Present s (entry item)

section
variable (validate : String → Json → Except PyErr Unit) (verify : ByteArray → Except PyErr ByteArray) (p : Publication)

/-- What a request of an attempt does to the store. -/
inductive Does (s : Store) : Store → Prop
  | lease {s' : Store} : Apart s s' → Does s s'
  | create {item : RepositoryObject} : item ∈ p.inventory → PublicationPlan.allowedImmutable item.relative_key = true →
      s.get item.relative_key = none → Does s (s.write (entry item).1 (entry item).2)
  | replace {item : RepositoryObject} : item ∈ p.inventory →
      PublicationPlan.allowedImmutable item.relative_key = false → item.relative_key ≠ PublicationPlan.INRELEASE_KEY →
      item.relative_key ≠ PublicationPlan.STATE_KEY → Does s (s.write (entry item).1 (entry item).2)
  | inrelease {item : RepositoryObject} : item ∈ p.inventory → item.relative_key = PublicationPlan.INRELEASE_KEY →
      Whole p s → Does s (s.write (entry item).1 (entry item).2)
  | state {item : RepositoryObject} : item ∈ p.inventory → item.relative_key = PublicationPlan.STATE_KEY → Whole p s →
      Shows p PublicationPlan.INRELEASE_KEY s → Admits validate verify p s → Does s (s.write (entry item).1 (entry item).2)
  | delete {key : String} : key ∈ p.desired_manifest.queuedKeys → key ∉ p.inventory.map (·.relative_key) → Whole p s →
      Shows p PublicationPlan.INRELEASE_KEY s → Shows p PublicationPlan.STATE_KEY s → Does s (s.delete key)

/-- What a command gives if it raises nothing, and that it does what an attempt may do. -/
def Doing {α : Type} (c : Script α) (I : α → Option LeaseHandle → Store → Prop) (st : Option LeaseHandle) (s : Store) :
    Prop :=
  c.wp Store.Truthful Eq (Does validate verify p) (Cmd.Gives I fun _ _ _ => True) st s

end

section
variable {validate : String → Json → Except PyErr Unit} {verify : ByteArray → Except PyErr ByteArray} {p : Publication}
  {α β : Type} {st : Option LeaseHandle} {s s' : Store}

theorem Does.same : Does validate verify p s s := .lease fun _ _ => rfl

theorem doing_bind {c : Script α} {f : α → Script β} {I : α → Option LeaseHandle → Store → Prop}
    {I' : β → Option LeaseHandle → Store → Prop} (h : Doing validate verify p c I st s)
    (hf : ∀ a st s, I a st s → Doing validate verify p (f a) I' st s) : Doing validate verify p (c >>= f) I' st s :=
  Cmd.wp_gives h hf

/-- A command that changes the lease only. -/
theorem doing_only {c : Script α} {J : Store → Prop} (hc : Store.Only {LEASE_KEY} c)
    (hJ : ∀ s s', J s → Apart s s' → J s') (h : J s) : Doing validate verify p c (fun _ _ => J) st s := by
  have hops : Conc.wp Store.Truthful Eq (Does validate verify p) (c st) (fun _ => J) s := by
    refine Conc.wp_allOps (fun s s' hj hs => hs ▸ hj) (fun o ho s r s' hj hr => ?_) (hc st) h
    have hapart : Apart s s' := fun k hk => ho.same hr.out hk
    exact ⟨.lease hapart, hJ s s' hj hapart⟩
  refine Conc.wp_post (fun r s hj => ?_) hops
  obtain ⟨r, st'⟩ := r
  cases r with
  | ok a => exact hj
  | error e => trivial

/-- What it gives when it is alone. -/
theorem doing_alone {c : Script α} {I : α → Option LeaseHandle → Store → Prop} (hc : Store.Only {LEASE_KEY} c)
    (h : Alone c I st s) : Doing validate verify p c I st s := by
  refine Conc.wp_post (fun r s hr => hr.2)
    (Conc.wp_and (doing_only (J := fun _ => True) hc (fun _ _ _ _ => trivial) trivial) h)

end

/-! ## The commands that change the lease only -/

section
variable {σ : Type} {hexdigest : ByteArray → String} {validate : String → Json → Except PyErr Unit}
  {verify : ByteArray → Except PyErr ByteArray} {p : Publication}

open Store

theorem only_now : Only {LEASE_KEY} (LeaseManager.now : Cmd σ Nat) := by
  unfold LeaseManager.now
  refine only_bind only_clock fun micros => ?_
  split
  · exact only_pure
  · exact only_throw

theorem only_write (r : LeaseRecord) (c : Conc.Cond) : Only {LEASE_KEY} (LeaseManager.write r c : Cmd σ _) :=
  only_bind only_lift fun _ => only_put rfl

theorem only_take {m : LeaseManager} {owner : LeaseOwner} {now : Nat} {c : Conc.Cond} {takeover : Bool} :
    Only {LEASE_KEY} (m.take owner now c takeover : Cmd σ _) :=
  only_bind only_lift fun _ => only_bind (only_write _ _) fun _ => only_pure

theorem only_observe (handle : LeaseHandle) (before : String) :
    Only {LEASE_KEY} (LeaseManager.observe handle before : Cmd σ _) := by
  unfold LeaseManager.observe
  refine only_bind only_get fun current => ?_
  cases current with
  | none => exact only_throw
  | some x =>
    dsimp only
    split
    · exact only_throw
    · exact only_lift

theorem only_require_stale {m : LeaseManager} {now : Nat} {observed : LeaseRecord} :
    Only {LEASE_KEY} (m.require_stale now observed : Cmd σ _) := by
  unfold LeaseManager.require_stale
  cases observed.owner with
  | none => exact only_throw
  | some old =>
    refine only_bind only_terminal_proof fun terminal => only_bind only_lift fun allowed => ?_
    split
    · exact only_throw
    · exact only_pure

theorem only_acquire {m : LeaseManager} {owner : LeaseOwner} : Only {LEASE_KEY} (m.acquire owner : Cmd σ _) := by
  unfold LeaseManager.acquire
  refine only_bind only_now fun now => only_bind only_get fun current => ?_
  cases current with
  | none => exact only_take
  | some x =>
    dsimp only
    refine only_bind only_lift fun observed => ?_
    split
    · exact only_lift
    · split
      · exact only_bind only_require_stale fun _ => only_take
      · exact only_take

theorem only_assert_batch_window {handle : LeaseHandle} {batch safety : Int} :
    Only {LEASE_KEY} (LeaseManager.assert_batch_window handle batch safety : Cmd σ _) := by
  unfold LeaseManager.assert_batch_window
  split
  · exact only_throw
  refine only_bind (only_observe _ _) fun record => ?_
  by_cases howner : record.status ≠ .held ∨ record.owner ≠ some handle.owner
  · rw [if_pos howner]
    exact only_throw
  rw [if_neg howner]
  dsimp only
  cases record.expires_utc with
  | none => exact only_throw
  | some expires =>
    refine only_bind only_lift fun t => only_bind only_now fun now => ?_
    split
    · exact only_throw
    · exact only_pure

theorem only_renew {m : LeaseManager} {handle : LeaseHandle} : Only {LEASE_KEY} (m.renew handle : Cmd σ _) := by
  unfold LeaseManager.renew
  refine only_bind only_now fun now => only_bind (only_observe _ _) fun observed => ?_
  by_cases howner : observed.status ≠ .held ∨ observed.owner ≠ some handle.owner
  · rw [if_pos howner]
    exact only_throw
  rw [if_neg howner]
  dsimp only
  cases observed.expires_utc with
  | none => exact only_throw
  | some expires =>
    refine only_bind only_lift fun t => ?_
    split
    · exact only_throw
    cases observed.acquired_utc with
    | none => exact only_throw
    | some acquired =>
      exact only_bind only_lift fun _ => only_bind only_lift fun _ => only_bind (only_write _ _) fun _ => only_pure

theorem only_release {handle : LeaseHandle} : Only {LEASE_KEY} (LeaseManager.release handle : Cmd σ _) := by
  unfold LeaseManager.release
  refine only_bind only_now fun now => only_bind (only_observe _ _) fun observed => ?_
  split
  · exact only_throw
  · exact only_bind only_lift fun _ => only_bind (only_write _ _) fun _ => only_pure

theorem only_lease : Only {LEASE_KEY} lease := fun _ => trivial

theorem only_setLease {handle : LeaseHandle} : Only {LEASE_KEY} (setLease handle) := fun _ => trivial

theorem only_checkpoint : Only {LEASE_KEY} (checkpoint p) :=
  only_bind only_lease fun _ => only_bind only_assert_batch_window fun _ => only_bind only_renew fun _ => only_setLease

theorem only_observed_generation : Only {LEASE_KEY} (observed_generation p) := only_bind only_get fun _ => only_pure

theorem only_verify_current_generation : Only {LEASE_KEY} (verify_current_generation validate verify p) := by
  unfold verify_current_generation
  refine only_bind only_get fun current => ?_
  cases current with
  | none =>
    dsimp only
    split
    · exact only_throw
    · exact only_pure
  | some current =>
    dsimp only
    by_cases hbody : current.value.body.data = p.desired_body.data
    · rw [if_pos hbody]
      split
      · exact only_throw
      · exact only_pure
    rw [if_neg hbody]
    refine only_bind only_lift fun payload => only_bind only_lift fun observed => ?_
    split
    · exact only_throw
    · exact only_pure

theorem only_captureAll : ∀ keys : List String, Only {LEASE_KEY} (PublicationPlan.captureAll keys : Cmd σ _)
  | [] => only_pure
  | _ :: keys => only_bind only_get fun _ => only_bind (only_captureAll keys) fun _ => only_pure

theorem only_ofExcept {α : Type} {x : Except PyErr α} : Only {LEASE_KEY} (MonadExcept.ofExcept x : Cmd σ α) := by
  cases x with
  | ok a => exact only_pure
  | error e => exact only_throw

theorem only_planTargets {caps : GcCaps} : ∀ {entries : List GcQueueEntry} {targets : List GcTarget} {total : Int},
    Only {LEASE_KEY} (Gc.planTargets hexdigest Gc.storeGet caps entries targets total : Cmd σ _)
  | [], _, _ => only_pure
  | entry :: entries, targets, total => by
    rw [Gc.planTargets]
    refine only_bind only_ofExcept fun candidate => ?_
    by_cases hbig : candidate.size > caps.max_bytes
    · rw [if_pos hbig]
      exact only_throw
    rw [if_neg hbig]
    refine only_bind (only_bind only_get fun _ => only_pure) fun current => ?_
    cases current with
    | none => exact only_planTargets
    | some current =>
      dsimp only
      split
      · exact only_throw
      split
      · exact only_throw
      exact only_planTargets

theorem only_plan_gc {manifest : PublicationManifest} {now : Nat} {caps : GcCaps} :
    Only {LEASE_KEY} (Gc.plan_gc hexdigest Gc.storeGet manifest now caps : Cmd σ _) := by
  unfold Gc.plan_gc
  split
  · exact only_throw
  · exact only_bind only_planTargets fun _ => only_ofExcept

theorem only_prepare : Only {LEASE_KEY} (prepare hexdigest p) := by
  unfold prepare PublicationPlan.plan_repository
  refine only_bind (only_bind only_lift fun c => only_bind (only_captureAll _) fun _ => only_lift) fun plan => ?_
  refine only_bind only_now fun now => only_bind only_plan_gc fun gc_plan => only_bind only_list fun current => ?_
  exact only_bind only_lift fun _ => only_bind only_lift fun _ => only_pure

end

/-! ## An attempt -/

section
variable {hexdigest : ByteArray → String} {guess_type : String → Option String}
  {validate : String → Json → Except PyErr Unit} {verify : ByteArray → Except PyErr ByteArray}
  {verify_signed : ByteArray → ByteArray → Except PyErr Unit} {p : Publication} {plans : Plans}
  {st : Option LeaseHandle} {s s₀ : Store}

open PublicationExecutor

theorem required_mutable : ∀ key ∈ PublicationPlan.required, PublicationPlan.allowedImmutable key = false := by decide

/-- A plan has the objects of the inventory. -/
theorem Prepared.planned (h : Prepared hexdigest p s₀ plans) {item : RepositoryObject} (hitem : item ∈ p.inventory) :
    Planned plans.plan (entry item) := by
  obtain ⟨objects, hloaded, hof⟩ := h.of
  exact hof.planned_iff.2 ((hloaded _).2 ⟨item, hitem, rfl⟩)

theorem Prepared.item (h : Prepared hexdigest p s₀ plans) {x : String × PublicationObject} (hx : Planned plans.plan x) :
    ∃ item ∈ p.inventory, x = entry item := by
  obtain ⟨objects, hloaded, hof⟩ := h.of
  exact (hloaded x).1 (hof.planned_iff.1 hx)

variable (hsigned : Signed hexdigest guess_type validate verify verify_signed p)
include hsigned

/-- The class of an object is that of its key. -/
theorem Signed.classed : ∀ item ∈ p.inventory, PublicationPlan.isImmutable (entry item).2 =
    PublicationPlan.allowedImmutable item.relative_key := by
  obtain ⟨files, sums, m, htree⟩ := hsigned
  exact htree.classed

/-- The state is the desired one. -/
theorem Signed.state : ∀ item ∈ p.inventory, item.relative_key = PublicationPlan.STATE_KEY →
    item.contents = p.desired_body := by
  obtain ⟨files, sums, m, htree⟩ := hsigned
  intro item hitem hkey
  have hfile := (Inventory.contents htree.loaded).1 item hitem
  rw [hkey, htree.desired_body] at hfile
  exact (Option.some.inj hfile).symm

theorem Signed.lease : ∀ item ∈ p.inventory, item.relative_key ≠ LEASE_KEY := by
  obtain ⟨files, sums, m, htree⟩ := hsigned
  exact htree.lease_unwritten

/-- What has an immutable key is created. -/
theorem Prepared.immutable (h : Prepared hexdigest p s₀ plans) {item : RepositoryObject} (hitem : item ∈ p.inventory)
    (hkey : PublicationPlan.allowedImmutable item.relative_key = true) : entry item ∈ plans.plan.immutable.items := by
  obtain ⟨objects, hloaded, hof⟩ := h.of
  refine (hof.immutable _).2 ⟨(hloaded _).2 ⟨item, hitem, rfl⟩, fun hreq => ?_, (hsigned.classed item hitem).trans hkey⟩
  exact absurd hkey (by rw [required_mutable item.relative_key hreq]; decide)

/-- What waits for its turn has a mutable key. -/
theorem Prepared.mutable (h : Prepared hexdigest p s₀ plans) {item : RepositoryObject} (hitem : item ∈ p.inventory)
    {need : Set String} (hwaits : Waits plans.plan (entry item) need) :
    PublicationPlan.allowedImmutable item.relative_key = false := by
  rw [← Bool.not_eq_true]
  intro hkey
  have hmem : item.relative_key ∈ plans.plan.immutable.keys :=
    List.mem_map_of_mem (h.immutable hsigned hitem hkey)
  exact Finset.disjoint_left.1 plans.plan.disjoint_immutable (List.mem_toFinset.2 hmem) hwaits.mem_mutable

theorem Prepared.whole (h : Prepared hexdigest p s₀ plans) {D : Set String} (hD : ∀ k ∈ plans.plan.immutable.keys, k ∈ D)
    (hs : PresentOn plans.plan D s) : Whole p s := fun item hitem hkey =>
  hs (entry item) (h.planned hitem) (hD _ (List.mem_map_of_mem (h.immutable hsigned hitem hkey)))

omit hsigned in
/-- What is handled of the two commit points is shown. -/
theorem Prepared.shows (h : Prepared hexdigest p s₀ plans) {D : Set String} {key : String} {v : PublicationObject}
    (hv : Planned plans.plan (key, v)) (hD : key ∈ D) (hs : PresentOn plans.plan D s) : Shows p key s := by
  obtain ⟨item, hitem, heq⟩ := h.item hv
  exact ⟨item, hitem, (congrArg Prod.fst heq).symm, heq ▸ hs _ hv hD⟩

/-- What is handled is in the store, and the state is one that the publication may find. -/
def Underway (validate : String → Json → Except PyErr Unit) (verify : ByteArray → Except PyErr ByteArray) (p : Publication)
    (plan : PublicationPlan) (D : Set String) (s : Store) : Prop := PresentOn plan D s ∧ Admits validate verify p s

theorem Prepared.write (h : Prepared hexdigest p s₀ plans) {D : Set String} {x : String × PublicationObject}
    (hx : Planned plans.plan x) (hs : Underway validate verify p plans.plan D s) :
    Underway validate verify p plans.plan D (s.write x.1 x.2) := by
  obtain ⟨item, hitem, rfl⟩ := h.item hx
  obtain ⟨objects, -, hof⟩ := h.of
  refine ⟨fun y hy hmem => Present.planned hof hx hy (hs.1 y hy hmem), ?_⟩
  have hadmits := hs.2
  unfold Admits at hadmits ⊢
  by_cases hkey : item.relative_key = PublicationPlan.STATE_KEY
  · rw [← hkey, show item.relative_key = (entry item).1 from rfl, Conc.CondStore.get_write_self]
    exact .inl (congrArg ByteArray.data (hsigned.state item hitem hkey))
  · rw [Conc.CondStore.get_write_ne _ _ (show PublicationPlan.STATE_KEY ≠ (entry item).1 from fun heq => hkey heq.symm)]
    exact hadmits

theorem Prepared.apart (h : Prepared hexdigest p s₀ plans) {D : Set String} {s' : Store} (hapart : Apart s s')
    (hs : Underway validate verify p plans.plan D s) : Underway validate verify p plans.plan D s' := by
  refine ⟨fun y hy hmem => ?_, ?_⟩
  · obtain ⟨item, hitem, rfl⟩ := h.item hy
    exact (present_same (hapart _ (hsigned.lease item hitem))).2 (hs.1 _ hy hmem)
  · have hadmits := hs.2
    unfold Admits at hadmits ⊢
    rw [hapart _ (by decide)]
    exact hadmits

/-- A mutable object is written when all that it waits for is in the store. -/
theorem Prepared.replaces (h : Prepared hexdigest p s₀ plans) {D need : Set String} {x : String × PublicationObject}
    (hx : Waits plans.plan x need) (hneed : need ⊆ D) (hs : Underway validate verify p plans.plan D s) :
    Does validate verify p s (s.write x.1 x.2) := by
  obtain ⟨objects, -, hof⟩ := h.of
  obtain ⟨item, hitem, rfl⟩ := h.item (.inr ⟨need, hx⟩)
  by_cases hin : item.relative_key = PublicationPlan.INRELEASE_KEY
  · have hwaits := waits_inrelease hof hx (hin.trans hof.inrelease_key.symm)
    exact .inrelease hitem hin (h.whole hsigned (fun k hk => hneed (hwaits ▸ .inl hk)) hs.1)
  by_cases hstate : item.relative_key = PublicationPlan.STATE_KEY
  · have hwaits := waits_state hof hx (hstate.trans hof.state_key.symm)
    refine .state hitem hstate (h.whole hsigned (fun k hk => hneed (hwaits ▸ .inl hk)) hs.1) ?_ hs.2
    have hplanned : Planned plans.plan (PublicationPlan.INRELEASE_KEY, plans.plan.inrelease) :=
      hof.inrelease_key ▸ .inr ⟨_, .inrelease⟩
    exact h.shows hplanned (hneed (hwaits ▸ .inr (.inr (.inl hof.inrelease_key.symm)))) hs.1
  · exact .replace hitem (h.mutable hsigned hitem hx) hin hstate

/-- The walk through the executor. -/
theorem walk_does (h : Prepared hexdigest p s₀ plans) : Walk Store.Truthful Eq (Does validate verify p) plans.plan
    (some (checkpoint p)) none (fun D _ s => Underway validate verify p plans.plan D s) (fun _ _ _ => True) where
  created x hx D st s hs := by
    obtain ⟨objects, -, hof⟩ := h.of
    refine Cmd.wp_mono (Conc.wp_sem (fun _ _ _ _ => Store.Truthful.out) (create_immutable_wp
      (J := Underway validate verify p plans.plan D) (E := fun _ _ _ => True) (fun s s' h hs => hs ▸ h) (fun _ _ => .same)
      (fun s hs hnone => ⟨?_, h.write hsigned (.inl hx) hs⟩) (fun _ _ _ _ => trivial) hs)) ?_
    · obtain ⟨item, hitem, rfl⟩ := h.item (.inl hx)
      exact .create hitem (hof.allowed _ (List.mem_map_of_mem hx)) hnone
    · rintro (e | a) st s hr
      · trivial
      · exact ⟨hr.1.1.insert hof (.inl hx) hr.2, hr.1.2⟩
  replaced x need pre hx _ D st s hneed hs := by
    obtain ⟨objects, -, hof⟩ := h.of
    refine Cmd.wp_mono (Conc.wp_sem (fun _ _ _ _ => Store.Truthful.out) (put_mutable_wp
      (J := Underway validate verify p plans.plan D) (E := fun _ _ _ => True) (fun s s' h hs => hs ▸ h) (fun _ _ => .same)
      (fun s hs _ => ⟨h.replaces hsigned hx hneed hs, h.write hsigned (.inr ⟨need, hx⟩) hs⟩)
      (fun _ _ _ _ => trivial) hs)) ?_
    rintro (e | a) st s hr
    · trivial
    · exact ⟨hr.1.1.insert hof (.inr ⟨need, hx⟩) hr.2, hr.1.2⟩
  verified x hx D st s hmem hs := by
    refine Cmd.wp_mono (Conc.wp_sem (fun _ _ _ _ => Store.Truthful.out) (verify_wp
      (J := Underway validate verify p plans.plan D) (E := fun _ _ _ => True) (fun s s' h hs => hs ▸ h) (fun _ _ => .same)
      (fun _ _ _ _ => trivial) hs)) ?_
    rintro (e | a) st s hr
    · trivial
    · exact hr.1
  checked D st s hs := by
    refine Cmd.wp_mono (doing_only only_checkpoint (fun _ _ hs hapart => h.apart hsigned hapart hs) hs) fun r st s hr => ?_
    rcases r with e | a
    · trivial
    · exact hr
  injected hne := absurd rfl hne

/-- Both commit points show the publication, and its immutable objects are there. -/
structure Committed (p : Publication) (s : Store) : Prop where
  whole : Whole p s
  inrelease : Shows p PublicationPlan.INRELEASE_KEY s
  state : Shows p PublicationPlan.STATE_KEY s

theorem Prepared.committed (h : Prepared hexdigest p s₀ plans)
    (hs : Underway validate verify p plans.plan (handled plans.plan) s) : Committed p s := by
  obtain ⟨objects, -, hof⟩ := h.of
  refine ⟨h.whole hsigned (fun k hk => .inl hk) hs.1, ?_, ?_⟩
  · have hplanned : Planned plans.plan (PublicationPlan.INRELEASE_KEY, plans.plan.inrelease) :=
      hof.inrelease_key ▸ .inr ⟨_, .inrelease⟩
    exact h.shows hplanned (planned_handled hplanned) hs.1
  · have hplanned : Planned plans.plan (PublicationPlan.STATE_KEY, plans.plan.state_pointer) :=
      hof.state_key ▸ .inr ⟨_, .state_pointer⟩
    exact h.shows hplanned (planned_handled hplanned) hs.1

omit hsigned in
/-- What does not touch the objects of a publication. -/
theorem Committed.same {s' : Store} (hs : Committed p s)
    (hsame : ∀ item ∈ p.inventory, s'.get item.relative_key = s.get item.relative_key) : Committed p s' := by
  have hpresent : ∀ item ∈ p.inventory, Present s (entry item) → Present s' (entry item) :=
    fun item hitem => (present_same (hsame item hitem)).2
  refine ⟨fun item hitem hkey => hpresent item hitem (hs.whole item hitem hkey), ?_, ?_⟩
  · obtain ⟨item, hitem, hkey, h⟩ := hs.inrelease
    exact ⟨item, hitem, hkey, hpresent item hitem h⟩
  · obtain ⟨item, hitem, hkey, h⟩ := hs.state
    exact ⟨item, hitem, hkey, hpresent item hitem h⟩

omit hsigned in
theorem kept_of_only {α : Type} {c : Script α} (hc : Store.Only {LEASE_KEY} c) :
    Gc.Kept Store.Truthful Eq (Does validate verify p) Apart c := fun _ hJ _ _ hj => doing_only hc hJ hj

/-- **The collection**: only a committed publication deletes. -/
theorem execute_gc_does (h : Prepared hexdigest p s₀ plans) (hs : Committed p s) : Doing validate verify p
    (Gc.execute_gc hexdigest Gc.storeGet Cmd.delete plans.gc_plan (observed_generation p) (checkpoint p))
    (fun _ _ _ => True) st s := by
  refine Cmd.wp_mono (Gc.execute_gc_wp Store.service_truthful (K := Apart) (fun s s' hs k _ => by rw [hs])
    (fun _ => .same) (kept_of_only only_observed_generation) (kept_of_only only_checkpoint) (J := fun _ => Committed p)
    ?_ ?_ (fun _ _ _ _ hj _ => hj) ?_ hs) ?_
  · exact fun _ s s' hj hapart => hj.same fun item hitem => hapart _ (hsigned.lease item hitem)
  · intro t _ s s' hapart
    rw [Gc.values, Gc.values, hapart _ target_key]
  · intro _ t s v ht hj _ _
    have hnot := h.target_unwritten (List.mem_map_of_mem ht)
    refine ⟨.delete (h.queued t ht) hnot hj.whole hj.inrelease hj.state, hj.same fun item hitem => ?_⟩
    exact Conc.CondStore.get_delete_ne _ fun heq => hnot (heq ▸ List.mem_map_of_mem hitem)
  · rintro (e | a) st s _ <;> trivial

theorem commit_does : Doing validate verify p (commit hexdigest validate verify p) (fun _ _ _ => True) st s := by
  unfold commit
  refine doing_bind (doing_only (J := fun _ => True) only_acquire (fun _ _ _ _ => trivial) trivial) fun handle st₁ s₁ _ => ?_
  refine doing_bind (doing_only (J := fun _ => True) only_setLease (fun _ _ _ _ => trivial) trivial) fun _ st₂ s₂ _ => ?_
  refine doing_bind (doing_alone only_verify_current_generation verify_current_generation_alone) fun _ st₃ s₃ h => ?_
  obtain ⟨⟨rfl, rfl⟩, hadmits⟩ := h
  refine doing_bind (doing_alone only_prepare prepare_alone) fun plans st₄ s₄ h => ?_
  obtain ⟨⟨rfl, rfl⟩, hprepared⟩ := h
  refine doing_bind (I := fun _ _ s => Underway validate verify p plans.plan (handled plans.plan) s) ?_ fun _ st₅ s₅ h => ?_
  · have hstart : Underway validate verify p plans.plan ∅ s₄ := ⟨fun _ _ hmem => absurd hmem (Set.notMem_empty _), hadmits⟩
    refine Cmd.wp_mono ((walk_does hsigned hprepared).execute st₄ s₄ hstart) fun r st s hr => ?_
    rcases r with e | a
    · trivial
    · exact hr
  refine doing_bind (execute_gc_does hsigned hprepared (hprepared.committed hsigned h)) fun deleted st₆ s₆ _ => ?_
  exact trivial

/-- **An attempt** takes steps that an attempt may take, wherever it is cut. -/
theorem main_does : (main hexdigest validate verify p).wp Store.Truthful Eq (Does validate verify p) (fun _ _ _ => True)
    st s := by
  have hrelease : ∀ {α : Type} {c : Script α} {st s}, Store.Only {LEASE_KEY} c →
      Doing validate verify p c (fun _ _ _ => True) st s :=
    fun hc => doing_only (J := fun _ => True) hc (fun _ _ _ _ => trivial) trivial
  have hmain : Doing validate verify p (main hexdigest validate verify p) (fun _ _ _ => True) st s := by
    unfold main settle
    refine doing_bind (I := fun _ _ _ => True) (doing_bind (I := fun _ _ _ => True) ?_ fun result st₁ s₁ _ => ?_)
      fun result st₂ s₂ _ => ?_
    · refine Cmd.wp_tryCatch.2 (Cmd.wp_mono (commit_does hsigned) fun r st' s' _ => ?_)
      rcases r with e | result
      · refine doing_bind (hrelease ?_) fun _ _ _ _ => trivial
        exact Store.only_tryCatch (Store.only_bind only_lease fun _ => Store.only_bind only_release fun _ => only_setLease)
          fun _ => Store.only_pure
      · trivial
    · refine hrelease (Store.only_bind only_lease fun _ => Store.only_bind only_release fun _ => ?_)
      exact Store.only_bind only_setLease fun _ => Store.only_bind Store.only_list fun _ => Store.only_pure
    · exact hrelease (Store.only_bind Store.only_lift fun _ => Store.only_pure)
  exact Cmd.wp_mono hmain fun _ _ _ _ => trivial

end

/-! ## Histories -/

section
variable (hexdigest : ByteArray → String) (guess_type : String → Option String)
  (validate : String → Json → Except PyErr Unit) (verify : ByteArray → Except PyErr ByteArray)
  (verify_signed : ByteArray → ByteArray → Except PyErr Unit)

/-- Where a history stands: the attempts so far, the latest one first, what is left of it, and the store. -/
structure Instant where
  attempts : List Publication
  rest : Option (Proc (Except PyErr Summary × Option LeaseHandle))
  store : Store

/-- Before the first attempt. -/
def Instant.begins (s : Store) : Instant := ⟨[], none, s⟩

/-- The next request of the latest attempt, or another attempt: the one before it goes no further. -/
inductive Next : Instant → Instant → Prop
  | start {i : Instant} {p : Publication} : Signed hexdigest guess_type validate verify verify_signed p →
      Next i ⟨p :: i.attempts, some (main hexdigest validate verify p none), i.store⟩
  | request {ps : List Publication} {o : Op} {k : o.Res → Proc (Except PyErr Summary × Option LeaseHandle)} {r : o.Res}
      {s s' : Store} : Store.Truthful o s r s' → Next ⟨ps, some (.op o k), s⟩ ⟨ps, some (k r), s'⟩

/-- Attempts one after the other, each of a signed repository. -/
abbrev History : Instant → Instant → Prop :=
  Relation.ReflTransGen (Next hexdigest guess_type validate verify verify_signed)

/-- The state pointer that is stored. -/
def stored_pointer (s : Store) : Option StatePointer :=
  (s.get PublicationPlan.STATE_KEY).bind fun x =>
    (verify x.value.body >>= State.parse_state_pointer validate).toOption

end

/-- The state of a repository goes on. -/
inductive Advances : Option StatePointer → Option StatePointer → Prop
  | first {b : StatePointer} : b.generation = 0 → Advances none (some b)
  | next {a b : StatePointer} : b.generation = a.generation + 1 → b.previous_generation = some a.generation →
      Advances (some a) (some b)

section
variable {hexdigest : ByteArray → String} {guess_type : String → Option String}
  {validate : String → Json → Except PyErr Unit} {verify : ByteArray → Except PyErr ByteArray}
  {verify_signed : ByteArray → ByteArray → Except PyErr Unit} {p : Publication} {ps : List Publication} {s s' s₀ : Store}

/-- The attempts are signed, and what is left of the latest does what an attempt may do. -/
structure Going (hexdigest : ByteArray → String) (guess_type : String → Option String)
    (validate : String → Json → Except PyErr Unit) (verify : ByteArray → Except PyErr ByteArray)
    (verify_signed : ByteArray → ByteArray → Except PyErr Unit) (i : Instant) : Prop where
  signed : ∀ p ∈ i.attempts, Signed hexdigest guess_type validate verify verify_signed p
  rest : ∀ rest, i.rest = some rest → ∃ p ∈ i.attempts,
    Conc.wp Store.Truthful Eq (Does validate verify p) rest (fun _ _ => True) i.store

/-- One step: another attempt, or what a signed attempt may do. -/
theorem Going.next {i j : Instant} (h : Going hexdigest guess_type validate verify verify_signed i)
    (hnext : Next hexdigest guess_type validate verify verify_signed i j) :
    Going hexdigest guess_type validate verify verify_signed j ∧ i.attempts ⊆ j.attempts ∧
      (j.store = i.store ∨ ∃ p ∈ i.attempts, j.attempts = i.attempts ∧ Does validate verify p i.store j.store) := by
  cases hnext with
  | @start i p hsigned =>
    refine ⟨⟨List.forall_mem_cons.2 ⟨hsigned, h.signed⟩, ?_⟩, List.subset_cons_self _ _, .inl rfl⟩
    rintro rest ⟨⟩
    exact ⟨p, List.mem_cons_self, main_does hsigned⟩
  | request hr =>
    obtain ⟨p, hp, hwp⟩ := h.rest _ rfl
    obtain ⟨hdoes, hwp⟩ := hwp _ rfl _ _ hr
    refine ⟨⟨h.signed, ?_⟩, List.Subset.refl _, .inr ⟨p, hp, rfl, hdoes⟩⟩
    rintro rest ⟨⟩
    exact ⟨p, hp, hwp⟩

/-- What every step of an attempt keeps, a history keeps. -/
theorem Going.keeps {i j : Instant} {I : List Publication → Store → Prop}
    (h : History hexdigest guess_type validate verify verify_signed i j)
    (hgoing : Going hexdigest guess_type validate verify verify_signed i)
    (hnew : ∀ ps ps' s, ps ⊆ ps' → I ps s → I ps' s)
    (hstep : ∀ p ps s s', p ∈ ps → Signed hexdigest guess_type validate verify verify_signed p →
      Does validate verify p s s' → I ps s → I ps s') (h₀ : I i.attempts i.store) :
    Going hexdigest guess_type validate verify verify_signed j ∧ I j.attempts j.store := by
  induction h with
  | refl => exact ⟨hgoing, h₀⟩
  | tail _ hnext ih =>
    obtain ⟨hgoing, hI⟩ := ih
    obtain ⟨hgoing', hsub, hdone⟩ := hgoing.next hnext
    refine ⟨hgoing', ?_⟩
    rcases hdone with heq | ⟨p, hp, heq, hdoes⟩
    · exact heq ▸ hnew _ _ _ hsub hI
    · exact heq ▸ hstep p _ _ _ hp (hgoing.signed p hp) hdoes hI

theorem Going.begins : Going hexdigest guess_type validate verify verify_signed (Instant.begins s) :=
  ⟨fun _ hp => absurd hp List.not_mem_nil, fun _ h => by cases h⟩

/-- A run of the latest attempt is part of a history. -/
theorem history_part {rest rest' : Proc (Except PyErr Summary × Option LeaseHandle)}
    (h : Conc.Part Store.Truthful rest s rest' s') :
    History hexdigest guess_type validate verify verify_signed ⟨ps, some rest, s⟩ ⟨ps, some rest', s'⟩ := by
  induction h with
  | nil => exact .refl
  | op hr _ ih => exact .head (.request hr) ih

/-! ### What is shown is whole -/

/-- The two commit points. -/
def CommitPoint (key : String) : Prop := key = PublicationPlan.INRELEASE_KEY ∨ key = PublicationPlan.STATE_KEY

theorem CommitPoint.mutable {key : String} (h : CommitPoint key) :
    PublicationPlan.allowedImmutable key = false ∧ key ≠ LEASE_KEY := by
  rcases h with rfl | rfl <;> exact ⟨by decide, by decide⟩

/-- A commit point that is stored is the object of an attempt that is whole. -/
def Served (ps : List Publication) (s : Store) : Prop :=
  ∀ key, CommitPoint key → s.get key ≠ none → ∃ p ∈ ps, Shows p key s ∧ Whole p s

/-- The immutable objects stay. -/
def Steady (s s' : Store) : Prop :=
  ∀ k, PublicationPlan.allowedImmutable k = true → s.get k ≠ none → s'.get k = s.get k

theorem present_some {item : RepositoryObject} (h : Present s (entry item)) : s.get item.relative_key ≠ none := by
  intro hnone
  rw [Present, entry, hnone] at h
  cases h

theorem Whole.steady (h : Whole p s) (hs : Steady s s') : Whole p s' := fun item hitem hkey =>
  have hpresent := h item hitem hkey
  (present_same (hs _ hkey (present_some hpresent))).2 hpresent

/-- A write of an object that was not there, or of a mutable one. -/
theorem steady_write {key : String} {v : PublicationObject}
    (h : PublicationPlan.allowedImmutable key = true → s.get key = none) : Steady s (s.write key v) := by
  intro k hk hsome
  refine Conc.CondStore.get_write_ne _ _ ?_
  rintro rfl
  exact hsome (h hk)

theorem Shows.same {key : String} (h : Shows p key s) (hsame : s'.get key = s.get key) : Shows p key s' := by
  obtain ⟨item, hitem, rfl, hpresent⟩ := h
  exact ⟨item, hitem, rfl, (present_same hsame).2 hpresent⟩

/-- A step that leaves the commit points and the immutable objects alone. -/
theorem Served.steady (h : Served ps s) (hs : Steady s s') (hsame : ∀ key, CommitPoint key → s'.get key = s.get key) :
    Served ps s' := by
  intro key hkey hsome
  rw [hsame key hkey] at hsome
  obtain ⟨p, hp, hshows, hwhole⟩ := h key hkey hsome
  exact ⟨p, hp, hshows.same (hsame key hkey), hwhole.steady hs⟩

/-- A commit point is written by an attempt that is whole. -/
theorem Served.commit (h : Served ps s) (hp : p ∈ ps) {item : RepositoryObject} (hitem : item ∈ p.inventory)
    (hcommit : CommitPoint item.relative_key) (hwhole : Whole p s) :
    Served ps (s.write (entry item).1 (entry item).2) := by
  have hsteady : Steady s (s.write (entry item).1 (entry item).2) := steady_write fun himmutable => by
    rw [show (entry item).1 = item.relative_key from rfl, hcommit.mutable.1] at himmutable
    cases himmutable
  intro key hkey hsome
  by_cases heq : key = item.relative_key
  · exact ⟨p, hp, ⟨item, hitem, heq.symm, present_write⟩, hwhole.steady hsteady⟩
  · have hsame : (s.write (entry item).1 (entry item).2).get key = s.get key := Conc.CondStore.get_write_ne _ _ heq
    rw [hsame] at hsome
    obtain ⟨q, hq, hshows, hwhole'⟩ := h key hkey hsome
    exact ⟨q, hq, hshows.same hsame, hwhole'.steady hsteady⟩

theorem Does.served (h : Does validate verify p s s') (hp : p ∈ ps) (hs : Served ps s) : Served ps s' := by
  cases h with
  | lease hapart =>
    refine hs.steady (fun k hk _ => hapart k ?_) fun key hkey => hapart key hkey.mutable.2
    rintro rfl
    exact absurd hk (by decide)
  | @create item hitem hkey hnone =>
    refine hs.steady (steady_write fun _ => hnone) fun key hcommit => Conc.CondStore.get_write_ne _ _ ?_
    rintro rfl
    exact absurd hkey (by rw [show item.relative_key = (entry item).1 from rfl, hcommit.mutable.1]; decide)
  | @replace item hitem hkey hin hstate =>
    refine hs.steady (steady_write fun himmutable => ?_) fun key hcommit => Conc.CondStore.get_write_ne _ _ ?_
    · exact absurd himmutable (by rw [show (entry item).1 = item.relative_key from rfl, hkey]; decide)
    · rintro rfl
      exact hcommit.elim hin hstate
  | inrelease hitem hkey hwhole => exact hs.commit hp hitem (.inl hkey) hwhole
  | state hitem hkey hwhole _ _ => exact hs.commit hp hitem (.inr hkey) hwhole
  | @delete k _ hnot hwhole hin hstate =>
    -- the deleting attempt is itself what both commit points show
    have hcommitted : Committed p (s.delete k) := Committed.same ⟨hwhole, hin, hstate⟩ fun item hitem =>
      Conc.CondStore.get_delete_ne _ fun heq => hnot (heq ▸ List.mem_map_of_mem hitem)
    intro key hkey _
    rcases hkey with rfl | rfl
    · exact ⟨p, hp, hcommitted.inrelease, hcommitted.whole⟩
    · exact ⟨p, hp, hcommitted.state, hcommitted.whole⟩

theorem served {i : Instant} (h : History hexdigest guess_type validate verify verify_signed (.begins s₀) i)
    (h₀ : ∀ key, CommitPoint key → s₀.get key = none) :
    Going hexdigest guess_type validate verify verify_signed i ∧ Served i.attempts i.store := by
  refine Going.begins.keeps h (I := Served) (fun ps ps' s hsub hs key hkey hsome => ?_)
    (fun p ps s s' hp _ hdoes hs => hdoes.served hp hs) fun key hkey hsome => absurd (h₀ key hkey) hsome
  obtain ⟨q, hq, hserved⟩ := hs key hkey hsome
  exact ⟨q, hsub hq, hserved⟩

/-- What a client downloads after it has read the manifest of a publication: its pool and its indexes by hash. -/
def Downloads (hexdigest : ByteArray → String) (p : Publication) (s : Store) : Prop :=
  ∀ a ∈ p.desired_manifest.artifacts, a.key ∈ p.desired_manifest.live_objects → SignedRepository.isImmutable a.key = true →
    ∃ x, s.get a.key = some x ∧ hexdigest x.value.body = a.sha256 ∧ (x.value.body.size : Int) = a.size ∧
      x.value.metadata.content_type = a.media_type ∧ x.value.metadata.cache_control = StorageRepository.IMMUTABLE_CACHE

theorem Signed.downloads (h : Signed hexdigest guess_type validate verify verify_signed p) (hwhole : Whole p s) :
    Downloads hexdigest p s := by
  obtain ⟨files, sums, m, htree⟩ := h
  intro a ha _ himmutable
  obtain ⟨item, hitem, hkey, hdigest, hsize, htype, hcache⟩ := htree.live ha
  have hallowed : PublicationPlan.allowedImmutable item.relative_key = true := by
    rw [StorageRepository.allowedImmutable_eq, hkey]
    exact Bool.or_eq_true _ _ ▸ .inl himmutable
  have hclass : a.cache_class = .immutable :=
    (htree.artifacts.2.2 a (htree.artifacts.1 ▸ ha)).cache_class.trans (if_pos himmutable)
  obtain ⟨x, hget, hx⟩ := Option.map_eq_some_iff.1 (hwhole item hitem hallowed)
  rw [if_pos hclass] at hcache
  refine ⟨x, hkey ▸ hget, ?_, ?_, ?_, ?_⟩ <;> rw [hx]
  · exact hdigest
  · exact hsize
  · exact htype
  · exact hcache

theorem stored_pointer_same (h : s'.get PublicationPlan.STATE_KEY = s.get PublicationPlan.STATE_KEY) :
    stored_pointer validate verify s' = stored_pointer validate verify s := by
  rw [stored_pointer, stored_pointer, h]

theorem stored_pointer_some {x : StoredObject} (hx : s.get PublicationPlan.STATE_KEY = some x) {payload : ByteArray}
    {pointer : StatePointer} (hpayload : verify x.value.body = .ok payload)
    (hparse : State.parse_state_pointer validate payload = .ok pointer) :
    stored_pointer validate verify s = some pointer := by
  rw [stored_pointer, hx, Option.bind_some, hpayload, except_ok_bind, hparse]
  rfl

/-- The pointer of a publication is the successor of the one it may find, or the same. -/
theorem Admits.advances (hsigned : Signed hexdigest guess_type validate verify verify_signed p)
    (h : Admits validate verify p s) : stored_pointer validate verify s = some p.desired ∨
      Advances (stored_pointer validate verify s) (some p.desired) := by
  obtain ⟨files, sums, m, htree⟩ := hsigned
  obtain ⟨payload, hpayload, hparse⟩ := htree.pointer
  unfold Admits at h
  cases hget : s.get PublicationPlan.STATE_KEY with
  | none =>
    rw [hget] at h
    rw [stored_pointer, hget]
    exact .inr (.first h.1)
  | some x =>
    rw [hget] at h
    rcases h with hbody | ⟨payload', observed, hpayload', hparse', hnext, hprevious, -⟩
    · have hbody' : x.value.body = p.desired_body := ByteArray.ext hbody
      exact .inl (stored_pointer_some hget (hbody' ▸ hpayload) hparse)
    · rw [stored_pointer_some hget hpayload' hparse']
      exact .inr (.next hnext hprevious)

theorem Does.advances (hsigned : Signed hexdigest guess_type validate verify verify_signed p)
    (h : Does validate verify p s s') : Relation.ReflTransGen Advances (stored_pointer validate verify s)
      (stored_pointer validate verify s') := by
  have hsame : s'.get PublicationPlan.STATE_KEY = s.get PublicationPlan.STATE_KEY →
      Relation.ReflTransGen Advances (stored_pointer validate verify s) (stored_pointer validate verify s') :=
    fun hget => @stored_pointer_same validate verify s s' hget ▸ .refl
  have hother : ∀ item : RepositoryObject, item.relative_key ≠ PublicationPlan.STATE_KEY →
      (s.write (entry item).1 (entry item).2).get PublicationPlan.STATE_KEY = s.get PublicationPlan.STATE_KEY :=
    fun item hne => Conc.CondStore.get_write_ne _ _ (Ne.symm hne)
  cases h with
  | lease hapart => exact hsame (hapart _ (by decide))
  | @create item _ hkey _ =>
    refine hsame (hother item ?_)
    intro heq
    exact absurd hkey (by rw [heq]; decide)
  | @replace item _ _ _ hne => exact hsame (hother item hne)
  | @inrelease item _ hkey _ => exact hsame (hother item (by rw [hkey]; decide))
  | @delete k _ hnot _ _ hstate =>
    obtain ⟨item, hitem, hkey, -⟩ := hstate
    refine hsame (Conc.CondStore.get_delete_ne _ fun heq => hnot ?_)
    exact heq ▸ hkey ▸ List.mem_map_of_mem hitem
  | @state item hitem hkey _ _ hadmits =>
    have hafter : stored_pointer validate verify (s.write (entry item).1 (entry item).2) = some p.desired := by
      have hget : (s.write (entry item).1 (entry item).2).get PublicationPlan.STATE_KEY = some ⟨(entry item).2, s.revision⟩ := by
        rw [← hkey]
        exact Conc.CondStore.get_write_self _ _ _
      have hbody := hsigned.state item hitem hkey
      obtain ⟨files, sums, m, htree⟩ := hsigned
      obtain ⟨payload, hpayload, hparse⟩ := htree.pointer
      exact stored_pointer_some hget (show verify item.contents = _ from hbody ▸ hpayload) hparse
    rw [hafter]
    rcases hadmits.advances hsigned with heq | hadvances
    · rw [heq]
    · exact .single hadvances

/-- Along a chain of states the generation never falls, and it names the pointer. -/
theorem advances_le {a : StatePointer} {y : Option StatePointer} (h : Relation.ReflTransGen Advances (some a) y) :
    ∃ b, y = some b ∧ a.generation ≤ b.generation ∧ (b.generation = a.generation → b = a) := by
  induction h with
  | refl => exact ⟨a, rfl, le_rfl, fun _ => rfl⟩
  | tail _ hstep ih =>
    obtain ⟨b, rfl, hle, -⟩ := ih
    cases hstep with
    | next hnext _ => exact ⟨_, rfl, by omega, fun heq => absurd heq (by omega)⟩

end

/-! Two attempts at one repository, the first one cut. -/

namespace Instant.Sample

open Signed.Sample (digest)

abbrev Goes : Instant → Instant → Prop := History digest (fun _ => none) (fun _ _ => .ok ()) .ok (fun _ _ => .ok ())

/-- What is left of an attempt after some requests, and the store. -/
def cut (p : Publication) (n : Nat) (s : Store) : Proc (Except PyErr Summary × Option LeaseHandle) × Store :=
  (main digest (fun _ _ => .ok ()) .ok p none).runN Store.serve n s

def first (p : Publication) : Instant := ⟨[p], some (cut p 30 Conc.CondStore.empty).1, (cut p 30 Conc.CondStore.empty).2⟩

def second (p : Publication) : Instant :=
  ⟨[p, p], some (cut p 300 (first p).store).1, (cut p 300 (first p).store).2⟩

theorem goes {p : Publication} (hp : Signed digest (fun _ => none) (fun _ _ => .ok ()) .ok (fun _ _ => .ok ()) p) (i : Instant)
    (n : Nat) : Goes i ⟨p :: i.attempts, some (cut p n i.store).1, (cut p n i.store).2⟩ :=
  .head (.start hp) (history_part (Conc.part_runN Store.service_serve.truthful n _ _))

end Instant.Sample

end StoragePublish
