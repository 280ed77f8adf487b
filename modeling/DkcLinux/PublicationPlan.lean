import DkcLinux.Publication
import DkcLinux.StoreSem

/-!
# From a repository tree to a plan (`dkc/publication_plan.py`)

`classify` is `plan_repository` up to the first store request: every object of the inventory goes
to one place of the plan (`Classified.planned_iff`). `captureAll` then reads the ETag of every
mutable key.
-/

open Py Records

structure RepositoryObject where
  relative_key : String
  /-- What `path.read_bytes()` returns. -/
  contents : ByteArray
  sha256 : String
  size : Nat
  metadata : ObjectMetadata

/-- `RepositoryObject.read`, for a digest of bytes. -/
def RepositoryObject.read (digest : ByteArray → String) (o : RepositoryObject) : Except PyErr ByteArray :=
  if o.contents.size ≠ o.size ∨ digest o.contents ≠ o.sha256 then
    .error (.RuntimeError ("repository object changed after inventory: " ++ o.relative_key))
  else .ok o.contents

theorem RepositoryObject.read_ok {digest : ByteArray → String} {o : RepositoryObject} {body : ByteArray}
    (h : o.read digest = .ok body) : body = o.contents := by
  unfold read at h
  rw [except_check_eq_ok] at h
  cases h.2
  rfl

namespace PublicationPlan

def CONVENIENCES : List String := ["manifest.json", "manifest.json.asc", "SHA256SUMS", "SHA256SUMS.asc"]

def INRELEASE_KEY : String := "dists/trixie/InRelease"

def STATE_KEY : String := "state/current.asc"

/-- `value.metadata.cache_control.endswith("immutable")`. -/
def isImmutable (value : PublicationObject) : Bool := endswith value.metadata.cache_control "immutable"

/-- The paths below which an object may be immutable. -/
def allowedImmutable (key : String) : Bool :=
  startswith key "pool/" || contains key "/by-hash/SHA256/" || startswith key "state/publications/" ||
    startswith key "state/transactions/"

/-- The places of a plan before the ETags are read. -/
structure Classified where
  immutable : Dict PublicationObject
  mutable_before : Dict PublicationObject
  inrelease : PublicationObject
  state_pointer : PublicationObject
  conveniences : Dict PublicationObject
  transaction_key : String

section
variable (digest : ByteArray → String) (max_object_bytes : Int)

/-- One object of the inventory. -/
def addObject (objects : Dict PublicationObject) (item : RepositoryObject) :
    Except PyErr (Dict PublicationObject) := do
  if max_object_bytes < item.size then
    throw (.ValueError "a publication object exceeds the configured size limit")
  if h : item.relative_key ∈ objects.keys then
    throw (.ValueError "publication inventory repeats an object key")
  else
    return objects.add item.relative_key ⟨← item.read digest, item.metadata⟩ h

/-- The transaction record of a publication: there is exactly one, and it is signed. -/
def transactionKey (objects : Dict PublicationObject) : Except PyErr String :=
  let records := (objects.keys.filter fun key =>
    startswith key "state/transactions/" && endswith key "/record.json").insertionSort (· ≤ ·)
  match records with
  | [key] =>
    if key ++ ".asc" ∈ objects.keys then .ok key
    else .error (.ValueError "publication transaction record lacks its signature")
  | _ => .error (.ValueError "publication inventory must contain one transaction record")

def required : List String := [INRELEASE_KEY, STATE_KEY] ++ CONVENIENCES

/-- What is left of the objects after the `pop`s. -/
def others (objects : Dict PublicationObject) : Dict PublicationObject :=
  objects.filter fun key _ => key ∉ required

/-- `plan_repository` before it reads the store. -/
def classify (inventory : List RepositoryObject) : Except PyErr Classified := do
  if max_object_bytes < 1 then
    throw (.ValueError "publication object-size limit must be positive")
  let objects ← inventory.foldlM (addObject digest max_object_bytes) .empty
  let missing := (required.filter (· ∉ objects.keys)).insertionSort (· ≤ ·)
  if missing ≠ [] then
    throw (.ValueError "publication inventory lacks required objects: " missing)
  let transaction_key ← transactionKey objects
  let inrelease ← getItem objects INRELEASE_KEY
  let state_pointer ← getItem objects STATE_KEY
  let conveniences := objects.filter fun key _ => key ∈ CONVENIENCES
  let immutable := (others objects).filter fun _ value => isImmutable value
  let mutable_before := (others objects).filter fun _ value => !isImmutable value
  match immutable.keys.find? fun key => !allowedImmutable key with
  | some key => throw (.ValueError ("object is classified immutable outside allowed paths: " ++ key))
  | none => return { immutable, mutable_before, inrelease, state_pointer, conveniences, transaction_key }

/-- `sorted(mutable)` of the set of mutable keys. -/
def Classified.mutableKeys (c : Classified) : List String :=
  (c.mutable_before.keys ++ c.conveniences.keys ++ [INRELEASE_KEY, STATE_KEY]).dedup.insertionSort (· ≤ ·)

/-- The ETag of every key, read one key after the other. -/
def captureAll {σ : Type} : (keys : List String) →
    Cmd σ { d : List (String × Option Nat) // d.map (·.1) = keys }
  | [] => pure ⟨[], rfl⟩
  | key :: keys => do
    let current ← Cmd.get key
    let rest ← captureAll keys
    return ⟨(key, current.map (·.etag)) :: rest.1, by simp [rest.2]⟩

theorem Classified.nodup_mutableKeys (c : Classified) : c.mutableKeys.Nodup :=
  (List.perm_insertionSort _ _).nodup_iff.2 (List.nodup_dedup _)

def plan_repository {σ : Type} (inventory : List RepositoryObject) : Cmd σ PublicationPlan := do
  let c ← classify digest max_object_bytes inventory
  let preconditions ← captureAll c.mutableKeys
  PublicationPlan.make {
    immutable := c.immutable
    mutable_before_commit := c.mutable_before
    inrelease := c.inrelease
    state_pointer := c.state_pointer
    conveniences := c.conveniences
    mutable_preconditions := ⟨preconditions.1, by rw [preconditions.2]; exact c.nodup_mutableKeys⟩
    transaction_key := c.transaction_key }

end

/-! ## What a plan holds -/

/-- The objects of an inventory. -/
def Loaded (inventory : List RepositoryObject) (objects : Dict PublicationObject) : Prop :=
  ∀ x : String × PublicationObject, x ∈ objects.items ↔
    ∃ item ∈ inventory, x = (item.relative_key, ⟨item.contents, item.metadata⟩)

variable {digest : ByteArray → String} {max_object_bytes : Int}

theorem addObject_ok {objects objects' : Dict PublicationObject} {item : RepositoryObject}
    (h : addObject digest max_object_bytes objects item = .ok objects') :
    objects'.items = objects.items ++ [(item.relative_key, ⟨item.contents, item.metadata⟩)] := by
  simp only [addObject, except_throw, except_error_bind, except_check_eq_ok] at h
  obtain ⟨-, h⟩ := h
  split at h
  · cases h
  · obtain ⟨body, hbody, h⟩ := except_bind_eq_ok.1 h
    cases h
    rw [RepositoryObject.read_ok hbody, Dict.add]

theorem loaded_foldlM {inventory : List RepositoryObject} {start objects : Dict PublicationObject}
    (h : inventory.foldlM (addObject digest max_object_bytes) start = .ok objects) :
    objects.items = start.items ++
      inventory.map fun item => (item.relative_key, ⟨item.contents, item.metadata⟩) := by
  induction inventory generalizing start with
  | nil =>
    cases h
    simp
  | cons item inventory ih =>
    rw [List.foldlM_cons] at h
    obtain ⟨next, hnext, h⟩ := except_bind_eq_ok.1 h
    rw [ih h, addObject_ok hnext]
    simp

/-- The places of a plan, each filled from the objects. -/
structure Classified.Of (objects : Dict PublicationObject) (c : Classified) : Prop where
  immutable : c.immutable = (others objects).filter fun _ value => isImmutable value
  mutable_before : c.mutable_before = (others objects).filter fun _ value => !isImmutable value
  conveniences : c.conveniences = objects.filter fun key _ => key ∈ CONVENIENCES
  inrelease : objects.get? INRELEASE_KEY = some c.inrelease
  state_pointer : objects.get? STATE_KEY = some c.state_pointer
  complete : ∀ key ∈ required, key ∈ objects.keys
  allowed : ∀ key ∈ c.immutable.keys, allowedImmutable key = true

theorem getItem_ok {V : Type} {d : Dict V} {key : String} {v : V} (h : getItem d key = .ok v) :
    d.get? key = some v := by
  unfold getItem at h
  split at h
  · cases h; assumption
  · cases h

theorem classify_ok {inventory : List RepositoryObject} {c : Classified}
    (h : classify digest max_object_bytes inventory = .ok c) :
    ∃ objects, Loaded inventory objects ∧ c.Of objects := by
  simp only [classify, except_throw, except_error_bind, except_check_eq_ok] at h
  obtain ⟨-, h⟩ := h
  obtain ⟨objects, hload, h⟩ := except_bind_eq_ok.1 h
  rw [except_check_eq_ok, not_not] at h
  obtain ⟨hmissing, h⟩ := h
  obtain ⟨transaction_key, -, h⟩ := except_bind_eq_ok.1 h
  obtain ⟨inrelease, hin, h⟩ := except_bind_eq_ok.1 h
  obtain ⟨state_pointer, hst, h⟩ := except_bind_eq_ok.1 h
  refine ⟨objects, ?_, ?_⟩
  · intro x
    rw [loaded_foldlM hload]
    simp [Dict.empty, eq_comm]
  · split at h
    · cases h
    · next hfind =>
      cases h
      refine ⟨rfl, rfl, rfl, getItem_ok hin, getItem_ok hst, ?_, ?_⟩
      · intro key hkey
        by_contra hnot
        have hmem : key ∈ (required.filter (· ∉ objects.keys)).insertionSort (· ≤ ·) := by
          rw [List.mem_insertionSort, List.mem_filter]
          exact ⟨hkey, by simpa using hnot⟩
        rw [hmissing] at hmem
        cases hmem
      · simpa using hfind

/-- A plan made of the objects of a repository. -/
structure Of (objects : Dict PublicationObject) (p : PublicationPlan) : Prop where
  immutable : ∀ x, x ∈ p.immutable.items ↔
    x ∈ objects.items ∧ x.1 ∉ required ∧ isImmutable x.2 = true
  mutable_before : ∀ x, x ∈ p.mutable_before_commit.items ↔
    x ∈ objects.items ∧ x.1 ∉ required ∧ isImmutable x.2 = false
  conveniences : ∀ x, x ∈ p.conveniences.items ↔ x ∈ objects.items ∧ x.1 ∈ CONVENIENCES
  inrelease_key : p.inrelease_key = INRELEASE_KEY
  state_key : p.state_key = STATE_KEY
  inrelease : (INRELEASE_KEY, p.inrelease) ∈ objects.items
  state_pointer : (STATE_KEY, p.state_pointer) ∈ objects.items
  complete : ∀ key ∈ required, key ∈ objects.keys
  allowed : ∀ key ∈ p.immutable.keys, allowedImmutable key = true

theorem Classified.Of.plan {objects : Dict PublicationObject} {c : Classified} (h : c.Of objects)
    {p : PublicationPlan} {d : Dict (Option Nat)}
    (hp : p.toPublicationPlanFields = {
      immutable := c.immutable
      mutable_before_commit := c.mutable_before
      inrelease := c.inrelease
      state_pointer := c.state_pointer
      conveniences := c.conveniences
      mutable_preconditions := d
      transaction_key := c.transaction_key }) : p.Of objects where
  immutable x := by
    rw [hp]
    simp [h.immutable, others, Dict.filter, and_comm]
  mutable_before x := by
    rw [hp]
    simp [h.mutable_before, others, Dict.filter, and_comm]
  conveniences x := by
    rw [hp]
    simp [h.conveniences, Dict.filter]
  inrelease_key := by rw [hp]; rfl
  state_key := by rw [hp]; rfl
  inrelease := by
    rw [hp]
    exact Dict.mem_items.2 h.inrelease
  state_pointer := by
    rw [hp]
    exact Dict.mem_items.2 h.state_pointer
  complete := h.complete
  allowed := by
    rw [hp]
    exact h.allowed

open PublicationExecutor

/-- Every object of the repository has its place in the plan. -/
theorem Of.planned_iff {objects : Dict PublicationObject} {p : PublicationPlan} (h : p.Of objects)
    {x : String × PublicationObject} : Planned p x ↔ x ∈ objects.items := by
  constructor
  · rintro (hx | ⟨need, hx⟩)
    · exact ((h.immutable x).1 hx).1
    · cases hx with
      | mutable_before_commit hx => exact ((h.mutable_before x).1 hx).1
      | inrelease => exact h.inrelease_key ▸ h.inrelease
      | convenience hx => exact ((h.conveniences x).1 hx).1
      | state_pointer => exact h.state_key ▸ h.state_pointer
  · intro hx
    by_cases hreq : x.1 ∈ required
    · simp only [required, List.mem_append, List.mem_cons, List.not_mem_nil, or_false] at hreq
      have hget : objects.get? x.1 = some x.2 := Dict.mem_items.1 hx
      rcases hreq with (hk | hk) | hk
      · have hv := Dict.mem_items.1 h.inrelease
        rw [← hk, hget] at hv
        have hx' : x = (p.inrelease_key, p.inrelease) := Prod.ext (hk.trans h.inrelease_key.symm) (Option.some.inj hv)
        exact hx' ▸ .inr ⟨_, Waits.inrelease⟩
      · have hv := Dict.mem_items.1 h.state_pointer
        rw [← hk, hget] at hv
        have hx' : x = (p.state_key, p.state_pointer) := Prod.ext (hk.trans h.state_key.symm) (Option.some.inj hv)
        exact hx' ▸ .inr ⟨_, Waits.state_pointer⟩
      · exact .inr ⟨_, .convenience ((h.conveniences x).2 ⟨hx, hk⟩)⟩
    · by_cases him : isImmutable x.2 = true
      · exact .inl ((h.immutable x).2 ⟨hx, hreq, him⟩)
      · exact .inr ⟨_, .mutable_before_commit ((h.mutable_before x).2 ⟨hx, hreq, by simpa using him⟩)⟩

/-- A key has one planned object. -/
theorem Of.planned_unique {objects : Dict PublicationObject} {p : PublicationPlan} (h : p.Of objects)
    {k : String} {v v' : PublicationObject} (hv : Planned p (k, v)) (hv' : Planned p (k, v')) : v = v' := by
  have hg := Dict.mem_items.1 (h.planned_iff.1 hv)
  have hg' := Dict.mem_items.1 (h.planned_iff.1 hv')
  exact Option.some.inj (hg.symm.trans hg')

/-! ## Reading the ETags -/

section
variable {σ : Type} {R : Store → Store → Prop} {I : String → Option Nat → Store → Prop}

/-- `I key etag` is what stays true of an ETag once it is read. -/
theorem captureAll_wp (hI : ∀ k pre s s', I k pre s → R s s' → I k pre s')
    (hread : ∀ k s, I k ((s.get k).map (·.etag)) s) :
    ∀ (keys : List String) (st : σ) (s : Store),
      (captureAll keys).wp Store.Answers R Eq
        (fun r _ s' => (∀ k pre, I k pre s → I k pre s') ∧
          ∀ d, r = .ok d → ∀ x ∈ d.1, I x.1 x.2 s') st s
  | [], st, s => by
    refine ⟨fun _ _ h => h, ?_⟩
    rintro d h x hx
    cases h
    cases hx
  | key :: keys, st, s => by
    unfold captureAll
    rw [Cmd.wp_bind]
    refine Store.wp_get fun s' hs => ⟨rfl, ?_, fun e => ?_⟩
    · rw [Cmd.after_ok, Cmd.wp_bind]
      refine Cmd.wp_mono (captureAll_wp hI hread keys st s') fun r st' s'' hr => ?_
      rcases r with e | rest
      · exact ⟨fun k pre h => hr.1 k pre (hI _ _ _ _ h hs), by simp⟩
      · refine ⟨fun k pre h => hr.1 k pre (hI _ _ _ _ h hs), ?_⟩
        rintro d h x hx
        cases h
        rcases List.mem_cons.1 hx with rfl | hx
        · exact hr.1 _ _ (hread key s')
        · exact hr.2 rest rfl x hx
    · exact ⟨fun k pre h => hI _ _ _ _ h hs, by simp⟩

variable (digest max_object_bytes) in
/-- A plan holds the objects of its inventory, and ETags that were read. -/
theorem plan_repository_wp (hI : ∀ k pre s s', I k pre s → R s s' → I k pre s')
    (hread : ∀ k s, I k ((s.get k).map (·.etag)) s) (inventory : List RepositoryObject) (st : σ)
    (s : Store) :
    (plan_repository digest max_object_bytes inventory).wp Store.Answers R Eq
      (fun r _ s' => ∀ p, r = .ok p → (∃ objects, Loaded inventory objects ∧ p.Of objects) ∧
        ∀ k pre, p.mutable_preconditions.get? k = some pre → I k pre s') st s := by
  unfold plan_repository
  cases hc : classify digest max_object_bytes inventory with
  | error e =>
    rintro p h
    cases h
  | ok c =>
    obtain ⟨objects, hload, hof⟩ := classify_ok hc
    rw [Cmd.wp_ok_bind, Cmd.wp_bind]
    refine Cmd.wp_mono (captureAll_wp hI hread c.mutableKeys st s) fun r st' s' hr => ?_
    rcases r with e | d
    · rintro p h
      cases h
    · rintro p h
      have hp := PublicationPlan.make_ok h
      refine ⟨⟨objects, hload, hof.plan hp⟩, fun k pre hpre => ?_⟩
      rw [hp, ← Dict.mem_items] at hpre
      exact hr.2 d rfl (k, pre) hpre

end

/-- `plan_repository` built this plan, on some store. -/
def Built (digest : ByteArray → String) (max_object_bytes : Int) (inventory : List RepositoryObject)
    (p : PublicationPlan) : Prop :=
  ∃ s s', (plan_repository digest max_object_bytes inventory).run Store.serve () s = ((.ok p, ()), s')

theorem Built.of {inventory : List RepositoryObject} {p : PublicationPlan}
    (h : Built digest max_object_bytes inventory p) :
    ∃ objects, Loaded inventory objects ∧ p.Of objects := by
  obtain ⟨s, s', hrun⟩ := h
  have hwp := plan_repository_wp digest max_object_bytes (R := Eq) (I := fun _ _ _ => True)
    (fun _ _ _ _ h _ => h) (fun _ _ => trivial) inventory () s
  have hq := Conc.wp_run (Conc.wp_sem (fun _ _ _ _ => Store.answers_serve) hwp)
  rw [Cmd.run] at hrun
  rw [hrun] at hq
  exact (hq p rfl).1

/-- The captured preconditions are those of the store. -/
def Matches (p : PublicationPlan) (s : Store) : Prop :=
  ∀ k pre, p.mutable_preconditions.get? k = some pre → pre = (s.get k).map (·.etag)

/-- A plan matches the store it was built on. -/
theorem matches_of_run {inventory : List RepositoryObject} {p : PublicationPlan} {s s' : Store}
    (h : (plan_repository digest max_object_bytes inventory).run Store.serve () s =
      ((.ok p, ()), s')) : Matches p s := by
  have hwp := plan_repository_wp digest max_object_bytes (R := Eq)
    (I := fun k pre s' => s' = s → pre = (s.get k).map (·.etag)) (fun k pre a b h hab => hab ▸ h)
    (fun k s' hs => by rw [hs]) inventory () s
  have hserve := Conc.wp_sem (fun _ _ _ _ => Store.answers_serve) hwp
  have hq := Conc.wp_run hserve
  have hsteps := Conc.wp_run_steps hserve
  rw [Cmd.run] at h
  rw [h] at hq hsteps
  have hsame : s = s' := by rwa [Relation.reflTransGen_eq_self] at hsteps
  exact fun k pre hpre => (hq p rfl).2 k pre hpre hsame.symm

/-! ## A small repository

Empty files, and a state pointer of one letter. -/

namespace Sample

def immutable_metadata : ObjectMetadata :=
  ⟨"application/octet-stream", "public, max-age=31536000, immutable", by decide⟩

def mutable_metadata : ObjectMetadata :=
  ⟨"text/plain", "public, max-age=0, must-revalidate", by decide⟩

/-- SHA-256 of no bytes, of `a` and of `b`. -/
def hexdigest (b : ByteArray) : String :=
  if b.data = #[97] then "ca978112ca1bbdcafac231b39a23dc4da786eff8147c4e72b9807785afee48bb"
  else if b.data = #[98] then "3e23e8160039594a33894f6564e1b1348bbd7a0088d42c4acb73eeaed59c009d"
  else "e3b0c44298fc1c149afbf4c8996fb92427ae41e4649b934ca495991b7852b855"

def file (metadata : ObjectMetadata) (contents : ByteArray) (key : String) : RepositoryObject :=
  ⟨key, contents, hexdigest contents, contents.size, metadata⟩

def repository (pointer : ByteArray) : List RepositoryObject :=
  (["pool/dkc.deb", "state/transactions/1/record.json",
    "state/transactions/1/record.json.asc"].map (file immutable_metadata ⟨#[]⟩)) ++
  (["dists/trixie/Release", "dists/trixie/InRelease", "manifest.json", "manifest.json.asc",
    "SHA256SUMS", "SHA256SUMS.asc"].map (file mutable_metadata ⟨#[]⟩)) ++
  [file mutable_metadata pointer "state/current.asc"]

theorem run_of_isOk (inventory : List RepositoryObject) (s : Store)
    (h : ((plan_repository hexdigest 1000 inventory).run Store.serve () s).1.1.isOk = true) :
    ∃ p s', (plan_repository hexdigest 1000 inventory).run Store.serve () s = ((.ok p, ()), s') := by
  rcases hrun : (plan_repository hexdigest 1000 inventory).run Store.serve () s with ⟨⟨e | p, st⟩, s'⟩
  · rw [hrun] at h
    cases h
  · exact ⟨p, s', rfl⟩

end Sample

end PublicationPlan
