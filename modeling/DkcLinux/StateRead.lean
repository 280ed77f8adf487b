import DkcLinux.PublicationHistory

/-!
# Reading the state and its pool (`scripts/in-container/storage-state-read.py`, `storage-export-pool.py`, `dkc/handoffs.py:116-229`)

A reader takes no lease: between two of its requests any number of publications may begin, end or be abandoned.

| script                   | reads                                      | against                                     |
|--------------------------|--------------------------------------------|---------------------------------------------|
| `storage-state-read.py`  | the pointer, its manifest, the signature   | a history that goes on (`state_read_exact`) |
| `storage-export-pool.py` | the live pool of the manifest              | a store at rest (`pool_export_exact`)       |

What is below `state/publications` stays for good, so the pointer that was read never dangles (`going_fixed`).
-/

open Py Records

namespace StateRead

open StoragePublish StorageRepository

/-- The files and the status of a state handoff. -/
inductive StateHandoff where
  | EMPTY (storage_object_count : Nat) (storage_size : Int)
  | PRESENT (current pointer manifest signature : ByteArray) (state_etag manifest_etag : String)
      (storage_object_count : Nat) (storage_size : Int)

/-- The files and the summary of an exported pool. -/
structure PoolExport where
  present : Bool
  object_count : Nat
  size : Nat
  files : List (String × ByteArray)

section
-- `hashlib.sha256(...).hexdigest()`, the schema check, what `gpgv` makes of a signed body, what it says of a detached
-- signature and the body under it, and the text of an ETag
variable (hexdigest : ByteArray → String) (validate : String → Json → Except PyErr Unit)
  (verify : ByteArray → Except PyErr ByteArray) (verify_signed : ByteArray → ByteArray → Except PyErr Unit)
  (etag : Nat → String) {σ : Type}

/-- `AuthoritativeState(...)`. -/
def authoritative_state (state : AuthoritativeStateFields) : Except PyErr AuthoritativeState :=
  match h : state.post_init with
  | .ok () => .ok ⟨state, h⟩
  | .error e => .error e

/-- `value.metadata != ObjectMetadata(content_type, cache_control)`. -/
def unexpected (value : StoredObject) (content_type cache_control : String) : Bool :=
  value.value.metadata.content_type ≠ content_type || value.value.metadata.cache_control ≠ cache_control

/-- `load_authoritative_state_handoff`. -/
def load_authoritative_state_handoff : StateHandoff → Except PyErr (Option AuthoritativeState)
  | .EMPTY _ _ => .ok none
  | .PRESENT current pointer manifest signature state_etag manifest_etag storage_object_count storage_size => do
    let extracted_pointer ← verify current
    if extracted_pointer.data ≠ pointer.data then
      throw (.ValueError "state pointer differs from its signed payload")
    verify_signed signature manifest
    let pointer ← State.parse_state_pointer validate pointer
    if hexdigest manifest ≠ pointer.manifest_sha256 then
      throw (.ValueError "authoritative manifest hash differs from the state pointer")
    let manifest ← State.parse_manifest validate manifest
    let state ← authoritative_state
      ⟨pointer, manifest, state_etag, manifest_etag, storage_object_count, storage_size⟩
    return some state

/-- `main` of `storage-state-read.py` after the answer that there is a pointer. -/
def read_present (storage_inventory : List (String × Nat)) (current : StoredObject) : Cmd σ StateHandoff := do
  if unexpected current "application/pgp-signature" MUTABLE_CACHE then
    throw (.ValueError "authoritative state pointer has unexpected HTTP metadata")
  let payload ← verify current.value.body
  let pointer ← State.parse_state_pointer validate payload
  let manifest_object ← Cmd.get pointer.manifest_key
  let signature_object ← Cmd.get (pointer.manifest_key ++ ".asc")
  match manifest_object, signature_object with
  | some manifest_object, some signature_object =>
    if unexpected manifest_object "application/json" IMMUTABLE_CACHE then
      throw (.ValueError "authoritative manifest has unexpected HTTP metadata")
    if unexpected signature_object "application/pgp-signature" IMMUTABLE_CACHE then
      throw (.ValueError "authoritative manifest signature has unexpected HTTP metadata")
    if hexdigest manifest_object.value.body ≠ pointer.manifest_sha256 then
      throw (.ValueError "authoritative manifest hash differs from the state pointer")
    verify_signed signature_object.value.body manifest_object.value.body
    let manifest ← State.parse_manifest validate manifest_object.value.body
    let _ ← authoritative_state ⟨pointer, manifest, etag current.etag, etag manifest_object.etag, storage_inventory.length,
      Lifecycle.storage_size storage_inventory⟩
    return .PRESENT current.value.body payload manifest_object.value.body signature_object.value.body (etag current.etag)
      (etag manifest_object.etag) storage_inventory.length (Lifecycle.storage_size storage_inventory)
  | _, _ => throw (.ValueError "authoritative state references an incomplete publication")

/-- `main` of `storage-state-read.py`: the handoff is read back before it is passed on. -/
def read_state : Cmd σ StateHandoff := do
  let storage_inventory ← Cmd.list_objects ""
  let handoff ← (do
    match ← Cmd.get PublicationPlan.STATE_KEY with
    | none => pure (.EMPTY storage_inventory.length (Lifecycle.storage_size storage_inventory))
    | some current => read_present hexdigest validate verify verify_signed etag storage_inventory current : Cmd σ StateHandoff)
  let _ ← load_authoritative_state_handoff hexdigest validate verify verify_signed handoff
  return handoff

/-- A loop body of `storage-export-pool.py`; the keys of the artifacts are distinct. -/
def export_object (artifacts : List Artifact) (key : String) : Cmd σ (String × ByteArray) := do
  match artifacts.find? (·.key = key) with
  | none => throw (.KeyError key)
  | some artifact =>
    if artifact.cache_class ≠ .immutable then
      throw (.ValueError "live pool artifact is not immutable")
    match ← Cmd.get key with
    | none => throw (.ValueError "authenticated live pool object failed verification")
    | some remote =>
      if (remote.value.body.size : Int) ≠ artifact.size ∨ hexdigest remote.value.body ≠ artifact.sha256 ∨
          unexpected remote artifact.media_type IMMUTABLE_CACHE = true then
        throw (.ValueError "authenticated live pool object failed verification")
      return (key, remote.value.body)

/-- `sorted(key for key in manifest.live_objects if key.startswith("pool/"))`. -/
def pool_keys (manifest : PublicationManifest) : List String :=
  (manifest.live_objects.filter (startswith · "pool/")).insertionSort (· ≤ ·)

def export_objects (artifacts : List Artifact) : List String → Cmd σ (List (String × ByteArray))
  | [] => pure []
  | key :: keys => do
    let file ← export_object hexdigest artifacts key
    return file :: (← export_objects artifacts keys)

/-- What `storage-export-pool.py` writes of a state. -/
def write_pool : Option AuthoritativeState → Cmd σ PoolExport
  | none => pure ⟨false, 0, 0, []⟩
  | some state => do
    if pool_keys state.manifest = [] then
      throw (.ValueError "present authoritative state has no live pool")
    let files ← export_objects hexdigest state.manifest.artifacts (pool_keys state.manifest)
    return ⟨true, files.length, (files.map (·.2.size)).sum, files⟩

/-- `expected` of `load_live_pool_handoff`. -/
def expected_pool (manifest : PublicationManifest) : List Artifact :=
  manifest.artifacts.filter fun artifact => startswith artifact.key "pool/" ∧ artifact.key ∈ manifest.live_objects

/-- An object of the handoff against its artifact. -/
def check_object (expected : List Artifact) (file : String × ByteArray) : Except PyErr Unit :=
  match expected.find? (·.key = file.1) with
  | none => .error (.KeyError file.1)
  | some artifact =>
    if artifact.cache_class ≠ .immutable ∨ artifact.size ≠ file.2.size ∨ artifact.sha256 ≠ hexdigest file.2 then
      .error (.ValueError "live-pool object differs from its signed identity")
    else .ok ()

/-- `load_live_pool_handoff`. -/
def load_live_pool_handoff (pool : PoolExport) : Option AuthoritativeState → Except PyErr Unit
  | none =>
    if pool.present = true ∨ pool.object_count ≠ 0 ∨ pool.size ≠ 0 ∨ pool.files ≠ [] then
      .error (.ValueError "empty live-pool handoff has an unexpected boundary")
    else .ok ()
  | some state => do
    if ¬ pool.present = true then
      throw (.ValueError "live-pool handoff does not represent present state")
    if expected_pool state.manifest = [] then
      throw (.ValueError "present authoritative state has no live pool")
    if (pool.files.map (·.1)).toFinset ≠ ((expected_pool state.manifest).map (·.key)).toFinset then
      throw (.ValueError "live-pool handoff differs from its signed inventory")
    pool.files.forM (check_object hexdigest (expected_pool state.manifest))
    if pool.object_count ≠ pool.files.length ∨ pool.size ≠ (pool.files.map (·.2.size)).sum then
      throw (.ValueError "live-pool summary differs from its exact payload")

/-- `main` of `storage-export-pool.py`. -/
def export_pool (handoff : StateHandoff) : Cmd σ PoolExport := do
  let state ← load_authoritative_state_handoff hexdigest validate verify verify_signed handoff
  let pool ← write_pool hexdigest state
  load_live_pool_handoff hexdigest pool state
  return pool

end

/-! ## What a reader meets -/

/-- A reader's requests are answered by the store of the instant. -/
def Reads (o : Op) (i : Instant) (r : o.Res) (j : Instant) : Prop := Store.serve o i.store = (r, i.store) ∧ j = i

section
variable {σ α : Type} {R : Instant → Instant → Prop} {i : Instant} {st : σ} {Q : Except PyErr α → σ → Instant → Prop}

theorem reads_get {key : String} {f : Option StoredObject → Cmd σ α}
    (h : ∀ j, R i j → (f (j.store.get key)).wp Reads R (fun _ _ => True) Q st j) :
    (Cmd.get key >>= f).wp Reads R (fun _ _ => True) Q st i := by
  rw [Cmd.wp_bind]
  rintro j hj r j' ⟨hr, rfl⟩
  cases hr
  exact ⟨trivial, h j' hj⟩

theorem reads_list {under : String} {f : List (String × Nat) → Cmd σ α}
    (h : ∀ j, R i j → (f (j.store.listing under)).wp Reads R (fun _ _ => True) Q st j) :
    (Cmd.list_objects under >>= f).wp Reads R (fun _ _ => True) Q st i := by
  rw [Cmd.wp_bind]
  rintro j hj r j' ⟨hr, rfl⟩
  cases hr
  exact ⟨trivial, h j' hj⟩

/-- A reader that writes nothing is answered. -/
theorem reads_end {c : Cmd σ α} (h : Store.Only ∅ c) (hR : R i i) (st : σ) :
    ∃ tr r st', Conc.Trace Reads R (c st) i tr (.ret (r, st')) i := by
  have hanswered : ∀ o, Store.changesOnly ∅ o → ∃ r, Reads o i r i := by
    intro o ho
    cases o with
    | put key v c => exact absurd ho (Set.notMem_empty key)
    | delete key => exact absurd ho (Set.notMem_empty key)
    | _ => exact ⟨_, rfl, rfl⟩
  obtain ⟨tr, r, htr⟩ := Conc.trace_allOps hR hanswered (h st)
  exact ⟨tr, r.1, r.2, htr⟩

end

section
variable {hexdigest : ByteArray → String} {guess_type : String → Option String}
  {validate : String → Json → Except PyErr Unit} {verify : ByteArray → Except PyErr ByteArray}
  {verify_signed : ByteArray → ByteArray → Except PyErr Unit} {p : Publication} {s s' s₀ : Store} {i j k : Instant}
  {x : StoredObject}

/-- The signed state of a publication is written once. -/
theorem does_fixed (hsigned : Signed hexdigest guess_type validate verify verify_signed p) (h : Does validate verify p s s')
    {key : String} (hkey : derivedImmutable key = true) (hsome : s.get key ≠ none) : s'.get key = s.get key := by
  have himmutable : PublicationPlan.allowedImmutable key = true := by
    rw [allowedImmutable_eq, hkey, Bool.or_true]
  have hmutable : ∀ item : RepositoryObject, PublicationPlan.allowedImmutable item.relative_key = false →
      (s.write (entry item).1 (entry item).2).get key = s.get key := fun item hitem =>
    Conc.CondStore.get_write_ne _ _ fun heq => by
      rw [heq, show (entry item).1 = item.relative_key from rfl, hitem] at himmutable
      cases himmutable
  cases h with
  | lease hapart =>
    refine hapart key ?_
    rintro rfl
    exact absurd hkey (by decide)
  | @create item _ _ hnone =>
    refine Conc.CondStore.get_write_ne _ _ ?_
    rintro rfl
    exact hsome hnone
  | @replace item _ hitem _ _ => exact hmutable item hitem
  | @inrelease item _ hitem _ => exact hmutable item (hitem ▸ (CommitPoint.mutable (.inl rfl)).1)
  | @state item _ hitem _ _ _ => exact hmutable item (hitem ▸ (CommitPoint.mutable (.inr rfl)).1)
  | @delete key' hqueued _ _ _ _ =>
    refine Conc.CondStore.get_delete_ne _ ?_
    rintro rfl
    obtain ⟨files, sums, m, htree⟩ := hsigned
    -- tombstones are artifacts, and those are below other roots
    have hstate : startswith key "state/" = true := by
      rw [derivedImmutable, Bool.or_eq_true, startswith_iff, startswith_iff] at hkey
      rw [startswith_iff]
      rcases hkey with ⟨t, rfl⟩ | ⟨t, rfl⟩
      · exact ⟨"publications/" ++ t, by rw [← String.append_assoc]; rfl⟩
      · exact ⟨"transactions/" ++ t, by rw [← String.append_assoc]; rfl⟩
    exact Tree.not_rooted hstate (htree.queued key hqueued)

theorem going_fixed (hgoing : Going hexdigest guess_type validate verify verify_signed i)
    (h : History hexdigest guess_type validate verify verify_signed i j) {key : String} (hkey : derivedImmutable key = true)
    (hsome : i.store.get key ≠ none) : j.store.get key = i.store.get key :=
  (hgoing.keeps h (I := fun _ s => s.get key = i.store.get key) (fun _ _ _ _ hs => hs)
    (fun _ _ _ _ _ hsigned hdoes hs => (does_fixed hsigned hdoes hkey (hs ▸ hsome)).trans hs) rfl).2

/-- The stored state is that of a publication that is whole. -/
structure Shown (hexdigest : ByteArray → String) (guess_type : String → Option String)
    (validate : String → Json → Except PyErr Unit) (verify : ByteArray → Except PyErr ByteArray)
    (verify_signed : ByteArray → ByteArray → Except PyErr Unit) (k : Instant) (p : Publication) (x : StoredObject) : Prop where
  going : Going hexdigest guess_type validate verify verify_signed k
  attempt : p ∈ k.attempts
  stored : k.store.get PublicationPlan.STATE_KEY = some x
  body : x.value.body = p.desired_body
  expected : unexpected x "application/pgp-signature" MUTABLE_CACHE = false
  whole : Whole p k.store

theorem expected_of {value : StoredObject} {content_type cache_control : String}
    (htype : value.value.metadata.content_type = content_type) (hcache : value.value.metadata.cache_control = cache_control) :
    unexpected value content_type cache_control = false := by
  rw [unexpected, htype, hcache]
  simp

theorem Shown.signed (h : Shown hexdigest guess_type validate verify verify_signed k p x) :
    Signed hexdigest guess_type validate verify verify_signed p := h.going.signed p h.attempt

/-- Whatever is stored as the state is shown. -/
theorem shown (h : History hexdigest guess_type validate verify verify_signed (.begins s₀) k)
    (h₀ : ∀ key, CommitPoint key → s₀.get key = none) (hx : k.store.get PublicationPlan.STATE_KEY = some x) :
    ∃ p, Shown hexdigest guess_type validate verify verify_signed k p x := by
  obtain ⟨hgoing, hserved⟩ := served h h₀
  obtain ⟨p, hp, ⟨item, hitem, hkey, hpresent⟩, hwhole⟩ :=
    hserved _ (.inr rfl) (by rw [hx]; exact Option.some_ne_none x)
  have hsigned := hgoing.signed p hp
  have hbody := hsigned.state item hitem hkey
  rw [Present, entry, hkey, hx, Option.map_some, Option.some.injEq] at hpresent
  obtain ⟨files, sums, m, htree⟩ := hsigned
  obtain ⟨htype, hcache⟩ := htree.state_metadata hitem hkey
  refine ⟨p, hgoing, hp, hx, by rw [hpresent]; exact hbody, expected_of ?_ ?_, hwhole⟩
  · rw [hpresent]
    exact htype
  · rw [hpresent]
    exact hcache

/-- The signed state of what is shown is found later on. -/
theorem Shown.later (h : Shown hexdigest guess_type validate verify verify_signed k p x)
    (hj : History hexdigest guess_type validate verify verify_signed k j) {item : RepositoryObject} (hitem : item ∈ p.inventory)
    (hkey : derivedImmutable item.relative_key = true) : ∃ y, j.store.get item.relative_key = some y ∧
      y.value = ⟨item.contents, item.metadata⟩ := by
  have hallowed : PublicationPlan.allowedImmutable item.relative_key = true := by
    rw [allowedImmutable_eq, hkey, Bool.or_true]
  have hpresent := h.whole item hitem hallowed
  obtain ⟨y, hy, hvalue⟩ := Option.map_eq_some_iff.1 hpresent
  exact ⟨y, (going_fixed h.going hj hkey (present_some hpresent)).trans hy, hvalue⟩

/-! ## The state -/

section
variable {etag : Nat → String} {σ : Type} {st : σ} {handoff : StateHandoff}

/-- What others may do between two requests: a history goes on, or nothing at all. -/
structure Between (hexdigest : ByteArray → String) (guess_type : String → Option String)
    (validate : String → Json → Except PyErr Unit) (verify : ByteArray → Except PyErr ByteArray)
    (verify_signed : ByteArray → ByteArray → Except PyErr Unit) (R : Instant → Instant → Prop) : Prop where
  refl : ∀ i, R i i
  trans : ∀ i j k, R i j → R j k → R i k
  history : ∀ i j, R i j → History hexdigest guess_type validate verify verify_signed i j

theorem between_history : Between hexdigest guess_type validate verify verify_signed
    (History hexdigest guess_type validate verify verify_signed) where
  refl _ := .refl
  trans _ _ _ h h' := h.trans h'
  history _ _ h := h

theorem between_rest : Between hexdigest guess_type validate verify verify_signed Eq where
  refl _ := rfl
  trans _ _ _ h h' := h.trans h'
  history _ _ h := h ▸ .refl

/-- A handoff carries the state of a publication, and the measures of a listing. -/
def Carries (hexdigest : ByteArray → String) (validate : String → Json → Except PyErr Unit)
    (verify : ByteArray → Except PyErr ByteArray) (verify_signed : ByteArray → ByteArray → Except PyErr Unit)
    (storage_inventory : List (String × Nat)) (handoff : StateHandoff) (p : Publication) : Prop :=
  ∃ state : AuthoritativeState,
    load_authoritative_state_handoff hexdigest validate verify verify_signed handoff = .ok (some state) ∧
      state.pointer = p.desired ∧ state.manifest = p.desired_manifest ∧
      state.storage_object_count = storage_inventory.length ∧
      state.storage_size = Lifecycle.storage_size storage_inventory

theorem authoritative_state_ok {state : AuthoritativeStateFields} (hgeneration : state.pointer.generation = state.manifest.generation)
    (hid : state.pointer.publication_id = state.manifest.publication_id) (hetag : state.state_etag ≠ "")
    (hetag' : state.manifest_etag ≠ "") (hcount : 0 ≤ state.storage_object_count) (hsize : 0 ≤ state.storage_size) :
    ∃ s, authoritative_state state = .ok s ∧ s.toAuthoritativeStateFields = state := by
  have hvalid : state.post_init = .ok () := by
    rw [AuthoritativeStateFields.post_init]
    simp only [except_throw, except_error_bind, except_check_eq_ok]
    exact ⟨not_not.2 hgeneration, not_not.2 hid, by tauto, by omega, rfl⟩
  unfold authoritative_state
  split
  · next h => exact ⟨⟨state, h⟩, rfl, rfl⟩
  · next e h =>
    rw [hvalid] at h
    cases h

/-- **The pointer that was read does not dangle**, whatever is published meanwhile. -/
theorem read_present_wp {R : Instant → Instant → Prop} (hR : Between hexdigest guess_type validate verify verify_signed R)
    (hetag : ∀ n, etag n ≠ "")
    (h : Shown hexdigest guess_type validate verify verify_signed k p x) (storage_inventory : List (String × Nat)) :
    (read_present hexdigest validate verify verify_signed etag storage_inventory x : Cmd σ StateHandoff).wp Reads R
      (fun _ _ => True) (fun r _ j => R k j ∧
        ∃ handoff, r = .ok handoff ∧ Carries hexdigest validate verify verify_signed storage_inventory handoff p) st k := by
  obtain ⟨files, sums, m, htree⟩ := h.signed
  obtain ⟨payload, hpayload, hparse⟩ := htree.pointer
  obtain ⟨item, hitem, asc, hasc, ⟨hkey, hfixed, htype, hcache⟩, ⟨hkey', hfixed', htype', hcache'⟩, hhash, hverified, hread⟩ :=
    htree.manifest_items
  unfold read_present
  rw [if_neg (by rw [h.expected]; decide), h.body, hpayload, Cmd.wp_ok_bind, hparse, Cmd.wp_ok_bind]
  refine reads_get fun i hi => reads_get fun j hj => ?_
  obtain ⟨y, hy, hvalue⟩ := h.later (hR.history _ _ hi) hitem hfixed
  obtain ⟨z, hz, hvalue'⟩ := h.later (hR.history _ _ (hR.trans _ _ _ hi hj)) hasc hfixed'
  have hmetadata : unexpected y "application/json" IMMUTABLE_CACHE = false :=
    expected_of (by rw [hvalue]; exact htype) (by rw [hvalue]; exact hcache)
  have hmetadata' : unexpected z "application/pgp-signature" IMMUTABLE_CACHE = false :=
    expected_of (by rw [hvalue']; exact htype') (by rw [hvalue']; exact hcache')
  obtain ⟨state, hstate, hfields⟩ := @authoritative_state_ok ⟨p.desired, p.desired_manifest, etag x.etag, etag y.etag,
    storage_inventory.length, Lifecycle.storage_size storage_inventory⟩ htree.agrees.1 htree.agrees.2 (hetag _) (hetag _)
    (Int.natCast_nonneg _) (Int.natCast_nonneg _)
  rw [hkey] at hy
  rw [hkey'] at hz
  rw [hy, hz]
  dsimp only
  rw [if_neg (by rw [hmetadata]; decide), if_neg (by rw [hmetadata']; decide), hvalue, hvalue', if_neg (not_not.2 hhash), hverified,
    Cmd.wp_ok_bind, hread, Cmd.wp_ok_bind, hstate, Cmd.wp_ok_bind]
  refine ⟨hR.trans _ _ _ hi hj, _, rfl, state, ?_, by rw [hfields], by rw [hfields], by rw [hfields], by rw [hfields]⟩
  rw [load_authoritative_state_handoff, hpayload, except_ok_bind, if_neg (not_not.2 rfl), hverified, except_ok_bind, hparse,
    except_ok_bind, if_neg (not_not.2 hhash), hread, except_ok_bind, hstate, except_ok_bind]
  rfl

/-- What a handoff says of the store of one instant, after a listing. -/
def Tells (hexdigest : ByteArray → String) (validate : String → Json → Except PyErr Unit)
    (verify : ByteArray → Except PyErr ByteArray) (verify_signed : ByteArray → ByteArray → Except PyErr Unit)
    (storage_inventory : List (String × Nat)) (handoff : StateHandoff) (k : Instant) : Prop :=
  (k.store.get PublicationPlan.STATE_KEY = none ∧
      load_authoritative_state_handoff hexdigest validate verify verify_signed handoff = .ok none) ∨
    ∃ p ∈ k.attempts, stored_pointer validate verify k.store = some p.desired ∧ Whole p k.store ∧
      Carries hexdigest validate verify verify_signed storage_inventory handoff p

theorem Shown.stored_pointer (h : Shown hexdigest guess_type validate verify verify_signed k p x) :
    stored_pointer validate verify k.store = some p.desired := by
  obtain ⟨files, sums, m, htree⟩ := h.signed
  obtain ⟨payload, hpayload, hparse⟩ := htree.pointer
  exact stored_pointer_some h.stored (h.body ▸ hpayload) hparse

theorem read_state_wp {R : Instant → Instant → Prop} (hR : Between hexdigest guess_type validate verify verify_signed R)
    (hetag : ∀ n, etag n ≠ "")
    (h : History hexdigest guess_type validate verify verify_signed (.begins s₀) i)
    (h₀ : ∀ key, CommitPoint key → s₀.get key = none) :
    (read_state hexdigest validate verify verify_signed etag : Cmd σ StateHandoff).wp Reads R (fun _ _ => True)
      (fun r _ l => ∃ j k handoff, R i j ∧ R j k ∧ R k l ∧ r = .ok handoff ∧
        Tells hexdigest validate verify verify_signed (j.store.listing "") handoff k) st i := by
  unfold read_state
  refine reads_list fun j hj => ?_
  rw [Cmd.wp_bind]
  -- the handoff is that of the instant of the second request
  refine Cmd.wp_mono (reads_get (Q := fun r _ l => ∃ k handoff, R j k ∧ R k l ∧ r = .ok handoff ∧
    Tells hexdigest validate verify verify_signed (j.store.listing "") handoff k) fun k hk => ?_) fun r st l hr => ?_
  · cases hx : k.store.get PublicationPlan.STATE_KEY with
    | none => exact ⟨k, _, hk, hR.refl k, rfl, .inl ⟨hx, rfl⟩⟩
    | some x =>
      obtain ⟨p, hshown⟩ := shown (h.trans (hR.history _ _ (hR.trans _ _ _ hj hk))) h₀ hx
      refine Cmd.wp_mono (read_present_wp hR hetag hshown _) fun r st l hr => ?_
      obtain ⟨hkl, handoff, hr, hcarries⟩ := hr
      exact ⟨k, handoff, hk, hkl, hr, .inr ⟨p, hshown.attempt, hshown.stored_pointer, hshown.whole, hcarries⟩⟩
  · obtain ⟨k, handoff, hjk, hkl, rfl, htells⟩ := hr
    obtain ⟨state, hload⟩ :
        ∃ state, load_authoritative_state_handoff hexdigest validate verify verify_signed handoff = .ok state := by
      rcases htells with ⟨-, hload⟩ | ⟨p, -, -, -, state, hload, -⟩
      · exact ⟨_, hload⟩
      · exact ⟨_, hload⟩
    rw [Cmd.after_ok, hload, Cmd.wp_ok_bind]
    exact ⟨j, k, handoff, hj, hjk, hkl, rfl, htells⟩

theorem only_unless {α : Type} {c : Prop} [Decidable c] {e : PyErr} {f : Cmd σ α} (h : Store.Only ∅ f) :
    Store.Only ∅ (if c then throw e else f) := by
  split
  · exact Store.only_throw
  · exact h

/-- A reader writes nothing. -/
theorem only_read_state : Store.Only ∅ (read_state hexdigest validate verify verify_signed etag : Cmd σ StateHandoff) := by
  refine Store.only_bind Store.only_list fun inventory => Store.only_bind (Store.only_bind Store.only_get fun current => ?_)
    fun handoff => Store.only_bind Store.only_lift fun _ => Store.only_pure
  cases current with
  | none => exact Store.only_pure
  | some current =>
    refine only_unless (Store.only_bind Store.only_lift fun payload => Store.only_bind Store.only_lift fun pointer =>
      Store.only_bind Store.only_get fun manifest_object => Store.only_bind Store.only_get fun signature_object => ?_)
    cases manifest_object with
    | none => exact Store.only_throw
    | some manifest_object =>
      cases signature_object with
      | none => exact Store.only_throw
      | some signature_object =>
        exact only_unless (only_unless (only_unless (Store.only_bind Store.only_lift fun _ =>
          Store.only_bind Store.only_lift fun _ => Store.only_bind Store.only_lift fun _ => Store.only_pure)))

/-- The bytes of an exported file are those that are stored. -/
def Exported (s : Store) (files : List (String × ByteArray)) (keys : List String) : Prop :=
  files.map (·.1) = keys ∧ ∀ file ∈ files, ∃ x, s.get file.1 = some x ∧ x.value.body = file.2

/-- What a client may download may be exported. -/
theorem export_objects_wp {manifest : PublicationManifest} (hp : p.desired_manifest = manifest)
    (hsigned : Signed hexdigest guess_type validate verify verify_signed p) (hdownloads : Downloads hexdigest p i.store) :
    ∀ keys : List String, (∀ key ∈ keys, startswith key "pool/" = true ∧ key ∈ manifest.live_objects) →
      (export_objects hexdigest manifest.artifacts keys : Cmd σ _).wp Reads Eq (fun _ _ => True)
        (fun r _ j => j = i ∧ ∃ files, r = .ok files ∧ Exported i.store files keys) st i
  | [], _ => ⟨rfl, [], rfl, rfl, fun _ h => absurd h List.not_mem_nil⟩
  | key :: keys, hkeys => by
    subst hp
    obtain ⟨⟨hpool, hlive⟩, hkeys⟩ := List.forall_mem_cons.1 hkeys
    have himmutable : SignedRepository.isImmutable key = true := by rw [SignedRepository.isImmutable, hpool, Bool.true_or]
    obtain ⟨b, hb, hbkey⟩ := List.mem_map.1 (p.desired_manifest.keys_checked.2.2.1 key hlive)
    obtain ⟨a, hfind⟩ : ∃ a, p.desired_manifest.artifacts.find? (·.key = key) = some a :=
      Option.isSome_iff_exists.1 (List.find?_isSome.2 ⟨b, hb, by simpa using hbkey⟩)
    have hakey : a.key = key := by simpa using List.find?_some hfind
    have hmem := List.mem_of_find?_eq_some hfind
    obtain ⟨x, hx, hdigest, hsize, htype, hcache⟩ := hdownloads a hmem (hakey ▸ hlive) (hakey ▸ himmutable)
    have hclass : a.cache_class = .immutable := by
      obtain ⟨files, sums, m, htree⟩ := hsigned
      exact (htree.artifacts.2.2 a (htree.artifacts.1 ▸ hmem)).cache_class.trans (if_pos (hakey ▸ himmutable))
    rw [export_objects, export_object, hfind]
    dsimp only
    rw [if_neg (not_not.2 hclass), Cmd.wp_bind]
    refine reads_get fun j hj => ?_
    subst hj
    rw [← hakey, hx]
    dsimp only
    rw [if_neg (by rw [expected_of htype hcache]; simp [hsize, hdigest]), Cmd.wp_pure, Cmd.after_ok, Cmd.wp_bind]
    refine Cmd.wp_mono (export_objects_wp rfl hsigned hdownloads keys hkeys) fun r st' j hr => ?_
    obtain ⟨rfl, files, rfl, hexported⟩ := hr
    refine ⟨rfl, _, rfl, ?_, List.forall_mem_cons.2 ⟨⟨x, hx, rfl⟩, hexported.2⟩⟩
    rw [List.map_cons, hexported.1]

theorem mem_pool_keys {manifest : PublicationManifest} {key : String} :
    key ∈ pool_keys manifest ↔ startswith key "pool/" = true ∧ key ∈ manifest.live_objects := by
  rw [pool_keys, List.mem_insertionSort, List.mem_filter, and_comm]

/-- The live keys of the pool are those of the artifacts that are expected. -/
theorem mem_expected_keys {manifest : PublicationManifest} {key : String} :
    key ∈ (expected_pool manifest).map (·.key) ↔ key ∈ pool_keys manifest := by
  rw [mem_pool_keys, List.mem_map]
  constructor
  · rintro ⟨a, ha, rfl⟩
    simpa using (List.mem_filter.1 ha).2
  · rintro ⟨hpool, hlive⟩
    obtain ⟨a, ha, rfl⟩ := List.mem_map.1 (manifest.keys_checked.2.2.1 key hlive)
    exact ⟨a, List.mem_filter.2 ⟨ha, by simpa using ⟨hpool, hlive⟩⟩, rfl⟩

/-- What is expected and was exported has the size and the hash of its artifact. -/
theorem Exported.artifact {s : Store} {files : List (String × ByteArray)} {keys : List String} (h : Exported s files keys)
    (hsigned : Signed hexdigest guess_type validate verify verify_signed p) (hdownloads : Downloads hexdigest p s)
    {a : Artifact} (ha : a ∈ expected_pool p.desired_manifest) {file : String × ByteArray} (hfile : file ∈ files)
    (hkey : a.key = file.1) : a.cache_class = .immutable ∧ hexdigest file.2 = a.sha256 ∧ (file.2.size : Int) = a.size := by
  obtain ⟨hmem, hlive⟩ := List.mem_filter.1 ha
  obtain ⟨hpool, hlive⟩ : startswith a.key "pool/" = true ∧ a.key ∈ p.desired_manifest.live_objects := by simpa using hlive
  have himmutable : SignedRepository.isImmutable a.key = true := by rw [SignedRepository.isImmutable, hpool, Bool.true_or]
  obtain ⟨x, hx, hdigest, hsize, -, -⟩ := hdownloads a hmem hlive himmutable
  obtain ⟨y, hy, hbody⟩ := h.2 file hfile
  obtain rfl : x = y := Option.some.inj (hx.symm.trans (hkey ▸ hy))
  obtain ⟨_, _, m, htree⟩ := hsigned
  exact ⟨(htree.artifacts.2.2 a (htree.artifacts.1 ▸ hmem)).cache_class.trans (if_pos himmutable), hbody ▸ hdigest, hbody ▸ hsize⟩

/-- What was exported is accepted when it is read back. -/
theorem load_exported {s : Store} {files : List (String × ByteArray)} {state : AuthoritativeState}
    (hmanifest : state.manifest = p.desired_manifest)
    (hsigned : Signed hexdigest guess_type validate verify verify_signed p) (hdownloads : Downloads hexdigest p s)
    (h : Exported s files (pool_keys p.desired_manifest)) (hne : pool_keys p.desired_manifest ≠ []) :
    load_live_pool_handoff hexdigest ⟨true, files.length, (files.map (·.2.size)).sum, files⟩ (some state) = .ok () := by
  have hexpected : expected_pool p.desired_manifest ≠ [] := by
    obtain ⟨key, hkey⟩ := List.exists_mem_of_ne_nil _ hne
    obtain ⟨a, ha, -⟩ := List.mem_map.1 (mem_expected_keys.2 hkey)
    exact List.ne_nil_of_mem ha
  have hkeys : (files.map (·.1)).toFinset = ((expected_pool p.desired_manifest).map (·.key)).toFinset := by
    ext key
    rw [List.mem_toFinset, List.mem_toFinset, mem_expected_keys, h.1]
  have hobjects : files.forM (check_object hexdigest (expected_pool p.desired_manifest)) = .ok () := by
    refine except_forM_ok_iff.2 fun file hfile => ?_
    obtain ⟨b, hb, hbkey⟩ := List.mem_map.1 (mem_expected_keys.2 (h.1 ▸ List.mem_map_of_mem hfile))
    obtain ⟨a, hfind⟩ : ∃ a, (expected_pool p.desired_manifest).find? (·.key = file.1) = some a :=
      Option.isSome_iff_exists.1 (List.find?_isSome.2 ⟨b, hb, by simpa using hbkey⟩)
    obtain ⟨hclass, hdigest, hsize⟩ :=
      h.artifact hsigned hdownloads (List.mem_of_find?_eq_some hfind) hfile (by simpa using List.find?_some hfind)
    rw [check_object, hfind]
    exact if_neg (by simp [hclass, hdigest, hsize])
  rw [load_live_pool_handoff, if_neg (by simp), hmanifest, if_neg hexpected, if_neg (not_not.2 hkeys), hobjects, except_ok_bind,
    if_neg (by simp)]
  rfl

/-- What the export of a publication's pool ends with. -/
def Ends (hexdigest : ByteArray → String) (p : Publication) (s : Store) (r : Except PyErr PoolExport) : Prop :=
  if pool_keys p.desired_manifest = [] then r = .error (.ValueError "present authoritative state has no live pool")
  else ∃ files, r = .ok ⟨true, files.length, (files.map (·.2.size)).sum, files⟩ ∧
    Exported s files (pool_keys p.desired_manifest) ∧
    ∀ a ∈ expected_pool p.desired_manifest, ∃ file ∈ files, a.key = file.1 ∧ hexdigest file.2 = a.sha256 ∧
      (file.2.size : Int) = a.size

theorem export_pool_wp {storage_inventory : List (String × Nat)}
    (hcarries : Carries hexdigest validate verify verify_signed storage_inventory handoff p)
    (hsigned : Signed hexdigest guess_type validate verify verify_signed p) (hdownloads : Downloads hexdigest p i.store) :
    (export_pool hexdigest validate verify verify_signed handoff : Cmd σ PoolExport).wp Reads Eq (fun _ _ => True)
      (fun r _ j => j = i ∧ Ends hexdigest p i.store r) st i := by
  obtain ⟨state, hload, -, hmanifest, -⟩ := hcarries
  rw [export_pool, hload, Cmd.wp_ok_bind, write_pool, Cmd.wp_bind]
  by_cases hkeys : pool_keys state.manifest = []
  · rw [if_pos hkeys]
    refine ⟨rfl, ?_⟩
    rw [Ends, if_pos (hmanifest ▸ hkeys)]
  rw [if_neg hkeys, Cmd.wp_bind]
  refine Cmd.wp_mono (export_objects_wp hmanifest.symm hsigned hdownloads _ fun key hkey => mem_pool_keys.1 hkey)
    fun r st' j hr => ?_
  obtain ⟨rfl, files, rfl, hexported⟩ := hr
  rw [hmanifest] at hkeys hexported
  rw [Cmd.after_ok, Cmd.wp_pure, Cmd.after_ok, load_exported hmanifest hsigned hdownloads hexported hkeys, Cmd.wp_ok_bind]
  refine ⟨rfl, ?_⟩
  rw [Ends, if_neg hkeys]
  refine ⟨files, rfl, hexported, fun a ha => ?_⟩
  obtain ⟨file, hfile, hkey⟩ := List.mem_map.1
    (hexported.1.symm ▸ mem_expected_keys.1 (List.mem_map_of_mem ha) : a.key ∈ files.map (·.1))
  obtain ⟨-, hdigest, hsize⟩ := hexported.artifact hsigned hdownloads ha hfile hkey.symm
  exact ⟨file, hfile, hkey.symm, hdigest, hsize⟩

theorem read_export_wp (hetag : ∀ n, etag n ≠ "")
    (h : History hexdigest guess_type validate verify verify_signed (.begins s₀) i)
    (h₀ : ∀ key, CommitPoint key → s₀.get key = none) :
    (do
      let handoff ← read_state hexdigest validate verify verify_signed etag
      export_pool hexdigest validate verify verify_signed handoff : Cmd σ PoolExport).wp Reads Eq (fun _ _ => True)
      (fun r _ _ => i.store.get PublicationPlan.STATE_KEY = none ∧ r = .ok ⟨false, 0, 0, []⟩ ∨
        ∃ p ∈ i.attempts, stored_pointer validate verify i.store = some p.desired ∧ Ends hexdigest p i.store r) st i := by
  obtain ⟨hgoing, -⟩ := served h h₀
  rw [Cmd.wp_bind]
  refine Cmd.wp_mono (read_state_wp between_rest hetag h h₀) fun r st l hr => ?_
  obtain ⟨k, _, handoff, rfl, rfl, rfl, rfl, ⟨hnone, hload⟩ | ⟨p, hp, hstored, hwhole, hcarries⟩⟩ := hr
  · rw [Cmd.after_ok, export_pool, hload, Cmd.wp_ok_bind]
    exact .inl ⟨hnone, rfl⟩
  · have hsigned := hgoing.signed p hp
    rw [Cmd.after_ok]
    refine Cmd.wp_mono (export_pool_wp hcarries hsigned (hsigned.downloads hwhole)) fun r st j hr => ?_
    exact .inr ⟨p, hp, hstored, hr.2⟩

theorem only_export_objects (artifacts : List Artifact) : ∀ keys : List String,
    Store.Only ∅ (export_objects hexdigest artifacts keys : Cmd σ _)
  | [] => Store.only_pure
  | key :: keys => by
    refine Store.only_bind ?_ fun file => Store.only_bind (only_export_objects artifacts keys) fun _ => Store.only_pure
    unfold export_object
    cases artifacts.find? (·.key = key) with
    | none => exact Store.only_throw
    | some artifact =>
      refine only_unless (Store.only_bind Store.only_get fun remote => ?_)
      cases remote with
      | none => exact Store.only_throw
      | some remote => exact only_unless Store.only_pure

theorem only_export_pool {handoff : StateHandoff} :
    Store.Only ∅ (export_pool hexdigest validate verify verify_signed handoff : Cmd σ PoolExport) := by
  refine Store.only_bind Store.only_lift fun state => Store.only_bind ?_ fun pool =>
    Store.only_bind Store.only_lift fun _ => Store.only_pure
  cases state with
  | none => exact Store.only_pure
  | some state =>
    exact only_unless (Store.only_bind (only_export_objects _ _) fun _ => Store.only_pure)

end

end

end StateRead
