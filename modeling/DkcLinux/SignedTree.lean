import DkcLinux.StoragePublish
import DkcLinux.StorageRepository
import DkcLinux.Tombstones

/-!
# A signed repository (`scripts/in-container/build-signed-repository.py:1033-1360`, `dkc/storage_repository.py`)

`Tree p` is where a publication comes from: `assemble` wrote the artifacts, `sign_handoff` wrote the manifest twice,
`load_verified_repository` accepted the tree, and `desired_pointer` read it.

| file                           | contents                   | metadata                       |
|--------------------------------|----------------------------|--------------------------------|
| of an artifact                 | those of its digest        | its media type and its class   |
| `state/current.asc`            | the signed pointer         | a signature, mutable           |
| the `manifest_key` of a pointer| the manifest               | JSON, immutable                |
| its `.asc`                     | the signature              | a signature, immutable         |
-/

open Py Records

namespace StoragePublish

section
variable (hexdigest : ByteArray → String) (guess_type : String → Option String)
  (validate : String → Json → Except PyErr Unit) (verify : ByteArray → Except PyErr ByteArray)
  (verify_signed : ByteArray → ByteArray → Except PyErr Unit)

/-- A manifest that was assembled and signed: from nothing, or from what is read of a signed one. -/
inductive Assembled : PublicationManifest → Prop
  | first {generation root request inrelease release_signature rest m} :
      SignedRepository.assemble hexdigest guess_type none generation root = .ok request →
      SignedRepository.sign_handoff hexdigest guess_type request inrelease release_signature rest = .ok m → Assembled m
  | next {previous generation root request inrelease release_signature rest m} : Assembled previous →
      SignedRepository.assemble hexdigest guess_type (some previous.read) generation root = .ok request →
      SignedRepository.sign_handoff hexdigest guess_type request inrelease release_signature rest = .ok m → Assembled m

/-- The `StatePointer` of `sign_handoff`; manifest and pointer are dated alike. -/
def signed_pointer (m : PublicationManifest) (manifest_sha256 : String) : Except PyErr StatePointer :=
  StatePointer.make {
    generation := m.generation
    publication_id := m.publication_id
    manifest_key := "state/publications/" ++ m.publication_id ++ "/manifest.json"
    manifest_sha256 := manifest_sha256
    committed_utc := m.created_utc
    previous_generation := if m.generation ≠ 0 then some (m.generation - 1) else none }

theorem signed_pointer_ok {m : PublicationManifest} {manifest_sha256 : String} {pointer : StatePointer}
    (h : signed_pointer m manifest_sha256 = .ok pointer) : pointer.generation = m.generation ∧
      pointer.publication_id = m.publication_id ∧ pointer.manifest_sha256 = manifest_sha256 ∧
      pointer.manifest_key = "state/publications/" ++ m.publication_id ++ "/manifest.json" := by
  unfold signed_pointer StatePointer.make at h
  split at h
  · cases h
    exact ⟨rfl, rfl, rfl, rfl⟩
  · cases h

/-- `files` is the tree below `repository`, and `sums` its `SHA256SUMS`. -/
structure Tree (p : Publication) (files : Dict ByteArray) (sums : Dict String) (m : PublicationManifest) : Prop where
  assembled : Assembled hexdigest guess_type m
  manifest : ∃ body, Serialize.canonical_bytes m.to_dict = .ok body ∧ signed_pointer m (hexdigest body) = .ok p.desired ∧
    files.get? p.desired.manifest_key = some body
  loaded : StorageRepository.inventoryOf hexdigest guess_type files sums
    (m.artifacts.map StorageRepository.RawArtifact.ofArtifact) = .ok p.inventory
  desired : desired_pointer hexdigest validate verify verify_signed files = .ok (p.desired, p.desired_manifest)
  desired_body : files.get? PublicationPlan.STATE_KEY = some p.desired_body

/-- A publication of a signed repository. -/
def Signed (p : Publication) : Prop :=
  ∃ files sums m, Tree hexdigest guess_type validate verify verify_signed p files sums m

end

/-! ## The artifacts -/

section
variable {hexdigest : ByteArray → String} {guess_type : String → Option String}

open SignedRepository

/-- A key below one of the trees of artifacts. -/
def Rooted (key : String) : Prop :=
  startswith key "pool/" = true ∨ startswith key "dists/" = true ∨ startswith key "keys/" = true

/-- The entries of a repository are below its three trees. -/
theorem entries_root {root : SignedRepository.Root} {x : String × PathEntry} (h : x ∈ root.entries) : Rooted x.1 := by
  obtain ⟨top, htop, hx⟩ := List.mem_flatMap.1 h
  obtain ⟨y, -, rfl⟩ := List.mem_map.1 hx
  simp only [Rooted, startswith_iff]
  simp only [List.mem_cons, List.not_mem_nil, or_false] at htop
  rcases htop with rfl | rfl | rfl
  · exact .inl ⟨y.1, rfl⟩
  · exact .inr (.inl ⟨y.1, rfl⟩)
  · exact .inr (.inr ⟨y.1, rfl⟩)

theorem artifact_for_classes {key : String} {contents : ByteArray} {a : Artifact}
    (h : artifact_for hexdigest guess_type key contents = .ok a)
    (hroot : Rooted key) : StorageRepository.ArtifactFor a := by
  have ha := Artifact.make_ok h
  constructor
  · rw [ha]
    rfl
  · rw [ha]
    exact hroot

/-- What the loop of `assemble` queues is an artifact of the predecessor. -/
theorem retire_mem {previous : PublicationManifest} {current_keys : List String} : ∀ {artifacts : List Artifact}
    {gc_queue result : List GcQueueEntry}, artifacts.foldlM (retire previous current_keys) gc_queue = .ok result →
      ∀ e ∈ result, e ∈ gc_queue ∨ ∃ a ∈ artifacts, e.key = a.key
  | [], gc_queue, result, h => by
    cases h
    exact fun e he => .inl he
  | a :: artifacts, gc_queue, result, h => by
    rw [List.foldlM_cons] at h
    obtain ⟨next, hnext, h⟩ := except_bind_eq_ok.1 h
    have hone : ∀ e ∈ next, e ∈ gc_queue ∨ e.key = a.key := by
      unfold retire at hnext
      split at hnext
      · obtain ⟨entry, hentry, hnext⟩ := except_bind_eq_ok.1 hnext
        cases hnext
        refine List.forall_mem_append.2 ⟨fun e he => .inl he, List.forall_mem_singleton.2 (.inr ?_)⟩
        rw [GcQueueEntry.make_ok hentry]
      · cases hnext
        exact fun e he => .inl he
    intro e he
    rcases retire_mem h e he with hmem | ⟨b, hb, heq⟩
    · exact (hone e hmem).imp_right fun heq => ⟨a, List.mem_cons_self, heq⟩
    · exact .inr ⟨b, List.mem_cons_of_mem _ hb, heq⟩

/-- What `assemble` writes down, whatever the predecessor. -/
theorem assemble_records {previous : Option PublicationManifest} {generation : Int} {root : SignedRepository.Root}
    {request : SignedRepository.Request} (h : assemble hexdigest guess_type previous generation root = .ok request) :
    ∃ (artifacts : List Artifact) (gc_queue : List GcQueueEntry),
      repository_artifact_records hexdigest guess_type root = .ok artifacts ∧
      tombstones previous (artifacts.map (·.key)) = .ok gc_queue ∧
      request.artifacts = (Json.arr (artifacts.map fun a => .obj (Artifact.asdict a.toArtifactFields))).wire ∧
      request.gc_queue = (Json.arr (gc_queue.map fun e => .obj (GcQueueEntry.asdict e.toGcQueueEntryFields))).wire := by
  obtain ⟨_, -, h⟩ := except_bind_eq_ok.1 h
  obtain ⟨artifacts, hartifacts, h⟩ := except_bind_eq_ok.1 h
  obtain ⟨gc_queue, hqueue, h⟩ := except_bind_eq_ok.1 h
  cases h
  exact ⟨artifacts, gc_queue, uncaught_eq_ok.1 hartifacts, hqueue, rfl, rfl⟩

/-- What is queued was an artifact once. -/
theorem tombstones_rooted {previous : Option PublicationManifest} {current_keys : List String} {gc_queue : List GcQueueEntry}
    (hprevious : ∀ m ∈ previous, (∀ a ∈ m.artifacts, Rooted a.key) ∧ ∀ e ∈ m.gc_queue, Rooted e.key)
    (h : tombstones previous current_keys = .ok gc_queue) : ∀ e ∈ gc_queue, Rooted e.key := by
  cases previous with
  | none =>
    rw [tombstones, except_check_eq_ok] at h
    cases h.2
    exact fun e he => absurd he List.not_mem_nil
  | some m =>
    rw [tombstones, except_check_eq_ok] at h
    obtain ⟨hartifacts, hqueue⟩ := hprevious m rfl
    intro e he
    rcases retire_mem (uncaught_eq_ok.1 h.2) e he with hmem | ⟨a, ha, heq⟩
    · exact hqueue e hmem
    · exact heq ▸ hartifacts a ha

/-- The parts of a signed manifest. -/
structure Parts (m : PublicationManifest) : Prop where
  live : m.live_objects = m.artifacts.map (·.key)
  artifacts : ∀ a ∈ m.artifacts, StorageRepository.ArtifactFor a
  queued : ∀ e ∈ m.gc_queue, Rooted e.key

theorem sign_parts {previous : Option PublicationManifest} {generation : Int} {root : SignedRepository.Root}
    {request : SignedRepository.Request} {inrelease release_signature : ByteArray} {rest : PublicationManifestFields}
    {m : PublicationManifest}
    (hprevious : ∀ m ∈ previous, (∀ a ∈ m.artifacts, Rooted a.key) ∧ ∀ e ∈ m.gc_queue, Rooted e.key)
    (hassemble : assemble hexdigest guess_type previous generation root = .ok request)
    (hsign : sign_handoff hexdigest guess_type request inrelease release_signature rest = .ok m) : Parts m := by
  obtain ⟨artifacts, gc_queue, hrecords, htombstones, hartifacts, hqueue⟩ := assemble_records hassemble
  obtain ⟨a, b, ha, hb, hall, hlive, hqueued⟩ := sign_handoff_ok hartifacts hqueue hsign
  refine ⟨hlive, ?_, hqueued ▸ tombstones_rooted hprevious htombstones⟩
  rw [hall]
  refine List.forall_mem_append.2 ⟨fun x hx => ?_, List.forall_mem_cons.2 ⟨?_, List.forall_mem_singleton.2 ?_⟩⟩
  · obtain ⟨key, contents, hmem, hx⟩ := repository_records hrecords x hx
    exact artifact_for_classes hx (entries_root hmem)
  · exact artifact_for_classes ha (.inr (.inl (by decide)))
  · exact artifact_for_classes hb (.inr (.inl (by decide)))

theorem Assembled.parts {m : PublicationManifest} (h : Assembled hexdigest guess_type m) : Parts m := by
  induction h with
  | first hassemble hsign => exact sign_parts (fun m hm => by cases hm) hassemble hsign
  | next _ hassemble hsign ih =>
    refine sign_parts (fun m hm => ?_) hassemble hsign
    cases hm
    exact ⟨fun a ha => (ih.artifacts a ha).root, ih.queued⟩

end

/-! ## The inventory -/

namespace Inventory

section
variable {digest : ByteArray → String} {guess_type : String → Option String} {files : Dict ByteArray}
  {sums : Dict String} {artifacts : List StorageRepository.RawArtifact} {inventory : List RepositoryObject}

open StorageRepository

/-- An inventory has one object for every file. -/
theorem contents (h : inventoryOf digest guess_type files sums artifacts = .ok inventory) :
    (∀ item ∈ inventory, files.get? item.relative_key = some item.contents) ∧
      ∀ key body, files.get? key = some body → ∃ item ∈ inventory, item.relative_key = key ∧ item.contents = body := by
  simp only [inventoryOf, except_throw, except_error_bind] at h
  obtain ⟨d, -, h⟩ := except_bind_eq_ok.1 h
  rw [except_check_eq_ok] at h
  obtain ⟨hall, honly⟩ := except_mapM_mem h.2
  constructor
  · intro item hitem
    obtain ⟨x, hx, hobject⟩ := honly item hitem
    obtain ⟨hkey, hcontents, -⟩ := objectOf_ok hobject
    rw [hkey, hcontents]
    exact Dict.mem_items.1 (mem_sortedItems.1 hx)
  · intro key body hget
    obtain ⟨item, hitem, hobject⟩ := hall (key, body) (mem_sortedItems.2 (Dict.mem_items.2 hget))
    obtain ⟨hkey, hcontents, -⟩ := objectOf_ok hobject
    exact ⟨item, hitem, hkey, hcontents⟩

/-- The size of an artifact is that of its file. -/
theorem artifact_size (h : inventoryOf digest guess_type files sums artifacts = .ok inventory) :
    ∀ raw ∈ artifacts, (files.get? raw.key).map (fun body => (body.size : Int)) = some raw.size := by
  simp only [inventoryOf, except_throw, except_error_bind] at h
  obtain ⟨d, hd, -⟩ := except_bind_eq_ok.1 h
  obtain ⟨-, hleft, -⟩ := addMetadata_foldlM hd
  intro raw hraw
  obtain ⟨x, -, hx⟩ := hleft raw hraw
  exact hx.size

/-- The metadata of an object that is no artifact. -/
theorem derived (h : inventoryOf digest guess_type files sums artifacts = .ok inventory) {item : RepositoryObject}
    (hitem : item ∈ inventory) (hnot : ∀ raw ∈ artifacts, raw.key ≠ item.relative_key) :
    derived_metadata guess_type item.relative_key = .ok item.metadata := by
  simp only [inventoryOf, except_throw, except_error_bind] at h
  obtain ⟨d, hd, h⟩ := except_bind_eq_ok.1 h
  obtain ⟨-, -, hright⟩ := addMetadata_foldlM hd
  rw [except_check_eq_ok] at h
  obtain ⟨-, honly⟩ := except_mapM_mem h.2
  obtain ⟨x, -, hobject⟩ := honly item hitem
  have hkey := (objectOf_ok hobject).1
  have hnone : d.get? x.1 = none := by
    rw [Dict.get?_eq_none]
    intro hmem
    obtain ⟨m, hm⟩ := Dict.mem_keys.1 hmem
    rcases hright _ (Dict.mem_items.2 hm) with hstart | ⟨raw, hraw, hx⟩
    · cases hstart
    · exact hnot raw hraw (hx.key.symm.trans hkey.symm)
  simp only [objectOf, except_throw, except_error_bind, except_check_eq_ok] at hobject
  obtain ⟨-, hobject⟩ := hobject
  obtain ⟨m, hm, hobject⟩ := except_bind_eq_ok.1 hobject
  cases hobject
  rw [hnone]
  exact hm

end

end Inventory

/-! ## The pointer and its manifest -/

section
variable {hexdigest : ByteArray → String} {guess_type : String → Option String}
  {validate : String → Json → Except PyErr Unit} {verify : ByteArray → Except PyErr ByteArray}
  {verify_signed : ByteArray → ByteArray → Except PyErr Unit} {p : Publication} {files : Dict ByteArray}
  {sums : Dict String} {m : PublicationManifest}

theorem signed_file_ok {key : String} {body : ByteArray} (h : signed_file files key = .ok body) :
    files.get? key = some body := by
  unfold signed_file at h
  split at h
  · next hget =>
    cases h
    exact hget
  · cases h

/-- What `desired_pointer` has found. -/
structure Desired (hexdigest : ByteArray → String) (validate : String → Json → Except PyErr Unit)
    (verify : ByteArray → Except PyErr ByteArray) (verify_signed : ByteArray → ByteArray → Except PyErr Unit)
    (files : Dict ByteArray) (observed : StatePointer) (read : PublicationManifest) : Prop where
  pointer : ∃ body payload, files.get? PublicationPlan.STATE_KEY = some body ∧ verify body = .ok payload ∧
    State.parse_state_pointer validate payload = .ok observed
  manifest : ∃ body signature, files.get? observed.manifest_key = some body ∧
    files.get? (observed.manifest_key ++ ".asc") = some signature ∧ hexdigest body = observed.manifest_sha256 ∧
    verify_signed signature body = .ok () ∧ State.parse_manifest validate body = .ok read
  inrelease : ∃ body, files.get? PublicationPlan.INRELEASE_KEY = some body

theorem desired_pointer_ok {pointer : StatePointer} {manifest : PublicationManifest}
    (h : desired_pointer hexdigest validate verify verify_signed files = .ok (pointer, manifest)) :
    Desired hexdigest validate verify verify_signed files pointer manifest := by
  unfold desired_pointer at h
  obtain ⟨body, hbody, h⟩ := except_bind_eq_ok.1 h
  obtain ⟨payload, hpayload, h⟩ := except_bind_eq_ok.1 h
  obtain ⟨observed, hobserved, h⟩ := except_bind_eq_ok.1 h
  cases hmanifest : files.get? observed.manifest_key with
  | none =>
    rw [hmanifest] at h
    cases h
  | some text =>
    cases hsignature : files.get? (observed.manifest_key ++ ".asc") with
    | none =>
      rw [hmanifest, hsignature] at h
      cases h
    | some signature =>
      rw [hmanifest, hsignature] at h
      simp only [except_throw, except_error_bind, except_check_eq_ok, not_not] at h
      obtain ⟨hhash, h⟩ := h
      obtain ⟨_, hsigned, h⟩ := except_bind_eq_ok.1 h
      obtain ⟨inrelease, hinrelease, h⟩ := except_bind_eq_ok.1 h
      obtain ⟨_, -, h⟩ := except_bind_eq_ok.1 h
      obtain ⟨_, -, h⟩ := except_bind_eq_ok.1 h
      obtain ⟨_, -, h⟩ := except_bind_eq_ok.1 h
      obtain ⟨_, -, h⟩ := except_bind_eq_ok.1 h
      obtain ⟨read, hread, h⟩ := except_bind_eq_ok.1 h
      cases h
      exact ⟨⟨body, payload, signed_file_ok hbody, hpayload, hobserved⟩,
        ⟨text, signature, hmanifest, hsignature, hhash, hsigned, hread⟩, ⟨inrelease, signed_file_ok hinrelease⟩⟩

theorem desired_pointer_eq {pointer : StatePointer} {manifest : PublicationManifest}
    {current payload body signature inrelease payload' copy copy_signature : ByteArray}
    (hcurrent : files.get? PublicationPlan.STATE_KEY = some current) (hpayload : verify current = .ok payload)
    (hparse : State.parse_state_pointer validate payload = .ok pointer) (hbody : files.get? pointer.manifest_key = some body)
    (hsignature : files.get? (pointer.manifest_key ++ ".asc") = some signature) (hhash : hexdigest body = pointer.manifest_sha256)
    (hsigned : verify_signed signature body = .ok ()) (hinrelease : files.get? PublicationPlan.INRELEASE_KEY = some inrelease)
    (hverified : verify inrelease = .ok payload') (hcopy : files.get? "manifest.json" = some copy)
    (hcopysignature : files.get? "manifest.json.asc" = some copy_signature) (hcopysigned : verify_signed copy_signature copy = .ok ())
    (hread : State.parse_manifest validate body = .ok manifest) :
    desired_pointer hexdigest validate verify verify_signed files = .ok (pointer, manifest) := by
  have hfile : ∀ {key : String} {body : ByteArray}, files.get? key = some body → signed_file files key = .ok body :=
    fun h => by rw [signed_file, h]
  rw [desired_pointer, @hfile "state/current.asc" _ hcurrent, except_ok_bind, hpayload, except_ok_bind, hparse, except_ok_bind,
    hbody, hsignature]
  dsimp only
  rw [if_neg (not_not.2 hhash), hsigned, except_ok_bind, @hfile "dists/trixie/InRelease" _ hinrelease, except_ok_bind, hverified,
    except_ok_bind, hfile hcopysignature, except_ok_bind, hfile hcopy, except_ok_bind, hcopysigned, except_ok_bind, hread]
  rfl

/-- The bytes of a manifest are read as this manifest. -/
theorem parse_manifest_read {body : ByteArray} {n : PublicationManifest}
    (hbody : Serialize.canonical_bytes m.to_dict = .ok body) (h : State.parse_manifest validate body = .ok n) :
    n = m.read := by
  have hvalid : validate "publication-manifest" m.to_dict.sortKeys = .ok () := by
    rw [State.parse_manifest, State.object_canonical "publication manifest" m.to_dict_distinct hbody, except_ok_bind] at h
    obtain ⟨_, hvalid, -⟩ := except_bind_eq_ok.1 h
    exact hvalid
  rw [State.parse_manifest_canonical hvalid hbody] at h
  exact (Except.ok.inj h).symm

namespace Tree

variable (h : Tree hexdigest guess_type validate verify verify_signed p files sums m)
include h

theorem desired_manifest : p.desired_manifest = m.read := by
  obtain ⟨body, hcanonical, -, hbody⟩ := h.manifest
  obtain ⟨text, signature, htext, -, -, -, hread⟩ := (desired_pointer_ok h.desired).manifest
  rw [hbody] at htext
  cases htext
  exact parse_manifest_read hcanonical hread

/-- The stored pointer is read as the desired one. -/
theorem pointer : ∃ payload, verify p.desired_body = .ok payload ∧
    State.parse_state_pointer validate payload = .ok p.desired := by
  obtain ⟨body, payload, hbody, hpayload, hparse⟩ := (desired_pointer_ok h.desired).pointer
  rw [h.desired_body] at hbody
  cases hbody
  exact ⟨payload, hpayload, hparse⟩

/-- The manifest that a publication goes by. -/
theorem artifacts : p.desired_manifest.artifacts = m.artifacts ∧
    p.desired_manifest.live_objects = m.artifacts.map (·.key) ∧ ∀ a ∈ m.artifacts, StorageRepository.ArtifactFor a := by
  rw [h.desired_manifest]
  exact ⟨rfl, h.assembled.parts.live, h.assembled.parts.artifacts⟩

theorem queued : ∀ k ∈ p.desired_manifest.queuedKeys, Rooted k := by
  rw [h.desired_manifest]
  intro k hk
  obtain ⟨e, he, rfl⟩ := List.mem_map.1 hk
  exact h.assembled.parts.queued e he

/-- The class of an object is that of its key. -/
theorem classed : ∀ item ∈ p.inventory, endswith item.metadata.cache_control "immutable" =
    PublicationPlan.allowedImmutable item.relative_key := fun _ hitem =>
  StorageRepository.inventory_classified (StorageRepository.inventoryOf_ok h.loaded) h.artifacts.2.2 hitem

/-- Every object is that of an artifact, or derived. -/
theorem rooted : ∀ item ∈ p.inventory, Rooted item.relative_key ∨
    item.relative_key ∈ PublicationPlan.CONVENIENCES ∨ item.relative_key = PublicationPlan.STATE_KEY ∨
      StorageRepository.derivedImmutable item.relative_key = true := by
  intro item hitem
  rcases (StorageRepository.inventoryOf_ok h.loaded).object item hitem with ⟨raw, hraw, hlisted⟩ | hderived
  · obtain ⟨a, ha, rfl⟩ := List.mem_map.1 hraw
    rw [hlisted.key]
    exact .inl (h.artifacts.2.2 a ha).root
  · exact .inr hderived.key

/-- The lease is not published. -/
theorem lease_unwritten : ∀ item ∈ p.inventory, item.relative_key ≠ LEASE_KEY := by
  intro item hitem heq
  have hrooted := h.rooted item hitem
  rw [heq, Rooted] at hrooted
  exact absurd hrooted (by decide)

/-- **The object of a live artifact.** -/
theorem live {a : Artifact} (ha : a ∈ p.desired_manifest.artifacts) : ∃ item ∈ p.inventory,
    item.relative_key = a.key ∧ hexdigest item.contents = a.sha256 ∧ (item.contents.size : Int) = a.size ∧
      item.metadata.content_type = a.media_type ∧ item.metadata.cache_control =
        if a.cache_class = .immutable then StorageRepository.IMMUTABLE_CACHE else StorageRepository.MUTABLE_CACHE := by
  rw [h.artifacts.1] at ha
  have hraw := List.mem_map_of_mem (f := StorageRepository.RawArtifact.ofArtifact) ha
  obtain ⟨item, hitem, hlisted⟩ := (StorageRepository.inventoryOf_ok h.loaded).artifact _ hraw
  have hsize := Inventory.artifact_size h.loaded _ hraw
  have hfile := (Inventory.contents h.loaded).1 item hitem
  rw [← hlisted.key, hfile, Option.map_some, Option.some.injEq] at hsize
  refine ⟨item, hitem, hlisted.key, hlisted.sha256, hsize, hlisted.content_type, hlisted.cache_control.trans ?_⟩
  unfold StorageRepository.RawArtifact.cache_control StorageRepository.RawArtifact.ofArtifact
  cases a.cache_class <;> rfl

/-- A file and its object. -/
theorem item {key : String} {body : ByteArray} (hfile : files.get? key = some body) :
    ∃ item ∈ p.inventory, item.relative_key = key ∧ item.contents = body := (Inventory.contents h.loaded).2 key body hfile

omit h in
/-- What is below `state` is no artifact. -/
theorem not_rooted {key : String} (hkey : startswith key "state/" = true) : ¬ Rooted key := by
  have hhead : key.toList.head? = some 's' := startswith_head hkey (by decide)
  rintro (h | h | h) <;>
    · rw [startswith_head h rfl] at hhead
      exact absurd hhead (by decide)

/-- The metadata of an object that is no artifact. -/
theorem derived_metadata {item : RepositoryObject} (hitem : item ∈ p.inventory)
    (hkey : startswith item.relative_key "state/" = true) :
    StorageRepository.derived_metadata guess_type item.relative_key = .ok item.metadata := by
  refine Inventory.derived h.loaded hitem fun raw hraw heq => not_rooted hkey ?_
  obtain ⟨a, ha, rfl⟩ := List.mem_map.1 hraw
  exact heq ▸ (h.artifacts.2.2 a ha).root

/-- The object of the signed pointer. -/
theorem state_metadata {item : RepositoryObject} (hitem : item ∈ p.inventory)
    (hkey : item.relative_key = PublicationPlan.STATE_KEY) : item.metadata.content_type = "application/pgp-signature" ∧
      item.metadata.cache_control = StorageRepository.MUTABLE_CACHE := by
  have hmetadata := h.derived_metadata hitem (by rw [hkey]; decide)
  rw [hkey] at hmetadata
  obtain ⟨htype, hcache⟩ := StorageRepository.metadata_ok hmetadata
  refine ⟨htype.trans ?_, hcache.trans (by decide)⟩
  rw [if_neg (by decide), if_pos (by decide)]

theorem manifest_key : p.desired.manifest_key = "state/publications/" ++ m.publication_id ++ "/manifest.json" := by
  obtain ⟨body, -, hpointer, -⟩ := h.manifest
  exact (signed_pointer_ok hpointer).2.2.2

/-- The objects of the manifest and of its signature. -/
theorem manifest_items : ∃ item ∈ p.inventory, ∃ signature ∈ p.inventory,
    (item.relative_key = p.desired.manifest_key ∧ StorageRepository.derivedImmutable item.relative_key = true ∧
      item.metadata.content_type = "application/json" ∧
      item.metadata.cache_control = StorageRepository.IMMUTABLE_CACHE) ∧
    (signature.relative_key = p.desired.manifest_key ++ ".asc" ∧
      StorageRepository.derivedImmutable signature.relative_key = true ∧
      signature.metadata.content_type = "application/pgp-signature" ∧
      signature.metadata.cache_control = StorageRepository.IMMUTABLE_CACHE) ∧
    hexdigest item.contents = p.desired.manifest_sha256 ∧ verify_signed signature.contents item.contents = .ok () ∧
    State.parse_manifest validate item.contents = .ok p.desired_manifest := by
  obtain ⟨body, signature, hbody, hsignature, hhash, hverified, hread⟩ := (desired_pointer_ok h.desired).manifest
  have hkey := h.manifest_key
  have hbelow : ∀ rest, p.desired.manifest_key ++ rest =
      "state/publications/" ++ (m.publication_id ++ "/manifest.json" ++ rest) := fun rest => by
    rw [hkey, String.append_assoc, String.append_assoc, String.append_assoc]
  have hstarts : ∀ (rest start : String), startswith "state/publications/" start = true →
      startswith (p.desired.manifest_key ++ rest) start = true := fun rest start hstart => by
    obtain ⟨t, ht⟩ := startswith_iff.1 hstart
    rw [hbelow, startswith_iff, ht]
    exact ⟨t ++ (m.publication_id ++ "/manifest.json" ++ rest), String.append_assoc ..⟩
  have hempty : p.desired.manifest_key ++ "" = p.desired.manifest_key := String.append_empty
  obtain ⟨item, hitem, hitemkey, rfl⟩ := h.item hbody
  obtain ⟨asc, hasc, hasckey, rfl⟩ := h.item hsignature
  have hitemmeta := h.derived_metadata hitem (hitemkey ▸ hempty ▸ hstarts "" "state/" (by decide))
  have hascmeta := h.derived_metadata hasc (hasckey ▸ hstarts ".asc" "state/" (by decide))
  rw [hitemkey] at hitemmeta
  rw [hasckey] at hascmeta
  obtain ⟨htype, hcache⟩ := StorageRepository.metadata_ok hitemmeta
  obtain ⟨htype', hcache'⟩ := StorageRepository.metadata_ok hascmeta
  have hderived : ∀ rest, StorageRepository.derivedImmutable (p.desired.manifest_key ++ rest) = true := fun rest => by
    rw [StorageRepository.derivedImmutable, hstarts rest "state/publications/" (by decide), Bool.true_or]
  have hjson : endswith p.desired.manifest_key ".json" = true := by
    rw [hkey, endswith_append (by decide)]
    decide
  have hnotjson : endswith (p.desired.manifest_key ++ ".asc") ".json" = false := by
    rw [hkey, String.append_assoc, endswith_append (by decide)]
    decide
  refine ⟨item, hitem, asc, hasc, ⟨hitemkey, ?_, ?_, ?_⟩, ⟨hasckey, ?_, ?_, ?_⟩, hhash, hverified, hread⟩
  · exact hitemkey ▸ hempty ▸ hderived ""
  · rw [htype, if_pos hjson]
  · rw [hcache, if_pos (hempty ▸ hderived "")]
  · exact hasckey ▸ hderived ".asc"
  · rw [htype', if_neg (by rw [hnotjson]; decide), if_pos (by rw [endswith_append (le_refl _)]; decide)]
  · rw [hcache', if_pos (hderived ".asc")]

/-- Pointer and manifest are those of one publication. -/
theorem agrees : p.desired.generation = p.desired_manifest.generation ∧
    p.desired.publication_id = p.desired_manifest.publication_id := by
  obtain ⟨body, -, hpointer, -⟩ := h.manifest
  rw [h.desired_manifest]
  exact ⟨(signed_pointer_ok hpointer).1, (signed_pointer_ok hpointer).2.1⟩

end Tree

end

/-! ## A repository of one package -/

namespace Signed.Sample

open SignedRepository

def digest : ByteArray → String := fun _ => State.Sample.digest

def root : SignedRepository.Root :=
  ⟨"repository", fun top => if top = "pool" then [("main/d/dkc-linux/dkc.deb", .file ⟨#[]⟩)] else []⟩

def request : Except Failure SignedRepository.Request := assemble digest (fun _ => none) none 0 root

def rest : PublicationManifestFields :=
  { State.Sample.manifest.toPublicationManifestFields with
    publication_id := "publish-1"
    previous_publication := none
    retention_mode := .series_size
    retention_max_bytes := some 100000000 }

def signed : Except PyErr PublicationManifest := do
  match request with
  | .ok request => sign_handoff digest (fun _ => none) request ⟨#[]⟩ ⟨#[]⟩ rest
  | .error _ => .error .AssertionError

def body_of : Except PyErr PublicationManifest → ByteArray
  | .ok m => (Serialize.canonical_bytes m.to_dict).toOption.getD ⟨#[]⟩
  | .error _ => ⟨#[]⟩

def pointer_body_of : Except PyErr PublicationManifest → ByteArray
  | .ok m =>
    match signed_pointer m State.Sample.digest with
    | .ok pointer => (Serialize.canonical_bytes pointer.to_dict).toOption.getD ⟨#[]⟩
    | .error _ => ⟨#[]⟩
  | .error _ => ⟨#[]⟩

def body : ByteArray := body_of signed

def pointer_body : ByteArray := pointer_body_of signed

def keys : List String :=
  ["pool/main/d/dkc-linux/dkc.deb", "dists/trixie/InRelease", "dists/trixie/Release.gpg", "manifest.json", "manifest.json.asc", "SHA256SUMS",
    "SHA256SUMS.asc", "state/current.asc", "state/publications/publish-1/manifest.json",
    "state/publications/publish-1/manifest.json.asc", "state/transactions/1/record.json",
    "state/transactions/1/record.json.asc"]

def files : Dict ByteArray := .ofKeys keys (by decide) fun key =>
  if key = PublicationPlan.STATE_KEY then pointer_body
  else if key = "state/publications/publish-1/manifest.json" then body
  else ⟨#[]⟩

def sums : Dict String :=
  (Dict.ofKeys keys (by decide) fun _ => State.Sample.digest).filter fun key _ => key ≠ "SHA256SUMS" ∧ key ≠ "SHA256SUMS.asc"

def artifacts : List StorageRepository.RawArtifact :=
  [⟨"pool/main/d/dkc-linux/dkc.deb", State.Sample.digest, 0, "application/vnd.debian.binary-package", "immutable"⟩,
    ⟨"dists/trixie/InRelease", State.Sample.digest, 0, "application/octet-stream", "mutable"⟩,
    ⟨"dists/trixie/Release.gpg", State.Sample.digest, 0, "application/pgp-signature", "mutable"⟩]

def accepts : Except PyErr PublicationManifest → Bool
  | .ok m => m.artifacts.map StorageRepository.RawArtifact.ofArtifact = artifacts &&
    (match signed_pointer m State.Sample.digest with
      | .ok pointer => pointer.manifest_key = "state/publications/publish-1/manifest.json"
      | .error _ => false) &&
    !(Json.obj m.apt_metadata.fields).rejectFloats
  | .error _ => false

theorem accepts_signed : accepts signed = true := by decide +kernel

theorem metadata_of_check {content_type cache_control : String} (h : ObjectMetadata.check content_type cache_control = .ok ()) :
    ∃ m, StorageRepository.metadata content_type cache_control = .ok m := by
  unfold StorageRepository.metadata
  split
  · exact ⟨_, rfl⟩
  · next e he =>
    rw [h] at he
    cases he

/-- The metadata of what is no artifact. -/
theorem derived_metadata_ok (key : String) : ∃ m, StorageRepository.derived_metadata (fun _ => none) key = .ok m := by
  have hall : ∀ content_type ∈ ["application/json", "application/pgp-signature", "text/plain", "application/octet-stream"],
      ∀ cache_control ∈ [StorageRepository.IMMUTABLE_CACHE, StorageRepository.MUTABLE_CACHE],
        ObjectMetadata.check content_type cache_control = .ok () := by decide
  unfold StorageRepository.derived_metadata
  refine metadata_of_check (hall _ ?_ _ ?_)
  · by_cases hjson : endswith key ".json" = true
    · simp [hjson]
    by_cases hasc : endswith key ".asc" = true
    · simp [hjson, hasc]
    by_cases hsums : key = "SHA256SUMS"
    · subst hsums
      decide
    · simp [hjson, hasc, hsums]
  · split <;> simp

/-- The checks of the artifacts. -/
theorem metadata_ok : (match artifacts.foldlM (StorageRepository.addMetadata files sums) .empty with
    | .ok d => decide (d.keys = artifacts.map (·.key))
    | .error _ => false) = true := by decide +kernel

/-- Every file is that of an artifact, or derived. -/
theorem boundary_ok : (∀ key ∈ keys, key ∈ artifacts.map (·.key) ++ StorageRepository.allowed_derived sums) ∧
    ∀ key ∈ artifacts.map (·.key) ++ StorageRepository.allowed_derived sums, key ∈ keys := by decide +kernel

theorem objects_ok (d : Dict ObjectMetadata) (x : String × ByteArray) :
    ∃ item, StorageRepository.objectOf digest (fun _ => none) sums d x = .ok item := by
  obtain ⟨m, hm⟩ := derived_metadata_ok x.1
  have hsums : (sums.get? x.1).any (fun h => decide (h ≠ digest x.2)) = false := by
    rw [Option.any_eq_false]
    intro sha256 hget
    obtain ⟨hget, -⟩ := Dict.get?_filter.1 hget
    obtain ⟨-, rfl⟩ := (Dict.get?_ofKeys _).1 hget
    simp [digest]
  refine ⟨⟨x.1, x.2, digest x.2, x.2.size, (d.get? x.1).getD m⟩, ?_⟩
  simp only [StorageRepository.objectOf, hm, hsums]
  rfl

theorem inventory_ok : ∃ inventory, StorageRepository.inventoryOf digest (fun _ => none) files sums artifacts = .ok inventory := by
  have hmetadata := metadata_ok
  cases hd : artifacts.foldlM (StorageRepository.addMetadata files sums) .empty with
  | error e =>
    rw [hd] at hmetadata
    cases hmetadata
  | ok d =>
    rw [hd] at hmetadata
    have hkeys : d.keys = artifacts.map (·.key) := of_decide_eq_true hmetadata
    have hobjects : ∃ inventory, (sortedItems files.items).mapM (StorageRepository.objectOf digest (fun _ => none) sums d) =
        .ok inventory := except_mapM_exists fun x _ => objects_ok d x
    obtain ⟨inventory, hinventory⟩ := hobjects
    refine ⟨inventory, ?_⟩
    have hfiles : files.keys = keys := Dict.keys_ofKeys _
    -- both sides of the boundary are the same keys
    have hclassified : keys.filter (· ∉ d.keys ++ StorageRepository.allowed_derived sums) = [] := by
      rw [List.filter_eq_nil_iff]
      intro key hkey
      simp only [hkeys, decide_not, Bool.not_eq_true', decide_eq_false_iff_not, not_not]
      exact boundary_ok.1 key hkey
    have habsent : (d.keys ++ StorageRepository.allowed_derived sums).filter (· ∉ keys) = [] := by
      rw [List.filter_eq_nil_iff, hkeys]
      intro key hkey
      simp only [decide_not, Bool.not_eq_true', decide_eq_false_iff_not, not_not]
      exact boundary_ok.2 key hkey
    rw [StorageRepository.inventoryOf, hd, except_ok_bind]
    dsimp only
    rw [hfiles, hclassified, habsent]
    exact hinventory

theorem get_files {key : String} (h : key ∈ keys) : files.get? key = some (if key = PublicationPlan.STATE_KEY then pointer_body
    else if key = "state/publications/publish-1/manifest.json" then body else ⟨#[]⟩) := (Dict.get?_ofKeys _).2 ⟨h, rfl⟩

theorem get_state : files.get? PublicationPlan.STATE_KEY = some pointer_body := by
  rw [get_files (by decide), if_pos rfl]

theorem get_manifest : files.get? "state/publications/publish-1/manifest.json" = some body := by
  rw [get_files (by decide), if_neg (by decide), if_pos rfl]

/-- Every other file is empty. -/
theorem get_empty {key : String} (h : key ∈ keys) (hstate : key ≠ PublicationPlan.STATE_KEY)
    (hmanifest : key ≠ "state/publications/publish-1/manifest.json") : files.get? key = some ⟨#[]⟩ := by
  rw [get_files h, if_neg hstate, if_neg hmanifest]

section
-- nothing below looks into the signed manifest
variable {signed : Except PyErr PublicationManifest} {m : PublicationManifest} {pointer : StatePointer}

theorem accepts_parts (h : accepts signed = true) : ∃ m pointer, signed = .ok m ∧
    m.artifacts.map StorageRepository.RawArtifact.ofArtifact = artifacts ∧
    signed_pointer m State.Sample.digest = .ok pointer ∧
    pointer.manifest_key = "state/publications/publish-1/manifest.json" ∧
    (Json.obj m.apt_metadata.fields).rejectFloats = false := by
  cases signed with
  | error e => cases h
  | ok m =>
    rw [accepts, Bool.and_eq_true, Bool.and_eq_true] at h
    obtain ⟨⟨hartifacts, hpointer⟩, hfloats⟩ := h
    cases hp : signed_pointer m State.Sample.digest with
    | error e =>
      rw [hp] at hpointer
      cases hpointer
    | ok pointer =>
      rw [hp] at hpointer
      exact ⟨m, pointer, rfl, of_decide_eq_true hartifacts, hp, of_decide_eq_true hpointer, by simpa using hfloats⟩

/-- The bytes of the manifest and of the pointer are their canonical ones. -/
theorem bodies_of (hm : signed = .ok m) (hp : signed_pointer m State.Sample.digest = .ok pointer)
    (hfloats : (Json.obj m.apt_metadata.fields).rejectFloats = false) :
    Serialize.canonical_bytes m.to_dict = .ok (body_of signed) ∧
      Serialize.canonical_bytes pointer.to_dict = .ok (pointer_body_of signed) := by
  subst hm
  obtain ⟨text, htext⟩ := Serialize.canonical_bytes_ok ((Json.clean_iff _).2
    ⟨m.to_dict_distinct, PublicationManifest.to_dict_floats hfloats⟩)
  obtain ⟨payload, hpayload⟩ := Serialize.canonical_bytes_ok pointer.to_dict_clean
  have hbody : body_of (.ok m) = text := by
    rw [body_of, htext]
    rfl
  have hpointer : pointer_body_of (.ok m) = payload := by
    rw [pointer_body_of, hp]
    dsimp only
    rw [hpayload]
    rfl
  exact ⟨hbody ▸ htext, hpointer ▸ hpayload⟩

end

/-- What was accepted. -/
theorem accepted_parts : ∃ m inventory pointer, signed = .ok m ∧
    StorageRepository.inventoryOf digest (fun _ => none) files sums
      (m.artifacts.map StorageRepository.RawArtifact.ofArtifact) = .ok inventory ∧
    signed_pointer m State.Sample.digest = .ok pointer ∧
    pointer.manifest_key = "state/publications/publish-1/manifest.json" ∧
    (Json.obj m.apt_metadata.fields).rejectFloats = false := by
  obtain ⟨m, pointer, hm, hartifacts, hpointer⟩ := accepts_parts accepts_signed
  obtain ⟨inventory, hinventory⟩ := inventory_ok
  exact ⟨m, inventory, pointer, hm, hartifacts ▸ hinventory, hpointer⟩

theorem bodies {m : PublicationManifest} {pointer : StatePointer} (hm : signed = .ok m)
    (hp : signed_pointer m State.Sample.digest = .ok pointer) (hfloats : (Json.obj m.apt_metadata.fields).rejectFloats = false) :
    Serialize.canonical_bytes m.to_dict = .ok body ∧ Serialize.canonical_bytes pointer.to_dict = .ok pointer_body :=
  bodies_of hm hp hfloats

theorem assembled {m : PublicationManifest} (hm : signed = .ok m) : Assembled digest (fun _ => none) m := by
  unfold signed at hm
  cases hrequest : request with
  | error e =>
    rw [hrequest] at hm
    cases hm
  | ok r =>
    rw [hrequest] at hm
    exact .first hrequest hm

/-- The tree of the repository. -/
theorem tree (owner : LeaseOwner) (manager : LeaseManager) (caps : GcCaps) : ∃ (p : Publication) (m : PublicationManifest),
    p.owner = owner ∧ p.manager = manager ∧ p.caps = caps ∧ signed = .ok m ∧
      Tree digest (fun _ => none) (fun _ _ => .ok ()) .ok (fun _ _ => .ok ()) p files sums m := by
  obtain ⟨m, inventory, pointer, hm, hinventory, hp, hkey, hfloats⟩ := accepted_parts
  obtain ⟨hbody, hpointer⟩ := bodies hm hp hfloats
  have hmanifest : files.get? pointer.manifest_key = some body := hkey ▸ get_manifest
  have hread : State.parse_state_pointer (fun _ _ => .ok ()) pointer_body = .ok pointer :=
    State.parse_state_pointer_canonical rfl hpointer
  have hread' : State.parse_manifest (fun _ _ => .ok ()) body = .ok m.read := State.parse_manifest_canonical rfl hbody
  have hasc : files.get? (pointer.manifest_key ++ ".asc") = some ⟨#[]⟩ := by
    rw [hkey]
    exact get_empty (by decide) (by decide) (by decide)
  have hempty : ∀ key ∈ ["dists/trixie/InRelease", "manifest.json", "manifest.json.asc"], files.get? key = some ⟨#[]⟩ := by
    intro key hkey
    refine get_empty ?_ ?_ ?_ <;> revert key <;> decide
  have htree : ∀ p : Publication, p.inventory = inventory → p.desired = pointer → p.desired_manifest = m.read →
      p.desired_body = pointer_body → Tree digest (fun _ => none) (fun _ _ => .ok ()) .ok (fun _ _ => .ok ()) p files sums m := by
    rintro p hpinventory rfl hpmanifest hpbody
    refine ⟨assembled hm, ⟨body, hbody, hp, hmanifest⟩, hpinventory ▸ hinventory, ?_, hpbody ▸ get_state⟩
    rw [hpmanifest]
    exact desired_pointer_eq get_state rfl hread hmanifest hasc (signed_pointer_ok hp).2.2.1.symm rfl (hempty _ (by decide)) rfl
      (hempty _ (by decide)) (hempty _ (by decide)) rfl hread'
  -- the bytes are not looked at
  generalize pointer_body = text at htree
  exact ⟨⟨inventory, pointer, m.read, text, owner, manager, 1000, caps⟩, m, rfl, rfl, rfl, hm, htree _ rfl rfl rfl rfl⟩

end Signed.Sample

open Signed.Sample in
/-- There is a signed repository. -/
theorem signed_sample (owner : LeaseOwner) (manager : LeaseManager) (caps : GcCaps) : ∃ p : Publication, p.owner = owner ∧
    p.manager = manager ∧ p.caps = caps ∧ Signed digest (fun _ => none) (fun _ _ => .ok ()) .ok (fun _ _ => .ok ()) p := by
  obtain ⟨p, m, howner, hmanager, hcaps, -, htree⟩ := tree owner manager caps
  exact ⟨p, howner, hmanager, hcaps, files, sums, m, htree⟩

end StoragePublish
