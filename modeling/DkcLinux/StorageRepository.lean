import DkcLinux.Manifest
import DkcLinux.PublicationPlan

/-!
# The verified repository (`dkc/storage_repository.py`, `artifact_for`)

`inventoryOf` is `load_verified_repository` from the artifact loop on: the tree is a dict of file
contents, the checksum file a dict of digests. The cache class of an object follows from its key
(`inventory_classified`): `artifact_for` decides it for the artifacts, `_derived_metadata` for the
signed state.
-/

open Py Records

namespace StorageRepository

def IMMUTABLE_CACHE : String := "public, max-age=31536000, immutable"

def MUTABLE_CACHE : String := "public, max-age=0, must-revalidate"

/-- The inventory records a manifest lists, before their fields are checked again. -/
structure RawArtifact where
  key : String
  sha256 : String
  size : Int
  media_type : String
  cache_class : String
deriving Repr, DecidableEq

def RawArtifact.ofArtifact (a : Artifact) : RawArtifact :=
  ⟨a.key, a.sha256, a.size, a.media_type, a.cache_class.toString⟩

/-- `ObjectMetadata(...)`. -/
def metadata (content_type cache_control : String) : Except PyErr ObjectMetadata :=
  match h : ObjectMetadata.check content_type cache_control with
  | .ok () => .ok ⟨content_type, cache_control, h⟩
  | .error e => .error e

theorem metadata_ok {content_type cache_control : String} {m : ObjectMetadata}
    (h : metadata content_type cache_control = .ok m) :
    m.content_type = content_type ∧ m.cache_control = cache_control := by
  unfold metadata at h
  split at h
  · cases h
    exact ⟨rfl, rfl⟩
  · cases h

/-- `_relative_key`. -/
def relative_key (raw : String) : Except PyErr String :=
  if isObjectKey raw then .ok raw else .error (.ValueError "unsafe repository path" [raw])

theorem relative_key_ok {raw key : String} (h : relative_key raw = .ok key) : key = raw := by
  unfold relative_key at h
  split at h
  · cases h; rfl
  · cases h

section
-- `hashlib.sha256`, and `mimetypes.guess_type`
variable (digest : ByteArray → String) (guess_type : String → Option String)
  (files : Dict ByteArray) (repository_sums : Dict String)

/-- One artifact of the manifest. -/
def addMetadata (metadata_by_key : Dict ObjectMetadata) (raw : RawArtifact) :
    Except PyErr (Dict ObjectMetadata) := do
  let key ← relative_key raw.key
  if h : key ∈ metadata_by_key.keys then
    throw (.ValueError ("duplicate repository manifest artifact: " ++ key))
  else
    if !isSha256 raw.sha256 || raw.size < 0 then
      throw (.ValueError ("invalid repository manifest identity for " ++ key))
    if repository_sums.get? key ≠ some raw.sha256 then
      throw (.ValueError ("manifest/checksum mismatch for " ++ key))
    if (files.get? key).map (fun body => (body.size : Int)) ≠ some raw.size then
      throw (.ValueError ("manifest size mismatch for " ++ key))
    if raw.media_type = "" || hasControl raw.media_type then
      throw (.ValueError ("unsafe manifest media type for " ++ key))
    if raw.cache_class ≠ "immutable" ∧ raw.cache_class ≠ "mutable" then
      throw (.ValueError ("unsafe manifest cache class for " ++ key))
    return metadata_by_key.add key
      (← metadata raw.media_type (if raw.cache_class = "immutable" then IMMUTABLE_CACHE else MUTABLE_CACHE)) h

/-- The condition of an immutable derived object. -/
def derivedImmutable (key : String) : Bool :=
  startswith key "state/publications/" || startswith key "state/transactions/"

/-- `_derived_metadata`. -/
def derived_metadata (key : String) : Except PyErr ObjectMetadata :=
  let content_type :=
    if endswith key ".json" then "application/json"
    else if endswith key ".asc" then "application/pgp-signature"
    else if key = "SHA256SUMS" then "text/plain"
    else ((guess_type key).filter (· ≠ "")).getD "application/octet-stream"
  metadata content_type (if derivedImmutable key then IMMUTABLE_CACHE else MUTABLE_CACHE)

/-- `allowed_derived`. -/
def allowed_derived : List String :=
  ["manifest.json", "manifest.json.asc", "SHA256SUMS", "SHA256SUMS.asc", "state/current.asc"] ++
    repository_sums.keys.filter derivedImmutable

/-- One object of the inventory; `metadata_by_key.get` evaluates its default first. -/
def objectOf (metadata_by_key : Dict ObjectMetadata) (x : String × ByteArray) :
    Except PyErr RepositoryObject := do
  let sha256 := digest x.2
  if (repository_sums.get? x.1).any (· ≠ sha256) then
    throw (.ValueError ("repository changed while inventorying " ++ x.1))
  let derived ← derived_metadata guess_type x.1
  return ⟨x.1, x.2, sha256, x.2.size, (metadata_by_key.get? x.1).getD derived⟩

/-- `load_verified_repository` from the artifacts of the manifest to the inventory. -/
def inventoryOf (artifacts : List RawArtifact) : Except PyErr (List RepositoryObject) := do
  let metadata_by_key ← artifacts.foldlM (addMetadata files repository_sums) .empty
  let expected := metadata_by_key.keys ++ allowed_derived repository_sums
  let unclassified := (files.keys.filter (· ∉ expected)).insertionSort (· ≤ ·)
  let absent := (expected.filter (· ∉ files.keys)).dedup.insertionSort (· ≤ ·)
  if unclassified ≠ [] ∨ absent ≠ [] then
    throw (.ValueError "repository manifest boundary mismatch" (unclassified ++ absent))
  (sortedItems files.items).mapM (objectOf digest guess_type repository_sums metadata_by_key)

end

/-! ## The class of an object follows from its key -/

/-- The condition of `artifact_for`. -/
def artifactImmutable (key : String) : Bool := startswith key "pool/" || contains key "/by-hash/SHA256/"

/-- `artifact_for` decides the class, over the trees that `repository_artifact_records` walks. -/
structure ArtifactFor (a : Artifact) : Prop where
  cache_class : a.cache_class = if artifactImmutable a.key then .immutable else .mutable
  root : startswith a.key "pool/" = true ∨ startswith a.key "dists/" = true ∨ startswith a.key "keys/" = true

section
variable {digest : ByteArray → String} {guess_type : String → Option String}
  {files : Dict ByteArray} {repository_sums : Dict String}

/-- The cache control of an artifact. -/
def RawArtifact.cache_control (raw : RawArtifact) : String :=
  if raw.cache_class = "immutable" then IMMUTABLE_CACHE else MUTABLE_CACHE

/-- What the checks of one artifact establish. -/
structure Describes (files : Dict ByteArray) (repository_sums : Dict String) (raw : RawArtifact)
    (x : String × ObjectMetadata) : Prop where
  key : x.1 = raw.key
  content_type : x.2.content_type = raw.media_type
  cache_control : x.2.cache_control = raw.cache_control
  sums : repository_sums.get? raw.key = some raw.sha256
  size : (files.get? raw.key).map (fun body => (body.size : Int)) = some raw.size

theorem addMetadata_ok {d d' : Dict ObjectMetadata} {raw : RawArtifact}
    (h : addMetadata files repository_sums d raw = .ok d') :
    ∃ x, d'.items = d.items ++ [x] ∧ Describes files repository_sums raw x := by
  simp only [addMetadata, except_throw, except_error_bind] at h
  obtain ⟨key, hkey, h⟩ := except_bind_eq_ok.1 h
  obtain rfl := relative_key_ok hkey
  split at h
  · cases h
  · simp only [except_check_eq_ok, not_not] at h
    obtain ⟨-, hsums, hsize, -, -, h⟩ := h
    obtain ⟨m, hm, h⟩ := except_bind_eq_ok.1 h
    cases h
    exact ⟨_, rfl, rfl, (metadata_ok hm).1, (metadata_ok hm).2, hsums, hsize⟩

/-- The loop over the artifacts: one entry for each. -/
theorem addMetadata_foldlM {artifacts : List RawArtifact} {start d : Dict ObjectMetadata}
    (h : artifacts.foldlM (addMetadata files repository_sums) start = .ok d) :
    start.items ⊆ d.items ∧
      (∀ raw ∈ artifacts, ∃ x ∈ d.items, Describes files repository_sums raw x) ∧
      ∀ x ∈ d.items, x ∈ start.items ∨ ∃ raw ∈ artifacts, Describes files repository_sums raw x := by
  induction artifacts generalizing start with
  | nil =>
    cases h
    exact ⟨List.Subset.refl _, by simp, fun x hx => .inl hx⟩
  | cons raw artifacts ih =>
    rw [List.foldlM_cons] at h
    obtain ⟨next, hnext, h⟩ := except_bind_eq_ok.1 h
    obtain ⟨x, hitems, hx⟩ := addMetadata_ok hnext
    obtain ⟨hsub, hleft, hright⟩ := ih h
    rw [hitems] at hsub hright
    refine ⟨fun y hy => hsub (by simp [hy]), ?_, ?_⟩
    · intro raw' hraw'
      rcases List.mem_cons.1 hraw' with rfl | hraw'
      · exact ⟨x, hsub (by simp), hx⟩
      · exact hleft raw' hraw'
    · intro y hy
      rcases hright y hy with hy | ⟨raw', hraw', hd⟩
      · rcases List.mem_append.1 hy with hy | hy
        · exact .inl hy
        · rw [List.mem_singleton] at hy
          exact .inr ⟨raw, List.mem_cons_self, hy ▸ hx⟩
      · exact .inr ⟨raw', List.mem_cons_of_mem _ hraw', hd⟩

/-- The object an inventory has for an artifact. -/
structure Listed (digest : ByteArray → String) (raw : RawArtifact) (item : RepositoryObject) : Prop where
  key : item.relative_key = raw.key
  sha256 : digest item.contents = raw.sha256
  content_type : item.metadata.content_type = raw.media_type
  cache_control : item.metadata.cache_control = raw.cache_control

/-- An object of the signed state, or one that a repository always has. -/
structure Derived (item : RepositoryObject) : Prop where
  key : item.relative_key ∈ PublicationPlan.CONVENIENCES ∨ item.relative_key = PublicationPlan.STATE_KEY ∨
    derivedImmutable item.relative_key = true
  cache_control : item.metadata.cache_control =
    if derivedImmutable item.relative_key then IMMUTABLE_CACHE else MUTABLE_CACHE

/-- What a loaded inventory is made of. -/
structure Inventory (digest : ByteArray → String) (artifacts : List RawArtifact)
    (inventory : List RepositoryObject) : Prop where
  artifact : ∀ raw ∈ artifacts, ∃ item ∈ inventory, Listed digest raw item
  object : ∀ item ∈ inventory, (∃ raw ∈ artifacts, Listed digest raw item) ∨ Derived item

theorem objectOf_ok {d : Dict ObjectMetadata} {x : String × ByteArray} {item : RepositoryObject}
    (h : objectOf digest guess_type repository_sums d x = .ok item) :
    item.relative_key = x.1 ∧ item.contents = x.2 ∧
      (∀ sum, repository_sums.get? x.1 = some sum → digest x.2 = sum) ∧
      (∀ m, d.get? x.1 = some m → item.metadata = m) ∧
      (d.get? x.1 = none → item.metadata.cache_control =
        if derivedImmutable x.1 then IMMUTABLE_CACHE else MUTABLE_CACHE) := by
  simp only [objectOf, except_throw, except_error_bind, except_check_eq_ok] at h
  obtain ⟨hsum, h⟩ := h
  obtain ⟨m, hm, h⟩ := except_bind_eq_ok.1 h
  cases h
  refine ⟨rfl, rfl, fun sum hs => ?_, fun m hm => by simp [hm], fun hnone => ?_⟩
  · by_contra hne
    exact hsum (by simpa [hs] using fun h => hne h.symm)
  · simpa [hnone] using (metadata_ok hm).2

theorem inventoryOf_ok {artifacts : List RawArtifact} {inventory : List RepositoryObject}
    (h : inventoryOf digest guess_type files repository_sums artifacts = .ok inventory) :
    Inventory digest artifacts inventory := by
  simp only [inventoryOf, except_throw, except_error_bind] at h
  obtain ⟨d, hd, h⟩ := except_bind_eq_ok.1 h
  obtain ⟨-, hleft, hright⟩ := addMetadata_foldlM hd
  rw [except_check_eq_ok, not_or, not_not, not_not] at h
  obtain ⟨⟨hunclassified, -⟩, h⟩ := h
  obtain ⟨hall, honly⟩ := except_mapM_mem h
  have hlisted : ∀ raw x body item, Describes files repository_sums raw x → x ∈ d.items →
      objectOf digest guess_type repository_sums d (x.1, body) = .ok item → Listed digest raw item := by
    intro raw x body item hx hmem hobj
    obtain ⟨hkey, hbody, hsum, hmeta, -⟩ := objectOf_ok hobj
    have hm := hmeta x.2 (Dict.mem_items.1 hmem)
    refine ⟨hkey.trans hx.key, ?_, hm ▸ hx.content_type, hm ▸ hx.cache_control⟩
    rw [hbody]
    exact hsum _ (hx.key ▸ hx.sums)
  constructor
  · intro raw hraw
    obtain ⟨x, hx, hdesc⟩ := hleft raw hraw
    obtain ⟨body, hbody, -⟩ := Option.map_eq_some_iff.1 hdesc.size
    have hmem : (x.1, body) ∈ sortedItems files.items := by
      rw [mem_sortedItems, Dict.mem_items, hdesc.key]
      exact hbody
    obtain ⟨item, hitem, hobj⟩ := hall _ hmem
    exact ⟨item, hitem, hlisted raw x body item hdesc hx hobj⟩
  · intro item hitem
    obtain ⟨⟨key, body⟩, hmem, hobj⟩ := honly item hitem
    obtain ⟨hkey, -, -, -, hderived⟩ := objectOf_ok hobj
    cases hget : d.get? key with
    | some m =>
      have hx : (key, m) ∈ d.items := Dict.mem_items.2 hget
      rcases hright _ hx with hx' | ⟨raw, hraw, hdesc⟩
      · cases hx'
      · exact .inl ⟨raw, hraw, hlisted raw (key, m) body item hdesc hx hobj⟩
    | none =>
      -- the boundary check leaves only the derived keys
      have hexp : key ∈ d.keys ++ allowed_derived repository_sums := by
        by_contra hnot
        have hfile : key ∈ files.keys := List.mem_map_of_mem (mem_sortedItems.1 hmem)
        have hbad : key ∈ (files.keys.filter (· ∉ d.keys ++ allowed_derived repository_sums)).insertionSort
            (· ≤ ·) := by
          rw [List.mem_insertionSort, List.mem_filter]
          exact ⟨hfile, by simpa using hnot⟩
        rw [hunclassified] at hbad
        cases hbad
      rcases List.mem_append.1 hexp with hk | hk
      · exact absurd hk (Dict.get?_eq_none.1 hget)
      · refine .inr ⟨?_, ?_⟩
        · rw [hkey]
          simp only [allowed_derived, List.mem_append, List.mem_cons, List.not_mem_nil, or_false,
            List.mem_filter] at hk
          simp only [PublicationPlan.CONVENIENCES, PublicationPlan.STATE_KEY, List.mem_cons,
            List.not_mem_nil, or_false]
          tauto
        · rw [hkey]
          exact hderived hget

end

theorem endswith_cache (b : Bool) :
    endswith (if b then IMMUTABLE_CACHE else MUTABLE_CACHE) "immutable" = b := by
  cases b <;> decide

/-- Keys below different roots. -/
theorem startswith_state {key : String} {c : Char} (h : key.toList.head? = some c) (hc : c ≠ 's') :
    derivedImmutable key = false := by
  have hnot : ∀ p : String, p.toList.head? = some 's' → startswith key p = false := by
    intro p hp
    by_contra hs
    rw [startswith_head (Bool.of_not_eq_false hs) hp, Option.some.injEq] at h
    exact hc h.symm
  rw [derivedImmutable, hnot _ (by decide), hnot _ (by decide), Bool.or_false]

theorem allowedImmutable_eq (key : String) :
    PublicationPlan.allowedImmutable key = (artifactImmutable key || derivedImmutable key) := by
  simp only [PublicationPlan.allowedImmutable, artifactImmutable, derivedImmutable, Bool.or_assoc]

theorem ArtifactFor.class {a : Artifact} (h : ArtifactFor a) :
    endswith (RawArtifact.ofArtifact a).cache_control "immutable" =
      PublicationPlan.allowedImmutable a.key := by
  have hroot : ∃ c, a.key.toList.head? = some c ∧ c ≠ 's' := by
    rcases h.root with h | h | h
    · exact ⟨'p', startswith_head h (by decide), by decide⟩
    · exact ⟨'d', startswith_head h (by decide), by decide⟩
    · exact ⟨'k', startswith_head h (by decide), by decide⟩
  obtain ⟨c, hhead, hc⟩ := hroot
  rw [allowedImmutable_eq, startswith_state hhead hc, Bool.or_false]
  have hclass := h.cache_class
  cases hi : artifactImmutable a.key with
  | true =>
    rw [hi, if_pos rfl] at hclass
    simp only [RawArtifact.cache_control, RawArtifact.ofArtifact, hclass]
    decide
  | false =>
    rw [hi, if_neg (by decide)] at hclass
    simp only [RawArtifact.cache_control, RawArtifact.ofArtifact, hclass]
    decide

/-- **The cache class is a function of the key**, the same one for every repository. -/
theorem inventory_classified {digest : ByteArray → String} {artifacts : List Artifact}
    {inventory : List RepositoryObject}
    (h : Inventory digest (artifacts.map RawArtifact.ofArtifact) inventory)
    (ha : ∀ a ∈ artifacts, ArtifactFor a) {item : RepositoryObject} (hitem : item ∈ inventory) :
    endswith item.metadata.cache_control "immutable" =
      PublicationPlan.allowedImmutable item.relative_key := by
  rcases h.object item hitem with ⟨raw, hraw, hl⟩ | hd
  · obtain ⟨a, hmem, rfl⟩ := List.mem_map.1 hraw
    rw [hl.cache_control, hl.key]
    exact (ha a hmem).class
  · rw [hd.cache_control, endswith_cache, allowedImmutable_eq]
    rcases hd.key with hk | hk | hk
    · simp only [PublicationPlan.CONVENIENCES, List.mem_cons, List.not_mem_nil, or_false] at hk
      rcases hk with hk | hk | hk | hk <;> rw [hk] <;> decide
    · rw [hk]
      decide
    · rw [hk, Bool.or_true]

/-- The plans of verified repositories agree on which keys are immutable. -/
structure ClassedPlan (p : PublicationPlan) : Prop where
  immutable : ∀ k ∈ p.immutable.keys, PublicationPlan.allowedImmutable k = true
  mutable : ∀ k ∈ p.mutable, PublicationPlan.allowedImmutable k = false

theorem classedPlan {digest : ByteArray → String} {artifacts : List Artifact}
    {inventory : List RepositoryObject} {objects : Dict PublicationObject} {p : PublicationPlan}
    (h : Inventory digest (artifacts.map RawArtifact.ofArtifact) inventory)
    (ha : ∀ a ∈ artifacts, ArtifactFor a) (hload : PublicationPlan.Loaded inventory objects)
    (hp : p.Of objects) : ClassedPlan p where
  immutable := hp.allowed
  mutable k hk := by
    have hreq : ∀ key ∈ PublicationPlan.required, PublicationPlan.allowedImmutable key = false := by
      decide
    simp only [PublicationPlanFields.mutable, Finset.mem_union, List.mem_toFinset, Finset.mem_insert,
      Finset.mem_singleton] at hk
    rcases hk with (hk | hk | hk) | hk
    · obtain ⟨x, hx, rfl⟩ := List.mem_map.1 hk
      obtain ⟨hobj, -, him⟩ := (hp.mutable_before x).1 hx
      obtain ⟨item, hitem, rfl⟩ := (hload x).1 hobj
      rw [← inventory_classified h ha hitem]
      exact him
    · exact hreq k (by rw [hk, hp.inrelease_key]; decide)
    · exact hreq k (by rw [hk, hp.state_key]; decide)
    · obtain ⟨x, hx, rfl⟩ := List.mem_map.1 hk
      exact hreq _ (List.mem_append_right _ ((hp.conveniences x).1 hx).2)

/-- `plan_repository` built this plan from a verified repository with assembled artifacts. -/
def VerifiedPlan (digest : ByteArray → String) (guess_type : String → Option String)
    (p : PublicationPlan) : Prop :=
  ∃ (files : Dict ByteArray) (repository_sums : Dict String) (artifacts : List Artifact)
    (inventory : List RepositoryObject) (max_object_bytes : Int),
    (∀ a ∈ artifacts, ArtifactFor a) ∧
    inventoryOf digest guess_type files repository_sums (artifacts.map RawArtifact.ofArtifact) =
      .ok inventory ∧
    PublicationPlan.Built digest max_object_bytes inventory p

theorem VerifiedPlan.of {digest : ByteArray → String} {guess_type : String → Option String}
    {p : PublicationPlan} (h : VerifiedPlan digest guess_type p) :
    (∃ objects, p.Of objects) ∧ ClassedPlan p := by
  obtain ⟨files, sums, artifacts, inventory, max_object_bytes, ha, hinv, hbuilt⟩ := h
  obtain ⟨objects, hload, hof⟩ := hbuilt.of
  exact ⟨⟨objects, hof⟩, classedPlan (inventoryOf_ok hinv) ha hload hof⟩

end StorageRepository
