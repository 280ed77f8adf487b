import DkcLinux.PoolRetention
import DkcLinux.RetentionRules
import DkcLinux.StateRead
import Mathlib.Algebra.Order.BigOperators.Group.List

/-!
# The budget of an assembly (`scripts/in-container/build-signed-repository.py:187-210, 914-943`, `dkc/storage_budget.py:38-65`)

`assemble` cuts its pool to what the limit leaves beside the storage that was measured when the state was read;
`storage-publish.py` projects the storage of the day of the publication and compares it with the same limit.

| bytes                         | in `fixed_bytes`       | in the projection                             |
|-------------------------------|------------------------|-----------------------------------------------|
| previous live pool            | subtracted             | written again, or tombstoned and collected    |
| what else is stored           | counted                | at most these                                 |
| keyring pool                  | counted                | written                                       |
| retained pool                 | what the limit leaves  | written                                       |
| indexes, state and lease      | 64 MiB                 | written                                       |

Both go through the same keys, so what was assembled within the limit is projected within it (`assembly_fits`).
-/

open Py Records

/-! ## The size of a rendering -/

namespace Json

open String

mutual

/-- A bound for the bytes of a rendering: the kernel counts the bytes of a literal faster than it escapes its characters. -/
def weight : Json → Nat
  | .null | .bool _ => 1
  | .int n => utf8Len (renderInt n)
  | .float l => l.utf8ByteSize
  | .str s => s.utf8ByteSize + 1
  | .arr vs => weightItems vs + 1
  | .obj fs => weightFields fs + 1

def weightItems : List Json → Nat
  | [] => 1
  | v :: vs => weight v + weightItems vs + 1

def weightFields : List (String × Json) → Nat
  | [] => 1
  | f :: fs => f.1.utf8ByteSize + weight f.2 + weightFields fs + 1

end

theorem utf8Len_toList (s : String) : utf8Len s.toList = s.utf8ByteSize := by
  rw [← utf8ByteSize_ofList, String.ofList_toList]

/-- The longest escapes have six characters. -/
theorem utf8Len_escape (c : Char) : utf8Len (escape c) ≤ 12 * c.utf8Size := by
  have hpos := c.utf8Size_pos
  have hhex (n : Nat) := (hexDigit n).utf8Size_le_four
  have hchars : '\\'.utf8Size = 1 ∧ '\x22'.utf8Size = 1 ∧ 'n'.utf8Size = 1 ∧ 'r'.utf8Size = 1 ∧ 't'.utf8Size = 1 ∧
      'b'.utf8Size = 1 ∧ 'f'.utf8Size = 1 ∧ 'u'.utf8Size = 1 ∧ '0'.utf8Size = 1 := by decide
  have hhigh := hhex (c.toNat / 16)
  have hlow := hhex c.toNat
  unfold escape
  repeat' split
  all_goals
    simp only [utf8Len_cons, utf8Len_nil]
    omega

theorem utf8Len_quote (s : String) : utf8Len (quote s) ≤ 12 * s.utf8ByteSize + 2 := by
  have hescaped : ∀ cs : List Char, utf8Len (cs.flatMap escape) ≤ 12 * utf8Len cs := by
    intro cs
    induction cs with
    | nil => exact le_refl _
    | cons c cs ih =>
      have hc := utf8Len_escape c
      rw [List.flatMap_cons, utf8Len_append, utf8Len_cons]
      omega
  have hs := hescaped s.toList
  have hquote : '\x22'.utf8Size = 1 := by decide
  rw [utf8Len_toList] at hs
  rw [quote, List.cons_append, utf8Len_cons, utf8Len_append, utf8Len_cons, utf8Len_nil]
  omega

mutual

theorem utf8Len_render : ∀ v : Json, utf8Len (render v) ≤ 12 * v.weight
  | .null | .bool true | .bool false => by decide
  | .int n => by
    rw [render, weight]
    omega
  | .float l => by
    rw [render, weight, utf8Len_toList]
    omega
  | .str s => by
    have hs := utf8Len_quote s
    rw [render, weight]
    omega
  | .arr [] | .obj [] => by decide
  | .arr (v :: vs) => by
    have hv := utf8Len_render v
    have hvs := utf8Len_renderItems vs
    have hopen : '['.utf8Size = 1 := by decide
    rw [render, weight, weightItems, utf8Len_cons, utf8Len_append]
    omega
  | .obj (f :: fs) => by
    have hf := utf8Len_quote f.1
    have hv := utf8Len_render f.2
    have hfs := utf8Len_renderFields fs
    have hchars : '{'.utf8Size = 1 ∧ ':'.utf8Size = 1 := by decide
    rw [render, weight, weightFields, utf8Len_cons, utf8Len_append, utf8Len_cons, utf8Len_append]
    omega

theorem utf8Len_renderItems : ∀ vs : List Json, utf8Len (renderItems vs) ≤ 12 * weightItems vs
  | [] => by decide
  | v :: vs => by
    have hv := utf8Len_render v
    have hvs := utf8Len_renderItems vs
    have hcomma : ','.utf8Size = 1 := by decide
    rw [renderItems, weightItems, utf8Len_cons, utf8Len_append]
    omega

theorem utf8Len_renderFields : ∀ fs : List (String × Json), utf8Len (renderFields fs) ≤ 12 * weightFields fs
  | [] => by decide
  | f :: fs => by
    have hf := utf8Len_quote f.1
    have hv := utf8Len_render f.2
    have hfs := utf8Len_renderFields fs
    have hchars : ','.utf8Size = 1 ∧ ':'.utf8Size = 1 := by decide
    rw [renderFields, weightFields, utf8Len_cons, utf8Len_append, utf8Len_cons, utf8Len_append]
    omega

end

end Json
namespace StoragePublish

open StorageRepository StorageBudget SignedRepository StateRead

/-! ## Sums of sizes -/

/-- The bytes of some objects. -/
def bytes (objects : List (String × Int)) : Int := (objects.map (·.2)).sum

theorem bytes_append (xs ys : List (String × Int)) : bytes (xs ++ ys) = bytes xs + bytes ys := by
  rw [bytes, List.map_append, List.sum_append, bytes, bytes]

theorem bytes_perm {xs ys : List (String × Int)} (h : xs.Perm ys) : bytes xs = bytes ys := (h.map _).sum_eq

theorem bytes_split (xs : List (String × Int)) (p : String × Int → Bool) :
    bytes xs = bytes (xs.filter p) + bytes (xs.filter fun x => !p x) := by
  rw [← bytes_append]
  exact bytes_perm (List.filter_append_perm p xs).symm

theorem bytes_mono {xs ys : List (String × Int)} (hnodup : xs.Nodup) (h : xs ⊆ ys) (hys : ∀ y ∈ ys, 0 ≤ y.2) :
    bytes xs ≤ bytes ys := by
  obtain ⟨zs, hperm, hsub⟩ := List.subperm_of_subset hnodup h
  rw [← bytes_perm hperm]
  refine (hsub.map _).sum_le_sum fun n hn => ?_
  obtain ⟨y, hy, rfl⟩ := List.mem_map.1 hn
  exact hys y hy

theorem nonneg_listed {s : Store} : ∀ x ∈ listed (s.listing ""), 0 ≤ x.2 := by
  intro x hx
  obtain ⟨y, -, rfl⟩ := List.mem_map.1 hx
  exact Int.natCast_nonneg _

theorem nodup_listed (s : Store) : ((listed (s.listing "")).map (·.1)).Nodup := by
  rw [listed, List.map_map]
  exact Store.nodup_listing s ""

theorem bytes_listed (s : Store) : bytes (listed (s.listing "")) = Lifecycle.storage_size (s.listing "") := sum_listed _

/-! ## What is assembled -/

section
-- what `dpkg-deb` shows as the version of a package
variable (dpkg_deb : ByteArray → Except PyErr String)

def publication_reserve_bytes : Int := 64 * 1024 * 1024

/-- `previous_pool_bytes`. -/
def previous_pool_bytes (previous_manifest : PublicationManifest) : Int :=
  ((expected_pool previous_manifest).map (·.size)).sum

/-- `existing_non_pool_bytes`. -/
def existing_non_pool_bytes : Option AuthoritativeState → Except Failure Int
  | none => .ok 0
  | some previous_state =>
    if previous_state.storage_size < previous_pool_bytes previous_state.manifest then
      .error (.SystemExit "authoritative storage size is smaller than its signed live pool")
    else .ok (previous_state.storage_size - previous_pool_bytes previous_state.manifest)

/-- The files of a directory and their sizes. -/
def directory_bytes (directory : Dict ByteArray) : Int := (directory.items.map fun x => (x.2.size : Int)).sum

/-- `retention` of `assemble`, and the files that it leaves. -/
def retain (previous_state : Option AuthoritativeState) (binary_pool keyring_pool : Dict ByteArray)
    (mode : Retention.RetentionMode) (max_bytes : Option Int) : Except Failure (RetentionDecision × Dict ByteArray) := do
  let existing ← existing_non_pool_bytes previous_state
  uncaught (PoolRetention.apply_retention dpkg_deb binary_pool mode max_bytes
    (existing + directory_bytes keyring_pool + publication_reserve_bytes))

end

/-- The files of a tree, under their keys. -/
def Root.files (root : SignedRepository.Root) : List (String × Int) :=
  root.entries.filterMap fun x => match x.2 with
    | .file contents => some (x.1, (contents.size : Int))
    | _ => none

/-- The pool of a tree is what was retained, and the keyring pool. -/
def Laid (root : SignedRepository.Root) (retained keyring_pool : Dict ByteArray) : Prop :=
  ((Root.files root).filter fun x => startswith x.1 "pool/").Perm
    ((retained.items.map fun x => ("pool/main/d/dkc-linux/" ++ x.1, (x.2.size : Int))) ++
      keyring_pool.items.map fun x => ("pool/main/d/dkc-archive-keyring/" ++ x.1, (x.2.size : Int)))

theorem Laid.bytes {root : SignedRepository.Root} {retained keyring_pool : Dict ByteArray} (h : Laid root retained keyring_pool) :
    bytes ((Root.files root).filter fun x => startswith x.1 "pool/") =
      directory_bytes retained + directory_bytes keyring_pool := by
  rw [bytes_perm h, bytes_append, StoragePublish.bytes, StoragePublish.bytes, List.map_map, List.map_map]
  rfl

/-- The records of a repository have the keys and the sizes of its files. -/
theorem records_files {hexdigest : ByteArray → String} {guess_type : String → Option String} {path : String} :
    ∀ {entries : List (String × PathEntry)} {records records' : List Artifact},
      entries.foldlM (add_record hexdigest guess_type path) records = .ok records' →
        records'.map (fun a => (a.key, a.size)) = records.map (fun a => (a.key, a.size)) ++
          entries.filterMap fun x => match x.2 with
            | .file contents => some (x.1, (contents.size : Int))
            | _ => none
  | [], records, records', h => by
    cases h
    simp
  | (key, entry) :: entries, records, records', h => by
    rw [List.foldlM_cons] at h
    obtain ⟨next, hnext, h⟩ := except_bind_eq_ok.1 h
    rw [records_files h]
    cases entry with
    | symlink => cases hnext
    | special => cases hnext
    | directory =>
      cases hnext
      rfl
    | file contents =>
      obtain ⟨artifact, hartifact, hnext⟩ := except_bind_eq_ok.1 hnext
      cases hnext
      have ha := Artifact.make_ok hartifact
      simp [ha]

/-! ## What retention leaves -/

theorem sizes_of_objects {dpkg_deb : ByteArray → Except PyErr String} : ∀ {paths : List (String × ByteArray)}
    {objects : List PoolObject}, paths.mapM (PoolRetention.poolObject dpkg_deb) = .ok objects →
      objects.map (fun o => (o.key, o.size)) = paths.map fun x => (x.1, (x.2.size : Int))
  | paths, objects, h => by
    have hall := except_mapM_forall₂ h
    clear h
    induction hall with
    | nil => rfl
    | @cons x o xs os hx _ ih =>
      obtain ⟨version, -, hx⟩ := except_bind_eq_ok.1 hx
      unfold PoolObject.make at hx
      split at hx
      · cases hx
        rw [List.map_cons, List.map_cons, ih]
      · cases hx

/-- A decision accounts for the files that it leaves. -/
theorem retained_bytes {dpkg_deb : ByteArray → Except PyErr String} {binary_pool retained : Dict ByteArray}
    {mode : Retention.RetentionMode} {max_bytes : Option Int} {fixed_bytes : Int} {decision : RetentionDecision}
    (h : PoolRetention.apply_retention dpkg_deb binary_pool mode max_bytes fixed_bytes = .ok (decision, retained)) :
    decision.retained_bytes = fixed_bytes + directory_bytes retained ∧
      ∀ limit, mode = .series_size → max_bytes = some limit → decision.retained_bytes ≤ limit := by
  obtain ⟨objects, hobjects, h⟩ := except_bind_eq_ok.1 h
  obtain ⟨d, hd, h⟩ := except_bind_eq_ok.1 h
  cases h
  obtain ⟨hproper, hlimit, n, hleast, hle, hfields⟩ := Retention.select_least hd
  have hcorrect := Retention.correct_of_least hproper hlimit hleast hle hfields
  refine ⟨?_, ?_⟩
  · -- the objects are the files, under their names
    have hsizes : objects.map (fun o => (o.key, o.size)) =
        (sortedItems binary_pool.items).map fun x => (x.1, (x.2.size : Int)) := sizes_of_objects hobjects
    have hleft : bytes ((objects.map fun o => (o.key, o.size)).filter fun x => x.1 ∈ decision.retained_keys) =
        directory_bytes (binary_pool.filter fun name _ => name ∈ decision.retained_keys) := by
      rw [hsizes, List.filter_map, bytes_perm (((perm_sortedItems _).filter _).map _), StoragePublish.bytes, List.map_map]
      rfl
    rw [hcorrect.bytes, ← hleft, List.filter_map, StoragePublish.bytes, List.map_map]
    rfl
  · rintro limit rfl rfl
    obtain ⟨l, order, k, hl, hremoval⟩ := hcorrect.removal rfl
    cases hl
    exact hremoval.fits

/-! ## What is projected -/

section
variable {s s₀ : Store} {w : List (String × Int)} {d : List String} {projection : StorageProjection}

/-- What neither a write nor a deletion touches. -/
def untouched (s : Store) (w : List (String × Int)) (d : List String) : List (String × Int) :=
  (listed (s.listing "")).filter fun x => x.1 ∉ w.map (·.1) ∧ x.1 ∉ d

/-- A projection counts the writes, and what they and the deletions leave. -/
theorem projected_bytes (h : project_storage (listed (s.listing "")) w d = .ok projection) :
    projection.size = bytes w + bytes (untouched s w d) := by
  obtain ⟨⟨objects, hcounts⟩, hnodup, hdisjoint⟩ := project_ok h
  have hleft : ∀ x, x ∈ objects.items ↔ x ∈ w ++ untouched s w d := by
    rintro ⟨k, n⟩
    rw [Dict.mem_items, hcounts.left, Left, List.mem_append, untouched, List.mem_filter, decide_eq_true_eq]
    constructor
    · rintro ⟨hk, hmem | hmem⟩
      · exact .inl hmem
      · exact .inr ⟨hmem.2, hmem.1, hk⟩
    · rintro (hmem | ⟨hmem, hk, hk'⟩)
      · exact ⟨hdisjoint k (List.mem_map_of_mem hmem), .inl hmem⟩
      · exact ⟨hk', .inr ⟨hk, hmem⟩⟩
  have hnodup' : (w ++ untouched s w d).Nodup := by
    refine List.Nodup.append hnodup.of_map ((nodup_listed s).of_map.filter _) fun x hx hx' => ?_
    have hx' : x.1 ∉ w.map (·.1) ∧ x.1 ∉ d := by simpa using (List.mem_filter.1 hx').2
    exact hx'.1 (List.mem_map_of_mem hx)
  rw [hcounts.size, total, ← bytes_append]
  exact bytes_perm ((List.perm_ext_iff_of_nodup objects.nodup.of_map hnodup').2 hleft)

/-- The lease object of a store. -/
def lease_bytes (s : Store) : Int := bytes ((listed (s.listing "")).filter (·.1 = LEASE_KEY))

/-- What stays in a store where others only held the lease: not more than was measured, without objects that go. -/
theorem untouched_bytes {owner : LeaseOwner} {gone : List (String × Int)} (hapart : Apart s₀ s) (hleased : Leased owner s)
    (hnodup : (gone.map (·.1)).Nodup) (hstored : ∀ x ∈ gone, x.1 ≠ LEASE_KEY ∧ x ∈ listed (s₀.listing "") ∧
      (x.1 ∈ w.map (·.1) ∨ x.1 ∈ d ∨ s.get x.1 = none)) :
    bytes (untouched s w d) + bytes gone + lease_bytes s₀ ≤
      Lifecycle.storage_size (s₀.listing "") + LeaseSize.leaseSize owner := by
  set rest := (untouched s w d).filter fun x => !decide (x.1 = LEASE_KEY) with hrest
  have hlease : bytes ((untouched s w d).filter (·.1 = LEASE_KEY)) ≤ LeaseSize.leaseSize owner := by
    have hone : bytes [(LEASE_KEY, (LeaseSize.leaseSize owner : Int))] = LeaseSize.leaseSize owner := by simp [bytes]
    rw [← hone]
    refine bytes_mono ((((nodup_listed s).of_map).filter _).filter _) (fun x hx => ?_) (by simp)
    obtain ⟨hx, hkey⟩ := List.mem_filter.1 hx
    obtain ⟨k, n⟩ := x
    obtain rfl : k = LEASE_KEY := of_decide_eq_true hkey
    rw [(hleased.mem_listed).1 (List.mem_filter.1 hx).1]
    exact List.mem_singleton_self _
  have hmem : ∀ x ∈ rest, x.1 ≠ LEASE_KEY ∧ x ∈ listed (s₀.listing "") ∧ x.1 ∉ w.map (·.1) ∧ x.1 ∉ d ∧ s.get x.1 ≠ none := by
    rintro ⟨k, n⟩ hx
    obtain ⟨hx, hkey⟩ := List.mem_filter.1 hx
    obtain ⟨hx, hleft⟩ := List.mem_filter.1 hx
    have hkey : k ≠ LEASE_KEY := by simpa using hkey
    obtain ⟨hw, hd⟩ : k ∉ w.map (·.1) ∧ k ∉ d := by simpa using hleft
    obtain ⟨y, hget, hsize⟩ := mem_listed.1 hx
    exact ⟨hkey, mem_listed.2 ⟨y, (hapart k hkey).symm.trans hget, hsize⟩, hw, hd, by rw [hget]; exact Option.some_ne_none y⟩
  have hall : bytes (rest ++ gone ++ (listed (s₀.listing "")).filter (·.1 = LEASE_KEY)) ≤ bytes (listed (s₀.listing "")) := by
    refine bytes_mono ?_ ?_ nonneg_listed
    · have hnodup' : (rest ++ gone).Nodup := by
        refine List.Nodup.append ((((nodup_listed s).of_map).filter _).filter _) hnodup.of_map fun x hx hx' => ?_
        obtain ⟨-, -, hw, hd, hget⟩ := hmem x hx
        exact (hstored x hx').2.2.elim hw fun h => h.elim hd hget
      refine List.Nodup.append hnodup' ((nodup_listed s₀).of_map.filter _) fun x hx hx' => ?_
      have hkey : x.1 = LEASE_KEY := of_decide_eq_true (List.mem_filter.1 hx').2
      rcases List.mem_append.1 hx with hx | hx
      · exact (hmem x hx).1 hkey
      · exact (hstored x hx).1 hkey
    · refine List.append_subset.2 ⟨List.append_subset.2 ⟨fun x hx => (hmem x hx).2.1, fun x hx => (hstored x hx).2.1⟩, ?_⟩
      exact List.filter_subset_self _
  rw [bytes_append, bytes_append, bytes_listed] at hall
  have hsplit := bytes_split (untouched s w d) fun x => decide (x.1 = LEASE_KEY)
  rw [← hrest] at hsplit
  rw [lease_bytes]
  omega

end

/-! ## What is written -/

section
variable {hexdigest : ByteArray → String} {guess_type : String → Option String}
  {validate : String → Json → Except PyErr Unit} {verify : ByteArray → Except PyErr ByteArray}
  {verify_signed : ByteArray → ByteArray → Except PyErr Unit} {p : Publication} {files : Dict ByteArray}
  {sums : Dict String} {m : PublicationManifest}

/-- The objects of an inventory have the sizes of their contents. -/
theorem Inventory.sized {artifacts : List RawArtifact} {inventory : List RepositoryObject}
    (h : inventoryOf hexdigest guess_type files sums artifacts = .ok inventory) : Sized inventory := by
  simp only [inventoryOf, except_throw, except_error_bind] at h
  obtain ⟨d, -, h⟩ := except_bind_eq_ok.1 h
  rw [except_check_eq_ok] at h
  obtain ⟨-, honly⟩ := except_mapM_mem h.2
  intro item hitem
  obtain ⟨x, -, hobject⟩ := honly item hitem
  simp only [objectOf, except_throw, except_error_bind, except_check_eq_ok] at hobject
  obtain ⟨_, -, hobject⟩ := except_bind_eq_ok.1 hobject.2
  cases hobject
  rfl

theorem Inventory.length {artifacts : List RawArtifact} {inventory : List RepositoryObject}
    (h : inventoryOf hexdigest guess_type files sums artifacts = .ok inventory) : inventory.length = files.items.length := by
  simp only [inventoryOf, except_throw, except_error_bind] at h
  obtain ⟨d, -, h⟩ := except_bind_eq_ok.1 h
  rw [except_check_eq_ok] at h
  rw [← (except_mapM_forall₂ h.2).length_eq, (perm_sortedItems _).length_eq]

/-- What is derived is not in the pool. -/
theorem Derived.not_pool {item : RepositoryObject} (h : Derived item) : startswith item.relative_key "pool/" = false := by
  rw [Bool.eq_false_iff]
  intro hpool
  rcases h.key with hconvenience | hstate | hfixed
  · have hnone : ∀ key ∈ PublicationPlan.CONVENIENCES, startswith key "pool/" = false := by decide
    rw [hnone _ hconvenience] at hpool
    cases hpool
  · rw [hstate] at hpool
    exact absurd hpool (by decide)
  · rw [derivedImmutable, Bool.or_eq_true] at hfixed
    have hhead := startswith_head hpool (by decide : "pool/".toList.head? = some 'p')
    rcases hfixed with hfixed | hfixed
    · rw [startswith_head hfixed (by decide : "state/publications/".toList.head? = some 's')] at hhead
      cases hhead
    · rw [startswith_head hfixed (by decide : "state/transactions/".toList.head? = some 's')] at hhead
      cases hhead

/-- The pool that a publication writes is that of its manifest. -/
theorem Tree.pool_writes (h : Tree hexdigest guess_type validate verify verify_signed p files sums m)
    (hnodup : ((writes p.inventory).map (·.1)).Nodup) :
    ((writes p.inventory).filter fun x => startswith x.1 "pool/").Perm
      ((m.artifacts.map fun a => (a.key, a.size)).filter fun x => startswith x.1 "pool/") := by
  have hartifacts : ((m.artifacts.map fun a => (a.key, a.size)).map (·.1)).Nodup := by
    rw [List.map_map]
    exact m.keys_checked.1
  have hsized := Inventory.sized h.loaded
  refine (List.perm_ext_iff_of_nodup (hnodup.of_map.filter _) (hartifacts.of_map.filter _)).2 ?_
  rintro ⟨k, n⟩
  rw [List.mem_filter, List.mem_filter]
  refine and_congr_left fun hpool => ?_
  constructor
  · intro hmem
    obtain ⟨item, hitem, heq⟩ := List.mem_map.1 hmem
    obtain ⟨rfl, rfl⟩ := Prod.mk.inj heq
    rcases (inventoryOf_ok h.loaded).object item hitem with ⟨raw, hraw, hlisted⟩ | hderived
    · obtain ⟨a, ha, rfl⟩ := List.mem_map.1 hraw
      have hsize := Inventory.artifact_size h.loaded _ hraw
      rw [← hlisted.key, (Inventory.contents h.loaded).1 item hitem, Option.map_some, Option.some.injEq,
        hsized item hitem] at hsize
      exact List.mem_map.2 ⟨a, ha, Prod.ext hlisted.key.symm hsize.symm⟩
    · rw [Derived.not_pool hderived] at hpool
      cases hpool
  · intro hmem
    obtain ⟨a, ha, heq⟩ := List.mem_map.1 hmem
    obtain ⟨rfl, rfl⟩ := Prod.mk.inj heq
    obtain ⟨item, hitem, hkey, -, hsize, -⟩ := h.live (h.artifacts.1.symm ▸ ha)
    exact List.mem_map.2 ⟨item, hitem, Prod.ext hkey (by rw [← hsize, hsized item hitem])⟩

/-- And that is the pool of the tree that was assembled. -/
theorem manifest_pool {previous : Option PublicationManifest} {generation : Int} {root : SignedRepository.Root}
    {request : SignedRepository.Request} {inrelease release_signature : ByteArray} {rest : PublicationManifestFields}
    (hassemble : assemble hexdigest guess_type previous generation root = .ok request)
    (hsign : sign_handoff hexdigest guess_type request inrelease release_signature rest = .ok m) :
    (m.artifacts.map fun a => (a.key, a.size)).filter (fun x => startswith x.1 "pool/") =
      (Root.files root).filter fun x => startswith x.1 "pool/" := by
  obtain ⟨artifacts, gc_queue, hrecords, -, hartifacts, hqueue⟩ := assemble_records hassemble
  obtain ⟨a, b, ha, hb, hall, -, -⟩ := sign_handoff_ok hartifacts hqueue hsign
  have hfiles : artifacts.map (fun a => (a.key, a.size)) = Root.files root := records_files hrecords
  have hkeys : a.key = "dists/trixie/InRelease" ∧ b.key = "dists/trixie/Release.gpg" :=
    ⟨by rw [Artifact.make_ok ha], by rw [Artifact.make_ok hb]⟩
  have hnone : (([a, b].map fun a => (a.key, a.size)).filter fun x => startswith x.1 "pool/") = [] := by
    rw [List.filter_eq_nil_iff]
    simp only [List.map_cons, List.map_nil, List.mem_cons, List.not_mem_nil, or_false, forall_eq_or_imp, forall_eq, hkeys]
    decide
  rw [hall, List.map_append, List.filter_append, hfiles, hnone, List.append_nil]

end

/-! ## Both accounts -/

section
variable (hexdigest : ByteArray → String) (guess_type : String → Option String)
  (validate : String → Json → Except PyErr Unit) (verify : ByteArray → Except PyErr ByteArray)
  (verify_signed : ByteArray → ByteArray → Except PyErr Unit) (dpkg_deb : ByteArray → Except PyErr String)

/-- A publication that was assembled within a limit, after a state or after none, and signed. -/
inductive Fitted (previous_state : Option AuthoritativeState) (max_bytes : Int) (p : Publication) : Prop
  | mk {binary_pool keyring_pool retained decision root generation request inrelease release_signature rest files sums m} :
      retain dpkg_deb previous_state binary_pool keyring_pool .series_size (some max_bytes) = .ok (decision, retained) →
      Laid root retained keyring_pool →
      assemble hexdigest guess_type (previous_state.map (·.manifest)) generation root = .ok request →
      sign_handoff hexdigest guess_type request inrelease release_signature rest = .ok m →
      m.retention_max_bytes = some max_bytes →
      Tree hexdigest guess_type validate verify verify_signed p files sums m → Fitted previous_state max_bytes p

end

/-- What a publication writes beside its pool. -/
def metadata_bytes (p : Publication) : Int := bytes ((writes p.inventory).filter fun x => !startswith x.1 "pool/")

/-- What was planned under the lease is within a limit. -/
def Fits (hexdigest : ByteArray → String) (p : Publication) (s : Store) (max_bytes : Int) : Prop :=
  ∀ (now : Nat) (gc_plan : GcPlan) (projection : StorageProjection),
    Gc.plan_gc hexdigest (fun key => (.ok ((s.get key).map (·.value)) : Except PyErr _)) p.desired_manifest now p.caps =
      .ok gc_plan →
    project_storage (listed (s.listing "")) (writes p.inventory) (gc_plan.targets.map (·.key)) = .ok projection →
    projection.size ≤ max_bytes ∧ projected_limit_check p.desired_manifest projection = .ok ()

section
variable {hexdigest : ByteArray → String} {guess_type : String → Option String}
  {validate : String → Json → Except PyErr Unit} {verify : ByteArray → Except PyErr ByteArray}
  {verify_signed : ByteArray → ByteArray → Except PyErr Unit} {dpkg_deb : ByteArray → Except PyErr String}
  {p q : Publication} {s s₀ : Store} {max_bytes : Int} {previous_state : Option AuthoritativeState}

/-- The queued objects that are there are collected. -/
theorem collected {manifest : PublicationManifest} {now : Nat} {caps : GcCaps} {gc_plan : GcPlan}
    (h : Gc.plan_gc hexdigest (fun key => (.ok ((s.get key).map (·.value)) : Except PyErr _)) manifest now caps = .ok gc_plan)
    {key : String} (hqueued : key ∈ manifest.queuedKeys) : key ∈ gc_plan.targets.map (·.key) ∨ s.get key = none := by
  by_cases hnone : s.get key = none
  · exact .inr hnone
  obtain ⟨-, -, -, htargets, -⟩ := Gc.plan_gc_ok h
  obtain ⟨e, he, rfl⟩ := List.mem_map.1 hqueued
  have hexisting : e ∈ Gc.existing (fun key => (s.get key).map (·.value)) (Gc.queued manifest) := by
    refine List.mem_filter.2 ⟨(Gc.queued_perm manifest).mem_iff.2 he, ?_⟩
    rw [Option.isSome_map, Option.isSome_iff_ne_none]
    exact hnone
  rw [htargets, List.map_map]
  exact .inl (List.mem_map.2 ⟨e, hexisting, rfl⟩)

/-- The accounts agree if what was measured is what is counted beside the objects that go. -/
theorem fits_of (gone : List (String × Int)) {existing : Int} (hexisting : existing_non_pool_bytes previous_state = .ok existing)
    (hmeasured : existing + bytes gone = Lifecycle.storage_size (s₀.listing ""))
    (hfitted : Fitted hexdigest guess_type validate verify verify_signed dpkg_deb previous_state max_bytes p)
    (hapart : Apart s₀ s) (hleased : Leased p.owner s)
    (hreserve : metadata_bytes p + LeaseSize.leaseSize p.owner ≤ publication_reserve_bytes + lease_bytes s₀)
    (hnodup : (gone.map (·.1)).Nodup)
    (hgone : ∀ x ∈ gone, x.1 ≠ LEASE_KEY ∧ x ∈ listed (s₀.listing "") ∧
      ((∃ item ∈ p.inventory, item.relative_key = x.1) ∨ x.1 ∈ p.desired_manifest.queuedKeys)) :
    Fits hexdigest p s max_bytes := by
  intro now gc_plan projection hplan hprojection
  obtain ⟨hretain, hlaid, hassemble, hsign, hmax, htree⟩ := hfitted
  rw [retain, hexisting] at hretain
  obtain ⟨hretained, hlimit⟩ := retained_bytes (uncaught_eq_ok.1 hretain)
  have hwrites := (project_ok hprojection).2.1
  have hpool := htree.pool_writes hwrites
  rw [manifest_pool hassemble hsign] at hpool
  have hpool := (bytes_perm hpool).trans hlaid.bytes
  have hsplit := bytes_split (writes p.inventory) fun x => startswith x.1 "pool/"
  have huntouched := untouched_bytes (w := writes p.inventory) (d := gc_plan.targets.map (·.key)) hapart hleased hnodup
    fun x hx => by
      obtain ⟨hlease, hlisted, ⟨item, hitem, hkey⟩ | hqueued⟩ := hgone x hx
      · refine ⟨hlease, hlisted, .inl ?_⟩
        rw [writes_keys, ← hkey]
        exact List.mem_map_of_mem hitem
      · exact ⟨hlease, hlisted, .inr (collected hplan hqueued)⟩
  have hsize : projection.size ≤ max_bytes := by
    have hprojected := projected_bytes hprojection
    have hlimit := hlimit max_bytes rfl rfl
    rw [metadata_bytes] at hreserve
    omega
  refine ⟨hsize, ?_⟩
  have hdesired : p.desired_manifest.retention_max_bytes = some max_bytes := by
    rw [htree.desired_manifest]
    exact hmax
  rw [projected_limit_check, except_guard_eq_ok, hdesired]
  rintro ⟨-, hover⟩
  simp at hover
  omega

/-- The live pool of a whole publication is stored. -/
theorem pool_stored (hsigned : Signed hexdigest guess_type validate verify verify_signed q) (hwhole : Whole q s₀) :
    ∀ a ∈ expected_pool q.desired_manifest, a.key ≠ LEASE_KEY ∧ (a.key, a.size) ∈ listed (s₀.listing "") ∧
      a.cache_class = .immutable := by
  intro a ha
  obtain ⟨ha, hlive⟩ := List.mem_filter.1 ha
  obtain ⟨hpool, hlive⟩ : startswith a.key "pool/" = true ∧ a.key ∈ q.desired_manifest.live_objects := by
    simpa using hlive
  have himmutable : isImmutable a.key = true := by rw [isImmutable, hpool, Bool.true_or]
  obtain ⟨x, hx, -, hsize, -⟩ := hsigned.downloads hwhole a ha hlive himmutable
  obtain ⟨_, _, m, htree⟩ := hsigned
  refine ⟨fun h => ?_, mem_listed.2 ⟨x, hx, hsize⟩,
    (htree.artifacts.2.2 a (htree.artifacts.1 ▸ ha)).cache_class.trans (if_pos himmutable)⟩
  rw [h] at hpool
  exact absurd hpool (by decide)

/-- What goes is written again, or queued. -/
theorem Fitted.retires {state : AuthoritativeState}
    (h : Fitted hexdigest guess_type validate verify verify_signed dpkg_deb (some state) max_bytes p) {a : Artifact}
    (ha : a ∈ expected_pool state.manifest) (hclass : a.cache_class = .immutable) :
    (∃ item ∈ p.inventory, item.relative_key = a.key) ∨ a.key ∈ p.desired_manifest.queuedKeys := by
  obtain ⟨-, -, hassemble, hsign, -, htree⟩ := h
  obtain ⟨ha, hlive⟩ := List.mem_filter.1 ha
  obtain ⟨-, hlive⟩ : startswith a.key "pool/" = true ∧ a.key ∈ state.manifest.live_objects := by simpa using hlive
  have hkeeps : Keeps state.manifest _ := Follows.keeps ⟨_, _, _, _, _, _, hassemble, hsign⟩
  rcases hkeeps.retired a ha hclass hlive with hstays | hqueued
  · rw [htree.assembled.parts.live] at hstays
    obtain ⟨b, hb, hkey⟩ := List.mem_map.1 hstays
    obtain ⟨item, hitem, hitemkey, -⟩ := htree.live (htree.artifacts.1.symm ▸ hb)
    exact .inl ⟨item, hitem, hitemkey.trans hkey⟩
  · rw [htree.desired_manifest]
    exact .inr hqueued

end

/-! ## A first publication into an empty storage -/

namespace Fitted.Sample

open Signed.Sample (digest files sums signed request root)

def dpkg_deb : ByteArray → Except PyErr String := fun _ => .ok "7.1.7-1"

def binary_pool : Dict ByteArray := ⟨[("dkc.deb", ⟨#[]⟩)], by decide⟩

theorem retain_ok : (match retain dpkg_deb none binary_pool .empty .series_size (some 100000000) with
    | .ok (_, retained) => decide (retained.items.map (fun x => (x.1, (x.2.size : Int))) = [("dkc.deb", 0)])
    | .error _ => false) = true := by decide +kernel

theorem sizes_ok : (match signed with
    | .ok m => (match signed_pointer m State.Sample.digest with
      | .ok pointer => decide (m.to_dict.sortKeys.weight ≤ 1300 ∧ pointer.to_dict.sortKeys.weight ≤ 1300)
      | .error _ => false)
    | .error _ => false) = true := by decide +kernel

/-- The files of the repository are small. -/
theorem files_small {m : PublicationManifest} (hm : signed = .ok m) {key : String} {contents : ByteArray}
    (h : files.get? key = some contents) : contents.size ≤ 15601 := by
  have hsizes := sizes_ok
  rw [hm] at hsizes
  dsimp only at hsizes
  cases hp : signed_pointer m State.Sample.digest with
  | error e =>
    rw [hp] at hsizes
    cases hsizes
  | ok pointer =>
    rw [hp] at hsizes
    obtain ⟨m', -, -, hm', -, -, -, hfloats⟩ := Signed.Sample.accepted_parts
    rw [hm] at hm'
    cases hm'
    obtain ⟨hbody, hpointer⟩ := Signed.Sample.bodies hm hp hfloats
    obtain ⟨hm, hp⟩ := of_decide_eq_true hsizes
    have hsize {v : Json} {b : ByteArray} (hb : Serialize.canonical_bytes v = .ok b) (hv : v.sortKeys.weight ≤ 1300) :
        b.size ≤ 15601 := by
      have hrender := v.sortKeys.utf8Len_render
      rw [LeaseSize.canonical_size hb]
      omega
    obtain ⟨-, rfl⟩ := (Dict.get?_ofKeys _).1 h
    split
    · exact hsize hpointer hp
    split
    · exact hsize hbody hm
    · exact Nat.zero_le _

theorem metadata_small {p : Publication} {m : PublicationManifest} (hm : signed = .ok m)
    (htree : Tree digest (fun _ => none) (fun _ _ => .ok ()) .ok (fun _ _ => .ok ()) p files sums m) :
    metadata_bytes p ≤ 200000 := by
  have hsized := Inventory.sized htree.loaded
  have hall : ∀ n ∈ ((writes p.inventory).filter fun x => !startswith x.1 "pool/").map (·.2), n ≤ 15601 := by
    intro n hn
    obtain ⟨x, hx, rfl⟩ := List.mem_map.1 hn
    obtain ⟨item, hitem, rfl⟩ := List.mem_map.1 (List.mem_filter.1 hx).1
    have hsmall := files_small hm ((Inventory.contents htree.loaded).1 item hitem)
    rw [hsized item hitem] at hsmall
    exact Int.ofNat_le.2 hsmall
  have hlength : (((writes p.inventory).filter fun x => !startswith x.1 "pool/").map (·.2)).length ≤ 12 := by
    rw [List.length_map]
    refine (List.length_filter_le _ _).trans ?_
    rw [writes, List.length_map, Inventory.length htree.loaded]
    decide
  have hsum := List.sum_le_card_nsmul _ _ hall
  rw [metadata_bytes, bytes]
  simp only [nsmul_eq_mul] at hsum
  omega

/-- It was assembled within its limit. -/
theorem fitted {p : Publication} {m : PublicationManifest} (hm : signed = .ok m)
    (htree : Tree digest (fun _ => none) (fun _ _ => .ok ()) .ok (fun _ _ => .ok ()) p files sums m) :
    Fitted digest (fun _ => none) (fun _ _ => .ok ()) .ok (fun _ _ => .ok ()) dpkg_deb none 100000000 p := by
  obtain ⟨decision, retained, hretain, hitems⟩ : ∃ decision retained,
      retain dpkg_deb none binary_pool .empty .series_size (some 100000000) = .ok (decision, retained) ∧
        retained.items.map (fun x => (x.1, (x.2.size : Int))) = [("dkc.deb", 0)] := by
    have hok := retain_ok
    cases hretain : retain dpkg_deb none binary_pool .empty .series_size (some 100000000) with
    | error e =>
      rw [hretain] at hok
      cases hok
    | ok result =>
      rw [hretain] at hok
      exact ⟨result.1, result.2, rfl, of_decide_eq_true hok⟩
  have hlaid : Laid root retained .empty := by
    have hpool : (retained.items.map fun x => ("pool/main/d/dkc-linux/" ++ x.1, (x.2.size : Int))) =
        [("pool/main/d/dkc-linux/dkc.deb", 0)] := by
      have hmap := congrArg (List.map fun x : String × Int => ("pool/main/d/dkc-linux/" ++ x.1, x.2)) hitems
      rw [List.map_map] at hmap
      exact hmap.trans rfl
    rw [Laid, hpool]
    exact .of_eq (by decide +kernel)
  unfold signed at hm
  cases hrequest : request with
  | error e =>
    rw [hrequest] at hm
    cases hm
  | ok r =>
    rw [hrequest] at hm
    refine .mk hretain hlaid hrequest hm ?_ htree
    obtain ⟨_, -, hm⟩ := except_bind_eq_ok.1 hm
    obtain ⟨_, -, hm⟩ := except_bind_eq_ok.1 hm
    obtain ⟨_, -, hm⟩ := except_bind_eq_ok.1 hm
    obtain ⟨_, -, hm⟩ := except_bind_eq_ok.1 hm
    rw [PublicationManifest.make_ok hm]
    rfl

def manager : LeaseManager := Sample.publication.manager

/-- A lease that a manager wrote. -/
theorem leased : ∃ value : ObjectValue, ∀ etag, Written Sample.owner ⟨value, etag⟩ := by
  obtain ⟨r, hr⟩ : ∃ r, manager.held_record Sample.owner 0 = .ok r := LeaseSafety.held_record_ok (by decide)
  obtain ⟨body, hbody⟩ := Serialize.canonical_bytes_ok r.to_dict_clean
  exact ⟨⟨body, LEASE_METADATA⟩, fun etag => ⟨manager, 0, none, r, body, hr, hbody, rfl⟩⟩

/-- The empty storage is read as such. -/
theorem read_empty : ∃ handoff tr, load_authoritative_state_handoff digest (fun _ _ => .ok ()) .ok (fun _ _ => .ok ()) handoff =
      .ok none ∧
    Conc.Trace Reads Eq ((read_state digest (fun _ _ => .ok ()) .ok (fun _ _ => .ok ()) (fun _ => "etag") :
      Cmd Unit StateHandoff) ()) (.begins Conc.CondStore.empty) tr (.ret (.ok handoff, ())) (.begins Conc.CondStore.empty) :=
  ⟨.EMPTY 0 0, _, rfl, .op rfl ⟨rfl, rfl⟩ (.op rfl ⟨rfl, rfl⟩ .nil)⟩

end Fitted.Sample

end StoragePublish
