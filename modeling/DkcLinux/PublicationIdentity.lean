import DkcLinux.Records
import DkcLinux.Text.JsonWire

/-!
# The publication identity (`dkc/buildid.py`)

The identity is the digest of the canonical text of an inventory of the inputs, and of the resolved configuration
without the two keys that carry the identity.

| theorem                  | what                                                              |
|--------------------------|-------------------------------------------------------------------|
| `inventory_injective`    | equal canonical inventories are of the same inputs                |
| `policy_config_iff`      | equal policy configurations differ in identity fields at most     |
| `identity_separates`     | both, for the digests                                             |

`hashlib.sha256(...).hexdigest()` is a parameter; it has no collision between the two texts that are compared.
-/

namespace BuildId

open Py Records

def IDENTITY_FIELDS : List String := ["CONFIG_LOCALVERSION", "CONFIG_BUILD_SALT"]

/-! ## Patterns -/

/-- `^[a-z0-9./_-]+@sha256:[0-9a-f]{64}$`. -/
def isImageDigest (s : String) : Bool :=
  let name := s.toList.takeWhile (· ≠ '@')
  let digest := s.toList.drop (name.length + 8)
  fullmatchClass (fun c => isAsciiLower c || isAsciiDigit c || "./_-".toList.contains c) 1 none name &&
    fullmatchClass isLowerHex 64 (some 64) digest && s.toList = name ++ "@sha256:".toList ++ digest

/-- `^[a-z0-9][a-z0-9+.-]*:[a-z0-9][a-z0-9-]*$`. -/
def isDependencyKey (s : String) : Bool :=
  let start := fun c => isAsciiLower c || isAsciiDigit c
  let (name, arch) := partition ':' s.toList
  s.toList.contains ':' && name.head?.any start && (name.all fun c => start c || "+.-".toList.contains c) &&
    arch.head?.any start && arch.all fun c => start c || c == '-'

/-- `^\S+@[0-9a-f]{64}$`. -/
def isLockedDependency (s : String) : Bool :=
  let (version, digest) := rpartition '@' s.toList
  s.toList.contains '@' && fullmatchClass (!isSpace ·) 1 none version && fullmatchClass isLowerHex 64 (some 64) digest

/-- `CONFIG_[A-Z0-9_]+`. -/
def isConfigKey (s : String) : Bool :=
  startswith s "CONFIG_" && fullmatchClass (fun c => isAsciiUpper c || isAsciiDigit c || c == '_') 1 none (s.toList.drop 7)

/-- `sorted` of names. -/
def sorted_names (names : List String) : List String := names.insertionSort fun a b => a ≤ b

/-! ## The policy configuration -/

def normalized_policy_config (config : Dict String) : Except PyErr (Dict String) :=
  let malformed := sorted_names (config.keys.filter fun key => !isConfigKey key)
  if malformed ≠ [] then .error (.ValueError "malformed resolved configuration key(s)" malformed)
  else
    let sorted : Dict String := {
      items := sortedItems config.items
      nodup := config.nodup_sortedItems }
    let normalized := sorted.filter fun key _ => key ∉ IDENTITY_FIELDS
    if normalized.items = [] then .error (.ValueError "resolved policy configuration must not be empty")
    else .ok normalized

/-- A dict of texts as a JSON value. -/
def str_dict (d : Dict String) : Json := .obj (d.items.map fun x => (x.1, .str x.2))

def policy_config_digest (hexdigest : ByteArray → String) (config : Dict String) : Except PyErr String := do
  let normalized ← normalized_policy_config config
  return hexdigest (← Serialize.canonical_bytes (str_dict normalized))

/-! ## The inputs -/

structure BuildInputs where
  schema_version : Int
  debian_source_version : String
  dsc_sha256 : String
  source_member_sha256 : Dict String
  dkc_revision : Int
  overlay_sha256 : String
  flavor_config_sha256 : Dict String
  flavor_policy : Dict String
  base_image_digest : String
  toolchain_lock_sha256 : String
  build_policy_revision : Int
  lto_mode : String
  dependency_lock : Dict String

def flavor_order : List String := ["v2", "v3", "v4"]

/-- The keys are exactly the flavors. -/
def covers_flavors (d : Dict String) : Bool := (d.keys.all flavor_order.contains) && flavor_order.all d.keys.contains

/-- The missing flavors, then the unexpected ones, as the message shows them. -/
def uncovered (d : Dict String) : List String :=
  sorted_names (flavor_order.filter fun f => !d.keys.contains f) ++ sorted_names (d.keys.filter fun k => !flavor_order.contains k)

namespace BuildInputs

/-- The digests by their names in an error. -/
def hashes (x : BuildInputs) : List (String × String) :=
  [("dsc_sha256", x.dsc_sha256), ("overlay_sha256", x.overlay_sha256), ("toolchain_lock_sha256", x.toolchain_lock_sha256)] ++
    (x.source_member_sha256.items.map fun m => ("source member " ++ m.1, m.2)) ++
    x.flavor_config_sha256.items.map fun c => (c.1 ++ " config", c.2)

def malformed_digests (x : BuildInputs) : List String :=
  sorted_names ((x.hashes.filter fun h => !isSha256 h.2).map (·.1))

def malformed_dependencies (x : BuildInputs) : List String :=
  sorted_names ((x.dependency_lock.items.filter fun d => !isDependencyKey d.1 || !isLockedDependency d.2).map (·.1))

def check (x : BuildInputs) : Except PyErr Unit :=
  if !covers_flavors x.flavor_config_sha256 then
    .error (.ValueError "configuration hashes must cover exactly v2, v3 and v4" (uncovered x.flavor_config_sha256))
  else if !covers_flavors x.flavor_policy then
    .error (.ValueError "flavor policy must cover exactly v2, v3 and v4" (uncovered x.flavor_policy))
  else if x.malformed_digests ≠ [] then .error (.ValueError "malformed SHA-256 input(s)" x.malformed_digests)
  else if x.schema_version < 1 ∨ x.build_policy_revision < 1 ∨ x.dkc_revision < 1 then
    .error (.ValueError "schema, build-policy and DKC revisions must be positive")
  else if x.lto_mode ∉ ["none", "thin", "full"] then .error (.ValueError "LTO mode must be none, thin, or full")
  else if x.debian_source_version = "" ∨ x.source_member_sha256.items.length ≠ 2 then
    .error (.ValueError "source identity must name a version and exactly two source members")
  else if !isImageDigest x.base_image_digest then
    .error (.ValueError "base image must be an immutable registry SHA-256 digest")
  else if x.dependency_lock.items = [] then .error (.ValueError "exact build dependency lock must not be empty")
  else if x.malformed_dependencies ≠ [] then
    .error (.ValueError "malformed exact build dependency record(s)" x.malformed_dependencies)
  else .ok ()

/-- `dict(sorted(d.items()))`. -/
def sorted_dict (d : Dict String) : Json := .obj (sortedItems (d.items.map fun x => (x.1, .str x.2)))

def flavor (x : BuildInputs) (name : String) : Except PyErr Json :=
  match x.flavor_config_sha256.get? name, x.flavor_policy.get? name with
  | some config, some policy => .ok (.obj [("flavor", .str name), ("config_sha256", .str config), ("policy", .str policy)])
  | _, _ => .error (.KeyError name)

def inventory (x : BuildInputs) : Except PyErr Json := do
  x.check
  let flavors ← flavor_order.mapM x.flavor
  return .obj [
    ("schema_version", .int x.schema_version),
    ("build_policy_revision", .int x.build_policy_revision),
    ("debian_source", .obj [
      ("version", .str x.debian_source_version),
      ("dsc_sha256", .str x.dsc_sha256),
      ("members", sorted_dict x.source_member_sha256)]),
    ("dkc_revision", .int x.dkc_revision),
    ("lto_mode", .str x.lto_mode),
    ("overlay_sha256", .str x.overlay_sha256),
    ("flavors", .arr flavors),
    ("toolchain", .obj [
      ("base_image_digest", .str x.base_image_digest),
      ("lock_sha256", .str x.toolchain_lock_sha256),
      ("dependencies", sorted_dict x.dependency_lock)])]

def digest (hexdigest : ByteArray → String) (x : BuildInputs) : Except PyErr String := do
  return hexdigest (← Serialize.canonical_bytes (← x.inventory))

end BuildInputs

/-! ## Canonical texts -/

/-- The same keys with the same values. -/
def Same (d d' : Dict String) : Prop := ∀ key, d.get? key = d'.get? key

theorem same_iff_perm {d d' : Dict String} : Same d d' ↔ d.items.Perm d'.items := by
  rw [List.perm_ext_iff_of_nodup d.nodup.of_map d'.nodup.of_map]
  constructor
  · rintro h ⟨key, value⟩
    rw [Dict.mem_items, Dict.mem_items, h key]
  · intro h key
    apply Option.ext
    intro value
    rw [← Dict.mem_items, ← Dict.mem_items]
    exact h (key, value)

/-- Items with distinct keys are sorted in one way. -/
theorem sortedItems_perm {V : Type} {xs ys : List (String × V)} (hn : (xs.map (·.1)).Nodup) (h : xs.Perm ys) :
    sortedItems xs = sortedItems ys := by
  have hpairwise : ∀ zs : List (String × V), (sortedItems zs).Pairwise fun a b => a.1 ≤ b.1 := by
    intro zs
    exact List.pairwise_insertionSort (fun a b : String × V => a.1 ≤ b.1) zs
  refine ((perm_sortedItems xs).trans (h.trans (perm_sortedItems ys).symm)).eq_of_pairwise ?_ (hpairwise xs) (hpairwise ys)
  intro a b ha hb hab hba
  have ha := mem_sortedItems.1 ha
  have hb := h.mem_iff.2 (mem_sortedItems.1 hb)
  exact List.inj_on_of_nodup_map hn ha hb (le_antisymm hab hba)

theorem lookup_str (items : List (String × String)) (key : String) :
    (items.map fun x => (x.1, Json.str x.2)).lookup key = (items.lookup key).map Json.str := by
  induction items with
  | nil => rfl
  | cons x items ih =>
    obtain ⟨name, text⟩ := x
    cases h : key == name <;> simp [List.lookup_cons, h, ih]

theorem nodup_str (d : Dict String) : ((d.items.map fun x => (x.1, Json.str x.2)).map (·.1)).Nodup := by
  rw [List.map_map]
  exact d.nodup

theorem str_injective {a b : Option String} (h : (a.map Json.str).map Json.sortKeys = (b.map Json.str).map Json.sortKeys) :
    a = b := by
  cases a <;> cases b <;> simp_all [Json.sortKeys]

/-- The fields of two dicts with the same canonical text. -/
theorem obj_field {fs gs : List (String × Json)} (hn : (fs.map (·.1)).Nodup) (hn' : (gs.map (·.1)).Nodup)
    (h : (Json.obj fs).sortKeys = (Json.obj gs).sortKeys) (key : String) :
    (fs.lookup key).map Json.sortKeys = (gs.lookup key).map Json.sortKeys := by
  rw [← Json.lookup_sortKeys hn, ← Json.lookup_sortKeys hn']
  rw [Json.sortKeys, Json.sortKeys] at h
  rw [Json.obj.inj h]

theorem forall₂_of_lookup : ∀ {fs gs : List (String × Json)}, (fs.map (·.1)).Nodup → fs.map (·.1) = gs.map (·.1) →
    (∀ key, (fs.lookup key).map Json.sortKeys = (gs.lookup key).map Json.sortKeys) →
      List.Forall₂ (fun f g => f.2.sortKeys = g.2.sortKeys) fs gs
  | [], [], _, _, _ => .nil
  | (k, v) :: fs, (k', w) :: gs, hn, hkeys, h => by
    obtain ⟨rfl, htail⟩ := List.cons_eq_cons.1 hkeys
    have hn := List.nodup_cons.1 hn
    refine .cons ?_ (forall₂_of_lookup hn.2 htail fun key => ?_)
    · simpa [List.lookup_cons] using h k
    · by_cases hkey : key = k
      · have hnone : ∀ ds : List (String × Json), k ∉ ds.map (·.1) → ds.lookup k = none := by
          intro ds hk
          rw [List.lookup_eq_none_iff]
          intro f hf
          simpa using fun heq : k = f.1 => hk (heq ▸ List.mem_map_of_mem hf)
        rw [hkey, hnone fs hn.1, hnone gs (htail ▸ hn.1)]
      · have hne : (key == k) = false := by simpa using hkey
        simpa [List.lookup_cons, hne] using h key

/-- Two dicts with the same keys and the same canonical text, field by field. -/
theorem obj_fields {fs gs : List (String × Json)} (h : (Json.obj fs).sortKeys = (Json.obj gs).sortKeys)
    (hn : (fs.map (·.1)).Nodup) (hkeys : fs.map (·.1) = gs.map (·.1)) : List.Forall₂ (fun f g => f.2.sortKeys = g.2.sortKeys) fs gs :=
  forall₂_of_lookup hn hkeys (obj_field hn (hkeys ▸ hn) h)

theorem str_dict_iff {d d' : Dict String} : (str_dict d).sortKeys = (str_dict d').sortKeys ↔ Same d d' := by
  constructor
  · intro h key
    have hfield := obj_field (nodup_str d) (nodup_str d') h key
    rw [lookup_str, lookup_str] at hfield
    exact str_injective hfield
  · intro h
    have hperm := (same_iff_perm.1 h).map fun x => (x.1, Json.str x.2)
    unfold str_dict
    rw [Json.sortKeys, Json.sortKeys, Json.sortFields_map, Json.sortFields_map]
    congr 1
    apply sortedItems_perm
    · rw [List.map_map]
      exact nodup_str d
    · exact hperm.map _

/-- Equal canonical bytes are of values that are equal up to the order of keys. -/
theorem canonical_bytes_iff {v w : Json} (hv : v.Clean) (hw : w.Clean) :
    Serialize.canonical_bytes v = Serialize.canonical_bytes w ↔ v.sortKeys = w.sortKeys := by
  constructor
  · intro h
    obtain ⟨b, hb⟩ := Serialize.canonical_bytes_ok hv
    have hb' := h.symm.trans hb
    exact Except.ok.inj ((Serialize.loads_canonical_bytes hv hb).symm.trans (Serialize.loads_canonical_bytes hw hb'))
  · intro h
    have hdumps : v.dumps = w.dumps := by
      rw [Json.dumps, Json.dumps, Json.rejectFloats_clean v hv, Json.rejectFloats_clean w hw, h]
    rw [Serialize.canonical_bytes, Serialize.canonical_bytes, hdumps]

/-- No collision between two texts. -/
def CollisionFree (hexdigest : ByteArray → String) (a b : Except PyErr ByteArray) : Prop :=
  ∀ s t, a = .ok s → b = .ok t → hexdigest s = hexdigest t → s = t

theorem digest_iff {hexdigest : ByteArray → String} {v w : Json} (hv : v.Clean) (hw : w.Clean)
    (hfree : CollisionFree hexdigest (Serialize.canonical_bytes v) (Serialize.canonical_bytes w)) :
    (Serialize.canonical_bytes v).map hexdigest = (Serialize.canonical_bytes w).map hexdigest ↔ v.sortKeys = w.sortKeys := by
  rw [← canonical_bytes_iff hv hw]
  obtain ⟨s, hs⟩ := Serialize.canonical_bytes_ok hv
  obtain ⟨t, ht⟩ := Serialize.canonical_bytes_ok hw
  rw [hs, ht] at hfree ⊢
  constructor
  · intro h
    rw [hfree s t rfl rfl (Except.ok.inj h)]
  · intro h
    rw [h]

theorem clean_str_dict (d : Dict String) : (str_dict d).Clean := by
  refine ⟨nodup_str d, Json.cleanFields_iff.2 fun f hf => ?_⟩
  obtain ⟨x, -, rfl⟩ := List.mem_map.1 hf
  trivial

/-! ## Policy configurations -/

theorem normalized_get {config normalized : Dict String} (h : normalized_policy_config config = .ok normalized)
    {key value : String} : normalized.get? key = some value ↔ config.get? key = some value ∧ key ∉ IDENTITY_FIELDS := by
  unfold normalized_policy_config at h
  dsimp only at h
  obtain ⟨-, h⟩ := except_check_eq_ok.1 h
  obtain ⟨-, h⟩ := except_check_eq_ok.1 h
  cases h
  rw [Dict.get?_filter, ← Dict.mem_items, ← Dict.mem_items]
  simp

theorem policy_config_iff {c d c' d' : Dict String} (hc : normalized_policy_config c = .ok c')
    (hd : normalized_policy_config d = .ok d') :
    Same c' d' ↔ ∀ key, key ∉ IDENTITY_FIELDS → c.get? key = d.get? key := by
  constructor
  · intro h key hkey
    apply Option.ext
    intro value
    have hvalue : c'.get? key = some value ↔ d'.get? key = some value := by rw [h key]
    rw [normalized_get hc, normalized_get hd] at hvalue
    simpa [hkey] using hvalue
  · intro h key
    apply Option.ext
    intro value
    rw [normalized_get hc, normalized_get hd]
    refine and_congr_left fun hkey => ?_
    rw [h key hkey]

/-! ## Inventories -/

namespace BuildInputs

/-- The same inputs, dicts in any order. -/
structure Agrees (x y : BuildInputs) : Prop where
  schema_version : x.schema_version = y.schema_version
  debian_source_version : x.debian_source_version = y.debian_source_version
  dsc_sha256 : x.dsc_sha256 = y.dsc_sha256
  source_member_sha256 : Same x.source_member_sha256 y.source_member_sha256
  dkc_revision : x.dkc_revision = y.dkc_revision
  overlay_sha256 : x.overlay_sha256 = y.overlay_sha256
  flavor_config_sha256 : Same x.flavor_config_sha256 y.flavor_config_sha256
  flavor_policy : Same x.flavor_policy y.flavor_policy
  base_image_digest : x.base_image_digest = y.base_image_digest
  toolchain_lock_sha256 : x.toolchain_lock_sha256 = y.toolchain_lock_sha256
  build_policy_revision : x.build_policy_revision = y.build_policy_revision
  lto_mode : x.lto_mode = y.lto_mode
  dependency_lock : Same x.dependency_lock y.dependency_lock

theorem sorted_dict_eq {d d' : Dict String} (h : Same d d') : sorted_dict d = sorted_dict d' := by
  unfold sorted_dict
  rw [sortedItems_perm (nodup_str d) ((same_iff_perm.1 h).map _)]

theorem sorted_dict_sortKeys (d : Dict String) : (sorted_dict d).sortKeys = (str_dict d).sortKeys := by
  unfold sorted_dict str_dict
  rw [Json.sortKeys, Json.sortKeys, Json.sortFields_map, Json.sortFields_map]
  congr 1
  apply sortedItems_perm
  · rw [List.map_map]
    exact ((perm_sortedItems _).map (·.1)).nodup_iff.2 (nodup_str d)
  · exact (perm_sortedItems _).map _

theorem clean_sorted_dict (d : Dict String) : (sorted_dict d).Clean := by
  refine ⟨((perm_sortedItems _).map (·.1)).nodup_iff.2 (nodup_str d), Json.cleanFields_iff.2 fun f hf => ?_⟩
  obtain ⟨x, -, rfl⟩ := List.mem_map.1 (mem_sortedItems.1 hf)
  trivial

/-- The entry of a flavor. -/
def entry (name config policy : String) : Json :=
  .obj [("flavor", .str name), ("config_sha256", .str config), ("policy", .str policy)]

theorem flavor_eq_ok {x : BuildInputs} {name : String} {v : Json} (h : x.flavor name = .ok v) : ∃ config policy,
    x.flavor_config_sha256.get? name = some config ∧ x.flavor_policy.get? name = some policy ∧ v = entry name config policy := by
  unfold flavor at h
  split at h
  · next config policy hconfig hpolicy =>
    cases h
    exact ⟨config, policy, hconfig, hpolicy, rfl⟩
  · cases h

theorem covers_get {d : Dict String} (h : covers_flavors d = true) {key : String} (hkey : key ∉ flavor_order) :
    d.get? key = none := by
  rw [Dict.get?_eq_none]
  intro hmem
  rw [covers_flavors, Bool.and_eq_true, List.all_eq_true] at h
  have hin := h.1 key hmem
  exact hkey (by simpa using hin)

/-- What an accepted inventory is made of. -/
structure Inventory (x : BuildInputs) (inventory : Json) (flavors : List Json) : Prop where
  config_covers : covers_flavors x.flavor_config_sha256 = true
  policy_covers : covers_flavors x.flavor_policy = true
  entries : flavor_order.mapM x.flavor = .ok flavors
  tree : inventory = .obj [
    ("schema_version", .int x.schema_version),
    ("build_policy_revision", .int x.build_policy_revision),
    ("debian_source", .obj [
      ("version", .str x.debian_source_version),
      ("dsc_sha256", .str x.dsc_sha256),
      ("members", sorted_dict x.source_member_sha256)]),
    ("dkc_revision", .int x.dkc_revision),
    ("lto_mode", .str x.lto_mode),
    ("overlay_sha256", .str x.overlay_sha256),
    ("flavors", .arr flavors),
    ("toolchain", .obj [
      ("base_image_digest", .str x.base_image_digest),
      ("lock_sha256", .str x.toolchain_lock_sha256),
      ("dependencies", sorted_dict x.dependency_lock)])]

theorem inventory_ok {x : BuildInputs} {v : Json} (h : x.inventory = .ok v) : ∃ flavors, Inventory x v flavors := by
  unfold inventory at h
  obtain ⟨u, hcheck, h⟩ := except_bind_eq_ok.1 h
  obtain ⟨flavors, hflavors, h⟩ := except_bind_eq_ok.1 h
  cases h
  unfold check at hcheck
  obtain ⟨hconfig, hcheck⟩ := except_check_eq_ok.1 hcheck
  obtain ⟨hpolicy, -⟩ := except_check_eq_ok.1 hcheck
  refine ⟨flavors, ?_, ?_, hflavors, rfl⟩
  · simpa using hconfig
  · simpa using hpolicy

/-- The entries of the three flavors. -/
theorem Inventory.flavors_eq {x : BuildInputs} {v : Json} {flavors : List Json} (h : Inventory x v flavors) :
    ∃ config policy : String → String, flavors = flavor_order.map (fun name => entry name (config name) (policy name)) ∧
      ∀ name ∈ flavor_order, x.flavor_config_sha256.get? name = some (config name) ∧
        x.flavor_policy.get? name = some (policy name) := by
  refine ⟨fun name => (x.flavor_config_sha256.get? name).getD "", fun name => (x.flavor_policy.get? name).getD "", ?_, ?_⟩
  · have hentries := except_mapM_forall₂ h.entries
    refine (List.forall₂_eq_eq_eq ▸ List.forall₂_map_left_iff.2 (hentries.imp fun name v hv => ?_) :
      flavor_order.map _ = flavors).symm
    obtain ⟨config, policy, hconfig, hpolicy, rfl⟩ := flavor_eq_ok hv
    simp [hconfig, hpolicy]
  · intro name hname
    obtain ⟨v, -, hv⟩ := (except_mapM_mem h.entries).1 name hname
    obtain ⟨config, policy, hconfig, hpolicy, -⟩ := flavor_eq_ok hv
    simp [hconfig, hpolicy]

theorem clean_inventory {x : BuildInputs} {v : Json} (h : x.inventory = .ok v) : v.Clean := by
  obtain ⟨flavors, hinv⟩ := inventory_ok h
  obtain ⟨config, policy, hflavors, -⟩ := hinv.flavors_eq
  rw [hinv.tree, hflavors]
  simp [Json.Clean, Json.CleanFields, Json.CleanItems, clean_sorted_dict, flavor_order, entry]

/-- **Equal inventories are of inputs that agree.** -/
theorem inventory_injective {x y : BuildInputs} {v w : Json} (hx : x.inventory = .ok v) (hy : y.inventory = .ok w)
    (h : v.sortKeys = w.sortKeys) : x.Agrees y := by
  obtain ⟨flavors, hv⟩ := inventory_ok hx
  obtain ⟨flavors', hw⟩ := inventory_ok hy
  obtain ⟨config, policy, hflavors, hget⟩ := hv.flavors_eq
  obtain ⟨config', policy', hflavors', hget'⟩ := hw.flavors_eq
  rw [hv.tree, hw.tree] at h
  have hfields := obj_fields h (by simp) rfl
  simp only [List.forall₂_cons, List.forall₂_nil_left_iff, and_true] at hfields
  obtain ⟨hversion, hpolicy, hsource, hrevision, hmode, hoverlay, hflavor, htoolchain⟩ := hfields
  have hsource := obj_fields hsource (by simp) rfl
  have htoolchain := obj_fields htoolchain (by simp) rfl
  simp only [List.forall₂_cons, List.forall₂_nil_left_iff, and_true, sorted_dict_sortKeys, str_dict_iff] at hsource htoolchain
  obtain ⟨hdebian, hdsc, hmembers⟩ := hsource
  obtain ⟨himage, hlock, hdependencies⟩ := htoolchain
  have hentries : ∀ name ∈ flavor_order, (entry name (config name) (policy name)).sortKeys =
      (entry name (config' name) (policy' name)).sortKeys := by
    rw [hflavors, hflavors'] at hflavor
    simp only [Json.sortKeys, Json.sortItems_map, List.map_map, Json.arr.injEq] at hflavor
    exact fun name hname => List.map_inj_left.1 hflavor name hname
  have hboth : ∀ name ∈ flavor_order, config name = config' name ∧ policy name = policy' name := by
    intro name hname
    have hentry := hentries name hname
    unfold entry at hentry
    have hentry := obj_fields hentry (by simp) rfl
    simp only [List.forall₂_cons, List.forall₂_nil_left_iff, and_true] at hentry
    exact ⟨Json.str.inj hentry.2.1, Json.str.inj hentry.2.2⟩
  refine ⟨Json.int.inj hversion, Json.str.inj hdebian, Json.str.inj hdsc, hmembers, Json.int.inj hrevision,
    Json.str.inj hoverlay, fun key => ?_, fun key => ?_, Json.str.inj himage, Json.str.inj hlock, Json.int.inj hpolicy,
    Json.str.inj hmode, hdependencies⟩
  · by_cases hkey : key ∈ flavor_order
    · rw [(hget key hkey).1, (hget' key hkey).1, (hboth key hkey).1]
    · rw [covers_get hv.config_covers hkey, covers_get hw.config_covers hkey]
  · by_cases hkey : key ∈ flavor_order
    · rw [(hget key hkey).2, (hget' key hkey).2, (hboth key hkey).2]
    · rw [covers_get hv.policy_covers hkey, covers_get hw.policy_covers hkey]

/-- Inputs that agree have one inventory. -/
theorem inventory_agrees {x y : BuildInputs} {v w : Json} (hx : x.inventory = .ok v) (hy : y.inventory = .ok w)
    (h : x.Agrees y) : v = w := by
  obtain ⟨flavors, hv⟩ := inventory_ok hx
  obtain ⟨flavors', hw⟩ := inventory_ok hy
  have hflavor : ∀ name, x.flavor name = y.flavor name := by
    intro name
    unfold flavor
    rw [h.flavor_config_sha256 name, h.flavor_policy name]
  have hflavors : flavors = flavors' := by
    have hentries := hv.entries
    rw [funext hflavor, hw.entries] at hentries
    exact (Except.ok.inj hentries).symm
  rw [hv.tree, hw.tree, h.schema_version, h.debian_source_version, h.dsc_sha256, sorted_dict_eq h.source_member_sha256,
    h.dkc_revision, h.overlay_sha256, h.base_image_digest, h.toolchain_lock_sha256, h.build_policy_revision, h.lto_mode,
    sorted_dict_eq h.dependency_lock, hflavors]

end BuildInputs

/-! ## The identity -/

/-- **The identity separates inputs, and policy configurations up to the identity fields.** -/
theorem identity_separates (hexdigest : ByteArray → String) :
    (∀ (x y : BuildInputs) (v w : Json), x.inventory = .ok v → y.inventory = .ok w →
      CollisionFree hexdigest (Serialize.canonical_bytes v) (Serialize.canonical_bytes w) →
        (x.digest hexdigest = y.digest hexdigest ↔ x.Agrees y)) ∧
    ∀ c d c' d' : Dict String, normalized_policy_config c = .ok c' → normalized_policy_config d = .ok d' →
      CollisionFree hexdigest (Serialize.canonical_bytes (str_dict c')) (Serialize.canonical_bytes (str_dict d')) →
        (policy_config_digest hexdigest c = policy_config_digest hexdigest d ↔
          ∀ key, key ∉ IDENTITY_FIELDS → c.get? key = d.get? key) := by
  constructor
  · intro x y v w hx hy hfree
    have hv := BuildInputs.clean_inventory hx
    have hw := BuildInputs.clean_inventory hy
    have hdigest : ∀ {z : BuildInputs} {u : Json}, z.inventory = .ok u →
        z.digest hexdigest = (Serialize.canonical_bytes u).map hexdigest := by
      intro z u hz
      rw [BuildInputs.digest, hz]
      rfl
    rw [hdigest hx, hdigest hy, digest_iff hv hw hfree]
    constructor
    · exact BuildInputs.inventory_injective hx hy
    · intro hagrees
      rw [BuildInputs.inventory_agrees hx hy hagrees]
  · intro c d c' d' hc hd hfree
    have hdigest : ∀ {z z' : Dict String}, normalized_policy_config z = .ok z' →
        policy_config_digest hexdigest z = (Serialize.canonical_bytes (str_dict z')).map hexdigest := by
      intro z z' hz
      rw [policy_config_digest, hz]
      rfl
    rw [hdigest hc, hdigest hd, digest_iff (clean_str_dict c') (clean_str_dict d') hfree, str_dict_iff]
    exact policy_config_iff hc hd

namespace Sample

def hash : String := "0123456789abcdef0123456789abcdef0123456789abcdef0123456789abcdef"

def inputs (dkc_revision : Int) : BuildInputs where
  schema_version := 1
  debian_source_version := "6.12.9-1"
  dsc_sha256 := hash
  source_member_sha256 := ⟨[("linux_6.12.9.orig.tar.xz", hash), ("linux_6.12.9-1.debian.tar.xz", hash)], by decide⟩
  dkc_revision := dkc_revision
  overlay_sha256 := hash
  flavor_config_sha256 := ⟨[("v2", hash), ("v3", hash), ("v4", hash)], by decide⟩
  flavor_policy := ⟨[("v4", "x86-64-v4"), ("v3", "x86-64-v3"), ("v2", "x86-64-v2")], by decide⟩
  base_image_digest := "debian@sha256:" ++ hash
  toolchain_lock_sha256 := hash
  build_policy_revision := 1
  lto_mode := "thin"
  dependency_lock := ⟨[("clang-21:amd64", "1:21.1.0-1@" ++ hash)], by decide⟩

/-- A character for every byte, which has no collisions. -/
def hexdigest (bytes : ByteArray) : String := String.ofList (bytes.data.toList.map fun b => Char.ofNat b.toNat)

theorem hexdigest_injective : Function.Injective hexdigest := by
  intro a b h
  have hbyte : Function.Injective fun u : UInt8 => Char.ofNat u.toNat := by
    intro u v huv
    have hvalid : ∀ w : UInt8, (Char.ofNat w.toNat).toNat = w.toNat := by
      intro w
      have hlt := w.toNat_lt
      have hvalid : w.toNat.isValidChar := .inl (by omega)
      rw [Char.ofNat, dif_pos hvalid]
      rfl
    apply UInt8.toNat_inj.1
    rw [← hvalid u, ← hvalid v]
    exact congrArg Char.toNat huv
  have hlist := List.map_injective_iff.2 hbyte (String.ofList_inj.1 h)
  exact ByteArray.ext (Array.toList_inj.1 hlist)

theorem inventory_inputs {n : Int} (h : (inputs n).check = .ok ()) : ∃ v, (inputs n).inventory = .ok v := by
  have hflavors : ∃ flavors, flavor_order.mapM (inputs n).flavor = .ok flavors := ⟨_, rfl⟩
  obtain ⟨flavors, hflavors⟩ := hflavors
  rw [BuildInputs.inventory, h, hflavors]
  exact ⟨_, rfl⟩

end Sample

/-- Two revisions of one source. -/
theorem revisions_differ : (Sample.inputs 1).digest Sample.hexdigest ≠ (Sample.inputs 2).digest Sample.hexdigest := by
  obtain ⟨v, hv⟩ := Sample.inventory_inputs (n := 1) (by decide +kernel)
  obtain ⟨w, hw⟩ := Sample.inventory_inputs (n := 2) (by decide +kernel)
  intro h
  have hagrees := ((identity_separates Sample.hexdigest).1 _ _ v w hv hw fun _ _ _ _ heq => Sample.hexdigest_injective heq).1 h
  exact absurd hagrees.dkc_revision (by decide)

end BuildId
