import DkcLinux.ReleaseResults

/-!
# Preparing a release cache (`prepare_release_cache` of `dkc/release_cache.py`)

The results are copied below a temporary directory, with a manifest and an inventory, and the directory is renamed to the
cache. What fails up to the rename removes the temporary directory; the verification of the renamed cache stands behind
the `try`.

| | |
| --- | --- |
| the temporary directory before the rename | `stage` |
| what the cleanup covers | `staged_or_absent` |
| what the verification says of a staged directory | `verify_staged_iff` |

`prepare_atomic_iff`: the call is atomic exactly if no directory is staged that the verification refuses.
-/

open Py Records Evidence

namespace ReleaseCache

/-! ## The manifest -/

def CACHE_PAYLOAD : List (String × Json) := [("flavor", .str "flavor"), ("kselftest", .str "kselftest"), ("qemu", .str "qemu")]

def CACHE_JSON : String := "cache.json"

/-- `_current_manifest`. -/
def _current_manifest (identity : ReleaseCacheIdentity) (expected_key build_image toolbox_image : String)
    (qualification : Bool) : Except PyErr (List (String × Json)) := do
  let _ ← _image_provenance build_image toolbox_image qualification
  return [("schema", .str "dkc.release-cache.v2"), ("cache_key", .str expected_key), ("identity", .obj identity.asdict),
    ("provenance", .obj [("build_image", .str build_image), ("toolbox_image", .str toolbox_image)]),
    ("payload", .obj CACHE_PAYLOAD)]

/-- `dumps` of an object. -/
def dumps (fields : List (String × Json)) : Except PyErr String :=
  match (Json.obj fields).dumps with
  | none => .error (.TypeError "float is not allowed in a canonical record")
  | some text => .ok text

/-! ## Verification -/

/-- What `_require_cache_location` asks of the path, but for a link at the cache itself. -/
structure Location where
  plain_root : Bool
  confined : Bool
  linked_parent : Bool

/-- The arguments of a call, and what the disk has under them. -/
structure Inputs where
  location : Location
  flavor_result : Root
  selftest_result : Root
  qemu_result : Root
  decision_root : Root
  flavor : String
  build_image : String
  toolbox_image : String
  expected_key : String

/-- Where the operating system may refuse. -/
inductive Step where
  | mkdir
  | mkdtemp
  | copytree (label : String)
  | write_manifest
  | write_inventory
  | replace
  | rmtree
  | verify
deriving DecidableEq

section
-- the format checker, `hashlib.sha256(...).hexdigest()`, the policy digest of the repository for a source version, and
-- what the operating system raises
variable (formats : String → String → Bool) (hexdigest : ByteArray → String)
  (validation_policy_digest : String → Except PyErr String) (refused : Step → Option PyErr)

def release_cache_identity (decision : DiscoveryDecision) (flavor : String) : Except PyErr ReleaseCacheIdentity := do
  let identity : ReleaseCacheIdentity := {
    schema_version := RELEASE_CACHE_REVISION
    flavor := flavor
    source_version := decision.source_version
    source_dsc_sha256 := decision.source_dsc_sha256
    dkc_revision := decision.dkc_revision
    build_policy_sha256 := decision.build_policy_sha256
    validation_policy_sha256 := ← validation_policy_digest decision.source_version
    lto_mode := decision.lto_mode.toString }
  identity.post_init
  return identity

def _require_cache_location (inputs : Inputs) (cache_root : Root) : Except PyErr Unit := do
  if inputs.flavor ∉ FLAVORS then throw (.ValueError "release cache is limited to release flavors")
  if !inputs.location.plain_root then throw (.ValueError "release-cache repository root is not a plain directory")
  if !inputs.location.confined then throw (.ValueError "release-cache path is outside its confined root")
  if inputs.location.linked_parent then throw (.ValueError "release-cache path traverses a symbolic link")
  match cache_root with
  | .symlink => throw (.ValueError "release-cache path traverses a symbolic link")
  | _ => return

/-- `_expected_identity`. -/
def _expected_identity (inputs : Inputs) : Except PyErr ReleaseCacheIdentity := do
  if inputs.expected_key = "" ∨ inputs.expected_key.length > 512 then
    throw (.ValueError "expected release-cache key is invalid")
  let decision ← ReleaseGate.load_discovery_decision formats hexdigest inputs.decision_root
  let identity ← release_cache_identity validation_policy_digest decision inputs.flavor
  if (← identity.key hexdigest) ≠ inputs.expected_key then
    throw (.ValueError "release-cache key differs from the lifecycle decision")
  return identity

/-- The manifest of a cache, and the two images it names. -/
def verify_manifest (manifest : List (String × Json)) (identity : ReleaseCacheIdentity) (expected_key : String) :
    Except PyErr (String × String) := do
  if !keys_are manifest ["schema", "cache_key", "identity", "provenance", "payload"] then
    throw (.ValueError "release-cache manifest has unexpected fields")
  if !same_value (manifest.lookup "schema") (.str "dkc.release-cache.v2") ||
      !same_value (manifest.lookup "cache_key") (.str expected_key) ||
      !same_dict (manifest.lookup "identity") identity.asdict || !same_dict (manifest.lookup "payload") CACHE_PAYLOAD then
    throw (.ValueError "release-cache manifest differs from its expected identity")
  match manifest.lookup "provenance" with
  | some (.obj provenance) =>
    if !keys_are provenance ["build_image", "toolbox_image"] then throw (.ValueError "release-cache provenance is malformed")
    match provenance.lookup "build_image", provenance.lookup "toolbox_image" with
    | some (.str build_image), some (.str toolbox_image) => return (build_image, toolbox_image)
    | _, _ => throw (.ValueError "release-cache image provenance is malformed")
  | _ => throw (.ValueError "release-cache provenance is malformed")

def _verify_candidate (below : Dict Entry) (identity : ReleaseCacheIdentity) (expected_key : String) (qualification : Bool) :
    Except PyErr Unit := do
  let _ ← verify_evidence_directory hexdigest (.directory below)
  let manifest ← _read_json (.directory below) CACHE_JSON "release-cache manifest"
  let (build_image, toolbox_image) ← verify_manifest manifest identity expected_key
  let kind ← _image_provenance build_image toolbox_image qualification
  _verify_semantics hexdigest below identity build_image kind

def verify_release_cache (inputs : Inputs) (cache_root : Root) : Except PyErr ReleaseCacheIdentity := do
  _require_cache_location inputs cache_root
  match cache_root with
  | .directory below =>
    let identity ← _expected_identity formats hexdigest validation_policy_digest inputs
    let decision ← ReleaseGate.load_discovery_decision formats hexdigest inputs.decision_root
    match refused .verify with
    | some e => throw e
    | none => _verify_candidate hexdigest below identity inputs.expected_key (decision.decision = .qualification)
    return identity
  | _ => throw (.ValueError "release-cache root is not a plain directory")

/-! ## Preparation -/

/-- `_require_plain_tree`. -/
def _require_plain_tree (root : Root) (label : String) : Except PyErr (Dict Entry) :=
  match root with
  | .directory below =>
    if below.items.all fun x => match x.2 with | .file _ => true | .directory => true | _ => false then .ok below
    else .error (.ValueError (label ++ " contains a link or special file"))
  | _ => .error (.ValueError (label ++ " is not a plain directory"))

/-- The temporary directory with a tree copied below a label. -/
def copytree (label : String) (source : Dict Entry) (below : Dict Entry) : Dict Entry :=
  source.items.foldl (fun below x => below.set (label ++ "/" ++ x.1) x.2) (below.set label .directory)

/-- A step, if the operating system does not refuse it. -/
def attempt {α : Type} (step : Step) (x : Except PyErr α) : Except PyErr α :=
  match refused step with
  | some e => .error e
  | none => x

/-- The checks up to the question whether the cache is there. -/
def checked_inputs (inputs : Inputs) (cache_root : Root) : Except PyErr (DiscoveryDecision × ReleaseCacheIdentity) := do
  _require_cache_location inputs cache_root
  let decision ← ReleaseGate.load_discovery_decision formats hexdigest inputs.decision_root
  if (decision.decision ≠ .build ∧ decision.decision ≠ .qualification) ∨ !decision.build_required then
    throw (.ValueError "release cache requires a build or qualification decision")
  let identity ← release_cache_identity validation_policy_digest decision inputs.flavor
  if (← identity.key hexdigest) ≠ inputs.expected_key then
    throw (.ValueError "release-cache key differs from the lifecycle decision")
  return (decision, identity)

/-- The three results. -/
def sources (inputs : Inputs) : Except PyErr (List (String × Dict Entry)) :=
  [("flavor", inputs.flavor_result), ("kselftest", inputs.selftest_result), ("qemu", inputs.qemu_result)].mapM
    fun (label, root) => do return (label, ← _require_plain_tree root label)

/-- The body of the `try` up to the rename: the temporary directory, filled. -/
def fill (inputs : Inputs) (decision : DiscoveryDecision) (identity : ReleaseCacheIdentity)
    (results : List (String × Dict Entry)) : Except PyErr (Dict Entry) := do
  let copied ← results.foldlM
    (fun below result => attempt refused (.copytree result.1) (.ok (copytree result.1 result.2 below))) Dict.empty
  let manifest ← _current_manifest identity inputs.expected_key inputs.build_image inputs.toolbox_image
    (decision.decision = .qualification)
  let text ← dumps manifest
  let below ← attempt refused .write_manifest (.ok (copied.set CACHE_JSON (.file text.toUTF8)))
  attempt refused .write_inventory (_write_inventory hexdigest below)

/-- What the call changes. -/
structure Disk where
  cache_root : Root
  /-- A temporary directory that is still there. -/
  temporary : Bool

/-- `prepare_release_cache`: its result, and the disk behind it. -/
def prepare_release_cache (inputs : Inputs) (disk : Disk) : Except PyErr ReleaseCacheIdentity × Disk :=
  match checked_inputs formats hexdigest validation_policy_digest inputs disk.cache_root with
  | .error e => (.error e, disk)
  | .ok (decision, identity) =>
    match disk.cache_root with
    | .absent =>
      match sources inputs with
      | .error e => (.error e, disk)
      | .ok results =>
        match attempt refused .mkdir (attempt refused .mkdtemp (.ok ())) with
        | .error e => (.error e, disk)
        | .ok () =>
          match fill hexdigest refused inputs decision identity results >>= fun below => attempt refused .replace (.ok below) with
          | .error e => (.error e, { disk with temporary := disk.temporary || (refused .rmtree).isSome })
          | .ok below =>
            (verify_release_cache formats hexdigest validation_policy_digest refused inputs (.directory below),
              { disk with cache_root := .directory below })
    | cache_root => (verify_release_cache formats hexdigest validation_policy_digest refused inputs cache_root, disk)

end

/-! ## Up to the rename -/

section
variable (formats : String → String → Bool) (hexdigest : ByteArray → String)
  (validation_policy_digest : String → Except PyErr String) (refused : Step → Option PyErr)

/-- The directory that the rename moves. -/
structure Staged where
  decision : DiscoveryDecision
  identity : ReleaseCacheIdentity
  below : Dict Entry

/-- Everything up to the rename. -/
def stage (inputs : Inputs) : Except PyErr Staged := do
  let (decision, identity) ← checked_inputs formats hexdigest validation_policy_digest inputs .absent
  let results ← sources inputs
  attempt refused .mkdir (attempt refused .mkdtemp (.ok ()))
  let below ← fill hexdigest refused inputs decision identity results
  attempt refused .replace (.ok ⟨decision, identity, below⟩)

variable {formats hexdigest validation_policy_digest refused} {inputs : Inputs} {disk : Disk}

/-- **What fails up to the rename leaves no cache; after it the verification decides.** -/
theorem staged_or_absent (habsent : disk.cache_root = .absent) :
    (∃ e, stage formats hexdigest validation_policy_digest refused inputs = .error e ∧
      (prepare_release_cache formats hexdigest validation_policy_digest refused inputs disk).1 = .error e ∧
      (prepare_release_cache formats hexdigest validation_policy_digest refused inputs disk).2.cache_root = .absent) ∨
    ∃ staged, stage formats hexdigest validation_policy_digest refused inputs = .ok staged ∧
      prepare_release_cache formats hexdigest validation_policy_digest refused inputs disk =
        (verify_release_cache formats hexdigest validation_policy_digest refused inputs (.directory staged.below),
          { disk with cache_root := .directory staged.below }) := by
  unfold stage prepare_release_cache
  rw [habsent]
  cases hchecked : checked_inputs formats hexdigest validation_policy_digest inputs .absent with
  | error e => exact .inl ⟨e, rfl, rfl, habsent⟩
  | ok checked =>
    obtain ⟨decision, identity⟩ := checked
    simp only [except_ok_bind]
    cases hsources : sources inputs with
    | error e => exact .inl ⟨e, rfl, rfl, habsent⟩
    | ok results =>
      simp only [except_ok_bind]
      cases hmkdir : attempt refused .mkdir (attempt refused .mkdtemp (.ok ())) with
      | error e => exact .inl ⟨e, rfl, rfl, habsent⟩
      | ok u =>
        simp only [except_ok_bind]
        cases hfill : fill hexdigest refused inputs decision identity results with
        | error e => exact .inl ⟨e, rfl, rfl, rfl⟩
        | ok below =>
          simp only [except_ok_bind, attempt]
          cases hreplace : refused .replace with
          | some e => exact .inl ⟨e, rfl, rfl, rfl⟩
          | none => exact .inr ⟨⟨decision, identity, below⟩, rfl, rfl⟩

end

/-! ## The manifest is read as it was written -/

theorem keys_are_iff {fields : List (String × Json)} {keys : List String} :
    keys_are fields keys = true ↔ ∀ k, k ∈ fields.map (·.1) ↔ k ∈ keys := by
  simp only [keys_are, Bool.and_eq_true, List.all_eq_true, List.contains_iff_mem]
  constructor
  · rintro ⟨hfields, hkeys⟩ k
    refine ⟨fun hk => ?_, hkeys k⟩
    obtain ⟨x, hx, rfl⟩ := List.mem_map.1 hk
    exact hfields x hx
  · intro h
    exact ⟨fun x hx => (h x.1).1 (List.mem_map_of_mem hx), fun k hk => (h k).2 hk⟩

/-- The items of a dict that was written and read. -/
def reread (fields : List (String × Json)) : List (String × Json) := sortedItems (Json.sortFields fields)

theorem reread_keys (fields : List (String × Json)) : keys_are (reread fields) (fields.map (·.1)) = true := by
  rw [keys_are_iff]
  intro k
  rw [reread, ((perm_sortedItems _).map _).mem_iff, Json.sortFields_keys]

theorem reread_lookup {fields : List (String × Json)} (h : (fields.map (·.1)).Nodup) {key : String} {value : Json}
    (hvalue : fields.lookup key = some value) : (reread fields).lookup key = some value.sortKeys := by
  rw [reread, Json.lookup_sortKeys h, hvalue]
  rfl

/-- A value that is equal to itself behind a write and a read. -/
def Steady (value : Json) : Prop := value.sortKeys.pyEq value = true

theorem steady_str (s : String) : Steady (.str s) := by simp [Steady, Json.sortKeys, Json.pyEq]

theorem steady_int (n : Int) : Steady (.int n) := by simp [Steady, Json.sortKeys, Json.pyEq]

theorem reread_same {fields : List (String × Json)} (h : (fields.map (·.1)).Nodup) (hsteady : ∀ x ∈ fields, Steady x.2) :
    same_dict (some (.obj (reread fields))) fields = true := by
  rw [same_dict, reread_keys, Bool.true_and, List.all_eq_true]
  rintro ⟨key, value⟩ hx
  rw [same_value, reread_lookup h ((Json.mem_iff_lookup h).1 hx)]
  exact hsteady _ hx

theorem asdict_nodup (identity : ReleaseCacheIdentity) : (identity.asdict.map (·.1)).Nodup := by
  show ["schema_version", "flavor", "source_version", "source_dsc_sha256", "dkc_revision", "build_policy_sha256",
    "validation_policy_sha256", "lto_mode"].Nodup
  decide

theorem asdict_steady (identity : ReleaseCacheIdentity) : ∀ x ∈ identity.asdict, Steady x.2 := by
  simp only [ReleaseCacheIdentity.asdict, List.forall_mem_cons, List.not_mem_nil, false_imp_iff, implies_true, steady_str,
    steady_int, and_self]

theorem payload_steady : ∀ x ∈ CACHE_PAYLOAD, Steady x.2 := by
  simp only [CACHE_PAYLOAD, List.forall_mem_cons, List.not_mem_nil, false_imp_iff, implies_true, steady_str, and_self]

section
variable {identity : ReleaseCacheIdentity} {expected_key build_image toolbox_image kind : String} {qualification : Bool}
  {manifest : List (String × Json)}

theorem manifest_clean (h : _current_manifest identity expected_key build_image toolbox_image qualification = .ok manifest) :
    (Json.obj manifest).Clean := by
  obtain ⟨kind, -, hmanifest⟩ := except_bind_eq_ok.1 h
  cases hmanifest
  simp [Json.Clean, Json.CleanFields, ReleaseCacheIdentity.asdict, CACHE_PAYLOAD]

/-- **The manifest of a cache passes its check, and names the images.** -/
theorem verify_manifest_reread
    (h : _current_manifest identity expected_key build_image toolbox_image qualification = .ok manifest) :
    verify_manifest (reread manifest) identity expected_key = .ok (build_image, toolbox_image) ∧
      ∃ kind, _image_provenance build_image toolbox_image qualification = .ok kind := by
  obtain ⟨kind, hkind, hmanifest⟩ := except_bind_eq_ok.1 h
  refine ⟨?_, kind, hkind⟩
  have hmanifest := Except.ok.inj hmanifest
  subst hmanifest
  let images : List (String × Json) := [("build_image", .str build_image), ("toolbox_image", .str toolbox_image)]
  let fields : List (String × Json) := [("schema", .str "dkc.release-cache.v2"), ("cache_key", .str expected_key),
    ("identity", .obj identity.asdict), ("provenance", .obj images), ("payload", .obj CACHE_PAYLOAD)]
  have hnodup : (fields.map (·.1)).Nodup := by
    show ["schema", "cache_key", "identity", "provenance", "payload"].Nodup
    decide
  have himages : (images.map (·.1)).Nodup := by
    show ["build_image", "toolbox_image"].Nodup
    decide
  have hfields : keys_are (reread fields) ["schema", "cache_key", "identity", "provenance", "payload"] = true := reread_keys fields
  have hschema := @reread_lookup _ hnodup "schema" (.str "dkc.release-cache.v2") rfl
  have hkey := @reread_lookup _ hnodup "cache_key" (.str expected_key) rfl
  have hidentity : (reread fields).lookup "identity" = some (.obj (reread identity.asdict)) :=
    @reread_lookup _ hnodup "identity" (.obj identity.asdict) rfl
  have hprovenance : (reread fields).lookup "provenance" = some (.obj (reread images)) :=
    @reread_lookup _ hnodup "provenance" (.obj images) rfl
  have hpayload : (reread fields).lookup "payload" = some (.obj (reread CACHE_PAYLOAD)) :=
    @reread_lookup _ hnodup "payload" (.obj CACHE_PAYLOAD) rfl
  have hnames : keys_are (reread images) ["build_image", "toolbox_image"] = true := reread_keys images
  have hbuild := @reread_lookup _ himages "build_image" (.str build_image) rfl
  have htoolbox := @reread_lookup _ himages "toolbox_image" (.str toolbox_image) rfl
  have hsame := reread_same (asdict_nodup identity) (asdict_steady identity)
  have hsame' : same_dict (some (.obj (reread CACHE_PAYLOAD))) CACHE_PAYLOAD = true := reread_same (by decide) payload_steady
  have hstr : ∀ t : String, same_value (some (.str t)) (.str t) = true := fun t => by simp [same_value, Json.pyEq]
  show verify_manifest (reread fields) identity expected_key = .ok (build_image, toolbox_image)
  rw [verify_manifest]
  simp only [Json.sortKeys] at hschema hkey hbuild htoolbox
  simp only [hfields, hschema, hkey, hidentity, hpayload, hprovenance, hstr, hsame, hsame', hnames, hbuild, htoolbox]
  rfl

end

/-! ## What is staged -/

section
variable {formats : String → String → Bool} {hexdigest : ByteArray → String}
  {validation_policy_digest : String → Except PyErr String} {refused : Step → Option PyErr} {inputs : Inputs}

theorem attempt_ok_iff {α : Type} {step : Step} {x : Except PyErr α} {a : α} :
    attempt refused step x = .ok a ↔ refused step = none ∧ x = .ok a := by
  unfold attempt
  cases refused step <;> simp

theorem fill_ok {decision : DiscoveryDecision} {identity : ReleaseCacheIdentity} {results : List (String × Dict Entry)}
    {below : Dict Entry} (h : fill hexdigest refused inputs decision identity results = .ok below) :
    ∃ (copied : Dict Entry) (manifest : List (String × Json)) (text : String), _current_manifest identity inputs.expected_key inputs.build_image inputs.toolbox_image
        (decision.decision = .qualification) = .ok manifest ∧ dumps manifest = .ok text ∧
      _write_inventory hexdigest (copied.set CACHE_JSON (.file text.toUTF8)) = .ok below := by
  obtain ⟨copied, -, h⟩ := except_bind_eq_ok.1 h
  obtain ⟨manifest, hmanifest, h⟩ := except_bind_eq_ok.1 h
  obtain ⟨text, htext, h⟩ := except_bind_eq_ok.1 h
  obtain ⟨filled, hfilled, h⟩ := except_bind_eq_ok.1 h
  cases (attempt_ok_iff.1 hfilled).2
  exact ⟨copied, manifest, text, hmanifest, htext, (attempt_ok_iff.1 h).2⟩

theorem checked_inputs_ok {cache_root : Root} {decision : DiscoveryDecision} {identity : ReleaseCacheIdentity}
    (h : checked_inputs formats hexdigest validation_policy_digest inputs cache_root = .ok (decision, identity)) :
    _require_cache_location inputs cache_root = .ok () ∧
      ReleaseGate.load_discovery_decision formats hexdigest inputs.decision_root = .ok decision ∧
      release_cache_identity validation_policy_digest decision inputs.flavor = .ok identity ∧
      identity.key hexdigest = .ok inputs.expected_key := by
  obtain ⟨⟨⟩, hlocation, h⟩ := except_bind_eq_ok.1 h
  obtain ⟨loaded, hloaded, h⟩ := except_bind_eq_ok.1 h
  obtain ⟨-, h⟩ := except_raise_eq_ok.1 h
  obtain ⟨found, hfound, h⟩ := except_bind_eq_ok.1 h
  obtain ⟨key, hkey, h⟩ := except_bind_eq_ok.1 h
  obtain ⟨hsame, h⟩ := except_raise_eq_ok.1 h
  cases h
  rw [not_not] at hsame
  exact ⟨hlocation, hloaded, hfound, hsame ▸ hkey⟩

theorem stage_ok {staged : Staged} (h : stage formats hexdigest validation_policy_digest refused inputs = .ok staged) :
    checked_inputs formats hexdigest validation_policy_digest inputs .absent = .ok (staged.decision, staged.identity) ∧
      ∃ results, fill hexdigest refused inputs staged.decision staged.identity results = .ok staged.below := by
  obtain ⟨⟨decision, identity⟩, hchecked, h⟩ := except_bind_eq_ok.1 h
  obtain ⟨results, -, h⟩ := except_bind_eq_ok.1 h
  obtain ⟨⟨⟩, -, h⟩ := except_bind_eq_ok.1 h
  obtain ⟨below, hfill, h⟩ := except_bind_eq_ok.1 h
  cases (attempt_ok_iff.1 h).2
  exact ⟨hchecked, results, hfill⟩

/-- The manifest of a staged directory is read as it was written. -/
theorem read_manifest {copied below : Dict Entry} {manifest : List (String × Json)} {text : String}
    (hclean : (Json.obj manifest).Clean) (htext : dumps manifest = .ok text)
    (hwrite : _write_inventory hexdigest (copied.set CACHE_JSON (.file text.toUTF8)) = .ok below) :
    _read_json (.directory below) CACHE_JSON "release-cache manifest" = .ok (reread manifest) := by
  obtain ⟨written, hdumps, hplain, hloads⟩ := Json.dumps_clean hclean
  have hsame : written = text := by
    rw [dumps, hdumps] at htext
    exact Except.ok.inj htext
  subst hsame
  obtain ⟨-, -, rfl⟩ := write_inventory_ok hwrite
  have hget : ((copied.set CACHE_JSON (.file written.toUTF8)).set CHECKSUMS (.file (String.ofList (inventory_text
      ((files (copied.set CACHE_JSON (.file written.toUTF8))).map (checksumLine hexdigest)))).toUTF8)).get? CACHE_JSON =
      some (.file written.toUTF8) := by
    rw [Dict.get?_set, if_neg (by decide), Dict.get?_set, if_pos rfl]
  rw [_read_json, Root.read_text]
  simp only [hget, Serialize.read_text_toUTF8 hplain, hloads]
  rfl

/-- The key of an identity has the length of a key. -/
theorem key_length (hhex : ∀ b, isSha256 (hexdigest b) = true) {identity : ReleaseCacheIdentity} {key : String}
    (hidentity : identity.schema_version = RELEASE_CACHE_REVISION) (hflavor : identity.flavor ∈ FLAVORS)
    (h : identity.key hexdigest = .ok key) : key.length = 82 := by
  obtain ⟨digest, hdigest, h⟩ := except_bind_eq_ok.1 h
  obtain ⟨body, -, hbody⟩ := except_bind_eq_ok.1 hdigest
  cases hbody
  cases h
  have hlength : (hexdigest body).length = 64 := by
    have hsha := hhex body
    simp only [isSha256, fullmatchClass, Bool.and_eq_true, decide_eq_true_eq, Option.all_some] at hsha
    have hlist : (hexdigest body).toList.length = 64 := le_antisymm hsha.2 hsha.1.2
    rwa [String.length_toList] at hlist
  have hname : identity.flavor.length = 2 := by
    revert hflavor
    generalize identity.flavor = flavor
    intro hflavor
    simp only [FLAVORS, List.mem_cons, List.not_mem_nil, or_false] at hflavor
    rcases hflavor with rfl | rfl <;> rfl
  have hrevision : (String.ofList (Json.renderInt identity.schema_version)).length = 1 := by
    rw [hidentity]
    rfl
  simp only [String.length_append, hlength, hname, hrevision]
  rfl

/-- What the verification asks of a staged directory: names that the inventory can list, and results that pass. -/
structure Accepted (hexdigest : ByteArray → String) (refused : Step → Option PyErr) (inputs : Inputs) (staged : Staged) : Prop where
  read : refused .verify = none
  listable : ∀ name ∈ file_names staged.below, Listable name
  results : ∃ kind, _image_provenance inputs.build_image inputs.toolbox_image (staged.decision.decision = .qualification) = .ok kind ∧
    _verify_semantics hexdigest staged.below staged.identity inputs.build_image kind = .ok ()

theorem expected_identity_staged (hhex : ∀ b, isSha256 (hexdigest b) = true) {staged : Staged}
    (h : checked_inputs formats hexdigest validation_policy_digest inputs .absent = .ok (staged.decision, staged.identity)) :
    _expected_identity formats hexdigest validation_policy_digest inputs = .ok staged.identity := by
  obtain ⟨hlocation, hloaded, hidentity, hkey⟩ := checked_inputs_ok h
  have hflavor := (except_raise_eq_ok.1 hlocation).1
  obtain ⟨policy, -, hpost⟩ := except_bind_eq_ok.1 hidentity
  obtain ⟨⟨⟩, -, hsame⟩ := except_bind_eq_ok.1 hpost
  have hsame := Except.ok.inj hsame
  have hlength : inputs.expected_key.length = 82 := by
    refine key_length hhex ?_ ?_ hkey
    · rw [← hsame]
    · rw [← hsame]
      exact not_not.1 hflavor
  have hnonempty : inputs.expected_key ≠ "" := by
    intro hempty
    rw [hempty] at hlength
    exact absurd hlength (by decide)
  unfold _expected_identity
  rw [if_neg (by rw [hlength]; simp [hnonempty])]
  simp only [hloaded, hidentity, hkey, except_ok_bind, ne_eq, not_true, if_false]
  rfl

/-- **What the verification says of a staged directory.** -/
theorem verify_staged_iff (hhex : ∀ b, isSha256 (hexdigest b) = true) {staged : Staged}
    (h : stage formats hexdigest validation_policy_digest refused inputs = .ok staged) {identity : ReleaseCacheIdentity} :
    verify_release_cache formats hexdigest validation_policy_digest refused inputs (.directory staged.below) = .ok identity ↔
      identity = staged.identity ∧ Accepted hexdigest refused inputs staged := by
  obtain ⟨hchecked, results, hfill⟩ := stage_ok h
  obtain ⟨hlocation, hloaded, -, -⟩ := checked_inputs_ok hchecked
  have hexpected := expected_identity_staged hhex hchecked
  have hlocation' : _require_cache_location inputs (.directory staged.below) = .ok () := hlocation
  obtain ⟨copied, manifest, text, hmanifest, htext, hwrite⟩ := fill_ok hfill
  have hread := read_manifest (manifest_clean hmanifest) htext hwrite
  obtain ⟨hverified, kind, hkind⟩ := verify_manifest_reread hmanifest
  have hcandidate : (∃ names, verify_evidence_directory hexdigest (.directory staged.below) = .ok names) ↔
      ∀ name ∈ file_names staged.below, Listable name := by
    have hnames : ∀ name, name ∈ file_names staged.below ↔ name ∈ file_names (copied.set CACHE_JSON (.file text.toUTF8)) := by
      obtain ⟨-, -, hbelow⟩ := write_inventory_ok hwrite
      intro name
      rw [mem_file_names, mem_file_names, hbelow]
      refine and_congr_right fun hother => ?_
      rw [fileAt_set, if_neg hother]
    constructor
    · rintro ⟨names, hok⟩
      exact listable_of_verified hok
    · intro hlistable
      exact ⟨_, written_verifies hhex hwrite fun name hname => hlistable name ((hnames name).2 hname)⟩
  unfold verify_release_cache
  simp only [hlocation', hexpected, hloaded, except_ok_bind]
  cases hrefused : refused .verify with
  | some e =>
    constructor
    · intro hok
      cases hok
    · rintro ⟨-, haccepted⟩
      rw [haccepted.read] at hrefused
      cases hrefused
  | none =>
    rw [except_bind_eq_ok]
    unfold _verify_candidate
    simp only [except_bind_eq_ok, hread, hverified, hkind, Except.ok.injEq, exists_eq_left']
    constructor
    · rintro ⟨⟨⟩, ⟨names, hevidence, hsemantics⟩, hidentity⟩
      exact ⟨(Except.ok.inj hidentity).symm, hrefused, hcandidate.1 ⟨names, hevidence⟩, kind, hkind, hsemantics⟩
    · rintro ⟨rfl, haccepted⟩
      obtain ⟨names, hevidence⟩ := hcandidate.2 haccepted.listable
      obtain ⟨kind', hkind', hsemantics⟩ := haccepted.results
      cases hkind.symm.trans hkind'
      exact ⟨(), ⟨names, hevidence, hsemantics⟩, rfl⟩

/-- A call that raises leaves no cache, and a cache that is returned verifies with the same identity. -/
structure Atomic (formats : String → String → Bool) (hexdigest : ByteArray → String)
    (validation_policy_digest : String → Except PyErr String) (refused : Step → Option PyErr) (inputs : Inputs) (disk : Disk) :
    Prop where
  raises : ∀ e, (prepare_release_cache formats hexdigest validation_policy_digest refused inputs disk).1 = .error e →
    (prepare_release_cache formats hexdigest validation_policy_digest refused inputs disk).2.cache_root = .absent
  returns : ∀ identity, (prepare_release_cache formats hexdigest validation_policy_digest refused inputs disk).1 = .ok identity →
    verify_release_cache formats hexdigest validation_policy_digest refused inputs
      (prepare_release_cache formats hexdigest validation_policy_digest refused inputs disk).2.cache_root = .ok identity

/-- **The call is atomic exactly if what is staged, if anything is, is accepted.** -/
theorem prepare_atomic_iff (hhex : ∀ b, isSha256 (hexdigest b) = true) {disk : Disk} (habsent : disk.cache_root = .absent) :
    Atomic formats hexdigest validation_policy_digest refused inputs disk ↔
      ∀ staged, stage formats hexdigest validation_policy_digest refused inputs = .ok staged →
        Accepted hexdigest refused inputs staged := by
  rcases @staged_or_absent formats hexdigest validation_policy_digest refused inputs disk habsent with
    ⟨e, hstage, hresult, hroot⟩ | ⟨staged, hstage, hprepare⟩
  · constructor
    · intro _ staged hstaged
      rw [hstage] at hstaged
      cases hstaged
    · intro _
      refine ⟨fun _ _ => hroot, fun identity hidentity => ?_⟩
      rw [hresult] at hidentity
      cases hidentity
  · constructor
    · intro hatomic staged' hstaged'
      cases hstage.symm.trans hstaged'
      cases hverify : verify_release_cache formats hexdigest validation_policy_digest refused inputs (.directory staged.below) with
      | ok identity => exact ((verify_staged_iff hhex hstage).1 hverify).2
      | error e =>
        have hroot := hatomic.raises e (by rw [hprepare]; exact hverify)
        rw [hprepare] at hroot
        cases hroot
    · intro haccepted
      have hverify := (verify_staged_iff hhex hstage).2 ⟨rfl, haccepted staged hstage⟩
      constructor
      · intro e he
        rw [hprepare] at he
        rw [hverify] at he
        cases he
      · intro identity hidentity
        rw [hprepare] at hidentity ⊢
        exact hidentity

end

/-! ## Results without their files -/

namespace Sample

/-- The digests of the identity, of the manifest and of the decision's files, which differ in their sizes. -/
def hexdigest (b : ByteArray) : String :=
  if b.size = 367 then "ac22170c5bf5fd6f543628fdb803823dfe12343d2a2dd24bd420d86994ef0430"
  else if b.size = 831 then "03ac3762bcd00e9abc8b56c90458f0e2f62850391c36d2ff095d3cd4e4aa29d4"
  else ReleaseGate.Sample.hexdigest b

theorem isSha256_hexdigest (b : ByteArray) : isSha256 (hexdigest b) = true := by
  unfold hexdigest
  split
  · decide +kernel
  · split
    · decide +kernel
    · exact ReleaseGate.Sample.isSha256_hexdigest b

def policy_digest (_ : String) : Except PyErr String :=
  .ok "cccccccccccccccccccccccccccccccccccccccccccccccccccccccccccccccc"

def refused (_ : Step) : Option PyErr := none

def identity : ReleaseCacheIdentity where
  schema_version := 2
  flavor := "v3"
  source_version := "7.1.7-1"
  source_dsc_sha256 := "aaaaaaaaaaaaaaaaaaaaaaaaaaaaaaaaaaaaaaaaaaaaaaaaaaaaaaaaaaaaaaaa"
  dkc_revision := 2
  build_policy_sha256 := "bbbbbbbbbbbbbbbbbbbbbbbbbbbbbbbbbbbbbbbbbbbbbbbbbbbbbbbbbbbbbbbb"
  validation_policy_sha256 := "cccccccccccccccccccccccccccccccccccccccccccccccccccccccccccccccc"
  lto_mode := "thin"

def build_image : String :=
  "ghcr.io/kogeler/dkc-kernel-build@sha256:dddddddddddddddddddddddddddddddddddddddddddddddddddddddddddddddd"

def toolbox_image : String :=
  "ghcr.io/kogeler/dkc-toolbox@sha256:cccccccccccccccccccccccccccccccccccccccccccccccccccccccccccccccc"

theorem images_registry : _image_provenance build_image toolbox_image false = .ok "registry" := by decide +kernel

/-- Three results that are empty directories. -/
def inputs (decision_root : Root) (expected_key : String) : Inputs where
  location := ⟨true, true, false⟩
  flavor_result := .directory .empty
  selftest_result := .directory .empty
  qemu_result := .directory .empty
  decision_root := decision_root
  flavor := "v3"
  build_image := build_image
  toolbox_image := toolbox_image
  expected_key := expected_key

theorem release_cache_identity_sized :
    release_cache_identity policy_digest ReleaseGate.Sample.sized "v3" = .ok identity := by
  decide +kernel

/-- The three directories and the manifest. -/
def filled (text : String) : Dict Entry :=
  (copytree "qemu" .empty (copytree "kselftest" .empty (copytree "flavor" .empty .empty))).set CACHE_JSON (.file text.toUTF8)

theorem identity_key : ∃ key, identity.key hexdigest = .ok key := by
  have hclean : (Json.obj identity.asdict).Clean := ⟨asdict_nodup identity, by simp [ReleaseCacheIdentity.asdict, Json.CleanFields, Json.Clean]⟩
  obtain ⟨body, hbody⟩ := Serialize.canonical_bytes_ok hclean
  rw [ReleaseCacheIdentity.key, ReleaseCacheIdentity.digest, hbody]
  exact ⟨_, rfl⟩

theorem checked_inputs_empty {root : Root} {key : String}
    (hload : ReleaseGate.load_discovery_decision ReleaseGate.Sample.formats hexdigest root = .ok ReleaseGate.Sample.sized)
    (hkey : identity.key hexdigest = .ok key) :
    checked_inputs ReleaseGate.Sample.formats hexdigest policy_digest (inputs root key) .absent =
      .ok (ReleaseGate.Sample.sized, identity) := by
  have hlocation : _require_cache_location (inputs root key) .absent = .ok () := rfl
  have hload : ReleaseGate.load_discovery_decision ReleaseGate.Sample.formats hexdigest (inputs root key).decision_root =
      .ok ReleaseGate.Sample.sized := hload
  have hidentity : release_cache_identity policy_digest ReleaseGate.Sample.sized (inputs root key).flavor = .ok identity :=
    release_cache_identity_sized
  unfold checked_inputs
  simp only [hlocation, hload, except_ok_bind]
  rw [if_neg (by decide)]
  simp only [hidentity, hkey, except_ok_bind]
  exact if_neg (not_not.2 rfl)

theorem filled_items (text : String) : (filled text).items = [("flavor", .directory), ("kselftest", .directory),
    ("qemu", .directory), (CACHE_JSON, .file text.toUTF8)] := rfl

theorem filled_written (text : String) : ∃ below, _write_inventory hexdigest (filled text) = .ok below := by
  refine write_inventory_succeeds ?_ ?_ ?_
  · rw [filled_items]
    simp [PlainEntry]
  · have hmem : (CACHE_JSON, text.toUTF8) ∈ files (filled text) := by
      refine mem_files.2 ⟨by decide, fileAt_iff.2 ?_⟩
      rw [filled_items]
      simp
    exact List.ne_nil_of_mem hmem
  · have hnone : (filled text).get? CHECKSUMS = none := rfl
    rw [hnone]
    simp

theorem fill_empty (root : Root) (key : String) : ∃ text below,
    fill hexdigest refused (inputs root key) ReleaseGate.Sample.sized identity
      [("flavor", .empty), ("kselftest", .empty), ("qemu", .empty)] = .ok below ∧
    _write_inventory hexdigest (filled text) = .ok below := by
  obtain ⟨manifest, hmanifest⟩ : ∃ manifest, _current_manifest identity (inputs root key).expected_key
      (inputs root key).build_image (inputs root key).toolbox_image
      (ReleaseGate.Sample.sized.decision = .qualification) = .ok manifest := by
    show ∃ manifest, _current_manifest identity key build_image toolbox_image false = .ok manifest
    rw [_current_manifest, images_registry]
    exact ⟨_, rfl⟩
  obtain ⟨text, htext, -⟩ := Json.dumps_clean (manifest_clean hmanifest)
  have hdumps : dumps manifest = .ok text := by
    rw [dumps, htext]
  obtain ⟨below, hbelow⟩ := filled_written text
  refine ⟨text, below, ?_, hbelow⟩
  unfold fill
  simp only [List.foldlM_cons, List.foldlM_nil, attempt, refused, except_ok_bind, hmanifest, hdumps]
  exact hbelow

/-- They are staged. -/
theorem stage_empty : ∃ root key text below,
    stage ReleaseGate.Sample.formats hexdigest policy_digest refused (inputs root key) =
      .ok ⟨ReleaseGate.Sample.sized, identity, below⟩ ∧ _write_inventory hexdigest (filled text) = .ok below := by
  obtain ⟨root, hroot⟩ := @ReleaseGate.write_succeeds _ hexdigest _ ReleaseGate.Sample.sized_valid
  have hload := ReleaseGate.load_back isSha256_hexdigest ReleaseGate.Sample.sized_valid hroot rfl (by decide)
  obtain ⟨key, hkey⟩ := identity_key
  obtain ⟨text, below, hfill, hwrite⟩ := fill_empty root key
  refine ⟨root, key, text, below, ?_, hwrite⟩
  have hsources : sources (inputs root key) = .ok [("flavor", .empty), ("kselftest", .empty), ("qemu", .empty)] := rfl
  unfold stage
  simp only [checked_inputs_empty hload hkey, hsources, hfill, except_ok_bind]
  rfl

/-- They lack the status of the flavor. -/
theorem filled_refused {text : String} {below : Dict Entry} (h : _write_inventory hexdigest (filled text) = .ok below)
    (kind : String) : _verify_semantics hexdigest below identity build_image kind ≠ .ok () := by
  obtain ⟨-, -, rfl⟩ := write_inventory_ok h
  intro hok
  cases hok

end Sample

theorem prepare_atomic_empty : ∃ root key staged,
    stage ReleaseGate.Sample.formats Sample.hexdigest Sample.policy_digest Sample.refused (Sample.inputs root key) = .ok staged ∧
    (Atomic ReleaseGate.Sample.formats Sample.hexdigest Sample.policy_digest Sample.refused (Sample.inputs root key) ⟨.absent, false⟩ ↔
      ∀ staged,
        stage ReleaseGate.Sample.formats Sample.hexdigest Sample.policy_digest Sample.refused (Sample.inputs root key) = .ok staged →
          Accepted Sample.hexdigest Sample.refused (Sample.inputs root key) staged) := by
  obtain ⟨root, key, text, below, hstage, -⟩ := Sample.stage_empty
  exact ⟨root, key, _, hstage, prepare_atomic_iff Sample.isSha256_hexdigest rfl⟩

/-- The results are refused behind the rename, and the cache stays. -/
theorem refused_results_stay : ¬∀ (formats : String → String → Bool) (hexdigest : ByteArray → String)
    (validation_policy_digest : String → Except PyErr String) (refused : Step → Option PyErr) (inputs : Inputs) (disk : Disk),
    (∀ b, isSha256 (hexdigest b) = true) → disk.cache_root = .absent →
      Atomic formats hexdigest validation_policy_digest refused inputs disk := by
  intro h
  obtain ⟨root, key, text, below, hstage, hwrite⟩ := Sample.stage_empty
  have hatomic := h ReleaseGate.Sample.formats Sample.hexdigest Sample.policy_digest Sample.refused (Sample.inputs root key)
    ⟨.absent, false⟩ Sample.isSha256_hexdigest rfl
  have hverify : ∀ identity, verify_release_cache ReleaseGate.Sample.formats Sample.hexdigest Sample.policy_digest Sample.refused
      (Sample.inputs root key) (.directory below) ≠ .ok identity := by
    intro identity hok
    obtain ⟨-, haccepted⟩ := (verify_staged_iff Sample.isSha256_hexdigest hstage).1 hok
    obtain ⟨kind, -, hsemantics⟩ := haccepted.results
    exact Sample.filled_refused hwrite kind hsemantics
  rcases @staged_or_absent ReleaseGate.Sample.formats Sample.hexdigest Sample.policy_digest Sample.refused (Sample.inputs root key)
    ⟨.absent, false⟩ rfl with ⟨e, hnone, -⟩ | ⟨staged, hstaged, hprepare⟩
  · rw [hstage] at hnone
    cases hnone
  · cases hstage.symm.trans hstaged
    cases hresult : verify_release_cache ReleaseGate.Sample.formats Sample.hexdigest Sample.policy_digest Sample.refused
        (Sample.inputs root key) (.directory below) with
    | ok identity => exact hverify identity hresult
    | error e =>
      have hroot := hatomic.raises e (by rw [hprepare]; exact hresult)
      rw [hprepare] at hroot
      cases hroot

end ReleaseCache
