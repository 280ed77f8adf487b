import DkcLinux.EvidenceInventory
import DkcLinux.ReleaseGate

/-!
# What a release cache says of its results (`_verify_semantics` of `dkc/release_cache.py`)

The results of the build, the selftests and the virtual machine are read from their JSON and environment files and
compared with the identity of the release. The evidence about archives is checked as in `dkc/tarmetadata.py`.

Values are compared as Python compares them (`same_value`): a boolean is its number, and the order of a dict's keys does
not count.
-/

open Py Records Evidence

/-! ## Values -/

/-- `==` of values that are no containers. -/
def Json.pyEq : Json → Json → Bool
  | .null, .null => true
  | .bool a, .bool b => a == b
  | .int a, .int b => a == b
  | .bool a, .int b => a.toInt == b
  | .int a, .bool b => a == b.toInt
  | .str a, .str b => a == b
  | _, _ => false

namespace ReleaseCache

/-- `value.get(key) == expected`. -/
def same_value (value : Option Json) (expected : Json) : Bool := value.any fun v => v.pyEq expected

/-- `set(fields) == set(keys)`. -/
def keys_are (fields : List (String × Json)) (keys : List String) : Bool :=
  fields.all (fun f => keys.contains f.1) && keys.all fun k => (fields.map (·.1)).contains k

/-- `value == expected` for a dict of plain values. -/
def same_dict (value : Option Json) (expected : List (String × Json)) : Bool :=
  match value with
  | some (.obj fields) =>
    keys_are fields (expected.map (·.1)) && expected.all fun x => same_value (fields.lookup x.1) x.2
  | _ => false

/-- `_require_fields`. -/
def _require_fields (value expected : List (String × Json)) (label : String) : Except PyErr Unit :=
  let mismatched := ((expected.filter fun x => !same_value (value.lookup x.1) x.2).map (·.1)).insertionSort (· ≤ ·)
  if mismatched ≠ [] then .error (.ValueError (label ++ " differs in: " ++ String.intercalate ", " mismatched)) else .ok ()

/-- `_read_json`. -/
def _read_json (root : Root) (path label : String) : Except PyErr (List (String × Json)) :=
  match root.read_text path with
  | .error _ => .error (.ValueError (label ++ " is not valid JSON"))
  | .ok text =>
    match Json.loads text with
    | none => .error (.ValueError (label ++ " is not valid JSON"))
    | some (.obj fields) => .ok fields
    | some _ => .error (.ValueError (label ++ " is not an object"))

/-- One line of an environment file. -/
def add_variable (label : String) (values : Dict String) (line : List Char) : Except PyErr (Dict String) :=
  let key := String.ofList (line.takeWhile (· ≠ '='))
  match line.dropWhile (· ≠ '=') with
  | [] => .error (.ValueError (label ++ " is malformed"))
  | _ :: value =>
    if h : key ∉ values.keys ∧ key ≠ "" ∧ Char.ofNat 0 ∉ value then .ok (values.add key (String.ofList value) h.1)
    else .error (.ValueError (label ++ " is malformed"))

/-- `_read_environment`. -/
def _read_environment (root : Root) (path label : String) : Except PyErr (List (String × Json)) :=
  match root.read_text path with
  | .error _ => .error (.ValueError (label ++ " is not readable text"))
  | .ok text => do
    let values ← (splitlines text.toList).foldlM (add_variable label) .empty
    return values.items.map fun x => (x.1, .str x.2)

end ReleaseCache

/-! ## Evidence about archives -/

namespace TarMetadata

open ReleaseCache

/-- `_epoch`. -/
def _epoch (value : Option Json) (label : String) : Except PyErr Int :=
  match value with
  | some (.int n) => if n < 1 then .error (.ValueError (label ++ " must be a positive integer epoch")) else .ok n
  | _ => .error (.ValueError (label ++ " must be a positive integer epoch"))

/-- A `Mapping` with these keys. -/
def mapping (value : Option Json) (keys : List String) (label : String) : Except PyErr (List (String × Json)) :=
  match value with
  | some (.obj fields) => if keys_are fields keys then .ok fields else .error (.ValueError (label ++ " is malformed"))
  | _ => .error (.ValueError (label ++ " is malformed"))

/-- `_metadata_record`. -/
def _metadata_record (value : Option Json) (epoch : Int) (label : String) : Except PyErr Unit := do
  let fields ← mapping value ["maximum_mtime", "member_count", "minimum_mtime"] label
  match fields.lookup "minimum_mtime", fields.lookup "maximum_mtime", fields.lookup "member_count" with
  | some (.int minimum), some (.int maximum), some (.int count) =>
    if minimum < 0 ∨ maximum < minimum ∨ maximum > epoch ∨ count < 1 then
      throw (.ValueError (label ++ " is outside deterministic metadata policy"))
    if minimum ≠ epoch ∨ maximum ≠ epoch then throw (.ValueError (label ++ " does not use the exact publication epoch"))
  | _, _, _ => throw (.ValueError (label ++ " is outside deterministic metadata policy"))

/-- The status and epoch that both kinds of evidence have. -/
def require_epoch (fields : List (String × Json)) (epoch : Int) (label : String) : Except PyErr Unit :=
  if !same_value (fields.lookup "status") (.str "PASS") || !same_value (fields.lookup "epoch") (.int epoch) then
    .error (.ValueError (label ++ " does not match the publication epoch"))
  else .ok ()

def require_source_archive_evidence (value epoch : Option Json) (label : String) : Except PyErr Unit := do
  let checked_epoch ← _epoch epoch "source archive evidence epoch"
  let fields ← mapping value ["epoch", "maximum_mtime", "member_count", "minimum_mtime", "status"] label
  require_epoch fields checked_epoch label
  _metadata_record (some (.obj (fields.filter fun f => ["maximum_mtime", "member_count", "minimum_mtime"].contains f.1)))
    checked_epoch label

def require_package_archive_evidence (value : Option Json) (package_names : List String) (epoch : Option Json)
    (label : String) : Except PyErr Unit := do
  let checked_epoch ← _epoch epoch "package archive evidence epoch"
  if package_names = [] ∨ ¬package_names.Nodup ∨ "" ∈ package_names then
    throw (.ValueError (label ++ " has an invalid expected package set"))
  let fields ← mapping value ["epoch", "packages", "status"] label
  require_epoch fields checked_epoch label
  match fields.lookup "packages" with
  | some (.obj packages) =>
    if !keys_are packages package_names then throw (.ValueError (label ++ " has a different package set"))
    packages.forM fun (package, record) => do
      let kinds ← (mapping (some record) ["control", "data"] label).mapError fun _ =>
        PyErr.ValueError (label ++ " is malformed for " ++ package)
      ["control", "data"].forM fun archive_kind =>
        _metadata_record (kinds.lookup archive_kind) checked_epoch (label ++ " for " ++ package ++ " " ++ archive_kind ++ " tar")
  | _ => throw (.ValueError (label ++ " has a different package set"))

end TarMetadata

/-! ## The identity of a release cache -/

namespace ReleaseCache

def RELEASE_CACHE_REVISION : Int := 2

def FLAVORS : List String := ["v2", "v3"]

structure ReleaseCacheIdentity where
  schema_version : Int
  flavor : String
  source_version : String
  source_dsc_sha256 : String
  dkc_revision : Int
  build_policy_sha256 : String
  validation_policy_sha256 : String
  lto_mode : String
deriving DecidableEq

namespace ReleaseCacheIdentity

def post_init (self : ReleaseCacheIdentity) : Except PyErr Unit := do
  if self.schema_version ≠ RELEASE_CACHE_REVISION then throw (.ValueError "release-cache schema revision is unsupported")
  if self.flavor ∉ FLAVORS then throw (.ValueError "release cache is limited to release flavors")
  if self.source_version = "" ∨ self.dkc_revision < 1 then throw (.ValueError "release-cache source identity is incomplete")
  if !([self.source_dsc_sha256, self.build_policy_sha256, self.validation_policy_sha256].all isSha256) then
    throw (.ValueError "release-cache identity contains a malformed digest")
  if self.lto_mode ∉ ["none", "thin", "full"] then throw (.ValueError "release-cache LTO mode is invalid")

def asdict (self : ReleaseCacheIdentity) : List (String × Json) := [
  ("schema_version", .int self.schema_version),
  ("flavor", .str self.flavor),
  ("source_version", .str self.source_version),
  ("source_dsc_sha256", .str self.source_dsc_sha256),
  ("dkc_revision", .int self.dkc_revision),
  ("build_policy_sha256", .str self.build_policy_sha256),
  ("validation_policy_sha256", .str self.validation_policy_sha256),
  ("lto_mode", .str self.lto_mode)]

/-- `digest`, a `sha256_of`. -/
def digest (hexdigest : ByteArray → String) (self : ReleaseCacheIdentity) : Except PyErr String := do
  return hexdigest (← Serialize.canonical_bytes (.obj self.asdict))

def key (hexdigest : ByteArray → String) (self : ReleaseCacheIdentity) : Except PyErr String := do
  return "dkc-release-v" ++ String.ofList (Json.renderInt self.schema_version) ++ "-" ++ self.flavor ++ "-" ++
    (← self.digest hexdigest)

end ReleaseCacheIdentity

/-! ## Images -/

/-- `prefix@sha256:<64 lowercase hexadecimal digits>`. -/
def is_registry_image (name : String) (image : String) : Bool :=
  startswith image (name ++ "@sha256:") && fullmatchClass isLowerHex 64 (some 64) (image.toList.drop (name.length + 8))

def is_build_image : String → Bool := is_registry_image "ghcr.io/kogeler/dkc-kernel-build"

def is_toolbox_image : String → Bool := is_registry_image "ghcr.io/kogeler/dkc-toolbox"

/-- `localhost/dkc-build:llvm[1-9][0-9]*`. -/
def is_candidate_build_image (image : String) : Bool :=
  startswith image "localhost/dkc-build:llvm" &&
    match image.toList.drop 24 with
    | [] => false
    | c :: cs => isAsciiDigit c && c ≠ '0' && cs.all isAsciiDigit

def is_candidate_toolbox_image (image : String) : Bool := image = "localhost/dkc-toolbox:latest"

def _image_provenance (build_image toolbox_image : String) (qualification : Bool) : Except PyErr String :=
  if is_build_image build_image && is_toolbox_image toolbox_image then .ok "registry"
  else if qualification && is_candidate_build_image build_image && is_candidate_toolbox_image toolbox_image then .ok "candidate"
  else .error (.ValueError ("release cache requires the published image bundle, or a pull request's " ++
    "own candidate images for its qualification"))

/-! ## The results -/

/-- `value.get(key)` that has to be an object. -/
def get_object (value : List (String × Json)) (key message : String) : Except PyErr (List (String × Json)) :=
  match value.lookup key with
  | some (.obj fields) => .ok fields
  | _ => .error (.ValueError message)

/-- `path.glob("*.deb")` of a directory, by the file names. -/
def debs (below : Dict Entry) (directory : String) : List (String × Entry) :=
  below.items.filterMap fun x =>
    if startswith x.1 (directory ++ "/") && x.1.toList.drop (directory.length + 1) ≠ [] &&
        !(x.1.toList.drop (directory.length + 1)).contains '/' &&
        ".deb".toList.isSuffixOf (x.1.toList.drop (directory.length + 1)) then
      some (String.ofList (x.1.toList.drop (directory.length + 1)), x.2)
    else none

section
variable (hexdigest : ByteArray → String)

/-- `_sha256(path)`. -/
def _sha256 (entry : Option Entry) : Except PyErr String :=
  match entry with
  | some (.file content) => .ok (hexdigest content)
  | _ => .error .OSError

/-- The published identity: the build-input digest, the kernel release and the epoch. -/
def verify_publication (root : Root) (identity : ReleaseCacheIdentity) : Except PyErr (String × String × Option Json) := do
  let publication ← _read_json root "flavor/evidence/publication-identity.json" "publication identity"
  let build_inputs ← get_object publication "build_inputs" "publication identity lacks build inputs"
  let source ← get_object build_inputs "debian_source" "publication identity lacks Debian source inputs"
  _require_fields source [("version", .str identity.source_version), ("dsc_sha256", .str identity.source_dsc_sha256)]
    "publication source identity"
  _require_fields build_inputs [("dkc_revision", .int identity.dkc_revision),
    ("overlay_sha256", .str identity.build_policy_sha256), ("lto_mode", .str identity.lto_mode)] "publication build identity"
  match publication.lookup "build_input_digest" with
  | some (.str build_input_digest) =>
    if !isSha256 build_input_digest then throw (.ValueError "publication build-input digest is malformed")
    match publication.lookup "kernel_releases" with
    | some (.obj releases) =>
      match releases.lookup identity.flavor with
      | some (.str kernel_release) => return (build_input_digest, kernel_release, publication.lookup "publication_source_date_epoch")
      | _ => throw (.ValueError "publication identity lacks the flavor kernel release")
    | _ => throw (.ValueError "publication identity lacks the flavor kernel release")
  | _ => throw (.ValueError "publication build-input digest is malformed")

/-- The image the flavor was built in. -/
def verify_provenance (root : Root) (build_image provenance_kind : String) : Except PyErr Unit := do
  let provenance ← _read_environment root "flavor/evidence/build-image-provenance.env" "build image provenance"
  let expected ←
    if provenance_kind = "registry" then
      if is_build_image build_image then
        pure [("provider", Json.str "registry"), ("registry_manifest_digest", .str (String.ofList (build_image.toList.drop 33)))]
      else throw .AssertionError
    else pure [("provider", .str "local"), ("registry_manifest_digest", .str "NOT_APPLICABLE")]
  _require_fields provenance expected "build image provenance"

/-- The gates behind the build, and the two audits. -/
def verify_gates (root : Root) (identity : ReleaseCacheIdentity) : Except PyErr Unit := do
  let gates ← _read_environment root "flavor/evidence/post-build-gates.env" "post-build gates"
  if !same_dict (some (.obj gates)) [("package_attestation_rc", .str "0"), ("kbuild_audit_rc", .str "0"),
      ("simd_audit_rc", .str "0"), ("lintian_rc", .str "0")] then
    throw (.ValueError "one or more cached post-build gates did not pass")
  [("kernel-simd-audit.json", "SIMD audit"), ("kbuild-command-audit.json", "Kbuild audit")].forM fun (name, label) => do
    let report ← _read_json root ("flavor/evidence/" ++ name) label
    _require_fields report [("status", .str "PASS"), ("lto_mode", .str identity.lto_mode)] label

/-- The attestation, and the packages it names. -/
def verify_packages (below : Dict Entry) (identity : ReleaseCacheIdentity) (kernel_release : String) (epoch : Option Json) :
    Except PyErr Unit := do
  let attestation ← _read_json (.directory below) "flavor/evidence/attestation.json" "kernel attestation"
  _require_fields attestation [("status", .str "PASS"), ("flavor", .str identity.flavor),
    ("kernel_release", .str kernel_release), ("lto_mode", .str identity.lto_mode)] "kernel attestation"
  let packages ← get_object attestation "packages" "kernel attestation contains no package inventory"
  if packages = [] then throw (.ValueError "kernel attestation contains no package inventory")
  (TarMetadata.require_package_archive_evidence (attestation.lookup "package_archive_metadata") (packages.map (·.1)) epoch
    "kernel attestation package archive evidence").mapError fun _ =>
      PyErr.ValueError "kernel attestation lacks package archive metadata evidence"
  let observed_debs := debs below "flavor/artifacts"
  if !keys_are packages (observed_debs.map (·.1)) then
    throw (.ValueError "cached binary package set differs from its attestation")
  packages.forM fun (name, digest) => do
    match digest with
    | .str digest =>
      if (← _sha256 hexdigest (observed_debs.lookup name)) ≠ digest then
        throw (.ValueError "cached binary package digest differs from its attestation")
    | _ => throw (.ValueError "cached binary package digest differs from its attestation")

/-- The results of the selftests and of the virtual machine. -/
def verify_runs (root : Root) (identity : ReleaseCacheIdentity) (build_input_digest kernel_release : String) :
    Except PyErr Unit := do
  let selftest_status ← _read_environment root "kselftest/evidence/result.env" "selftest result"
  _require_fields selftest_status [("status", .str "PASS"), ("flavor", .str identity.flavor),
    ("profile_kind", .str "qualification"), ("kernel_release", .str kernel_release), ("lto_mode", .str identity.lto_mode)]
    "selftest result"
  let selftest ← _read_json root "kselftest/evidence/kselftest-build.json" "selftest build"
  _require_fields selftest [("status", .str "PASS"), ("flavor", .str identity.flavor),
    ("profile_kind", .str "qualification"), ("kernel_release", .str kernel_release), ("lto_mode", .str identity.lto_mode),
    ("build_input_digest", .str build_input_digest)] "selftest build"
  let qemu_status ← _read_environment root "qemu/evidence/result.env" "QEMU result"
  _require_fields qemu_status [("status", .str "PASS"), ("flavor", .str identity.flavor), ("lto_mode", .str identity.lto_mode),
    ("accelerator", .str "kvm")] "QEMU result"
  let scenario ← _read_json root ("qemu/" ++ identity.flavor ++ "/evidence/result.json") "QEMU scenario"
  _require_fields scenario [("status", .str "PASS"), ("flavor", .str identity.flavor), ("accelerator", .str "kvm"),
    ("qemu_exit", .int 0)] "QEMU scenario"
  let guest ← _read_environment root ("qemu/" ++ identity.flavor ++ "/guest/result.env") "guest qualification"
  _require_fields guest [("status", .str "PASS"), ("flavor", .str identity.flavor), ("target_kernel", .str kernel_release),
    ("qualification", .str "PASS")] "guest qualification"

/-- One of the three result directories. -/
def require_result (below : Dict Entry) (path label : String) : Except PyErr Unit :=
  match below.get? path with
  | some .directory => .ok ()
  | _ => .error (.ValueError ("release cache lacks its " ++ label ++ " result"))

def _verify_semantics (below : Dict Entry) (identity : ReleaseCacheIdentity) (build_image provenance_kind : String) :
    Except PyErr Unit := do
  let root := Root.directory below
  [("flavor", "flavor"), ("kselftest", "selftest"), ("qemu", "QEMU")].forM fun (path, label) => require_result below path label
  let flavor_status ← _read_environment root "flavor/evidence/result.env" "flavor result"
  _require_fields flavor_status [("status", .str "PASS"), ("flavor", .str identity.flavor), ("lto_mode", .str identity.lto_mode)]
    "flavor result"
  let (build_input_digest, kernel_release, epoch) ← verify_publication root identity
  let source_report ← _read_json root "flavor/evidence/source-package/source-package.json" "source-package report"
  _require_fields source_report [("status", .str "PASS"), ("reconstruction", .str "PASS"),
    ("build_input_digest", .str build_input_digest)] "source-package report"
  (TarMetadata.require_source_archive_evidence (source_report.lookup "debian_archive_metadata") epoch
    "source-package archive evidence").mapError fun _ => PyErr.ValueError "source-package report lacks archive metadata evidence"
  verify_provenance root build_image provenance_kind
  verify_gates root identity
  verify_packages hexdigest below identity kernel_release epoch
  verify_runs root identity build_input_digest kernel_release

end

end ReleaseCache
