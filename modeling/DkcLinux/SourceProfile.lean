import DkcLinux.Order.Ranges
import DkcLinux.Order.Grouping
import DkcLinux.Retention

/-!
# Source profiles (`dkc/sourceprofile.py`)

A profile is a directory with two TOML files; a registry is a directory of profiles. `load_profiles`
checks each profile by itself, then the neighbours of each series, sorted by where they begin;
`select_profile` takes the one that covers a version.

| of a profile of the registry           | checked by         |
|----------------------------------------|--------------------|
| its range is not empty                 | `checked`          |
| it ends before the next of its series  | `checkNeighbours`  |
| the version it covers is of its series | `covers`           |

`select_profile_unique`: that is enough for no version to be covered twice.
-/

open Py

/-! ## Files -/

inductive Toml where
  | str (s : String)
  | int (n : Int)
  /-- Nothing for an infinity or a NaN. -/
  | float (value : Option ℚ)
  | bool (b : Bool)
  /-- A date, a time, or both. -/
  | time (text : String)
  | arr (items : List Toml)
  | table (fields : List (String × Toml))

/-- What is below a path; a link is followed unless it is broken. Of a file, what `tomllib.loads` makes
of its text. -/
inductive Node where
  | file (toml : Except PyErr Toml)
  | directory (entries : List (String × Node))
  | symlink (target : Option Node)
  | special

namespace Node

/-- What a path leads to. -/
def follow : Node → Option Node
  | .symlink target => target
  | node => some node

def is_file (node : Node) : Bool :=
  match node.follow with
  | some (.file _) => true
  | _ => false

/-- The entries of a directory, also behind a link. -/
def iterdir (node : Node) : Option (List (String × Node)) :=
  match node.follow with
  | some (.directory entries) => some entries
  | _ => none

/-- The entries of a directory that is no link. -/
def ownEntries : Node → Option (List (String × Node))
  | .directory entries => some entries
  | _ => none

/-- A file that is no link. -/
def isOwnFile : Node → Bool
  | .file _ => true
  | _ => false

end Node

/-! ## Data -/

structure FpuObjectPolicy where
  final_artifact : String
  objects : List String

structure KbuildAuditPolicy where
  minimum_counts : List (String × Int)
  minimum_host_c : List (String × Int)
  lto_excluded_c_targets : List String

structure KselftestPolicy where
  kind : String
  targets : List String
  tests : List String
  v3_tests : List String
  per_test_timeout : Int
  aggregate_timeout : Int
  required_builtin : List String
  required_enabled : List String

/-- A profile, its versions parsed. -/
structure SourceProfile where
  profile_id : String
  kernel_series : ℕ ×ₗ ℕ
  reviewed_source_version : DebianVersion
  first_source_version : Option DebianVersion
  before_source_version : Option DebianVersion
  build_profiles : List String
  kernel_architectures : List (String × List String)
  fpu : FpuObjectPolicy
  simd_allowlist : List Toml
  kbuild_audit : KbuildAuditPolicy
  kselftest : KselftestPolicy

/-- `covers`. -/
def SourceProfile.covers (p : SourceProfile) (version : DebianVersion) : Bool :=
  version.series = p.kernel_series &&
    (p.first_source_version.all fun first => !decide (Debver.compare version first < 0)) &&
    p.before_source_version.all fun before => decide (Debver.compare version before < 0)

namespace SourceProfile

def PROFILE_ROOT : String := "config/source-profiles"
def OVERLAY_ROOT : String := "debian-overlay/patches"
def KSELFTEST_PATCH_ROOT : String := "tests/integration/kselftest-patches"
def BUILD_FILE : String := "profile.toml"
def VALIDATION_FILE : String := "validation.toml"
def LTO_MODES : List String := ["none", "thin", "full"]

/-! ## Patterns -/

def isLowerAlnum (c : Char) : Bool := isAsciiDigit c || isAsciiLower c

/-- `[A-Za-z0-9_+.-]`. -/
def isPathChar (c : Char) : Bool := isAsciiAlnum c || ['_', '+', '.', '-'].contains c

/-- A first character and others. -/
def startsWith (first rest : Char → Bool) : List Char → Bool
  | [] => false
  | c :: s => first c && s.all rest

/-- `[A-Za-z0-9_+.-]+(?:/[A-Za-z0-9_+.-]+)*`. -/
def isPath (s : List Char) : Bool := (s.splitOn '/').all fun part => part ≠ [] && part.all isPathChar

/-- A path with an ending, which is not all of its last part. -/
def isPathTo (ending : List Char) (s : List Char) : Bool :=
  ending.isSuffixOf s && isPath (s.take (s.length - ending.length))

/-- `_PATCH_RE`. -/
def isPatch (s : List Char) : Bool :=
  (s.take 4).length = 4 && (s.take 4).all isAsciiDigit && ['-'].isPrefixOf (s.drop 4) &&
    ".patch".toList.isSuffixOf (s.drop 5) &&
    startsWith isLowerAlnum (fun c => isLowerAlnum c || c == '.' || c == '-') ((s.drop 5).take ((s.drop 5).length - 6))

/-- `_BUILD_PROFILE_RE`. -/
def isBuildProfile : List Char → Bool :=
  startsWith isLowerAlnum fun c => isLowerAlnum c || ['.', '+', '-'].contains c

/-- `_ARCHITECTURE_RE`. -/
def isArchitecture : List Char → Bool := startsWith isAsciiLower isLowerAlnum

/-- `_OBJECT_RE`. -/
def isObject (s : List Char) : Bool := isPathTo ".o".toList s

/-- `_ARTIFACT_RE`. -/
def isArtifact (s : List Char) : Bool :=
  s == "vmlinux".toList || "kernel/".toList.isPrefixOf s && isPathTo ".ko".toList (s.drop 7)

/-- `_KSELFTEST_TARGET_RE`. -/
def isTarget (s : List Char) : Bool := isPath s

/-- `_KSELFTEST_TEST_RE`. -/
def isTest (s : List Char) : Bool :=
  s.contains ':' && isPath (partition ':' s).1 && (partition ':' s).2 ≠ [] &&
    (partition ':' s).2.all fun c => isPathChar c || c == '/'

/-- `_KCONFIG_RE`. -/
def isKconfig : List Char → Bool :=
  fullmatchClass (fun c => isAsciiUpper c || isAsciiDigit c || c == '_') 1 none

/-- `_KIND_RE`. -/
def isKind : List Char → Bool := startsWith isAsciiLower fun c => isLowerAlnum c || c == '-'

/-- `_ID_RE`: the two numbers of the series. -/
def seriesOf (profile_id : List Char) : Option (List Char × List Char) :=
  let major := profile_id.takeWhile isAsciiDigit
  match profile_id.dropWhile isAsciiDigit with
  | '.' :: rest =>
    let minor := rest.takeWhile isAsciiDigit
    let tail := rest.dropWhile isAsciiDigit
    if major ≠ [] ∧ minor ≠ [] ∧ (tail = [] ∨ tail.head? = some '-' ∧ tail.tail ≠ [] ∧ tail.tail.all isLowerAlnum) then
      some (major, minor)
    else none
  | _ => none

/-! ## Loading one profile -/

/-- `_read_toml`. -/
def read_toml (node : Option Node) : Except PyErr Toml :=
  match node.bind Node.follow with
  | some (.file (.ok toml)) => .ok toml
  | _ => .error (.SourceProfileError "cannot read")

/-- `_fields`. -/
def fields (table : Toml) (context : String) (required : List String) (optional : List String := []) :
    Except PyErr (List (String × Toml)) :=
  match table with
  | .table fields =>
    let keys := fields.map (·.1)
    let missing := required.filter fun key => !keys.contains key
    let unexpected := keys.filter fun key => !required.contains key && !optional.contains key
    if missing ≠ [] ∨ unexpected ≠ [] then
      .error (.SourceProfileError (context ++ " fields differ") [toString missing, toString unexpected])
    else .ok fields
  | _ => .error (.SourceProfileError (context ++ " must be a table"))

/-- `table[key]`. -/
def item (table : List (String × Toml)) (key : String) : Except PyErr Toml :=
  match table.lookup key with
  | some value => .ok value
  | none => .error (.KeyError key)

/-- The strings of a string array. -/
def allStrings : List Toml → Option (List String)
  | [] => some []
  | .str s :: rest => (allStrings rest).map (s :: ·)
  | _ :: _ => none

/-- `_strings`. -/
def strings (value : Toml) (context : String) (pattern : List Char → Bool) (allow_empty : Bool := false) :
    Except PyErr (List String) :=
  match value with
  | .arr items =>
    match allStrings items with
    | some texts =>
      if texts = [] ∧ !allow_empty then .error (.SourceProfileError (context ++ " must not be empty"))
      else if ¬ texts.Nodup then .error (.SourceProfileError (context ++ " contains duplicates"))
      else if ¬ texts.all fun text => pattern text.toList then
        .error (.SourceProfileError (context ++ " contains unsafe values"))
      else .ok texts
    | none => .error (.SourceProfileError (context ++ " must be a string array"))
  | _ => .error (.SourceProfileError (context ++ " must be a string array"))

/-- `_integer`. -/
def integer (value : Toml) (context : String) (minimum maximum : Int) : Except PyErr Int :=
  match value with
  | .int n =>
    if minimum ≤ n ∧ n ≤ maximum then .ok n
    else .error (.SourceProfileError (context ++ " must be an integer in the interval") [toString minimum, toString maximum])
  | _ => .error (.SourceProfileError (context ++ " must be an integer in the interval") [toString minimum, toString maximum])

/-- `_version`: a literal that `int` refuses is no `InvalidVersion`. -/
def version (value : Toml) (context : String) : Except PyErr DebianVersion :=
  match value with
  | .str text =>
    match Debver.parse text with
    | .ok v => .ok v
    | .error (.InvalidVersion msg shown) =>
      .error (.SourceProfileError (context ++ " is not a Debian version") (msg :: shown))
    | .error e => .error e
  | _ => .error (.SourceProfileError (context ++ " must be a Debian version string"))

/-- An optional version. -/
def optVersion (table : List (String × Toml)) (key : String) : Except PyErr (Option DebianVersion) :=
  match table.lookup key with
  | none => .ok none
  | some value => do return some (← version value key)

/-- `value == 1`. -/
def isOne : Toml → Bool
  | .int n => n == 1
  | .float (some q) => q == 1
  | .bool b => b
  | _ => false

/-- `value == text`. -/
def isText : Toml → String → Bool
  | .str s, text => s == text
  | _, _ => false

/-- `_load_build`. -/
def load_build (node : Option Node) (series : String) : Except PyErr (List (String × Toml)) := do
  let raw ← fields (← read_toml node) BUILD_FILE
    ["schema_version", "kernel_series", "reviewed_source_version", "debian", "fpu", "simd_allowlist"]
    ["first_source_version", "before_source_version"]
  if !isOne (← item raw "schema_version") then
    throw (.SourceProfileError "the build file has an unsupported schema")
  if !isText (← item raw "kernel_series") series then
    throw (.SourceProfileError "kernel_series does not match the profile")
  return raw

/-- `_load_validation`. -/
def load_validation (node : Option Node) (series : String) : Except PyErr (List (String × Toml)) := do
  let raw ← fields (← read_toml node) VALIDATION_FILE
    ["schema_version", "kernel_series", "kbuild_audit", "kselftest"]
  if !isOne (← item raw "schema_version") || !isText (← item raw "kernel_series") series then
    throw (.SourceProfileError "the validation file does not describe the kernel series" [series])
  return raw

/-- `_architectures`. -/
def architectures (value : Toml) (context : String) : Except PyErr (List (String × List String)) := do
  let table ← match value with
    | .table (x :: xs) => pure (x :: xs)
    | _ => throw (PyErr.SourceProfileError (context ++ " must be a non-empty table"))
  let result ← table.mapM fun (name, debian) => do
    if !isArchitecture name.toList then
      throw (PyErr.SourceProfileError (context ++ " has an unsafe kernel architecture") [name])
    return (name, ← strings debian (context ++ "." ++ name) isArchitecture)
  if (result.filter fun x => x.2.contains "amd64").map (·.1) ≠ ["x86"] then
    throw (.SourceProfileError (context ++ " must place amd64 only under x86"))
  return result

def fpu_policy (build : List (String × Toml)) : Except PyErr FpuObjectPolicy := do
  let fpu_raw ← fields (← item build "fpu") "fpu" ["final_artifact", "objects"]
  match ← item fpu_raw "final_artifact" with
  | .str final_artifact =>
    if !isArtifact final_artifact.toList then
      throw (.SourceProfileError "fpu.final_artifact must be one exact module path")
    let objects ← strings (← item fpu_raw "objects") "fpu.objects" isObject
    if objects ≠ objects.insertionSort (· ≤ ·) ∨
        objects.any fun object => (object.toList.splitOn '/').contains ['.', '.'] then
      throw (.SourceProfileError "fpu.objects must be sorted safe relative objects")
    return ⟨final_artifact, objects⟩
  | _ => throw (.SourceProfileError "fpu.final_artifact must be one exact module path")

def isTable : Toml → Bool
  | .table _ => true
  | _ => false

def simd_tables (build : List (String × Toml)) : Except PyErr (List Toml) := do
  match ← item build "simd_allowlist" with
  | .arr (x :: xs) =>
    if (x :: xs).all isTable then return x :: xs
    throw (.SourceProfileError "simd_allowlist must be a non-empty array of tables")
  | _ => throw (.SourceProfileError "simd_allowlist must be a non-empty array of tables")

/-- The tables of `kbuild_audit`, and the excluded targets. -/
def kbuild_tables (validation : List (String × Toml)) :
    Except PyErr (List (String × Toml) × List (String × Toml) × List String) := do
  let kbuild ← fields (← item validation "kbuild_audit") "kbuild_audit"
    ["minimum_records", "minimum_normal_c", "minimum_special_c", "minimum_kernel_rust", "minimum_host_c",
      "lto_excluded_c_targets"]
  let host_c ← fields (← item kbuild "minimum_host_c") "kbuild_audit.minimum_host_c" LTO_MODES
  let exclusions ← strings (← item kbuild "lto_excluded_c_targets") "kbuild_audit.lto_excluded_c_targets" isObject
  if exclusions ≠ exclusions.insertionSort (· ≤ ·) then
    throw (.SourceProfileError "kbuild_audit.lto_excluded_c_targets must be sorted")
  return (kbuild, host_c, exclusions)

def kbuild_policy (kbuild host_c : List (String × Toml)) (exclusions : List String) :
    Except PyErr KbuildAuditPolicy := do
  let minimum_counts ← ["records", "normal_c", "special_c", "kernel_rust"].mapM fun name => do
    return (name, ← integer (← item kbuild ("minimum_" ++ name)) ("minimum_" ++ name) 1 (10 ^ 7))
  let minimum_host_c ← LTO_MODES.mapM fun mode => do
    return (mode, ← integer (← item host_c mode) ("minimum_host_c." ++ mode) 1 (10 ^ 7))
  return ⟨minimum_counts, minimum_host_c, exclusions⟩

/-- The `kselftest` table, and the policy that its two limits make. -/
def kselftest_policy (validation : List (String × Toml)) :
    Except PyErr (List (String × Toml) × (Int → Int → KselftestPolicy)) := do
  let selftest ← fields (← item validation "kselftest") "kselftest"
    ["kind", "targets", "tests", "v3_tests", "per_test_timeout", "aggregate_timeout", "required_builtin",
      "required_enabled"]
  match ← item selftest "kind" with
  | .str kind =>
    if !isKind kind.toList then
      throw (.SourceProfileError "kselftest.kind is unsafe")
    let targets ← strings (← item selftest "targets") "kselftest.targets" isTarget
    let tests ← strings (← item selftest "tests") "kselftest.tests" isTest
    let v3_tests ← strings (← item selftest "v3_tests") "kselftest.v3_tests" isTest true
    let tested := tests.map fun test => String.ofList (partition ':' test.toList).1
    if !(tested.all targets.contains && targets.all tested.contains) then
      throw (.SourceProfileError "every kselftest target must run at least one selected test")
    if !v3_tests.all tests.contains then
      throw (.SourceProfileError "kselftest.v3_tests must be selected tests")
    let required_builtin ← strings (← item selftest "required_builtin") "kselftest.required_builtin" isKconfig
    let required_enabled ← strings (← item selftest "required_enabled") "kselftest.required_enabled" isKconfig true
    if required_builtin.any required_enabled.contains then
      throw (.SourceProfileError "kselftest builtin and enabled requirements overlap")
    return (selftest, fun per_test_timeout aggregate_timeout =>
      { kind, targets, tests, v3_tests, per_test_timeout, aggregate_timeout, required_builtin, required_enabled })
  | _ => throw (.SourceProfileError "kselftest.kind is unsafe")

/-- What the files of a profile say. -/
def read_profile (profile_id : String) (directory : Node) : Except PyErr SourceProfile := do
  let some (major, minor) := seriesOf profile_id.toList
    | throw (.SourceProfileError "invalid source profile directory name" [profile_id])
  let some entries := directory.ownEntries
    | throw (.SourceProfileError "not a profile directory" [profile_id])
  if !(entries.all fun x => x.1 = BUILD_FILE || x.1 = VALIDATION_FILE) ||
      !([BUILD_FILE, VALIDATION_FILE].all (entries.map (·.1)).contains) then
    throw (.SourceProfileError "a profile must contain exactly its two files" [profile_id])
  let series := String.ofList (major ++ '.' :: minor)
  let build ← load_build (entries.lookup BUILD_FILE) series
  let validation ← load_validation (entries.lookup VALIDATION_FILE) series
  let debian ← fields (← item build "debian") "debian" ["build_profiles", "kernel_architectures"]
  let fpu ← fpu_policy build
  let simd_allowlist ← simd_tables build
  let (kbuild, host_c, exclusions) ← kbuild_tables validation
  let (selftest, kselftest) ← kselftest_policy validation
  return {
    profile_id := profile_id
    kernel_series := toLex (Debver.number major, Debver.number minor)
    reviewed_source_version := ← version (← item build "reviewed_source_version") "reviewed_source_version"
    first_source_version := ← optVersion build "first_source_version"
    before_source_version := ← optVersion build "before_source_version"
    build_profiles := ← strings (← item debian "build_profiles") "debian.build_profiles" isBuildProfile
    kernel_architectures := ← architectures (← item debian "kernel_architectures") "debian.kernel_architectures"
    fpu := fpu
    simd_allowlist := simd_allowlist
    kbuild_audit := ← kbuild_policy kbuild host_c exclusions
    kselftest := kselftest
      (← integer (← item selftest "per_test_timeout") "per_test_timeout" 1 600)
      (← integer (← item selftest "aggregate_timeout") "aggregate_timeout" 1 3600) }

/-- The checks of a profile that is read. -/
def checked (profile : SourceProfile) : Except PyErr SourceProfile := do
  if (profile.first_source_version.any fun first => profile.before_source_version.any fun before =>
      decide (Debver.compare first before ≥ 0)) = true then
    throw (.SourceProfileError "a profile has an empty source version range" [profile.profile_id])
  if !profile.covers profile.reviewed_source_version then
    throw (.SourceProfileError "a profile does not cover its reviewed source version" [profile.profile_id])
  return profile

/-- `load_profile`, of a directory below `PROFILE_ROOT`. -/
def load_profile (profile_id : String) (directory : Node) : Except PyErr SourceProfile := do
  checked (← read_profile profile_id directory)

/-! ## The registry -/

/-- `_require_series_directories`. -/
def require_series_directories (base : Option Node) (profile_ids : List String) (required : Bool) :
    Except PyErr Unit :=
  match base.bind Node.iterdir with
  | none => if required then .error (.SourceProfileError "a patch root is absent") else .ok ()
  | some entries => do
    (sortedItems entries).forM fun (name, entry) => do
      if name = "README.md" ∧ entry.is_file then
        return
      match entry.ownEntries with
      | none => throw (PyErr.SourceProfileError "an entry does not belong to a source profile" [name])
      | some patches =>
        if !profile_ids.contains name then
          throw (PyErr.SourceProfileError "an entry does not belong to a source profile" [name])
        if !patches.all fun x => x.2.isOwnFile && isPatch x.1.toList then
          throw (PyErr.SourceProfileError "an entry contains a non-patch entry" [name])
    if required then
      let missing := profile_ids.filter fun profile_id =>
        !((entries.lookup profile_id).bind Node.iterdir).any fun patches => patches.any fun x => endswith x.1 ".patch"
      if missing ≠ [] then
        throw (.SourceProfileError "source profiles lack overlay patches" missing)

/-- The entries of the registry. -/
def load_entries : List (String × Node) → Except PyErr (List SourceProfile)
  | [] => .ok []
  | (name, entry) :: rest => do
    if name = "README.md" ∧ entry.is_file then
      load_entries rest
    else if entry.ownEntries.isNone then
      throw (.SourceProfileError "unexpected entry in the registry" [name])
    else
      let profile ← load_profile name entry
      return profile :: (← load_entries rest)

/-- The key of a series' sort, `"0~"` where the range is open. -/
def sortKey (profile : SourceProfile) : DebianVersion :=
  profile.first_source_version.getD
    { epoch := 0, upstream := "0~", revision := "", raw := "0~", upstream_valid := by decide,
      revision_valid := by decide, colon_epoch := by decide }

/-- The loop over `zip(members, members[1:])`. -/
def checkNeighbours : List SourceProfile → Except PyErr Unit
  | earlier :: later :: rest => do
    match earlier.before_source_version, later.first_source_version with
    | some before, some first =>
      if Debver.compare before first > 0 then
        throw (PyErr.SourceProfileError "source profiles overlap" [earlier.profile_id, later.profile_id])
    | _, _ => throw (PyErr.SourceProfileError "source profiles overlap" [earlier.profile_id, later.profile_id])
    checkNeighbours (later :: rest)
  | _ => .ok ()

/-- One series: its members sorted, each apart from the next. -/
def checkSeries (members : List SourceProfile) : Except PyErr Unit :=
  if members.length = 1 then .ok ()
  else checkNeighbours (members.insertionSort fun a b => ¬ Debver.compare (sortKey b) (sortKey a) < 0)

/-- `load_profiles`; the root maps paths to what is there. -/
def load_profiles (root : String → Option Node) : Except PyErr (List SourceProfile) := do
  let some entries := (root PROFILE_ROOT).bind Node.iterdir
    | throw (.SourceProfileError "the profile root is absent")
  let profiles ← load_entries (sortedItems entries)
  if profiles = [] then
    throw (.SourceProfileError "no source profiles are defined")
  let profile_ids := profiles.map (·.profile_id)
  require_series_directories (root OVERLAY_ROOT) profile_ids true
  require_series_directories (root KSELFTEST_PATCH_ROOT) profile_ids false
  (Grouping.groupBy (·.kernel_series) profiles).forM fun group => checkSeries group.2
  return profiles

/-- `select_profile`. -/
def select_profile (root : String → Option Node) (source_version : String) : Except PyErr SourceProfile := do
  let version ← match Debver.parse source_version with
    | .ok version => pure version
    | .error (.InvalidVersion msg shown) =>
      throw (PyErr.SourceProfileError "invalid Debian source version" (msg :: shown))
    | .error e => throw e
  match (← load_profiles root).filter fun profile => profile.covers version with
  | [] => throw (PyErr.SourceProfileError "no source profile covers linux" [source_version])
  | [profile] => return profile
  | _ => throw (PyErr.SourceProfileError "linux matches several source profiles" [source_version])

/-! ## What a registry is -/

/-- The versions a profile may cover, in the order of versions. -/
def range (p : SourceProfile) : Range (ℕ ×ₗ Lex (ℕ → ℤ) ×ₗ Lex (ℕ → ℤ)) :=
  ⟨p.first_source_version.map Debver.key, p.before_source_version.map Debver.key⟩

theorem covers_iff {p : SourceProfile} {v : DebianVersion} :
    p.covers v = true ↔ v.series = p.kernel_series ∧ p.range.Mem (Debver.key v) := by
  simp only [covers, Bool.and_eq_true, decide_eq_true_eq, Option.all_eq_true, Bool.not_eq_true',
    decide_eq_false_iff_not, Debver.compare_neg, not_lt, Range.Mem, range, Option.map_eq_some_iff, and_assoc]
  simp only [forall_exists_index, and_imp, forall_apply_eq_imp_iff₂]

/-- A profile that is loaded has no empty range. -/
theorem checked_ok {p q : SourceProfile} (h : checked p = .ok q) : q = p ∧ q.range.Proper := by
  rw [checked] at h
  simp only [except_throw, except_error_bind, except_check_eq_ok, except_pure] at h
  obtain ⟨hrange, -, h⟩ := h
  cases h
  refine ⟨rfl, fun a b ha hb => ?_⟩
  obtain ⟨first, hfirst, rfl⟩ := Option.map_eq_some_iff.1 ha
  obtain ⟨before, hbefore, rfl⟩ := Option.map_eq_some_iff.1 hb
  rw [hfirst, hbefore] at hrange
  rw [← Debver.compare_neg]
  simpa using hrange

theorem load_entries_proper : ∀ {entries : List (String × Node)} {profiles : List SourceProfile},
    load_entries entries = .ok profiles → ∀ p ∈ profiles, p.range.Proper
  | [], profiles, h => by
    cases h
    simp
  | (name, entry) :: rest, profiles, h => by
    rw [load_entries] at h
    split at h
    · exact load_entries_proper h
    split at h
    · cases h
    obtain ⟨profile, hprofile, h⟩ := except_bind_eq_ok.1 h
    obtain ⟨others, hothers, h⟩ := except_bind_eq_ok.1 h
    cases h
    obtain ⟨read, -, hchecked⟩ := except_bind_eq_ok.1 hprofile
    exact List.forall_mem_cons.2 ⟨(checked_ok hchecked).2, load_entries_proper hothers⟩

/-- The comparison of neighbours. -/
theorem checkNeighbours_ok : ∀ {members : List SourceProfile}, checkNeighbours members = .ok () →
    (members.map range).IsChain Range.Ahead
  | [], _ => .nil
  | [p], _ => .singleton _
  | earlier :: later :: rest, h => by
    rw [checkNeighbours] at h
    split at h
    · next before first hbefore hfirst =>
      obtain ⟨hle, hrest⟩ := except_check_eq_ok.1 h
      have hkey : Debver.key before ≤ Debver.key first := by
        rw [← not_lt, ← Debver.compare_neg, Debver.compare_swap before first]
        omega
      refine .cons_cons ⟨_, _, ?_, ?_, hkey⟩ (checkNeighbours_ok hrest)
      · rw [range, hbefore]
        rfl
      · rw [range, hfirst]
        rfl
    · cases h

/-- Among the members of a series that is checked, at most one covers a version. -/
theorem checkSeries_ok {members : List SourceProfile} (hproper : ∀ p ∈ members, p.range.Proper)
    (h : checkSeries members = .ok ()) (v : DebianVersion) : (members.filter (·.covers v)).length ≤ 1 := by
  rw [checkSeries] at h
  split at h
  · next hone => exact (List.length_filter_le _ _).trans hone.le
  -- the order of the sort does not matter
  generalize hsorted : members.insertionSort (fun a b => ¬ Debver.compare (sortKey b) (sortKey a) < 0) = sorted at h
  have hperm : sorted.Perm members := hsorted ▸ List.perm_insertionSort _ _
  have hpairwise : (sorted.map range).Pairwise Range.Ahead := by
    refine Range.pairwise_ahead ?_ (checkNeighbours_ok h)
    rw [List.forall_mem_map]
    exact fun p hp => hproper p (hperm.mem_iff.1 hp)
  rw [← (hperm.filter _).length_eq]
  exact Range.filter_length_le_one (v := Debver.key v) hpairwise fun p _ hp => (covers_iff.1 hp).2

/-- At most one profile of a registry covers a version. -/
theorem load_profiles_ok {root : String → Option Node} {profiles : List SourceProfile}
    (h : load_profiles root = .ok profiles) (v : DebianVersion) :
    (profiles.filter (·.covers v)).length ≤ 1 := by
  rw [load_profiles] at h
  split at h
  swap
  · cases h
  obtain ⟨found, hfound, h⟩ := except_bind_eq_ok.1 h
  simp only [except_throw, except_error_bind, except_check_eq_ok] at h
  obtain ⟨-, h⟩ := h
  obtain ⟨-, -, h⟩ := except_bind_eq_ok.1 h
  obtain ⟨-, -, h⟩ := except_bind_eq_ok.1 h
  obtain ⟨u, hseries, h⟩ := except_bind_eq_ok.1 h
  cases h
  have hproper := load_entries_proper hfound
  -- only the members of the version's series can cover it
  have hmembers : profiles.filter (·.covers v) =
      (profiles.filter (·.kernel_series = v.series)).filter (·.covers v) := by
    rw [List.filter_filter]
    refine List.filter_congr fun p _ => ?_
    by_cases hp : p.covers v = true
    · simp [hp, (covers_iff.1 hp).1]
    · simp [hp]
  rw [hmembers]
  by_cases hany : ∃ p ∈ profiles, p.kernel_series = v.series
  · have hgroup := except_forM_ok hseries (v.series, profiles.filter (·.kernel_series = v.series))
      (Grouping.mem_groupBy.2 ⟨hany, rfl⟩)
    exact checkSeries_ok (fun p hp => hproper p (List.mem_filter.1 hp).1) hgroup v
  · have hnone : profiles.filter (·.kernel_series = v.series) = [] :=
      List.filter_eq_nil_iff.2 fun p hp hpv => hany ⟨p, hp, by simpa using hpv⟩
    rw [hnone]
    exact Nat.zero_le _

/-- **Source profiles never overlap**: of a registry that loads, at most one profile covers a version,
and that profile is selected. -/
theorem select_profile_unique {root : String → Option Node}
    {profiles : List SourceProfile} (h : load_profiles root = .ok profiles) :
    (∀ v, (profiles.filter (·.covers v)).length ≤ 1) ∧
    ∀ text v, Debver.parse text = .ok v →
      (∃ p ∈ profiles, p.covers v = true ∧ (∀ q ∈ profiles, q.covers v = true → q = p) ∧
        select_profile root text = .ok p) ∨
      ((∀ p ∈ profiles, p.covers v = false) ∧
        select_profile root text = .error (.SourceProfileError "no source profile covers linux" [text])) := by
  refine ⟨load_profiles_ok h, fun text v hv => ?_⟩
  have hone := load_profiles_ok h v
  have hselect : select_profile root text = match profiles.filter (·.covers v) with
      | [] => .error (.SourceProfileError "no source profile covers linux" [text])
      | [profile] => .ok profile
      | _ => .error (.SourceProfileError "linux matches several source profiles" [text]) := by
    rw [select_profile, hv]
    dsimp only
    rw [except_pure, except_ok_bind, h]
    rfl
  have hmem : ∀ q, q ∈ profiles.filter (·.covers v) ↔ q ∈ profiles ∧ q.covers v = true := fun q => List.mem_filter
  rw [hselect]
  generalize profiles.filter (·.covers v) = matching at hone hmem
  match matching, hone with
  | [], _ => exact .inr ⟨fun p hp => by simpa using fun hc => (hmem p).2 ⟨hp, hc⟩, rfl⟩
  | [p], _ =>
    obtain ⟨hp, hc⟩ := (hmem p).1 List.mem_cons_self
    exact .inl ⟨p, hp, hc, fun q hq hqc => List.mem_singleton.1 ((hmem q).2 ⟨hq, hqc⟩), rfl⟩
  | _ :: _ :: _, hone => simp at hone

/-! A series of two profiles, the second from 7.1.9-1 on. -/

namespace Sample

def build (version bound : String) : Toml :=
  .table [("schema_version", .int 1), ("kernel_series", .str "7.1"), ("reviewed_source_version", .str version),
    (bound, .str "7.1.9-1"), ("simd_allowlist", .arr [.table []]),
    ("debian", .table [("build_profiles", .arr [.str "nodoc"]),
      ("kernel_architectures", .table [("x86", .arr [.str "amd64"])])]),
    ("fpu", .table [("final_artifact", .str "vmlinux"), ("objects", .arr [.str "a.o"])])]

def validation : Toml :=
  .table [("schema_version", .int 1), ("kernel_series", .str "7.1"),
    ("kbuild_audit", .table [("minimum_records", .int 1), ("minimum_normal_c", .int 1), ("minimum_special_c", .int 1),
      ("minimum_kernel_rust", .int 1), ("lto_excluded_c_targets", .arr [.str "a.o"]),
      ("minimum_host_c", .table [("none", .int 1), ("thin", .int 1), ("full", .int 1)])]),
    ("kselftest", .table [("kind", .str "smoke"), ("targets", .arr [.str "x86"]), ("tests", .arr [.str "x86:a"]),
      ("v3_tests", .arr []), ("per_test_timeout", .int 1), ("aggregate_timeout", .int 1),
      ("required_builtin", .arr [.str "BPF"]), ("required_enabled", .arr [])])]

def directory (version bound : String) : Node :=
  .directory [(BUILD_FILE, .file (.ok (build version bound))), (VALIDATION_FILE, .file (.ok validation))]

def patches : Node := .directory [("0001-a.patch", .file (.error (.ValueError "Invalid statement")))]

def root (path : String) : Option Node :=
  if path = PROFILE_ROOT then
    some (.directory [("7.1-b", directory "7.1.9-1" "first_source_version"),
      ("7.1", directory "7.1.7-1" "before_source_version")])
  else if path = OVERLAY_ROOT then some (.directory [("7.1", patches), ("7.1-b", patches)])
  else none

end Sample

theorem select_profile_unique_sample : ∃ profiles, load_profiles Sample.root = .ok profiles ∧
    profiles.map (·.profile_id) = ["7.1", "7.1-b"] ∧ ∀ v, (profiles.filter (·.covers v)).length ≤ 1 := by
  have hids : (load_profiles Sample.root).toOption.map (fun profiles => profiles.map (·.profile_id)) =
      some ["7.1", "7.1-b"] := by decide +kernel
  cases h : load_profiles Sample.root with
  | error e =>
    rw [h] at hids
    cases hids
  | ok profiles =>
    rw [h] at hids
    exact ⟨profiles, rfl, Option.some.inj hids, (select_profile_unique h).1⟩

end SourceProfile
