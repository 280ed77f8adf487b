import DkcLinux.Naming
import DkcLinux.ReleaseGate

/-!
# The lifecycle decision and its gate (`dkc/lifecycle.py`, `dkc/release_gate.py:99-154`)

`decide` looks at what the archive offers and at the state that was read; `publication_matches` compares a
publication with the decision that allowed it.

| archive against state                    | decision      |
|------------------------------------------|---------------|
| no state                                 | `build`       |
| older, or other descriptor or policy     | `blocked`     |
| newer, or a higher revision              | `build`       |
| retention changed, or metadata gets old  | `maintenance` |
| nothing new                              | `no_op`       |
-/

open Py

/-! ## The authoritative state (`dkc/state.py:48-65`) -/

structure AuthoritativeStateFields where
  pointer : StatePointer
  manifest : PublicationManifest
  state_etag : String
  manifest_etag : String
  storage_object_count : Int := 0
  storage_size : Int := 0

/-- `AuthoritativeState.__post_init__`. -/
def AuthoritativeStateFields.post_init (s : AuthoritativeStateFields) : Except PyErr Unit := do
  if s.pointer.generation ≠ s.manifest.generation then
    throw (.ValueError "state pointer and manifest generations differ")
  if s.pointer.publication_id ≠ s.manifest.publication_id then
    throw (.ValueError "state pointer and manifest publication IDs differ")
  if s.state_etag = "" ∨ s.manifest_etag = "" then
    throw (.ValueError "authoritative state requires opaque object revisions")
  if s.storage_object_count < 0 ∨ s.storage_size < 0 then
    throw (.ValueError "authoritative storage inventory must not be negative")

structure AuthoritativeState extends AuthoritativeStateFields where
  valid : toAuthoritativeStateFields.post_init = .ok ()

namespace AuthoritativeState

theorem generation_eq (s : AuthoritativeState) : s.pointer.generation = s.manifest.generation := by
  have h := s.valid
  simp only [AuthoritativeStateFields.post_init, except_throw, except_error_bind, except_check_eq_ok] at h
  exact not_not.1 h.1

/-- The pointer names a generation and a publication. -/
theorem pointer_checked (s : AuthoritativeState) :
    0 ≤ s.pointer.generation ∧ Records.isId s.pointer.publication_id = true := by
  have h := s.pointer.valid
  simp only [StatePointerFields.post_init, except_throw, except_error_bind, except_check_eq_ok] at h
  exact ⟨by omega, by simpa using h.2.1⟩

end AuthoritativeState

namespace Lifecycle

/-! ## Time -/

/-- A `datetime`: an instant in microseconds from year 1, or a local time without an offset. -/
structure Datetime where
  micros : Int
  aware : Bool := true
deriving DecidableEq

/-- `value.astimezone(timezone.utc)`. -/
def Datetime.astimezone (value : Datetime) : Except PyErr Int :=
  if 0 ≤ value.micros ∧ value.micros < Calendar.maxSeconds * 1000000 then .ok value.micros
  else .error .OverflowError

/-- `_utc`. -/
def utc (value : Datetime) : Except PyErr String :=
  if !value.aware then .error (.ValueError "decision clock must be timezone-aware")
  else do
    let micros ← value.astimezone
    .ok (Calendar.strftime (micros / 1000000).toNat)

/-- The end of the maintenance horizon. -/
def horizonEnd (now : Datetime) (maintenance_horizon_seconds : Int) : Except PyErr Int := do
  let micros ← now.astimezone
  (Datetime.mk (micros + maintenance_horizon_seconds * 1000000) true).astimezone

section
-- `email.utils.parsedate_to_datetime`
variable (parsedate_to_datetime : String → Except PyErr Datetime)

/-- `_valid_until`. -/
def valid_until (state : AuthoritativeState) : Except PyErr Int :=
  match state.manifest.apt_metadata.fields.lookup "valid_until" with
  | some (.str raw) => do
    let parsed ← parsedate_to_datetime raw
    if !parsed.aware then .error (.ValueError "authoritative Valid-Until lacks a timezone")
    else parsed.astimezone
  | _ => .error (.ValueError "authoritative manifest has no Valid-Until timestamp")

/-! ## The decision -/

/-- The source that was observed, and what is configured. -/
structure Observation where
  source_version : String
  source_dsc_sha256 : String
  dkc_revision : Int
  build_policy_sha256 : String
  lto_mode : LtoMode
  retention_mode : RetentionMode
  retention_max_bytes : Option Int
deriving DecidableEq

namespace Observation

/-- The fields that every decision has. -/
def record (o : Observation) (now_utc : String) : DiscoveryDecisionFields where
  decision := .blocked
  source_version := o.source_version
  source_dsc_sha256 := o.source_dsc_sha256
  dkc_revision := o.dkc_revision
  build_policy_sha256 := o.build_policy_sha256
  lto_mode := o.lto_mode
  retention_mode := o.retention_mode
  retention_max_bytes := o.retention_max_bytes
  utc := now_utc

def checkRetention (o : Observation) : Except PyErr Unit :=
  match o.retention_mode with
  | .series =>
    if o.retention_max_bytes.isSome then .error (.ValueError "series retention must not carry a byte limit")
    else .ok ()
  | .series_size =>
    if !o.retention_max_bytes.any (1 ≤ ·) then
      .error (.ValueError "series-size retention requires a positive byte limit")
    else .ok ()

end Observation

def blocked (record : DiscoveryDecisionFields) (reason : String) : Except PyErr DiscoveryDecision :=
  DiscoveryDecision.make { record with decision := .blocked, reason := some reason }

def build (record : DiscoveryDecisionFields) (reason : String) : Except PyErr DiscoveryDecision :=
  DiscoveryDecision.make
    { record with decision := .build, build_required := true, publish_allowed := true, reason := some reason }

def maintenance (record : DiscoveryDecisionFields) (reason : String) : Except PyErr DiscoveryDecision :=
  DiscoveryDecision.make { record with
    decision := .maintenance, maintenance_required := true, publish_allowed := true, reason := some reason }

def no_op (record : DiscoveryDecisionFields) (reason : String) : Except PyErr DiscoveryDecision :=
  DiscoveryDecision.make { record with decision := .no_op, reason := some reason }

/-- The retention of the state is not the one configured, or its storage is over the limit. -/
def Observation.retentionDiffers (o : Observation) (state : AuthoritativeState) : Bool :=
  o.retention_mode ≠ state.manifest.retention_mode ||
    o.retention_max_bytes ≠ state.manifest.retention_max_bytes ||
    (o.retention_mode = .series_size && o.retention_max_bytes.any (state.storage_size > ·))

/-- A record of a state that was read. -/
def AuthoritativeRecord (record : DiscoveryDecisionFields) (state : AuthoritativeState) : DiscoveryDecisionFields :=
  { record with
    authoritative_state_read := true
    state_generation := some state.pointer.generation
    state_publication_id := some state.pointer.publication_id }

/-- The part of `decide` that has a state to compare with. -/
def decide_published (o : Observation) (source : DebianVersion) (record : DiscoveryDecisionFields) (now : Datetime)
    (state : AuthoritativeState) (maintenance_horizon_seconds : Int) : Except PyErr DiscoveryDecision := do
  let published ← Debver.parse state.manifest.source_version
  let ordering := Debver.compare source published
  let record := AuthoritativeRecord record state
  if ordering < 0 then blocked record "the authenticated source archive is older than the publication"
  else if ordering = 0 ∧ o.source_dsc_sha256 ≠ state.manifest.source_dsc_sha256 then
    blocked record "the published source version now has a different descriptor hash"
  else if ordering > 0 then build record "a newer authenticated source is available"
  else if o.dkc_revision < state.manifest.dkc_revision then
    blocked record "the configured downstream revision is older than the publication"
  else if o.dkc_revision > state.manifest.dkc_revision then
    build record "a higher downstream revision is configured"
  else if o.build_policy_sha256 ≠ state.manifest.build_policy_sha256 ∨ o.lto_mode ≠ state.manifest.lto_mode then
    blocked record "build policy changed without a downstream revision increase"
  else if o.retentionDiffers state then
    maintenance record "repository retention policy requires metadata convergence"
  else do
    let horizon ← horizonEnd now maintenance_horizon_seconds
    let valid_until ← valid_until parsedate_to_datetime state
    if valid_until ≤ horizon then maintenance record "repository metadata is inside the refresh horizon"
    else no_op record "the newest source is already published and metadata is fresh"

/-- One typed, fail-closed lifecycle decision. -/
def decide (o : Observation) (now : Datetime) (state : Option AuthoritativeState)
    (state_read_succeeded bootstrap_allowed : Bool) (maintenance_horizon_seconds : Int) :
    Except PyErr DiscoveryDecision := do
  let now_utc ← utc now
  let source ← Debver.parse o.source_version
  if maintenance_horizon_seconds < 3600 then .error (.ValueError "maintenance horizon must be at least one hour")
  else
    o.checkRetention
    let record := o.record now_utc
    if !state_read_succeeded then blocked record "authoritative state could not be read"
    else
      match state with
      | none =>
        let record := { record with authoritative_state_read := true }
        if !bootstrap_allowed then
          blocked record "authoritative state is absent and bootstrap is not allowed"
        else build record "bootstrap an empty repository"
      | some state => decide_published parsedate_to_datetime o source record now state maintenance_horizon_seconds

end

/-! ## The gate -/

section
-- the format checker, `hashlib.sha256(...).hexdigest()` and the schema check of a manifest
variable (formats : String → String → Bool) (hexdigest : ByteArray → String)
  (validate : String → Json → Except PyErr Unit)

/-- `str(manifest_value.get("build_id", ""))`. -/
def buildIdText : Option Json → String
  | none => ""
  | some (.str s) => s
  | some v => String.ofList v.render

/-- `manifest_value.get(field) != value` for a text. -/
def strDiffers (fields : List (String × Json)) (field value : String) : Bool :=
  match fields.lookup field with
  | some (.str s) => s ≠ value
  | _ => true

/-- The same for an integer; `True` is 1 and `False` is 0. -/
def intDiffers (fields : List (String × Json)) (field : String) (value : Int) : Bool :=
  match fields.lookup field with
  | some (.int n) => n ≠ value
  | some (.bool b) => (if b then 1 else 0) ≠ value
  | _ => true

/-- The same for a value that may be `None`. -/
def optionDiffers (fields : List (String × Json)) (field : String) : Option Int → Bool
  | none =>
    match fields.lookup field with
    | none | some .null => false
    | _ => true
  | some value => intDiffers fields field value

/-- `manifest_value.get("previous_publication") != expected_previous`. -/
def previousDiffers (fields : List (String × Json)) (decision : DiscoveryDecisionFields) : Bool :=
  match decision.state_generation, fields.lookup "previous_publication" with
  | none, none | none, some .null => false
  | some generation, some (.obj previous) =>
    previous.length ≠ 2 || intDiffers previous "generation" generation ||
      strDiffers previous "publication_id" (decision.state_publication_id.getD "")
  | _, _ => true

/-- The generation that follows the one of the decision. -/
def expected_generation (decision : DiscoveryDecisionFields) : Int :=
  match decision.state_generation with
  | none => 0
  | some generation => generation + 1

/-- The fields of a manifest that differ from the decision. -/
def mismatched (fields : List (String × Json)) (decision : DiscoveryDecisionFields) (dkc_version : String) :
    List String :=
  [("build_policy_sha256", strDiffers fields "build_policy_sha256" decision.build_policy_sha256),
    ("dkc_revision", intDiffers fields "dkc_revision" decision.dkc_revision),
    ("dkc_version", strDiffers fields "dkc_version" dkc_version),
    ("generation", intDiffers fields "generation" (expected_generation decision)),
    ("lto_mode", strDiffers fields "lto_mode" decision.lto_mode.toString),
    ("retention_max_bytes", optionDiffers fields "retention_max_bytes" decision.retention_max_bytes),
    ("retention_mode", strDiffers fields "retention_mode" decision.retention_mode.toString),
    ("source_dsc_sha256", strDiffers fields "source_dsc_sha256" decision.source_dsc_sha256),
    ("source_version", strDiffers fields "source_version" decision.source_version),
    ("previous_publication", previousDiffers fields decision)].filterMap
      fun check => if check.2 then some check.1 else none

/-- The comparison of a manifest with the decision that allows it. `verified` is what
`load_verified_repository` raises, and `manifest` what `json.loads` makes of the manifest. -/
def publication_matches (decision : DiscoveryDecisionFields) (verified : Except PyErr Unit)
    (manifest : Except PyErr Json) : Except PyErr Unit :=
  if decision.decision ∉ [.build, .maintenance] ∨ decision.publish_allowed = false then
    .error (.ValueError "lifecycle decision does not authorize a publication")
  else do
    verified
    match manifest with
    | .error _ => .error (.ValueError "verified repository manifest is not valid JSON")
    | .ok (.obj fields) => do
      validate "publication-manifest" (.obj fields)
      let identity ← Identity.create decision.source_version decision.dkc_revision
        (buildIdText (fields.lookup "build_id"))
      let dkc_version ← identity.package_version
      let different := mismatched fields decision dkc_version
      if different ≠ [] then
        .error (.ValueError ("verified repository differs from its lifecycle decision: " ++ ", ".intercalate different))
      else .ok ()
    | .ok _ => .error (.ValueError "verified repository manifest is not an object")

/-- `require_publication_matches_decision`. -/
def require_publication_matches_decision (decision_root : Root) (verified : Except PyErr Unit)
    (manifest : Except PyErr Json) : Except PyErr Unit := do
  let decision ← ReleaseGate.load_discovery_decision formats hexdigest decision_root
  publication_matches validate decision.toDiscoveryDecisionFields verified manifest

end

end Lifecycle
