import DkcLinux.Text.JsonSchema
import DkcLinux.StateRecords

/-!
# The discovery decision (`dkc/records.py:123-213`, `schemas/discovery-decision.schema.json`)

`DiscoveryDecision` with its checks, its dict, its schema, and its constructor applied to keyword
arguments. The dict drops a byte limit that is `None`, and the constructor has a default for it.
-/

open Py Records Json Kwargs

inductive Decision where
  | no_op
  | build
  | maintenance
  | qualification
  | blocked
deriving Repr, DecidableEq

namespace Decision

def toString : Decision → String
  | no_op => "no_op"
  | build => "build"
  | maintenance => "maintenance"
  | qualification => "qualification"
  | blocked => "blocked"

/-- The lookup of `expected_flags[self.decision]`. -/
def ofString (s : String) : Except PyErr Decision :=
  if s = "no_op" then .ok no_op
  else if s = "build" then .ok build
  else if s = "maintenance" then .ok maintenance
  else if s = "qualification" then .ok qualification
  else if s = "blocked" then .ok blocked
  else .error (.KeyError s)

/-- Whether to build, to maintain, to publish. -/
def expected_flags : Decision → Bool × Bool × Bool
  | no_op => (false, false, false)
  | build => (true, false, true)
  | maintenance => (false, true, true)
  | qualification => (true, false, false)
  | blocked => (false, false, false)

@[simp] theorem ofString_toString (d : Decision) : ofString d.toString = .ok d := by
  cases d <;> rfl

end Decision

/-- The default of `retention_max_bytes`. -/
def RETENTION_MAX_BYTES : Int := 9500000000

structure DiscoveryDecisionFields where
  decision : Decision
  source_version : String
  source_dsc_sha256 : String
  dkc_revision : Int
  build_policy_sha256 : String
  lto_mode : LtoMode
  utc : String
  retention_mode : RetentionMode := .series_size
  retention_max_bytes : Option Int := some RETENTION_MAX_BYTES
  build_required : Bool := false
  maintenance_required : Bool := false
  publish_allowed : Bool := false
  authoritative_state_read : Bool := false
  state_generation : Option Int := none
  state_publication_id : Option String := none
  reason : Option String := none
  schema : String := "dkc.discovery-decision.v1"
deriving Repr, DecidableEq

namespace DiscoveryDecisionFields

def checkRetention (d : DiscoveryDecisionFields) : Except PyErr Unit :=
  match d.retention_mode with
  | .series =>
    if d.retention_max_bytes.isSome then
      .error (.ValueError "series retention must not carry a byte limit")
    else .ok ()
  | .series_size =>
    if !d.retention_max_bytes.any (1 ≤ ·) then
      .error (.ValueError "series-size retention requires a positive byte limit")
    else .ok ()

def checkState (d : DiscoveryDecisionFields) : Except PyErr Unit := do
  if d.state_generation.any (· < 0) then
    throw (.ValueError "state_generation must not be negative")
  if d.state_publication_id.any (!isId ·) then
    throw (.ValueError "state_publication_id is unsafe")
  if d.state_generation.isNone ≠ d.state_publication_id.isNone then
    throw (.ValueError "state generation and publication identity must travel together")

def checkFlags (d : DiscoveryDecisionFields) : Except PyErr Unit := do
  if d.publish_allowed && !d.authoritative_state_read then
    throw (.ValueError ("publish_allowed requires an authoritative state read; " ++
      "a public hint cannot authorize publication"))
  if d.decision = .blocked && (d.build_required || d.publish_allowed) then
    throw (.ValueError "a blocked decision cannot also require work or allow publishing")
  if (d.build_required, d.maintenance_required, d.publish_allowed) ≠ d.decision.expected_flags then
    throw (.ValueError (d.decision.toString ++ " decision has a contradictory work/permission state"))
  if d.decision ∈ [.no_op, .build, .maintenance] && !d.authoritative_state_read then
    throw (.ValueError (d.decision.toString ++ " decision requires an authoritative state read"))
  if d.decision ∈ [.no_op, .maintenance] && d.state_generation.isNone then
    throw (.ValueError (d.decision.toString ++ " decision requires a published state generation"))
  if d.decision = .qualification && d.state_generation.isSome then
    throw (.ValueError "qualification cannot carry authoritative state")

/-- `DiscoveryDecision.__post_init__`. -/
def post_init (d : DiscoveryDecisionFields) : Except PyErr Unit := do
  Records.sha256 d.source_dsc_sha256 "source_dsc_sha256"
  Records.sha256 d.build_policy_sha256 "build_policy_sha256"
  if d.dkc_revision < 1 then
    throw (.ValueError "dkc_revision must be positive")
  d.checkRetention
  let _ ← Records.utc d.utc "utc"
  d.checkState
  d.checkFlags

end DiscoveryDecisionFields

structure DiscoveryDecision extends DiscoveryDecisionFields where
  valid : toDiscoveryDecisionFields.post_init = .ok ()
deriving DecidableEq

namespace DiscoveryDecision

def make (d : DiscoveryDecisionFields) : Except PyErr DiscoveryDecision :=
  match h : d.post_init with
  | .ok () => .ok ⟨d, h⟩
  | .error e => .error e

def asdict (d : DiscoveryDecisionFields) : List (String × Json) :=
  [("decision", .str d.decision.toString), ("source_version", .str d.source_version),
    ("source_dsc_sha256", .str d.source_dsc_sha256), ("dkc_revision", .int d.dkc_revision),
    ("build_policy_sha256", .str d.build_policy_sha256), ("lto_mode", .str d.lto_mode.toString),
    ("utc", .str d.utc), ("retention_mode", .str d.retention_mode.toString),
    ("retention_max_bytes", ofOption .int d.retention_max_bytes), ("build_required", .bool d.build_required),
    ("maintenance_required", .bool d.maintenance_required), ("publish_allowed", .bool d.publish_allowed),
    ("authoritative_state_read", .bool d.authoritative_state_read),
    ("state_generation", ofOption .int d.state_generation),
    ("state_publication_id", ofOption .str d.state_publication_id), ("reason", ofOption .str d.reason),
    ("schema", .str d.schema)]

def to_dict (d : DiscoveryDecision) : Json := (Json.obj (asdict d.toDiscoveryDecisionFields)).dropNone

/-- `DiscoveryDecision(**value)`. -/
def ofKwargs (fields : List (String × Json)) : Except PyErr DiscoveryDecision := do
  check ["decision", "source_version", "source_dsc_sha256", "dkc_revision", "build_policy_sha256", "lto_mode",
    "utc", "retention_mode", "retention_max_bytes", "build_required", "maintenance_required", "publish_allowed",
    "authoritative_state_read", "state_generation", "state_publication_id", "reason", "schema"] fields
  make {
    decision := ← Decision.ofString (← required fields "decision" str)
    source_version := ← required fields "source_version" str
    source_dsc_sha256 := ← required fields "source_dsc_sha256" str
    dkc_revision := ← required fields "dkc_revision" int
    build_policy_sha256 := ← required fields "build_policy_sha256" str
    lto_mode := ← LtoMode.ofString (← required fields "lto_mode" str)
    utc := ← required fields "utc" str
    retention_mode := ← RetentionMode.ofString (← defaulted fields "retention_mode" "series-size" str)
    retention_max_bytes := ← defaulted fields "retention_max_bytes" (some RETENTION_MAX_BYTES) (orNone int)
    build_required := ← defaulted fields "build_required" false bool
    maintenance_required := ← defaulted fields "maintenance_required" false bool
    publish_allowed := ← defaulted fields "publish_allowed" false bool
    authoritative_state_read := ← defaulted fields "authoritative_state_read" false bool
    state_generation := ← defaulted fields "state_generation" none (orNone int)
    state_publication_id := ← defaulted fields "state_publication_id" none (orNone str)
    reason := ← defaulted fields "reason" none (orNone str)
    schema := ← defaulted fields "schema" "dkc.discovery-decision.v1" str }

/-! ## Schema -/

/-- `^[0-9a-f]{64}$`. -/
def digestPattern : List Char → Bool := fullmatchClass isLowerHex 64 (some 64)

/-- `^[0-9a-z-]{8,64}$`. -/
def idPattern : List Char → Bool :=
  fullmatchClass (fun c => isAsciiDigit c || isAsciiLower c || c == '-') 8 (some 64)

section
open Schema

/-- `if` the field is the constant. -/
def isField (name value : String) : Schema := .properties [(name, .const (.str value))]

def flags (expected : List (String × Bool)) : Schema :=
  .properties (expected.map fun x => (x.1, .const (.bool x.2)))

/-- `then` of the schema without an `else`. -/
def whenDecision (decision : String) (yes : Schema) : Schema := .cond (isField "decision" decision) yes (.all [])

/-- `discovery-decision.schema.json`. -/
def jsonSchema : Schema := .all [
  .type [.object],
  .required ["schema", "decision", "source_version", "source_dsc_sha256", "dkc_revision", "build_policy_sha256",
    "lto_mode", "retention_mode", "build_required", "maintenance_required", "publish_allowed",
    "authoritative_state_read", "utc"],
  .closed ["schema", "decision", "reason", "source_version", "source_dsc_sha256", "dkc_revision",
    "build_policy_sha256", "lto_mode", "retention_mode", "retention_max_bytes", "state_generation",
    "state_publication_id", "build_required", "maintenance_required", "publish_allowed",
    "authoritative_state_read", "utc"],
  .properties [
    ("schema", .const (.str "dkc.discovery-decision.v1")),
    ("decision", .enum [.str "no_op", .str "build", .str "maintenance", .str "qualification", .str "blocked"]),
    ("reason", .all [.type [.string], .maxLength 500]),
    ("source_version", .all [.type [.string], .minLength 1, .maxLength 200]),
    ("source_dsc_sha256", .all [.type [.string], .pattern digestPattern]),
    ("dkc_revision", .all [.type [.integer], .minimum 1]),
    ("build_policy_sha256", .all [.type [.string], .pattern digestPattern]),
    ("lto_mode", .enum [.str "none", .str "thin", .str "full"]),
    ("retention_mode", .enum [.str "series", .str "series-size"]),
    ("retention_max_bytes", .all [.type [.integer], .minimum 1]),
    ("state_generation", .all [.type [.integer, .null], .minimum 0]),
    ("state_publication_id", .all [.type [.string], .pattern idPattern]),
    ("build_required", .type [.boolean]),
    ("maintenance_required", .type [.boolean]),
    ("publish_allowed", .type [.boolean]),
    ("authoritative_state_read", .type [.boolean]),
    ("utc", .all [.type [.string], .format "date-time"])],
  .dependentRequired [("state_generation", ["state_publication_id"]),
    ("state_publication_id", ["state_generation"])],
  .cond (isField "retention_mode" "series-size") (.required ["retention_max_bytes"])
    (.not (.required ["retention_max_bytes"])),
  whenDecision "no_op" (.all [.required ["state_generation", "state_publication_id"],
    flags [("build_required", false), ("maintenance_required", false), ("publish_allowed", false),
      ("authoritative_state_read", true)]]),
  whenDecision "build" (flags [("build_required", true), ("maintenance_required", false),
    ("publish_allowed", true), ("authoritative_state_read", true)]),
  whenDecision "maintenance" (.all [.required ["state_generation", "state_publication_id"],
    flags [("build_required", false), ("maintenance_required", true), ("publish_allowed", true),
      ("authoritative_state_read", true)]]),
  whenDecision "qualification" (.all [
    .not (.any [.required ["state_generation"], .required ["state_publication_id"]]),
    flags [("build_required", true), ("maintenance_required", false), ("publish_allowed", false),
      ("authoritative_state_read", false)]]),
  whenDecision "blocked" (flags [("build_required", false), ("maintenance_required", false),
    ("publish_allowed", false)])]

end

/-- `validate("discovery-decision", value)`; `formats` is the format checker. -/
def validate (formats : String → String → Bool) (value : Json) : Except PyErr Unit :=
  if jsonSchema.accepts formats value then .ok () else .error .ValidationError

/-! ## Reading back -/

theorem make_fields (d : DiscoveryDecision) : make d.toDiscoveryDecisionFields = .ok d := by
  unfold make
  split
  · rfl
  · next h => rw [d.valid] at h; cases h

theorem make_ok {f : DiscoveryDecisionFields} {d : DiscoveryDecision} (h : make f = .ok d) :
    d.toDiscoveryDecisionFields = f := by
  unfold make at h
  split at h
  · cases h; rfl
  · cases h

variable (d : DiscoveryDecision)

theorem checks : Records.sha256 d.source_dsc_sha256 "source_dsc_sha256" = .ok () ∧
    Records.sha256 d.build_policy_sha256 "build_policy_sha256" = .ok () ∧ ¬ d.dkc_revision < 1 ∧
    d.checkRetention = .ok () ∧ d.checkState = .ok () ∧ d.checkFlags = .ok () := by
  have h := d.valid
  simp only [DiscoveryDecisionFields.post_init, except_throw, except_error_bind] at h
  obtain ⟨_, hdsc, h⟩ := except_bind_eq_ok.1 h
  obtain ⟨_, hpolicy, h⟩ := except_bind_eq_ok.1 h
  obtain ⟨hrevision, h⟩ := except_check_eq_ok.1 h
  obtain ⟨_, hretention, h⟩ := except_bind_eq_ok.1 h
  obtain ⟨_, -, h⟩ := except_bind_eq_ok.1 h
  obtain ⟨_, hstate, h⟩ := except_bind_eq_ok.1 h
  exact ⟨hdsc, hpolicy, hrevision, hretention, hstate, h⟩

/-- The digests and numbers of a decision. -/
theorem checked : isSha256 d.source_dsc_sha256 = true ∧ isSha256 d.build_policy_sha256 = true ∧
    1 ≤ d.dkc_revision ∧ ∀ n, d.state_generation = some n → 0 ≤ n := by
  obtain ⟨hdsc, hpolicy, hrevision, -, hstate, -⟩ := d.checks
  refine ⟨sha256_ok hdsc, sha256_ok hpolicy, by omega, fun n hn => ?_⟩
  simp only [DiscoveryDecisionFields.checkState, except_throw, except_error_bind, except_check_eq_ok] at hstate
  have hnot := hstate.1
  rw [hn] at hnot
  simpa using hnot

/-- A byte limit is there iff the mode wants one. -/
theorem limit_iff : (∃ n, d.retention_max_bytes = some n) ↔ d.retention_mode = .series_size := by
  have h := d.checks.2.2.2.1
  unfold DiscoveryDecisionFields.checkRetention at h
  cases hmode : d.retention_mode with
  | series => simpa [hmode, Option.isSome_iff_exists] using h
  | series_size =>
    rw [hmode] at h
    cases hmax : d.retention_max_bytes with
    | none => simp [hmax] at h
    | some n => simp

/-- The fields that are read back: a limit that was dropped gets the default. -/
def reread (d : DiscoveryDecisionFields) : DiscoveryDecisionFields :=
  { d with retention_max_bytes := some (d.retention_max_bytes.getD RETENTION_MAX_BYTES) }

theorem nodup_asdict (d : DiscoveryDecisionFields) : ((asdict d).map (·.1)).Nodup := by simp [asdict]

/-- **What the reader makes of a decision.** -/
theorem ofKwargs_wire (d : DiscoveryDecisionFields) : ofKwargs (wireFields (asdict d)) = make (reread d) := by
  have hn := nodup_asdict d
  have hmax : defaulted (wireFields (asdict d)) "retention_max_bytes" (some RETENTION_MAX_BYTES) (orNone int) =
      .ok (some (d.retention_max_bytes.getD RETENTION_MAX_BYTES)) := by
    cases h : d.retention_max_bytes with
    | none =>
      apply defaulted_wire_null hn
      simp [asdict, List.lookup_cons, h, ofOption]
    | some n =>
      rw [@defaulted_wire _ _ hn "retention_max_bytes" (.int n) _ _ (by simp [asdict, List.lookup_cons, h, ofOption]) rfl]
      rfl
  have hgeneration : defaulted (wireFields (asdict d)) "state_generation" none (orNone int) =
      .ok d.state_generation := defaulted_int hn rfl
  have hpublication : defaulted (wireFields (asdict d)) "state_publication_id" none (orNone str) =
      .ok d.state_publication_id := defaulted_str hn rfl
  have hreason : defaulted (wireFields (asdict d)) "reason" none (orNone str) = .ok d.reason :=
    defaulted_str hn rfl
  rw [ofKwargs, check_wire (by simp [asdict]), except_ok_bind, hmax, hgeneration, hpublication, hreason]
  simp only [required, defaulted, lookup_wire hn]
  simp [asdict, List.lookup_cons]
  rfl

theorem to_dict_distinct (d : DiscoveryDecision) : d.to_dict.distinct = true := by
  have hmax := @distinct_ofOption _ Json.int (fun n => rfl) d.retention_max_bytes
  have hgeneration := @distinct_ofOption _ Json.int (fun n => rfl) d.state_generation
  have hpublication := @distinct_ofOption _ Json.str (fun s => rfl) d.state_publication_id
  have hreason := @distinct_ofOption _ Json.str (fun s => rfl) d.reason
  rw [to_dict]
  apply distinct_dropNone
  rw [distinct, Bool.and_eq_true, decide_eq_true_eq]
  refine ⟨nodup_asdict _, ?_⟩
  rw [distinctFields_iff]
  simp [asdict, hmax, hgeneration, hpublication, hreason, show ∀ s, (Json.str s).distinct = true from fun _ => rfl,
    show ∀ n, (Json.int n).distinct = true from fun _ => rfl,
    show ∀ b, (Json.bool b).distinct = true from fun _ => rfl]

theorem to_dict_clean (d : DiscoveryDecision) : d.to_dict.Clean := by
  have hmax := @rejectFloats_ofOption _ Json.int (fun n => rfl) d.retention_max_bytes
  have hgeneration := @rejectFloats_ofOption _ Json.int (fun n => rfl) d.state_generation
  have hpublication := @rejectFloats_ofOption _ Json.str (fun s => rfl) d.state_publication_id
  have hreason := @rejectFloats_ofOption _ Json.str (fun s => rfl) d.reason
  rw [clean_iff]
  refine ⟨d.to_dict_distinct, ?_⟩
  rw [to_dict]
  apply rejectFloats_dropNone
  rw [rejectFloats, rejectFloatsFields_iff]
  simp [asdict, hmax, hgeneration, hpublication, hreason,
    show ∀ s, (Json.str s).rejectFloats = false from fun _ => rfl,
    show ∀ n, (Json.int n).rejectFloats = false from fun _ => rfl,
    show ∀ b, (Json.bool b).rejectFloats = false from fun _ => rfl]

end DiscoveryDecision
