import DkcLinux.JsonRecord
import Mathlib.Data.List.Lex

/-!
# Publication records (`dkc/records.py:220-390`)

`Artifact`, `GcQueueEntry`, `StatePointer` and `PublicationManifest` with their checks. The lists
of a manifest keep what `PublicationManifest.__post_init__` establishes: artifact keys are
distinct, live keys are artifact keys, and no key is both live and queued (`live_not_queued`).
-/

open Py Records

/-! ## Artifact -/

inductive CacheClass where
  | immutable
  | mutable
deriving Repr, DecidableEq

def CacheClass.toString : CacheClass → String
  | immutable => "immutable"
  | mutable => "mutable"

structure ArtifactFields where
  key : String
  sha256 : String
  size : Int
  media_type : String
  cache_class : CacheClass
  provenance_ref : Option String := none
deriving Repr, DecidableEq

/-- `Artifact.__post_init__`. -/
def ArtifactFields.post_init (a : ArtifactFields) : Except PyErr Unit := do
  object_key a.key
  Records.sha256 a.sha256 "artifact sha256"
  if a.size < 0 then
    throw (.ValueError "artifact size must not be negative")
  if a.media_type = "" || hasControl a.media_type then
    throw (.ValueError "artifact media_type is empty or unsafe")
  match a.provenance_ref with
  | some provenance_ref => object_key provenance_ref "provenance reference"
  | none => return

structure Artifact extends ArtifactFields where
  valid : toArtifactFields.post_init = .ok ()
deriving DecidableEq

def Artifact.make (a : ArtifactFields) : Except PyErr Artifact :=
  match h : a.post_init with
  | .ok () => .ok ⟨a, h⟩
  | .error e => .error e

theorem Artifact.make_ok {f : ArtifactFields} {a : Artifact} (h : Artifact.make f = .ok a) : a.toArtifactFields = f := by
  unfold Artifact.make at h
  split at h
  · cases h; rfl
  · cases h

/-! ## Tombstones -/

structure GcQueueEntryFields where
  key : String
  sha256 : String
  size : Int
  reason : String
  tombstoned : Bool := true
deriving Repr, DecidableEq

/-- `GcQueueEntry.__post_init__`. -/
def GcQueueEntryFields.post_init (e : GcQueueEntryFields) : Except PyErr Unit := do
  gc_key e.key
  Records.sha256 e.sha256 "GC object sha256"
  if e.size < 0 then
    throw (.ValueError "GC object size must not be negative")
  if e.reason = "" || hasControl e.reason then
    throw (.ValueError "a GC queue entry needs a safe non-empty reason")
  if !e.tombstoned then
    throw (.ValueError ("a queue entry is a permanent tombstone; a key that could become " ++
      "live again must never enter the queue"))

structure GcQueueEntry extends GcQueueEntryFields where
  valid : toGcQueueEntryFields.post_init = .ok ()
deriving DecidableEq

namespace GcQueueEntry

def make (e : GcQueueEntryFields) : Except PyErr GcQueueEntry :=
  match h : e.post_init with
  | .ok () => .ok ⟨e, h⟩
  | .error err => .error err

theorem make_ok {f : GcQueueEntryFields} {e : GcQueueEntry} (h : make f = .ok e) :
    e.toGcQueueEntryFields = f := by
  unfold make at h
  split at h
  · cases h; rfl
  · cases h

/-- Only an immutable key can be queued. -/
theorem isGcKey (e : GcQueueEntry) : Records.isGcKey e.key = true := by
  have h := e.valid
  simp only [GcQueueEntryFields.post_init] at h
  obtain ⟨u, hkey, -⟩ := except_bind_eq_ok.1 h
  obtain ⟨u', -, hgc⟩ := except_bind_eq_ok.1 hkey
  by_contra hnot
  rw [if_neg hnot] at hgc
  cases hgc

end GcQueueEntry

/-! ## State pointer -/

structure StatePointerFields where
  generation : Int
  publication_id : String
  manifest_key : String
  manifest_sha256 : String
  committed_utc : String
  previous_generation : Option Int := none
  schema : String := "dkc.state-pointer.v1"
deriving Repr, DecidableEq

/-- `StatePointer.__post_init__`. -/
def StatePointerFields.post_init (p : StatePointerFields) : Except PyErr Unit := do
  if p.generation < 0 then
    throw (.ValueError "generation must not be negative")
  if !isId p.publication_id then
    throw (.ValueError "unsafe publication id" [p.publication_id])
  Records.sha256 p.manifest_sha256 "manifest_sha256"
  let _ ← utc p.committed_utc "committed_utc"
  if p.manifest_key ≠ "state/publications/" ++ p.publication_id ++ "/manifest.json" then
    throw (.ValueError "manifest key does not match the publication id" [p.manifest_key])
  if p.generation = 0 then
    if p.previous_generation ≠ none then
      throw (.ValueError "bootstrap generation cannot name a predecessor")
  else if p.previous_generation ≠ some (p.generation - 1) then
    throw (.ValueError "generation must increase by exactly one")

structure StatePointer extends StatePointerFields where
  valid : toStatePointerFields.post_init = .ok ()
deriving DecidableEq

/-! ## Manifest -/

inductive LtoMode where
  | none
  | thin
  | full
deriving Repr, DecidableEq

inductive RetentionMode where
  | series
  | series_size
deriving Repr, DecidableEq

/-- `previous_publication`: the mapping is `{"publication_id": ..., "generation": ...}`. -/
structure PreviousPublication where
  publication_id : String
  generation : Int
deriving Repr, DecidableEq

/-- A `dict[str, Any]` of JSON values. -/
structure JsonObject where
  fields : List (String × Json)
  distinct : (Json.obj fields).distinct = true

structure PublicationManifestFields where
  generation : Int
  publication_id : String
  transaction_id : String
  source_version : String
  source_dsc_sha256 : String
  dkc_version : String
  dkc_revision : Int
  build_policy_sha256 : String
  lto_mode : LtoMode
  build_id : String
  retained_series : List (List Int)
  artifacts : List Artifact
  live_objects : List String
  apt_metadata : JsonObject
  meta_packages : Dict String
  created_utc : String
  retention_mode : RetentionMode := .series
  retention_max_bytes : Option Int := none
  generation_snapshot_prefix : Option String := none
  provenance_ref : Option String := none
  gc_queue : List GcQueueEntry := []
  previous_publication : Option PreviousPublication := none
  schema : String := "dkc.publication-manifest.v1"

namespace PublicationManifestFields

/-- The checks of the fields that stand alone. -/
def checkFields (m : PublicationManifestFields) : Except PyErr Unit := do
  if m.generation < 0 ∨ m.dkc_revision < 1 then
    throw (.ValueError "generation must be non-negative and DKC revision positive")
  if !isId m.publication_id then
    throw (.ValueError "unsafe publication id" [m.publication_id])
  if !isId m.transaction_id then
    throw (.ValueError "unsafe transaction id" [m.transaction_id])
  if m.source_version = "" ∨ m.dkc_version = "" then
    throw (.ValueError "source and DKC versions must be non-empty")
  Records.sha256 m.source_dsc_sha256 "source_dsc_sha256"
  Records.sha256 m.build_policy_sha256 "build_policy_sha256"
  if !fullmatchClass isLowerHex 12 (some 64) m.build_id.toList then
    throw (.ValueError "build_id must be 12 to 64 lowercase hexadecimal digits")
  let _ ← utc m.created_utc "created_utc"

/-- `normalized_series` sorted newest first. -/
def newestFirst (series : List (List Int)) : List (List Int) :=
  series.insertionSort fun a b => b ≤ a

def checkRetention (m : PublicationManifestFields) : Except PyErr Unit := do
  if m.retained_series.length > 3 then
    throw (.ValueError "retention keeps at most the newest three upstream series")
  if m.retained_series.any fun series => series.length ≠ 2 || series.any (· < 0) then
    throw (.ValueError "every retained series must be a non-negative [X, Y] pair")
  if ¬ m.retained_series.Nodup then
    throw (.ValueError "retained series must not contain duplicates")
  if m.retained_series ≠ newestFirst m.retained_series then
    throw (.ValueError "retained series must be ordered newest first")
  match m.retention_mode with
  | .series =>
    if m.retention_max_bytes.isSome then
      throw (.ValueError "series retention must not carry a byte limit")
  | .series_size =>
    if !m.retention_max_bytes.any (1 ≤ ·) then
      throw (.ValueError "series-size retention requires a positive byte limit")

/-- The keys of the artifacts. -/
def artifactKeys (m : PublicationManifestFields) : List String := m.artifacts.map (·.key)

def queuedKeys (m : PublicationManifestFields) : List String := m.gc_queue.map (·.key)

/-- Artifacts, live objects and tombstones. -/
def checkKeys (m : PublicationManifestFields) : Except PyErr Unit := do
  if ¬ m.artifactKeys.Nodup then
    throw (.ValueError "publication artifacts must have unique keys")
  if ¬ m.live_objects.Nodup then
    throw (.ValueError "live_objects must not contain duplicates")
  let unknown := m.live_objects.filter (· ∉ m.artifactKeys)
  if unknown ≠ [] then
    throw (.ValueError "live objects not present among artifacts: " unknown)
  if ¬ m.queuedKeys.Nodup then
    throw (.ValueError "GC queue keys must be unique permanent tombstones")
  let both := (m.queuedKeys.filter (· ∈ m.live_objects)).insertionSort (· ≤ ·)
  if both ≠ [] then
    throw (.ValueError "keys are both live and queued for deletion: " both)

def checkPrevious (m : PublicationManifestFields) : Except PyErr Unit :=
  match m.previous_publication with
  | none =>
    if m.generation ≠ 0 then
      .error (.ValueError "a non-bootstrap publication must identify its predecessor")
    else .ok ()
  | some previous =>
    if !isId previous.publication_id then
      .error (.ValueError "previous_publication has an unsafe publication ID")
    else if previous.generation ≠ m.generation - 1 then
      .error (.ValueError "previous_publication generation is not the predecessor")
    else .ok ()

/-- `PublicationManifest.__post_init__`. -/
def post_init (m : PublicationManifestFields) : Except PyErr Unit := do
  m.checkFields
  m.checkRetention
  m.checkKeys
  m.checkPrevious

end PublicationManifestFields

structure PublicationManifest extends PublicationManifestFields where
  valid : toPublicationManifestFields.post_init = .ok ()

namespace PublicationManifest

def make (m : PublicationManifestFields) : Except PyErr PublicationManifest :=
  match h : m.post_init with
  | .ok () => .ok ⟨m, h⟩
  | .error e => .error e

theorem make_ok {f : PublicationManifestFields} {m : PublicationManifest} (h : make f = .ok m) :
    m.toPublicationManifestFields = f := by
  unfold make at h
  split at h
  · cases h; rfl
  · cases h

variable (m : PublicationManifest)

theorem checks : m.checkFields = .ok () ∧ m.checkRetention = .ok () ∧ m.checkKeys = .ok () ∧
    m.checkPrevious = .ok () := by
  have h := m.valid
  simp only [PublicationManifestFields.post_init] at h
  obtain ⟨_, h1, h⟩ := except_bind_eq_ok.1 h
  obtain ⟨_, h2, h⟩ := except_bind_eq_ok.1 h
  obtain ⟨_, h3, h⟩ := except_bind_eq_ok.1 h
  exact ⟨h1, h2, h3, h⟩

/-- What the checks of the keys establish. -/
theorem keys_checked : m.artifactKeys.Nodup ∧ m.live_objects.Nodup ∧
    (∀ k ∈ m.live_objects, k ∈ m.artifactKeys) ∧ m.queuedKeys.Nodup ∧
    ∀ k ∈ m.queuedKeys, k ∉ m.live_objects := by
  have h := m.checks.2.2.1
  simp only [PublicationManifestFields.checkKeys, except_throw, except_error_bind,
    except_check_eq_ok, not_not] at h
  obtain ⟨hart, hlive, hunknown, hqueue, hboth, -⟩ := h
  refine ⟨hart, hlive, fun k hk => ?_, hqueue, fun k hk hl => ?_⟩
  · have hnil := List.filter_eq_nil_iff.1 hunknown k hk
    simpa using hnil
  · have hmem : k ∈ (m.queuedKeys.filter (· ∈ m.live_objects)).insertionSort (· ≤ ·) := by
      rw [List.mem_insertionSort, List.mem_filter]
      exact ⟨hk, by simpa using hl⟩
    rw [hboth] at hmem
    cases hmem

/-- A tombstone is never live. -/
theorem live_not_queued {k : String} (h : k ∈ m.live_objects) : k ∉ m.queuedKeys :=
  fun hq => m.keys_checked.2.2.2.2 k hq h

theorem generation_nonneg : 0 ≤ m.generation := by
  have h := m.checks.1
  simp only [PublicationManifestFields.checkFields, except_throw, except_error_bind,
    except_check_eq_ok] at h
  omega

end PublicationManifest
