import DkcLinux.Storage

/-!
# The production lease (`dkc/lease.py`)

`LeaseManager` over the operations of the world. Every method reads the clock, reads the lease
object and makes at most one conditional write:

| method                | condition of the write        |
|-----------------------|-------------------------------|
| `acquire`             | absent, or the ETag just read |
| `renew`, `release`    | the handle's ETag             |
| `assert_batch_window` | (no write)                    |
-/

open Py Records

def LEASE_KEY : String := "state/locks/production.json"

def LEASE_METADATA : ObjectMetadata where
  content_type := "application/json"
  cache_control := "private, no-store"
  valid := by decide

structure LeaseHandle where
  owner : LeaseOwner
  record : LeaseRecord
  etag : Nat
  took_over_stale_holder : Bool := false
deriving DecidableEq

/-- `LeaseManager.__init__` refuses a short TTL; the grace is a `Nat`. -/
structure LeaseManager where
  ttl_seconds : Nat
  takeover_grace_seconds : Nat
  ttl_valid : 60 ≤ ttl_seconds

namespace LeaseManager

variable {σ : Type} (m : LeaseManager)

/-- `_parse_utc`. -/
def parse_utc (value : String) : Except PyErr Nat :=
  match Calendar.strptime value with
  | some t => .ok t
  | none => .error (.ValueError "time data does not match the format" [value])

/-- `_now`: the clock in whole seconds. -/
def now : Cmd σ Nat := do
  let micros ← Cmd.call .clock
  if micros / 1000000 < Calendar.maxSeconds then return micros / 1000000
  throw .OverflowError

/-- `_held_record`. -/
def held_record (owner : LeaseOwner) (now : Nat) (acquired : Option Nat := none) :
    Except PyErr LeaseRecord :=
  if now + m.ttl_seconds < Calendar.maxSeconds then
    LeaseRecord.make {
      status := .held
      updated_utc := Calendar.strftime now
      owner := some owner
      acquired_utc := some (Calendar.strftime (acquired.getD now))
      expires_utc := some (Calendar.strftime (now + m.ttl_seconds)) }
  else .error .OverflowError

/-- The record `release` writes. -/
def free_record (now : Nat) : Except PyErr LeaseRecord :=
  LeaseRecord.make {
    status := .free
    updated_utc := Calendar.strftime now
    released_utc := some (Calendar.strftime now) }

/-- `_require_exact_object`. -/
def require_exact_object (value : StoredObject) : Except PyErr LeaseRecord :=
  if value.value.metadata ≠ LEASE_METADATA then
    .error (.LeaseLost "authoritative lease metadata is invalid")
  else parse_lease value.value.body

/-- The conditional write of a record. -/
def write (record : LeaseRecord) (cond : Conc.Cond) : Cmd σ StoredObject := do
  let body ← Serialize.canonical_bytes record.to_dict
  Cmd.put LEASE_KEY ⟨body, LEASE_METADATA⟩ cond

/-- The end of `acquire`: a new held record, written under a condition. -/
def take (owner : LeaseOwner) (now : Nat) (cond : Conc.Cond) (takeover : Bool) : Cmd σ LeaseHandle := do
  let record ← m.held_record owner now
  let stored ← write record cond
  return ⟨owner, record, stored.etag, takeover⟩

/-- The caller's own unexpired lease. -/
def reacquire (owner : LeaseOwner) (now : Nat) (current : StoredObject) (observed : LeaseRecord) :
    Except PyErr LeaseHandle := do
  match observed.expires_utc with
  | none => throw (.LeaseLost "the caller's previously held lease has expired")
  | some expires_utc =>
    if now ≥ (← parse_utc expires_utc) then
      throw (.LeaseLost "the caller's previously held lease has expired")
    return ⟨owner, observed, current.etag, false⟩

/-- Raises unless the holder's run is terminal and its lease expired long enough ago. -/
def require_stale (now : Nat) (observed : LeaseRecord) : Cmd σ Unit := do
  match observed.owner with
  | none => throw .AssertionError
  | some old =>
    let old_run_terminal ← Cmd.terminal_proof old
    let allowed ← observed.stale_takeover_allowed (Calendar.strftime now) m.takeover_grace_seconds
      old_run_terminal
    if !allowed then
      throw (.LeaseBusy "production lease is held and cannot be safely taken over")

def acquire (owner : LeaseOwner) : Cmd σ LeaseHandle := do
  let now ← LeaseManager.now
  match ← Cmd.get LEASE_KEY with
  | none => m.take owner now .ifNoneMatch false
  | some current =>
    let observed ← require_exact_object current
    if observed.status = .held ∧ observed.owner = some owner then
      reacquire owner now current observed
    else if observed.status = .held then
      m.require_stale now observed
      m.take owner now (.ifMatch current.etag) true
    else m.take owner now (.ifMatch current.etag) false

/-- The read that `assert_batch_window`, `renew` and `release` start with: the record, if the
handle is still the stored revision. -/
def observe (handle : LeaseHandle) (before : String) : Cmd σ LeaseRecord := do
  match ← Cmd.get LEASE_KEY with
  | none => throw (.LeaseLost ("lease revision changed before " ++ before))
  | some current =>
    if current.etag ≠ handle.etag then
      throw (.LeaseLost ("lease revision changed before " ++ before))
    require_exact_object current

def assert_batch_window (handle : LeaseHandle) (batch_timeout_seconds safety_seconds : Int) :
    Cmd σ Unit := do
  if batch_timeout_seconds < 1 ∨ safety_seconds < 0 then
    throw (.ValueError "lease batch bounds are invalid")
  let record ← observe handle "a mutation batch"
  if record.status ≠ .held ∨ record.owner ≠ some handle.owner then
    throw (.LeaseLost "lease owner changed before a mutation batch")
  match record.expires_utc with
  | none => throw .AssertionError
  | some expires_utc =>
    let expires ← parse_utc expires_utc
    let now ← LeaseManager.now
    if (expires : Int) - now ≤ batch_timeout_seconds + safety_seconds then
      throw (.LeaseLost "lease has insufficient lifetime for the mutation batch")

def renew (handle : LeaseHandle) : Cmd σ LeaseHandle := do
  let now ← LeaseManager.now
  let observed ← observe handle "renewal"
  if observed.status ≠ .held ∨ observed.owner ≠ some handle.owner then
    throw (.LeaseLost "lease owner changed before renewal")
  match observed.expires_utc with
  | none => throw .AssertionError
  | some expires_utc =>
    if now ≥ (← parse_utc expires_utc) then
      throw (.LeaseLost "an expired lease cannot be renewed")
    match observed.acquired_utc with
    | none => throw .AssertionError
    | some acquired_utc =>
      let renewed ← m.held_record handle.owner now (some (← parse_utc acquired_utc))
      let written ← write renewed (.ifMatch handle.etag)
      return ⟨handle.owner, renewed, written.etag, handle.took_over_stale_holder⟩

def release (handle : LeaseHandle) : Cmd σ LeaseHandle := do
  let now ← LeaseManager.now
  let observed ← observe handle "release"
  if observed.status ≠ .held ∨ observed.owner ≠ some handle.owner then
    throw (.LeaseLost "only the current exact holder may release the lease")
  let released ← free_record now
  let written ← write released (.ifMatch handle.etag)
  return ⟨handle.owner, released, written.etag, false⟩

end LeaseManager
