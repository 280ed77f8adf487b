import DkcLinux.Records

/-!
# The production lease record (`dkc/records.py:395-461`, `dkc/lease.py:68-125`)

`LeaseOwner` and `LeaseRecord` with their checks, `to_dict`, and `parse_lease`. A record that a
manager writes reads back as itself (`parse_lease_canonical`).
-/

open Py Records

/-! ## Owner -/

structure LeaseOwnerFields where
  repository : String
  workflow_run_id : String
  run_attempt : String
  operation : String
  nonce : String
deriving Repr, DecidableEq

/-- `LeaseOwner.__post_init__`. -/
def LeaseOwnerFields.post_init (o : LeaseOwnerFields) : Except PyErr Unit := do
  if !isRepository o.repository then
    throw (.ValueError "lease owner repository must be an owner/name pair")
  if !isdecimal o.workflow_run_id || !isdecimal o.run_attempt || intOf o.workflow_run_id < 1 ||
      intOf o.run_attempt < 1 then
    throw (.ValueError "lease workflow identifiers must be decimal strings")
  -- `[a-z][a-z0-9-]{2,31}`
  if !(o.operation.toList.head?.any isAsciiLower && fullmatchClass
      (fun c => isAsciiDigit c || isAsciiLower c || c == '-') 3 (some 32) o.operation.toList) then
    throw (.ValueError "lease operation is unsafe")
  if !fullmatchClass isLowerHex 32 (some 128) o.nonce.toList then
    throw (.ValueError "lease nonce must contain at least 128 random bits")

structure LeaseOwner extends LeaseOwnerFields where
  valid : toLeaseOwnerFields.post_init = .ok ()
deriving DecidableEq

def LeaseOwner.make (o : LeaseOwnerFields) : Except PyErr LeaseOwner :=
  match h : o.post_init with
  | .ok () => .ok ⟨o, h⟩
  | .error e => .error e

theorem LeaseOwner.make_fields (o : LeaseOwner) : LeaseOwner.make o.toLeaseOwnerFields = .ok o := by
  unfold make
  split
  · rfl
  · next h => rw [o.valid] at h; cases h

def LeaseOwner.to_dict (o : LeaseOwner) : Json :=
  .obj [("repository", .str o.repository), ("workflow_run_id", .str o.workflow_run_id),
    ("run_attempt", .str o.run_attempt), ("operation", .str o.operation), ("nonce", .str o.nonce)]

/-! ## Record -/

inductive LeaseStatus where
  | held
  | free
deriving Repr, DecidableEq

def LeaseStatus.toString : LeaseStatus → String
  | held => "held"
  | free => "free"

/-- `status not in ("held", "free")`. -/
def LeaseStatus.ofString (s : String) : Except PyErr LeaseStatus :=
  if s = "held" then .ok held
  else if s = "free" then .ok free
  else .error (.ValueError "lease status must be held or free")

@[ext]
structure LeaseRecordFields where
  status : LeaseStatus
  updated_utc : String
  owner : Option LeaseOwner := none
  acquired_utc : Option String := none
  expires_utc : Option String := none
  released_utc : Option String := none
  schema : String := "dkc.production-lease.v1"
deriving DecidableEq

/-- `LeaseRecord.__post_init__`. -/
def LeaseRecordFields.post_init (r : LeaseRecordFields) : Except PyErr Unit := do
  let updated ← utc r.updated_utc "updated_utc"
  match r.status with
  | .held =>
    match r.owner, r.acquired_utc, r.expires_utc with
    | some _, some acquired_utc, some expires_utc =>
      if r.released_utc.isSome then
        throw (.ValueError "a held lease cannot have a release timestamp")
      let acquired ← utc acquired_utc "acquired_utc"
      let expires ← utc expires_utc "expires_utc"
      if !(acquired ≤ updated && updated < expires) then
        throw (.ValueError "held lease timestamps are not monotonic")
    | _, _, _ => throw (.ValueError "a held lease requires owner, acquisition, and expiry")
  | .free =>
    if r.owner.isSome || r.acquired_utc.isSome || r.expires_utc.isSome then
      throw (.ValueError "a free lease cannot retain active ownership")
    match r.released_utc with
    | none => throw (.ValueError "a free lease requires its exact release timestamp")
    | some released_utc =>
      if (← utc released_utc "released_utc") ≠ updated then
        throw (.ValueError "a free lease requires its exact release timestamp")

structure LeaseRecord extends LeaseRecordFields where
  valid : toLeaseRecordFields.post_init = .ok ()
deriving DecidableEq

namespace LeaseRecord

def make (r : LeaseRecordFields) : Except PyErr LeaseRecord :=
  match h : r.post_init with
  | .ok () => .ok ⟨r, h⟩
  | .error e => .error e

theorem make_fields (r : LeaseRecord) : make r.toLeaseRecordFields = .ok r := by
  unfold make
  split
  · rfl
  · next h => rw [r.valid] at h; cases h

theorem make_ok {f : LeaseRecordFields} {r : LeaseRecord} (h : make f = .ok r) :
    r.toLeaseRecordFields = f := by
  unfold make at h
  split at h
  · cases h; rfl
  · cases h

theorem make_of_valid {f : LeaseRecordFields} (h : f.post_init = .ok ()) : make f = .ok ⟨f, h⟩ := by
  unfold make
  split
  · rfl
  · next h' => rw [h] at h'; cases h'

/-- `to_dict`: the fields in order, those that are `None` dropped. -/
def to_dict (r : LeaseRecord) : Json :=
  .obj ([("status", .str r.status.toString), ("updated_utc", .str r.updated_utc)] ++
    (r.owner.map fun o => ("owner", o.to_dict)).toList ++
    (r.acquired_utc.map fun t => ("acquired_utc", Json.str t)).toList ++
    (r.expires_utc.map fun t => ("expires_utc", Json.str t)).toList ++
    (r.released_utc.map fun t => ("released_utc", Json.str t)).toList ++
    [("schema", .str r.schema)])

/-- `stale_takeover_allowed`, the grace in seconds. -/
def stale_takeover_allowed (r : LeaseRecord) (now_utc : String) (grace_seconds : Int)
    (old_run_terminal : Bool) : Except PyErr Bool := do
  if grace_seconds < 0 then throw (.ValueError "lease takeover grace must not be negative")
  match r.status, r.expires_utc with
  | .held, some expires_utc =>
    if !old_run_terminal then return false
    let now ← utc now_utc "now_utc"
    let expires ← utc expires_utc "expires_utc"
    return decide ((now : Int) - expires ≥ grace_seconds)
  | _, _ => return false

end LeaseRecord

/-! ## Parser -/

/-- A field that is a string, or absent (also as `null`). -/
def optString (fields : List (String × Json)) (key : String) : Except PyErr (Option String) :=
  match fields.lookup key with
  | none | some .null => .ok none
  | some (.str s) => .ok (some s)
  | some _ => .error (.TypeError key)

/-- `value[key]`, a string. -/
def reqString (fields : List (String × Json)) (key : String) : Except PyErr String :=
  match fields.lookup key with
  | none => .error (.KeyError key)
  | some (.str s) => .ok s
  | some _ => .error (.TypeError key)

/-- `value.get(key) == s`. -/
def isStr : Option Json → String → Bool
  | some (.str t), s => t == s
  | _, _ => false

def leaseFields : List String :=
  ["schema", "status", "updated_utc", "owner", "acquired_utc", "expires_utc", "released_utc"]

def ownerFields : List String :=
  ["repository", "workflow_run_id", "run_attempt", "operation", "nonce"]

/-- The `owner` part of `parse_lease`. -/
def parse_owner : Option Json → Except PyErr (Option LeaseOwner)
  | none | some .null => .ok none
  | some (.obj fields) => do
    if !(fields.map (·.1)).all ownerFields.contains || !ownerFields.all (fields.map (·.1)).contains then
      throw (.ValueError "lease owner has an invalid field set")
    let owner : LeaseOwnerFields := {
      repository := ← reqString fields "repository"
      workflow_run_id := ← reqString fields "workflow_run_id"
      run_attempt := ← reqString fields "run_attempt"
      operation := ← reqString fields "operation"
      nonce := ← reqString fields "nonce" }
    return some (← LeaseOwner.make owner)
  | some _ => .error (.ValueError "lease owner is not an object")

/-- The body of `parse_lease`'s `try`. A value of another type than the record wants raises
`TypeError` here; Python raises it, or `ValueError`, when the record is checked. -/
def parse_lease_value : Json → Except PyErr LeaseRecord
  | .obj fields => do
    if !(fields.map (·.1)).all leaseFields.contains then
      throw (.ValueError "lease payload has unknown fields")
    if !isStr (fields.lookup "schema") "dkc.production-lease.v1" then
      throw (.ValueError "lease payload has an unsupported schema")
    let owner ← parse_owner (fields.lookup "owner")
    LeaseRecord.make {
      status := ← LeaseStatus.ofString (← reqString fields "status")
      updated_utc := ← reqString fields "updated_utc"
      owner := owner
      acquired_utc := ← optString fields "acquired_utc"
      expires_utc := ← optString fields "expires_utc"
      released_utc := ← optString fields "released_utc"
      schema := ← reqString fields "schema" }
  | _ => .error (.ValueError "lease payload is not an object")

/-- `parse_lease`: every failure is `LeaseLost`. -/
def parse_lease (body : ByteArray) : Except PyErr LeaseRecord :=
  match (Serialize.loads body).bind parse_lease_value with
  | .ok r => .ok r
  | .error _ => .error (.LeaseLost "authoritative lease payload is invalid")

/-! ## Round trip -/

theorem LeaseOwner.to_dict_clean (o : LeaseOwner) : o.to_dict.Clean := by
  simp [to_dict, Json.Clean, Json.CleanFields]

theorem LeaseOwner.sortKeys_to_dict (o : LeaseOwner) : o.to_dict.sortKeys =
    .obj [("nonce", .str o.nonce), ("operation", .str o.operation), ("repository", .str o.repository),
      ("run_attempt", .str o.run_attempt), ("workflow_run_id", .str o.workflow_run_id)] := by
  simp [to_dict, Json.sortKeys, Json.sortFields, sortedItems]

theorem parse_owner_to_dict (o : LeaseOwner) : parse_owner (some o.to_dict.sortKeys) = .ok (some o) := by
  have hset : ownerFields.all
      ["nonce", "operation", "repository", "run_attempt", "workflow_run_id"].contains = true := by decide
  have hset' : (["nonce", "operation", "repository", "run_attempt", "workflow_run_id"]).all
      ownerFields.contains = true := by decide
  rw [o.sortKeys_to_dict]
  simp only [parse_owner, reqString, List.map_cons, List.map_nil, hset, hset', List.lookup_cons]
  simp [o.make_fields]

/-! The two shapes of a valid record. -/

theorem LeaseRecord.held_cases {r : LeaseRecord} (h : r.status = .held) :
    ∃ owner acquired expires, r.owner = some owner ∧ r.acquired_utc = some acquired ∧
      r.expires_utc = some expires ∧ r.released_utc = none ∧
      ∃ u a e, utc r.updated_utc "updated_utc" = .ok u ∧ utc acquired "acquired_utc" = .ok a ∧
        utc expires "expires_utc" = .ok e ∧ a ≤ u ∧ u < e := by
  have hv := r.valid
  simp only [LeaseRecordFields.post_init, h, except_bind_eq_ok] at hv
  obtain ⟨u, hu, hv⟩ := hv
  split at hv
  · next o a e ho ha he =>
    split at hv
    · cases hv
    · next hr =>
      simp only [except_bind_eq_ok, except_pure, except_throw, except_guard_eq_ok] at hv
      obtain ⟨ta, hta, te, hte, hmono⟩ := hv
      simp only [Bool.not_eq_true', Bool.not_eq_false, Bool.and_eq_true, decide_eq_true_eq] at hmono
      exact ⟨o, a, e, ho, ha, he, by simpa using hr, u, ta, te, hu, hta, hte, hmono.1, hmono.2⟩
  · cases hv

theorem LeaseRecord.free_cases {r : LeaseRecord} (h : r.status = .free) :
    r.owner = none ∧ r.acquired_utc = none ∧ r.expires_utc = none ∧ ∃ t, r.released_utc = some t := by
  have hv := r.valid
  simp only [LeaseRecordFields.post_init, h, except_bind_eq_ok] at hv
  obtain ⟨u, -, hv⟩ := hv
  split at hv
  · cases hv
  · next hown =>
    simp only [Bool.or_eq_true, not_or, Option.not_isSome_iff_eq_none] at hown
    split at hv
    · cases hv
    · next t ht => exact ⟨hown.1.1, hown.1.2, hown.2, t, ht⟩

theorem LeaseRecord.to_dict_clean (r : LeaseRecord) : r.to_dict.Clean := by
  rcases h : r.status with _ | _
  · obtain ⟨o, a, e, ho, ha, he, hr, -⟩ := held_cases h
    simp [to_dict, ho, ha, he, hr, Json.Clean, Json.CleanFields, o.to_dict_clean]
  · obtain ⟨ho, ha, he, t, hr⟩ := free_cases h
    simp [to_dict, ho, ha, he, hr, Json.Clean, Json.CleanFields]

/-! What is written of each shape, and the record of its fields. -/

section
variable {r : LeaseRecord}

theorem LeaseRecord.held_written (h : r.status = .held) : ∃ owner acquired expires,
    r.toLeaseRecordFields = ⟨.held, r.updated_utc, some owner, some acquired, some expires, none, r.schema⟩ ∧
      r.to_dict.sortKeys = .obj [("acquired_utc", .str acquired), ("expires_utc", .str expires),
        ("owner", owner.to_dict.sortKeys), ("schema", .str r.schema), ("status", .str "held"),
        ("updated_utc", .str r.updated_utc)] := by
  obtain ⟨o, a, e, ho, ha, he, hr, -⟩ := held_cases h
  refine ⟨o, a, e, LeaseRecordFields.ext h rfl ho ha he hr rfl, ?_⟩
  simp [to_dict, h, ho, ha, he, hr, Json.sortKeys, Json.sortFields, sortedItems, LeaseStatus.toString]

theorem LeaseRecord.free_written (h : r.status = .free) : ∃ released,
    r.toLeaseRecordFields = ⟨.free, r.updated_utc, none, none, none, some released, r.schema⟩ ∧
      r.to_dict.sortKeys = .obj [("released_utc", .str released), ("schema", .str r.schema),
        ("status", .str "free"), ("updated_utc", .str r.updated_utc)] := by
  obtain ⟨ho, ha, he, t, hr⟩ := free_cases h
  refine ⟨t, LeaseRecordFields.ext h rfl ho ha he hr rfl, ?_⟩
  simp [to_dict, h, ho, ha, he, hr, Json.sortKeys, Json.sortFields, sortedItems, LeaseStatus.toString]

/-- What a written record is read back from. -/
theorem parse_lease_value_to_dict (hs : r.schema = "dkc.production-lease.v1") :
    parse_lease_value r.to_dict.sortKeys = .ok r := by
  have hrec := r.make_fields
  rcases h : r.status with _ | _
  · obtain ⟨o, a, e, hfields, hsort⟩ := LeaseRecord.held_written h
    have hset : (["acquired_utc", "expires_utc", "owner", "schema", "status", "updated_utc"]).all
        leaseFields.contains = true := by decide
    rw [hfields] at hrec
    rw [hsort]
    simp only [parse_lease_value, reqString, optString, isStr, List.map_cons, List.map_nil, hset,
      List.lookup_cons, hs]
    simp [parse_owner_to_dict, LeaseStatus.ofString, ← hs, hrec]
  · obtain ⟨t, hfields, hsort⟩ := LeaseRecord.free_written h
    have hset : (["released_utc", "schema", "status", "updated_utc"]).all
        leaseFields.contains = true := by decide
    rw [hfields] at hrec
    rw [hsort]
    simp only [parse_lease_value, reqString, optString, isStr, List.map_cons, List.map_nil, hset,
      List.lookup_cons, hs]
    simp [parse_owner, LeaseStatus.ofString, ← hs, hrec]

end

theorem LeaseOwner.to_dict_injective {o p : LeaseOwner} (h : o.to_dict.sortKeys = p.to_dict.sortKeys) :
    o = p := by
  have hparse := parse_owner_to_dict o
  rw [h, parse_owner_to_dict] at hparse
  exact (Option.some.inj (Except.ok.inj hparse)).symm

/-- The written fields determine the record. -/
theorem LeaseRecord.to_dict_injective {r s : LeaseRecord} (h : r.to_dict.sortKeys = s.to_dict.sortKeys) :
    r = s := by
  have hfields : r.toLeaseRecordFields = s.toLeaseRecordFields := by
    rcases hr : r.status with _ | _ <;> rcases hs : s.status with _ | _
    · obtain ⟨o, a, e, hfields, hsort⟩ := held_written hr
      obtain ⟨o', a', e', hfields', hsort'⟩ := held_written hs
      rw [hsort, hsort'] at h
      simp only [Json.obj.injEq, List.cons.injEq, Prod.mk.injEq, Json.str.injEq, true_and, and_true] at h
      obtain ⟨ha, he, howner, hschema, hupdated⟩ := h
      rw [hfields, hfields', ha, he, LeaseOwner.to_dict_injective howner, hschema, hupdated]
    · obtain ⟨o, a, e, -, hsort⟩ := held_written hr
      obtain ⟨t, -, hsort'⟩ := free_written hs
      simp [hsort, hsort'] at h
    · obtain ⟨t, -, hsort⟩ := free_written hr
      obtain ⟨o, a, e, -, hsort'⟩ := held_written hs
      simp [hsort, hsort'] at h
    · obtain ⟨t, hfields, hsort⟩ := free_written hr
      obtain ⟨t', hfields', hsort'⟩ := free_written hs
      rw [hsort, hsort'] at h
      simp only [Json.obj.injEq, List.cons.injEq, Prod.mk.injEq, Json.str.injEq, true_and, and_true] at h
      obtain ⟨ht, hschema, hupdated⟩ := h
      rw [hfields, hfields', ht, hschema, hupdated]
  have hmake := s.make_fields
  rw [← hfields] at hmake
  exact Except.ok.inj (r.make_fields.symm.trans hmake)

/-- **A record with the current schema reads back from its canonical bytes.** -/
theorem parse_lease_canonical {r : LeaseRecord} (hs : r.schema = "dkc.production-lease.v1")
    {body : ByteArray} (hb : Serialize.canonical_bytes r.to_dict = .ok body) :
    parse_lease body = .ok r := by
  rw [parse_lease, Serialize.loads_canonical_bytes r.to_dict_clean hb]
  simp [Except.bind, parse_lease_value_to_dict hs]

/-- Records with the same canonical bytes are equal. -/
theorem lease_injective {r s : LeaseRecord} {body : ByteArray}
    (hr : Serialize.canonical_bytes r.to_dict = .ok body) (hs : Serialize.canonical_bytes s.to_dict = .ok body) :
    r = s := by
  have h := (Serialize.loads_canonical_bytes r.to_dict_clean hr).symm.trans
    (Serialize.loads_canonical_bytes s.to_dict_clean hs)
  exact LeaseRecord.to_dict_injective (Except.ok.inj h)
