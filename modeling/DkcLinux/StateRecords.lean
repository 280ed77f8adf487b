import DkcLinux.Manifest
import DkcLinux.LeaseRecord

/-!
# Reading the signed state back (`dkc/state.py:20-45`)

`to_dict` of the publication records and their strict readers. A reader rebuilds artifacts and
tombstones as records and leaves `apt_metadata` and `previous_publication` as the parser gives them;
the manifest read back is the one that was written, up to the order of keys in its two mappings.
-/

open Py Json Kwargs

/-! ## Records as dicts -/

def CacheClass.ofString (s : String) : Except PyErr CacheClass :=
  if s = "immutable" then .ok .immutable
  else if s = "mutable" then .ok .mutable
  else .error (.ValueError "artifact cache_class must be immutable or mutable")

def LtoMode.toString : LtoMode → String
  | none => "none"
  | thin => "thin"
  | full => "full"

def LtoMode.ofString (s : String) : Except PyErr LtoMode :=
  if s = "none" then .ok .none
  else if s = "thin" then .ok .thin
  else if s = "full" then .ok .full
  else .error (.ValueError "lto_mode must be none, thin, or full")

def RetentionMode.toString : RetentionMode → String
  | series => "series"
  | series_size => "series-size"

def RetentionMode.ofString (s : String) : Except PyErr RetentionMode :=
  if s = "series" then .ok .series
  else if s = "series-size" then .ok .series_size
  else .error (.ValueError "unknown retention mode")

namespace Artifact

/-- `asdict`. -/
def asdict (a : ArtifactFields) : List (String × Json) :=
  [("key", .str a.key), ("sha256", .str a.sha256), ("size", .int a.size),
    ("media_type", .str a.media_type), ("cache_class", .str a.cache_class.toString),
    ("provenance_ref", ofOption .str a.provenance_ref)]

/-- `Artifact(**fields)`. -/
def ofKwargs (fields : List (String × Json)) : Except PyErr Artifact := do
  check ["key", "sha256", "size", "media_type", "cache_class", "provenance_ref"] fields
  make {
    key := ← required fields "key" str
    sha256 := ← required fields "sha256" str
    size := ← required fields "size" int
    media_type := ← required fields "media_type" str
    cache_class := ← CacheClass.ofString (← required fields "cache_class" str)
    provenance_ref := ← defaulted fields "provenance_ref" none (orNone str) }

/-- `Artifact(**item)` of a value. -/
def ofItem (item : Json) : Except PyErr Artifact := do
  ofKwargs (← obj item)

end Artifact

namespace GcQueueEntry

def asdict (e : GcQueueEntryFields) : List (String × Json) :=
  [("key", .str e.key), ("sha256", .str e.sha256), ("size", .int e.size), ("reason", .str e.reason),
    ("tombstoned", .bool e.tombstoned)]

/-- `GcQueueEntry(**fields)`. -/
def ofKwargs (fields : List (String × Json)) : Except PyErr GcQueueEntry := do
  check ["key", "sha256", "size", "reason", "tombstoned"] fields
  make {
    key := ← required fields "key" str
    sha256 := ← required fields "sha256" str
    size := ← required fields "size" int
    reason := ← required fields "reason" str
    tombstoned := ← defaulted fields "tombstoned" true bool }

/-- `GcQueueEntry(**item)` of a value. -/
def ofItem (item : Json) : Except PyErr GcQueueEntry := do
  ofKwargs (← obj item)

end GcQueueEntry

namespace StatePointer

def make (p : StatePointerFields) : Except PyErr StatePointer :=
  match h : p.post_init with
  | .ok () => .ok ⟨p, h⟩
  | .error e => .error e

def asdict (p : StatePointerFields) : List (String × Json) :=
  [("generation", .int p.generation), ("publication_id", .str p.publication_id),
    ("manifest_key", .str p.manifest_key), ("manifest_sha256", .str p.manifest_sha256),
    ("committed_utc", .str p.committed_utc),
    ("previous_generation", ofOption .int p.previous_generation), ("schema", .str p.schema)]

def to_dict (p : StatePointer) : Json := (Json.obj (asdict p.toStatePointerFields)).dropNone

/-- `StatePointer(**fields)`. -/
def ofKwargs (fields : List (String × Json)) : Except PyErr StatePointer := do
  check ["generation", "publication_id", "manifest_key", "manifest_sha256", "committed_utc",
    "previous_generation", "schema"] fields
  make {
    generation := ← required fields "generation" int
    publication_id := ← required fields "publication_id" str
    manifest_key := ← required fields "manifest_key" str
    manifest_sha256 := ← required fields "manifest_sha256" str
    committed_utc := ← required fields "committed_utc" str
    previous_generation := ← defaulted fields "previous_generation" none (orNone int)
    schema := ← defaulted fields "schema" "dkc.state-pointer.v1" str }

end StatePointer

namespace PublicationManifest

def PREVIOUS : List String := ["publication_id", "generation"]

/-- `previous_publication` as the mapping it is; `__post_init__` wants exactly these two fields. -/
def previousDict (p : PreviousPublication) : Json :=
  .obj [("publication_id", .str p.publication_id), ("generation", .int p.generation)]

def readPrevious (v : Json) : Except PyErr PreviousPublication := do
  let fields ← obj v
  if !(fields.map (·.1)).all PREVIOUS.contains || !PREVIOUS.all (fields.map (·.1)).contains then
    throw (.ValueError "previous_publication has an unexpected field set")
  return {
    publication_id := ← required fields "publication_id" str
    generation := ← required fields "generation" int }

/-- A dict: what a JSON parser returns repeats no key. -/
def readObject (v : Json) : Except PyErr JsonObject := do
  let fields ← obj v
  if h : (Json.obj fields).distinct = true then .ok ⟨fields, h⟩ else .error (.TypeError "dict")

def readStrings (v : Json) : Except PyErr (Dict String) := do
  let fields ← obj v
  let items ← fields.mapM fun f => do return (f.1, ← str f.2)
  if h : (items.map (·.1)).Nodup then .ok ⟨items, h⟩ else .error (.TypeError "dict")

def asdict (m : PublicationManifestFields) : List (String × Json) :=
  [("generation", .int m.generation), ("publication_id", .str m.publication_id),
    ("transaction_id", .str m.transaction_id), ("source_version", .str m.source_version),
    ("source_dsc_sha256", .str m.source_dsc_sha256), ("dkc_version", .str m.dkc_version),
    ("dkc_revision", .int m.dkc_revision), ("build_policy_sha256", .str m.build_policy_sha256),
    ("lto_mode", .str m.lto_mode.toString), ("build_id", .str m.build_id),
    ("retained_series", .arr (m.retained_series.map fun series => .arr (series.map .int))),
    ("artifacts", .arr (m.artifacts.map fun a => .obj (Artifact.asdict a.toArtifactFields))),
    ("live_objects", .arr (m.live_objects.map .str)), ("apt_metadata", .obj m.apt_metadata.fields),
    ("meta_packages", .obj (m.meta_packages.items.map fun x => (x.1, .str x.2))),
    ("created_utc", .str m.created_utc), ("retention_mode", .str m.retention_mode.toString),
    ("retention_max_bytes", ofOption .int m.retention_max_bytes),
    ("generation_snapshot_prefix", ofOption .str m.generation_snapshot_prefix),
    ("provenance_ref", ofOption .str m.provenance_ref),
    ("gc_queue", .arr (m.gc_queue.map fun e => .obj (GcQueueEntry.asdict e.toGcQueueEntryFields))),
    ("previous_publication", ofOption previousDict m.previous_publication), ("schema", .str m.schema)]

def to_dict (m : PublicationManifest) : Json := (Json.obj (asdict m.toPublicationManifestFields)).dropNone

/-- `PublicationManifest(artifacts=..., gc_queue=..., **fields)`, the rest of the fields. -/
def ofKwargs (artifacts : List Artifact) (gc_queue : List GcQueueEntry) (fields : List (String × Json)) :
    Except PyErr PublicationManifest := do
  check ["generation", "publication_id", "transaction_id", "source_version", "source_dsc_sha256",
    "dkc_version", "dkc_revision", "build_policy_sha256", "lto_mode", "build_id", "retained_series",
    "live_objects", "apt_metadata", "meta_packages", "created_utc", "retention_mode",
    "retention_max_bytes", "generation_snapshot_prefix", "provenance_ref", "previous_publication",
    "schema"] fields
  make {
    generation := ← required fields "generation" int
    publication_id := ← required fields "publication_id" str
    transaction_id := ← required fields "transaction_id" str
    source_version := ← required fields "source_version" str
    source_dsc_sha256 := ← required fields "source_dsc_sha256" str
    dkc_version := ← required fields "dkc_version" str
    dkc_revision := ← required fields "dkc_revision" int
    build_policy_sha256 := ← required fields "build_policy_sha256" str
    lto_mode := ← LtoMode.ofString (← required fields "lto_mode" str)
    build_id := ← required fields "build_id" str
    retained_series := ← required fields "retained_series" (list (list int))
    artifacts := artifacts
    live_objects := ← required fields "live_objects" (list str)
    apt_metadata := ← required fields "apt_metadata" readObject
    meta_packages := ← required fields "meta_packages" readStrings
    created_utc := ← required fields "created_utc" str
    retention_mode := ← RetentionMode.ofString (← defaulted fields "retention_mode" "series" str)
    retention_max_bytes := ← defaulted fields "retention_max_bytes" none (orNone int)
    generation_snapshot_prefix := ← defaulted fields "generation_snapshot_prefix" none (orNone str)
    provenance_ref := ← defaulted fields "provenance_ref" none (orNone str)
    gc_queue := gc_queue
    previous_publication := ← defaulted fields "previous_publication" none (orNone readPrevious)
    schema := ← defaulted fields "schema" "dkc.publication-manifest.v1" str }

end PublicationManifest

/-! ## The readers -/

namespace State

section
variable (validate : String → Json → Except PyErr Unit)

/-- `_object`. -/
def object (body : ByteArray) (name : String) : Except PyErr Json :=
  match Serialize.loads body with
  | .error _ => .error (.ValueError (name ++ " is not valid UTF-8 JSON"))
  | .ok (.obj fields) => .ok (.obj fields)
  | .ok _ => .error (.ValueError (name ++ " is not a JSON object"))

/-- `parse_state_pointer`. -/
def parse_state_pointer (body : ByteArray) : Except PyErr StatePointer := do
  let value ← object body "state pointer"
  validate "state-pointer" value
  StatePointer.ofKwargs (← obj value)

/-- `parse_manifest`. -/
def parse_manifest (body : ByteArray) : Except PyErr PublicationManifest := do
  let value ← object body "publication manifest"
  validate "publication-manifest" value
  let fields ← obj value
  let raw_artifacts ← match fields.lookup "artifacts" with
    | some v => .ok v
    | none => .error (.KeyError "artifacts")
  let raw_queue := (fields.lookup "gc_queue").getD (.arr [])
  match raw_artifacts, raw_queue with
  | .arr raw_artifacts, .arr raw_queue =>
    let artifacts ← raw_artifacts.mapM Artifact.ofItem
    let queue ← raw_queue.mapM GcQueueEntry.ofItem
    PublicationManifest.ofKwargs artifacts queue (pop (pop fields "artifacts") "gc_queue")
  | _, _ => .error (.ValueError "publication manifest collections are malformed")

end

end State

/-! ## Round trips of the parts -/

@[simp] theorem CacheClass.ofString_toString (c : CacheClass) : CacheClass.ofString c.toString = .ok c := by
  cases c <;> rfl

@[simp] theorem LtoMode.ofString_toString (m : LtoMode) : LtoMode.ofString m.toString = .ok m := by
  cases m <;> rfl

@[simp] theorem RetentionMode.ofString_toString (m : RetentionMode) : RetentionMode.ofString m.toString = .ok m := by
  cases m <;> rfl

section
variable {fs : List (String × Json)} (hn : (fs.map (·.1)).Nodup) {name : String}
include hn

theorem defaulted_str {x : Option String} (h : fs.lookup name = some (ofOption .str x)) :
    defaulted (wireFields fs) name none (orNone str) = .ok x :=
  defaulted_wire_ofOption hn h (fun _ => rfl) (fun _ => rfl) fun _ => rfl

theorem defaulted_int {x : Option Int} (h : fs.lookup name = some (ofOption .int x)) :
    defaulted (wireFields fs) name none (orNone int) = .ok x :=
  defaulted_wire_ofOption hn h (fun _ => rfl) (fun _ => rfl) fun _ => rfl

end

namespace Artifact

theorem make_fields (a : Artifact) : make a.toArtifactFields = .ok a := by
  unfold make
  split
  · rfl
  · next h => rw [a.valid] at h; cases h

theorem ofKwargs_wire (a : Artifact) : ofKwargs (wireFields (asdict a.toArtifactFields)) = .ok a := by
  have hn : ((asdict a.toArtifactFields).map (·.1)).Nodup := by simp [asdict]
  have hprovenance : defaulted (wireFields (asdict a.toArtifactFields)) "provenance_ref" none (orNone str) =
      .ok a.provenance_ref := defaulted_str hn rfl
  rw [ofKwargs, check_wire (by simp [asdict]), except_ok_bind, hprovenance]
  simp only [required, lookup_wire hn]
  simp [asdict, List.lookup_cons]
  exact a.make_fields

theorem ofItem_wire (a : Artifact) : ofItem (Json.obj (asdict a.toArtifactFields)).wire = .ok a :=
  a.ofKwargs_wire

end Artifact

namespace GcQueueEntry

theorem make_fields (e : GcQueueEntry) : make e.toGcQueueEntryFields = .ok e := by
  unfold make
  split
  · rfl
  · next h => rw [e.valid] at h; cases h

theorem ofKwargs_wire (e : GcQueueEntry) : ofKwargs (wireFields (asdict e.toGcQueueEntryFields)) = .ok e := by
  have hn : ((asdict e.toGcQueueEntryFields).map (·.1)).Nodup := by simp [asdict]
  rw [ofKwargs, check_wire (by simp [asdict]), except_ok_bind]
  simp only [required, defaulted, lookup_wire hn]
  simp [asdict, List.lookup_cons]
  exact e.make_fields

theorem ofItem_wire (e : GcQueueEntry) : ofItem (Json.obj (asdict e.toGcQueueEntryFields)).wire = .ok e :=
  e.ofKwargs_wire

end GcQueueEntry

namespace StatePointer

theorem make_fields (p : StatePointer) : make p.toStatePointerFields = .ok p := by
  unfold make
  split
  · rfl
  · next h => rw [p.valid] at h; cases h

theorem ofKwargs_wire (p : StatePointer) : ofKwargs (wireFields (asdict p.toStatePointerFields)) = .ok p := by
  have hn : ((asdict p.toStatePointerFields).map (·.1)).Nodup := by simp [asdict]
  have hprevious : defaulted (wireFields (asdict p.toStatePointerFields)) "previous_generation" none (orNone int) =
      .ok p.previous_generation := defaulted_int hn rfl
  rw [ofKwargs, check_wire (by simp [asdict]), except_ok_bind, hprevious]
  simp only [required, defaulted, lookup_wire hn]
  simp [asdict, List.lookup_cons]
  exact p.make_fields

end StatePointer

namespace PublicationManifest

theorem make_fields (m : PublicationManifest) : make m.toPublicationManifestFields = .ok m := by
  unfold make
  split
  · rfl
  · next h => rw [m.valid] at h; cases h

theorem readPrevious_wire (p : PreviousPublication) : readPrevious (previousDict p).wire = .ok p := by
  have hwire : wireFields [("publication_id", .str p.publication_id), ("generation", .int p.generation)] =
      [("generation", .int p.generation), ("publication_id", .str p.publication_id)] := by
    simp [wireFields, dropFields, sortFields, sortedItems, dropNone, sortKeys]
  have hset : (["generation", "publication_id"]).all PREVIOUS.contains = true := by decide
  have hset' : PREVIOUS.all (["generation", "publication_id"]).contains = true := by decide
  rw [previousDict, wire_obj, readPrevious, obj_obj, except_ok_bind, hwire]
  simp only [List.map_cons, List.map_nil, hset, hset']
  rfl

/-- The names of the fields. -/
theorem nodup_asdict (m : PublicationManifestFields) : ((asdict m).map (·.1)).Nodup := by
  have hnames : (asdict m).map (·.1) = ["generation", "publication_id", "transaction_id", "source_version",
    "source_dsc_sha256", "dkc_version", "dkc_revision", "build_policy_sha256", "lto_mode", "build_id",
    "retained_series", "artifacts", "live_objects", "apt_metadata", "meta_packages", "created_utc",
    "retention_mode", "retention_max_bytes", "generation_snapshot_prefix", "provenance_ref", "gc_queue",
    "previous_publication", "schema"] := rfl
  rw [hnames]
  decide +kernel

/-- A mapping as it is read: nulls dropped, keys sorted. -/
def readMapping (o : JsonObject) : JsonObject := ⟨wireFields o.fields, distinct_wire o.distinct⟩

theorem readObject_wire (o : JsonObject) : readObject (Json.obj o.fields).wire = .ok (readMapping o) := by
  rw [wire_obj, readObject, obj_obj, except_ok_bind]
  exact dif_pos (distinct_wire o.distinct)

/-- A mapping of strings as it is read. -/
def readNames (d : Dict String) : Dict String where
  items := sortedItems d.items
  nodup := d.nodup_sortedItems

theorem wireFields_strings (items : List (String × String)) :
    wireFields (items.map fun x => (x.1, Json.str x.2)) = (sortedItems items).map fun x => (x.1, Json.str x.2) := by
  have hdrop : ∀ items : List (String × String), dropFields (items.map fun x => (x.1, Json.str x.2)) =
      items.map fun x => (x.1, Json.str x.2) := by
    intro items
    induction items with
    | nil => rfl
    | cons x items ih => simp [dropFields, dropNone, ih]
  have hsort : sortFields (items.map fun x => (x.1, Json.str x.2)) = items.map fun x => (x.1, Json.str x.2) := by
    rw [sortFields_map, List.map_map]
    rfl
  rw [wireFields, hdrop, hsort, sortedItems, sortedItems]
  symm
  apply List.map_insertionSort
  intro x _ y _
  exact Iff.rfl

theorem readStrings_wire (d : Dict String) :
    readStrings (Json.obj (d.items.map fun x => (x.1, .str x.2))).wire = .ok (readNames d) := by
  have hread : ∀ items : List (String × String), (items.map fun x => (x.1, Json.str x.2)).mapM
      (fun f => do return (f.1, ← str f.2)) = (Except.ok items : Except PyErr _) := by
    intro items
    induction items with
    | nil => rfl
    | cons x items ih =>
      rw [List.map_cons, List.mapM_cons, ih]
      rfl
  rw [wire_obj, wireFields_strings, readStrings, obj_obj, except_ok_bind, hread, except_ok_bind]
  exact dif_pos (readNames d).nodup

/-- The manifest as it is read. -/
def read (m : PublicationManifest) : PublicationManifest where
  toPublicationManifestFields :=
    { m.toPublicationManifestFields with
      apt_metadata := readMapping m.apt_metadata
      meta_packages := readNames m.meta_packages }
  valid := m.valid

theorem ofKwargs_wire (m : PublicationManifest) : ofKwargs m.artifacts m.gc_queue
    (pop (pop (wireFields (asdict m.toPublicationManifestFields)) "artifacts") "gc_queue") = .ok m.read := by
  have hn := nodup_asdict m.toPublicationManifestFields
  have hmake := (read m).make_fields
  have hseries : list (list int) (Json.arr (m.retained_series.map fun series => .arr (series.map .int))).wire =
      .ok m.retained_series := list_wire (fun series => list_wire (fun n => rfl) series) _
  have hlive : list str (Json.arr (m.live_objects.map .str)).wire = .ok m.live_objects :=
    list_wire (fun key => rfl) _
  have hmax : defaulted (wireFields (asdict m.toPublicationManifestFields)) "retention_max_bytes" none
      (orNone int) = .ok m.retention_max_bytes := defaulted_int hn rfl
  have hsnapshot : defaulted (wireFields (asdict m.toPublicationManifestFields)) "generation_snapshot_prefix" none
      (orNone str) = .ok m.generation_snapshot_prefix := defaulted_str hn rfl
  have hprovenance : defaulted (wireFields (asdict m.toPublicationManifestFields)) "provenance_ref" none
      (orNone str) = .ok m.provenance_ref := defaulted_str hn rfl
  have hprevious : defaulted (wireFields (asdict m.toPublicationManifestFields)) "previous_publication" none
      (orNone readPrevious) = .ok m.previous_publication :=
    defaulted_wire_ofOption hn rfl (fun _ => rfl) (fun _ => rfl) readPrevious_wire
  rw [ofKwargs, check_pop (by simp [asdict]), except_ok_bind]
  simp only [defaulted, lookup_wire hn] at hmax hsnapshot hprovenance hprevious
  simp only [required, defaulted, lookup_pop, lookup_wire hn, String.reduceEq, if_false, hmax, hsnapshot,
    hprovenance, hprevious, except_ok_bind]
  simp [asdict, List.lookup_cons, hseries, hlive, readObject_wire, readStrings_wire]
  exact hmake

/-- Equality of manifests: all fields the same, the two mappings as dicts are, which ignores the order
of their keys. -/
structure Equal (m n : PublicationManifest) : Prop where
  fields : { m.toPublicationManifestFields with
    apt_metadata := n.apt_metadata, meta_packages := n.meta_packages } = n.toPublicationManifestFields
  apt_metadata : (Json.obj m.apt_metadata.fields).sortKeys = (Json.obj n.apt_metadata.fields).sortKeys
  meta_packages : ∀ k, m.meta_packages.get? k = n.meta_packages.get? k

theorem Equal.symm {m n : PublicationManifest} (h : Equal m n) : Equal n m where
  fields := by rw [← h.fields]
  apt_metadata := h.apt_metadata.symm
  meta_packages k := (h.meta_packages k).symm

theorem Equal.trans {l m n : PublicationManifest} (h : Equal l m) (h' : Equal m n) : Equal l n where
  fields := by rw [← h'.fields, ← h.fields]
  apt_metadata := h.apt_metadata.trans h'.apt_metadata
  meta_packages k := (h.meta_packages k).trans (h'.meta_packages k)

/-- What is read is equal to what was written, where no null was dropped. -/
theorem read_equal {m : PublicationManifest} (h : (Json.obj m.apt_metadata.fields).noNulls = true) :
    m.read.Equal m where
  fields := rfl
  apt_metadata := by
    have hdrop : (Json.obj m.apt_metadata.fields).dropNone = Json.obj m.apt_metadata.fields := dropNone_eq _ h
    have hwire : Json.obj (readMapping m.apt_metadata).fields = (Json.obj m.apt_metadata.fields).sortKeys := by
      show (Json.obj m.apt_metadata.fields).wire = _
      rw [wire, hdrop]
    show (Json.obj (readMapping m.apt_metadata).fields).sortKeys = _
    rw [hwire, sortKeys_sortKeys]
  meta_packages k := (lookup_perm (perm_sortedItems m.meta_packages.items).symm m.meta_packages.nodup k).symm

end PublicationManifest

/-! ## Round trips of the records -/

theorem StatePointer.to_dict_clean (p : StatePointer) : p.to_dict.Clean := by
  have hprevious := @distinct_ofOption _ Json.int (fun n => rfl) p.previous_generation
  rw [clean_iff]
  constructor
  · exact distinct_dropNone _ (by simp [asdict, distinct, distinctFields, hprevious])
  · cases h : p.previous_generation <;>
      simp [to_dict, asdict, dropNone, dropFields, rejectFloats, rejectFloatsFields, ofOption, isNull, h]

theorem Artifact.asdict_distinct (a : Artifact) : (Json.obj (asdict a.toArtifactFields)).distinct = true := by
  have hprovenance := @distinct_ofOption _ Json.str (fun s => rfl) a.provenance_ref
  simp [asdict, distinct, distinctFields, hprovenance]

theorem GcQueueEntry.asdict_distinct (e : GcQueueEntry) :
    (Json.obj (asdict e.toGcQueueEntryFields)).distinct = true := by
  simp [asdict, distinct, distinctFields]

theorem PublicationManifest.to_dict_distinct (m : PublicationManifest) : m.to_dict.distinct = true := by
  have hpair : ∀ series : List Int, (Json.arr (series.map .int)).distinct = true :=
    distinctItems_map fun n => rfl
  have hseries : (Json.arr (m.retained_series.map fun series => .arr (series.map .int))).distinct = true :=
    distinctItems_map hpair _
  have hartifacts : (Json.arr (m.artifacts.map fun a => .obj (Artifact.asdict a.toArtifactFields))).distinct = true :=
    distinctItems_map Artifact.asdict_distinct _
  have hqueue : (Json.arr (m.gc_queue.map fun e => .obj (GcQueueEntry.asdict e.toGcQueueEntryFields))).distinct = true :=
    distinctItems_map GcQueueEntry.asdict_distinct _
  have hlive : (Json.arr (m.live_objects.map .str)).distinct = true := distinctItems_map (fun key => rfl) _
  have hnames : (Json.obj (m.meta_packages.items.map fun x => (x.1, .str x.2))).distinct = true := by
    have hkeys : ((m.meta_packages.items.map fun x => (x.1, Json.str x.2)).map (·.1)).Nodup := by
      rw [List.map_map]
      exact m.meta_packages.nodup
    rw [distinct, Bool.and_eq_true, decide_eq_true_eq]
    refine ⟨hkeys, ?_⟩
    rw [distinctFields_iff]
    intro f hf
    obtain ⟨x, -, rfl⟩ := List.mem_map.1 hf
    rfl
  have hmax := @distinct_ofOption _ Json.int (fun n => rfl) m.retention_max_bytes
  have hsnapshot := @distinct_ofOption _ Json.str (fun s => rfl) m.generation_snapshot_prefix
  have hprovenance := @distinct_ofOption _ Json.str (fun s => rfl) m.provenance_ref
  have hprevious := @distinct_ofOption _ previousDict
    (fun p => by simp [previousDict, distinct, distinctFields]) m.previous_publication
  rw [to_dict]
  apply distinct_dropNone
  rw [distinct, Bool.and_eq_true, decide_eq_true_eq]
  refine ⟨nodup_asdict m.toPublicationManifestFields, ?_⟩
  rw [distinctFields_iff]
  simp [asdict, hseries, hartifacts, hqueue, hlive, hnames, hmax, hsnapshot, hprovenance, hprevious,
    m.apt_metadata.distinct, show ∀ s, (Json.str s).distinct = true from fun _ => rfl,
    show ∀ n, (Json.int n).distinct = true from fun _ => rfl]

theorem Artifact.asdict_floats (a : Artifact) : (Json.obj (asdict a.toArtifactFields)).rejectFloats = false := by
  have hprovenance := @rejectFloats_ofOption _ Json.str (fun s => rfl) a.provenance_ref
  simp [asdict, rejectFloats, rejectFloatsFields, hprovenance]

theorem GcQueueEntry.asdict_floats (e : GcQueueEntry) :
    (Json.obj (asdict e.toGcQueueEntryFields)).rejectFloats = false := by
  simp [asdict, rejectFloats, rejectFloatsFields]

/-- Only the free mapping can hold a float. -/
theorem PublicationManifest.to_dict_floats {m : PublicationManifest}
    (h : (Json.obj m.apt_metadata.fields).rejectFloats = false) : m.to_dict.rejectFloats = false := by
  have hpair : ∀ series : List Int, (Json.arr (series.map .int)).rejectFloats = false :=
    rejectFloatsItems_map fun n => rfl
  have hseries : (Json.arr (m.retained_series.map fun series => .arr (series.map .int))).rejectFloats = false :=
    rejectFloatsItems_map hpair _
  have hartifacts : (Json.arr (m.artifacts.map fun a => .obj (Artifact.asdict a.toArtifactFields))).rejectFloats =
      false := rejectFloatsItems_map Artifact.asdict_floats _
  have hqueue : (Json.arr (m.gc_queue.map fun e => .obj (GcQueueEntry.asdict e.toGcQueueEntryFields))).rejectFloats =
      false := rejectFloatsItems_map GcQueueEntry.asdict_floats _
  have hlive : (Json.arr (m.live_objects.map .str)).rejectFloats = false := rejectFloatsItems_map (fun key => rfl) _
  have hnames : (Json.obj (m.meta_packages.items.map fun x => (x.1, .str x.2))).rejectFloats = false := by
    rw [rejectFloats, rejectFloatsFields_iff]
    intro f hf
    obtain ⟨x, -, rfl⟩ := List.mem_map.1 hf
    rfl
  have hmax := @rejectFloats_ofOption _ Json.int (fun n => rfl) m.retention_max_bytes
  have hsnapshot := @rejectFloats_ofOption _ Json.str (fun s => rfl) m.generation_snapshot_prefix
  have hprovenance := @rejectFloats_ofOption _ Json.str (fun s => rfl) m.provenance_ref
  have hprevious := @rejectFloats_ofOption _ previousDict (fun p => rfl) m.previous_publication
  rw [to_dict]
  apply rejectFloats_dropNone
  rw [rejectFloats, rejectFloatsFields_iff]
  simp [asdict, hseries, hartifacts, hqueue, hlive, hnames, hmax, hsnapshot, hprovenance, hprevious, h,
    show ∀ s, (Json.str s).rejectFloats = false from fun _ => rfl,
    show ∀ n, (Json.int n).rejectFloats = false from fun _ => rfl]

namespace State

/-- What the canonical bytes of a dict are read as. -/
theorem object_canonical {fs : List (String × Json)} {body : ByteArray} (name : String)
    (hd : (Json.obj fs).dropNone.distinct = true) (hb : Serialize.canonical_bytes (Json.obj fs).dropNone = .ok body) :
    object body name = .ok (.obj (wireFields fs)) := by
  have hclean : (Json.obj fs).dropNone.Clean := by
    rw [clean_iff]
    refine ⟨hd, ?_⟩
    rw [← Bool.not_eq_true]
    intro hfloat
    rw [Serialize.canonical_bytes, dumps, if_pos hfloat] at hb
    cases hb
  rw [object, Serialize.loads_canonical_bytes hclean hb]
  rfl

section
variable {validate : String → Json → Except PyErr Unit}

theorem parse_state_pointer_canonical {p : StatePointer} {body : ByteArray}
    (hvalid : validate "state-pointer" p.to_dict.sortKeys = .ok ())
    (hb : Serialize.canonical_bytes p.to_dict = .ok body) : parse_state_pointer validate body = .ok p := by
  have hobject := object_canonical "state pointer" ((clean_iff _).1 p.to_dict_clean).1 hb
  have hvalue : validate "state-pointer" (.obj (wireFields (StatePointer.asdict p.toStatePointerFields))) = .ok () :=
    hvalid
  rw [parse_state_pointer, hobject, except_ok_bind, hvalue, except_ok_bind, obj_obj, except_ok_bind]
  exact p.ofKwargs_wire

theorem parse_manifest_canonical {m : PublicationManifest} {body : ByteArray}
    (hvalid : validate "publication-manifest" m.to_dict.sortKeys = .ok ())
    (hb : Serialize.canonical_bytes m.to_dict = .ok body) : parse_manifest validate body = .ok m.read := by
  have hobject := object_canonical "publication manifest" m.to_dict_distinct hb
  have hvalue : validate "publication-manifest"
      (.obj (wireFields (PublicationManifest.asdict m.toPublicationManifestFields))) = .ok () := hvalid
  have hn := PublicationManifest.nodup_asdict m.toPublicationManifestFields
  have hartifacts : (wireFields (PublicationManifest.asdict m.toPublicationManifestFields)).lookup "artifacts" =
      some (Json.arr (m.artifacts.map fun a => .obj (Artifact.asdict a.toArtifactFields))).wire := by
    rw [lookup_wire hn]
    rfl
  have hqueue : (wireFields (PublicationManifest.asdict m.toPublicationManifestFields)).lookup "gc_queue" =
      some (Json.arr (m.gc_queue.map fun e => .obj (GcQueueEntry.asdict e.toGcQueueEntryFields))).wire := by
    rw [lookup_wire hn]
    rfl
  have hread : list Artifact.ofItem
      (Json.arr (m.artifacts.map fun a => .obj (Artifact.asdict a.toArtifactFields))).wire = .ok m.artifacts :=
    list_wire Artifact.ofItem_wire _
  have hread' : list GcQueueEntry.ofItem
      (Json.arr (m.gc_queue.map fun e => .obj (GcQueueEntry.asdict e.toGcQueueEntryFields))).wire = .ok m.gc_queue :=
    list_wire GcQueueEntry.ofItem_wire _
  rw [wire_arr] at hartifacts hqueue hread hread'
  rw [list] at hread hread'
  rw [parse_manifest, hobject, except_ok_bind, hvalue, except_ok_bind, obj_obj, except_ok_bind]
  simp only [hartifacts, hqueue, Option.getD_some, except_ok_bind, hread, hread']
  exact m.ofKwargs_wire

end

/-- Equal bytes are read alike. -/
theorem wire_injective {fs gs : List (String × Json)} {body : ByteArray}
    (hd : (Json.obj fs).dropNone.distinct = true) (hd' : (Json.obj gs).dropNone.distinct = true)
    (hb : Serialize.canonical_bytes (Json.obj fs).dropNone = .ok body)
    (hb' : Serialize.canonical_bytes (Json.obj gs).dropNone = .ok body) : wireFields fs = wireFields gs := by
  have h := (object_canonical "" hd hb).symm.trans (object_canonical "" hd' hb')
  exact Json.obj.inj (Except.ok.inj h)

theorem pointer_injective {p q : StatePointer} {body : ByteArray}
    (hb : Serialize.canonical_bytes p.to_dict = .ok body) (hb' : Serialize.canonical_bytes q.to_dict = .ok body) :
    p = q := by
  have hwire := wire_injective ((clean_iff _).1 p.to_dict_clean).1 ((clean_iff _).1 q.to_dict_clean).1 hb hb'
  have hp := p.ofKwargs_wire
  rw [hwire] at hp
  exact Except.ok.inj (hp.symm.trans q.ofKwargs_wire)

theorem manifest_injective {m n : PublicationManifest} (hm : (Json.obj m.apt_metadata.fields).noNulls = true)
    (hn : (Json.obj n.apt_metadata.fields).noNulls = true) {body : ByteArray}
    (hb : Serialize.canonical_bytes m.to_dict = .ok body) (hb' : Serialize.canonical_bytes n.to_dict = .ok body) :
    m.Equal n := by
  have hread : m.read = n.read := by
    have h := @parse_manifest_canonical (fun _ _ => .ok ()) m body rfl hb
    have h' := @parse_manifest_canonical (fun _ _ => .ok ()) n body rfl hb'
    exact Except.ok.inj (h.symm.trans h')
  have h := PublicationManifest.read_equal hm
  rw [hread] at h
  exact h.symm.trans (PublicationManifest.read_equal hn)

/-- **The signed records round trip**: a manifest without nulls in its mapping, a state pointer and a
lease record of the current schema are read back equal from their canonical bytes, and no others have
these bytes. -/
theorem records_round_trip (validate : String → Json → Except PyErr Unit) :
    (∀ m : PublicationManifest, (Json.obj m.apt_metadata.fields).noNulls = true →
      ((Json.obj m.apt_metadata.fields).rejectFloats = false →
        ∃ body, Serialize.canonical_bytes m.to_dict = .ok body) ∧
      (validate "publication-manifest" m.to_dict.sortKeys = .ok () →
        ∀ body, Serialize.canonical_bytes m.to_dict = .ok body →
          ∃ n, parse_manifest validate body = .ok n ∧ n.Equal m) ∧
      ∀ n : PublicationManifest, (Json.obj n.apt_metadata.fields).noNulls = true → ∀ body,
        Serialize.canonical_bytes m.to_dict = .ok body → Serialize.canonical_bytes n.to_dict = .ok body →
          m.Equal n) ∧
    (∀ p : StatePointer, (validate "state-pointer" p.to_dict.sortKeys = .ok () →
        ∃ body, Serialize.canonical_bytes p.to_dict = .ok body ∧ parse_state_pointer validate body = .ok p) ∧
      ∀ q body, Serialize.canonical_bytes p.to_dict = .ok body →
        Serialize.canonical_bytes q.to_dict = .ok body → p = q) ∧
    ∀ r : LeaseRecord, (r.schema = "dkc.production-lease.v1" →
        ∃ body, Serialize.canonical_bytes r.to_dict = .ok body ∧ parse_lease body = .ok r) ∧
      ∀ s body, Serialize.canonical_bytes r.to_dict = .ok body →
        Serialize.canonical_bytes s.to_dict = .ok body → r = s := by
  refine ⟨fun m hm => ⟨fun hfloat => ?_, fun hvalid body hb => ?_, fun n hn body => manifest_injective hm hn⟩,
    fun p => ⟨fun hvalid => ?_, fun q body => pointer_injective⟩, fun r => ⟨fun hschema => ?_, fun s body => lease_injective⟩⟩
  · exact Serialize.canonical_bytes_ok ((clean_iff _).2 ⟨m.to_dict_distinct, PublicationManifest.to_dict_floats hfloat⟩)
  · exact ⟨m.read, parse_manifest_canonical hvalid hb, PublicationManifest.read_equal hm⟩
  · obtain ⟨body, hb⟩ := Serialize.canonical_bytes_ok p.to_dict_clean
    exact ⟨body, hb, parse_state_pointer_canonical hvalid hb⟩
  · obtain ⟨body, hb⟩ := Serialize.canonical_bytes_ok r.to_dict_clean
    exact ⟨body, hb, parse_lease_canonical hschema hb⟩

/-! ## A second generation -/

namespace Sample

def digest : String := "e3b0c44298fc1c149afbf4c8996fb92427ae41e4649b934ca495991b7852b855"

def artifact : Artifact :=
  ⟨⟨"pool/dkc.deb", digest, 0, "application/vnd.debian.binary-package", .immutable, none⟩, by decide +kernel⟩

def tombstone : GcQueueEntry := ⟨⟨"pool/old.deb", digest, 3, "left the live set", true⟩, by decide +kernel⟩

def manifest : PublicationManifest :=
  ⟨{ generation := 1, publication_id := "publish-2", transaction_id := "publish-2", source_version := "7.1.7-1",
     source_dsc_sha256 := digest, dkc_version := "7.1.7-1+dkc13.1", dkc_revision := 1,
     build_policy_sha256 := digest, lto_mode := .thin, build_id := "0123456789ab",
     retained_series := [[7, 1], [7, 0]], artifacts := [artifact], live_objects := ["pool/dkc.deb"],
     apt_metadata := ⟨[("suite", .str "trixie"), ("components", .arr [.str "main"])], by decide⟩,
     meta_packages := ⟨[("dkc-linux-image", "7.1.7-1+dkc13.1")], by decide⟩,
     created_utc := "2026-01-01T00:00:00Z", gc_queue := [tombstone],
     previous_publication := some ⟨"publish-1", 0⟩ }, by decide +kernel⟩

def pointer : StatePointer :=
  ⟨{ generation := 1, publication_id := "publish-2", manifest_key := "state/publications/publish-2/manifest.json",
     manifest_sha256 := digest, committed_utc := "2026-01-01T00:00:00Z", previous_generation := some 0 },
    by decide +kernel⟩

def lease : LeaseRecord :=
  ⟨{ status := .free, updated_utc := "2026-01-01T00:00:00Z", released_utc := some "2026-01-01T00:00:00Z" },
    by decide +kernel⟩

end Sample

theorem records_round_trip_sample :
    (∃ body n, Serialize.canonical_bytes Sample.manifest.to_dict = .ok body ∧
      parse_manifest (fun _ _ => .ok ()) body = .ok n ∧ n.Equal Sample.manifest) ∧
    (∃ body, Serialize.canonical_bytes Sample.pointer.to_dict = .ok body ∧
      parse_state_pointer (fun _ _ => .ok ()) body = .ok Sample.pointer) ∧
    ∃ body, Serialize.canonical_bytes Sample.lease.to_dict = .ok body ∧ parse_lease body = .ok Sample.lease := by
  obtain ⟨hmanifest, hpointer, hlease⟩ := records_round_trip fun _ _ => .ok ()
  obtain ⟨hbytes, hparse, -⟩ := hmanifest Sample.manifest (by decide)
  obtain ⟨body, hb⟩ := hbytes (by decide)
  obtain ⟨n, hn, heq⟩ := hparse rfl body hb
  exact ⟨⟨body, n, hb, hn, heq⟩, (hpointer Sample.pointer).1 rfl, (hlease Sample.lease).1 rfl⟩

end State
