import DkcLinux.GcRuns

/-!
# Tombstones from one generation to the next (`scripts/in-container/build-signed-repository.py:497-527, 629-645, 1033-1292`)

`assemble` collects the artifacts of a repository and retires what its predecessor had live: the request that it writes is
what `sign_handoff` makes the next manifest of.

| artifact of the predecessor              | next generation                    |
|------------------------------------------|------------------------------------|
| still in the repository                  | live                               |
| immutable, live, not in the repository   | queued, with its digest and size   |
| a key that is queued                     | queued, and `assemble` refuses it  |

`Permanent` is what this means for two generations of one chain, and for a collection of the earlier one.
-/

namespace SignedRepository

open Py

/-! ## Artifacts -/

/-- What a script ends with. -/
inductive Failure where
  | SystemExit (msg : String)
  | raised (e : PyErr)
deriving DecidableEq

/-- An exception that nothing catches. -/
def uncaught {α : Type} (x : Except PyErr α) : Except Failure α := x.mapError .raised

/-- An entry of a directory tree. -/
inductive PathEntry where
  | symlink
  | file (contents : ByteArray)
  | directory
  | special

/-- A directory: `sorted((root / prefix).rglob("*"))`, relative to `root / prefix`. -/
structure Root where
  path : String
  rglob : String → List (String × PathEntry)

section
-- `hashlib.sha256(...).hexdigest()` and `mimetypes.guess_type(...)[0]`
variable (hexdigest : ByteArray → String) (guess_type : String → Option String)

/-- `path.name`. -/
def name (key : String) : String := String.ofList ((key.toList.splitOn '/').getLastD [])

def media_type (key : String) : String :=
  if endswith (name key) ".deb" then "application/vnd.debian.binary-package"
  else if name key = "dkc-archive-keyring.gpg" then "application/pgp-keys"
  else if [".dsc", ".changes", ".buildinfo", ".asc", ".gpg"].any (endswith (name key)) then
    if [".asc", ".gpg"].any (endswith (name key)) then "application/pgp-signature" else "text/plain"
  else if endswith (name key) ".json" then "application/json"
  else if endswith (name key) ".xz" then "application/x-xz"
  else if endswith (name key) ".gz" then "application/gzip"
  else ((guess_type (name key)).filter (· ≠ "")).getD "application/octet-stream"

/-- `immutable` of `artifact_for`. -/
def isImmutable (key : String) : Bool := startswith key "pool/" || contains key "/by-hash/SHA256/"

def artifact_for (key : String) (contents : ByteArray) : Except PyErr Artifact :=
  Artifact.make {
    key := key
    sha256 := hexdigest contents
    size := contents.size
    media_type := media_type guess_type key
    cache_class := if isImmutable key then .immutable else .mutable }

/-- A loop body of `repository_artifact_records`. -/
def add_record (path : String) (records : List Artifact) (x : String × PathEntry) : Except PyErr (List Artifact) :=
  match x.2 with
  | .symlink => .error (.ValueError ("repository contains a symlink: " ++ path ++ "/" ++ x.1))
  | .file contents => do
    let artifact ← artifact_for hexdigest guess_type x.1 contents
    .ok (records ++ [artifact])
  | .directory => .ok records
  | .special => .error (.ValueError ("repository contains a special entry: " ++ path ++ "/" ++ x.1))

/-- The entries of a repository, under their keys. -/
def Root.entries (root : Root) : List (String × PathEntry) :=
  ["pool", "dists", "keys"].flatMap fun top => (root.rglob top).map fun x => (top ++ "/" ++ x.1, x.2)

def repository_artifact_records (root : Root) : Except PyErr (List Artifact) :=
  root.entries.foldlM (add_record hexdigest guess_type root.path) []

/-! ## The request and the manifest -/

/-- The fields of a signing request that decide which keys a manifest has, as they are read back. -/
structure Request where
  generation : Int
  artifacts : Json
  gc_queue : Json
  previous_publication : Option PreviousPublication

/-- A loop body of `assemble`; `tombstoned` is the set of the keys in `gc_queue`. -/
def retire (previous_manifest : PublicationManifest) (current_keys : List String) (gc_queue : List GcQueueEntry)
    (artifact : Artifact) : Except PyErr (List GcQueueEntry) :=
  if artifact.cache_class = .immutable ∧ artifact.key ∈ previous_manifest.live_objects ∧
      artifact.key ∉ current_keys ∧ artifact.key ∉ gc_queue.map (·.key) then do
    let entry ← GcQueueEntry.make {
      key := artifact.key
      sha256 := artifact.sha256
      size := artifact.size
      reason := "retired by the signed repository retention policy" }
    .ok (gc_queue ++ [entry])
  else .ok gc_queue

/-- `gc_queue` of `assemble`. -/
def tombstones (previous_manifest : Option PublicationManifest) (current_keys : List String) :
    Except Failure (List GcQueueEntry) :=
  let gc_queue := (previous_manifest.map (·.gc_queue)).getD []
  if current_keys.any (· ∈ gc_queue.map (·.key)) then
    .error (.SystemExit "a permanently tombstoned object became live again")
  else
    match previous_manifest with
    | none => .ok gc_queue
    | some previous => uncaught (previous.artifacts.foldlM (retire previous current_keys) gc_queue)

/-- The generation that a request may have. -/
def check_generation (previous_manifest : Option PublicationManifest) (generation : Int) : Except Failure Unit :=
  match previous_manifest with
  | some previous =>
    if generation ≠ previous.generation + 1 then
      .error (.SystemExit "repository generation does not follow the previous manifest")
    else .ok ()
  | none =>
    if generation ≠ 0 then .error (.SystemExit "non-bootstrap assembly requires the previous signed state") else .ok ()

/-- The part of `assemble` that follows the writing of the repository. -/
def assemble (previous_manifest : Option PublicationManifest) (generation : Int) (root : Root) : Except Failure Request := do
  check_generation previous_manifest generation
  let artifacts ← uncaught (repository_artifact_records hexdigest guess_type root)
  let gc_queue ← tombstones previous_manifest (artifacts.map (·.key))
  return {
    generation := generation
    artifacts := (Json.arr (artifacts.map fun a => .obj (Artifact.asdict a.toArtifactFields))).wire
    gc_queue := (Json.arr (gc_queue.map fun e => .obj (GcQueueEntry.asdict e.toGcQueueEntryFields))).wire
    previous_publication := previous_manifest.map fun previous => ⟨previous.publication_id, previous.generation⟩ }

/-- The manifest of `sign_handoff`, `rest` its other fields. -/
def sign_handoff (request : Request) (inrelease release_signature : ByteArray) (rest : PublicationManifestFields) :
    Except PyErr PublicationManifest := do
  let records ← Kwargs.list Artifact.ofItem request.artifacts
  let inrelease ← artifact_for hexdigest guess_type "dists/trixie/InRelease" inrelease
  let release_signature ← artifact_for hexdigest guess_type "dists/trixie/Release.gpg" release_signature
  let artifacts := records ++ [inrelease, release_signature]
  let gc_queue ← Kwargs.list GcQueueEntry.ofItem request.gc_queue
  PublicationManifest.make { rest with
    generation := request.generation
    artifacts := artifacts
    live_objects := artifacts.map (·.key)
    gc_queue := gc_queue
    previous_publication := request.previous_publication }

/-- `next` was assembled from its signed predecessor `previous`, and signed. -/
def Follows (previous next : PublicationManifest) : Prop :=
  ∃ generation root request inrelease release_signature rest,
    assemble hexdigest guess_type (some previous) generation root = .ok request ∧
      sign_handoff hexdigest guess_type request inrelease release_signature rest = .ok next

end

theorem uncaught_eq_ok {α : Type} {x : Except PyErr α} {a : α} : uncaught x = .ok a ↔ x = .ok a := by
  cases x <;> simp [uncaught, Except.mapError]

/-! ## One generation -/

section
variable {hexdigest : ByteArray → String} {guess_type : String → Option String}

/-- The class of an artifact is that of its key. -/
def Classed (a : Artifact) : Prop := a.cache_class = .immutable ↔ isImmutable a.key = true

theorem artifact_for_classed {key : String} {contents : ByteArray} {a : Artifact}
    (h : artifact_for hexdigest guess_type key contents = .ok a) : Classed a := by
  rw [Classed, Artifact.make_ok h]
  dsimp only
  split <;> simp [*]

/-- Every record of a repository is that of a file. -/
theorem records_mem {path : String} : ∀ {entries : List (String × PathEntry)} {records records' : List Artifact},
    entries.foldlM (add_record hexdigest guess_type path) records = .ok records' → ∀ a ∈ records', a ∈ records ∨
      ∃ key contents, (key, .file contents) ∈ entries ∧ artifact_for hexdigest guess_type key contents = .ok a
  | [], records, records', h => by
    cases h
    exact fun a ha => .inl ha
  | (key, entry) :: entries, records, records', h => by
    rw [List.foldlM_cons] at h
    obtain ⟨next, hnext, h⟩ := except_bind_eq_ok.1 h
    intro a ha
    rcases records_mem h a ha with hmem | ⟨key', contents, hmem, hartifact⟩
    · cases entry with
      | symlink => cases hnext
      | special => cases hnext
      | directory =>
        cases hnext
        exact .inl hmem
      | file contents =>
        obtain ⟨artifact, hartifact, hnext⟩ := except_bind_eq_ok.1 hnext
        cases hnext
        rcases List.mem_append.1 hmem with hmem | hmem
        · exact .inl hmem
        · rw [List.mem_singleton] at hmem
          exact .inr ⟨key, contents, List.mem_cons_self, hmem ▸ hartifact⟩
    · exact .inr ⟨key', contents, List.mem_cons_of_mem _ hmem, hartifact⟩

theorem repository_records {root : Root} {records : List Artifact}
    (h : repository_artifact_records hexdigest guess_type root = .ok records) : ∀ a ∈ records,
      ∃ key contents, (key, .file contents) ∈ root.entries ∧ artifact_for hexdigest guess_type key contents = .ok a :=
  fun a ha => (records_mem h a ha).resolve_left List.not_mem_nil

section
variable {previous : PublicationManifest} {current_keys : List String}

/-- What the loop does with one artifact: the queue grows, and the artifact stays or is queued. -/
theorem retire_ok {gc_queue result : List GcQueueEntry} {a : Artifact}
    (h : retire previous current_keys gc_queue a = .ok result) : gc_queue <+: result ∧
      (a.cache_class = .immutable → a.key ∈ previous.live_objects →
        a.key ∈ current_keys ∨ a.key ∈ result.map (·.key)) := by
  unfold retire at h
  split at h
  · next hretired =>
    obtain ⟨entry, hentry, h⟩ := except_bind_eq_ok.1 h
    cases h
    refine ⟨List.prefix_append _ _, fun _ _ => .inr ?_⟩
    have hkey : entry.key = a.key := by rw [GcQueueEntry.make_ok hentry]
    rw [List.map_append, List.mem_append]
    exact .inr (by simp [hkey])
  · next hstays =>
    cases h
    refine ⟨List.prefix_rfl, fun himmutable hlive => ?_⟩
    by_contra hneither
    obtain ⟨hcurrent, hqueued⟩ := not_or.1 hneither
    exact hstays ⟨himmutable, hlive, hcurrent, hqueued⟩

theorem retire_foldlM : ∀ {artifacts : List Artifact} {gc_queue result : List GcQueueEntry},
    artifacts.foldlM (retire previous current_keys) gc_queue = .ok result → gc_queue <+: result ∧
      ∀ a ∈ artifacts, a.cache_class = .immutable → a.key ∈ previous.live_objects →
        a.key ∈ current_keys ∨ a.key ∈ result.map (·.key)
  | [], gc_queue, result, h => by
    cases h
    exact ⟨List.prefix_rfl, by simp⟩
  | a :: artifacts, gc_queue, result, h => by
    rw [List.foldlM_cons] at h
    obtain ⟨next, hnext, h⟩ := except_bind_eq_ok.1 h
    obtain ⟨hbegins, hfirst⟩ := retire_ok hnext
    obtain ⟨hbegins', hrest⟩ := retire_foldlM h
    refine ⟨hbegins.trans hbegins', List.forall_mem_cons.2 ⟨fun himmutable hlive => ?_, hrest⟩⟩
    exact (hfirst himmutable hlive).imp_right fun hqueued => (hbegins'.map _).subset hqueued

end

/-- What a generation keeps of the one before. -/
structure Keeps (previous next : PublicationManifest) : Prop where
  queue : previous.gc_queue <+: next.gc_queue
  classed : ∀ a ∈ next.artifacts, Classed a
  live : ∀ a ∈ next.artifacts, a.key ∈ next.live_objects
  retired : ∀ a ∈ previous.artifacts, a.cache_class = .immutable → a.key ∈ previous.live_objects →
    a.key ∈ next.live_objects ∨ a.key ∈ next.queuedKeys

/-- What `assemble` writes down. -/
theorem assemble_ok {previous : PublicationManifest} {generation : Int} {root : Root} {request : Request}
    (h : assemble hexdigest guess_type (some previous) generation root = .ok request) :
    ∃ artifacts gc_queue, repository_artifact_records hexdigest guess_type root = .ok artifacts ∧
      previous.artifacts.foldlM (retire previous (artifacts.map (·.key))) previous.gc_queue = .ok gc_queue ∧
      request.artifacts = (Json.arr (artifacts.map fun a => .obj (Artifact.asdict a.toArtifactFields))).wire ∧
      request.gc_queue = (Json.arr (gc_queue.map fun e => .obj (GcQueueEntry.asdict e.toGcQueueEntryFields))).wire := by
  obtain ⟨_, -, h⟩ := except_bind_eq_ok.1 h
  obtain ⟨artifacts, hartifacts, h⟩ := except_bind_eq_ok.1 h
  obtain ⟨gc_queue, hqueue, h⟩ := except_bind_eq_ok.1 h
  cases h
  rw [tombstones, except_check_eq_ok] at hqueue
  exact ⟨artifacts, gc_queue, uncaught_eq_ok.1 hartifacts, uncaught_eq_ok.1 hqueue.2, rfl, rfl⟩

/-- What is signed of a request that `assemble` has written. -/
theorem sign_handoff_ok {request : Request} {inrelease release_signature : ByteArray} {rest : PublicationManifestFields}
    {next : PublicationManifest} {artifacts : List Artifact} {gc_queue : List GcQueueEntry}
    (hrecords : request.artifacts = (Json.arr (artifacts.map fun a => .obj (Artifact.asdict a.toArtifactFields))).wire)
    (hqueue : request.gc_queue =
      (Json.arr (gc_queue.map fun e => .obj (GcQueueEntry.asdict e.toGcQueueEntryFields))).wire)
    (h : sign_handoff hexdigest guess_type request inrelease release_signature rest = .ok next) :
    ∃ a b, artifact_for hexdigest guess_type "dists/trixie/InRelease" inrelease = .ok a ∧
      artifact_for hexdigest guess_type "dists/trixie/Release.gpg" release_signature = .ok b ∧
      next.artifacts = artifacts ++ [a, b] ∧ next.live_objects = next.artifacts.map (·.key) ∧ next.gc_queue = gc_queue := by
  rw [sign_handoff, hrecords, hqueue, Kwargs.list_wire Artifact.ofItem_wire, Kwargs.list_wire GcQueueEntry.ofItem_wire,
    except_ok_bind] at h
  obtain ⟨a, ha, h⟩ := except_bind_eq_ok.1 h
  obtain ⟨b, hb, h⟩ := except_bind_eq_ok.1 h
  rw [except_ok_bind] at h
  have hfields := PublicationManifest.make_ok h
  exact ⟨a, b, ha, hb, by rw [hfields], by rw [hfields], by rw [hfields]⟩

theorem Follows.keeps {previous next : PublicationManifest} (h : Follows hexdigest guess_type previous next) :
    Keeps previous next := by
  obtain ⟨generation, root, request, inrelease, release_signature, rest, hassemble, hsign⟩ := h
  obtain ⟨artifacts, gc_queue, hrecords, hretired, hartifacts, hqueue⟩ := assemble_ok hassemble
  obtain ⟨a, b, ha, hb, hall, hlive, hnext⟩ := sign_handoff_ok hartifacts hqueue hsign
  obtain ⟨hbegins, hretired⟩ := retire_foldlM hretired
  refine ⟨hnext ▸ hbegins, ?_, fun x hx => hlive ▸ List.mem_map_of_mem hx, fun x hx himmutable hx' => ?_⟩
  · rw [hall]
    refine List.forall_mem_append.2 ⟨fun x hx => ?_, ?_⟩
    · obtain ⟨key, contents, -, hx⟩ := repository_records hrecords x hx
      exact artifact_for_classed hx
    · exact List.forall_mem_cons.2 ⟨artifact_for_classed ha, List.forall_mem_singleton.2 (artifact_for_classed hb)⟩
  · rcases hretired x hx himmutable hx' with hstays | hqueued
    · rw [hlive, hall, List.map_append, List.mem_append]
      exact .inl (.inl hstays)
    · rw [PublicationManifestFields.queuedKeys, hnext]
      exact .inr hqueued

/-! ## Chains of generations -/

/-- An immutable key that a manifest has live, or has queued. -/
def Accounted (m : PublicationManifest) (key : String) : Prop :=
  (∃ a ∈ m.artifacts, a.key = key ∧ a.cache_class = .immutable ∧ key ∈ m.live_objects) ∨ key ∈ m.queuedKeys

/-- What every later generation keeps. -/
structure KeepsAll (earlier later : PublicationManifest) : Prop where
  queue : earlier.gc_queue <+: later.gc_queue
  accounted : ∀ key, isImmutable key = true → Accounted earlier key → Accounted later key

theorem KeepsAll.refl (m : PublicationManifest) : KeepsAll m m := ⟨List.prefix_rfl, fun _ _ h => h⟩

theorem KeepsAll.trans {a b c : PublicationManifest} (h : KeepsAll a b) (h' : KeepsAll b c) : KeepsAll a c :=
  ⟨h.queue.trans h'.queue, fun key hkey ha => h'.accounted key hkey (h.accounted key hkey ha)⟩

instance : Trans KeepsAll KeepsAll KeepsAll := ⟨KeepsAll.trans⟩

/-- One step of a chain. An artifact that stays has the class of its key again. -/
theorem Keeps.keepsAll {previous next : PublicationManifest} (h : Keeps previous next) : KeepsAll previous next where
  queue := h.queue
  accounted key hkey haccounted := by
    rcases haccounted with ⟨a, ha, rfl, himmutable, hlive⟩ | hqueued
    · rcases h.retired a ha himmutable hlive with hstays | hqueued
      · obtain ⟨b, hb, hbkey⟩ := List.mem_map.1 (next.keys_checked.2.2.1 _ hstays)
        refine .inl ⟨b, hb, hbkey, (h.classed b hb).2 (hbkey ▸ hkey), hstays⟩
      · exact .inr hqueued
    · exact .inr ((h.queue.map _).subset hqueued)

/-- A run of generations. -/
theorem keepsAll_of_chain {chain : List PublicationManifest} (h : chain.IsChain (Follows hexdigest guess_type)) (i j : Nat)
    (hij : i ≤ j) (hj : j < chain.length) : KeepsAll chain[i] chain[j] := by
  have hpairwise : chain.Pairwise KeepsAll := List.isChain_iff_pairwise.1 (h.imp fun _ _ hstep => hstep.keeps.keepsAll)
  rcases Nat.lt_or_eq_of_le hij with hlt | rfl
  · exact List.pairwise_iff_getElem.1 hpairwise i j (by omega) hj hlt
  · exact KeepsAll.refl _

variable (hexdigest) in
/-- What two generations of a chain, or a generation and itself, have to do with each other. -/
structure Permanent (earlier later : PublicationManifest) : Prop where
  queue : earlier.gc_queue <+: later.gc_queue
  apart : ∀ key ∈ later.live_objects, key ∉ later.queuedKeys
  accounted : ∀ a ∈ earlier.artifacts, a.cache_class = .immutable → isImmutable a.key = true →
    a.key ∈ earlier.live_objects → a.key ∈ later.live_objects ∨ a.key ∈ later.queuedKeys
  never_live : ∀ key ∈ earlier.queuedKeys, key ∉ later.live_objects
  /-- A collection of the earlier generation, whatever the store and the callables answer. -/
  collected : ∀ (w : Gc.Callables) (now : Nat) (caps : GcCaps) (key : String) (answer : Except PyErr Unit),
    Gc.Event.delete key answer ∈ (Gc.loggedAttempt hexdigest w earlier now caps).2 →
      Records.isGcKey key = true ∧ key ∉ later.live_objects

/-- **Tombstones are permanent.** In every chain of generations a tombstone stays, its key is never live again, and
what was live is live or queued; so a collection of any generation deletes nothing that a later one lists. -/
theorem tombstones_permanent {chain : List PublicationManifest} (h : chain.IsChain (Follows hexdigest guess_type))
    (i j : Nat) (hij : i ≤ j) (hj : j < chain.length) : Permanent hexdigest chain[i] chain[j] := by
  have hkeeps := keepsAll_of_chain h i j hij hj
  have hnever : ∀ key ∈ chain[i].queuedKeys, key ∉ chain[j].live_objects := fun key hkey hlive =>
    chain[j].live_not_queued hlive ((hkeeps.queue.map _).subset hkey)
  refine ⟨hkeeps.queue, fun key => chain[j].live_not_queued, fun a ha himmutable hkey hlive => ?_, hnever,
    fun w now caps key answer hdelete => ?_⟩
  · refine (hkeeps.accounted a.key hkey (.inl ⟨a, ha, rfl, himmutable, hlive⟩)).imp_left ?_
    rintro ⟨-, -, -, -, hlater⟩
    exact hlater
  · have hqueued := Gc.loggedAttempt_deletes hdelete
    obtain ⟨e, he, rfl⟩ := List.mem_map.1 hqueued
    exact ⟨e.isGcKey, hnever _ hqueued⟩

end

/-! A second package replaces the first, which has a tombstone already. -/

namespace Sample

def digest : ByteArray → String := fun _ => State.Sample.digest

def guess_type : String → Option String := fun _ => none

def root : Root := ⟨"/repository", fun top => if top = "pool" then [("new.deb", .file ⟨#[]⟩)] else []⟩

/-- The generation after the sample. -/
def signed : Except Failure PublicationManifest := do
  let request ← assemble digest guess_type (some State.Sample.manifest) 2 root
  uncaught (sign_handoff digest guess_type request ⟨#[]⟩ ⟨#[]⟩ { State.Sample.manifest.toPublicationManifestFields with
    publication_id := "publish-3"
    transaction_id := "publish-3" })

theorem follows {next : PublicationManifest} (h : signed = .ok next) :
    Follows digest guess_type State.Sample.manifest next := by
  obtain ⟨request, hrequest, h⟩ := except_bind_eq_ok.1 h
  exact ⟨2, root, request, _, _, _, hrequest, uncaught_eq_ok.1 h⟩

end Sample

theorem tombstones_permanent_replaced : ∃ next, Permanent Sample.digest State.Sample.manifest next ∧
    next.queuedKeys = ["pool/old.deb", "pool/dkc.deb"] ∧ "pool/new.deb" ∈ next.live_objects := by
  have hrun : (Sample.signed.toOption.map fun m => (m.queuedKeys, m.live_objects)) = some
      (["pool/old.deb", "pool/dkc.deb"], ["pool/new.deb", "dists/trixie/InRelease", "dists/trixie/Release.gpg"]) := by
    decide +kernel
  cases hsigned : Sample.signed with
  | error e =>
    rw [hsigned] at hrun
    cases hrun
  | ok next =>
    rw [hsigned] at hrun
    obtain ⟨hqueued, hlive⟩ := Prod.mk.inj (Option.some.inj hrun)
    have hchain : [State.Sample.manifest, next].IsChain (Follows Sample.digest Sample.guess_type) := by
      simpa using Sample.follows hsigned
    exact ⟨next, tombstones_permanent hchain 0 1 (by decide) (by simp), hqueued, by rw [hlive]; decide⟩

end SignedRepository
