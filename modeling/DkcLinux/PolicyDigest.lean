import DkcLinux.Order.PrefixCode
import DkcLinux.SourceProfile
import DkcLinux.PublicationIdentity

/-!
# Policy digests (`dkc/buildpolicy.py`, `dkc/validationpolicy.py`, `scripts/in-container/build-signed-repository.py:46-72`)

A policy is a list of tracked files. Its digest is that of one byte stream: for every file the length of the name, the name,
the length of the content and the content, each length in eight bytes. A signed publication is identified in the same way by
a prefix and three payloads. A word of the stream ends where its length says, whatever follows, so a stream is the stream of
one list only (`framing_injective`).

| what is hashed | the words |
|---|---|
| `build_policy_digest` | a name and the bytes of the file, for every path in the order of the paths |
| `validation_policy_digest` | the same, the bytes read in chunks and their number asked before |
| `signed_publication_ids` | the request, `InRelease` and `Release.gpg` |
-/

open Py SourceProfile

namespace Policy

abbrev Bytes := List UInt8

/-! ## Frames -/

/-- `n.to_bytes(8, "big")`. -/
def to_bytes (n : Nat) : Except PyErr Bytes :=
  if n < 2 ^ 64 then .ok ((PrefixCode.bigEndian 256 8 n).map UInt8.ofNat) else .error .OverflowError

/-- The length of a payload, and the payload. -/
def framed (payload : Bytes) : Except PyErr Bytes := do
  let size ← to_bytes payload.length
  return size ++ payload

/-- What `build_policy_digest` feeds for a name and a payload. -/
def policy_frame (input : Bytes × Bytes) : Except PyErr Bytes := do
  let relative ← framed input.1
  let payload ← framed input.2
  return relative ++ payload

/-- `stream.read(1024 * 1024)` until it is empty. -/
def read_chunks (stream : Bytes) : List Bytes :=
  if _h : stream = [] then [] else stream.take (1024 * 1024) :: read_chunks (stream.drop (1024 * 1024))
termination_by stream.length
decreasing_by
  have hpos := List.length_pos_iff.2 _h
  rw [List.length_drop]
  omega

/-- What `validation_policy_digest` feeds; `st_size` is the length of the file. -/
def validation_frame (input : Bytes × Bytes) : Except PyErr Bytes := do
  let relative ← framed input.1
  let size ← to_bytes input.2.length
  return relative ++ (size ++ (read_chunks input.2).flatten)

/-- The whole stream. -/
def policy_stream (frame : Bytes × Bytes → Except PyErr Bytes) (inputs : List (Bytes × Bytes)) : Except PyErr Bytes := do
  let frames ← inputs.mapM frame
  return frames.flatten

/-! ## Policies -/

/-- What the file system answers about paths below the root. -/
structure Checkout where
  /-- What `load_profiles` reads. -/
  registry : String → Option Node
  /-- The names in a directory. -/
  iterdir : String → List String
  /-- `rglob("*")`: the paths below a directory. -/
  rglob : String → List String
  /-- The bytes of a path that is a file. -/
  read_bytes : String → Option Bytes

namespace Checkout

def is_file (root : Checkout) (path : String) : Bool := (root.read_bytes path).isSome

/-- `(root / directory).glob("*" + suffix)`. -/
def glob (root : Checkout) (directory suffix : String) : List String :=
  ((root.iterdir directory).filter (endswith · suffix)).map fun name => directory ++ "/" ++ name

end Checkout

/-- `SourceProfile.build_policy_paths`. -/
def profile_build_paths (root : Checkout) (profile : SourceProfile) : List String :=
  (PROFILE_ROOT ++ "/" ++ profile.profile_id ++ "/" ++ BUILD_FILE) ::
    root.glob (OVERLAY_ROOT ++ "/" ++ profile.profile_id) ".patch"

/-- `SourceProfile.validation_policy_paths`. -/
def profile_validation_paths (root : Checkout) (profile : SourceProfile) : List String :=
  (PROFILE_ROOT ++ "/" ++ profile.profile_id ++ "/" ++ VALIDATION_FILE) ::
    root.glob (KSELFTEST_PATCH_ROOT ++ "/" ++ profile.profile_id) ".patch"

/-- `sorted(set(relative))`, if all of them are files. -/
def tracked (root : Checkout) (absent : String) (relative : List String) : Except PyErr (List String) :=
  let paths := relative.dedup.insertionSort fun a b => a ≤ b
  let missing := paths.filter fun path => !root.is_file path
  if missing ≠ [] then .error (.ValueError absent missing) else .ok paths

def BUILD_POLICY_INPUTS : List String :=
  ["dkc/buildid.py", "dkc/buildpolicy.py", "dkc/debver.py", "dkc/flavors.py", "dkc/naming.py", "dkc/serialize.py",
    "dkc/sourcepackage.py", "dkc/sourceprofile.py", "dkc/tarmetadata.py", "config/base-image.lock", "config/toolchain.env",
    "container/Containerfile.build", "container/build-patched-packages.py", "container/patched-packages.toml",
    "scripts/build-one.sh", "scripts/lib/podman-image.sh", "scripts/in-container/audit-source-package.py",
    "scripts/in-container/build-source-package.sh", "scripts/in-container/generate-overlay-patches.py",
    "scripts/in-container/normalize-quilt-patch.py", "scripts/in-container/prepare-build-identity.py",
    "scripts/in-container/prepare-attestation-replay.sh", "scripts/in-container/verify-replay-elf.py",
    "scripts/in-container/prepare-flavor.py", "scripts/in-container/prepare-source-tree.py",
    "scripts/in-container/run-one-build.sh"]

def VALIDATION_POLICY_INPUTS : List String :=
  ["config/qemu-cpus.env", "config/qemu-image.env", "dkc/evidence.py", "dkc/release_cache.py", "dkc/sourcepatch.py",
    "dkc/sourceprofile.py", "dkc/validationpolicy.py", "mk/vm.mk", "scripts/build-kselftest-flavor.sh",
    "scripts/dkc-cpu-select", "scripts/fetch-qemu-image.sh", "scripts/github-prepare-kvm.sh",
    "scripts/in-container/attest-one-build.py", "scripts/in-container/audit-kbuild-commands.py",
    "scripts/in-container/audit-kernel-simd.py", "scripts/in-container/build-kselftest-flavor.sh",
    "scripts/in-container/build-kselftest.sh", "scripts/in-container/finalize-one-build.sh",
    "scripts/in-container/lock-build-environment.py", "scripts/in-container/prepare-attestation-replay.sh",
    "scripts/in-container/prepare-qemu-inputs.sh", "scripts/in-container/stage-one-build.sh",
    "scripts/in-container/verify-replay-elf.py", "scripts/lib/common.sh", "scripts/lib/podman-image.sh",
    "scripts/qemu-boot.sh", "scripts/qemu-preflight.sh"]

def VALIDATION_POLICY_TREES : List String :=
  ["tests/integration/dkms-fixture", "tests/integration/kselftest-wrappers", "tests/integration/qemu"]

/-- `build_policy_paths`. -/
def build_policy_paths (root : Checkout) (source_version : String) : Except PyErr (List String) := do
  let profile ← select_profile root.registry source_version
  tracked root "build-policy inputs are absent" (BUILD_POLICY_INPUTS ++ profile_build_paths root profile ++
    (root.glob "debian-overlay/source" "").filter root.is_file ++ root.glob "config/flavors" ".toml")

/-- `validation_policy_paths`. -/
def validation_policy_paths (root : Checkout) (source_version : String) : Except PyErr (List String) := do
  let profile ← select_profile root.registry source_version
  tracked root "validation-policy inputs are absent" (VALIDATION_POLICY_INPUTS ++ profile_validation_paths root profile ++
    VALIDATION_POLICY_TREES.flatMap fun directory => (root.rglob directory).filter root.is_file)

/-- The relative name in UTF-8, and the bytes. -/
def read_input (root : Checkout) (path : String) : Except PyErr (Bytes × Bytes) :=
  match root.read_bytes path with
  | some payload => .ok (path.toUTF8.data.toList, payload)
  | none => .error .OSError

def stream_of (root : Checkout) (frame : Bytes × Bytes → Except PyErr Bytes) (paths : List String) :
    Except PyErr ByteArray := do
  let inputs ← paths.mapM (read_input root)
  let stream ← policy_stream frame inputs
  return stream.toByteArray

/-- The bytes that `build_policy_digest` hashes. -/
def build_policy_stream (root : Checkout) (source_version : String) : Except PyErr ByteArray := do
  stream_of root policy_frame (← build_policy_paths root source_version)

def validation_policy_stream (root : Checkout) (source_version : String) : Except PyErr ByteArray := do
  stream_of root validation_frame (← validation_policy_paths root source_version)

section Digests
variable (hexdigest : ByteArray → String)

/-- `build_policy_digest`. -/
def build_policy_digest (root : Checkout) (source_version : String) : Except PyErr String :=
  (build_policy_stream root source_version).map hexdigest

/-- `validation_policy_digest`. -/
def validation_policy_digest (root : Checkout) (source_version : String) : Except PyErr String :=
  (validation_policy_stream root source_version).map hexdigest

/-- `b"dkc-signed-publication-v1\0"`. -/
def SIGNED_PUBLICATION : Bytes := "dkc-signed-publication-v1\x00".toUTF8.data.toList

/-- What identifies a signed publication. -/
def signed_publication_stream (request inrelease release_signature : Bytes) : Except PyErr Bytes := do
  let frames ← [request, inrelease, release_signature].mapM framed
  return SIGNED_PUBLICATION ++ frames.flatten

/-- `signed_publication_ids`: the publication and the transaction. -/
def signed_publication_ids (stamp : String) (generation : Int) (request inrelease release_signature : Bytes) :
    Except PyErr (String × String) := do
  if !fullmatchClass isAsciiDigit 8 (some 8) stamp.toList || generation < 0 then
    throw (.ValueError "publication identity inputs are invalid")
  let stream ← signed_publication_stream request inrelease release_signature
  let suffix := String.ofList ((hexdigest stream.toByteArray).toList.take 16)
  return (stamp ++ "-p" ++ suffix ++ "-g" ++ toString generation, stamp ++ "-t" ++ suffix ++ "-g" ++ toString generation)

end Digests

/-! ## The words of a stream -/

/-- What `to_bytes` writes of a number below 2 ^ 64. -/
def sizeBytes (n : Nat) : Bytes := (PrefixCode.bigEndian 256 8 n).map UInt8.ofNat

def frame (payload : Bytes) : Bytes := sizeBytes payload.length ++ payload

def entry (input : Bytes × Bytes) : Bytes := frame input.1 ++ frame input.2

/-- Shorter than 2 ^ 64. -/
def Short (payload : Bytes) : Prop := payload.length < 2 ^ 64

theorem length_sizeBytes (n : Nat) : (sizeBytes n).length = 8 := by
  rw [sizeBytes, List.length_map, PrefixCode.length_bigEndian]

/-- The bytes are the digits in the base 256. -/
theorem toNat_sizeBytes (n : Nat) : (sizeBytes n).map UInt8.toNat = PrefixCode.bigEndian 256 8 n := by
  rw [sizeBytes, List.map_map]
  conv_rhs => rw [← List.map_id (PrefixCode.bigEndian 256 8 n)]
  refine List.map_congr_left fun d hd => ?_
  exact UInt8.toNat_ofNat_of_lt' (PrefixCode.bigEndian_lt (by decide) 8 n d hd)

theorem sizes_instantaneous : PrefixCode.Instantaneous (· < 2 ^ 64) sizeBytes := by
  refine .of_length length_sizeBytes fun n m hn hm h => ?_
  have hpow : (256 : Nat) ^ 8 = 2 ^ 64 := by norm_num
  have hdigits : PrefixCode.bigEndian 256 8 n = PrefixCode.bigEndian 256 8 m := by
    rw [← toNat_sizeBytes, h, toNat_sizeBytes]
  exact PrefixCode.bigEndian_injective (hpow ▸ hn) (hpow ▸ hm) hdigits

theorem frames_instantaneous : PrefixCode.Instantaneous Short frame := sizes_instantaneous.framed

theorem entries_instantaneous : PrefixCode.Instantaneous (fun input => Short input.1 ∧ Short input.2) entry :=
  frames_instantaneous.pair frames_instantaneous

theorem entry_ne_nil (input : Bytes × Bytes) : entry input ≠ [] := by
  intro h
  have hlength := congrArg List.length h
  rw [entry, frame, List.length_append, List.length_append, length_sizeBytes, List.length_nil] at hlength
  omega

/-! ## What is fed -/

theorem to_bytes_eq_ok {n : Nat} {size : Bytes} : to_bytes n = .ok size ↔ n < 2 ^ 64 ∧ size = sizeBytes n := by
  rw [to_bytes, ← sizeBytes]
  by_cases h : n < 2 ^ 64
  · rw [if_pos h, Except.ok.injEq, eq_comm, and_iff_right h]
  · rw [if_neg h]
    constructor
    · intro herror
      cases herror
    · intro hsize
      exact absurd hsize.1 h

theorem framed_eq_ok {payload word : Bytes} : framed payload = .ok word ↔ Short payload ∧ word = frame payload := by
  unfold framed
  simp only [except_bind_eq_ok, to_bytes_eq_ok, except_pure, Except.ok.injEq]
  constructor
  · rintro ⟨size, ⟨hshort, rfl⟩, rfl⟩
    exact ⟨hshort, rfl⟩
  · rintro ⟨hshort, rfl⟩
    exact ⟨_, ⟨hshort, rfl⟩, rfl⟩

theorem policy_frame_eq_ok {input : Bytes × Bytes} {word : Bytes} :
    policy_frame input = .ok word ↔ (Short input.1 ∧ Short input.2) ∧ word = entry input := by
  unfold policy_frame
  simp only [except_bind_eq_ok, framed_eq_ok, except_pure, Except.ok.injEq]
  constructor
  · rintro ⟨relative, ⟨hname, rfl⟩, payload, ⟨hpayload, rfl⟩, rfl⟩
    exact ⟨⟨hname, hpayload⟩, rfl⟩
  · rintro ⟨⟨hname, hpayload⟩, rfl⟩
    exact ⟨_, ⟨hname, rfl⟩, _, ⟨hpayload, rfl⟩, rfl⟩

theorem flatten_read_chunks (stream : Bytes) : (read_chunks stream).flatten = stream := by
  induction stream using read_chunks.induct with
  | case1 =>
    rw [read_chunks, dif_pos rfl]
    rfl
  | case2 stream h ih => rw [read_chunks, dif_neg h, List.flatten_cons, ih, List.take_append_drop]

/-- Chunk by chunk, the same word. -/
theorem validation_frame_eq : validation_frame = policy_frame := by
  funext input
  rw [validation_frame, policy_frame]
  simp only [framed, flatten_read_chunks, bind_assoc, except_pure, except_ok_bind]

/-- A loop over values, each of which has one answer or none. -/
theorem except_mapM_eq_ok {ε α β : Type} {f : α → Except ε β} {P : α → Prop} {g : α → β}
    (h : ∀ x y, f x = .ok y ↔ P x ∧ y = g x) : ∀ {xs : List α} {ys : List β},
      xs.mapM f = .ok ys ↔ (∀ x ∈ xs, P x) ∧ ys = xs.map g
  | [], ys => by simp [eq_comm]
  | x :: xs, ys => by
    simp only [List.mapM_cons, except_bind_eq_ok, h, except_mapM_eq_ok h, except_pure, Except.ok.injEq]
    constructor
    · rintro ⟨_, ⟨hx, rfl⟩, _, ⟨hxs, rfl⟩, rfl⟩
      exact ⟨List.forall_mem_cons.2 ⟨hx, hxs⟩, rfl⟩
    · rintro ⟨hall, rfl⟩
      rw [List.forall_mem_cons] at hall
      exact ⟨_, ⟨hall.1, rfl⟩, _, ⟨hall.2, rfl⟩, rfl⟩

theorem policy_stream_eq_ok {inputs : List (Bytes × Bytes)} {stream : Bytes} :
    policy_stream policy_frame inputs = .ok stream ↔
      (∀ input ∈ inputs, Short input.1 ∧ Short input.2) ∧ stream = inputs.flatMap entry := by
  unfold policy_stream
  simp only [except_bind_eq_ok, except_pure, Except.ok.injEq, except_mapM_eq_ok fun _ _ => policy_frame_eq_ok]
  constructor
  · rintro ⟨_, ⟨hshort, rfl⟩, rfl⟩
    exact ⟨hshort, rfl⟩
  · rintro ⟨hshort, rfl⟩
    exact ⟨_, ⟨hshort, rfl⟩, rfl⟩

/-- One list for a stream. -/
theorem policy_stream_injective {inputs inputs' : List (Bytes × Bytes)} {stream : Bytes}
    (h : policy_stream policy_frame inputs = .ok stream) (h' : policy_stream policy_frame inputs' = .ok stream) :
    inputs = inputs' := by
  obtain ⟨hshort, hstream⟩ := policy_stream_eq_ok.1 h
  obtain ⟨hshort', hstream'⟩ := policy_stream_eq_ok.1 h'
  exact entries_instantaneous.list entry_ne_nil hshort hshort' (hstream.symm.trans hstream')

theorem signed_publication_stream_eq_ok {request inrelease release_signature stream : Bytes} :
    signed_publication_stream request inrelease release_signature = .ok stream ↔
      (Short request ∧ Short inrelease ∧ Short release_signature) ∧
        stream = SIGNED_PUBLICATION ++ (frame request ++ (frame inrelease ++ frame release_signature)) := by
  unfold signed_publication_stream
  simp only [except_bind_eq_ok, except_pure, Except.ok.injEq, except_mapM_eq_ok fun _ _ => framed_eq_ok,
    List.forall_mem_cons, List.not_mem_nil, false_imp_iff, implies_true, and_true]
  constructor
  · rintro ⟨_, ⟨hshort, rfl⟩, rfl⟩
    exact ⟨hshort, by simp⟩
  · rintro ⟨hshort, rfl⟩
    exact ⟨_, ⟨hshort, rfl⟩, by simp⟩

/-- One triple for a stream. -/
theorem signed_publication_stream_injective {request inrelease release_signature request' inrelease' release_signature' stream : Bytes}
    (h : signed_publication_stream request inrelease release_signature = .ok stream)
    (h' : signed_publication_stream request' inrelease' release_signature' = .ok stream) :
    (request, inrelease, release_signature) = (request', inrelease', release_signature') := by
  obtain ⟨hshort, hstream⟩ := signed_publication_stream_eq_ok.1 h
  obtain ⟨hshort', hstream'⟩ := signed_publication_stream_eq_ok.1 h'
  have hframes := List.append_cancel_left (hstream.symm.trans hstream')
  exact (frames_instantaneous.pair (frames_instantaneous.pair frames_instantaneous)).injective hshort hshort' hframes

/-! ## Policies that share a digest -/

/-- The same paths, and the same bytes in each of them. -/
def SamePolicy (root root' : Checkout) (paths paths' : Except PyErr (List String)) : Prop :=
  ∃ names, paths = .ok names ∧ paths' = .ok names ∧ ∀ name ∈ names, root.read_bytes name = root'.read_bytes name

theorem read_input_eq_ok {root : Checkout} {path : String} {input : Bytes × Bytes} :
    read_input root path = .ok input ↔ input.1 = path.toUTF8.data.toList ∧ root.read_bytes path = some input.2 := by
  unfold read_input
  cases root.read_bytes path with
  | none => simp
  | some payload =>
    obtain ⟨name, content⟩ := input
    simp [eq_comm]

theorem utf8_injective {s t : String} (h : s.toUTF8.data.toList = t.toUTF8.data.toList) : s = t := by
  rw [Array.toList_inj, ← ByteArray.ext_iff, String.toUTF8_eq_toByteArray, String.toUTF8_eq_toByteArray] at h
  exact String.toByteArray_inj.1 h

/-- The inputs tell the paths and what is in them. -/
theorem read_inputs_unique {root root' : Checkout} {paths paths' : List String} {inputs : List (Bytes × Bytes)}
    (h : paths.mapM (read_input root) = .ok inputs) (h' : paths'.mapM (read_input root') = .ok inputs) :
    paths = paths' ∧ ∀ path ∈ paths, root.read_bytes path = root'.read_bytes path := by
  rw [except_mapM_ok_iff] at h h'
  induction h generalizing paths' with
  | nil =>
    cases h'
    exact ⟨rfl, by simp⟩
  | cons hread _ ih =>
    cases h' with
    | cons hread' hrest' =>
      obtain ⟨hname, hbytes⟩ := read_input_eq_ok.1 hread
      obtain ⟨hname', hbytes'⟩ := read_input_eq_ok.1 hread'
      obtain rfl := utf8_injective (hname.symm.trans hname')
      obtain ⟨rfl, hrest⟩ := ih hrest'
      exact ⟨rfl, List.forall_mem_cons.2 ⟨hbytes.trans hbytes'.symm, hrest⟩⟩

theorem stream_of_eq_ok {root : Checkout} {paths : List String} {stream : ByteArray} :
    stream_of root policy_frame paths = .ok stream ↔ ∃ inputs bytes, paths.mapM (read_input root) = .ok inputs ∧
      policy_stream policy_frame inputs = .ok bytes ∧ stream = bytes.toByteArray := by
  unfold stream_of
  simp only [except_bind_eq_ok, except_pure, Except.ok.injEq]
  constructor
  · rintro ⟨inputs, hread, bytes, hstream, rfl⟩
    exact ⟨inputs, bytes, hread, hstream, rfl⟩
  · rintro ⟨inputs, bytes, hread, hstream, rfl⟩
    exact ⟨inputs, hread, bytes, hstream, rfl⟩

theorem stream_of_injective {root root' : Checkout} {paths paths' : List String} {stream : ByteArray}
    (h : stream_of root policy_frame paths = .ok stream) (h' : stream_of root' policy_frame paths' = .ok stream) :
    paths = paths' ∧ ∀ path ∈ paths, root.read_bytes path = root'.read_bytes path := by
  obtain ⟨inputs, bytes, hread, hstream, rfl⟩ := stream_of_eq_ok.1 h
  obtain ⟨inputs', bytes', hread', hstream', hsame⟩ := stream_of_eq_ok.1 h'
  obtain rfl := List.toByteArray_inj.1 hsame
  obtain rfl := policy_stream_injective hstream hstream'
  exact read_inputs_unique hread hread'

theorem stream_of_congr {root root' : Checkout} {frame : Bytes × Bytes → Except PyErr Bytes} {paths : List String}
    (h : ∀ path ∈ paths, root.read_bytes path = root'.read_bytes path) :
    stream_of root frame paths = stream_of root' frame paths := by
  have hread : paths.mapM (read_input root) = paths.mapM (read_input root') := by
    induction paths with
    | nil => rfl
    | cons path paths ih =>
      rw [List.forall_mem_cons] at h
      rw [List.mapM_cons, List.mapM_cons, ih h.2, read_input, read_input, h.1]
  rw [stream_of, stream_of, hread]

section Shared
variable {root root' : Checkout} {paths paths' : Except PyErr (List String)}

/-- Two policies are hashed from one stream exactly if they are the same. -/
theorem streams_iff {stream stream' : ByteArray} (h : (paths >>= stream_of root policy_frame) = .ok stream)
    (h' : (paths' >>= stream_of root' policy_frame) = .ok stream') : stream = stream' ↔ SamePolicy root root' paths paths' := by
  obtain ⟨names, rfl, hnames⟩ := except_bind_eq_ok.1 h
  obtain ⟨names', rfl, hnames'⟩ := except_bind_eq_ok.1 h'
  constructor
  · rintro rfl
    obtain ⟨rfl, hbytes⟩ := stream_of_injective hnames hnames'
    exact ⟨names, rfl, rfl, hbytes⟩
  · rintro ⟨_, hsame, hsame', hbytes⟩
    cases hsame
    cases hsame'
    exact Except.ok.inj (hnames.symm.trans ((stream_of_congr hbytes).trans hnames'))

/-- A digest without collisions tells the streams apart. -/
theorem digests_iff {hexdigest : ByteArray → String} {digest digest' : String}
    (h : (paths >>= stream_of root policy_frame).map hexdigest = .ok digest)
    (h' : (paths' >>= stream_of root' policy_frame).map hexdigest = .ok digest')
    (hfree : BuildId.CollisionFree hexdigest (paths >>= stream_of root policy_frame) (paths' >>= stream_of root' policy_frame)) :
    digest = digest' ↔ SamePolicy root root' paths paths' := by
  cases hs : paths >>= stream_of root policy_frame with
  | error e =>
    rw [hs] at h
    cases h
  | ok stream =>
    cases ht : paths' >>= stream_of root' policy_frame with
    | error e =>
      rw [ht] at h'
      cases h'
    | ok stream' =>
      rw [hs] at h
      rw [ht] at h'
      cases h
      cases h'
      rw [← streams_iff hs ht]
      constructor
      · exact hfree stream stream' hs ht
      · rintro rfl
        rfl

end Shared

/-- **The framing is injective.** One list of names and payloads for a stream, and one triple; so two policies share a digest
without collisions exactly if they have the same names and the same bytes in the same order. -/
theorem framing_injective (hexdigest : ByteArray → String) :
    (∀ inputs inputs' : List (Bytes × Bytes), (∀ x ∈ inputs, Short x.1 ∧ Short x.2) → (∀ x ∈ inputs', Short x.1 ∧ Short x.2) →
      policy_stream policy_frame inputs = policy_stream policy_frame inputs' → inputs = inputs') ∧
    (∀ request inrelease release_signature request' inrelease' release_signature' : Bytes,
      Short request ∧ Short inrelease ∧ Short release_signature → Short request' ∧ Short inrelease' ∧ Short release_signature' →
      signed_publication_stream request inrelease release_signature =
        signed_publication_stream request' inrelease' release_signature' →
      (request, inrelease, release_signature) = (request', inrelease', release_signature')) ∧
    (∀ (root root' : Checkout) (version version' digest digest' : String),
      build_policy_digest hexdigest root version = .ok digest → build_policy_digest hexdigest root' version' = .ok digest' →
      BuildId.CollisionFree hexdigest (build_policy_stream root version) (build_policy_stream root' version') →
      (digest = digest' ↔ SamePolicy root root' (build_policy_paths root version) (build_policy_paths root' version'))) ∧
    (∀ (root root' : Checkout) (version version' digest digest' : String),
      validation_policy_digest hexdigest root version = .ok digest →
      validation_policy_digest hexdigest root' version' = .ok digest' →
      BuildId.CollisionFree hexdigest (validation_policy_stream root version) (validation_policy_stream root' version') →
      (digest = digest' ↔
        SamePolicy root root' (validation_policy_paths root version) (validation_policy_paths root' version'))) := by
  refine ⟨?_, ?_, ?_, ?_⟩
  · intro inputs inputs' hshort hshort' hsame
    have hstream := policy_stream_eq_ok.2 ⟨hshort, rfl⟩
    exact policy_stream_injective hstream (hsame ▸ hstream)
  · intro request inrelease release_signature request' inrelease' release_signature' hshort hshort' hsame
    have hstream := signed_publication_stream_eq_ok.2 ⟨hshort, rfl⟩
    exact signed_publication_stream_injective hstream (hsame ▸ hstream)
  · intro root root' version version' digest digest' h h' hfree
    exact digests_iff h h' hfree
  · intro root root' version version' digest digest' h h' hfree
    simp only [validation_policy_digest, validation_policy_stream, validation_frame_eq] at h h' hfree
    exact digests_iff h h' hfree

namespace Sample

/-- Every path is a file with these bytes. -/
def checkout (bytes : Bytes) : Checkout where
  registry := SourceProfile.Sample.root
  iterdir := fun _ => []
  rglob := fun _ => []
  read_bytes := fun _ => some bytes

theorem stream : ∃ s, build_policy_stream (checkout [1]) "7.1.8-1" = .ok s ∧ s ≠ .empty := by
  have hsome : (build_policy_stream (checkout [1]) "7.1.8-1").toOption.any (·.data ≠ #[]) = true := by decide +kernel
  cases hs : build_policy_stream (checkout [1]) "7.1.8-1" with
  | error e =>
    rw [hs] at hsome
    cases hsome
  | ok s =>
    rw [hs] at hsome
    refine ⟨s, rfl, ?_⟩
    rintro rfl
    cases hsome

theorem not_same : ¬ SamePolicy (checkout [1]) (checkout [2]) (build_policy_paths (checkout [1]) "7.1.8-1")
    (build_policy_paths (checkout [2]) "7.1.8-1") := by
  rintro ⟨names, hnames, -, hbytes⟩
  obtain ⟨s, hs, hne⟩ := stream
  rw [build_policy_stream, hnames, except_ok_bind] at hs
  cases names with
  | nil =>
    cases hs
    exact hne rfl
  | cons name names => exact absurd (hbytes name List.mem_cons_self) (by simp [checkout])

end Sample

/-- A byte moved from the payload to the name, and two checkouts with other bytes in their files. -/
theorem framing_injective_moved :
    policy_stream policy_frame [([97], [98, 99])] ≠ policy_stream policy_frame [([97, 98], [99])] ∧
      build_policy_digest BuildId.Sample.hexdigest (Sample.checkout [1]) "7.1.8-1" ≠
        build_policy_digest BuildId.Sample.hexdigest (Sample.checkout [2]) "7.1.8-1" := by
  constructor
  · intro h
    have hsame := (framing_injective BuildId.Sample.hexdigest).1 _ _ (by simp [Short]) (by simp [Short]) h
    exact absurd hsame (by decide)
  · intro h
    obtain ⟨s, hs, -⟩ := Sample.stream
    have hdigest : build_policy_digest BuildId.Sample.hexdigest (Sample.checkout [1]) "7.1.8-1" =
        .ok (BuildId.Sample.hexdigest s) := by rw [build_policy_digest, hs, Except.map]
    have hiff := (framing_injective BuildId.Sample.hexdigest).2.2.1 _ _ _ _ _ _ hdigest (h ▸ hdigest)
      fun _ _ _ _ heq => BuildId.Sample.hexdigest_injective heq
    exact Sample.not_same (hiff.1 rfl)

end Policy
