import DkcLinux.StorageRepository
import DkcLinux.StoreSem
import DkcLinux.Text.Lines

/-!
# Disposable integration runs (`dkc/storage_disposable.py`, `dkc/storage_repository.py:286-316`)

A run puts a repository and a race of two conditional writes below a prefix of its own, and deletes what it finds there,
however it goes. The prefix is in the journal of the run: what a run that is cut has left is deleted by
`cleanup_disposable_prefix`, from the journal.

| here | there |
| --- | --- |
| `DisposableConfig.root` | `DisposableConfig.prefix` |
| `run`                   | `DisposableIntegration.run`; `one_first` says which write of the race the store takes first |
| `remove_all`            | the loop of `cleanup_disposable_prefix` |

* `isolation` — any number of runs in one bucket: their prefixes are apart, none of them touches anything else, and what
  ends, or is cleaned up, has left nothing.
* `passes` — what any server at all has answered to a run that passes.
* `qualifies` — a run passes on a store that answers, and takes conditional writes one after the other.
-/

open Py Records

structure IntegrationEvent where
  operation : String
  key : String
  status : String
  detail : String := ""
deriving DecidableEq

namespace Disposable

/-! ## Prefixes -/

/-- `_RUN_RE`. -/
def isRun (s : String) : Bool :=
  match s.toList with
  | [] => false
  | c :: cs => isAsciiAlnum c && fullmatchClass isRepositoryChar 0 (some 127) cs

/-- `_NONCE_RE`. -/
def isNonce (s : String) : Bool := fullmatchClass isLowerHex 32 (some 32) s.toList

/-- `_NAMESPACE_RE`. -/
def isNamespace (s : List Char) : Bool := fullmatchClass isLowerHex 24 (some 24) s

def marker : String := "_dkc-test/storage/"

section
-- `hashlib.sha256(...).hexdigest()`
variable (hexdigest : ByteArray → String)

def build_disposable_prefix (canonical_repository run_id nonce : String) : Except PyErr String := do
  if !isRepository canonical_repository then throw (.ValueError "canonical repository must be owner/repo")
  if !isRun run_id then throw (.ValueError "unsafe disposable run ID")
  if !isNonce nonce then throw (.ValueError "disposable nonce must be 16 random bytes in lowercase hex")
  let space := String.ofList ((hexdigest canonical_repository.toUTF8).toList.take 24)
  let path := marker ++ space ++ "/" ++ run_id ++ "-" ++ nonce ++ "/"
  if !startswith path marker || !contains path ("-" ++ nonce ++ "/") then throw .AssertionError
  return path

def validate_disposable_prefix (path : String) : Except PyErr String := do
  let unsafe_prefix := PyErr.ValueError "unsafe disposable storage prefix"
  if !startswith path marker || !endswith path "/" then throw unsafe_prefix
  match ((path.toList.drop marker.toList.length).dropLast).splitOn '/' with
  | [space, run_nonce] =>
    if !isNamespace space then throw unsafe_prefix
    if '-' ∉ run_nonce then throw unsafe_prefix
    let (run_id, nonce) := rpartition '-' run_nonce
    if marker.toList ++ space ++ '/' :: run_id ++ '-' :: nonce ++ ['/'] ≠ path.toList then throw unsafe_prefix
    return path
  | _ => throw unsafe_prefix

structure DisposableConfig where
  canonical_repository : String
  run_id : String
  nonce : String
  root : String
  valid : build_disposable_prefix hexdigest canonical_repository run_id nonce = .ok root

end

/-! ## Cleanup -/

section
variable {σ : Type}

/-- `list_keys`. -/
def list_keys (under : String) : Cmd σ (List String) := do return (← Cmd.list_objects under).map (·.1)

def remove_all (path : String) : List String → Cmd σ (List IntegrationEvent)
  | [] => return []
  | key :: keys => do
    if !startswith key path then throw (.RuntimeError "cleanup listing escaped the disposable prefix")
    Cmd.delete key
    let events ← remove_all path keys
    return ⟨"cleanup-delete", key, "2xx", ""⟩ :: events

def cleanup_disposable_prefix (path : String) : Cmd σ (List IntegrationEvent) := do
  let _ ← validate_disposable_prefix path
  let events ← remove_all path (← list_keys path)
  let leftovers ← list_keys path
  if leftovers ≠ [] then throw (.RuntimeError ("disposable prefix cleanup left " ++ toString leftovers.length ++ " objects"))
  return events ++ [⟨"final-list", path, "PASS", "zero objects"⟩]

end

/-! ## A run -/

/-- The answer of `get` less its request: an object that has to be there. -/
def read_remote {σ : Type} (key : String) : Cmd σ StoredObject := do
  match ← Cmd.get key with
  | some remote => return remote
  | none => throw (.RemoteStoreError 404 ("GetObject " ++ key ++ " failed with HTTP 404: object is absent"))

def _verify_remote (key : String) (expected : ObjectValue) (remote : StoredObject) : Except PyErr Unit := do
  if remote.value.body ≠ expected.body then
    throw (.RuntimeError ("authoritative body verification failed for " ++ key))
  if remote.value.metadata ≠ expected.metadata then
    throw (.RuntimeError ("authoritative HTTP metadata verification failed for " ++ key))

def record (operation key status : String) (detail : String := "") : Cmd (List IntegrationEvent) Unit :=
  modify (· ++ [⟨operation, key, status, detail⟩])

/-- `metadata` of `_cas_probe`. -/
def probe_metadata : ObjectMetadata := ⟨"application/json", StorageRepository.MUTABLE_CACHE, by decide⟩

def initial : ObjectValue := ⟨"\x7b\"revision\":0\x7d\n".toUTF8, probe_metadata⟩

/-- What the two writers write. -/
def writer (name : String) : ObjectValue :=
  ⟨("\x7b\"revision\":1,\"writer\":\"" ++ name ++ "\"\x7d\n").toUTF8, probe_metadata⟩

/-- What a writer adds to `outcomes`, or to `failures`. -/
def update {σ : Type} (key : String) (etag : Nat) (value : ObjectValue) : Cmd σ (Except PyErr (String × ObjectValue)) :=
  tryCatch (do
    let _ ← Cmd.put key value (.ifMatch etag)
    return .ok ("2xx", value)) fun
    | .PreconditionFailed _ => return .ok ("412", value)
    | exc => return .error exc

section
-- `hashlib.sha256(...).hexdigest()`, and `str` of an exception
variable {hexdigest : ByteArray → String} (str : PyErr → String)

/-- What the race has written. -/
def winning (outcomes : List (Except PyErr (String × ObjectValue))) : Except PyErr ObjectValue := do
  let outcomes ← (outcomes.mapM id).mapError fun failure => .RuntimeError ("CAS writer failed: " ++ str failure)
  let statuses := (outcomes.map (·.1)).insertionSort (· ≤ ·)
  match statuses, outcomes.lookup "2xx" with
  | ["2xx", "412"], some value => return value
  | _, _ => throw (.RuntimeError ("CAS race produced unsafe outcomes: [" ++
    String.intercalate ", " (statuses.map fun status => "'" ++ status ++ "'") ++ "]"))

variable (config : DisposableConfig hexdigest) (one_first : Bool)

/-- A loop body of `_upload_repository`. -/
def upload (item : RepositoryObject) : Cmd (List IntegrationEvent) Unit := do
  let key := config.root ++ "repository/" ++ item.relative_key
  let body ← item.read hexdigest
  let _ ← Cmd.put key ⟨body, item.metadata⟩ .ifNoneMatch
  record "conditional-create" key "2xx" item.sha256
  let remote ← read_remote key
  _verify_remote key ⟨body, item.metadata⟩ remote
  if hexdigest remote.value.body ≠ item.sha256 then
    throw (.RuntimeError ("authoritative digest verification failed for " ++ key))
  record "authoritative-read" key "PASS" item.sha256

/-- The keys of the uploaded repository. -/
def uploaded (inventory : List RepositoryObject) : List String :=
  (inventory.map fun item => config.root ++ "repository/" ++ item.relative_key).insertionSort (· ≤ ·)

def _upload_repository (inventory : List RepositoryObject) : Cmd (List IntegrationEvent) Unit := do
  if inventory = [] then throw (.ValueError "verified repository inventory is empty")
  inventory.forM (upload config)
  let listed ← list_keys config.root
  if listed ≠ uploaded config inventory then
    throw (.RuntimeError "paginated repository listing differs from upload inventory")
  record "paginated-list" config.root "PASS" ("objects=" ++ toString listed.length ++ " page_size=10")

def _cas_probe : Cmd (List IntegrationEvent) Unit := do
  let key := config.root ++ "checks/cas.json"
  let created ← Cmd.put key initial .ifNoneMatch
  record "cas-create" key "2xx"
  let first ← update key created.etag (writer (if one_first then "one" else "two"))
  let second ← update key created.etag (writer (if one_first then "two" else "one"))
  let value ← winning str [first, second]
  let remote ← read_remote key
  _verify_remote key value remote
  record "cas-race" key "PASS" "one 2xx and one 412"

/-- The part of `run` whose exception is `primary_error`. -/
def qualify (inventory : List RepositoryObject) : Cmd (List IntegrationEvent) (Option PyErr) :=
  tryCatch (do
    _upload_repository config inventory
    _cas_probe str config one_first
    return none) fun exc => return some exc

def _cleanup : Cmd (List IntegrationEvent) Unit := do
  let events ← cleanup_disposable_prefix config.root
  modify (· ++ events)

def run (inventory : List RepositoryObject) : Cmd (List IntegrationEvent) (List IntegrationEvent) := do
  let preexisting ← list_keys config.root
  if preexisting ≠ [] then throw (.RuntimeError "disposable prefix was not empty before mutation")
  record "preflight-list" config.root "PASS" "zero objects"
  let primary_error ← qualify str config one_first inventory
  tryCatch (_cleanup config) fun cleanup_error =>
    match primary_error with
    | none => throw cleanup_error
    | some primary_error => throw (.RuntimeError ("integration failed (" ++ str primary_error ++
      "); cleanup also failed (" ++ str cleanup_error ++ ")"))
  match primary_error with
  | some primary_error => throw primary_error
  | none => MonadState.get

end

/-! ## Prefixes are apart -/

/-- The marker, and two directories. -/
def Shaped (path : String) : Prop :=
  ∃ a b : List Char, '/' ∉ a ∧ '/' ∉ b ∧ path.toList = marker.toList ++ (a ++ '/' :: (b ++ ['/']))

theorem shaped_of_valid {path path' : String} (h : validate_disposable_prefix path = .ok path') : Shaped path := by
  unfold validate_disposable_prefix at h
  simp only [except_throw, except_error_bind, except_check_eq_ok] at h
  obtain ⟨-, h⟩ := h
  split at h
  · next space run_nonce hparts =>
    have hslash : ∀ part ∈ [space, run_nonce], '/' ∉ part := fun part hpart => not_mem_of_mem_splitOn (hparts ▸ hpart)
    obtain ⟨-, h⟩ := except_check_eq_ok.1 h
    obtain ⟨hdash, h⟩ := except_check_eq_ok.1 h
    obtain ⟨run_id, nonce, hnonce, hrun⟩ := rpartition_mem (not_not.1 hdash)
    rw [hrun, rpartition_append hnonce] at h
    obtain ⟨hpath, -⟩ := except_check_eq_ok.1 h
    refine ⟨space, run_nonce, hslash _ (by simp), hslash _ (by simp), ?_⟩
    rw [← not_not.1 hpath, hrun]
    simp
  · cases h

/-- A key is below one prefix. -/
theorem Shaped.eq {path path' key : String} (h : Shaped path) (h' : Shaped path') (hkey : startswith key path = true)
    (hkey' : startswith key path' = true) : path = path' := by
  obtain ⟨a, b, ha, hb, hpath⟩ := h
  obtain ⟨a', b', ha', hb', hpath'⟩ := h'
  obtain ⟨t, rfl⟩ := startswith_iff.1 hkey
  obtain ⟨t', heq⟩ := startswith_iff.1 hkey'
  rw [String.ext_iff, String.toList_append, String.toList_append, hpath, hpath'] at heq
  simp only [List.append_assoc, List.cons_append, List.nil_append, List.append_cancel_left_eq] at heq
  have hfirst := congrArg (partition '/') heq
  rw [partition_append ha, partition_append ha'] at hfirst
  obtain ⟨rfl, hrest⟩ := Prod.mk.inj hfirst
  have hsecond := congrArg (partition '/') hrest
  rw [partition_append hb, partition_append hb'] at hsecond
  obtain ⟨rfl, -⟩ := Prod.mk.inj hsecond
  exact String.ext (hpath.trans hpath'.symm)

section
variable {hexdigest : ByteArray → String}

theorem fullmatch_all {cls : Char → Bool} {lo : Nat} {hi : Option Nat} {s : List Char} (h : fullmatchClass cls lo hi s = true) :
    ∀ c ∈ s, cls c = true := by
  unfold fullmatchClass at h
  rw [Bool.and_eq_true, Bool.and_eq_true] at h
  exact List.all_eq_true.1 h.1.1

theorem isRun_chars {s : String} (h : isRun s = true) : ∀ c ∈ s.toList, isRepositoryChar c = true := by
  unfold isRun at h
  split at h
  · cases h
  · next c cs hs =>
    rw [Bool.and_eq_true] at h
    rw [hs]
    refine List.forall_mem_cons.2 ⟨?_, fullmatch_all h.2⟩
    rw [isRepositoryChar, h.1]
    rfl

/-- A root is what it is made of. -/
theorem DisposableConfig.parts (config : DisposableConfig hexdigest) (hhex : ∀ b, isSha256 (hexdigest b) = true) :
    ∃ space run_id nonce : List Char, isNamespace space = true ∧ '/' ∉ run_id ∧ '/' ∉ nonce ∧ '-' ∉ nonce ∧
      config.root.toList = marker.toList ++ (space ++ '/' :: ((run_id ++ '-' :: nonce) ++ ['/'])) := by
  have h := config.valid
  simp only [ build_disposable_prefix, except_throw, except_error_bind, except_check_eq_ok] at h
  obtain ⟨-, hrun, hnonce, -, h⟩ := h
  rw [Bool.not_eq_true', Bool.not_eq_false] at hrun hnonce
  have hhash := hhex config.canonical_repository.toUTF8
  refine ⟨(hexdigest config.canonical_repository.toUTF8).toList.take 24, config.run_id.toList, config.nonce.toList, ?_, ?_, ?_,
    ?_, ?_⟩
  · rw [isSha256, fullmatchClass] at hhash
    rw [isNamespace, fullmatchClass, List.length_take]
    simp only [Bool.and_eq_true, decide_eq_true_eq, Option.all_some] at hhash ⊢
    refine ⟨⟨List.all_eq_true.2 fun c hc => List.all_eq_true.1 hhash.1.1 c (List.mem_of_mem_take hc), ?_⟩, ?_⟩ <;> omega
  · exact fun hmem => absurd (isRun_chars hrun _ hmem) (by decide)
  · exact fun hmem => absurd (fullmatch_all hnonce _ hmem) (by decide)
  · exact fun hmem => absurd (fullmatch_all hnonce _ hmem) (by decide)
  · rw [← Except.ok.inj h]
    simp

theorem DisposableConfig.validated (config : DisposableConfig hexdigest) (hhex : ∀ b, isSha256 (hexdigest b) = true) :
    validate_disposable_prefix config.root = .ok config.root := by
  obtain ⟨space, run_id, nonce, hspace, hrun, hnonce, hdash, hroot⟩ := config.parts hhex
  have hstart : startswith config.root marker = true := startswith_iff.2
    ⟨String.ofList (space ++ '/' :: ((run_id ++ '-' :: nonce) ++ ['/'])), String.ext (by simp [hroot])⟩
  have hend : endswith config.root "/" = true := endswith_iff.2
    ⟨String.ofList (marker.toList ++ (space ++ '/' :: (run_id ++ '-' :: nonce))), String.ext (by simp [hroot])⟩
  have hinner : (config.root.toList.drop marker.toList.length).dropLast = space ++ '/' :: (run_id ++ '-' :: nonce) := by
    rw [hroot, List.drop_left, ← List.cons_append, ← List.append_assoc, List.dropLast_concat]
  have hslash : '/' ∉ space := fun hmem => absurd (fullmatch_all hspace _ hmem) (by decide)
  have hslash' : '/' ∉ run_id ++ '-' :: nonce := by simp [hrun, hnonce]
  have hparts : ((config.root.toList.drop marker.toList.length).dropLast).splitOn '/' = [space, run_id ++ '-' :: nonce] := by
    rw [hinner, List.splitOn_append_cons_self, List.splitOn_eq_singleton hslash, List.splitOn_eq_singleton hslash']
    rfl
  unfold validate_disposable_prefix
  rw [hstart, hend, hparts]
  simp only [except_throw, except_error_bind, hspace, rpartition_append hdash]
  simp [hroot]

end

/-! ## What a run changes -/

section
variable {hexdigest : ByteArray → String} {str : PyErr → String} {config : DisposableConfig hexdigest} {one_first : Bool}
  {inventory : List RepositoryObject} {σ : Type} {path : String}

/-- The keys below a prefix. -/
def own (path : String) : Set String := {key | startswith key path = true}

/-- Nothing is stored below the prefix. -/
def Clear (path : String) (s : Store) : Prop := ∀ key, startswith key path = true → s.get key = none

/-- What others do: nothing below the prefix. -/
def Apart (path : String) (s s' : Store) : Prop := ∀ key, startswith key path = true → s'.get key = s.get key

/-- What a run does: nothing elsewhere. -/
def Confined (path : String) (s s' : Store) : Prop := ∀ key, startswith key path = false → s'.get key = s.get key

theorem own_append {rest : String} : path ++ rest ∈ own path := startswith_iff.2 ⟨rest, rfl⟩

theorem only_modify {f : List IntegrationEvent → List IntegrationEvent} :
    Store.Only (own path) (modify f : Cmd (List IntegrationEvent) PUnit) := fun _ => trivial

theorem only_forM {α : Type} {f : α → Cmd σ Unit} : ∀ {xs : List α}, (∀ x ∈ xs, Store.Only (own path) (f x)) →
    Store.Only (own path) (xs.forM f)
  | [], _ => Store.only_pure
  | _ :: _, h => Store.only_bind (h _ List.mem_cons_self) fun _ => only_forM fun x hx => h x (List.mem_cons_of_mem _ hx)

theorem only_read_remote {key : String} : Store.Only (own path) (read_remote key : Cmd σ _) := by
  refine Store.only_bind Store.only_get fun current => ?_
  cases current with
  | none => exact Store.only_throw
  | some remote => exact Store.only_pure

theorem only_upload (item : RepositoryObject) : Store.Only (own config.root) (upload config item) := by
  have hkey : config.root ++ "repository/" ++ item.relative_key ∈ own config.root := String.append_assoc ▸ own_append
  refine Store.only_bind Store.only_lift fun body => Store.only_bind (Store.only_put hkey) fun _ => ?_
  refine Store.only_bind only_modify fun _ => Store.only_bind only_read_remote fun remote => ?_
  refine Store.only_bind Store.only_lift fun _ => ?_
  dsimp only
  split
  · exact Store.only_bind Store.only_throw fun _ => only_modify
  · exact only_modify

theorem only_list_keys {under : String} : Store.Only (own path) (list_keys under : Cmd σ _) :=
  Store.only_bind Store.only_list fun _ => Store.only_pure

theorem only_upload_repository : Store.Only (own config.root) (_upload_repository config inventory) := by
  unfold _upload_repository
  split
  · exact Store.only_throw
  · refine Store.only_bind (only_forM fun item _ => only_upload item) fun _ => ?_
    refine Store.only_bind only_list_keys fun listed => ?_
    split
    · exact Store.only_throw
    · exact only_modify

theorem only_update {key : String} (hkey : key ∈ own path) (etag : Nat) (value : ObjectValue) :
    Store.Only (own path) (update key etag value : Cmd σ _) := by
  refine Store.only_tryCatch (Store.only_bind (Store.only_put hkey) fun _ => Store.only_pure) fun e => ?_
  cases e with
  | PreconditionFailed _ => exact Store.only_pure
  | _ => exact Store.only_pure

theorem only_cas_probe : Store.Only (own config.root) (_cas_probe str config one_first) := by
  refine Store.only_bind (Store.only_put own_append) fun created => Store.only_bind only_modify fun _ => ?_
  refine Store.only_bind (only_update own_append _ _) fun first => Store.only_bind (only_update own_append _ _) fun second => ?_
  refine Store.only_bind Store.only_lift fun value => Store.only_bind only_read_remote fun remote => ?_
  exact Store.only_bind Store.only_lift fun _ => only_modify

theorem record_wp {W : Type} {sem : (op : Op) → W → op.Res → W → Prop} {R G : W → W → Prop}
    {E : PyErr → List IntegrationEvent → W → Prop} {operation key status detail : String} {st : List IntegrationEvent} {w : W} :
    (record operation key status detail).wp sem R G (Cmd.Gives (fun _ _ w' => w' = w) E) st w := rfl

/-! ## What a run leaves -/

theorem mem_listed {s : Store} {key : String} :
    key ∈ (s.listing path).map (·.1) ↔ startswith key path = true ∧ s.get key ≠ none := by
  rw [List.mem_map]
  constructor
  · rintro ⟨⟨key, size⟩, hmem, rfl⟩
    obtain ⟨hunder, x, hget, -⟩ := Store.mem_listing.1 hmem
    exact ⟨hunder, fun hnone => by rw [hnone] at hget; cases hget⟩
  · rintro ⟨hunder, hget⟩
    obtain ⟨x, hx⟩ := Option.ne_none_iff_exists'.1 hget
    exact ⟨(key, x.value.body.size), Store.mem_listing.2 ⟨hunder, x, hx, rfl⟩, rfl⟩

/-- A store whose listings are right, and which fails to list and to delete only if `fails`. -/
structure Sweeps (sem : (op : Op) → Store → op.Res → Store → Prop) (fails : Prop) : Prop where
  truthful : ∀ op s r s', sem op s r s' → Store.Truthful op s r s'
  listed : ¬ fails → ∀ under s r s', sem (.list_objects under) s r s' → r = .ok (s.listing under) ∧ s' = s
  deleted : ¬ fails → ∀ key s r s', sem (.delete key) s r s' → r = .ok () ∧ s' = s.delete key

section
variable {sem : (op : Op) → Store → op.Res → Store → Prop} {fails : Prop} (h : Sweeps sem fails) {st : σ} {s : Store}
include h

theorem list_keys_wp {G : Store → Store → Prop} (hG : ∀ s, G s s) {E : PyErr → σ → Store → Prop}
    (hE : fails → ∀ e st s', Apart path s s' → E e st s') : (list_keys path : Cmd σ _).wp sem (Apart path) G
      (Cmd.Gives (fun keys _ s' => (∀ key, key ∈ keys ↔ startswith key path = true ∧ s'.get key ≠ none) ∧ Apart path s s') E)
      st s := by
  unfold list_keys
  rw [Cmd.wp_bind]
  intro s₁ hs r s₂ hr
  have hsame : s₂ = s₁ ∧ (r = .ok (s₁.listing path) ∨ ∃ e, r = .error e ∧ fails) := by
    by_cases hfails : fails
    · cases h.truthful _ _ _ _ hr with
      | answers hne _ => exact absurd rfl (hne path)
      | listed => exact ⟨rfl, .inl rfl⟩
      | unlisted e => exact ⟨rfl, .inr ⟨e, rfl, hfails⟩⟩
    · obtain ⟨hr, hs₂⟩ := h.listed hfails _ _ _ _ hr
      exact ⟨hs₂, .inl hr⟩
  obtain ⟨rfl, rfl | ⟨e, rfl, hfails⟩⟩ := hsame
  · exact ⟨hG _, fun key => mem_listed, hs⟩
  · exact ⟨hG _, hE hfails _ _ _ hs⟩

/-- The loop of the cleanup: every key that is stored below the prefix is still to come. -/
theorem remove_all_wp : ∀ {keys : List String} {st : σ} {s : Store}, (∀ key ∈ keys, startswith key path = true) →
    (∀ key, startswith key path = true → s.get key ≠ none → key ∈ keys) →
    (remove_all path keys : Cmd σ _).wp sem (Apart path) (Confined path)
      (Cmd.Gives (fun _ _ s' => Clear path s') fun _ _ _ => fails) st s
  | [], st, s, _, hleft => fun key hkey => by
    by_contra hget
    exact List.not_mem_nil (hleft key hkey hget)
  | key :: keys, st, s, hunder, hleft => by
    obtain ⟨hkey, hunder⟩ := List.forall_mem_cons.1 hunder
    unfold remove_all
    rw [hkey]
    simp only [Bool.not_true, Bool.false_eq_true, if_false]
    rw [Cmd.wp_bind]
    intro s₁ hs r s₂ hr
    have hconfined : Confined path s₁ (s₁.delete key) := fun k hk => Conc.CondStore.get_delete_ne _ fun heq => by
      rw [heq, hkey] at hk
      cases hk
    have hdeleted : (r = .ok () ∧ s₂ = s₁.delete key) ∨ (fails ∧ (s₂ = s₁ ∨ s₂ = s₁.delete key) ∧ ∃ e, r = .error e) := by
      by_cases hfails : fails
      · cases (h.truthful _ _ _ _ hr).out with
        | delete => exact .inl ⟨rfl, rfl⟩
        | deleteFailed e => exact .inr ⟨hfails, .inl rfl, e, rfl⟩
        | deleteUnanswered e => exact .inr ⟨hfails, .inr rfl, e, rfl⟩
      · exact .inl (h.deleted hfails _ _ _ _ hr)
    rcases hdeleted with ⟨rfl, rfl⟩ | ⟨hfails, hs₂, e, rfl⟩
    · refine ⟨hconfined, ?_⟩
      refine Cmd.wp_gives (remove_all_wp hunder fun k hk hget => ?_) fun events st s hclear => hclear
      have hne : k ≠ key := by
        rintro rfl
        exact hget (Conc.CondStore.get_delete_self _ _)
      rw [Conc.CondStore.get_delete_ne _ hne, hs k hk] at hget
      exact List.mem_of_ne_of_mem hne (hleft k hk hget)
    · rcases hs₂ with rfl | rfl
      · exact ⟨fun _ _ => rfl, hfails⟩
      · exact ⟨hconfined, hfails⟩

/-- A cleanup that returns has left nothing. -/
theorem cleanup_wp (hvalid : validate_disposable_prefix path = .ok path) :
    ( cleanup_disposable_prefix path : Cmd σ _).wp sem (Apart path) (Confined path)
      (Cmd.Gives (fun _ _ s' => Clear path s') fun _ _ _ => fails) st s := by
  unfold cleanup_disposable_prefix
  rw [hvalid, Cmd.wp_ok_bind]
  refine Cmd.wp_gives (list_keys_wp h (fun _ _ _ => rfl) fun hfails _ _ _ _ => hfails) fun keys st s₁ hkeys => ?_
  refine Cmd.wp_gives (remove_all_wp h (fun key hkey => ((hkeys.1 key).1 hkey).1)
    fun key hkey hget => (hkeys.1 key).2 ⟨hkey, hget⟩) fun events st s₂ hclear => ?_
  refine Cmd.wp_gives (list_keys_wp h (fun _ _ _ => rfl) fun hfails _ _ _ _ => hfails) fun leftovers st s₃ hleft => ?_
  have hclear₃ : Clear path s₃ := fun key hkey => by rw [hleft.2 key hkey, hclear key hkey]
  have hnil : leftovers = [] := List.eq_nil_iff_forall_not_mem.2 fun key hmem =>
    ((hleft.1 key).1 hmem).2 (hclear₃ key ((hleft.1 key).1 hmem).1)
  rw [hnil]
  exact hclear₃

theorem Sweeps.confined {o : Op} {s s' : Store} {r : o.Res} (ho : Store.changesOnly (own path) o) (hr : sem o s r s') :
    Confined path s s' := fun key hkey => ho.same (h.truthful _ _ _ _ hr).out fun hmem => by
  rw [own, Set.mem_ofPred_eq, hkey] at hmem
  cases hmem

theorem Sweeps.only_wp {α : Type} {c : Cmd σ α} (hc : Store.Only (own path) c) :
    c.wp sem (Apart path) (Confined path) (fun _ _ _ => True) st s :=
  Conc.wp_allOps (A := fun _ => True) (fun _ _ _ _ => trivial) (fun _ ho _ _ _ _ hr => ⟨h.confined ho hr, trivial⟩)
    (hc st) trivial

/-- `qualify` returns, whatever happens below it. -/
theorem qualify_wp {E : PyErr → List IntegrationEvent → Store → Prop} {st : List IntegrationEvent} :
    (qualify str config one_first inventory).wp sem (Apart config.root) (Confined config.root)
      (Cmd.Gives (fun _ _ _ => True) E) st s := by
  unfold qualify
  rw [Cmd.wp_tryCatch]
  refine Cmd.wp_mono (h.only_wp ?_) fun r st s _ => ?_
  · exact Store.only_bind only_upload_repository fun _ => Store.only_bind only_cas_probe fun _ => Store.only_pure
  cases r with
  | ok _ => trivial
  | error e => trivial

theorem finish_wp (hvalid : validate_disposable_prefix config.root = .ok config.root) {st : List IntegrationEvent} :
    (_cleanup config).wp sem (Apart config.root) (Confined config.root)
      (Cmd.Gives (fun _ _ s' => Clear config.root s') fun _ _ _ => fails) st s := by
  refine Cmd.wp_gives (cleanup_wp h hvalid) fun events st s hclear => ?_
  exact hclear

variable (hhex : ∀ b, isSha256 (hexdigest b) = true) {st : List IntegrationEvent}
include hhex

/-- A run that starts with nothing below its prefix. -/
theorem run_wp (hclear : Clear config.root s) : (run str config one_first inventory).wp sem (Apart config.root)
    (Confined config.root) (Cmd.Gives (fun _ _ s' => Clear config.root s') fun _ _ s' => fails ∨ Clear config.root s') st s := by
  unfold run
  refine Cmd.wp_gives (list_keys_wp h (fun _ _ _ => rfl) fun hfails _ _ _ _ => .inl hfails) fun keys st s' hkeys => ?_
  have hclear : Clear config.root s' := fun key hkey => by rw [hkeys.2 key hkey, hclear key hkey]
  have hnil : keys = [] := List.eq_nil_iff_forall_not_mem.2 fun key hmem =>
    ((hkeys.1 key).1 hmem).2 (hclear key ((hkeys.1 key).1 hmem).1)
  rw [hnil]
  simp only [ne_eq, not_true_eq_false, if_false]
  refine Cmd.wp_gives record_wp fun _ st s hs => ?_
  subst hs
  refine Cmd.wp_gives (qualify_wp h) fun primary_error st s _ => ?_
  refine Cmd.wp_gives (I := fun _ _ s => Clear config.root s) ?_ fun _ st s hclear => ?_
  · rw [Cmd.wp_tryCatch]
    refine Cmd.wp_mono (finish_wp h (config.validated hhex)) fun r st s hr => ?_
    cases r with
    | ok _ => exact hr
    | error e => cases primary_error <;> exact .inl hr
  · cases primary_error with
    | none => exact hclear
    | some e => exact .inr hclear
omit hhex in
/-- A run that finds something below its prefix. -/
theorem refuse_wp (hfound : ¬ Clear config.root s) : (run str config one_first inventory).wp sem (Apart config.root)
    Eq (Cmd.Gives (fun _ _ _ => False) fun _ _ s' => Apart config.root s s') st s := by
  unfold run
  refine Cmd.wp_gives (list_keys_wp h (fun _ => rfl) fun _ _ _ _ hs => hs) fun keys st s' hkeys => ?_
  have hsome : keys ≠ [] := fun hnil => hfound fun key hkey => by
    by_contra hget
    rw [← hkeys.2 key hkey] at hget
    exact List.not_mem_nil (hnil ▸ (hkeys.1 key).2 ⟨hkey, hget⟩)
  rw [if_pos hsome]
  exact hkeys.2

end

end

/-! ## Many runs in one bucket -/

theorem sweeps_truthful : Sweeps Store.Truthful True where
  truthful _ _ _ _ h := h
  listed h := absurd trivial h
  deleted h := absurd trivial h

theorem sweeps_serve : Sweeps (Conc.ofHandler Store.serve) False where
  truthful := Store.service_serve.truthful
  listed _ _ _ _ _ h := by
    cases h
    exact ⟨rfl, rfl⟩
  deleted _ _ _ _ _ h := by
    cases h
    exact ⟨rfl, rfl⟩

/-- The arguments of a run. -/
structure Integration (hexdigest : ByteArray → String) where
  config : DisposableConfig hexdigest
  one_first : Bool
  inventory : List RepositoryObject

section
variable {hexdigest : ByteArray → String} (str : PyErr → String) {ι : Type}

abbrev Runs (ι : Type) : Type := Conc.Config ι Store (Proc (Except PyErr (List IntegrationEvent) × List IntegrationEvent))

/-- Every run is at its beginning. -/
def start (runs : ι → Integration hexdigest) (s₀ : Store) : Runs ι :=
  ⟨s₀, fun i => Disposable.run str (runs i).config (runs i).one_first (runs i).inventory []⟩

variable {str} {path : String} {sem : (op : Op) → Store → op.Res → Store → Prop} {fails : Prop} (hsem : Sweeps sem fails)
  {s₀ : Store}

/-- What a run that has ended leaves below its prefix: nothing, or what was there before it began. -/
def Leaves (path : String) (fails : Prop) (s₀ : Store) (r : Except PyErr (List IntegrationEvent) × List IntegrationEvent)
    (s : Store) : Prop :=
  (Clear path s₀ → Clear path s ∨ (fails ∧ ∃ e, r.1 = .error e)) ∧
    (¬ Clear path s₀ → Apart path s₀ s ∧ ∃ e, r.1 = .error e)

theorem Apart.trans {s s' s'' : Store} (h : Apart path s s') (h' : Apart path s' s'') : Apart path s s'' :=
  fun key hkey => (h' key hkey).trans (h key hkey)

theorem Apart.clear {s s' : Store} (h : Apart path s s') (hs : Clear path s) : Clear path s' :=
  fun key hkey => (h key hkey).trans (hs key hkey)

/-- What one prefix has is not below another. -/
theorem Confined.apart {path' : String} {s s' : Store} (h : Confined path' s s') (hshaped : Shaped path)
    (hshaped' : Shaped path') (hne : path ≠ path') : Apart path s s' := fun key hkey =>
  h key (Bool.eq_false_iff.2 fun hkey' => hne (hshaped.eq hshaped' hkey hkey'))

include hsem

theorem leaves_wp (hhex : ∀ b, isSha256 (hexdigest b) = true) (integration : Integration hexdigest) :
    Conc.wp sem (Apart integration.config.root) (Confined integration.config.root)
      (Disposable.run str integration.config integration.one_first integration.inventory [])
      (Leaves integration.config.root fails s₀) s₀ := by
  by_cases hclear : Clear integration.config.root s₀
  · refine Conc.wp_post (fun r s hr => ⟨fun _ => ?_, fun hfound => absurd hclear hfound⟩) (run_wp hsem hhex hclear)
    obtain ⟨r, st⟩ := r
    cases r with
    | ok _ => exact .inl hr
    | error e => exact hr.symm.imp_right fun hfails => ⟨hfails, e, rfl⟩
  · refine Conc.wp_mono (fun _ _ hs => hs) ?_ (fun r s hr => ⟨fun hclear' => absurd hclear' hclear, fun _ => ?_⟩)
      (refuse_wp hsem hclear)
    · rintro s s' rfl
      exact fun _ _ => rfl
    · obtain ⟨r, st⟩ := r
      cases r with
      | ok _ => exact hr.elim
      | error e => exact ⟨hr, e, rfl⟩

end

/-! ## What a run that passes has seen -/

/-- A request with its answer. -/
abbrev Exchange : Type := (op : Op) × op.Res

/-- Any answer of any server. -/
def Answered (op : Op) (log : List Exchange) (r : op.Res) (log' : List Exchange) : Prop := log' = log ++ [⟨op, r⟩]

section
variable {hexdigest : ByteArray → String} {str : PyErr → String} (config : DisposableConfig hexdigest) {one_first : Bool}

/-- An object is created, and read as it was written. -/
def Uploaded (item : RepositoryObject) (log : List Exchange) : Prop :=
  item.read hexdigest = .ok item.contents ∧ ∃ created read, read.value = ⟨item.contents, item.metadata⟩ ∧ log = [
    ⟨.put (config.root ++ "repository/" ++ item.relative_key) ⟨item.contents, item.metadata⟩ .ifNoneMatch, .ok created⟩,
    ⟨.get (config.root ++ "repository/" ++ item.relative_key), .ok (some read)⟩]

/-- Of two writes to one version one is accepted, the other is refused, and the accepted one is read. -/
def Raced (one_first : Bool) (log : List Exchange) : Prop :=
  ∃ created first second read,
    (∃ x msg, first = .ok x ∧ second = .error (.PreconditionFailed msg) ∧
      read.value = writer (if one_first then "one" else "two") ∨
      first = .error (.PreconditionFailed msg) ∧ second = .ok x ∧
        read.value = writer (if one_first then "two" else "one")) ∧
    log = [⟨.put (config.root ++ "checks/cas.json") initial .ifNoneMatch, .ok created⟩,
      ⟨.put (config.root ++ "checks/cas.json") (writer (if one_first then "one" else "two")) (.ifMatch created.etag), first⟩,
      ⟨.put (config.root ++ "checks/cas.json") (writer (if one_first then "two" else "one")) (.ifMatch created.etag), second⟩,
      ⟨.get (config.root ++ "checks/cas.json"), .ok (some read)⟩]

/-- What is listed is below the prefix and deleted, and then nothing is listed. -/
def Cleaned (path : String) (log : List Exchange) : Prop :=
  ∃ listed : List (String × Nat), (∀ x ∈ listed, startswith x.1 path = true) ∧
    log = ⟨.list_objects path, .ok listed⟩ :: (listed.map fun x => ⟨.delete x.1, .ok ()⟩) ++ [⟨.list_objects path, .ok []⟩]

variable {config} {σ : Type} {st : σ} {log : List Exchange} {key path : String} {value : ObjectValue}

/-- Nothing is asked of a request. -/
def Any (_ _ : List Exchange) : Prop := True

/-- Nothing is said of an exception. -/
def Raised {σ : Type} (_ : PyErr) (_ : σ) (_ : List Exchange) : Prop := True

theorem put_seen {c : Conc.Cond} : (Cmd.put key value c : Cmd σ _).wp Answered Eq Any
    (Cmd.Gives (fun x _ log' => log' = log ++ [⟨.put key value c, .ok x⟩]) Raised) st log := by
  rintro _ rfl r _ rfl
  refine ⟨trivial, ?_⟩
  cases r with
  | ok x => rfl
  | error e => trivial

theorem delete_seen : (Cmd.delete key : Cmd σ _).wp Answered Eq Any
    (Cmd.Gives (fun _ _ log' => log' = log ++ [⟨.delete key, .ok ()⟩]) Raised) st log := by
  rintro _ rfl r _ rfl
  refine ⟨trivial, ?_⟩
  cases r with
  | ok x => rfl
  | error e => trivial

theorem list_seen : (list_keys path : Cmd σ _).wp Answered Eq Any
    (Cmd.Gives (fun keys _ log' => ∃ listed : List (String × Nat), keys = listed.map (·.1) ∧
      log' = log ++ [⟨.list_objects path, .ok listed⟩]) Raised) st log := by
  unfold list_keys
  rw [Cmd.wp_bind]
  rintro _ rfl r _ rfl
  refine ⟨trivial, ?_⟩
  cases r with
  | ok listed => exact ⟨listed, rfl, rfl⟩
  | error e => trivial

theorem read_seen : (read_remote key : Cmd σ _).wp Answered Eq Any
    (Cmd.Gives (fun x _ log' => log' = log ++ [⟨.get key, .ok (some x)⟩]) Raised) st log := by
  unfold read_remote
  rw [Cmd.wp_bind]
  rintro _ rfl r _ rfl
  refine ⟨trivial, ?_⟩
  cases r with
  | ok current =>
    cases current with
    | none => trivial
    | some x => rfl
  | error e => trivial

theorem verify_remote_ok {expected : ObjectValue} {remote : StoredObject} (h : _verify_remote key expected remote = .ok ()) :
    remote.value = expected := by
  simp only [_verify_remote, except_throw, except_error_bind, except_check_eq_ok] at h
  obtain ⟨hbody, hmetadata, -⟩ := h
  exact (ObjectValue.mk.injEq ..).mpr ⟨not_not.1 hbody, not_not.1 hmetadata⟩

theorem upload_seen {item : RepositoryObject} {st : List IntegrationEvent} : (upload config item).wp Answered Eq Any
    (Cmd.Gives (fun _ _ log' => ∃ seen, Uploaded config item seen ∧ log' = log ++ seen) Raised) st log := by
  unfold upload
  dsimp only
  refine Cmd.wp_gives (I := fun body _ log' => item.read hexdigest = .ok body ∧ log' = log) ?_ fun body st log₁ hbody => ?_
  · cases hread : item.read hexdigest with
    | ok body => exact ⟨rfl, rfl⟩
    | error e => trivial
  obtain ⟨hread, rfl⟩ := hbody
  obtain rfl := RepositoryObject.read_ok hread
  refine Cmd.wp_gives put_seen fun created st log' hlog => ?_
  subst hlog
  refine Cmd.wp_gives record_wp fun _ st log' hlog => ?_
  subst hlog
  refine Cmd.wp_gives read_seen fun remote st log' hlog => ?_
  subst hlog
  refine Cmd.wp_gives (I := fun _ _ log' => remote.value = ⟨item.contents, item.metadata⟩ ∧
    log' = log₁ ++ [⟨.put (config.root ++ "repository/" ++ item.relative_key) ⟨item.contents, item.metadata⟩ .ifNoneMatch,
      .ok created⟩] ++ [⟨.get (config.root ++ "repository/" ++ item.relative_key), .ok (some remote)⟩]) ?_ fun _ st log' h => ?_
  · cases hverify : _verify_remote (config.root ++ "repository/" ++ item.relative_key) ⟨item.contents, item.metadata⟩ remote with
    | ok _ => exact ⟨verify_remote_ok hverify, rfl⟩
    | error e => trivial
  obtain ⟨hvalue, rfl⟩ := h
  split
  · trivial
  · exact ⟨_, ⟨hread, created, remote, hvalue, rfl⟩, List.append_assoc _ _ _⟩

theorem uploads_seen : ∀ {inventory : List RepositoryObject} {st : List IntegrationEvent}
    {log : List Exchange}, (inventory.forM (upload config)).wp Answered Eq Any (Cmd.Gives (fun _ _ log' =>
      ∃ uploads, List.Forall₂ (Uploaded config) inventory uploads ∧ log' = log ++ uploads.flatten) Raised) st log
  | [], st, log => ⟨[], .nil, (List.append_nil log).symm⟩
  | item :: inventory, st, log => by
    refine Cmd.wp_gives upload_seen fun _ st log' h => ?_
    obtain ⟨seen, hseen, rfl⟩ := h
    refine Cmd.wp_mono uploads_seen fun r st log' hr => ?_
    cases r with
    | error e => trivial
    | ok _ =>
      obtain ⟨uploads, huploads, rfl⟩ := hr
      exact ⟨seen :: uploads, .cons hseen huploads, List.append_assoc _ _ _⟩

/-- What a writer of the race reports. -/
def Reports (value : ObjectValue) (r : Except PyErr StoredObject) : Except PyErr (String × ObjectValue) → Prop
  | .ok (status, written) => written = value ∧ ((∃ x, r = .ok x) ∧ status = "2xx" ∨
      (∃ msg, r = .error (.PreconditionFailed msg)) ∧ status = "412")
  | .error _ => True

theorem update_seen {etag : Nat} : (update key etag value : Cmd σ _).wp Answered Eq Any
    (Cmd.Gives (fun outcome _ log' => ∃ r, Reports value r outcome ∧ log' = log ++ [⟨.put key value (.ifMatch etag), r⟩]) Raised)
    st log := by
  unfold update
  rw [Cmd.wp_tryCatch, Cmd.wp_bind]
  rintro _ rfl r _ rfl
  refine ⟨trivial, ?_⟩
  cases r with
  | ok x => exact ⟨_, ⟨rfl, .inl ⟨⟨x, rfl⟩, rfl⟩⟩, rfl⟩
  | error e =>
    cases e with
    | PreconditionFailed msg => exact ⟨_, ⟨rfl, .inr ⟨⟨msg, rfl⟩, rfl⟩⟩, rfl⟩
    | _ => exact ⟨_, trivial, rfl⟩

theorem winning_pair {status status' : String} {a b : ObjectValue} : winning str [.ok (status, a), .ok (status', b)] =
    match [status, status'].insertionSort (· ≤ ·), [(status, a), (status', b)].lookup "2xx" with
    | ["2xx", "412"], some value => .ok value
    | _, _ => .error (.RuntimeError ("CAS race produced unsafe outcomes: [" ++
      String.intercalate ", " (([status, status'].insertionSort (· ≤ ·)).map fun s => "'" ++ s ++ "'") ++ "]")) := rfl

theorem sorted_statuses : ["2xx", "2xx"].insertionSort (· ≤ ·) = ["2xx", "2xx"] ∧
    ["2xx", "412"].insertionSort (· ≤ ·) = ["2xx", "412"] ∧ ["412", "2xx"].insertionSort (· ≤ ·) = ["2xx", "412"] ∧
    ["412", "412"].insertionSort (· ≤ ·) = ["412", "412"] := by decide

/-- The race is won once. -/
theorem winning_ok {a b value : ObjectValue} {r r' : Except PyErr StoredObject}
    {first second : Except PyErr (String × ObjectValue)} (hfirst : Reports a r first) (hsecond : Reports b r' second)
    (h : winning str [first, second] = .ok value) :
    ∃ x msg, r = .ok x ∧ r' = .error (.PreconditionFailed msg) ∧ value = a ∨
      r = .error (.PreconditionFailed msg) ∧ r' = .ok x ∧ value = b := by
  cases first with
  | error e => cases h
  | ok first =>
    cases second with
    | error e => cases h
    | ok second =>
      obtain ⟨status, written⟩ := first
      obtain ⟨status', written'⟩ := second
      rw [winning_pair] at h
      obtain ⟨rfl, ⟨⟨x, rfl⟩, rfl⟩ | ⟨⟨msg, rfl⟩, rfl⟩⟩ := hfirst
      · obtain ⟨rfl, ⟨⟨x', rfl⟩, rfl⟩ | ⟨⟨msg, rfl⟩, rfl⟩⟩ := hsecond
        · rw [sorted_statuses.1] at h
          cases h
        · rw [sorted_statuses.2.1] at h
          cases h
          exact ⟨x, msg, .inl ⟨rfl, rfl, rfl⟩⟩
      · obtain ⟨rfl, ⟨⟨x, rfl⟩, rfl⟩ | ⟨⟨msg', rfl⟩, rfl⟩⟩ := hsecond
        · rw [sorted_statuses.2.2.1] at h
          cases h
          exact ⟨x, msg, .inr ⟨rfl, rfl, rfl⟩⟩
        · rw [sorted_statuses.2.2.2] at h
          cases h

theorem cas_probe_seen {st : List IntegrationEvent} : (_cas_probe str config one_first).wp Answered Eq Any
    (Cmd.Gives (fun _ _ log' => ∃ raced, Raced config one_first raced ∧ log' = log ++ raced) Raised) st log := by
  unfold _cas_probe
  dsimp only
  refine Cmd.wp_gives put_seen fun created st log₁ hlog => ?_
  subst hlog
  refine Cmd.wp_gives record_wp fun _ st log₁ hlog => ?_
  subst hlog
  refine Cmd.wp_gives update_seen fun first st log₁ hfirst => ?_
  obtain ⟨r, hfirst, rfl⟩ := hfirst
  refine Cmd.wp_gives update_seen fun second st log₁ hsecond => ?_
  obtain ⟨r', hsecond, rfl⟩ := hsecond
  cases hwinning : winning str [first, second] with
  | error e => trivial
  | ok value =>
    rw [Cmd.wp_ok_bind]
    refine Cmd.wp_gives read_seen fun remote st log₁ hlog => ?_
    subst hlog
    cases hverify : _verify_remote (config.root ++ "checks/cas.json") value remote with
    | error e => trivial
    | ok _ =>
      rw [Cmd.wp_ok_bind]
      refine ⟨_, ⟨created, r, r', remote, ?_, rfl⟩, by simp⟩
      rw [verify_remote_ok hverify]
      obtain ⟨x, msg, h⟩ := winning_ok hfirst hsecond hwinning
      exact ⟨x, msg, h⟩

theorem remove_all_seen : ∀ {keys : List String} {st : σ} {log : List Exchange}, (remove_all path keys : Cmd σ _).wp Answered Eq
    Any (Cmd.Gives (fun _ _ log' => (∀ key ∈ keys, startswith key path = true) ∧
      log' = log ++ keys.map fun key => ⟨.delete key, .ok ()⟩) Raised) st log
  | [], st, log => ⟨by simp, (List.append_nil log).symm⟩
  | key :: keys, st, log => by
    unfold remove_all
    by_cases hkey : startswith key path = true
    · rw [hkey]
      simp only [Bool.not_true, Bool.false_eq_true, if_false]
      refine Cmd.wp_gives delete_seen fun _ st log₁ hlog => ?_
      subst hlog
      refine Cmd.wp_gives remove_all_seen fun events st log₁ h => ?_
      obtain ⟨hkeys, rfl⟩ := h
      exact ⟨List.forall_mem_cons.2 ⟨hkey, hkeys⟩, List.append_assoc _ _ _⟩
    · rw [Bool.not_eq_true] at hkey
      rw [hkey]
      trivial

theorem cleanup_seen : ( cleanup_disposable_prefix path : Cmd σ _).wp Answered Eq Any
    (Cmd.Gives (fun _ _ log' => ∃ cleaned, Cleaned path cleaned ∧ log' = log ++ cleaned) Raised) st log := by
  unfold cleanup_disposable_prefix
  cases validate_disposable_prefix path with
  | error e => trivial
  | ok _ =>
    rw [Cmd.wp_ok_bind]
    refine Cmd.wp_gives list_seen fun keys st log₁ hkeys => ?_
    obtain ⟨listed, rfl, rfl⟩ := hkeys
    refine Cmd.wp_gives remove_all_seen fun events st log₁ h => ?_
    obtain ⟨hunder, rfl⟩ := h
    refine Cmd.wp_gives list_seen fun leftovers st log₁ hleft => ?_
    obtain ⟨left, rfl, rfl⟩ := hleft
    by_cases hnil : left = []
    · subst hnil
      refine ⟨_, ⟨listed, fun x hx => hunder _ (List.mem_map_of_mem hx), rfl⟩, ?_⟩
      simp [Function.comp_def]
    · rw [if_pos (by simpa using hnil)]
      trivial

/-- The repository is uploaded and listed, and then there is the race. -/
structure Qualified (config : DisposableConfig hexdigest) (one_first : Bool) (inventory : List RepositoryObject)
    (log : List Exchange) : Prop where
  nonempty : inventory ≠ []
  log_eq : ∃ (uploads : List (List Exchange)) (listed : List (String × Nat)) (raced : List Exchange),
    List.Forall₂ (Uploaded config) inventory uploads ∧ listed.map (·.1) = uploaded config inventory ∧
      Raced config one_first raced ∧ log = uploads.flatten ++ ⟨.list_objects config.root, .ok listed⟩ :: raced

theorem finish_seen {st : List IntegrationEvent} : (_cleanup config).wp Answered Eq Any
    (Cmd.Gives (fun _ _ log' => ∃ cleaned, Cleaned config.root cleaned ∧ log' = log ++ cleaned) Raised) st log := by
  refine Cmd.wp_gives cleanup_seen fun events st log' hcleaned => ?_
  exact hcleaned

theorem upload_repository_seen {inventory : List RepositoryObject} {st : List IntegrationEvent} :
    (_upload_repository config inventory).wp Answered Eq Any (Cmd.Gives (fun _ _ log' => inventory ≠ [] ∧
      ∃ uploads listed, List.Forall₂ (Uploaded config) inventory uploads ∧ listed.map (·.1) = uploaded config inventory ∧
        log' = log ++ (uploads.flatten ++ [⟨.list_objects config.root, .ok listed⟩])) Raised) st log := by
  unfold _upload_repository
  by_cases hempty : inventory = []
  · rw [if_pos hempty]
    trivial
  rw [if_neg hempty]
  refine Cmd.wp_gives uploads_seen fun _ st log₁ h => ?_
  obtain ⟨uploads, huploads, rfl⟩ := h
  refine Cmd.wp_gives list_seen fun keys st log₁ hkeys => ?_
  obtain ⟨listed, rfl, rfl⟩ := hkeys
  by_cases hlisted : listed.map (·.1) = uploaded config inventory
  · rw [if_neg (not_not.2 hlisted)]
    exact ⟨hempty, uploads, listed, huploads, hlisted, List.append_assoc _ _ _⟩
  · rw [if_pos hlisted]
    trivial

theorem qualify_seen {inventory : List RepositoryObject} {st : List IntegrationEvent} :
    (qualify str config one_first inventory).wp Answered Eq Any (Cmd.Gives (fun primary_error _ log' => primary_error = none →
      ∃ qualified, Qualified config one_first inventory qualified ∧ log' = log ++ qualified) Raised) st log := by
  unfold qualify
  rw [Cmd.wp_tryCatch]
  refine Cmd.wp_mono (Q := Cmd.Gives (fun _ _ log' => ∃ qualified, Qualified config one_first inventory qualified ∧
    log' = log ++ qualified) Raised) (Cmd.wp_gives upload_repository_seen fun _ st log₁ h => ?_) fun r st log' hr => ?_
  · obtain ⟨hempty, uploads, listed, huploads, hlisted, rfl⟩ := h
    refine Cmd.wp_gives cas_probe_seen fun _ st log₁ h => ?_
    obtain ⟨raced, hraced, rfl⟩ := h
    exact ⟨_, ⟨hempty, uploads, listed, raced, huploads, hlisted, hraced, rfl⟩, by simp⟩
  · cases r with
    | ok _ => exact fun _ => hr
    | error e => exact nofun

/-- **A run that passes.** Whatever the server answers, a run returns only after it has read back every object that it
created, seen exactly their keys listed, had one of two writes to one version accepted and the other refused, read the
accepted one, deleted everything below its prefix, and seen nothing listed there. -/
theorem passes {inventory : List RepositoryObject} {tr events st} {log : List Exchange}
    (h : Conc.Trace Answered Eq (Disposable.run str config one_first inventory []) [] tr (.ret (.ok events, st)) log) :
    ∃ qualified cleaned, Qualified config one_first inventory qualified ∧ Cleaned config.root cleaned ∧
      log = ⟨.list_objects config.root, .ok []⟩ :: (qualified ++ cleaned) := by
  have hrun : (Disposable.run str config one_first inventory).wp Answered Eq Any (Cmd.Gives (fun _ _ log' =>
      ∃ qualified cleaned, Qualified config one_first inventory qualified ∧ Cleaned config.root cleaned ∧
        log' = ⟨.list_objects config.root, .ok []⟩ :: (qualified ++ cleaned)) Raised) [] [] := by
    unfold Disposable.run
    refine Cmd.wp_gives list_seen fun keys st log₁ hkeys => ?_
    obtain ⟨preexisting, rfl, rfl⟩ := hkeys
    by_cases hempty : preexisting = []
    · subst hempty
      simp only [List.map_nil, ne_eq, not_true_eq_false, if_false]
      refine Cmd.wp_gives record_wp fun _ st log₁ hlog => ?_
      subst hlog
      refine Cmd.wp_gives qualify_seen fun primary_error st log₁ hqualified => ?_
      refine Cmd.wp_gives (I := fun _ _ log' => ∃ cleaned, Cleaned config.root cleaned ∧ log' = log₁ ++ cleaned) ?_
        fun _ st log₂ hcleaned => ?_
      · rw [Cmd.wp_tryCatch]
        refine Cmd.wp_mono finish_seen fun r st log' hr => ?_
        cases r with
        | ok _ => exact hr
        | error e => cases primary_error <;> trivial
      · cases primary_error with
        | some e => trivial
        | none =>
          obtain ⟨qualified, hlog, rfl⟩ := hqualified rfl
          obtain ⟨cleaned, hcleaned, rfl⟩ := hcleaned
          exact ⟨qualified, cleaned, hlog, hcleaned, by simp⟩
    · rw [if_pos (by simpa using hempty)]
      trivial
  exact (Conc.wp_trace h hrun).2

end

/-! ## A store that answers, and takes conditional writes one after the other -/

section
variable {hexdigest : ByteArray → String} {str : PyErr → String} {config : DisposableConfig hexdigest} {one_first : Bool}
  {σ : Type} {path key : String} {st : σ} {s : Store} {R : Store → Store → Prop}

/-- Nothing is asked of a request. -/
def AnyStep (_ _ : Store) : Prop := True

/-- Nothing is raised. -/
def Never {σ : Type} (_ : PyErr) (_ : σ) (_ : Store) : Prop := False

theorem serve_put {value : ObjectValue} {c : Conc.Cond} {Q : Except PyErr StoredObject → σ → Store → Prop}
    (h : ∀ s', R s s' → (c.holds (s'.get key) = true ∧ Q (.ok ⟨value, s'.revision⟩) st (s'.write key value)) ∨
      (c.holds (s'.get key) = false ∧ Q (.error (.PreconditionFailed key)) st s')) :
    (Cmd.put key value c).wp (Conc.ofHandler Store.serve) R AnyStep Q st s := by
  intro s' hs r s'' hr
  refine ⟨trivial, ?_⟩
  rcases s'.put_cases key value c with ⟨hc, hput⟩ | ⟨hc, hput⟩
  · simp only [Conc.ofHandler, Store.serve, hput] at hr
    cases hr
    exact ((h s' hs).resolve_right fun hno => by rw [hc] at hno; cases hno.1).2
  · simp only [Conc.ofHandler, Store.serve, hput] at hr
    cases hr
    exact ((h s' hs).resolve_left fun hyes => by rw [hc] at hyes; cases hyes.1).2

/-- What is below the prefix. -/
def Holds (path : String) (keys : List String) (s : Store) : Prop :=
  ∀ key, startswith key path = true → (s.get key ≠ none ↔ key ∈ keys)

theorem Apart.holds {keys : List String} {s s' : Store} (h : Apart path s s') (hs : Holds path keys s) : Holds path keys s' :=
  fun key hkey => by rw [h key hkey, hs key hkey]

/-- The key of an object. -/
def object_key (config : DisposableConfig hexdigest) (item : RepositoryObject) : String :=
  config.root ++ "repository/" ++ item.relative_key

theorem object_key_own (item : RepositoryObject) : startswith (object_key config item) config.root = true :=
  startswith_iff.2 ⟨"repository/" ++ item.relative_key, String.append_assoc⟩

theorem serve_read {x : StoredObject} (h : ∀ s', R s s' → s'.get key = some x) : (read_remote key : Cmd σ _).wp
    (Conc.ofHandler Store.serve) R AnyStep (Cmd.Gives (fun y _ s' => y = x ∧ R s s') Never) st s := by
  unfold read_remote
  rw [Cmd.wp_bind]
  intro s' hs r s'' hr
  cases hr
  refine ⟨trivial, ?_⟩
  rw [h s' hs]
  exact ⟨rfl, hs⟩

theorem verify_remote_value {remote : StoredObject} : _verify_remote key remote.value remote = .ok () := by
  unfold _verify_remote
  rw [if_neg (not_not.2 rfl), if_neg (not_not.2 rfl)]
  rfl

theorem read_digest {item : RepositoryObject} {body : ByteArray} (h : item.read hexdigest = .ok body) :
    hexdigest body = item.sha256 := by
  unfold RepositoryObject.read at h
  rw [except_check_eq_ok, not_or, not_not, not_not] at h
  obtain ⟨⟨-, hdigest⟩, h⟩ := h
  cases h
  exact hdigest

theorem upload_serves {item : RepositoryObject} {body : ByteArray} (hread : item.read hexdigest = .ok body) {keys : List String}
    (hnew : object_key config item ∉ keys) {st : List IntegrationEvent} (hs : Holds config.root keys s) :
    (upload config item).wp (Conc.ofHandler Store.serve) (Apart config.root) AnyStep
      (Cmd.Gives (fun _ _ s' => Holds config.root (keys ++ [object_key config item]) s') Never) st s := by
  unfold upload
  dsimp only
  rw [hread, Cmd.wp_ok_bind, Cmd.wp_bind]
  refine serve_put fun s₁ h₁ => .inl ⟨?_, ?_⟩
  · rw [Conc.Cond.holds_ifNoneMatch]
    by_contra hget
    exact hnew ((h₁.holds hs _ (object_key_own item)).1 hget)
  rw [Cmd.after_ok]
  refine Cmd.wp_gives record_wp fun _ st s₂ h₂ => ?_
  subst h₂
  refine Cmd.wp_gives (serve_read fun s₂ h₂ => (h₂ _ (object_key_own item)).trans (Conc.CondStore.get_write_self _ _ _))
    fun remote st s₂ h₂ => ?_
  obtain ⟨rfl, h₂⟩ := h₂
  have hverify : _verify_remote (config.root ++ "repository/" ++ item.relative_key) ⟨body, item.metadata⟩
      ⟨⟨body, item.metadata⟩, s₁.revision⟩ = .ok () := verify_remote_value
  rw [hverify, Cmd.wp_ok_bind, if_neg (not_not.2 (read_digest hread))]
  have hwritten : Holds config.root (keys ++ [object_key config item])
      (s₁.write (object_key config item) ⟨body, item.metadata⟩) := by
    intro key hkey
    rw [Conc.CondStore.get_write, List.mem_append, List.mem_singleton]
    split
    · next heq => simp [heq]
    · next hne =>
      rw [h₁.holds hs key hkey]
      simp [hne]
  exact h₂.holds hwritten

theorem uploads_serve : ∀ {inventory : List RepositoryObject} {keys : List String} {st : List IntegrationEvent} {s : Store},
    (∀ item ∈ inventory, ∃ body, item.read hexdigest = .ok body) → (keys ++ inventory.map (object_key config)).Nodup →
    Holds config.root keys s → (inventory.forM (upload config)).wp (Conc.ofHandler Store.serve) (Apart config.root) AnyStep
      (Cmd.Gives (fun _ _ s' => Holds config.root (keys ++ inventory.map (object_key config)) s') Never) st s
  | [], keys, st, s, _, _, hs => by
    rw [List.map_nil, List.append_nil]
    exact hs
  | item :: inventory, keys, st, s, hread, hnodup, hs => by
    obtain ⟨⟨body, hbody⟩, hread⟩ := List.forall_mem_cons.1 hread
    have hnew : object_key config item ∉ keys := fun hmem =>
      (List.nodup_append.1 hnodup).2.2 _ hmem _ List.mem_cons_self rfl
    rw [List.map_cons, List.append_cons] at hnodup ⊢
    refine Cmd.wp_gives (upload_serves hbody hnew hs) fun _ st s hs => ?_
    exact uploads_serve hread hnodup hs

/-- The listing is the keys, in order. -/
theorem list_serve {keys : List String} (hsorted : keys.Pairwise (· ≤ ·)) (hnodup : keys.Nodup)
    (hunder : ∀ key ∈ keys, startswith key path = true) (hs : Holds path keys s) :
    (list_keys path : Cmd σ _).wp (Conc.ofHandler Store.serve) (Apart path) AnyStep
      (Cmd.Gives (fun listed _ s' => listed = keys ∧ Holds path keys s') Never) st s := by
  unfold list_keys
  rw [Cmd.wp_bind]
  intro s' hs' r s'' hr
  cases hr
  refine ⟨trivial, ?_, hs'.holds hs⟩
  have hmem : ∀ key, key ∈ (s'.listing path).map (·.1) ↔ key ∈ keys := fun key => by
    rw [mem_listed]
    constructor
    · rintro ⟨hunder, hget⟩
      exact (hs'.holds hs key hunder).1 hget
    · intro hkey
      exact ⟨hunder key hkey, (hs'.holds hs key (hunder key hkey)).2 hkey⟩
  have hperm := (List.perm_ext_iff_of_nodup (Store.nodup_listing s' path) hnodup).2 hmem
  refine hperm.eq_of_pairwise (fun a b _ _ hab hba => le_antisymm hab hba) ?_ hsorted
  exact List.pairwise_map.2 (List.pairwise_insertionSort (fun a b : String × Nat => a.1 ≤ b.1) _)

variable {inventory : List RepositoryObject}

theorem Holds.perm {keys keys' : List String} (h : keys.Perm keys') (hs : Holds path keys s) : Holds path keys' s :=
  fun key hkey => (hs key hkey).trans h.mem_iff

theorem upload_repository_serves (hnonempty : inventory ≠ []) (hread : ∀ item ∈ inventory, ∃ body, item.read hexdigest = .ok body)
    (hdistinct : (inventory.map (·.relative_key)).Nodup) {st : List IntegrationEvent} (hs : Clear config.root s) :
    (_upload_repository config inventory).wp (Conc.ofHandler Store.serve) (Apart config.root) AnyStep
      (Cmd.Gives (fun _ _ s' => Holds config.root (inventory.map (object_key config)) s') Never) st s := by
  have hnodup : (inventory.map (object_key config)).Nodup := by
    have hinj : Function.Injective fun key => config.root ++ "repository/" ++ key := fun a b hab => by
      simp only [String.ext_iff, String.toList_append, List.append_cancel_left_eq] at hab
      exact String.ext hab
    have hkeys := hdistinct.map hinj
    rwa [List.map_map] at hkeys
  unfold _upload_repository
  rw [if_neg hnonempty]
  have hempty : Holds config.root [] s := fun key hkey => by simp [hs key hkey]
  refine Cmd.wp_gives (uploads_serve hread (by simpa using hnodup) hempty) fun _ st s hs => ?_
  rw [List.nil_append] at hs
  have hperm : (inventory.map (object_key config)).Perm (uploaded config inventory) := (List.perm_insertionSort _ _).symm
  have hunder : ∀ key ∈ uploaded config inventory, startswith key config.root = true := fun key hkey => by
    obtain ⟨item, -, rfl⟩ := List.mem_map.1 (hperm.mem_iff.2 hkey)
    exact object_key_own item
  refine Cmd.wp_gives (list_serve (List.pairwise_insertionSort _ _) (hperm.nodup_iff.1 hnodup) hunder (hs.perm hperm))
    fun listed st s h => ?_
  obtain ⟨hlisted, hs⟩ := h
  have hlisted : listed = uploaded config inventory := hlisted
  rw [if_neg (not_not.2 hlisted)]
  exact hs.perm hperm.symm

theorem update_wins {etag : Nat} {value : ObjectValue} (h : ∀ s', R s s' → (Conc.Cond.ifMatch etag).holds (s'.get key) = true) :
    (update key etag value : Cmd σ _).wp (Conc.ofHandler Store.serve) R AnyStep
      (Cmd.Gives (fun outcome _ s₂ => outcome = .ok ("2xx", value) ∧ ∃ s', R s s' ∧ s₂ = s'.write key value) Never) st s := by
  unfold update
  rw [Cmd.wp_tryCatch, Cmd.wp_bind]
  exact serve_put fun s' hs => .inl ⟨h s' hs, rfl, s', hs, rfl⟩

theorem update_loses {etag : Nat} {value : ObjectValue} (h : ∀ s', R s s' → (Conc.Cond.ifMatch etag).holds (s'.get key) = false) :
    (update key etag value : Cmd σ _).wp (Conc.ofHandler Store.serve) R AnyStep
      (Cmd.Gives (fun outcome _ s₂ => outcome = .ok ("412", value) ∧ R s s₂) Never) st s := by
  unfold update
  rw [Cmd.wp_tryCatch, Cmd.wp_bind]
  exact serve_put fun s' hs => .inr ⟨h s' hs, rfl, hs⟩

theorem probe_key_new : config.root ++ "checks/cas.json" ∉ inventory.map (object_key config) := by
  intro hmem
  obtain ⟨item, -, heq⟩ := List.mem_map.1 hmem
  simp only [object_key, String.ext_iff, String.toList_append, List.append_assoc, List.append_cancel_left_eq] at heq
  exact absurd (congrArg List.head? heq) (by simp)

/-- The race has one winner, the first. -/
theorem cas_probe_serves (hs : Holds config.root (inventory.map (object_key config)) s) {st : List IntegrationEvent} :
    (_cas_probe str config one_first).wp (Conc.ofHandler Store.serve) (Apart config.root) AnyStep
      (Cmd.Gives (fun _ _ _ => True) Never) st s := by
  have hown : startswith (config.root ++ "checks/cas.json") config.root = true := own_append
  unfold _cas_probe
  dsimp only
  rw [Cmd.wp_bind]
  refine serve_put fun s₁ h₁ => .inl ⟨?_, ?_⟩
  · rw [Conc.Cond.holds_ifNoneMatch]
    by_contra hget
    exact probe_key_new ((h₁.holds hs _ hown).1 hget)
  rw [Cmd.after_ok]
  refine Cmd.wp_gives record_wp fun _ st s₂ h₂ => ?_
  subst h₂
  refine Cmd.wp_gives (update_wins fun s₂ h₂ => ?_) fun first st s₂ hfirst => ?_
  · rw [h₂ _ hown, Conc.CondStore.get_write_self, Conc.Cond.holds_ifMatch]
    exact ⟨_, rfl, rfl⟩
  obtain ⟨rfl, s₂, h₂, rfl⟩ := hfirst
  -- the tag of the second version is new
  have hnew : s₁.revision < s₂.revision := by
    have hget := h₂ _ hown
    rw [Conc.CondStore.get_write_self] at hget
    exact Conc.CondStore.etag_lt hget
  refine Cmd.wp_gives (update_loses fun s₃ h₃ => ?_) fun second st s₃ hsecond => ?_
  · rw [h₃ _ hown, Conc.CondStore.get_write_self, Bool.eq_false_iff, Ne, Conc.Cond.holds_ifMatch]
    rintro ⟨x, hx, hetag⟩
    cases hx
    exact absurd hetag hnew.ne'
  obtain ⟨rfl, h₃⟩ := hsecond
  have hwinning : ∀ {a b : ObjectValue}, winning str [.ok ("2xx", a), .ok ("412", b)] = .ok a := by
    intro a b
    rw [winning_pair, sorted_statuses.2.1]
    rfl
  rw [hwinning, Cmd.wp_ok_bind]
  refine Cmd.wp_gives (serve_read fun s₄ h₄ => ((h₃.trans h₄) _ hown).trans (Conc.CondStore.get_write_self _ _ _))
    fun remote st s₄ h₄ => ?_
  obtain ⟨rfl, -⟩ := h₄
  have hverify : _verify_remote (config.root ++ "checks/cas.json") (writer (if one_first then "one" else "two"))
      ⟨writer (if one_first then "one" else "two"), s₂.revision⟩ = .ok () := verify_remote_value
  rw [hverify, Cmd.wp_ok_bind]
  trivial

theorem run_serves (hhex : ∀ b, isSha256 (hexdigest b) = true) (hclear : Clear config.root s) (hnonempty : inventory ≠ [])
    (hread : ∀ item ∈ inventory, ∃ body, item.read hexdigest = .ok body) (hdistinct : (inventory.map (·.relative_key)).Nodup) :
    (Disposable.run str config one_first inventory).wp (Conc.ofHandler Store.serve) (Apart config.root) AnyStep
      (Cmd.Gives (fun _ _ _ => True) Never) [] s := by
  unfold Disposable.run
  have hempty : Holds config.root [] s := fun key hkey => by simp [hclear key hkey]
  refine Cmd.wp_gives (list_serve List.Pairwise.nil List.nodup_nil (by simp) hempty) fun preexisting st s₁ hpreflight => ?_
  obtain ⟨rfl, hempty⟩ := hpreflight
  simp only [ne_eq, not_true_eq_false, if_false]
  refine Cmd.wp_gives record_wp fun _ st s₁ h₁ => ?_
  subst h₁
  refine Cmd.wp_gives (I := fun primary_error _ _ => primary_error = none) ?_ fun primary_error st s₁ hprimary => ?_
  · unfold qualify
    rw [Cmd.wp_tryCatch]
    have hs₁ : Clear config.root s₁ := fun key hkey => by
      by_contra hget
      exact List.not_mem_nil ((hempty key hkey).1 hget)
    refine Cmd.wp_mono (Q := Cmd.Gives (fun primary_error _ _ => primary_error = none) Never)
      (Cmd.wp_gives (upload_repository_serves hnonempty hread hdistinct hs₁) fun _ st s hs => ?_) fun r st s hr => ?_
    · exact Cmd.wp_gives (cas_probe_serves hs) fun _ _ _ _ => rfl
    · cases r with
      | ok primary_error => exact hr
      | error e => exact hr.elim
  · subst hprimary
    refine Cmd.wp_gives (I := fun _ _ _ => True) ?_ fun _ st s₁ _ => trivial
    rw [Cmd.wp_tryCatch]
    refine Conc.wp_mono (fun _ _ hs => hs) (fun _ _ _ => trivial) (fun r s hr => ?_)
      (finish_wp sweeps_serve (config.validated hhex))
    obtain ⟨r, st⟩ := r
    cases r with
    | ok _ => trivial
    | error e => exact hr.elim

/-- **A store that answers.** A run passes on a store that takes its conditional writes one after the other, if nothing is
below its prefix, the inventory can be read, and its keys are distinct. -/
theorem qualifies (hhex : ∀ b, isSha256 (hexdigest b) = true) (hclear : Clear config.root s) (hnonempty : inventory ≠ [])
    (hread : ∀ item ∈ inventory, ∃ body, item.read hexdigest = .ok body) (hdistinct : (inventory.map (·.relative_key)).Nodup)
    {tr r st s'} (h : Conc.Trace (Conc.ofHandler Store.serve) (Apart config.root)
      (Disposable.run str config one_first inventory []) s tr (.ret (r, st)) s') : ∃ events, r = .ok events := by
  have hr := (Conc.wp_trace h (run_serves hhex hclear hnonempty hread hdistinct)).2
  cases r with
  | ok events => exact ⟨events, rfl⟩
  | error e => exact hr.elim

end

/-! Two runs of one repository. -/

namespace Sample

/-- SHA-256 of `kogeler/dkc-linux` and of no bytes. -/
def hexdigest (b : ByteArray) : String :=
  if b.data = "kogeler/dkc-linux".toUTF8.data then "b699e8a47c9ea3da92eb3942a5996868441163cf0cd5dabf4d46bb6acb010abe"
  else "e3b0c44298fc1c149afbf4c8996fb92427ae41e4649b934ca495991b7852b855"

theorem hexdigest_hex (b : ByteArray) : isSha256 (hexdigest b) = true := by
  unfold hexdigest
  split <;> decide

def config (nonce root : String) (h : build_disposable_prefix hexdigest "kogeler/dkc-linux" "1234567890" nonce = .ok root) :
    DisposableConfig hexdigest := ⟨"kogeler/dkc-linux", "1234567890", nonce, root, h⟩

def first : DisposableConfig hexdigest := config "0123456789abcdef0123456789abcdef"
  "_dkc-test/storage/b699e8a47c9ea3da92eb3942/1234567890-0123456789abcdef0123456789abcdef/" (by rfl)

def second : DisposableConfig hexdigest := config "fedcba9876543210fedcba9876543210"
  "_dkc-test/storage/b699e8a47c9ea3da92eb3942/1234567890-fedcba9876543210fedcba9876543210/" (by rfl)

def inventory : List RepositoryObject := [⟨"pool/dkc.deb", ⟨#[]⟩, hexdigest ⟨#[]⟩, 0, probe_metadata⟩]

def runs (one : Bool) : Integration hexdigest := ⟨if one then first else second, one, inventory⟩

theorem roots : first.root ≠ second.root := by decide

theorem clear : Clear first.root (Conc.CondStore.empty : Store) := fun _ _ => rfl

theorem readable : ∀ item ∈ inventory, ∃ body, item.read hexdigest = .ok body :=
  List.forall_mem_singleton.2 ⟨⟨#[]⟩, rfl⟩

/-- A command ends on a store that answers. -/
theorem ends {α : Type} (c : Cmd (List IntegrationEvent) α) : ∃ tr r st s', Conc.Trace (Conc.ofHandler Store.serve)
    (Apart first.root) (c []) Conc.CondStore.empty tr (.ret (r, st)) s' := by
  obtain ⟨tr, htr⟩ : ∃ tr, Conc.Trace (Conc.ofHandler Store.serve) (Apart first.root) (c []) Conc.CondStore.empty tr
      (.ret ((c []).run Store.serve Conc.CondStore.empty).1) ((c []).run Store.serve Conc.CondStore.empty).2 :=
    Conc.trace_run (fun _ _ _ _ h => h) (fun _ _ _ => rfl) (c []) Conc.CondStore.empty
  exact ⟨tr, _, _, _, htr⟩

end Sample

theorem qualifies_sample : ∃ tr events st s', Conc.Trace (Conc.ofHandler Store.serve) (Apart Sample.first.root)
    (Disposable.run (fun _ => "") Sample.first true Sample.inventory []) Conc.CondStore.empty tr (.ret (.ok events, st)) s' := by
  obtain ⟨tr, r, st, s', h⟩ := Sample.ends (Disposable.run (fun _ => "") Sample.first true Sample.inventory)
  obtain ⟨events, rfl⟩ := qualifies Sample.hexdigest_hex Sample.clear (List.cons_ne_nil _ _) Sample.readable
    (List.nodup_singleton _) h
  exact ⟨tr, events, st, s', h⟩

/-- A run on any store has a log. -/
theorem answered_trace {α W : Type} {sem : (op : Op) → W → op.Res → W → Prop} {p p' : Proc α} {w w' : W} {tr} {R : W → W → Prop}
    (h : Conc.Trace sem R p w tr p' w') : ∀ log, ∃ tr' log', Conc.Trace Answered Eq p log tr' p' log' := by
  induction h with
  | nil => exact fun log => ⟨[], log, .nil⟩
  | @op o k r _ _ _ _ _ _ _ _ _ ih =>
    intro log
    obtain ⟨tr', log', htr⟩ := ih (log ++ [⟨o, r⟩])
    exact ⟨_, log', .op rfl rfl htr⟩

theorem passes_sample : ∃ qualified, Qualified Sample.first true Sample.inventory qualified := by
  obtain ⟨tr, r, st, s', h⟩ := Sample.ends (Disposable.run (fun _ => "") Sample.first true Sample.inventory)
  have hr := (Conc.wp_trace h (run_serves Sample.hexdigest_hex Sample.clear (List.cons_ne_nil _ _) Sample.readable
    (List.nodup_singleton _))).2
  cases r with
  | error e => exact hr.elim
  | ok events =>
    obtain ⟨_, _, hlog⟩ := answered_trace h []
    obtain ⟨qualified, _, hqualified, -⟩ := passes hlog
    exact ⟨qualified, hqualified⟩

end Disposable
