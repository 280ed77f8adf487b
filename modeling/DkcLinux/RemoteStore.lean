import DkcLinux.Conc.Rely
import DkcLinux.S3Listing
import DkcLinux.StorageRepository
import DkcLinux.Text.Words

/-!
# Conditional writes over HTTP (`dkc/remote_store.py:19-107`, `dkc/s3.py:236-245, 384-511`)

`S3ObjectStore.put` sends one conditional write, again only while the server answers 429, and reads the key where the
outcome is unknown. What the server does with a request, and what the other writers do between two requests, is a
relation (`Answers`, `Others`).

| answer to a PUT                  | applied | then                              |
|----------------------------------|---------|-----------------------------------|
| 200                              | yes     | returns, or reads the key (ETag)  |
| 412                              | no      | `PreconditionFailed`              |
| 429                              | no      | sends again, or raises            |
| 500, 502, 503, 504, lost         | unknown | reads the key                     |
| anything else                    | unknown | raises                            |

A header is sent with its blanks squeezed. So metadata with more blanks than that is stored otherwise than `put`
returns it (`stored_otherwise`); `at_most_once` says the rest.
-/

namespace RemoteStore

open Py S3 Conc

/-! ## Requests -/

inductive Method where
  | GET
  | PUT
deriving DecidableEq

structure SignedRequest where
  method : Method
  key : String
  headers : List (String × String)
  body : List UInt8
deriving DecidableEq

inductive Op where
  | request (r : SignedRequest)
  | sleep (seconds : Nat)

abbrev Op.Res : Op → Type
  | request _ => Answer
  | sleep _ => Unit

/-- What talks to the store, and may raise. -/
abbrev Call (α : Type) := Prog Op Op.Res (Except PyErr α)

/-- What follows a result. -/
def Call.andThen {α β : Type} (c : Call α) (f : α → Call β) : Call β := c.bind fun
  | .ok a => f a
  | .error e => .ret (.error e)

/-- What follows an exception. -/
def Call.except {α : Type} (c : Call α) (handler : PyErr → Call α) : Call α := c.bind fun
  | .ok a => .ret (.ok a)
  | .error e => handler e

/-- `" ".join(value.strip().split())`. -/
def squeezed (value : String) : String := String.ofList (squeeze (strip value.toList))

def normalize_header_value (value : String) : Except PyErr String :=
  if Records.hasControl value then .error (.ValueError "request header contains a control character")
  else .ok (squeezed value)

/-- The request less its signature; the names of the headers are those of `put`. -/
def signed_request (method : Method) (key : String) (body : List UInt8) (headers : List (String × String)) :
    Except PyErr SignedRequest := do
  safe_key key
  let request_headers ← headers.mapM fun item => do .ok (item.1, ← normalize_header_value item.2)
  .ok ⟨method, key, request_headers, body⟩

/-- One request of `_send`, and what is sent after it. -/
def attempt (policy : Policy) (request : Except PyErr SignedRequest) (attempt : Nat) (retry_allowed : Bool)
    (again : Call (List (String × String) × List UInt8)) : Call (List (String × String) × List UInt8) :=
  match request with
  | .error e => .ret (.error e)
  | .ok r => .op (.request r) fun answer =>
    match judge policy attempt retry_allowed answer with
    | .accept headers body => .ret (.ok (headers, body))
    | .refuse e => .ret (.error e)
    | .retry delay => .op (.sleep delay) fun _ => again

/-- `_send`: `left` more than this request may be sent. -/
def send (policy : Policy) (request : Except PyErr SignedRequest) : Nat → Nat → Call (List (String × String) × List UInt8)
  | 0, n => attempt policy request n false (.ret (.error .AssertionError))
  | left + 1, n => attempt policy request n true (send policy request left (n + 1))

/-! ## The client -/

/-- `"[^"\x00-\x1f\x7f]+"`. -/
def isEtag (value : String) : Bool :=
  match value.toList with
  | [] => false
  | first :: rest =>
    first = '\x22' && rest.getLast? = some '\x22' && rest.dropLast ≠ [] &&
      rest.dropLast.all fun c => c ≠ '\x22' && !isControl c

def etag (headers : List (String × String)) (operation : String) : Except PyErr String :=
  match header headers "etag" with
  | none => .error (failed operation 502 "missing or unsafe ETag")
  | some value => if isEtag value then .ok value else .error (failed operation 502 "missing or unsafe ETag")

structure RemoteObject where
  body : List UInt8
  metadata : ObjectMetadata
  etag : String
deriving DecidableEq

def put_policy (key : String) : Policy := ⟨"PutObject " ++ key, [200], true, false⟩

def get_policy (key : String) : Policy := ⟨"GetObject " ++ key, [200], false, true⟩

def put_headers (metadata : ObjectMetadata) (if_none_match : Bool) (if_match : Option String) :
    Except PyErr (List (String × String)) :=
  let headers := [("cache-control", metadata.cache_control), ("content-type", metadata.content_type)]
  if if_none_match = if_match.isSome then .error (.ValueError "a write requires exactly one conditional precondition")
  else if if_none_match then .ok (headers ++ [("if-none-match", "*")])
  else
    match if_match with
    | none => .error (.ValueError "If-Match requires one opaque quoted ETag")
    | some tag =>
      if isEtag tag then .ok (headers ++ [("if-match", tag)])
      else .error (.ValueError "If-Match requires one opaque quoted ETag")

def read_object (operation : String) (headers : List (String × String)) (body : List UInt8) : Except PyErr RemoteObject :=
  match header headers "content-type", header headers "cache-control" with
  | some content_type, some cache_control => do
    let m ← StorageRepository.metadata content_type cache_control
    let tag ← etag headers operation
    .ok ⟨body, m, tag⟩
  | _, _ => .error (failed operation 502 "required HTTP metadata is absent")

section
variable (client : S3Client)

def client_put (key : String) (body : List UInt8) (metadata : ObjectMetadata) (if_none_match : Bool)
    (if_match : Option String) : Call String :=
  match put_headers metadata if_none_match if_match with
  | .error e => .ret (.error e)
  | .ok headers =>
    (send (put_policy key) (signed_request .PUT key body headers) (client.max_attempts - 1) 1).andThen fun response =>
      .ret (etag response.1 (put_policy key).operation)

def client_get (key : String) : Call RemoteObject :=
  (send (get_policy key) (signed_request .GET key [] []) (client.max_attempts - 1) 1).andThen fun response =>
    .ret (read_object (get_policy key).operation response.1 response.2)

/-- `NotFound` is the failure with status 404. -/
def get_optional (key : String) : Call (Option RemoteObject) := (client_get client key).bind fun
  | .ok current => .ret (.ok (some current))
  | .error (.RemoteStoreError 404 _) => .ret (.ok none)
  | .error e => .ret (.error e)

end

/-! ## The store -/

def validate_namespace (value : String) : Except PyErr Unit :=
  let parts := value.toList.splitOn '/'
  if value = "" then .ok ()
  else if !endswith value "/" || startswith value "/" || value.toList.any (fun c => c = '*' || c = '\\') ||
      Records.hasControl value || parts.dropLast.any (fun part => part = [] || part = ['.'] || part = ['.', '.']) ||
      parts.getLast? ≠ some [] then
    .error (.ValueError "unsafe object-store namespace")
  else .ok ()

structure S3ObjectStore where
  client : S3Client
  namespace_ : String
  valid : validate_namespace namespace_ = .ok ()

/-- The statuses after which a write may have been applied. -/
def AMBIGUOUS_STATUSES : List Nat := [0, 500, 502, 503, 504]

def ambiguous : PyErr → Bool
  | .RemoteStoreError status _ => status ∈ AMBIGUOUS_STATUSES
  | _ => false

namespace S3ObjectStore

variable (store : S3ObjectStore)

def key (key : String) : Except PyErr String :=
  if key = "" || startswith key "/" || endswith key "/" then .error (.ValueError "unsafe logical object key")
  else .ok (store.namespace_ ++ key)

def get (key : String) : Call (Option RemoteObject) :=
  match store.key key with
  | .error e => .ret (.error e)
  | .ok remote_key => get_optional store.client remote_key

/-- The read after an unknown outcome. -/
def reconcile (remote_key : String) (body : List UInt8) (metadata : ObjectMetadata) (e : PyErr) : Call RemoteObject :=
  (get_optional store.client remote_key).andThen fun
    | some current => if current.body = body ∧ current.metadata = metadata then .ret (.ok current) else .ret (.error e)
    | none => .ret (.error e)

def put (key : String) (body : List UInt8) (metadata : ObjectMetadata) (if_none_match : Bool) (if_match : Option String) :
    Call RemoteObject :=
  match store.key key with
  | .error e => .ret (.error e)
  | .ok remote_key =>
    ((client_put store.client remote_key body metadata if_none_match if_match).andThen fun tag =>
      .ret (.ok ⟨body, metadata, tag⟩)).except fun e =>
        if ambiguous e then store.reconcile remote_key body metadata e else .ret (.error e)

def create_immutable (key : String) (body : List UInt8) (metadata : ObjectMetadata) : Call RemoteObject :=
  (store.put key body metadata true none).except fun
    | .PreconditionFailed _ => (store.get key).andThen fun
      | some current =>
        if current.body = body ∧ current.metadata = metadata then .ret (.ok current)
        else .ret (.error (.PreconditionFailed ("immutable object collision for " ++ key)))
      | none => .ret (.error (.PreconditionFailed ("immutable object collision for " ++ key)))
    | e => .ret (.error e)

end S3ObjectStore

/-! ## The server and the other writers -/

/-- What a key holds. -/
structure Stored where
  body : List UInt8
  content_type : String
  cache_control : String
  etag : String

abbrev Bucket := String → Option Stored

def status : Answer → Option Nat
  | .response status _ _ => some status
  | .failure _ _ => none

namespace SignedRequest

/-- The precondition of a write. -/
def Holds (r : SignedRequest) (current : Option Stored) : Prop :=
  (header r.headers "if-none-match" = some "*" → current = none) ∧
    ∀ tag ∈ header r.headers "if-match", current.map (·.etag) = some tag

instance (r : SignedRequest) (current : Option Stored) : Decidable (r.Holds current) :=
  inferInstanceAs (Decidable (_ ∧ ∀ tag ∈ header r.headers "if-match", _))

/-- What a write stores. -/
def stored (r : SignedRequest) (tag : String) : Stored :=
  ⟨r.body, (header r.headers "content-type").getD "", (header r.headers "cache-control").getD "", tag⟩

end SignedRequest

/-- A read that is answered with a body shows what is stored; headers may be missing. -/
def Shows (current : Option Stored) (headers : List (String × String)) (body : List UInt8) : Prop :=
  ∃ v, current = some v ∧ v.body = body ∧
    (∀ text, header headers "content-type" = some text → v.content_type = text) ∧
      ∀ text, header headers "cache-control" = some text → v.cache_control = text

/-- Whether a request is applied, how it is answered, and the bucket after it. -/
inductive Answers (r : SignedRequest) (before : Bucket) : Bool → Answer → Bucket → Prop
  | applied {answer : Answer} (tag : String) : r.method = .PUT → r.Holds (before r.key) → status answer ≠ some 412 →
      status answer ≠ some 429 → Answers r before true answer (Function.update before r.key (some (r.stored tag)))
  | not_applied {answer : Answer} : r.method = .PUT → status answer ≠ some 200 → Answers r before false answer before
  | read {answer : Answer} : r.method = .GET → status answer ≠ some 412 →
      (∀ headers body, answer = .response 200 headers body → Shows (before r.key) headers body) →
      Answers r before false answer before

/-- A request of this call, and what became of it. -/
structure Exchange where
  request : SignedRequest
  answer : Answer
  applied : Bool
  before : Bucket
  after : Bucket

/-- What is stored, and the requests of this call so far. -/
structure World where
  bucket : Bucket
  sent : List Exchange

/-- The transport fails with status 0 only. -/
def Transport (answer : Answer) : Prop := ∀ code msg, answer = .failure code msg → code = 0

def Served (x : Exchange) : Prop := Answers x.request x.before x.applied x.answer x.after ∧ Transport x.answer

def Serves : (o : Op) → World → o.Res → World → Prop
  | .request r, w, answer, w' => ∃ x : Exchange, Served x ∧ x.request = r ∧ x.answer = answer ∧ x.before = w.bucket ∧
      w' = ⟨x.after, w.sent ++ [x]⟩
  | .sleep _, w, _, w' => w' = w

/-- The other writers store and delete what they like. -/
def Others (w w' : World) : Prop := w'.sent = w.sent

/-! ## What a call does -/

inductive Operation where
  | put (if_none_match : Bool) (if_match : Option String)
  | create_immutable
deriving DecidableEq

def Operation.run (operation : Operation) (store : S3ObjectStore) (key : String) (body : List UInt8)
    (metadata : ObjectMetadata) : Call RemoteObject :=
  match operation with
  | .put if_none_match if_match => store.put key body metadata if_none_match if_match
  | .create_immutable => store.create_immutable key body metadata

/-- A write that may have been applied, as far as its answer tells. -/
def Unknown (x : Exchange) : Prop :=
  x.request.method = .PUT ∧ status x.answer ≠ some 200 ∧ status x.answer ≠ some 412 ∧ status x.answer ≠ some 429

/-- One write at most, and none after an unknown outcome. -/
structure AtMostOnce (sent : List Exchange) : Prop where
  once : (sent.filter fun x => x.applied).length ≤ 1
  known : sent.Pairwise fun x y => Unknown x → y.request.method ≠ .PUT

/-- Nothing that exists changes. -/
def KeepsExisting (sent : List Exchange) : Prop := ∀ x ∈ sent, ∀ key v, x.before key = some v → x.after key = some v

/-- The bytes, and the metadata as they are given or as they are sent. -/
def HoldsValue (body : List UInt8) (metadata : ObjectMetadata) (v : Stored) : Prop :=
  v.body = body ∧ ((v.content_type = metadata.content_type ∧ v.cache_control = metadata.cache_control) ∨
    (v.content_type = squeezed metadata.content_type ∧ v.cache_control = squeezed metadata.cache_control))

/-- What the result of a call says about its requests. -/
structure Honest (operation : Operation) (key : String) (body : List UInt8) (metadata : ObjectMetadata)
    (result : Except PyErr RemoteObject) (sent : List Exchange) : Prop where
  stored : ∀ o, result = .ok o → ∃ x ∈ sent, ∃ v, x.after key = some v ∧ HoldsValue body metadata v
  lost : operation ≠ .create_immutable → ∀ msg, result = .error (.PreconditionFailed msg) →
    ∀ x ∈ sent, x.applied = false

/-! ## Phases -/

/-- A write that is sent again. -/
def Throttled (request : SignedRequest) (x : Exchange) : Prop := x.request = request ∧ status x.answer = some 429

/-- The writes have been answered 429, all of them. -/
structure Fresh (request : SignedRequest) (sent : List Exchange) : Prop where
  served : ∀ x ∈ sent, Served x
  throttled : ∀ x ∈ sent, Throttled request x

/-- The last write has been sent, and reads after it. -/
structure Settled (request : SignedRequest) (last : Exchange) (sent : List Exchange) : Prop where
  served : ∀ x ∈ sent, Served x
  split : ∃ throttled reads, sent = throttled ++ last :: reads ∧ (∀ x ∈ throttled, Throttled request x) ∧
    last.request = request ∧ ∀ x ∈ reads, x.request.method = .GET

/-- What holds between two requests. -/
def Phase (request : SignedRequest) (sent : List Exchange) : Prop :=
  Fresh request sent ∨ ∃ last, Settled request last sent

/-! ## One answer -/

section
variable {r : SignedRequest} {before after : Bucket} {applied : Bool} {answer : Answer}

theorem Answers.read_only (h : Answers r before applied answer after) (hget : r.method = .GET) :
    applied = false ∧ after = before ∧ status answer ≠ some 412 ∧
      ∀ headers body, answer = .response 200 headers body → Shows (before r.key) headers body := by
  cases h with
  | applied tag hput => rw [hget] at hput; cases hput
  | not_applied hput => rw [hget] at hput; cases hput
  | read _ h412 hshows => exact ⟨rfl, rfl, h412, hshows⟩

theorem Answers.refused (h : Answers r before applied answer after)
    (hstatus : status answer = some 412 ∨ status answer = some 429) : applied = false := by
  cases h with
  | applied tag _ _ h412 h429 => exact (hstatus.elim h412 h429).elim
  | not_applied => rfl
  | read => rfl

theorem Answers.accepted (h : Answers r before applied answer after) (hput : r.method = .PUT)
    (hstatus : status answer = some 200) : ∃ tag, after = Function.update before r.key (some (r.stored tag)) := by
  cases h with
  | applied tag => exact ⟨tag, rfl⟩
  | not_applied _ h200 => exact absurd hstatus h200
  | read hget => rw [hput] at hget; cases hget

/-- A write with `If-None-Match: *` finds nothing where it writes. -/
theorem Answers.creates (h : Answers r before applied answer after)
    (hcreates : r.method = .PUT → header r.headers "if-none-match" = some "*") {key : String} {v : Stored}
    (hv : before key = some v) : after key = some v := by
  cases h with
  | applied tag hput hholds =>
    have hnone := hholds.1 (hcreates hput)
    have hne : key ≠ r.key := by
      rintro rfl
      rw [hnone] at hv
      cases hv
    rw [Function.update_of_ne hne]
    exact hv
  | not_applied => exact hv
  | read => exact hv

end

/-! ## From one phase to the next -/

section
variable {request : SignedRequest} {last x : Exchange} {sent : List Exchange}

theorem Fresh.nil (request : SignedRequest) : Fresh request [] := ⟨by simp, by simp⟩

theorem Fresh.again (h : Fresh request sent) (hx : Served x) (ht : Throttled request x) : Fresh request (sent ++ [x]) :=
  ⟨List.forall_mem_append.2 ⟨h.served, by simpa using hx⟩, List.forall_mem_append.2 ⟨h.throttled, by simpa using ht⟩⟩

theorem Fresh.settle (h : Fresh request sent) (hx : Served x) (hr : x.request = request) : Settled request x (sent ++ [x]) :=
  ⟨List.forall_mem_append.2 ⟨h.served, by simpa using hx⟩, sent, [], rfl, h.throttled, hr, by simp⟩

theorem Settled.read (h : Settled request last sent) (hx : Served x) (hget : x.request.method = .GET) :
    Settled request last (sent ++ [x]) := by
  obtain ⟨throttled, reads, hsplit, hthrottled, hlast, hreads⟩ := h.split
  refine ⟨List.forall_mem_append.2 ⟨h.served, by simpa using hx⟩, throttled, reads ++ [x], ?_, hthrottled, hlast, ?_⟩
  · rw [hsplit, List.append_assoc, List.cons_append]
  · exact List.forall_mem_append.2 ⟨hreads, by simpa using hget⟩

theorem Throttled.not_applied (h : Throttled request x) (hx : Served x) : x.applied = false := hx.1.refused (.inr h.2)

theorem Settled.last_mem (h : Settled request last sent) : last ∈ sent := by
  obtain ⟨throttled, reads, rfl, -⟩ := h.split
  simp

/-- Only the last write can have been applied. -/
theorem Settled.applied (h : Settled request last sent) :
    sent.filter (fun x => x.applied) = [last].filter fun x => x.applied := by
  obtain ⟨hserved, throttled, reads, rfl, hthrottled, -, hreads⟩ := h
  have hbefore : throttled.filter (fun x => x.applied) = [] := by
    rw [List.filter_eq_nil_iff]
    intro x hx
    simp [(hthrottled x hx).not_applied (hserved x (by simp [hx]))]
  have hafter : reads.filter (fun x => x.applied) = [] := by
    rw [List.filter_eq_nil_iff]
    intro x hx
    have hread := (hserved x (by simp [hx])).1.read_only (hreads x hx)
    simp [hread.1]
  rw [List.filter_append, hbefore, List.nil_append, ← List.singleton_append, List.filter_append, hafter, List.append_nil]

theorem Settled.nothing (h : Settled request last sent) (hlast : last.applied = false) : ∀ x ∈ sent, x.applied = false := by
  intro x hx
  by_contra hne
  have hmem : x ∈ sent.filter fun x => x.applied := List.mem_filter.2 ⟨hx, by simpa using hne⟩
  rw [h.applied] at hmem
  simp [hlast] at hmem

theorem Throttled.known (h : Throttled request x) : ¬ Unknown x := fun hx => hx.2.2.2 h.2

/-- **What holds in every phase.** -/
theorem Phase.atMostOnce (h : Phase request sent) : AtMostOnce sent := by
  rcases h with h | ⟨last, h⟩
  · refine ⟨?_, ?_⟩
    · have hnil : sent.filter (fun x => x.applied) = [] := by
        rw [List.filter_eq_nil_iff]
        intro x hx
        simp [(h.throttled x hx).not_applied (h.served x hx)]
      simp [hnil]
    · exact List.pairwise_of_forall_mem_list fun x hx y _ hunknown => ((h.throttled x hx).known hunknown).elim
  · refine ⟨?_, ?_⟩
    · rw [h.applied]
      exact List.length_filter_le _ _
    · obtain ⟨throttled, reads, rfl, hthrottled, hlast, hreads⟩ := h.split
      have hread : ∀ x ∈ reads, ∀ y, Unknown y → x.request.method ≠ .PUT := by
        intro x hx y _ hput
        rw [hreads x hx] at hput
        cases hput
      refine List.pairwise_append.2 ⟨?_, List.pairwise_cons.2 ⟨fun x hx => hread x hx last, ?_⟩, ?_⟩
      · exact List.pairwise_of_forall_mem_list fun x hx y _ hunknown => ((hthrottled x hx).known hunknown).elim
      · exact List.pairwise_of_forall_mem_list fun x _ y hy => hread y hy x
      · exact fun x hx y _ hunknown => ((hthrottled x hx).known hunknown).elim

end

/-! ## What a request is answered with -/

section
variable {policy : Policy} {n : Nat} {allowed : Bool} {answer : Answer}

theorem judge_accepted {headers : List (String × String)} {body : List UInt8}
    (h : judge policy n allowed answer = .accept headers body) :
    ∃ code ∈ policy.accepted, answer = .response code headers body := by
  cases answer with
  | failure code msg =>
    simp only [judge] at h
    split at h <;> cases h
  | response code headers' body' =>
    by_cases hcode : code ∈ policy.accepted
    · rw [judge, if_pos hcode] at h
      cases h
      exact ⟨code, hcode, rfl⟩
    · rw [judge, if_neg hcode] at h
      repeat' split at h
      all_goals cases h

theorem throttle_delay_quiet (headers : List (String × String)) (n : Nat) (msg : String) :
    throttle_delay headers n ≠ .error (.PreconditionFailed msg) := by
  unfold throttle_delay
  split
  · nofun
  · split
    · split <;> nofun
    · nofun

theorem judge_lost {msg : String} (h : judge policy n allowed answer = .refuse (.PreconditionFailed msg)) :
    status answer = some 412 := by
  cases answer with
  | failure code msg' =>
    simp only [judge] at h
    split at h <;> cases h
  | response code headers body =>
    by_cases h412 : code = 412
    · rw [h412]
      rfl
    · simp only [judge, if_neg h412, failed] at h
      split at h
      · cases h
      split at h
      · cases h
      split at h
      · split at h
        · cases h
        · next hdelay =>
          cases h
          exact absurd hdelay (throttle_delay_quiet headers n msg)
      · split at h <;> cases h

theorem judge_retry_allowed {delay : Nat} (h : judge policy n allowed answer = .retry delay) : allowed = true := by
  cases allowed with
  | true => rfl
  | false =>
    cases answer with
    | failure code msg => simp [judge] at h
    | response code headers body =>
      simp only [judge, Bool.and_false, Bool.false_eq_true, if_false] at h
      repeat' split at h
      all_goals cases h

theorem judge_throttled {delay : Nat} (h : judge policy n allowed answer = .retry delay) (hwrite : policy.read_only = false) :
    status answer = some 429 := by
  cases answer with
  | failure code msg' => simp [judge, hwrite] at h
  | response code headers body =>
    by_cases h429 : code = 429
    · rw [h429]
      rfl
    · simp only [judge, hwrite, h429, decide_false, Bool.and_false, Bool.false_and, Bool.false_eq_true, if_false] at h
      repeat' split at h
      all_goals cases h

end

/-! ## Rules -/

/-- Between two requests the phase holds, whatever the others do; at the end `Q` does. -/
def Runs {α : Type} (request : SignedRequest) (c : Call α) (Q : Except PyErr α → List Exchange → Prop)
    (sent : List Exchange) : Prop :=
  ∀ bucket, wp Serves Others (fun _ w => Phase request w.sent) c (fun result w => Q result w.sent) ⟨bucket, sent⟩

section
variable {request : SignedRequest} {sent : List Exchange} {α β : Type} {Q : Except PyErr α → List Exchange → Prop}

theorem runs_ret {result : Except PyErr α} (h : Q result sent) : Runs request (.ret result) Q sent := fun _ => h

theorem runs_request {r : SignedRequest} {k : Answer → Call α}
    (h : ∀ x, Served x → x.request = r → Phase request (sent ++ [x]) ∧ Runs request (k x.answer) Q (sent ++ [x])) :
    Runs request (.op (.request r) k) Q sent := by
  intro bucket w hothers answer w' hserves
  obtain ⟨x, hx, hr, rfl, -, rfl⟩ := hserves
  obtain ⟨hphase, hrest⟩ := h x hx hr
  obtain ⟨bucket', sent'⟩ := w
  obtain rfl : sent' = sent := hothers
  exact ⟨hphase, hrest x.after⟩

theorem runs_sleep {seconds : Nat} {k : Unit → Call α} (hphase : Phase request sent) (h : Runs request (k ()) Q sent) :
    Runs request (.op (.sleep seconds) k) Q sent := by
  intro bucket w hothers _ w' hserves
  obtain rfl : w' = w := hserves
  obtain ⟨bucket', sent'⟩ := w'
  obtain rfl : sent' = sent := hothers
  exact ⟨hphase, h bucket'⟩

theorem runs_post {c : Call α} {Q' : Except PyErr α → List Exchange → Prop}
    (hQ : ∀ result sent, Q' result sent → Q result sent) (h : Runs request c Q' sent) : Runs request c Q sent :=
  fun bucket => wp_post (fun result (w : World) => hQ result w.sent) (h bucket)

theorem runs_bind {c : Call α} {f : Except PyErr α → Call β} {Q : Except PyErr β → List Exchange → Prop}
    (h : Runs request c (fun result sent => Runs request (f result) Q sent) sent) : Runs request (c.bind f) Q sent :=
  fun bucket => wp_bind.2 (wp_post (fun _ w hrest => hrest w.bucket) (h bucket))

end

/-! ## Exceptions -/

/-- What an expression raises. -/
def Raises {α : Type} (P : PyErr → Prop) (x : Except PyErr α) : Prop := ∀ e, x = .error e → P e

def IsValueError (e : PyErr) : Prop := ∃ msg shown, e = .ValueError msg shown

def NotLost (e : PyErr) : Prop := ∀ msg, e ≠ .PreconditionFailed msg

section
variable {α β : Type} {P Q : PyErr → Prop}

theorem raises_ok (a : α) : Raises P (.ok a) := nofun

theorem raises_error {e : PyErr} (h : P e) : Raises P (.error e : Except PyErr α) := by
  rintro e' he
  cases he
  exact h

theorem Raises.mono {x : Except PyErr α} (h : Raises P x) (hPQ : ∀ e, P e → Q e) : Raises Q x := fun e he => hPQ e (h e he)

theorem Raises.bind {x : Except PyErr α} {f : α → Except PyErr β} (hx : Raises P x) (hf : ∀ a, Raises P (f a)) :
    Raises P (x >>= f) := by
  cases x with
  | ok a => exact hf a
  | error e => exact raises_error (hx e rfl)

theorem raises_mapM {f : α → Except PyErr β} (hf : ∀ a, Raises P (f a)) : ∀ xs : List α, Raises P (xs.mapM f)
  | [] => raises_ok []
  | x :: xs => by
    rw [List.mapM_cons]
    exact (hf x).bind fun y => (raises_mapM hf xs).bind fun ys => raises_ok (y :: ys)

end

theorem IsValueError.not_lost {e : PyErr} (h : IsValueError e) : NotLost e := by
  rintro msg rfl
  obtain ⟨_, _, h⟩ := h
  cases h

theorem not_lost_failed (operation : String) (code : Nat) (detail : String) : NotLost (failed operation code detail) := by
  intro msg h
  cases h

theorem raises_safe_key (value : String) : Raises IsValueError (safe_key value) := by
  unfold safe_key
  split
  · exact raises_error ⟨_, _, rfl⟩
  · exact raises_ok ()

theorem raises_normalize (value : String) : Raises IsValueError (normalize_header_value value) := by
  unfold normalize_header_value
  split
  · exact raises_error ⟨_, _, rfl⟩
  · exact raises_ok _

theorem raises_signed_request (method : Method) (key : String) (body : List UInt8) (headers : List (String × String)) :
    Raises IsValueError (signed_request method key body headers) := by
  unfold signed_request
  refine (raises_safe_key key).bind fun _ => (raises_mapM (fun item => ?_) headers).bind fun _ => raises_ok _
  exact (raises_normalize item.2).bind fun _ => raises_ok _

theorem raises_put_headers (metadata : ObjectMetadata) (if_none_match : Bool) (if_match : Option String) :
    Raises IsValueError (put_headers metadata if_none_match if_match) := by
  unfold put_headers
  dsimp only
  split
  · exact raises_error ⟨_, _, rfl⟩
  split
  · exact raises_ok _
  split
  · exact raises_error ⟨_, _, rfl⟩
  split
  · exact raises_ok _
  · exact raises_error ⟨_, _, rfl⟩

theorem raises_etag (headers : List (String × String)) (operation : String) : Raises NotLost (etag headers operation) := by
  unfold etag
  split
  · exact raises_error (not_lost_failed _ _ _)
  · split
    · exact raises_ok _
    · exact raises_error (not_lost_failed _ _ _)

theorem raises_metadata (content_type cache_control : String) :
    Raises NotLost (StorageRepository.metadata content_type cache_control) := by
  intro e h
  unfold StorageRepository.metadata at h
  split at h
  · cases h
  · next e' hcheck =>
    cases h
    by_cases hcontent : (content_type = "" || Records.hasControl content_type) = true <;>
      by_cases hcache : (cache_control = "" || Records.hasControl cache_control) = true <;>
      simp [ObjectMetadata.check, hcontent, hcache] at hcheck <;>
      exact hcheck ▸ IsValueError.not_lost ⟨_, _, rfl⟩

theorem raises_read_object (operation : String) (headers : List (String × String)) (body : List UInt8) :
    Raises NotLost (read_object operation headers body) := by
  unfold read_object
  split
  · exact (raises_metadata _ _).bind fun m => (raises_etag _ _).bind fun tag => raises_ok _
  · exact raises_error (not_lost_failed _ _ _)

/-! ## A write -/

section
variable {request : SignedRequest} {sent : List Exchange}

/-- The last write has been answered. -/
def Sent {α : Type} (request : SignedRequest) (result : Except PyErr α) (sent : List Exchange) : Prop :=
  ∃ last, Settled request last sent ∧ ((∃ a, result = .ok a) → status last.answer = some 200) ∧
    ((∃ msg, result = .error (.PreconditionFailed msg)) → status last.answer = some 412)

/-- One write, and what is sent after it. -/
theorem attempt_put {key : String} {n : Nat} {allowed : Bool} {again : Call (List (String × String) × List UInt8)}
    (hagain : allowed = true → ∀ sent, Fresh request sent → Runs request again (Sent request) sent)
    (h : Fresh request sent) :
    Runs request (attempt (put_policy key) (.ok request) n allowed again) (Sent request) sent := by
  refine runs_request fun x hx hr => ?_
  have hsettled := h.settle hx hr
  refine ⟨.inr ⟨x, hsettled⟩, ?_⟩
  cases hjudge : judge (put_policy key) n allowed x.answer with
  | accept headers body =>
    obtain ⟨code, hcode, hanswer⟩ := judge_accepted hjudge
    refine runs_ret ⟨x, hsettled, fun _ => ?_, by simp⟩
    rw [hanswer, List.mem_singleton.1 hcode]
    rfl
  | refuse e =>
    refine runs_ret ⟨x, hsettled, by simp, ?_⟩
    rintro ⟨msg, hmsg⟩
    rw [Except.error.inj hmsg] at hjudge
    exact judge_lost hjudge
  | retry delay =>
    have hfresh := h.again hx ⟨hr, judge_throttled hjudge rfl⟩
    exact runs_sleep (.inl hfresh) (hagain (judge_retry_allowed hjudge) _ hfresh)

/-- **The write is sent until it is not throttled.** -/
theorem send_put {key : String} : ∀ {left n : Nat} {sent : List Exchange}, Fresh request sent →
    Runs request (send (put_policy key) (.ok request) left n) (Sent request) sent
  | 0, _, _, h => attempt_put nofun h
  | _ + 1, _, _, h => attempt_put (fun _ _ hfresh => send_put hfresh) h

end

/-! ## A read -/

/-- What a read returned was stored when it was answered. -/
def Seen (key : String) (o : RemoteObject) (sent : List Exchange) : Prop :=
  ∃ x ∈ sent, ∃ v, x.after key = some v ∧ v.body = o.body ∧ v.content_type = o.metadata.content_type ∧
    v.cache_control = o.metadata.cache_control

/-- After reads only. A read does not raise `PreconditionFailed`. -/
def Read {α : Type} (request : SignedRequest) (last : Exchange) (found : α → List Exchange → Prop)
    (result : Except PyErr α) (sent : List Exchange) : Prop :=
  Settled request last sent ∧ (∀ a, result = .ok a → found a sent) ∧ Raises NotLost result

section
variable {request : SignedRequest} {last : Exchange} {sent : List Exchange} {key : String}

/-- The headers and the bytes of an answer. -/
def Answered (key : String) (response : List (String × String) × List UInt8) (sent : List Exchange) : Prop :=
  ∃ x ∈ sent, Shows (x.after key) response.1 response.2

theorem attempt_get {r : SignedRequest} {n : Nat} {allowed : Bool} {again : Call (List (String × String) × List UInt8)}
    (hget : r.method = .GET)
    (hagain : allowed = true → ∀ sent, Settled request last sent →
      Runs request again (Read request last (Answered r.key)) sent)
    (h : Settled request last sent) :
    Runs request (attempt (get_policy key) (.ok r) n allowed again) (Read request last (Answered r.key)) sent := by
  refine runs_request fun x hx hr => ?_
  obtain ⟨-, hafter, h412, hshows⟩ := hx.1.read_only (hr ▸ hget)
  have hsettled := h.read hx (hr ▸ hget)
  refine ⟨.inr ⟨last, hsettled⟩, ?_⟩
  cases hjudge : judge (get_policy key) n allowed x.answer with
  | accept headers body =>
    refine runs_ret ⟨hsettled, ?_, nofun⟩
    rintro a ha
    obtain ⟨code, hcode, hanswer⟩ := judge_accepted hjudge
    obtain rfl := List.mem_singleton.1 hcode
    cases ha
    refine ⟨x, by simp, ?_⟩
    rw [hafter, ← hr]
    exact hshows headers body hanswer
  | refuse e =>
    refine runs_ret ⟨hsettled, nofun, raises_error ?_⟩
    rintro msg rfl
    exact h412 (judge_lost hjudge)
  | retry delay => exact runs_sleep (.inr ⟨last, hsettled⟩) (hagain (judge_retry_allowed hjudge) _ hsettled)

theorem send_get {r : SignedRequest} (hget : r.method = .GET) : ∀ {left n : Nat} {sent : List Exchange},
    Settled request last sent → Runs request (send (get_policy key) (.ok r) left n) (Read request last (Answered r.key)) sent
  | 0, _, _, h => attempt_get hget nofun h
  | _ + 1, _, _, h => attempt_get hget (fun _ _ hsettled => send_get hget hsettled) h

theorem read_object_ok {operation : String} {headers : List (String × String)} {body : List UInt8} {o : RemoteObject}
    (h : read_object operation headers body = .ok o) :
    o.body = body ∧ header headers "content-type" = some o.metadata.content_type ∧
      header headers "cache-control" = some o.metadata.cache_control := by
  unfold read_object at h
  split at h
  · next content_type cache_control hcontent hcache =>
    obtain ⟨m, hm, h⟩ := except_bind_eq_ok.1 h
    obtain ⟨tag, -, h⟩ := except_bind_eq_ok.1 h
    cases h
    obtain ⟨hmcontent, hmcache⟩ := StorageRepository.metadata_ok hm
    exact ⟨rfl, by rw [hcontent, hmcontent], by rw [hcache, hmcache]⟩
  · cases h

/-- **What `get` returns was stored.** -/
theorem client_get_runs (client : S3Client) (h : Settled request last sent) :
    Runs request (client_get client key) (Read request last (Seen key)) sent := by
  unfold client_get
  cases hrequest : signed_request .GET key [] [] with
  | error e =>
    have hlocal := raises_signed_request .GET key [] [] e hrequest
    have hraise : Runs request (.ret (.error e) : Call RemoteObject) (Read request last (Seen key)) sent :=
      runs_ret ⟨h, nofun, raises_error hlocal.not_lost⟩
    cases hleft : client.max_attempts - 1 with
    | zero => exact hraise
    | succ left => exact hraise
  | ok r =>
    obtain ⟨_, -, hr⟩ := except_bind_eq_ok.1 hrequest
    cases hr
    refine runs_bind (runs_post (fun result sent hread => ?_) (send_get rfl h))
    obtain ⟨hsettled, hanswered, hraises⟩ := hread
    cases result with
    | error e => exact runs_ret ⟨hsettled, nofun, raises_error (hraises e rfl)⟩
    | ok response =>
      refine runs_ret ⟨hsettled, fun o ho => ?_, raises_read_object _ _ _⟩
      obtain ⟨x, hx, v, hv, hbody, hcontent, hcache⟩ := hanswered _ rfl
      obtain ⟨hobody, hocontent, hocache⟩ := read_object_ok ho
      exact ⟨x, hx, v, hv, hbody.trans hobody.symm, hcontent _ hocontent, hcache _ hocache⟩

theorem get_optional_runs (client : S3Client) (h : Settled request last sent) :
    Runs request (get_optional client key) (Read request last fun current sent => ∀ o, current = some o → Seen key o sent)
      sent := by
  refine runs_bind (runs_post (fun result sent hread => ?_) (client_get_runs client h))
  obtain ⟨hsettled, hseen, hraises⟩ := hread
  split
  · next current =>
    refine runs_ret ⟨hsettled, fun a ha o ho => ?_, raises_ok _⟩
    cases ha
    cases ho
    exact hseen current rfl
  · refine runs_ret ⟨hsettled, fun a ha o ho => ?_, raises_ok _⟩
    cases ha
    cases ho
  · next e _ => exact runs_ret ⟨hsettled, nofun, raises_error (hraises e rfl)⟩

end

/-! ## The calls -/

/-- The write that a call sends. -/
structure Writes (request : SignedRequest) (key : String) (body : List UInt8) (metadata : ObjectMetadata) : Prop where
  method : request.method = .PUT
  at_key : request.key = key
  value : ∀ tag, HoldsValue body metadata (request.stored tag)

theorem normalize_ok {value text : String} (h : normalize_header_value value = .ok text) : text = squeezed value := by
  unfold normalize_header_value at h
  split at h <;> cases h
  rfl

/-- The headers of a write: the metadata, and one condition. -/
theorem put_headers_ok {metadata : ObjectMetadata} {if_none_match : Bool} {if_match : Option String}
    {headers : List (String × String)} (h : put_headers metadata if_none_match if_match = .ok headers) :
    ∃ name value,
      headers = [("cache-control", metadata.cache_control), ("content-type", metadata.content_type), (name, value)] ∧
      (if_none_match = true → name = "if-none-match" ∧ value = "*") ∧ name ∈ ["if-none-match", "if-match"] := by
  unfold put_headers at h
  dsimp only at h
  split at h
  · cases h
  · split at h
    · cases h
      exact ⟨_, _, rfl, fun _ => ⟨rfl, rfl⟩, by simp⟩
    · next hnone =>
      split at h
      · cases h
      · split at h
        · cases h
          exact ⟨_, _, rfl, fun htrue => absurd htrue hnone, by simp⟩
        · cases h

theorem signed_request_ok {method : Method} {key : String} {body : List UInt8} {headers : List (String × String)}
    {request : SignedRequest} (h : signed_request method key body headers = .ok request) :
    request = ⟨method, key, headers.map fun item => (item.1, squeezed item.2), body⟩ := by
  obtain ⟨_, -, h⟩ := except_bind_eq_ok.1 h
  obtain ⟨request_headers, hheaders, h⟩ := except_bind_eq_ok.1 h
  cases h
  have hall : List.Forall₂ (· = ·) (headers.map fun item => (item.1, squeezed item.2)) request_headers := by
    refine List.forall₂_map_left_iff.2 ((except_mapM_forall₂ hheaders).imp fun item sent hitem => ?_)
    obtain ⟨text, htext, hsent⟩ := except_bind_eq_ok.1 hitem
    cases hsent
    rw [normalize_ok htext]
  rw [List.forall₂_eq_eq_eq] at hall
  rw [hall]

/-- Header names are in lower case. -/
theorem toLower_names : "cache-control".toLower = "cache-control" ∧ "content-type".toLower = "content-type" ∧
    "if-none-match".toLower = "if-none-match" ∧ "if-match".toLower = "if-match" := by decide +kernel

/-- The request of `put`. -/
theorem writes_ok {key : String} {body : List UInt8} {metadata : ObjectMetadata} {if_none_match : Bool}
    {if_match : Option String} {headers : List (String × String)} {request : SignedRequest}
    (hheaders : put_headers metadata if_none_match if_match = .ok headers)
    (hrequest : signed_request .PUT key body headers = .ok request) :
    Writes request key body metadata ∧ (if_none_match = true → header request.headers "if-none-match" = some "*") := by
  obtain ⟨hcache, hcontent, hnone, hmatch⟩ := toLower_names
  obtain ⟨name, value, rfl, hcreates, hname⟩ := put_headers_ok hheaders
  rw [signed_request_ok hrequest]
  refine ⟨⟨rfl, rfl, fun tag => ⟨rfl, .inr ?_⟩⟩, fun htrue => ?_⟩
  · simp [SignedRequest.stored, header, hcache, hcontent]
  · obtain ⟨rfl, rfl⟩ := hcreates htrue
    have hstar : squeezed "*" = "*" := by decide
    simp [header, hcache, hcontent, hnone, hstar]

section
variable {request : SignedRequest} {key : String} {body : List UInt8} {metadata : ObjectMetadata}

/-- What a call leaves. -/
structure Left (request : SignedRequest) (key : String) (body : List UInt8) (metadata : ObjectMetadata)
    (result : Except PyErr RemoteObject) (sent : List Exchange) : Prop where
  stored : ∀ o, result = .ok o → ∃ x ∈ sent, ∃ v, x.after key = some v ∧ HoldsValue body metadata v
  lost : ∀ msg, result = .error (.PreconditionFailed msg) → ∃ last, Settled request last sent ∧ last.applied = false

theorem Seen.holds {o : RemoteObject} {sent : List Exchange} (h : Seen key o sent) (hbody : o.body = body)
    (hmetadata : o.metadata = metadata) : ∃ x ∈ sent, ∃ v, x.after key = some v ∧ HoldsValue body metadata v := by
  obtain ⟨x, hx, v, hv, hvbody, hcontent, hcache⟩ := h
  subst hbody hmetadata
  exact ⟨x, hx, v, hv, hvbody, .inl ⟨hcontent, hcache⟩⟩

theorem reconcile_runs (store : S3ObjectStore) {last : Exchange} {sent : List Exchange} {e : PyErr}
    (hlost : NotLost e) (h : Settled request last sent) :
    Runs request (store.reconcile key body metadata e) (Left request key body metadata) sent := by
  refine runs_bind (runs_post (fun result sent hread => ?_) (get_optional_runs store.client h))
  obtain ⟨hsettled, hseen, hread⟩ := hread
  have hraise : Runs request (.ret (.error e)) (Left request key body metadata) sent :=
    runs_ret ⟨nofun, fun msg hmsg => absurd (Except.error.inj hmsg) (hlost msg)⟩
  cases result with
  | error e' => exact runs_ret ⟨nofun, fun msg hmsg => absurd (Except.error.inj hmsg) (hread e' rfl msg)⟩
  | ok current =>
    cases current with
    | none => exact hraise
    | some o =>
      dsimp only
      split
      · next heq =>
        refine runs_ret ⟨fun o' ho' => ?_, nofun⟩
        cases ho'
        exact (hseen _ rfl o rfl).holds heq.1 heq.2
      · exact hraise

theorem ambiguous_not_lost {e : PyErr} (h : ambiguous e = true) : NotLost e := by
  rintro msg rfl
  cases h

theorem IsValueError.not_ambiguous {e : PyErr} (h : IsValueError e) : ambiguous e = false := by
  obtain ⟨msg, shown, rfl⟩ := h
  rfl

/-- **One conditional write**, by the request that its metadata and its condition make. -/
theorem client_put_runs (client : S3Client) {if_none_match : Bool} {if_match : Option String} {headers : List (String × String)}
    (hheaders : put_headers metadata if_none_match if_match = .ok headers)
    (hrequest : signed_request .PUT key body headers = .ok request) :
    Runs request (client_put client key body metadata if_none_match if_match) (Sent request) [] := by
  unfold client_put
  rw [hheaders]
  dsimp only
  rw [hrequest]
  refine runs_bind (runs_post (fun result sent hsent => ?_) (send_put (Fresh.nil request)))
  obtain ⟨last, hsettled, hok, hlost⟩ := hsent
  cases result with
  | error e =>
    exact runs_ret ⟨last, hsettled, by simp, fun hmsg => hlost (hmsg.imp fun msg h => by rw [Except.error.inj h])⟩
  | ok response =>
    refine runs_ret ⟨last, hsettled, fun _ => hok ⟨_, rfl⟩, ?_⟩
    rintro ⟨msg, hmsg⟩
    exact absurd rfl (raises_etag _ _ _ hmsg msg)

theorem put_runs (store : S3ObjectStore) {logical : String} {if_none_match : Bool} {if_match : Option String}
    {headers : List (String × String)} (hkey : store.key logical = .ok key)
    (hheaders : put_headers metadata if_none_match if_match = .ok headers)
    (hrequest : signed_request .PUT key body headers = .ok request) :
    Runs request (store.put logical body metadata if_none_match if_match) (Left request key body metadata) [] := by
  have hwrites := (writes_ok hheaders hrequest).1
  unfold S3ObjectStore.put
  rw [hkey]
  dsimp only
  refine runs_bind (runs_bind (runs_post (fun result sent hsent => ?_) (client_put_runs store.client hheaders hrequest)))
  obtain ⟨last, hsettled, hok, hlost⟩ := hsent
  cases result with
  | ok tag =>
    refine runs_ret (runs_ret ⟨fun o ho => ?_, nofun⟩)
    have hserved := hsettled.served last hsettled.last_mem
    obtain ⟨-, -, -, -, rfl, -⟩ := hsettled.split
    obtain ⟨tag', hafter⟩ := hserved.1.accepted hwrites.method (hok ⟨_, rfl⟩)
    refine ⟨last, hsettled.last_mem, last.request.stored tag', ?_, hwrites.value tag'⟩
    rw [hafter, hwrites.at_key, Function.update_self]
  | error e =>
    refine runs_ret ?_
    dsimp only
    split
    · next hambiguous => exact reconcile_runs store (ambiguous_not_lost hambiguous) hsettled
    · refine runs_ret ⟨nofun, fun msg hmsg => ⟨last, hsettled, ?_⟩⟩
      cases hmsg
      exact (hsettled.served last hsettled.last_mem).1.refused (.inl (hlost ⟨msg, rfl⟩))

end

theorem create_immutable_runs (store : S3ObjectStore) {logical : String} {headers : List (String × String)}
    {request : SignedRequest} {key : String} {body : List UInt8} {metadata : ObjectMetadata}
    (hkey : store.key logical = .ok key) (hheaders : put_headers metadata true none = .ok headers)
    (hrequest : signed_request .PUT key body headers = .ok request) :
    Runs request (store.create_immutable logical body metadata) (fun result sent =>
      ∀ o, result = .ok o → ∃ x ∈ sent, ∃ v, x.after key = some v ∧ HoldsValue body metadata v) [] := by
  unfold S3ObjectStore.create_immutable S3ObjectStore.get
  rw [hkey]
  refine runs_bind (runs_post (fun result sent hleft => ?_) (put_runs store hkey hheaders hrequest))
  cases result with
  | ok o => exact runs_ret hleft.stored
  | error e =>
    dsimp only
    split
    · next msg =>
      obtain ⟨last, hsettled, -⟩ := hleft.lost msg rfl
      refine runs_bind (runs_post (fun result sent hread => ?_) (get_optional_runs store.client hsettled))
      obtain ⟨-, hseen, -⟩ := hread
      cases result with
      | error e => exact runs_ret nofun
      | ok current =>
        cases current with
        | none => exact runs_ret nofun
        | some o =>
          dsimp only
          split
          · next heq =>
            refine runs_ret fun o' ho' => ?_
            cases ho'
            exact (hseen _ rfl o rfl).holds heq.1 heq.2
          · exact runs_ret nofun
    · exact runs_ret nofun

/-- Nothing is sent where a key, a header or a condition is refused. -/
theorem put_refused (store : S3ObjectStore) {logical : String} {body : List UInt8} {metadata : ObjectMetadata}
    {if_none_match : Bool} {if_match : Option String}
    (h : ∀ key headers request, store.key logical = .ok key → put_headers metadata if_none_match if_match = .ok headers →
      signed_request .PUT key body headers ≠ .ok request) :
    ∃ e, IsValueError e ∧ store.put logical body metadata if_none_match if_match = .ret (.error e) := by
  unfold S3ObjectStore.put
  cases hkey : store.key logical with
  | error e =>
    refine ⟨e, ?_, rfl⟩
    unfold S3ObjectStore.key at hkey
    split at hkey <;> cases hkey
    exact ⟨_, _, rfl⟩
  | ok key =>
    dsimp only
    unfold client_put
    cases hheaders : put_headers metadata if_none_match if_match with
    | error e =>
      have he := raises_put_headers _ _ _ e hheaders
      exact ⟨e, he, by simp [Call.andThen, Call.except, he.not_ambiguous]⟩
    | ok headers =>
      dsimp only
      cases hrequest : signed_request .PUT key body headers with
      | ok request => exact absurd hrequest (h key headers request hkey hheaders)
      | error e =>
        have he := raises_signed_request _ _ _ _ e hrequest
        refine ⟨e, he, ?_⟩
        cases store.client.max_attempts - 1 <;> simp [send, attempt, Call.andThen, Call.except, he.not_ambiguous]

theorem Phase.request {request : SignedRequest} {sent : List Exchange} (h : Phase request sent) :
    ∀ x ∈ sent, Served x ∧ (x.request.method = .PUT → x.request = request) := by
  rcases h with h | ⟨last, hserved, throttled, reads, rfl, hthrottled, hlast, hreads⟩
  · exact fun x hx => ⟨h.served x hx, fun _ => (h.throttled x hx).1⟩
  · intro x hx
    refine ⟨hserved x hx, fun hput => ?_⟩
    rcases List.mem_append.1 hx with hx | hx
    · exact (hthrottled x hx).1
    rcases List.mem_cons.1 hx with rfl | hx
    · exact hlast
    · rw [hreads x hx] at hput
      cases hput

theorem Phase.keepsExisting {request : SignedRequest} {sent : List Exchange} (h : Phase request sent)
    (hcreates : header request.headers "if-none-match" = some "*") : KeepsExisting sent := by
  intro x hx key v hv
  obtain ⟨hserved, hrequest⟩ := h.request x hx
  exact hserved.1.creates (fun hput => by rw [hrequest hput]; exact hcreates) hv

theorem S3ObjectStore.key_ok {store : S3ObjectStore} {logical key : String} (h : store.key logical = .ok key) :
    key = store.namespace_ ++ logical := by
  unfold S3ObjectStore.key at h
  split at h <;> cases h
  rfl

theorem honest_nil (operation : Operation) (key : String) (body : List UInt8) (metadata : ObjectMetadata) (e : PyErr) :
    Honest operation key body metadata (.error e) [] := ⟨nofun, fun _ _ _ _ hx => by cases hx⟩

/-- **A call runs by one request**, the one that its arguments make. -/
theorem operation_runs (operation : Operation) (store : S3ObjectStore) (key : String) (body : List UInt8)
    (metadata : ObjectMetadata) : ∃ request : SignedRequest,
      (operation = .create_immutable → header request.headers "if-none-match" = some "*") ∧
        Runs request (operation.run store key body metadata)
          (Honest operation (store.namespace_ ++ key) body metadata) [] := by
  cases operation with
  | put if_none_match if_match =>
    by_cases hrefused : ∀ remote_key headers request, store.key key = .ok remote_key →
        put_headers metadata if_none_match if_match = .ok headers → signed_request .PUT remote_key body headers ≠ .ok request
    · obtain ⟨e, -, hput⟩ := put_refused store hrefused
      refine ⟨⟨.PUT, key, [], body⟩, nofun, ?_⟩
      rw [Operation.run, hput]
      exact runs_ret (honest_nil _ _ _ _ e)
    · push Not at hrefused
      obtain ⟨remote_key, headers, request, hkey, hheaders, hrequest⟩ := hrefused
      refine ⟨request, nofun, runs_post (fun result sent hleft => ?_) (put_runs store hkey hheaders hrequest)⟩
      rw [← S3ObjectStore.key_ok hkey]
      refine ⟨hleft.stored, fun _ msg hmsg => ?_⟩
      obtain ⟨last, hsettled, hlast⟩ := hleft.lost msg hmsg
      exact hsettled.nothing hlast
  | create_immutable =>
    by_cases hrefused : ∀ remote_key headers request, store.key key = .ok remote_key →
        put_headers metadata true none = .ok headers → signed_request .PUT remote_key body headers ≠ .ok request
    · obtain ⟨e, he, hput⟩ := put_refused store hrefused
      obtain ⟨msg, shown, rfl⟩ := he
      refine ⟨⟨.PUT, key, [("if-none-match", "*")], body⟩, fun _ => ?_, ?_⟩
      · simp [header, toLower_names.2.2.1]
      · rw [Operation.run, S3ObjectStore.create_immutable, hput]
        exact runs_ret (honest_nil _ _ _ _ _)
    · push Not at hrefused
      obtain ⟨remote_key, headers, request, hkey, hheaders, hrequest⟩ := hrefused
      refine ⟨request, fun _ => (writes_ok hheaders hrequest).2 rfl,
        runs_post (fun result sent hstored => ?_) (create_immutable_runs store hkey hheaders hrequest)⟩
      rw [← S3ObjectStore.key_ok hkey]
      exact ⟨hstored, fun hne => absurd rfl hne⟩

/-- **At most one write, and an honest outcome**, wherever the call is and whatever the server and the other writers
have done so far. -/
theorem at_most_once {operation : Operation} {store : S3ObjectStore} {key : String} {body : List UInt8}
    {metadata : ObjectMetadata} {bucket : Bucket} {steps : List (World × World)} {rest : Call RemoteObject} {w : World}
    (h : Trace Serves Others (operation.run store key body metadata) ⟨bucket, []⟩ steps rest w) :
    AtMostOnce w.sent ∧ (operation = .create_immutable → KeepsExisting w.sent) ∧
      ∀ result, rest = .ret result → Honest operation (store.namespace_ ++ key) body metadata result w.sent := by
  obtain ⟨request, hcreates, hruns⟩ := operation_runs operation store key body metadata
  obtain ⟨hsteps, hrest⟩ := wp_trace h (hruns bucket)
  have hphase : Phase request w.sent :=
    h.keeps (I := fun w => Phase request w.sent) (fun w w' hw hothers => by rw [hothers]; exact hw)
      (fun x hx _ => hsteps x hx) (.inl (Fresh.nil request))
  refine ⟨hphase.atMostOnce, fun hoperation => hphase.keepsExisting (hcreates hoperation), ?_⟩
  rintro result rfl
  exact hrest

/-! A server that throttles the first request if it is told to, and then writes; a reply may be lost. -/

namespace Sample

def empty : Bucket := fun _ => none

def shown (v : Stored) : Answer :=
  .response 200 [("Content-Type", v.content_type), ("Cache-Control", v.cache_control), ("ETag", v.etag)] v.body

def lost : Answer := .failure 0 "transport unavailable"

def confirmed : Answer := .response 200 [("ETag", "\x22e\x22")] []

/-- What becomes of a request. -/
def exchange (throttled : Bool) (reply : Answer) (r : SignedRequest) (before : Bucket) : Exchange :=
  match r.method with
  | .GET => ⟨r, ((before r.key).map shown).getD (.response 404 [] []), false, before, before⟩
  | .PUT =>
    if throttled then ⟨r, .response 429 [] [], false, before, before⟩
    else if r.Holds (before r.key) then
      ⟨r, reply, true, before, Function.update before r.key (some (r.stored "\x22e\x22"))⟩
    else ⟨r, .response 412 [] [], false, before, before⟩

def serve (throttled : Bool) (reply : Answer) : (o : Op) → World → o.Res × World
  | .request r, w =>
    let x := exchange (throttled && w.sent.isEmpty) reply r w.bucket
    (x.answer, ⟨x.after, w.sent ++ [x]⟩)
  | .sleep _, w => ((), w)

theorem shows_shown (v : Stored) {headers : List (String × String)} {body : List UInt8}
    (h : shown v = .response 200 headers body) : Shows (some v) headers body := by
  cases h
  have hcontent : "Content-Type".toLower = "content-type" ∧ "Cache-Control".toLower = "cache-control" ∧
      "Content-Type".toLower ≠ "cache-control" := by decide +kernel
  refine ⟨v, rfl, rfl, fun text htext => ?_, fun text htext => ?_⟩
  · simpa [header, hcontent] using htext
  · simpa [header, hcontent] using htext

theorem exchange_served (throttled : Bool) {reply : Answer} (hreply : reply = lost ∨ reply = confirmed) (r : SignedRequest)
    (before : Bucket) : Served (exchange throttled reply r before) ∧ (exchange throttled reply r before).request = r ∧
      (exchange throttled reply r before).before = before := by
  unfold exchange
  cases hmethod : r.method with
  | GET =>
    dsimp only
    cases hbefore : before r.key with
    | none => exact ⟨⟨.read hmethod (by simp [status]) nofun, nofun⟩, rfl, rfl⟩
    | some v =>
      refine ⟨⟨.read hmethod (by simp [shown, status]) fun headers body h => ?_, nofun⟩, rfl, rfl⟩
      dsimp only
      rw [hbefore]
      exact shows_shown v h
  | PUT =>
    cases throttled with
    | true => exact ⟨⟨.not_applied hmethod (by simp [status]), nofun⟩, rfl, rfl⟩
    | false =>
      dsimp only
      rw [if_neg Bool.false_ne_true]
      split
      · next hholds =>
        refine ⟨⟨.applied _ hmethod hholds ?_ ?_, ?_⟩, rfl, rfl⟩ <;> rcases hreply with rfl | rfl <;>
          simp [lost, confirmed, status, Transport]
      · exact ⟨⟨.not_applied hmethod (by simp [status]), nofun⟩, rfl, rfl⟩

theorem serve_serves (throttled : Bool) {reply : Answer} (hreply : reply = lost ∨ reply = confirmed) (o : Op) (w : World)
    (a : o.Res) (w' : World) (h : ofHandler (serve throttled reply) o w a w') : Serves o w a w' := by
  cases o with
  | sleep seconds =>
    cases h
    rfl
  | request r =>
    cases h
    obtain ⟨hserved, hrequest, hbefore⟩ := exchange_served (throttled && w.sent.isEmpty) hreply r w.bucket
    exact ⟨_, hserved, hrequest, rfl, hbefore, rfl⟩

theorem attempts : 1 ≤ 2 ∧ 2 ≤ 8 := by decide

theorem namespace_valid : validate_namespace "dkc/" = .ok () := by decide +kernel

theorem plain_valid : ObjectMetadata.check "text/plain" "no-store" = .ok () := by decide +kernel

theorem spaced_valid : ObjectMetadata.check "text/plain;  charset=utf-8" "no-store" = .ok () := by decide +kernel

def store : S3ObjectStore := ⟨⟨2, attempts⟩, "dkc/", namespace_valid⟩

def plain : ObjectMetadata := ⟨"text/plain", "no-store", plain_valid⟩

def spaced : ObjectMetadata := ⟨"text/plain;  charset=utf-8", "no-store", spaced_valid⟩

/-- What a call ends with. -/
def run (throttled : Bool) (reply : Answer) (metadata : ObjectMetadata) : Except PyErr RemoteObject × World :=
  (store.put "k" [1] metadata true none).run (serve throttled reply) ⟨empty, []⟩

end Sample

/-- The first request is throttled, the reply to the second is lost, and a read finds what it wrote. -/
theorem at_most_once_reconciled : AtMostOnce (Sample.run true Sample.lost Sample.plain).2.sent ∧
    ∃ x ∈ (Sample.run true Sample.lost Sample.plain).2.sent, ∃ v,
      x.after "dkc/k" = some v ∧ HoldsValue [1] Sample.plain v := by
  have hresult : (Sample.run true Sample.lost Sample.plain).1 = .ok ⟨[1], Sample.plain, "\x22e\x22"⟩ := by decide +kernel
  obtain ⟨steps, htrace⟩ := trace_run (R := Others) (Sample.serve_serves true (.inl rfl)) (fun _ => rfl)
    ((Operation.put true none).run Sample.store "k" [1] Sample.plain) ⟨Sample.empty, []⟩
  have h := at_most_once htrace
  exact ⟨h.1, (h.2.2 _ rfl).stored _ hresult⟩

/-- With two blanks in a row in the metadata, `put` returns what is stored at no instant: nobody else writes here. -/
theorem stored_otherwise : ∃ steps o w,
    Trace Serves Eq ((Operation.put true none).run Sample.store "k" [1] Sample.spaced) ⟨Sample.empty, []⟩ steps
      (.ret (.ok o)) w ∧ o.metadata = Sample.spaced ∧
    ∀ x ∈ w.sent, ∀ v, x.before "dkc/k" = some v ∨ x.after "dkc/k" = some v →
      v.content_type ≠ Sample.spaced.content_type := by
  obtain ⟨steps, htrace⟩ := trace_run (R := Eq) (Sample.serve_serves false (.inr rfl)) (fun _ => rfl)
    ((Operation.put true none).run Sample.store "k" [1] Sample.spaced) ⟨Sample.empty, []⟩
  have hresult : (Sample.run false Sample.confirmed Sample.spaced).1 = .ok ⟨[1], Sample.spaced, "\x22e\x22"⟩ := by
    decide +kernel
  have hstored : (Sample.run false Sample.confirmed Sample.spaced).2.sent.map (fun x =>
      ((x.before "dkc/k").map (·.content_type), (x.after "dkc/k").map (·.content_type))) =
      [(none, some "text/plain; charset=utf-8")] := by decide +kernel
  rw [show ((Operation.put true none).run Sample.store "k" [1] Sample.spaced).run _ _ =
    Sample.run false Sample.confirmed Sample.spaced from rfl, hresult] at htrace
  refine ⟨steps, _, _, htrace, rfl, fun x hx v hv => ?_⟩
  have hmem := List.mem_map_of_mem (f := fun x : Exchange =>
    ((x.before "dkc/k").map (·.content_type), (x.after "dkc/k").map (·.content_type))) hx
  rw [hstored, List.mem_singleton, Prod.mk.injEq] at hmem
  rcases hv with hv | hv
  · simp [hv] at hmem
  · rw [hv] at hmem
    have hcontent : v.content_type = "text/plain; charset=utf-8" := Option.some.inj hmem.2
    rw [hcontent]
    decide

end RemoteStore
