import Mathlib.Data.Set.Finite.Basic
import Mathlib.Data.String.Basic
import DkcLinux.Text.PyStr
import DkcLinux.Records

/-!
# Listing a bucket (`dkc/s3.py:208-223`, `:384-447`, `:513-569`)

`send` repeats a request that the store has not answered for good; `list_objects` asks for one page after the
other. The server is any function of the number of the request and the request itself, so it may answer the
same request in a different way each time. What `ET.fromstring` makes of a body is a parameter.
-/

namespace S3

open Py

/-! ## Keys -/

/-- `value.rstrip("/")`. -/
def rstripSlash (value : String) : String := String.ofList ((value.toList.reverse.dropWhile (· = '/')).reverse)

def safe_key (value : String) : Except PyErr Unit :=
  if value = "" || startswith value "/" || endswith value "/" || value.toList.any (fun c => c = '*' || c = '\\') ||
      value.toList.any isControl ||
      (value.toList.splitOn '/').any (fun part => part = [] || part = ['.'] || part = ['.', '.']) then
    .error (.ValueError "unsafe object key: " [value])
  else .ok ()

structure ListedObject where
  key : String
  size : Nat
  safe : safe_key key = .ok ()
deriving DecidableEq

/-! ## Requests -/

/-- An answer of the server, or the failure of the transport with a status. -/
inductive Answer where
  | response (status : Nat) (headers : List (String × String)) (body : List UInt8)
  | failure (status : Nat) (msg : String)

/-- What the server answers to the request with some number. -/
abbrev Server (Request : Type) := Nat → Request → Answer

/-- The value of the first header with a name in lower case. -/
def header (headers : List (String × String)) (name : String) : Option String :=
  (headers.find? fun item => item.1.toLower = name).map (·.2)

/-- Server-side statuses that S3-compatible stores document as transient. -/
def TRANSIENT_STATUSES : List Nat := [500, 502, 503, 504]

def failed (operation : String) (status : Nat) (detail : String) : PyErr :=
  .RemoteStoreError status
    (operation ++ " failed with HTTP " ++ toString status ++ if detail = "" then "" else ": " ++ detail)

def backoff (attempt : Nat) : Nat := min (2 ^ (attempt - 1)) 10

/-- The seconds to wait after a 429: `float` refuses some digits that `isdigit` knows. -/
def throttle_delay (headers : List (String × String)) (attempt : Nat) : Except PyErr Nat :=
  match header headers "retry-after" with
  | none => .ok (backoff attempt)
  | some raw_delay =>
    if isdigit raw_delay then
      if isdecimal raw_delay then .ok (min (intOf raw_delay) 10)
      else .error (.ValueError "could not convert string to float: " [raw_delay])
    else .ok (backoff attempt)

/-- What a request accepts and when it is repeated. -/
structure Policy where
  operation : String
  accepted : List Nat
  retry_throttled : Bool
  read_only : Bool

inductive Verdict where
  | accept (headers : List (String × String)) (body : List UInt8)
  | retry (delay : Nat)
  | refuse (e : PyErr)

/-- One round of the loop in `_send`. -/
def judge (policy : Policy) (attempt : Nat) (retry_allowed : Bool) : Answer → Verdict
  | .failure status msg =>
    if policy.read_only && status = 0 && retry_allowed then .retry (backoff attempt)
    else .refuse (.RemoteStoreError status msg)
  | .response status headers body =>
    if status ∈ policy.accepted then .accept headers body
    else if status = 412 then
      .refuse (.PreconditionFailed (policy.operation ++ " failed with HTTP 412: conditional precondition lost"))
    else if status = 404 then .refuse (failed policy.operation 404 "object is absent")
    else if (policy.retry_throttled || policy.read_only) && status = 429 && retry_allowed then
      match throttle_delay headers attempt with
      | .ok delay => .retry delay
      | .error e => .refuse e
    else if policy.read_only && status ∈ TRANSIENT_STATUSES && retry_allowed then .retry (backoff attempt)
    else .refuse (failed policy.operation status "")

/-- How many requests were sent, and the seconds slept between them. -/
structure Wire where
  requests : Nat
  slept : List Nat

/-- Requests until one is answered for good; `left` more than this one may be sent. -/
def send {Request : Type} (server : Server Request) (policy : Policy) (request : Request) :
    Nat → Nat → Wire → Except PyErr (List (String × String) × List UInt8) × Wire
  | left, attempt, wire =>
    match left, judge policy attempt (left ≠ 0) (server wire.requests request) with
    | _, .accept headers body => (.ok (headers, body), ⟨wire.requests + 1, wire.slept⟩)
    | _, .refuse e => (.error e, ⟨wire.requests + 1, wire.slept⟩)
    | 0, .retry _ => (.error .AssertionError, ⟨wire.requests + 1, wire.slept⟩)
    | left + 1, .retry delay => send server policy request left (attempt + 1) ⟨wire.requests + 1, wire.slept ++ [delay]⟩

/-! ## Pages -/

/-- An element of a document: its tag, its text and its children. -/
inductive Element where
  | mk (tag : String) (text : Option String) (children : List Element)

namespace Element

def tag : Element → String
  | mk tag _ _ => tag

def text : Element → Option String
  | mk _ text _ => text

def children : Element → List Element
  | mk _ _ children => children

def findall (item : Element) (tag : String) : List Element := item.children.filter fun child => child.tag = tag

/-- The text of the first child with a tag; it is empty where the child has none. -/
def findtext (item : Element) (tag : String) : Option String :=
  (item.children.find? fun child => child.tag = tag).map fun child => child.text.getD ""

/-- `{namespace}` of a tag that has one. -/
def namespace_ (item : Element) : String :=
  if startswith item.tag "\x7b" then String.ofList (item.tag.toList.takeWhile (· ≠ '}') ++ ['}']) else ""

end Element

/-- The parameters of the request for a page. -/
abbrev Query := List (String × String)

def page_query (under : String) (page_size : Option Nat) (continuation : Option String) : Query :=
  [("list-type", "2"), ("prefix", under)] ++ (page_size.map fun n => ("max-keys", toString n)).toList ++
    (continuation.map fun token => ("continuation-token", token)).toList

def list_policy (under : String) : Policy := ⟨"ListObjectsV2 " ++ under, [200], false, true⟩

def page_error (under detail : String) : PyErr := failed (list_policy under).operation 502 detail

/-- One `Contents` element. -/
def read_item (under ns : String) (item : Element) : Except PyErr ListedObject :=
  match item.findtext (ns ++ "Key") with
  | none => .error (page_error under "response escaped requested prefix")
  | some value =>
    if !startswith value under then .error (page_error under "response escaped requested prefix")
    else if hsafe : safe_key value = .ok () then
      match item.findtext (ns ++ "Size") with
      | none => .error (page_error under "invalid object size")
      | some raw_size =>
        if isdecimal raw_size then .ok ⟨value, intOf raw_size, hsafe⟩
        else .error (page_error under "invalid object size")
    else .error (.ValueError "unsafe object key: " [value])

/-- The token that follows a page, if the page says that there is more. -/
def read_next (under ns : String) (continuation : Option String) (root : Element) : Except PyErr (Option String) :=
  if root.findtext (ns ++ "IsTruncated") = some "false" then .ok none
  else if root.findtext (ns ++ "IsTruncated") ≠ some "true" then .error (page_error under "invalid truncation marker")
  else
    match root.findtext (ns ++ "NextContinuationToken") with
    | none => .error (page_error under "missing continuation token")
    | some next_token =>
      if next_token = "" || some next_token = continuation then .error (page_error under "missing continuation token")
      else .ok (some next_token)

/-- The objects of a page and the token that follows it. -/
def read_page (under : String) (continuation : Option String) (root : Element) :
    Except PyErr (List ListedObject × Option String) := do
  let objects ← (root.findall (root.namespace_ ++ "Contents")).mapM (read_item under root.namespace_)
  let next ← read_next under root.namespace_ continuation root
  .ok (objects, next)

/-! ## The loop -/

/-- `S3Client.__init__` takes 1 to 8 attempts. -/
structure S3Client where
  max_attempts : Nat
  bounds : 1 ≤ max_attempts ∧ max_attempts ≤ 8

/-- What a listing has between two pages. -/
structure Listing where
  continuation : Option String
  objects : List ListedObject
  wire : Wire

inductive Progress where
  | running (state : Listing)
  | ended (result : Except PyErr (List ListedObject)) (wire : Wire)

/-- Sorted by key. -/
def sortedObjects (objects : List ListedObject) : List ListedObject :=
  objects.mergeSort fun a b => decide (a.key ≤ b.key)

/-- What is returned after the last page. -/
def conclude (under : String) (objects : List ListedObject) : Except PyErr (List ListedObject) :=
  if ¬ (objects.map (·.key)).Nodup then .error (page_error under "duplicate object key")
  else .ok (sortedObjects objects)

section
variable (fromstring : List UInt8 → Option Element) (client : S3Client) (server : Server Query) (under : String)
  (page_size : Option Nat)

/-- One page. -/
def round (state : Listing) : Progress :=
  match send server (list_policy under) (page_query under page_size state.continuation) (client.max_attempts - 1) 1
      state.wire with
  | (.error e, wire) => .ended (.error e) wire
  | (.ok (_, body), wire) =>
    match fromstring body with
    | none => .ended (.error (page_error under "invalid XML response")) wire
    | some root =>
      match read_page under state.continuation root with
      | .error e => .ended (.error e) wire
      | .ok (objects, none) => .ended (conclude under (state.objects ++ objects)) wire
      | .ok (objects, some next) => .running ⟨some next, state.objects ++ objects, wire⟩

def rounds : Nat → Listing → Progress
  | 0, state => .running state
  | n + 1, state =>
    match round fromstring client server under page_size state with
    | .running state => rounds n state
    | .ended result wire => .ended result wire

/-- What `list_objects` refuses before it asks for anything. -/
def list_check : Except PyErr Unit := do
  (if under = "" then .ok () else safe_key (rstripSlash under))
  if page_size.any fun n => !(1 ≤ n && n ≤ 1000) then
    .error (.ValueError "S3 list page size must be between 1 and 1000")
  else .ok ()

/-- `list_objects` after at most `n` pages. -/
def list_objects (n : Nat) : Progress :=
  match list_check under page_size with
  | .error e => .ended (.error e) ⟨0, []⟩
  | .ok () => rounds fromstring client server under page_size n ⟨none, [], ⟨0, []⟩⟩

end

/-! ## What a server has to answer -/

/-- An answer after which a read is repeated. A 429 says in decimal digits how long to wait, if it says so
in digits. -/
def Retryable : Answer → Prop
  | .failure status _ => status = 0
  | .response status headers _ =>
    (status = 429 ∧ ∀ raw ∈ header headers "retry-after", isdigit raw = true → isdecimal raw = true) ∨
      status ∈ TRANSIENT_STATUSES

def Accepts (answer : Answer) (body : List UInt8) : Prop := ∃ headers, answer = .response 200 headers body

/-- From the request with number `n` on the server answers with a body, after `left` retryable failures at most;
the next request has number `n'`. -/
def Delivers (server : Server Query) (query : Query) : Nat → Nat → List UInt8 → Nat → Prop
  | 0, n, body, n' => Accepts (server n query) body ∧ n' = n + 1
  | left + 1, n, body, n' =>
    (Accepts (server n query) body ∧ n' = n + 1) ∨
      (Retryable (server n query) ∧ Delivers server query left (n + 1) body n')

/-- A `Contents` element shows an object under the prefix. -/
def Shows (under ns : String) (item : Element) (object : ListedObject) : Prop :=
  item.findtext (ns ++ "Key") = some object.key ∧ startswith object.key under = true ∧
    ∃ raw, item.findtext (ns ++ "Size") = some raw ∧ isdecimal raw = true ∧ intOf raw = object.size

/-- What follows a page that was asked for with a token. -/
def Follows (ns : String) (continuation : Option String) (root : Element) : Option String → Prop
  | none => root.findtext (ns ++ "IsTruncated") = some "false"
  | some next =>
    root.findtext (ns ++ "IsTruncated") = some "true" ∧ root.findtext (ns ++ "NextContinuationToken") = some next ∧
      next ≠ "" ∧ some next ≠ continuation

/-- A well-formed page with some objects, and what follows it. -/
def IsPage (under : String) (continuation : Option String) (root : Element) (objects : List ListedObject)
    (next : Option String) : Prop :=
  List.Forall₂ (Shows under root.namespace_) (root.findall (root.namespace_ ++ "Contents")) objects ∧
    Follows root.namespace_ continuation root next

/-! ## The loops answer to it -/

theorem judge_accept {under : String} {attempt : Nat} {allowed : Bool} {answer : Answer}
    {headers : List (String × String)} {body : List UInt8} :
    judge (list_policy under) attempt allowed answer = .accept headers body ↔ answer = .response 200 headers body := by
  cases answer with
  | failure status msg =>
    simp only [judge]
    split <;> simp
  | response status headers' body' =>
    by_cases h : status = 200
    · subst h
      simp [judge, list_policy]
    · have hne : status ∉ (list_policy under).accepted := by simpa [list_policy] using h
      refine iff_of_false ?_ (by simp [h])
      rw [judge, if_neg hne]
      split
      · nofun
      · split
        · nofun
        · split
          · split <;> nofun
          · split <;> nofun

theorem throttle_delay_ok (headers : List (String × String)) (attempt : Nat) :
    (∃ delay, throttle_delay headers attempt = .ok delay) ↔
      ∀ raw ∈ header headers "retry-after", isdigit raw = true → isdecimal raw = true := by
  unfold throttle_delay
  cases header headers "retry-after" with
  | none => simp
  | some raw =>
    by_cases hdigit : isdigit raw = true
    · by_cases hdecimal : isdecimal raw = true <;> simp [hdigit, hdecimal]
    · simp [hdigit]

theorem judge_retry {under : String} {attempt : Nat} {answer : Answer} :
    (∃ delay, judge (list_policy under) attempt true answer = .retry delay) ↔ Retryable answer := by
  cases answer with
  | failure status msg =>
    by_cases h : status = 0 <;> simp [judge, list_policy, Retryable, h]
  | response status headers body =>
    by_cases h200 : status = 200
    · simp [judge, list_policy, Retryable, TRANSIENT_STATUSES, h200]
    by_cases h412 : status = 412
    · simp [judge, list_policy, Retryable, TRANSIENT_STATUSES, h412]
    by_cases h404 : status = 404
    · simp [judge, list_policy, Retryable, TRANSIENT_STATUSES, h404]
    by_cases h429 : status = 429
    · rw [Retryable, ← throttle_delay_ok headers attempt]
      cases hdelay : throttle_delay headers attempt <;> simp [judge, list_policy, TRANSIENT_STATUSES, h429, hdelay]
    · by_cases h : status ∈ TRANSIENT_STATUSES <;> simp [judge, list_policy, Retryable, h200, h412, h404, h429, h]

theorem judge_last {under : String} {attempt delay : Nat} {answer : Answer} :
    judge (list_policy under) attempt false answer ≠ .retry delay := by
  cases answer with
  | failure status msg => simp [judge]
  | response status headers body =>
    simp only [judge, Bool.and_false, Bool.false_eq_true, if_false]
    split
    · nofun
    · split
      · nofun
      · split <;> nofun

theorem judge_accepts (under : String) (attempt : Nat) (allowed : Bool) {answer : Answer} {body : List UInt8} :
    Accepts answer body ↔ ∃ headers, judge (list_policy under) attempt allowed answer = .accept headers body :=
  exists_congr fun _ => judge_accept.symm

theorem judge_retries (under : String) (attempt : Nat) {answer : Answer} :
    Retryable answer ↔ ∃ delay, judge (list_policy under) attempt true answer = .retry delay := judge_retry.symm

/-- **A request is answered for good after so many retryable failures at most.** -/
theorem send_ok_iff {server : Server Query} (under : String) {query : Query} {body : List UInt8} {n' : Nat} :
    ∀ {left attempt : Nat} {wire : Wire},
      (∃ headers slept, send server (list_policy under) query left attempt wire = (.ok (headers, body), ⟨n', slept⟩)) ↔
        Delivers server query left wire.requests body n'
  | 0, attempt, wire => by
    have hallowed : decide (0 ≠ 0) = false := rfl
    rw [Delivers, judge_accepts under attempt false]
    unfold send
    simp only [hallowed]
    cases judge (list_policy under) attempt false (server wire.requests query) with
    | accept headers body' => simp [Prod.ext_iff, eq_comm]
    | refuse e => simp
    | retry delay => simp
  | left + 1, attempt, wire => by
    have hallowed : decide (left + 1 ≠ 0) = true := rfl
    rw [Delivers, judge_accepts under attempt true, judge_retries under attempt]
    unfold send
    simp only [hallowed]
    cases judge (list_policy under) attempt true (server wire.requests query) with
    | accept headers body' => simp [Prod.ext_iff, eq_comm]
    | refuse e => simp
    | retry delay =>
      simp only [reduceCtorEq, exists_false, false_and, false_or, Verdict.retry.injEq, exists_eq', true_and]
      exact send_ok_iff under

theorem read_item_ok_iff {under ns : String} {item : Element} {object : ListedObject} :
    read_item under ns item = .ok object ↔ Shows under ns item object := by
  unfold read_item Shows
  cases hkey : item.findtext (ns ++ "Key") with
  | none => simp
  | some value =>
    simp only [Option.some.injEq]
    by_cases hpre : startswith value under = true
    · rw [hpre, if_neg (by simp)]
      by_cases hsafe : safe_key value = .ok ()
      · rw [dif_pos hsafe]
        cases hsize : item.findtext (ns ++ "Size") with
        | none => simp
        | some raw =>
          by_cases hdecimal : isdecimal raw = true
          · simp only [if_pos hdecimal, Except.ok.injEq, Option.some.injEq]
            constructor
            · rintro rfl
              exact ⟨rfl, hpre, raw, rfl, hdecimal, rfl⟩
            · rintro ⟨hvalue, -, raw', rfl, -, hint⟩
              cases object with
              | mk key size safe =>
                obtain rfl : value = key := hvalue
                obtain rfl : intOf raw = size := hint
                rfl
          · simp only [if_neg hdecimal, Option.some.injEq]
            refine iff_of_false (by simp) ?_
            rintro ⟨-, -, raw', rfl, h, -⟩
            exact hdecimal h
      · rw [dif_neg hsafe]
        refine iff_of_false (by simp) ?_
        rintro ⟨rfl, -⟩
        exact hsafe object.safe
    · refine iff_of_false ?_ ?_
      · rw [Bool.not_eq_true] at hpre
        simp [hpre]
      · rintro ⟨rfl, h, -⟩
        exact hpre h

theorem read_next_ok_iff (under : String) {ns : String} {continuation : Option String} {root : Element} {next : Option String} :
    read_next under ns continuation root = .ok next ↔ Follows ns continuation root next := by
  unfold read_next
  by_cases hfalse : root.findtext (ns ++ "IsTruncated") = some "false"
  · rw [if_pos hfalse]
    cases next <;> simp [Follows, hfalse]
  rw [if_neg hfalse]
  by_cases htrue : root.findtext (ns ++ "IsTruncated") = some "true"
  · rw [if_neg (not_not.2 htrue)]
    cases htoken : root.findtext (ns ++ "NextContinuationToken") with
    | none => cases next <;> simp [Follows, htrue, htoken]
    | some token =>
      simp only
      by_cases hbad : (token = "" ∨ some token = continuation)
      · have hcheck : (decide (token = "") || decide (some token = continuation)) = true := by simpa using hbad
        rw [if_pos hcheck]
        refine iff_of_false (by simp) ?_
        cases next with
        | none => simp [Follows, htrue]
        | some next =>
          rintro ⟨-, hnext, hne, hcontinuation⟩
          obtain rfl := Option.some.inj (htoken.symm.trans hnext)
          exact hbad.elim hne hcontinuation
      · have hcheck : ¬(decide (token = "") || decide (some token = continuation)) = true := by simpa using hbad
        rw [if_neg hcheck]
        rw [not_or] at hbad
        cases next with
        | none => simp [Follows, htrue]
        | some next =>
          simp only [Follows, htrue, htoken, Except.ok.injEq, Option.some.injEq, true_and]
          constructor
          · rintro rfl
            exact ⟨rfl, hbad.1, hbad.2⟩
          · rintro ⟨rfl, -⟩
            rfl
  · rw [if_pos htrue]
    cases next <;> simp [Follows, hfalse, htrue]

/-- **A page is read exactly if it is well formed.** -/
theorem read_page_ok_iff {under : String} {continuation : Option String} {root : Element} {objects : List ListedObject}
    {next : Option String} :
    read_page under continuation root = .ok (objects, next) ↔ IsPage under continuation root objects next := by
  have hitems : (root.findall (root.namespace_ ++ "Contents")).mapM (read_item under root.namespace_) = .ok objects ↔
      List.Forall₂ (Shows under root.namespace_) (root.findall (root.namespace_ ++ "Contents")) objects := by
    rw [except_mapM_ok_iff]
    exact ⟨fun h => h.imp fun _ _ => read_item_ok_iff.1, fun h => h.imp fun _ _ => read_item_ok_iff.2⟩
  rw [IsPage, ← hitems, ← read_next_ok_iff under, read_page]
  constructor
  · intro h
    obtain ⟨objects', hobjects, h⟩ := except_bind_eq_ok.1 h
    obtain ⟨next', hnext, h⟩ := except_bind_eq_ok.1 h
    cases h
    exact ⟨hobjects, hnext⟩
  · rintro ⟨hobjects, hnext⟩
    rw [hobjects, except_ok_bind, hnext]
    rfl

section
variable (fromstring : List UInt8 → Option Element) (client : S3Client) (server : Server Query) (under : String)
  (page_size : Option Nat)

/-- From the request with number `n` on the server delivers the page for a token. -/
def PageAt (n : Nat) (token : Option String) (objects : List ListedObject) (next : Option String) (n' : Nat) : Prop :=
  ∃ body root, Delivers server (page_query under page_size token) (client.max_attempts - 1) n body n' ∧
    fromstring body = some root ∧ IsPage under token root objects next

/-- From the request with number `n` on the server delivers pages, from the one for a token to the last one. -/
inductive Serves : Nat → Option String → List (List ListedObject) → Nat → Prop
  | last {n n' : Nat} {token : Option String} {objects : List ListedObject}
      (h : PageAt fromstring client server under page_size n token objects none n') : Serves n token [objects] n'
  | more {n m n' : Nat} {token : Option String} {objects : List ListedObject} {next : String}
      {pages : List (List ListedObject)} (h : PageAt fromstring client server under page_size n token objects (some next) m)
      (hpages : Serves m (some next) pages n') : Serves n token (objects :: pages) n'

end

section
variable {fromstring : List UInt8 → Option Element} {client : S3Client} {server : Server Query} {under : String}
  {page_size : Option Nat}

/-- A page that is delivered is read. -/
theorem round_page {state : Listing} {objects : List ListedObject} {next : Option String} {n' : Nat}
    (h : PageAt fromstring client server under page_size state.wire.requests state.continuation objects next n') :
    ∃ slept, round fromstring client server under page_size state = match next with
      | none => .ended (conclude under (state.objects ++ objects)) ⟨n', slept⟩
      | some next => .running ⟨some next, state.objects ++ objects, ⟨n', slept⟩⟩ := by
  obtain ⟨body, root, hdelivers, hroot, hpage⟩ := h
  obtain ⟨headers, slept, hsend⟩ : ∃ headers slept, send server (list_policy under) _ _ 1 state.wire = _ :=
    (send_ok_iff under).2 hdelivers
  refine ⟨slept, ?_⟩
  rw [round, hsend]
  simp only [hroot, read_page_ok_iff.2 hpage]
  cases next <;> rfl

/-- What is read was delivered. -/
theorem page_round {state : Listing} {progress : Progress}
    (h : round fromstring client server under page_size state = progress) :
    (∃ e wire, progress = .ended (.error e) wire) ∨ ∃ objects next n' slept,
      PageAt fromstring client server under page_size state.wire.requests state.continuation objects next n' ∧
        progress = match next with
          | none => .ended (conclude under (state.objects ++ objects)) ⟨n', slept⟩
          | some next => .running ⟨some next, state.objects ++ objects, ⟨n', slept⟩⟩ := by
  subst h
  unfold round
  cases hsend : send server (list_policy under) (page_query under page_size state.continuation)
      (client.max_attempts - 1) 1 state.wire with
  | mk answer wire =>
    obtain ⟨n', slept⟩ := wire
    cases answer with
    | error e => exact .inl ⟨e, _, rfl⟩
    | ok answer =>
      obtain ⟨headers, body⟩ := answer
      have hdelivers := (send_ok_iff under).1 ⟨headers, slept, hsend⟩
      cases hroot : fromstring body with
      | none =>
        simp only [hroot]
        exact .inl ⟨_, _, rfl⟩
      | some root =>
        cases hpage : read_page under state.continuation root with
        | error e =>
          simp only [hroot, hpage]
          exact .inl ⟨_, _, rfl⟩
        | ok page =>
          obtain ⟨objects, next⟩ := page
          refine .inr ⟨objects, next, n', slept, ⟨body, root, hdelivers, hroot, read_page_ok_iff.1 hpage⟩, ?_⟩
          simp only [hroot, hpage]
          cases next <;> rfl

/-- The pages that are served are the ones the loop goes through. -/
theorem rounds_serves {n n' : Nat} {token : Option String} {pages : List (List ListedObject)}
    (h : Serves fromstring client server under page_size n token pages n') :
    ∀ (k : Nat) (objects : List ListedObject) (slept : List Nat), pages.length ≤ k →
      ∃ slept', rounds fromstring client server under page_size k ⟨token, objects, ⟨n, slept⟩⟩ =
        .ended (conclude under (objects ++ pages.flatten)) ⟨n', slept'⟩ := by
  induction h with
  | @last n n' token page h =>
    intro k objects slept hk
    obtain ⟨k, rfl⟩ := Nat.exists_eq_succ_of_ne_zero (Nat.ne_of_gt (Nat.lt_of_lt_of_le Nat.zero_lt_one hk))
    obtain ⟨slept', hround⟩ : ∃ slept', round fromstring client server under page_size ⟨token, objects, ⟨n, slept⟩⟩ = _ :=
      round_page h
    refine ⟨slept', ?_⟩
    rw [rounds, hround, List.flatten_cons, List.flatten_nil, List.append_nil]
  | @more n m n' token page next pages h hpages ih =>
    intro k objects slept hk
    rw [List.length_cons] at hk
    obtain ⟨k, rfl⟩ := Nat.exists_eq_succ_of_ne_zero (Nat.ne_of_gt (Nat.lt_of_lt_of_le (Nat.succ_pos _) hk))
    obtain ⟨slept', hround⟩ : ∃ slept', round fromstring client server under page_size ⟨token, objects, ⟨n, slept⟩⟩ = _ :=
      round_page h
    obtain ⟨slept'', hrest⟩ := ih k (objects ++ page) slept' (Nat.le_of_succ_le_succ hk)
    refine ⟨slept'', ?_⟩
    rw [rounds, hround]
    simp only
    rw [hrest, List.flatten_cons, List.append_assoc]

/-- A listing that returns went through pages that were served. -/
theorem serves_rounds : ∀ {k : Nat} {state : Listing} {objects : List ListedObject} {wire : Wire},
    rounds fromstring client server under page_size k state = .ended (.ok objects) wire →
      ∃ pages, Serves fromstring client server under page_size state.wire.requests state.continuation pages
        wire.requests ∧ conclude under (state.objects ++ pages.flatten) = .ok objects
  | k + 1, state, objects, wire, h => by
    rw [rounds] at h
    rcases page_round rfl with ⟨e, wire', hround⟩ | ⟨page, next, n', slept, hpage, hround⟩
    · rw [hround] at h
      cases h
    · rw [hround] at h
      cases next with
      | none =>
        simp only [Progress.ended.injEq] at h
        obtain ⟨hresult, rfl⟩ := h
        exact ⟨[page], .last hpage, by rw [List.flatten_cons, List.flatten_nil, List.append_nil, hresult]⟩
      | some next =>
        obtain ⟨pages, hserves, hresult⟩ := serves_rounds h
        refine ⟨page :: pages, .more hpage hserves, ?_⟩
        rw [List.flatten_cons, ← List.append_assoc, hresult]

theorem perm_sortedObjects (objects : List ListedObject) : (sortedObjects objects).Perm objects :=
  List.mergeSort_perm _ _

theorem sortedObjects_increasing {objects : List ListedObject} (h : (objects.map (·.key)).Nodup) :
    (sortedObjects objects).Pairwise fun a b => a.key < b.key := by
  have hle : (sortedObjects objects).Pairwise fun a b => decide (a.key ≤ b.key) = true := by
    refine List.pairwise_mergeSort ?_ ?_ objects
    · intro a b c hab hbc
      exact decide_eq_true (String.le_trans (of_decide_eq_true hab) (of_decide_eq_true hbc))
    · intro a b
      rw [Bool.or_eq_true, decide_eq_true_eq, decide_eq_true_eq]
      exact String.le_total a.key b.key
  have hne : (sortedObjects objects).Pairwise fun a b => a.key ≠ b.key :=
    List.pairwise_map.1 (((perm_sortedObjects objects).map _).nodup_iff.2 h)
  refine (hle.and hne).imp fun hab => ?_
  exact lt_of_le_of_ne (of_decide_eq_true hab.1) hab.2

theorem conclude_ok_iff {objects result : List ListedObject} :
    conclude under objects = .ok result ↔ (objects.map (·.key)).Nodup ∧ sortedObjects objects = result := by
  rw [conclude, except_check_eq_ok, not_not, Except.ok.injEq]

theorem list_check_ok (hunder : under = "" ∨ safe_key (rstripSlash under) = .ok ())
    (hsize : ∀ n ∈ page_size, 1 ≤ n ∧ n ≤ 1000) : list_check under page_size = .ok () := by
  have hchecked : (if under = "" then .ok () else safe_key (rstripSlash under)) = .ok () := by
    by_cases h : under = ""
    · rw [if_pos h]
    · rw [if_neg h, hunder.resolve_left h]
  have hany : ¬(page_size.any fun n => !(decide (1 ≤ n) && decide (n ≤ 1000))) = true := by
    cases page_size with
    | none => simp
    | some n =>
      have hn := hsize n rfl
      simp [hn.1, hn.2]
  rw [list_check, hchecked, except_ok_bind, if_neg hany]

end

/-- **A listing is complete, and one that is not is not returned.** -/
theorem list_objects_complete (fromstring : List UInt8 → Option Element) (client : S3Client) (server : Server Query)
    (under : String) (page_size : Option Nat) (hunder : under = "" ∨ safe_key (rstripSlash under) = .ok ())
    (hsize : ∀ n ∈ page_size, 1 ≤ n ∧ n ≤ 1000) :
    (∀ (bucket : List ListedObject) (pages : List (List ListedObject)) (n' : Nat), (bucket.map (·.key)).Nodup →
      pages.flatten.Perm (bucket.filter fun object => startswith object.key under) →
      Serves fromstring client server under page_size 0 none pages n' →
        ∃ objects wire, list_objects fromstring client server under page_size pages.length = .ended (.ok objects) wire ∧
          objects.Perm (bucket.filter fun object => startswith object.key under) ∧
          objects.Pairwise fun a b => a.key < b.key) ∧
    ∀ (k : Nat) (objects : List ListedObject) (wire : Wire),
      list_objects fromstring client server under page_size k = .ended (.ok objects) wire →
        ∃ pages, Serves fromstring client server under page_size 0 none pages wire.requests ∧
          (pages.flatten.map (·.key)).Nodup ∧ objects.Perm pages.flatten ∧
          objects.Pairwise fun a b => a.key < b.key := by
  unfold list_objects
  rw [list_check_ok hunder hsize]
  constructor
  · intro bucket pages n' hbucket hpages hserves
    obtain ⟨slept, hrounds⟩ := rounds_serves hserves pages.length [] [] (Nat.le_refl _)
    have hnodup : (pages.flatten.map (·.key)).Nodup :=
      (hpages.map _).nodup_iff.2 ((List.filter_sublist.map _).nodup hbucket)
    refine ⟨_, ⟨n', slept⟩, ?_, (perm_sortedObjects _).trans hpages, sortedObjects_increasing hnodup⟩
    simp only
    rw [hrounds, List.nil_append, conclude_ok_iff.2 ⟨hnodup, rfl⟩]
  · intro k objects wire h
    obtain ⟨pages, hserves, hconclude⟩ := serves_rounds h
    rw [List.nil_append] at hconclude
    obtain ⟨hnodup, rfl⟩ := conclude_ok_iff.1 hconclude
    exact ⟨pages, hserves, hnodup, perm_sortedObjects _, sortedObjects_increasing hnodup⟩

/-! A document, its bytes and its elements. -/

def bytesOf (text : String) : List UInt8 := text.toList.map fun c => c.toNat.toUInt8

def contentsXml (key size : String) : String := "<Contents><Key>" ++ key ++ "</Key><Size>" ++ size ++ "</Size></Contents>"

def contents (key size : String) : Element :=
  .mk "Contents" none [.mk "Key" (some key) [], .mk "Size" (some size) []]

def firstXml : String :=
  "<r><IsTruncated>true</IsTruncated>" ++ contentsXml "b" "12" ++ "<NextContinuationToken>t</NextContinuationToken></r>"

def firstRoot : Element :=
  .mk "r" none [.mk "IsTruncated" (some "true") [], contents "b" "12", .mk "NextContinuationToken" (some "t") []]

def lastXml : String := "<r><IsTruncated>false</IsTruncated>" ++ contentsXml ".a" "3" ++ "</r>"

def lastRoot : Element := .mk "r" none [.mk "IsTruncated" (some "false") [], contents ".a" "3"]

def sampleParse (body : List UInt8) : Option Element :=
  if body = bytesOf firstXml then some firstRoot else if body = bytesOf lastXml then some lastRoot else none

/-- Two pages; the second one only after a 503. -/
def sampleServer : Server Query := fun n query =>
  if query.lookup "continuation-token" = none then .response 200 [] (bytesOf firstXml)
  else if n = 1 then .response 503 [] []
  else .response 200 [] (bytesOf lastXml)

def sampleClient : S3Client := ⟨3, by decide⟩

def objectB : ListedObject := ⟨"b", 12, by decide +kernel⟩

def objectA : ListedObject := ⟨".a", 3, by decide +kernel⟩

theorem first_parsed : sampleParse (bytesOf firstXml) = some firstRoot := if_pos rfl

theorem last_parsed : sampleParse (bytesOf lastXml) = some lastRoot := by
  have hne : bytesOf lastXml ≠ bytesOf firstXml := by decide +kernel
  rw [sampleParse, if_neg hne, if_pos rfl]

theorem first_page : IsPage "" none firstRoot [objectB] (some "t") := by
  constructor
  · have hall : firstRoot.findall (firstRoot.namespace_ ++ "Contents") = [contents "b" "12"] := by rfl
    rw [hall]
    exact .cons ⟨by decide +kernel, by decide +kernel, "12", by decide +kernel, by decide +kernel, by decide +kernel⟩ .nil
  · exact ⟨by decide +kernel, by decide +kernel, by decide +kernel, by decide +kernel⟩

theorem last_page {under : String} (h : startswith ".a" under = true) (continuation : Option String) :
    IsPage under continuation lastRoot [objectA] none := by
  constructor
  · have hall : lastRoot.findall (lastRoot.namespace_ ++ "Contents") = [contents ".a" "3"] := by rfl
    rw [hall]
    exact .cons ⟨by decide +kernel, h, "3", by decide +kernel, by decide +kernel, by decide +kernel⟩ .nil
  · have hend : lastRoot.findtext (lastRoot.namespace_ ++ "IsTruncated") = some "false" := by decide +kernel
    exact hend

theorem sample_serves : Serves sampleParse sampleClient sampleServer "" (some 1) 0 none [[objectB], [objectA]] 3 := by
  have hfirst : PageAt sampleParse sampleClient sampleServer "" (some 1) 0 none [objectB] (some "t") 1 :=
    ⟨bytesOf firstXml, firstRoot, .inl ⟨⟨[], rfl⟩, rfl⟩, first_parsed, first_page⟩
  have hlast : PageAt sampleParse sampleClient sampleServer "" (some 1) 1 (some "t") [objectA] none 3 :=
    ⟨bytesOf lastXml, lastRoot, .inr ⟨.inr (by decide), .inl ⟨⟨[], rfl⟩, rfl⟩⟩, last_parsed, last_page (by decide +kernel) _⟩
  exact .more hfirst (.last hlast)

theorem list_objects_complete_sample : ∃ objects wire,
    list_objects sampleParse sampleClient sampleServer "" (some 1) 2 = .ended (.ok objects) wire ∧
      objects.Perm ([objectA, objectB].filter fun object => startswith object.key "") ∧
      objects.Pairwise fun a b => a.key < b.key :=
  (list_objects_complete sampleParse sampleClient sampleServer "" (some 1) (.inl rfl) (by decide)).1 [objectA, objectB]
    [[objectB], [objectA]] 3 (by decide +kernel) (.swap ..) sample_serves

/-- A prefix that is not the start of a safe path is refused, also where keys begin with it. -/
theorem hidden_refused : ¬ ∀ (fromstring : List UInt8 → Option Element) (client : S3Client) (server : Server Query)
    (under : String) (page_size : Option Nat) (bucket : List ListedObject) (pages : List (List ListedObject)) (n' : Nat),
    (∀ n ∈ page_size, 1 ≤ n ∧ n ≤ 1000) → (bucket.map (·.key)).Nodup →
      pages.flatten.Perm (bucket.filter fun object => startswith object.key under) →
      Serves fromstring client server under page_size 0 none pages n' →
        ∃ objects wire, list_objects fromstring client server under page_size pages.length = .ended (.ok objects) wire ∧
          objects.Perm (bucket.filter fun object => startswith object.key under) := by
  intro h
  have hserves : Serves sampleParse sampleClient (fun _ _ => .response 200 [] (bytesOf lastXml)) "." none 0 none
      [[objectA]] 1 :=
    .last ⟨bytesOf lastXml, lastRoot, .inl ⟨⟨[], rfl⟩, rfl⟩, last_parsed, last_page (by decide +kernel) none⟩
  have hsize : ∀ n ∈ (none : Option Nat), 1 ≤ n ∧ n ≤ 1000 := by decide
  obtain ⟨objects, wire, hlisted, -⟩ := h _ _ _ _ _ [objectA] _ _ hsize (by decide +kernel) (by decide +kernel) hserves
  have hcheck : list_check "." none = .error (.ValueError "unsafe object key: " ["."]) := by decide +kernel
  rw [list_objects, hcheck] at hlisted
  cases hlisted

/-! ## The end of a listing -/

section
variable (fromstring : List UInt8 → Option Element) (client : S3Client) (server : Server Query) (under : String)
  (page_size : Option Nat)

/-- The listing returns or raises after some number of pages. -/
def Ends : Prop := ∃ k result wire, list_objects fromstring client server under page_size k = .ended result wire

/-- After `i` pages, each of which says that there is more, the request with number `n` asks for a token. -/
inductive Way : Nat → Nat → Option String → Prop
  | start : Way 0 0 none
  | more {i n n' : Nat} {token : Option String} {objects : List ListedObject} {next : String} (h : Way i n token)
      (hpage : PageAt fromstring client server under page_size n token objects (some next) n') :
      Way (i + 1) n' (some next)

/-- No token is handed out twice. -/
def NoRepeat : Prop := ∀ i j n m token, Way fromstring client server under page_size i n token →
  Way fromstring client server under page_size j m token → i = j

end

section
variable {fromstring : List UInt8 → Option Element} {client : S3Client} {server : Server Query} {under : String}
  {page_size : Option Nat}

/-- The last of some rounds. -/
theorem rounds_succ : ∀ (k : Nat) (state : Listing), rounds fromstring client server under page_size (k + 1) state =
    match rounds fromstring client server under page_size k state with
    | .running state => round fromstring client server under page_size state
    | .ended result wire => .ended result wire
  | 0, state => by
    simp only [rounds]
    cases round fromstring client server under page_size state <;> rfl
  | k + 1, state => by
    rw [rounds, rounds]
    cases hround : round fromstring client server under page_size state with
    | running state' => exact rounds_succ k state'
    | ended result wire => rfl

/-- The loop is still running exactly on the way of pages that say that there is more. -/
theorem rounds_running_iff {k n : Nat} {token : Option String} :
    (∃ objects slept, rounds fromstring client server under page_size k ⟨none, [], ⟨0, []⟩⟩ =
        .running ⟨token, objects, ⟨n, slept⟩⟩) ↔ Way fromstring client server under page_size k n token := by
  constructor
  · induction k generalizing n token with
    | zero =>
      rintro ⟨objects, slept, h⟩
      cases h
      exact .start
    | succ k ih =>
      rintro ⟨objects, slept, h⟩
      rw [rounds_succ] at h
      cases hrounds : rounds fromstring client server under page_size k ⟨none, [], ⟨0, []⟩⟩ with
      | ended result wire =>
        rw [hrounds] at h
        cases h
      | running state =>
        rw [hrounds] at h
        have hway := ih ⟨state.objects, state.wire.slept, hrounds⟩
        rcases page_round h with ⟨e, wire, hended⟩ | ⟨page, next, n', slept', hpage, hnext⟩
        · cases hended
        · cases next with
          | none => cases hnext
          | some next =>
            cases hnext
            exact .more hway hpage
  · intro h
    induction h with
    | start => exact ⟨[], [], rfl⟩
    | @more i n n' token page next h hpage ih =>
      obtain ⟨objects, slept, hrounds⟩ := ih
      obtain ⟨slept', hround⟩ : ∃ slept', round fromstring client server under page_size ⟨token, objects, ⟨n, slept⟩⟩ = _ :=
        round_page hpage
      refine ⟨objects ++ page, slept', ?_⟩
      rw [rounds_succ, hrounds]
      exact hround

/-- **A listing ends unless the server goes on with new pages forever.** -/
theorem ends_iff : Ends fromstring client server under page_size ↔ list_check under page_size ≠ .ok () ∨
    ∃ i, ∀ n token, ¬ Way fromstring client server under page_size i n token := by
  unfold Ends list_objects
  cases hcheck : list_check under page_size with
  | error e => exact iff_of_true ⟨0, _, _, rfl⟩ (.inl (by simp))
  | ok u =>
    simp only [ne_eq, not_true_eq_false, false_or]
    constructor
    · rintro ⟨k, result, wire, h⟩
      refine ⟨k, fun n token hway => ?_⟩
      obtain ⟨objects, slept, hrunning⟩ := rounds_running_iff.2 hway
      rw [hrunning] at h
      cases h
    · rintro ⟨i, h⟩
      cases hrounds : rounds fromstring client server under page_size i ⟨none, [], ⟨0, []⟩⟩ with
      | running state =>
        exact absurd (rounds_running_iff.1 ⟨state.objects, state.wire.slept, hrounds⟩) (h _ _)
      | ended result wire => exact ⟨i, result, wire, hrounds⟩

/-- Each page has a place on the way to a later one. -/
theorem Way.before {i n : Nat} {token : Option String} (h : Way fromstring client server under page_size i n token) :
    ∀ j ≤ i, ∃ m t, Way fromstring client server under page_size j m t := by
  induction h with
  | start =>
    intro j hj
    obtain rfl := Nat.le_zero.1 hj
    exact ⟨0, none, .start⟩
  | @more i n n' token page next h hpage ih =>
    intro j hj
    rcases Nat.lt_or_ge i j with hlt | hle
    · obtain rfl : j = i + 1 := by omega
      exact ⟨n', some next, .more h hpage⟩
    · exact ih j hle

theorem Way.unique {i n m : Nat} {token token' : Option String}
    (h : Way fromstring client server under page_size i n token)
    (h' : Way fromstring client server under page_size i m token') : token = token' := by
  obtain ⟨objects, slept, hrounds⟩ := rounds_running_iff.2 h
  obtain ⟨objects', slept', hrounds'⟩ := rounds_running_iff.2 h'
  rw [hrounds] at hrounds'
  cases hrounds'
  rfl

theorem Way.last_page {i n : Nat} {token : Option String}
    (h : Way fromstring client server under page_size (i + 1) n token) :
    ∃ m t objects next, Way fromstring client server under page_size i m t ∧
      PageAt fromstring client server under page_size m t objects (some next) n ∧ token = some next := by
  cases h with
  | more h hpage => exact ⟨_, _, _, _, h, hpage, rfl⟩

theorem Way.token {i n : Nat} {token : Option String}
    (h : Way fromstring client server under page_size (i + 1) n token) : ∃ next, token = some next := by
  cases h with
  | more h hpage => exact ⟨_, rfl⟩

/-- With so many tokens and none of them twice the listing ends. -/
theorem ends_of_noRepeat {tokens : List String}
    (htokens : ∀ i n token, Way fromstring client server under page_size i n (some token) → token ∈ tokens)
    (h : NoRepeat fromstring client server under page_size) : Ends fromstring client server under page_size := by
  refine ends_iff.2 (.inr ?_)
  by_contra hforever
  push Not at hforever
  choose number token hway using hforever
  choose next hnext using fun i => (hway (i + 1)).token
  -- every page after the first one has its own token
  have hinjective : Function.Injective next := by
    intro i j heq
    have hi := hway (i + 1)
    have hj := hway (j + 1)
    rw [hnext, heq] at hi
    rw [hnext] at hj
    exact Nat.succ.inj (h _ _ _ _ _ hi hj)
  have hmem (i : Nat) : next i ∈ {token | token ∈ tokens} := by
    have hi := hway (i + 1)
    rw [hnext] at hi
    exact htokens _ _ _ hi
  exact Set.infinite_of_injective_forall_mem hinjective hmem tokens.finite_toSet

/-! A server whose answers depend on the request alone serves the same pages from every number on. -/

def Stateless (server : Server Query) : Prop := ∀ n m query, server n query = server m query

theorem Delivers.shift {query : Query} {body : List UInt8} (hserver : Stateless server) :
    ∀ {left n n' : Nat}, Delivers server query left n body n' → ∀ m, ∃ m', Delivers server query left m body m'
  | 0, n, n', h, m => ⟨m + 1, by rw [hserver m n]; exact h.1, rfl⟩
  | left + 1, n, n', h, m => by
    rcases h with ⟨haccepts, -⟩ | ⟨hretry, h⟩
    · exact ⟨m + 1, .inl ⟨by rw [hserver m n]; exact haccepts, rfl⟩⟩
    · obtain ⟨m', h⟩ := Delivers.shift hserver h (m + 1)
      exact ⟨m', .inr ⟨by rw [hserver m n]; exact hretry, h⟩⟩

theorem PageAt.shift (hserver : Stateless server) {n n' : Nat} {token next : Option String} {objects : List ListedObject}
    (h : PageAt fromstring client server under page_size n token objects next n') (m : Nat) :
    ∃ m', PageAt fromstring client server under page_size m token objects next m' := by
  obtain ⟨body, root, hdelivers, hroot, hpage⟩ := h
  obtain ⟨m', hdelivers⟩ := hdelivers.shift hserver m
  exact ⟨m', body, root, hdelivers, hroot, hpage⟩

/-- A way goes on from every place with the same token. -/
theorem Way.again (hserver : Stateless server) {j m : Nat} {token : Option String}
    (hj : Way fromstring client server under page_size j m token) {i n : Nat}
    (hi : Way fromstring client server under page_size i n token) (k : Nat) :
    ∀ {l : Nat} {last : Option String}, Way fromstring client server under page_size (i + k) l last →
      ∃ l', Way fromstring client server under page_size (j + k) l' last := by
  induction k with
  | zero =>
    intro l last h
    exact ⟨m, hi.unique h ▸ hj⟩
  | succ k ih =>
    intro l last h
    have hlast : Way fromstring client server under page_size (i + k + 1) l last := h
    obtain ⟨l₀, t, objects, next, hway, hpage, rfl⟩ := hlast.last_page
    obtain ⟨l₁, hway⟩ := ih hway
    obtain ⟨l', hpage⟩ := hpage.shift hserver l₁
    exact ⟨l', .more hway hpage⟩

/-- Such a server that hands out a token twice goes on forever. -/
theorem forever_of_repeat (hserver : Stateless server) {i j n m : Nat} {token : Option String} (hlt : i < j)
    (hi : Way fromstring client server under page_size i n token)
    (hj : Way fromstring client server under page_size j m token) :
    ∀ k, ∃ l t, Way fromstring client server under page_size k l t := by
  intro k
  induction k using Nat.strong_induction_on with
  | h k ih =>
    rcases Nat.lt_or_ge j k with hjk | hkj
    · -- the page as far behind the first of the two
      obtain ⟨l, t, h⟩ := ih (i + (k - j)) (by omega)
      obtain ⟨l', h⟩ := Way.again hserver hj hi (k - j) h
      rw [Nat.add_sub_of_le (Nat.le_of_lt hjk)] at h
      exact ⟨l', t, h⟩
    · exact hj.before k hkj

theorem noRepeat_of_ends (hserver : Stateless server) (hcheck : list_check under page_size = .ok ())
    (h : Ends fromstring client server under page_size) : NoRepeat fromstring client server under page_size := by
  obtain ⟨k, hk⟩ := (ends_iff.1 h).resolve_left (not_not.2 hcheck)
  intro i j n m token hi hj
  by_contra hne
  have hforever : ∃ l t, Way fromstring client server under page_size k l t := by
    rcases Nat.lt_or_gt_of_ne hne with hlt | hgt
    · exact forever_of_repeat hserver hlt hi hj k
    · exact forever_of_repeat hserver hgt hj hi k
  obtain ⟨l, t, hway⟩ := hforever
  exact hk l t hway

end

/-- **A listing ends unless the server goes on with pages forever**: with so many tokens it ends if none of them
is handed out twice, and only then if the server's answers depend on the request alone. -/
theorem list_objects_ends_iff (fromstring : List UInt8 → Option Element) (client : S3Client) (server : Server Query)
    (under : String) (page_size : Option Nat) :
    (Ends fromstring client server under page_size ↔ list_check under page_size ≠ .ok () ∨
      ∃ i, ∀ n token, ¬ Way fromstring client server under page_size i n token) ∧
    ∀ tokens : List String,
      (∀ i n token, Way fromstring client server under page_size i n (some token) → token ∈ tokens) →
        (NoRepeat fromstring client server under page_size → Ends fromstring client server under page_size) ∧
        (Stateless server → list_check under page_size = .ok () →
          (Ends fromstring client server under page_size ↔ NoRepeat fromstring client server under page_size)) := by
  refine ⟨ends_iff, fun tokens htokens => ⟨ends_of_noRepeat htokens, fun hserver hcheck => ?_⟩⟩
  exact ⟨noRepeat_of_ends hserver hcheck, ends_of_noRepeat htokens⟩

def pageXml (token : String) : String :=
  "<r><IsTruncated>true</IsTruncated><NextContinuationToken>" ++ token ++ "</NextContinuationToken></r>"

def pageRoot (token : String) : Element :=
  .mk "r" none [.mk "IsTruncated" (some "true") [], .mk "NextContinuationToken" (some token) []]

def cycleParse (body : List UInt8) : Option Element :=
  if body = bytesOf (pageXml "a") then some (pageRoot "a")
  else if body = bytesOf (pageXml "b") then some (pageRoot "b") else none

/-- Hands out `a` and `b` by turns, and no object. -/
def cycleServer : Server Query := fun _ query =>
  .response 200 [] (bytesOf (pageXml (if query.lookup "continuation-token" = some "a" then "b" else "a")))

theorem cycle_parsed {token : String} (h : token = "a" ∨ token = "b") :
    cycleParse (bytesOf (pageXml token)) = some (pageRoot token) := by
  rcases h with rfl | rfl
  · exact if_pos rfl
  · have hne : bytesOf (pageXml "b") ≠ bytesOf (pageXml "a") := by decide +kernel
    rw [cycleParse, if_neg hne, if_pos rfl]

theorem cycle_page {token : String} (h : token = "a" ∨ token = "b") {continuation : Option String}
    (hne : some token ≠ continuation) : IsPage "" continuation (pageRoot token) [] (some token) := by
  rcases h with rfl | rfl
  · exact ⟨.nil, by decide +kernel, by decide +kernel, by decide +kernel, hne⟩
  · exact ⟨.nil, by decide +kernel, by decide +kernel, by decide +kernel, hne⟩

theorem cycle_goes {n : Nat} {token : Option String} (h : token = none ∨ token = some "a" ∨ token = some "b") :
    ∃ next, (next = "a" ∨ next = "b") ∧
      PageAt cycleParse sampleClient cycleServer "" none n token [] (some next) (n + 1) := by
  rcases h with rfl | rfl | rfl
  · exact ⟨"a", .inl rfl, _, _, .inl ⟨⟨[], rfl⟩, rfl⟩, cycle_parsed (.inl rfl), cycle_page (.inl rfl) nofun⟩
  · exact ⟨"b", .inr rfl, _, _, .inl ⟨⟨[], rfl⟩, rfl⟩, cycle_parsed (.inr rfl), cycle_page (.inr rfl) (by decide)⟩
  · exact ⟨"a", .inl rfl, _, _, .inl ⟨⟨[], rfl⟩, rfl⟩, cycle_parsed (.inl rfl), cycle_page (.inl rfl) (by decide)⟩

theorem cycle_way : ∀ i, ∃ n token, (token = none ∨ token = some "a" ∨ token = some "b") ∧
    Way cycleParse sampleClient cycleServer "" none i n token
  | 0 => ⟨0, none, .inl rfl, .start⟩
  | i + 1 => by
    obtain ⟨n, token, htoken, hway⟩ := cycle_way i
    obtain ⟨next, hnext, hpage⟩ := cycle_goes htoken
    exact ⟨n + 1, some next, .inr (by simpa using hnext), .more hway hpage⟩

/-- Two tokens by turns keep a listing going forever. -/
theorem cycle_forever :
    (∀ i n token, Way cycleParse sampleClient cycleServer "" none i n (some token) → token ∈ ["a", "b"]) ∧
      ¬ Ends cycleParse sampleClient cycleServer "" none := by
  constructor
  · intro i n token hway
    obtain ⟨m, token', htoken, hway'⟩ := cycle_way i
    obtain rfl := hway.unique hway'
    simpa using htoken
  · intro hends
    rcases ends_iff.1 hends with hcheck | ⟨i, hi⟩
    · exact hcheck (by decide +kernel)
    · obtain ⟨n, token, -, hway⟩ := cycle_way i
      exact hi n token hway

end S3
