import DkcLinux.LeaseSafety
import DkcLinux.StoreSem

/-!
# Workflow runs as proof of a takeover (`dkc/github_runs.py`)

The runs API answers with the number and the status of a run's latest attempt.
`workflow_attempt_terminal` compares that number with the recorded one, so a re-run hides that the
recorded attempt has ended (`terminal_iff`), and `LeaseManager.acquire` with it (`takeover_iff`).
-/

open Py Records

namespace GithubRuns

def RESPONSE_LIMIT : Nat := 1048576

def url (owner : LeaseOwner) : String :=
  "https://api.github.com/repos/" ++ owner.repository ++ "/actions/runs/" ++ owner.workflow_run_id

/-- `value == n`. A float, which the API never sends, compares unequal here. -/
def equalsInt (n : Int) : Json → Bool
  | .int m => m == n
  | .bool b => (if b then 1 else 0) == n
  | _ => false

/-- The returned conjunction. -/
def proves (fields : List (String × Json)) (owner : LeaseOwner) : Bool :=
  match fields.lookup "head_repository" with
  | some (.obj repository) =>
    isStr (repository.lookup "full_name") owner.repository && isStr (fields.lookup "status") "completed" &&
      (fields.lookup "run_attempt").any (equalsInt (intOf owner.run_attempt))
  | _ => false

section
-- `urlopen(...).read(...)`: the bytes at a URL
variable (urlopen : String → Except PyErr ByteArray)

def workflow_attempt_terminal (owner : LeaseOwner) : Except PyErr Bool :=
  match urlopen (url owner) with
  | .error .OSError => .ok false
  | .error e => .error e
  | .ok body =>
    if RESPONSE_LIMIT < body.size then .ok false
    else
      match Serialize.loads body with
      | .ok (.obj fields) => .ok (proves fields owner)
      | _ => .ok false

end

/-! ## Runs and what the API reports of them -/

inductive AttemptStatus where
  | running (status : String) (unfinished : status ≠ "completed")
  | completed

def AttemptStatus.text : AttemptStatus → String
  | running status _ => status
  | completed => "completed"

theorem AttemptStatus.text_eq {s : AttemptStatus} : s.text = "completed" ↔ s = completed := by
  cases s with
  | running status h => simpa [text] using h
  | completed => simp [text]

/-- A run: its head repository and its attempts, the latest one last. -/
structure WorkflowRun where
  full_name : String
  attempts : List AttemptStatus
  started : attempts ≠ []

namespace WorkflowRun

variable (run : WorkflowRun)

def latest : AttemptStatus := run.attempts.getLast run.started

/-- Attempts are counted from 1. -/
def attempt (n : Nat) : Option AttemptStatus := if n = 0 then none else run.attempts[n - 1]?

def Ended (n : Nat) : Prop := run.attempt n = some .completed

def Running (n : Nat) : Prop := ∃ status h, run.attempt n = some (.running status h)

theorem attempt_length : run.attempt run.attempts.length = some run.latest := by
  have hpos : 0 < run.attempts.length := List.length_pos_iff.2 run.started
  rw [attempt, if_neg (by omega), latest, List.getLast_eq_getElem, List.getElem?_eq_getElem (by omega)]

end WorkflowRun

/-- The API shows a run: its latest attempt, whatever there was before. -/
def Reports (urlopen : String → Except PyErr ByteArray) (owner : LeaseOwner) (run : WorkflowRun) : Prop :=
  ∃ body fields repository, urlopen (url owner) = .ok body ∧ body.size ≤ RESPONSE_LIMIT ∧
    Serialize.loads body = .ok (.obj fields) ∧ fields.lookup "head_repository" = some (.obj repository) ∧
    repository.lookup "full_name" = some (.str run.full_name) ∧
    fields.lookup "status" = some (.str run.latest.text) ∧
    fields.lookup "run_attempt" = some (.int run.attempts.length)

section
variable {urlopen : String → Except PyErr ByteArray} {owner : LeaseOwner} {run : WorkflowRun}

/-- **What the function proves**: the recorded attempt is the latest one, and that has ended. -/
theorem terminal_eq (h : Reports urlopen owner run) : ∃ b, workflow_attempt_terminal urlopen owner = .ok b ∧
    (b = true ↔ run.full_name = owner.repository ∧ run.latest = .completed ∧
      run.attempts.length = intOf owner.run_attempt) := by
  obtain ⟨body, fields, repository, hopen, hsize, hloads, hhead, hname, hstatus, hattempt⟩ := h
  refine ⟨proves fields owner, ?_, ?_⟩
  · rw [workflow_attempt_terminal, hopen]
    simp only [hloads]
    rw [if_neg (by omega)]
  · rw [proves, hhead]
    simp only [hname, hstatus, hattempt, isStr, Option.any_some, equalsInt, Bool.and_eq_true, beq_iff_eq,
      AttemptStatus.text_eq]
    constructor
    · rintro ⟨⟨hrepository, hlatest⟩, hlength⟩
      exact ⟨hrepository, hlatest, by omega⟩
    · rintro ⟨hrepository, hlatest, hlength⟩
      exact ⟨⟨hrepository, hlatest⟩, by omega⟩

theorem terminal_ended (h : Reports urlopen owner run)
    (hterminal : workflow_attempt_terminal urlopen owner = .ok true) : run.Ended (intOf owner.run_attempt) := by
  obtain ⟨b, hb, hiff⟩ := terminal_eq h
  obtain rfl : b = true := Except.ok.inj (hb.symm.trans hterminal)
  obtain ⟨-, hlatest, hlength⟩ := hiff.1 rfl
  rw [WorkflowRun.Ended, ← hlength, run.attempt_length, hlatest]

/-- An attempt that has ended is proved ended iff no other followed and the repository has its name. -/
theorem terminal_iff (h : Reports urlopen owner run) (hended : run.Ended (intOf owner.run_attempt)) :
    workflow_attempt_terminal urlopen owner = .ok true ↔
      run.full_name = owner.repository ∧ run.attempts.length = intOf owner.run_attempt := by
  obtain ⟨b, hb, hiff⟩ := terminal_eq h
  rw [hb, Except.ok.injEq, hiff]
  constructor
  · rintro ⟨hrepository, -, hlength⟩
    exact ⟨hrepository, hlength⟩
  · rintro ⟨hrepository, hlength⟩
    refine ⟨hrepository, ?_, hlength⟩
    rw [← hlength, WorkflowRun.Ended, run.attempt_length] at hended
    exact Option.some.inj hended

end

/-! ## Taking the lease over -/

/-- A store, a clock in microseconds, and the runs API; nobody else writes. -/
def alone (urlopen : String → Except PyErr ByteArray) : (op : Op) → Store × Nat → op.Res × (Store × Nat)
  | .get key, w => (.ok (w.1.get key), w)
  | .put key v c, w =>
    match w.1.put key v c with
    | (some x, s) => (.ok x, (s, w.2))
    | (none, s) => (.error (.PreconditionFailed key), (s, w.2))
  | .delete key, w => (.ok (), (w.1.delete key, w.2))
  | .list_objects under, w => (.ok (w.1.listing under), w)
  | .clock, w => (w.2, w)
  | .terminal_proof owner, w => (workflow_attempt_terminal urlopen owner, w)
  | .sleep n, w => ((), (w.1, w.2 + n * 1000000))

/-- The stored record is held by `old` and expired longer ago than the grace. -/
structure Stale (m : LeaseManager) (old : LeaseOwner) (w : Store × Nat) (x : StoredObject) (r : LeaseRecord) :
    Prop where
  stored : w.1.get LEASE_KEY = some x
  exact_object : LeaseManager.require_exact_object x = .ok r
  held : r.status = .held
  owner : r.owner = some old
  expired : ∃ expires t, r.expires_utc = some expires ∧ Calendar.strptime expires = some t ∧
    t + m.takeover_grace_seconds ≤ w.2 / 1000000
  /-- The new expiry is a date. -/
  representable : w.2 / 1000000 + m.ttl_seconds < Calendar.maxSeconds

section
variable {urlopen : String → Except PyErr ByteArray} {m : LeaseManager} {o old : LeaseOwner} {w : Store × Nat}
  {x : StoredObject} {r : LeaseRecord}

/-- A record that expired long enough ago may be taken over iff its run is proved to be over. -/
theorem Stale.allowed (h : Stale m old w x r) (old_run_terminal : Bool) :
    r.stale_takeover_allowed (Calendar.strftime (w.2 / 1000000)) m.takeover_grace_seconds old_run_terminal =
      .ok old_run_terminal := by
  obtain ⟨expires, t, hexpires, ht, hle⟩ := h.expired
  obtain ⟨_, _, e, -, -, he, -, _, _, te, -, -, hte, -, -⟩ := LeaseRecord.held_cases h.held
  obtain rfl : expires = e := Option.some.inj (hexpires.symm.trans he)
  obtain rfl : te = t := Option.some.inj ((strptime_of_utc hte).symm.trans ht)
  have hrep := h.representable
  have hnow : utc (Calendar.strftime (w.2 / 1000000)) "now_utc" = .ok (w.2 / 1000000) :=
    utc_strftime (by omega) _
  have hutc : utc expires "expires_utc" = .ok te := hte
  rw [LeaseRecord.stale_takeover_allowed, if_neg (by omega)]
  simp only [h.held, hexpires, except_pure]
  cases old_run_terminal with
  | false => rfl
  | true =>
    simp only [Bool.not_true, Bool.false_eq_true, if_false, hnow, hutc, except_ok_bind, Except.ok.injEq,
      decide_eq_true_eq]
    omega

theorem now_run (h : Stale m old w x r) :
    (LeaseManager.now : Cmd Unit Nat).run (alone urlopen) () w = ((.ok (w.2 / 1000000), ()), w) := by
  have hrep := h.representable
  have hlt : w.2 / 1000000 < Calendar.maxSeconds := by omega
  simp only [LeaseManager.now, Cmd.run_bind]
  exact congrArg (fun c : Cmd Unit Nat => c.run (alone urlopen) () w) (if_pos hlt)

theorem terminal_run {b : Bool} (h : workflow_attempt_terminal urlopen old = .ok b) :
    (Cmd.terminal_proof old : Cmd Unit Bool).run (alone urlopen) () w = ((.ok b, ()), w) := by
  show ((workflow_attempt_terminal urlopen old, ()), w) = _
  rw [h]

theorem require_stale_run (h : Stale m old w x r) {b : Bool}
    (hterminal : workflow_attempt_terminal urlopen old = .ok b) :
    (m.require_stale (w.2 / 1000000) r : Cmd Unit Unit).run (alone urlopen) () w =
      ((if b then .ok () else .error (.LeaseBusy "production lease is held and cannot be safely taken over"), ()),
        w) := by
  simp only [LeaseManager.require_stale, h.owner, Cmd.run_bind, terminal_run hterminal, Cmd.andThen_ok,
    Cmd.run_lift, h.allowed]
  cases b <;> rfl

/-- **Acquiring a stale lease** succeeds iff the run that holds it is proved to be over. -/
theorem acquire_run (h : Stale m old w x r) (hne : o ≠ old) {b : Bool}
    (hterminal : workflow_attempt_terminal urlopen old = .ok b) :
    (b = true → ∃ handle s, (m.acquire o).run (alone urlopen) () w = ((.ok handle, ()), (s, w.2)) ∧
      handle.owner = o ∧ handle.record.owner = some o ∧
      ∃ y, s.get LEASE_KEY = some y ∧ y.etag = handle.etag ∧ LeaseManager.require_exact_object y = .ok handle.record) ∧
    (b = false → (m.acquire o).run (alone urlopen) () w =
      ((.error (.LeaseBusy "production lease is held and cannot be safely taken over"), ()), w)) := by
  have hnot : ¬ (r.status = .held ∧ r.owner = some o) := by
    rintro ⟨-, ho⟩
    exact hne (Option.some.inj (ho.symm.trans h.owner))
  have hget : (Cmd.get LEASE_KEY : Cmd Unit _).run (alone urlopen) () w = ((.ok (some x), ()), w) := by
    show ((Except.ok (w.1.get LEASE_KEY), ()), w) = _
    rw [h.stored]
  simp only [LeaseManager.acquire, Cmd.run_bind, now_run h, Cmd.andThen_ok, hget, Cmd.run_lift, h.exact_object,
    if_neg hnot, if_pos h.held, require_stale_run h hterminal]
  constructor
  · rintro rfl
    obtain ⟨record, hrecord⟩ : ∃ record, m.held_record o (w.2 / 1000000) = .ok record :=
      LeaseSafety.held_record_ok h.representable
    obtain ⟨body, hbody⟩ := Serialize.canonical_bytes_ok record.to_dict_clean
    obtain ⟨-, howner, hschema, -⟩ := LeaseSafety.held_record_spec hrecord
    have hput : (Cmd.put LEASE_KEY ⟨body, LEASE_METADATA⟩ (.ifMatch x.etag) : Cmd Unit _).run (alone urlopen) () w =
        ((.ok ⟨⟨body, LEASE_METADATA⟩, w.1.revision⟩, ()), (w.1.write LEASE_KEY ⟨body, LEASE_METADATA⟩, w.2)) := by
      rcases w.1.put_cases LEASE_KEY ⟨body, LEASE_METADATA⟩ (.ifMatch x.etag) with ⟨-, hput⟩ | ⟨hc, -⟩
      · simp only [Cmd.run_put, alone, hput]
      · simp [h.stored, Conc.Cond.holds] at hc
    refine ⟨⟨o, record, w.1.revision, true⟩, w.1.write LEASE_KEY ⟨body, LEASE_METADATA⟩, ?_, rfl, howner,
      ⟨⟨body, LEASE_METADATA⟩, w.1.revision⟩, by simp, rfl, ?_⟩
    · simp only [if_true, Cmd.andThen_ok, LeaseManager.take, LeaseManager.write, Cmd.run_bind, Cmd.run_lift, hrecord,
        hbody, hput, Cmd.run_pure]
    · rw [LeaseManager.require_exact_object, if_neg (by simp)]
      exact parse_lease_canonical hschema hbody
  · rintro rfl
    rfl

end

/-- What a dead holder's lease promises to the others. -/
structure Promise (urlopen : String → Except PyErr ByteArray) (old : LeaseOwner) (run : WorkflowRun) : Prop where
  proved : run.Ended (intOf old.run_attempt) → workflow_attempt_terminal urlopen old = .ok true
  running : run.Running (intOf old.run_attempt) → workflow_attempt_terminal urlopen old ≠ .ok true
  taken_over : run.Ended (intOf old.run_attempt) → ∀ m o w x r, Stale m old w x r → o ≠ old →
    ∃ handle s, (m.acquire o).run (alone urlopen) () w = ((.ok handle, ()), (s, w.2)) ∧
      handle.owner = o ∧ handle.record.owner = some o ∧
      ∃ y, s.get LEASE_KEY = some y ∧ y.etag = handle.etag ∧ LeaseManager.require_exact_object y = .ok handle.record

/-- **A dead holder's lease can be taken over** iff, once its attempt has ended, no re-run followed
and the run's head repository is the recorded one. -/
theorem takeover_iff {urlopen : String → Except PyErr ByteArray} {old : LeaseOwner} {run : WorkflowRun}
    (h : Reports urlopen old run) : Promise urlopen old run ↔
      (run.Ended (intOf old.run_attempt) →
        run.full_name = old.repository ∧ run.attempts.length = intOf old.run_attempt) := by
  constructor
  · intro hp hended
    exact (terminal_iff h hended).1 (hp.proved hended)
  · intro hlatest
    have hproved : run.Ended (intOf old.run_attempt) → workflow_attempt_terminal urlopen old = .ok true :=
      fun hended => (terminal_iff h hended).2 (hlatest hended)
    refine ⟨hproved, ?_, ?_⟩
    · rintro ⟨status, hopen, hrunning⟩ hterminal
      have hended := terminal_ended h hterminal
      rw [WorkflowRun.Ended, hrunning] at hended
      cases hended
    · intro hended m o w x r hs hne
      exact (acquire_run hs hne (hproved hended)).1 rfl

/-! ## A publisher whose run was started again -/

namespace Sample

def publisher : LeaseOwner :=
  ⟨⟨"kogeler/dkc-linux", "101", "1", "publish", "0123456789abcdef0123456789abcdef"⟩, by decide⟩

def site : LeaseOwner :=
  ⟨⟨"kogeler/dkc-linux", "102", "1", "site", "fedcba9876543210fedcba9876543210"⟩, by decide⟩

/-- The fields of the API's answer that are read. -/
def response (run : WorkflowRun) : Json :=
  .obj [("head_repository", .obj [("full_name", .str run.full_name)]), ("run_attempt", .int run.attempts.length),
    ("status", .str run.latest.text)]

def urlopen (run : WorkflowRun) (_ : String) : Except PyErr ByteArray := Serialize.canonical_bytes (response run)

def size (run : WorkflowRun) : Nat := ((response run).dumps.map fun t => t.toUTF8.size).getD 0

theorem reports {run : WorkflowRun} (owner : LeaseOwner) (hsize : size run ≤ RESPONSE_LIMIT) :
    Reports (urlopen run) owner run := by
  have hclean : (response run).Clean := by simp [response, Json.Clean, Json.CleanFields]
  obtain ⟨t, ht, -, -⟩ := Json.dumps_clean hclean
  have hbody : Serialize.canonical_bytes (response run) = .ok t.toUTF8 := by rw [Serialize.canonical_bytes, ht]
  have hsorted : (response run).sortKeys = response run := by
    simp [response, Json.sortKeys, Json.sortFields, sortedItems]
  refine ⟨t.toUTF8, [("head_repository", .obj [("full_name", .str run.full_name)]),
    ("run_attempt", .int run.attempts.length), ("status", .str run.latest.text)], _, hbody, ?_, ?_, rfl, rfl, rfl, rfl⟩
  · rw [size, ht] at hsize
    exact hsize
  · rw [Serialize.loads_canonical_bytes hclean hbody, hsorted]
    rfl

/-- The attempt that crashed. -/
def crashed : WorkflowRun := ⟨"kogeler/dkc-linux", [.completed], by simp⟩

/-- The same run, started again. -/
def rerun : WorkflowRun := ⟨"kogeler/dkc-linux", [.completed, .running "in_progress" (by decide)], by simp⟩

theorem ttl_valid : 60 ≤ 900 := by decide

def manager : LeaseManager := ⟨900, 300, ttl_valid⟩

/-- The publisher's lease, stored in the year 1997 and found a day later. -/
theorem stale : ∃ w x r, Stale manager publisher w x r := by
  obtain ⟨r, hr⟩ : ∃ r, manager.held_record publisher 63000000000 = .ok r := LeaseSafety.held_record_ok (by decide)
  obtain ⟨body, hb⟩ := Serialize.canonical_bytes_ok r.to_dict_clean
  obtain ⟨hheld, howner, hschema, expires, hexpires, ht⟩ := LeaseSafety.held_record_spec hr
  refine ⟨(Conc.CondStore.empty.write LEASE_KEY ⟨body, LEASE_METADATA⟩, 63000086400000000), _, r,
    Conc.CondStore.get_write_self _ _ _, ?_, hheld, howner, ⟨expires, _, hexpires, ht, ?_⟩, ?_⟩
  · rw [LeaseManager.require_exact_object, if_neg (by simp)]
    exact parse_lease_canonical hschema hb
  · show 63000000000 + 900 + 300 ≤ 63000086400000000 / 1000000
    decide
  · show 63000086400000000 / 1000000 + 900 < Calendar.maxSeconds
    decide

end Sample

theorem takeover_iff_crashed : Promise (Sample.urlopen Sample.crashed) Sample.publisher Sample.crashed :=
  (takeover_iff (Sample.reports Sample.publisher (by decide +kernel))).2 fun _ => ⟨rfl, by decide⟩

/-- The first attempt has ended and its lease expired a day ago, but the second attempt hides it. -/
theorem rerun_hides : Sample.rerun.Ended (intOf Sample.publisher.run_attempt) ∧
    workflow_attempt_terminal (Sample.urlopen Sample.rerun) Sample.publisher = .ok false ∧
    ∃ w x r, Stale Sample.manager Sample.publisher w x r ∧
      (Sample.manager.acquire Sample.site).run (alone (Sample.urlopen Sample.rerun)) () w =
        ((.error (.LeaseBusy "production lease is held and cannot be safely taken over"), ()), w) := by
  have hattempt : intOf Sample.publisher.run_attempt = 1 := by decide
  obtain ⟨b, hb, hiff⟩ := terminal_eq (Sample.reports Sample.publisher (by decide +kernel) :
    Reports (Sample.urlopen Sample.rerun) Sample.publisher Sample.rerun)
  have hfalse : b = false := by
    rw [← Bool.not_eq_true, hiff, hattempt]
    rintro ⟨-, -, hlength⟩
    exact absurd hlength (by decide)
  subst hfalse
  obtain ⟨w, x, r, hs⟩ := Sample.stale
  refine ⟨by rw [hattempt]; rfl, hb, w, x, r, hs, ?_⟩
  exact (acquire_run hs (by decide) hb).2 rfl

end GithubRuns
