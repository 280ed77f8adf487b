import DkcLinux.LeaseRuns
import DkcLinux.StoreSem
import Mathlib.Algebra.Order.Field.Rat
import Mathlib.Algebra.Order.Archimedean.Basic
import Mathlib.Tactic.Linarith
import Mathlib.Tactic.Ring

/-!
# Waiting for the lease (`dkc/site_publication.py:220-243`)

`acquire_lease` tries again while the lease is busy, until the next poll would be after its deadline.
Contention shows in two ways:

| what the attempt meets                   | what `acquire` raises | what `acquire_lease` does |
|------------------------------------------|-----------------------|---------------------------|
| a record of another holder               | `LeaseBusy`           | waits, within its bound   |
| a lease that changed since it was read   | `PreconditionFailed`  | raises at once            |

`acquire_lease_waits` says of every run, with other clients changing the lease between any two
requests, that it ends, and that it waits as long as it may unless the second line happens.
-/

open Py Records Conc

section
variable {σ : Type} (m : LeaseManager) (owner : LeaseOwner) (wait_seconds poll_seconds : Int)
  -- the answers of `clock`, one after the other, and `on_wait` on the caller's state
  (clock : Nat → ℚ) (on_wait : Option (σ → σ))

/-- The loop of `acquire_lease` after `waits` sleeps: nothing if `rounds` are too few for it to end. -/
def waitLease (deadline : ℚ) : Nat → Nat → Cmd σ (Option LeaseHandle)
  | 0, _ => pure none
  | rounds + 1, waits =>
    tryCatch (do return some (← m.acquire owner)) fun
      | .LeaseBusy message => do
        if clock (waits + 1) + poll_seconds > deadline then
          throw (PyErr.LeaseBusy message)
        if let some on_wait := on_wait then
          modify on_wait
        Cmd.call (.sleep poll_seconds.toNat)
        waitLease deadline rounds (waits + 1)
      | e => throw e

def acquire_lease (rounds : Nat) : Cmd σ (Option LeaseHandle) := do
  if wait_seconds < 0 ∨ poll_seconds < 1 then
    throw (PyErr.ValueError "lease wait bounds are invalid")
  waitLease m owner poll_seconds clock on_wait (clock 0 + wait_seconds) rounds 0

end

namespace LeaseWait

/-! ## The other clients -/

/-- What an attempt raises because of other clients. -/
def Contention (e : PyErr) : Prop := ∃ msg, e = .LeaseBusy msg ∨ e = .PreconditionFailed msg

/-- A clock that advances at least with each sleep. -/
structure Advances (poll_seconds : Int) (clock : Nat → ℚ) : Prop where
  start : clock 0 ≤ clock 1
  sleep : ∀ n, clock (n + 1) + poll_seconds ≤ clock (n + 2)

/-- After `n` sleeps, the next poll would be after the deadline. -/
def Late (wait_seconds poll_seconds : Int) (clock : Nat → ℚ) (n : Nat) : Prop :=
  clock 0 + wait_seconds < clock (n + 1) + poll_seconds

/-- The store, the lease as the client last read it, how often the client has slept, and whether one of
its writes met another lease than it had read, early enough to wait. -/
structure Scene where
  store : Store
  seen : Option StoredObject
  waits : Nat
  lost : Prop

/-- A write of the lease reaches the store. -/
def Scene.met (late : Nat → Prop) (w : Scene) : Scene :=
  { w with lost := w.lost ∨ w.store.get LEASE_KEY ≠ w.seen ∧ ¬ late w.waits }

/-- What the requests of a client can do and answer. A request that fails does so for another reason
than contention, and a write that fails may be applied. -/
inductive Serves (late : Nat → Prop) : (o : Op) → Scene → o.Res → Scene → Prop
  | get {w} : Serves late (.get LEASE_KEY) w (.ok (w.store.get LEASE_KEY))
      { w with seen := w.store.get LEASE_KEY }
  | written {w v} {c : Cond} : c.holds (w.store.get LEASE_KEY) = true →
      Serves late (.put LEASE_KEY v c) w (.ok ⟨v, w.store.revision⟩)
        { w.met late with store := w.store.write LEASE_KEY v }
  | refused {w v} {c : Cond} : c.holds (w.store.get LEASE_KEY) = false →
      Serves late (.put LEASE_KEY v c) w (.error (.PreconditionFailed LEASE_KEY)) (w.met late)
  | getFailed {w key} (e : PyErr) : ¬ Contention e → Serves late (.get key) w (.error e) w
  | putFailed {w key v c s} (e : PyErr) : ¬ Contention e → w.store.Evolves s →
      Serves late (.put key v c) w (.error e) { w with store := s }
  /-- The response was lost, and the client then read what it wanted to write. -/
  | reconciled {w key v c s x} : w.store.Evolves s → s.get key = some x → x.value = v →
      Serves late (.put key v c) w (.ok x) { w with store := s }
  | deleteFailed {w key} (e : PyErr) : ¬ Contention e → Serves late (.delete key) w (.error e) w
  | listFailed {w under} (e : PyErr) : ¬ Contention e → Serves late (.list_objects under) w (.error e) w
  | terminal_proof {w o} (b : Bool) : Serves late (.terminal_proof o) w (.ok b) w
  | terminalFailed {w o} (e : PyErr) : ¬ Contention e → Serves late (.terminal_proof o) w (.error e) w
  | clock {w} (micros : Nat) : Serves late .clock w micros w
  | sleep {w seconds} : Serves late (.sleep seconds) w () { w with waits := w.waits + 1 }

/-- Other clients change the store in any way. -/
structure Others (w w' : Scene) : Prop where
  store : w.store.Evolves w'.store
  seen : w'.seen = w.seen
  waits : w'.waits = w.waits
  lost : w'.lost = w.lost

theorem Others.refl (w : Scene) : Others w w := ⟨.refl _, rfl, rfl, rfl⟩

/-- After `n` sleeps, with nothing lost. -/
def Calm (n : Nat) (w : Scene) : Prop := w.waits = n ∧ ¬ w.lost

theorem Others.calm {n : Nat} {w w' : Scene} (h : Others w w') (hw : Calm n w) : Calm n w' :=
  ⟨h.waits.trans hw.1, h.lost ▸ hw.2⟩

/-- Whatever is stored under the ETag that was read is what was read. -/
structure Known (x : Option StoredObject) (w : Scene) : Prop where
  seen : w.seen = x
  issued : ∀ e, x = some e → e.etag < w.store.revision
  same : ∀ e y, x = some e → w.store.get LEASE_KEY = some y → y.etag = e.etag → y = e

theorem Others.known {x : Option StoredObject} {w w' : Scene} (h : Others w w') (hw : Known x w) : Known x w' where
  seen := h.seen.trans hw.seen
  issued e he := lt_of_lt_of_le (hw.issued e he) h.store.revision
  same e y he hy heq := by
    have hold : w.store.get LEASE_KEY = some y := h.store.same (heq ▸ hw.issued e he) hy
    exact hw.same e y he hold heq

theorem known_read (w : Scene) : Known (w.store.get LEASE_KEY) { w with seen := w.store.get LEASE_KEY } where
  seen := rfl
  issued _ he := CondStore.etag_lt he
  same _ _ he hy _ := Option.some.inj (hy.symm.trans he)

/-- The condition of a write after a read. -/
def condOf : Option StoredObject → Cond
  | none => .ifNoneMatch
  | some e => .ifMatch e.etag

/-- The condition holds as long as the lease is what was read. -/
theorem Known.holds_iff {x : Option StoredObject} {w : Scene} (h : Known x w) :
    (condOf x).holds (w.store.get LEASE_KEY) = true ↔ w.store.get LEASE_KEY = w.seen := by
  rw [h.seen]
  cases x with
  | none => exact Cond.holds_ifNoneMatch
  | some e =>
    rw [condOf, Cond.holds_ifMatch]
    constructor
    · rintro ⟨y, hy, heq⟩
      rw [hy, h.same e y rfl hy heq]
    · exact fun hsame => ⟨e, hsame, rfl⟩

/-! ## One attempt -/

/-- What an attempt leaves: a write is lost exactly if it was refused, and early enough to wait. -/
def Tried {α : Type} (late : Nat → Prop) (n : Nat) (r : Except PyErr α) (w : Scene) : Prop :=
  w.waits = n ∧ (w.lost ↔ (∃ k, r = .error (.PreconditionFailed k)) ∧ ¬ late n)

section
variable {α : Type} {late : Nat → Prop} {n : Nat} {w : Scene}

theorem Calm.tried {r : Except PyErr α} (h : Calm n w) (hr : ∀ k, r ≠ .error (.PreconditionFailed k)) :
    Tried late n r w :=
  ⟨h.1, iff_of_false h.2 fun hlost => hlost.1.elim hr⟩

theorem Calm.tried_error {e : PyErr} (h : Calm n w) (he : ¬ Contention e) :
    Tried late n (.error e : Except PyErr α) w :=
  h.tried fun k hk => he ⟨k, .inr (Except.error.inj hk)⟩

variable {σ : Type} {st : σ} {m : LeaseManager} {owner : LeaseOwner}

theorem wp_now {Q : Except PyErr Nat → σ → Scene → Prop}
    (h : ∀ w', Others w w' → (∀ t, Q (.ok t) st w') ∧ Q (.error .OverflowError) st w') :
    (LeaseManager.now : Cmd σ Nat).wp (Serves late) Others (fun _ _ => True) Q st w := by
  simp only [LeaseManager.now, Cmd.wp_bind]
  intro w' hR r w'' hsem
  cases hsem
  refine ⟨trivial, ?_⟩
  obtain ⟨hok, herr⟩ := h w' hR
  simp only [Conc.wp_ret, Cmd.after_ok]
  split
  · exact hok _
  · exact herr

theorem wp_getLease {Q : Except PyErr (Option StoredObject) → σ → Scene → Prop}
    (h : ∀ w', Others w w' → Q (.ok (w'.store.get LEASE_KEY)) st { w' with seen := w'.store.get LEASE_KEY } ∧
      ∀ e, ¬ Contention e → Q (.error e) st w') :
    (Cmd.get LEASE_KEY).wp (Serves late) Others (fun _ _ => True) Q st w := by
  intro w' hR r w'' hsem
  generalize hkey : LEASE_KEY = key at hsem
  cases hsem with
  | get => exact ⟨trivial, (h w' hR).1⟩
  | getFailed e he => exact ⟨trivial, (h w' hR).2 e he⟩

theorem wp_terminal_proof {Q : Except PyErr Bool → σ → Scene → Prop} {o : LeaseOwner}
    (h : ∀ w', Others w w' → (∀ b, Q (.ok b) st w') ∧ ∀ e, ¬ Contention e → Q (.error e) st w') :
    (Cmd.terminal_proof o).wp (Serves late) Others (fun _ _ => True) Q st w := by
  intro w' hR r w'' hsem
  cases hsem with
  | terminal_proof b => exact ⟨trivial, (h w' hR).1 b⟩
  | terminalFailed e he => exact ⟨trivial, (h w' hR).2 e he⟩

/-- The write after a read is refused exactly if the lease has changed. -/
theorem wp_put {x : Option StoredObject} {v : ObjectValue} (hcalm : Calm n w) (hknown : Known x w) :
    (Cmd.put LEASE_KEY v (condOf x)).wp (Serves late) Others (fun _ _ => True)
      (fun r _ w' => Tried late n r w') st w := by
  intro w' hR r w'' hsem
  have hcalm := hR.calm hcalm
  have hknown := hR.known hknown
  refine ⟨trivial, ?_⟩
  generalize hkey : LEASE_KEY = key at hsem
  generalize hcond : condOf x = c at hsem
  cases hsem with
  | written hholds =>
    have hsame := hknown.holds_iff.1 (hcond ▸ hholds)
    refine ⟨hcalm.1, iff_of_false ?_ ?_⟩
    · rintro (hlost | ⟨hchanged, -⟩)
      · exact hcalm.2 hlost
      · exact hchanged hsame
    · rintro ⟨⟨k, hk⟩, -⟩
      cases hk
  | refused hholds =>
    have hchanged : w'.store.get LEASE_KEY ≠ w'.seen := fun hsame => by
      rw [← hcond, hknown.holds_iff.2 hsame] at hholds
      cases hholds
    refine ⟨hcalm.1, ?_⟩
    show w'.lost ∨ w'.store.get LEASE_KEY ≠ w'.seen ∧ ¬ late w'.waits ↔ _
    rw [hcalm.1]
    constructor
    · rintro (hlost | ⟨-, hearly⟩)
      · exact absurd hlost hcalm.2
      · exact ⟨⟨_, rfl⟩, hearly⟩
    · exact fun h => .inr ⟨hchanged, h.2⟩
  | putFailed e he _ => exact Calm.tried_error (w := { w' with store := _ }) hcalm he
  | reconciled _ _ _ => exact Calm.tried (w := { w' with store := _ }) hcalm fun k hk => by cases hk

theorem Tried.map {β : Type} {r : Except PyErr α} {r' : Except PyErr β} (h : Tried late n r w)
    (hr : ∀ e, r = .error e ↔ r' = .error e) : Tried late n r' w :=
  ⟨h.1, h.2.trans (and_congr_left fun _ => exists_congr fun _ => hr _)⟩

theorem held_record_quiet {now : Nat} {k : String} : m.held_record owner now ≠ .error (.PreconditionFailed k) := by
  intro h
  by_cases hlt : now + m.ttl_seconds < Calendar.maxSeconds
  · obtain ⟨r, hr⟩ : ∃ r, m.held_record owner now = .ok r := LeaseSafety.held_record_ok hlt
    rw [hr] at h
    cases h
  · rw [LeaseManager.held_record, if_neg hlt] at h
    cases h

theorem take_wp {x : Option StoredObject} {now : Nat} {takeover : Bool} (hcalm : Calm n w) (hknown : Known x w) :
    (m.take owner now (condOf x) takeover).wp (Serves late) Others (fun _ _ => True)
      (fun r (_ : σ) w' => Tried late n r w') st w := by
  rw [LeaseManager.take, Cmd.wp_bind, Cmd.wp_monadLift]
  cases hr : m.held_record owner now with
  | error e =>
    refine hcalm.tried fun k hk => ?_
    cases hk
    exact held_record_quiet hr
  | ok record =>
    rw [Cmd.after_ok, Cmd.wp_bind, LeaseManager.write, Cmd.wp_bind, Cmd.wp_monadLift]
    obtain ⟨body, hbody⟩ := Serialize.canonical_bytes_ok record.to_dict_clean
    rw [hbody, Cmd.after_ok]
    refine Cmd.wp_mono (wp_put hcalm hknown) fun r st w h => ?_
    cases r with
    | error e => exact h.map fun e => by simp
    | ok stored => exact h.map fun e => by simp

/-! What the record of another holder can raise. -/

theorem parse_utc_quiet {value k : String} : LeaseManager.parse_utc value ≠ .error (.PreconditionFailed k) := by
  unfold LeaseManager.parse_utc
  split <;> simp

theorem utc_quiet {value field_name k : String} : utc value field_name ≠ .error (.PreconditionFailed k) := by
  unfold utc
  split
  · split <;> simp
  · simp

theorem require_exact_object_quiet {value : StoredObject} {k : String} :
    LeaseManager.require_exact_object value ≠ .error (.PreconditionFailed k) := by
  unfold LeaseManager.require_exact_object parse_lease
  split
  · simp
  · split <;> simp

theorem reacquire_quiet {now : Nat} {current : StoredObject} {observed : LeaseRecord} {k : String} :
    LeaseManager.reacquire owner now current observed ≠ .error (.PreconditionFailed k) := by
  unfold LeaseManager.reacquire
  split
  · simp
  · next expires_utc _ =>
    cases h : LeaseManager.parse_utc expires_utc with
    | error e =>
      rintro hk
      cases hk
      exact parse_utc_quiet h
    | ok t =>
      rw [except_ok_bind]
      split <;> simp

theorem stale_takeover_quiet {r : LeaseRecord} {now_utc k : String} {grace_seconds : Int} {terminal : Bool} :
    r.stale_takeover_allowed now_utc grace_seconds terminal ≠ .error (.PreconditionFailed k) := by
  unfold LeaseRecord.stale_takeover_allowed
  intro hk
  simp only [except_throw, except_error_bind, except_pure] at hk
  split at hk
  · cases hk
  split at hk
  · next expires_utc _ _ =>
    split at hk
    · cases hk
    cases hnow : utc now_utc "now_utc" with
    | error e =>
      rw [hnow] at hk
      cases hk
      exact utc_quiet hnow
    | ok now =>
      cases hexpires : utc expires_utc "expires_utc" with
      | error e =>
        rw [hnow, hexpires] at hk
        cases hk
        exact utc_quiet hexpires
      | ok expires =>
        rw [hnow, hexpires, except_ok_bind, except_ok_bind] at hk
        cases hk
  · cases hk

/-- Nothing is written before another holder's lease may be taken over. -/
theorem require_stale_wp {x : Option StoredObject} {now : Nat} {observed : LeaseRecord} (hcalm : Calm n w)
    (hknown : Known x w) : (m.require_stale now observed).wp (Serves late) Others (fun _ _ => True)
      (Cmd.Gives (fun _ _ w' => Calm n w' ∧ Known x w') fun e (_ : σ) w' =>
        Calm n w' ∧ ∀ k, e ≠ .PreconditionFailed k) st w := by
  unfold LeaseManager.require_stale
  split
  · exact ⟨hcalm, fun k hk => by cases hk⟩
  · rw [Cmd.wp_bind]
    refine wp_terminal_proof fun w' hR => ⟨fun terminal => ?_, fun e he => ?_⟩
    · rw [Cmd.after_ok, Cmd.wp_bind, Cmd.wp_monadLift]
      cases hallowed : observed.stale_takeover_allowed (Calendar.strftime now) m.takeover_grace_seconds terminal with
      | error e =>
        refine ⟨hR.calm hcalm, fun k hk => ?_⟩
        rw [hk] at hallowed
        exact stale_takeover_quiet hallowed
      | ok allowed =>
        rw [Cmd.after_ok]
        split
        · exact ⟨hR.calm hcalm, fun k hk => by cases hk⟩
        · exact ⟨hR.calm hcalm, hR.known hknown⟩
    · exact ⟨hR.calm hcalm, fun k hk => he ⟨k, .inr hk⟩⟩

/-- **One attempt** loses its write exactly if it is refused. -/
theorem acquire_wp (hcalm : Calm n w) : (m.acquire owner).wp (Serves late) Others (fun _ _ => True)
    (fun r (_ : σ) w' => Tried late n r w') st w := by
  rw [LeaseManager.acquire, Cmd.wp_bind]
  refine wp_now fun w hR => ⟨fun now => ?_, (hR.calm hcalm).tried fun k hk => by cases hk⟩
  have hcalm := hR.calm hcalm
  rw [Cmd.after_ok, Cmd.wp_bind]
  refine wp_getLease fun w hR => ⟨?_, fun e he => (hR.calm hcalm).tried_error he⟩
  have hcalm : ∀ x, Calm n { w with seen := x } := fun x => hR.calm hcalm
  have hknown := known_read w
  rw [Cmd.after_ok]
  generalize w.store.get LEASE_KEY = x at hknown ⊢
  have hcalm := hcalm x
  cases x with
  | none => exact take_wp (x := none) hcalm hknown
  | some current =>
    dsimp only
    rw [Cmd.wp_bind, Cmd.wp_monadLift]
    cases hobserved : LeaseManager.require_exact_object current with
    | error e =>
      refine hcalm.tried fun k hk => ?_
      cases hk
      exact require_exact_object_quiet hobserved
    | ok observed =>
      rw [Cmd.after_ok]
      split
      · rw [Cmd.wp_monadLift]
        exact hcalm.tried fun k hk => reacquire_quiet hk
      · split
        · rw [Cmd.wp_bind]
          refine Cmd.wp_mono (require_stale_wp hcalm hknown) fun r st w hr => ?_
          cases r with
          | error e => exact hr.1.tried fun k hk => hr.2 k (Except.error.inj hk)
          | ok u => exact take_wp (x := some current) hr.1 hr.2
        · exact take_wp (x := some current) hcalm hknown

end

/-! ## The loop -/

/-- An acquisition that ends, and fails because of other clients only when it is late. -/
def Waits {α : Type} (late : Nat → Prop) (r : Except PyErr (Option α)) (w : Scene) : Prop :=
  r ≠ .ok none ∧ ∀ e, r = .error e → Contention e → late w.waits

/-- It ends, and waits exactly if no write was lost. -/
def Outcome {α : Type} (late : Nat → Prop) (r : Except PyErr (Option α)) (w : Scene) : Prop :=
  r ≠ .ok none ∧ (Waits late r w ↔ ¬ w.lost)

section
variable {α : Type} {late : Nat → Prop} {n : Nat} {w : Scene}

theorem Calm.outcome {r : Except PyErr (Option α)} (h : Calm n w) (hr : r ≠ .ok none)
    (hlate : ∀ e, r = .error e → Contention e → late n) : Outcome late r w :=
  ⟨hr, iff_of_true ⟨hr, fun e he hc => h.1.symm ▸ hlate e he hc⟩ h.2⟩

theorem Tried.outcome {e : PyErr} (h : Tried late n (.error e : Except PyErr α) w)
    (hbusy : ∀ msg, e ≠ .LeaseBusy msg) : Outcome late (.error e : Except PyErr (Option α)) w := by
  refine ⟨by simp, ?_⟩
  constructor
  · rintro ⟨-, hwaits⟩ hlost
    obtain ⟨⟨k, hk⟩, hearly⟩ := h.2.1 hlost
    refine hearly (h.1 ▸ hwaits e rfl ⟨k, .inr (Except.error.inj hk)⟩)
  · refine fun hlost => ⟨by simp, fun e' he hc => ?_⟩
    cases he
    obtain ⟨msg, hmsg | hmsg⟩ := hc
    · exact absurd hmsg (hbusy msg)
    · by_contra hearly
      exact hlost (h.2.2 ⟨⟨msg, by rw [hmsg]⟩, h.1 ▸ hearly⟩)

variable {σ : Type} {st : σ} {m : LeaseManager} {owner : LeaseOwner} {poll_seconds : Int} {clock : Nat → ℚ}
  {on_wait : Option (σ → σ)} {deadline : ℚ} {last : Nat}

/-- The loop ends in the rounds up to the last one that can wait. -/
theorem waitLease_wp (hlate : ∀ n, late n ↔ deadline < clock (n + 1) + poll_seconds) (hlast : late last) :
    ∀ {rounds n : Nat} {st : σ} {w : Scene}, n ≤ last → last < n + rounds → Calm n w →
    (waitLease m owner poll_seconds clock on_wait deadline rounds n).wp (Serves late) Others (fun _ _ => True)
      (fun r _ w' => Outcome late r w') st w
  | 0, n, st, w, hn, hrounds, _ => absurd hrounds (by omega)
  | rounds + 1, n, st, w, hn, hrounds, hcalm => by
    rw [waitLease, Cmd.wp_tryCatch, Cmd.wp_bind]
    refine Cmd.wp_mono (acquire_wp hcalm) fun r st w htried => ?_
    cases r with
    | ok handle =>
      have hcalm : Calm n w := ⟨htried.1, fun hlost => by
        obtain ⟨⟨k, hk⟩, -⟩ := htried.2.1 hlost
        cases hk⟩
      exact hcalm.outcome (by simp) fun e he => by cases he
    | error e =>
      rw [Cmd.after_error, Cmd.caught]
      split
      · next message =>
        have hcalm : Calm n w := ⟨htried.1, fun hlost => by
          obtain ⟨⟨k, hk⟩, -⟩ := htried.2.1 hlost
          cases hk⟩
        by_cases hover : clock (n + 1) + poll_seconds > deadline
        · simp only [if_pos hover]
          exact hcalm.outcome (by simp) fun _ _ _ => (hlate n).2 hover
        simp only [if_neg hover]
        have hne : n ≠ last := fun heq => hover ((hlate n).1 (heq ▸ hlast))
        -- what is left after `on_wait`
        have hsleep : ∀ st, ((Cmd.call (.sleep poll_seconds.toNat) >>= fun _ =>
            waitLease m owner poll_seconds clock on_wait deadline rounds (n + 1)) : Cmd σ _).wp (Serves late) Others
            (fun _ _ => True) (fun r _ w' => Outcome late r w') st w := by
          intro st
          rw [Cmd.wp_bind]
          intro w' hR r w'' hsem
          cases hsem
          have hcalm := hR.calm hcalm
          exact ⟨trivial, waitLease_wp hlate hlast (by omega) (by omega) ⟨congrArg (· + 1) hcalm.1, hcalm.2⟩⟩
        cases on_wait with
        | none => exact hsleep st
        | some f => exact hsleep (f st)
      · next e hbusy => exact htried.outcome fun msg heq => hbusy msg heq

end

theorem Advances.le {poll_seconds : Int} {clock : Nat → ℚ} (h : Advances poll_seconds clock) :
    ∀ n : Nat, clock 0 + n * poll_seconds ≤ clock (n + 1)
  | 0 => by simpa using h.start
  | n + 1 => by
    have ih := h.le n
    have hsleep := h.sleep n
    push_cast
    linarith

/-- The last round that can wait. -/
theorem Advances.late {wait_seconds poll_seconds : Int} {clock : Nat → ℚ} (h : Advances poll_seconds clock)
    (hwait : 0 ≤ wait_seconds) (hpoll : 1 ≤ poll_seconds) :
    Late wait_seconds poll_seconds clock (wait_seconds / poll_seconds).toNat := by
  have hn : ((wait_seconds / poll_seconds).toNat : Int) = wait_seconds / poll_seconds :=
    Int.toNat_of_nonneg (Int.ediv_nonneg hwait (by omega))
  have hlt : wait_seconds < (wait_seconds / poll_seconds + 1) * poll_seconds :=
    Int.lt_ediv_add_one_mul_self wait_seconds (by omega)
  rw [← hn] at hlt
  have hlt : (wait_seconds : ℚ) < ((wait_seconds / poll_seconds).toNat + 1) * poll_seconds := by exact_mod_cast hlt
  have hle := h.le (wait_seconds / poll_seconds).toNat
  rw [Late]
  linarith

/-- **A retrying acquisition** ends after at most one attempt for each poll that fits in its bound, and
waits exactly if none of its writes meets, early enough to wait, a lease that has changed since it was
read. -/
theorem acquire_lease_waits {σ : Type} (m : LeaseManager) (owner : LeaseOwner) {wait_seconds poll_seconds : Int}
    {clock : Nat → ℚ} (hclock : Advances poll_seconds clock) (on_wait : Option (σ → σ)) {rounds : Nat}
    (hrounds : wait_seconds / poll_seconds < rounds) (st : σ) {w : Scene} (hw : Calm 0 w) :
    (acquire_lease m owner wait_seconds poll_seconds clock on_wait rounds).wp
      (Serves (Late wait_seconds poll_seconds clock)) Others (fun _ _ => True)
      (fun r _ w' => r ≠ .ok none ∧ (Waits (Late wait_seconds poll_seconds clock) r w' ↔ ¬ w'.lost)) st w := by
  rw [acquire_lease]
  split
  · exact hw.outcome (by simp) fun e he hc => by
      cases he
      obtain ⟨msg, h | h⟩ := hc <;> cases h
  next hbounds =>
  obtain ⟨hwait, hpoll⟩ : 0 ≤ wait_seconds ∧ 1 ≤ poll_seconds := by omega
  have hpos : 0 ≤ wait_seconds / poll_seconds := Int.ediv_nonneg hwait (by omega)
  exact waitLease_wp (fun n => Iff.rfl) (hclock.late hwait hpoll) (Nat.zero_le _) (by omega) hw

/-! ## A race

The lease is absent; the publisher takes it between the read and the write of the site's client. -/

namespace Sample

def manager : LeaseManager := ⟨900, 300, LeaseRuns.ttl_valid⟩

def clock (n : Nat) : ℚ := 30 * n

theorem advances : Advances 30 clock where
  start := by norm_num [clock]
  sleep n := by
    simp only [clock]
    push_cast
    linarith

/-- The publisher takes the lease if it can. -/
def taken (s : Store) : Store := ((manager.take LeaseRuns.publisher 63000000000 .ifNoneMatch false).run Store.serve () s).2

theorem evolves_serve (o : Op) (s : Store) : s.Evolves (Store.serve o s).2 := by
  cases o with
  | put key v c =>
    have h := CondStore.evolves_put s key v c
    simp only [Store.serve]
    split
    · next heq => rwa [heq] at h
    · next heq => rwa [heq] at h
  | delete key => exact CondStore.evolves_delete s key
  | _ => exact .refl s

theorem evolves_taken (s : Store) : s.Evolves (taken s) :=
  Prog.run_related CondStore.Evolves.refl (fun _ _ _ => CondStore.Evolves.trans) evolves_serve _ s

/-- Its client's requests, the publisher just before the writes. -/
def raced : (o : Op) → Scene → o.Res × Scene
  | .get key, w =>
    if key = LEASE_KEY then (.ok (w.store.get LEASE_KEY), { w with seen := w.store.get LEASE_KEY })
    else (.error .OSError, w)
  | .put key v c, w =>
    let w := { w with store := taken w.store }
    if key ≠ LEASE_KEY then (.error .OSError, w)
    else if c.holds (w.store.get LEASE_KEY) then
      (.ok ⟨v, w.store.revision⟩, { w.met (Late 60 30 clock) with store := w.store.write LEASE_KEY v })
    else (.error (.PreconditionFailed LEASE_KEY), w.met (Late 60 30 clock))
  | .delete _, w => (.error .OSError, w)
  | .list_objects _, w => (.error .OSError, w)
  | .clock, w => (63000000000000000, w)
  | .terminal_proof _, w => (.ok false, w)
  | .sleep _, w => ((), { w with waits := w.waits + 1 })

theorem serves_raced (o : Op) (w : Scene) :
    ∃ w₁, Others w w₁ ∧ Serves (Late 60 30 clock) o w₁ (raced o w).1 (raced o w).2 := by
  have hos : ¬ Contention .OSError := by
    rintro ⟨msg, h | h⟩ <;> cases h
  cases o with
  | get key =>
    refine ⟨w, .refl w, ?_⟩
    by_cases hkey : key = LEASE_KEY
    · subst hkey
      exact .get
    · simp only [raced, if_neg hkey]
      exact .getFailed _ hos
  | put key v c =>
    refine ⟨{ w with store := taken w.store }, ⟨evolves_taken _, rfl, rfl, rfl⟩, ?_⟩
    by_cases hkey : key = LEASE_KEY
    · subst hkey
      simp only [raced, ne_eq, not_true_eq_false, if_false]
      split
      · next hholds => exact .written hholds
      · next hholds => exact .refused (by simpa using hholds)
    · simp only [raced, ne_eq, hkey, not_false_eq_true, if_true]
      exact .putFailed (w := { w with store := taken w.store }) _ hos (.refl _)
  | delete key => exact ⟨w, .refl w, .deleteFailed _ hos⟩
  | list_objects under => exact ⟨w, .refl w, .listFailed _ hos⟩
  | clock => exact ⟨w, .refl w, .clock _⟩
  | terminal_proof o => exact ⟨w, .refl w, .terminal_proof _⟩
  | sleep seconds => exact ⟨w, .refl w, .sleep⟩

def scene : Scene := ⟨.empty, none, 0, False⟩

/-- An attempt for each of 0, 30 and 60 seconds. -/
def run : (Except PyErr (Option LeaseHandle) × Unit) × Scene :=
  (acquire_lease manager LeaseRuns.site 60 30 clock none 3).run raced () scene

end Sample

/-- A write that is refused at once ends the acquisition, 60 seconds before its deadline. -/
theorem lost_write_raises : Sample.run.1.1 = .error (.PreconditionFailed LEASE_KEY) ∧
    ¬ ∀ (m : LeaseManager) (owner : LeaseOwner) (wait_seconds poll_seconds : Int) (clock : Nat → ℚ) (rounds : Nat)
      (w : Scene), Advances poll_seconds clock → wait_seconds / poll_seconds < rounds → Calm 0 w →
      (acquire_lease m owner wait_seconds poll_seconds clock (none : Option (Unit → Unit)) rounds).wp
        (Serves (Late wait_seconds poll_seconds clock)) Others (fun _ _ => True)
        (fun r _ w' => Waits (Late wait_seconds poll_seconds clock) r w') () w := by
  have hrun : Sample.run.1.1 = .error (.PreconditionFailed LEASE_KEY) ∧ Sample.run.2.waits = 0 := by
    decide +kernel
  refine ⟨hrun.1, fun hall => ?_⟩
  have hwp := hall Sample.manager LeaseRuns.site 60 30 Sample.clock 3 Sample.scene Sample.advances (by decide)
    ⟨rfl, id⟩
  have hwaits : Waits (Late 60 30 Sample.clock) Sample.run.1.1 Sample.run.2 :=
    Conc.wp_run_among Sample.serves_raced hwp
  have hlate := hwaits.2 _ hrun.1 ⟨_, .inr rfl⟩
  rw [hrun.2] at hlate
  norm_num [Late, Sample.clock] at hlate

/-- Three attempts are enough for 60 seconds. -/
theorem acquire_lease_waits_minute : Sample.run.1.1 ≠ .ok none ∧
    (Waits (Late 60 30 Sample.clock) Sample.run.1.1 Sample.run.2 ↔ ¬ Sample.run.2.lost) :=
  Conc.wp_run_among Sample.serves_raced
    (acquire_lease_waits Sample.manager LeaseRuns.site Sample.advances none (by decide) () ⟨rfl, id⟩)

end LeaseWait
