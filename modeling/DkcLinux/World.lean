import DkcLinux.Lease

/-!
# The shared world

One linearizable conditional store, one clock, and the owners whose run has stopped for good.
`World.Sem o` is what an operation of the run that owner `o` stands for can do and answer; a
stopped run does nothing any more. `World.Env` is what happens without any run: time passes, a
run stops, a pending request takes effect.

A write or a deletion of another key than the lease is a *mutating request*. It takes effect at
most `requestSeconds` after the last time its issuer stored the lease, or never. When its
response is lost the issuer gets an error while the request is `pending`.
-/

/-- A write or a deletion of a key that is not the lease. -/
structure Request where
  issuer : LeaseOwner
  key : String
  /-- What is put under which condition; a deletion otherwise. -/
  write : Option (ObjectValue × Conc.Cond)
  deadline : Nat
  not_lease : key ≠ LEASE_KEY

structure World where
  store : Store
  clock : Nat
  stopped : LeaseOwner → Prop
  pending : List Request
  /-- The end of each owner's current mutation window, in microseconds. -/
  window : LeaseOwner → Nat

namespace World

/-- 120 s batch and 60 s safety. -/
def requestSeconds : Nat := 180

def seconds (w : World) : Nat := w.clock / 1000000

def lease (w : World) : Option StoredObject := w.store.get LEASE_KEY

/-- The stored lease record names `o`. -/
def names (w : World) (o : LeaseOwner) : Prop :=
  ∃ x r, w.lease = some x ∧ parse_lease x.value.body = .ok r ∧ r.owner = some o

/-- A stored lease opens its owner's mutation window anew. -/
def stored (w : World) (o : LeaseOwner) (key : String) (v : ObjectValue) : World :=
  { w with
    store := w.store.write key v
    window := fun o' => if o' = o ∧ key = LEASE_KEY then w.clock + requestSeconds * 1000000 else w.window o' }

/-- Whether a request of `o` on `key` can still take effect. -/
def inTime (w : World) (o : LeaseOwner) (key : String) : Prop :=
  key = LEASE_KEY ∨ w.clock ≤ w.window o

/-- A request takes effect. -/
def apply (w : World) (r : Request) : World :=
  match r.write with
  | some (v, c) => { w with store := (w.store.put r.key v c).2 }
  | none => { w with store := w.store.delete r.key }

/-- What the operations of `o`'s run can do. -/
inductive Act (o : LeaseOwner) : (op : Op) → World → op.Res → World → Prop
  | get {w key} : Act o (.get key) w (.ok (w.store.get key)) w
  | getFailed {w key} (e : PyErr) : Act o (.get key) w (.error e) w
  | put {w key v} {c : Conc.Cond} : c.holds (w.store.get key) = true → w.inTime o key →
      Act o (.put key v c) w (.ok ⟨v, w.store.revision⟩) (w.stored o key v)
  | putRefused {w key v} {c : Conc.Cond} : c.holds (w.store.get key) = false →
      Act o (.put key v c) w (.error (.PreconditionFailed key)) w
  | putFailed {w key v} {c : Conc.Cond} (e : PyErr) : Act o (.put key v c) w (.error e) w
  /-- Applied, and the response lost. -/
  | putUnanswered {w key v} {c : Conc.Cond} (e : PyErr) : c.holds (w.store.get key) = true →
      w.inTime o key → Act o (.put key v c) w (.error e) (w.stored o key v)
  /-- Still on its way when the client gives up. -/
  | putPending {w key v} {c : Conc.Cond} (e : PyErr) (h : key ≠ LEASE_KEY) :
      Act o (.put key v c) w (.error e)
        { w with pending := ⟨o, key, some (v, c), w.window o, h⟩ :: w.pending }
  | delete {w key} (h : key ≠ LEASE_KEY) : w.clock ≤ w.window o →
      Act o (.delete key) w (.ok ()) { w with store := w.store.delete key }
  | deleteFailed {w key} (e : PyErr) : Act o (.delete key) w (.error e) w
  | deleteUnanswered {w key} (e : PyErr) (h : key ≠ LEASE_KEY) : w.clock ≤ w.window o →
      Act o (.delete key) w (.error e) { w with store := w.store.delete key }
  | deletePending {w key} (e : PyErr) (h : key ≠ LEASE_KEY) :
      Act o (.delete key) w (.error e)
        { w with pending := ⟨o, key, none, w.window o, h⟩ :: w.pending }
  | list_objects {w under} (r) : Act o (.list_objects under) w r w
  | clock {w} : Act o .clock w w.clock w
  | terminal_proof {w o'} (b) : (b = true → w.stopped o') → Act o (.terminal_proof o') w (.ok b) w
  | terminalFailed {w o'} (e : PyErr) : Act o (.terminal_proof o') w (.error e) w
  | sleep {w n} (t) : w.clock + n * 1000000 ≤ t → Act o (.sleep n) w () { w with clock := t }

/-- A run that has stopped does nothing. -/
def Sem (o : LeaseOwner) (op : Op) (w : World) (r : op.Res) (w' : World) : Prop :=
  ¬ w.stopped o ∧ Act o op w r w'

inductive Env : World → World → Prop
  | tick (w t) : w.clock ≤ t → Env w { w with clock := t }
  | stop (w o) : Env w { w with stopped := fun o' => o' = o ∨ w.stopped o' }
  | takeEffect (w) (r : Request) (ps : List Request) : w.pending.Perm (r :: ps) →
      w.clock ≤ r.deadline → Env w { w.apply r with pending := ps }
  | drop (w ps) : ps ⊆ w.pending → Env w { w with pending := ps }

end World
