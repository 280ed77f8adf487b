import DkcLinux.LeaseRecord
import DkcLinux.Conc.Rely
import DkcLinux.Conc.CondStore

/-!
# Storage and the world outside (`dkc/storage.py`, the `Protocol` classes of the store clients)

`Op` is what the modelled programs ask of the world: the four store requests, the clock, the
runs API behind `terminal_proof`, and `sleep`. `Cmd σ α` is a program that asks for them, keeps local state `σ`
and may raise; state changes survive an exception, as those of a Python object do.
-/

open Py Records

/-- `ObjectMetadata.__post_init__`. -/
def ObjectMetadata.check (content_type cache_control : String) : Except PyErr Unit := do
  if content_type = "" || hasControl content_type then
    throw (.ValueError "content type must be non-empty and contain no controls")
  if cache_control = "" || hasControl cache_control then
    throw (.ValueError "cache control must be non-empty and contain no controls")

structure ObjectMetadata where
  content_type : String
  cache_control : String
  valid : ObjectMetadata.check content_type cache_control = .ok ()
deriving DecidableEq

/-- What a key holds, less its ETag. -/
structure ObjectValue where
  body : ByteArray
  metadata : ObjectMetadata

instance : DecidableEq ObjectValue := fun a b =>
  decidable_of_iff (a.body.data = b.body.data ∧ a.metadata = b.metadata)
    (by rw [ObjectValue.mk.injEq, ByteArray.ext_iff])

abbrev Store := Conc.CondStore String ObjectValue

abbrev StoredObject := Conc.Entry ObjectValue

inductive Op where
  | get (key : String)
  | put (key : String) (value : ObjectValue) (cond : Conc.Cond)
  | delete (key : String)
  | list_objects (under : String)
  | clock
  | terminal_proof (owner : LeaseOwner)
  | sleep (seconds : Nat)
deriving DecidableEq

/-- Answers. The clock answers in microseconds since 0001-01-01, UTC. -/
abbrev Op.Res : Op → Type
  | get _ => Except PyErr (Option StoredObject)
  | put _ _ _ => Except PyErr StoredObject
  | delete _ => Except PyErr Unit
  | list_objects _ => Except PyErr (List (String × Nat))
  | clock => Nat
  | terminal_proof _ => Except PyErr Bool
  | sleep _ => Unit

abbrev Proc (α : Type) := Conc.Prog Op Op.Res α

/-- A program with local state that may raise. -/
def Cmd (σ α : Type) : Type := σ → Proc (Except PyErr α × σ)

namespace Cmd

variable {σ α β : Type}

/-- The rest of a program after a result: nothing after an exception. -/
def next (f : α → Cmd σ β) : Except PyErr α × σ → Proc (Except PyErr β × σ)
  | (.ok a, st) => f a st
  | (.error e, st) => .ret (.error e, st)

instance : Monad (Cmd σ) where
  pure a := fun st => .ret (.ok a, st)
  bind c f := fun st => (c st).bind (next f)

instance : MonadExceptOf PyErr (Cmd σ) where
  throw e := fun st => .ret (.error e, st)
  tryCatch c h := fun st => (c st).bind fun
    | (.ok a, st) => .ret (.ok a, st)
    | (.error e, st) => h e st

instance : MonadStateOf σ (Cmd σ) where
  get := fun st => .ret (.ok st, st)
  set st' := fun _ => .ret (.ok (), st')
  modifyGet f := fun st => .ret (.ok (f st).1, (f st).2)

instance : MonadLift (Except PyErr) (Cmd σ) where
  monadLift r := fun st => .ret (r, st)

def call (o : Op) : Cmd σ o.Res := fun st => .op o fun r => .ret (.ok r, st)

/-! Store requests that raise their failure. -/

def get (key : String) : Cmd σ (Option StoredObject) := fun st => .op (.get key) fun r => .ret (r, st)

def put (key : String) (value : ObjectValue) (cond : Conc.Cond) : Cmd σ StoredObject :=
  fun st => .op (.put key value cond) fun r => .ret (r, st)

def delete (key : String) : Cmd σ Unit := fun st => .op (.delete key) fun r => .ret (r, st)

def list_objects (under : String) : Cmd σ (List (String × Nat)) :=
  fun st => .op (.list_objects under) fun r => .ret (r, st)

def terminal_proof (owner : LeaseOwner) : Cmd σ Bool :=
  fun st => .op (.terminal_proof owner) fun r => .ret (r, st)

end Cmd

/-! ## Reasoning

`Cmd.wp` is `Conc.wp` of a command: `Q` gets the result or the exception, and the local state. -/

namespace Cmd

variable {σ α β W : Type} {sem : (o : Op) → W → o.Res → W → Prop} {R G : W → W → Prop}

def wp (sem : (o : Op) → W → o.Res → W → Prop) (R G : W → W → Prop) (c : Cmd σ α)
    (Q : Except PyErr α → σ → W → Prop) (st : σ) (w : W) : Prop :=
  Conc.wp sem R G (c st) (fun r w' => Q r.1 r.2 w') w

/-- `Q` of what comes after a result: the rest, or the exception itself. -/
def after (sem : (o : Op) → W → o.Res → W → Prop) (R G : W → W → Prop) (f : α → Cmd σ β)
    (Q : Except PyErr β → σ → W → Prop) : Except PyErr α → σ → W → Prop
  | .ok a, st, w => (f a).wp sem R G Q st w
  | .error e, st, w => Q (.error e) st w

variable {Q : Except PyErr α → σ → W → Prop} {st : σ} {w : W}

@[simp] theorem after_ok {f : α → Cmd σ β} {Q : Except PyErr β → σ → W → Prop} {a : α} :
    after sem R G f Q (.ok a) st w ↔ (f a).wp sem R G Q st w := Iff.rfl

@[simp] theorem after_error {f : α → Cmd σ β} {Q : Except PyErr β → σ → W → Prop} {e : PyErr} :
    after sem R G f Q (.error e) st w ↔ Q (.error e) st w := Iff.rfl

@[simp] theorem wp_pure {a : α} : (pure a : Cmd σ α).wp sem R G Q st w ↔ Q (.ok a) st w := Iff.rfl

@[simp] theorem wp_throw {e : PyErr} : (throw e : Cmd σ α).wp sem R G Q st w ↔ Q (.error e) st w :=
  Iff.rfl

@[simp] theorem wp_lift {r : Except PyErr α} :
    (liftM r : Cmd σ α).wp sem R G Q st w ↔ Q r st w := Iff.rfl

@[simp] theorem wp_monadLift {r : Except PyErr α} :
    (monadLift r : Cmd σ α).wp sem R G Q st w ↔ Q r st w := Iff.rfl

theorem wp_bind {c : Cmd σ α} {f : α → Cmd σ β} {Q : Except PyErr β → σ → W → Prop} :
    (c >>= f).wp sem R G Q st w ↔ c.wp sem R G (after sem R G f Q) st w := by
  refine Conc.wp_bind.trans ?_
  constructor
  · refine Conc.wp_post fun r w' h => ?_
    rcases r with ⟨_ | _, st'⟩ <;> exact h
  · refine Conc.wp_post fun r w' h => ?_
    rcases r with ⟨_ | _, st'⟩ <;> exact h

@[simp] theorem wp_ok_bind {a : α} {f : α → Cmd σ β} {Q : Except PyErr β → σ → W → Prop} :
    ((liftM (Except.ok a : Except PyErr α) : Cmd σ α) >>= f).wp sem R G Q st w ↔
      (f a).wp sem R G Q st w := Iff.rfl

/-- What an exception handler makes of a result. -/
def caught (sem : (o : Op) → W → o.Res → W → Prop) (R G : W → W → Prop) (f : PyErr → Cmd σ α)
    (Q : Except PyErr α → σ → W → Prop) : Except PyErr α → σ → W → Prop
  | .ok a, st, w => Q (.ok a) st w
  | .error e, st, w => (f e).wp sem R G Q st w

theorem wp_tryCatch {c : Cmd σ α} {f : PyErr → Cmd σ α} :
    (tryCatch c f : Cmd σ α).wp sem R G Q st w ↔ c.wp sem R G (caught sem R G f Q) st w := by
  refine Conc.wp_bind.trans ?_
  constructor
  · refine Conc.wp_post fun r w' h => ?_
    rcases r with ⟨_ | _, st'⟩ <;> exact h
  · refine Conc.wp_post fun r w' h => ?_
    rcases r with ⟨_ | _, st'⟩ <;> exact h

theorem wp_op {o : Op} {k : o.Res → Except PyErr α} :
    Cmd.wp sem R G (fun st => .op o fun r => .ret (k r, st)) Q st w ↔
      ∀ w', R w w' → ∀ r w'', sem o w' r w'' → G w' w'' ∧ Q (k r) st w'' := Iff.rfl

theorem wp_mono {Q' : Except PyErr α → σ → W → Prop} {c : Cmd σ α}
    (h : c.wp sem R G Q st w) (hQ : ∀ r st w, Q r st w → Q' r st w) : c.wp sem R G Q' st w :=
  Conc.wp_post (fun r w' hr => hQ r.1 r.2 w' hr) h

/-- An assertion after a result, another after an exception. -/
def Out (I : σ → W → Prop) (E : PyErr → σ → W → Prop) : Except PyErr α → σ → W → Prop
  | .ok _, st, w => I st w
  | .error e, st, w => E e st w

section
variable {I : σ → W → Prop} {E : PyErr → σ → W → Prop}

@[simp] theorem out_ok {a : α} : Out I E (.ok a) st w ↔ I st w := Iff.rfl

@[simp] theorem out_error {e : PyErr} : Out I E (.error e : Except PyErr α) st w ↔ E e st w := Iff.rfl

/-- Sequential composition. -/
theorem wp_seq {c : Cmd σ α} {f : α → Cmd σ β} {I' : σ → W → Prop}
    (h : c.wp sem R G (Out I E) st w)
    (hf : ∀ a st w, I st w → (f a).wp sem R G (Out I' E) st w) :
    (c >>= f).wp sem R G (Out I' E) st w := by
  rw [wp_bind]
  refine wp_mono h fun r st w hr => ?_
  rcases r with e | a
  · exact hr
  · exact hf a st w hr

/-- A loop: `I done` holds when the elements of `done` have been handled. -/
theorem wp_forM {f : α → Cmd σ Unit} {I : List α → σ → W → Prop} {xs : List α}
    (h : ∀ done x rest, xs = done ++ x :: rest → ∀ st w, I done st w →
      (f x).wp sem R G (Out (I (done ++ [x])) E) st w) (h0 : I [] st w) :
    (xs.forM f).wp sem R G (Out (I xs) E) st w := by
  suffices ∀ rest done st w, xs = done ++ rest → I done st w →
      (rest.forM f).wp sem R G (Out (I xs) E) st w from this xs [] st w rfl h0
  intro rest
  induction rest with
  | nil =>
    intro done st w hxs hI
    rw [List.append_nil] at hxs
    exact hxs ▸ hI
  | cons x rest ih =>
    intro done st w hxs hI
    refine wp_seq (h done x rest hxs st w hI) fun _ st w hI => ?_
    exact ih (done ++ [x]) st w (by rw [hxs, List.append_assoc, List.singleton_append]) hI

end

/-- An assertion about a result, another after an exception. -/
def Gives (I : α → σ → W → Prop) (E : PyErr → σ → W → Prop) : Except PyErr α → σ → W → Prop
  | .ok a, st, w => I a st w
  | .error e, st, w => E e st w

section
variable {I : α → σ → W → Prop} {E : PyErr → σ → W → Prop}

@[simp] theorem gives_ok {a : α} : Gives I E (.ok a) st w ↔ I a st w := Iff.rfl

@[simp] theorem gives_error {e : PyErr} : Gives I E (.error e : Except PyErr α) st w ↔ E e st w := Iff.rfl

/-- Sequential composition. -/
theorem wp_gives {c : Cmd σ α} {f : α → Cmd σ β} {I' : β → σ → W → Prop}
    (h : c.wp sem R G (Gives I E) st w)
    (hf : ∀ a st w, I a st w → (f a).wp sem R G (Gives I' E) st w) :
    (c >>= f).wp sem R G (Gives I' E) st w := by
  rw [wp_bind]
  refine wp_mono h fun r st w hr => ?_
  rcases r with e | a
  · exact hr
  · exact hf a st w hr

end

/-! ## The local state -/

/-- The local state comes back as it was. -/
def Keeps (c : Cmd σ α) : Prop := ∀ st, (c st).Refuses (fun _ _ => True) fun r => r.2 ≠ st

theorem keeps_pure {a : α} : Keeps (pure a : Cmd σ α) := fun _ h => h rfl

theorem keeps_throw {e : PyErr} : Keeps (throw e : Cmd σ α) := fun _ h => h rfl

theorem keeps_get {key : String} : Keeps (Cmd.get key : Cmd σ _) := fun _ _ _ h => h rfl

theorem keeps_put {key : String} {v : ObjectValue} {c : Conc.Cond} : Keeps (Cmd.put key v c : Cmd σ _) :=
  fun _ _ _ h => h rfl

theorem keeps_bind {c : Cmd σ α} {f : α → Cmd σ β} (h : Keeps c) (hf : ∀ a, Keeps (f a)) : Keeps (c >>= f) := by
  refine fun st => (h st).bind fun r hr => ?_
  obtain ⟨r, st'⟩ := r
  obtain rfl : st' = st := not_not.1 hr
  cases r with
  | ok a => exact hf a st'
  | error e => exact fun h => h rfl

theorem keeps_tryCatch {c : Cmd σ α} {f : PyErr → Cmd σ α} (h : Keeps c) (hf : ∀ e, Keeps (f e)) :
    Keeps (tryCatch c f : Cmd σ α) := by
  refine fun st => (h st).bind fun r hr => ?_
  obtain ⟨r, st'⟩ := r
  obtain rfl : st' = st := not_not.1 hr
  cases r with
  | ok a => exact fun h => h rfl
  | error e => exact hf e st'

/-- What `wp` does not say of the local state. -/
theorem Keeps.wp {c : Cmd σ α} (hc : Keeps c) (h : c.wp sem R G Q st w) :
    c.wp sem R G (fun r st' w => st' = st ∧ Q r st w) st w := by
  refine Conc.wp_post (fun r w hr => ?_) (Conc.wp_refuses (hc st) h)
  obtain ⟨hst, hq⟩ := hr
  rw [not_not] at hst
  exact ⟨hst, hst ▸ hq⟩

/-! ## Running alone -/

variable {h : (o : Op) → W → o.Res × W}

/-- The result, the local state and the world of a command that runs against a handler. -/
def run (h : (o : Op) → W → o.Res × W) (c : Cmd σ α) (st : σ) (w : W) : (Except PyErr α × σ) × W :=
  (c st).run h w

/-- What follows a result. -/
def andThen (h : (o : Op) → W → o.Res × W) (f : α → Cmd σ β) :
    (Except PyErr α × σ) × W → (Except PyErr β × σ) × W
  | ((.ok a, st), w) => (f a).run h st w
  | ((.error e, st), w) => ((.error e, st), w)

@[simp] theorem andThen_ok {f : α → Cmd σ β} {a : α} :
    andThen h f ((.ok a, st), w) = (f a).run h st w := rfl

@[simp] theorem andThen_error {f : α → Cmd σ β} {e : PyErr} :
    andThen h f ((.error e, st), w) = ((.error e, st), w) := rfl

@[simp] theorem run_pure {a : α} : (pure a : Cmd σ α).run h st w = ((.ok a, st), w) := rfl

@[simp] theorem run_throw {e : PyErr} : (throw e : Cmd σ α).run h st w = ((.error e, st), w) := rfl

@[simp] theorem run_lift {r : Except PyErr α} : (liftM r : Cmd σ α).run h st w = ((r, st), w) := rfl

theorem run_bind {c : Cmd σ α} {f : α → Cmd σ β} :
    (c >>= f).run h st w = andThen h f (c.run h st w) := by
  refine (Conc.Prog.run_bind h (c st) (next f) w).trans ?_
  unfold run
  rcases (c st).run h w with ⟨⟨_ | _, st'⟩, w'⟩ <;> rfl

@[simp] theorem run_call {o : Op} : (call o : Cmd σ o.Res).run h st w = ((.ok (h o w).1, st), (h o w).2) :=
  rfl

@[simp] theorem run_get {key : String} :
    (get key : Cmd σ (Option StoredObject)).run h st w = (((h (.get key) w).1, st), (h (.get key) w).2) := rfl

@[simp] theorem run_put {key : String} {v : ObjectValue} {c : Conc.Cond} :
    (put key v c : Cmd σ StoredObject).run h st w =
      (((h (.put key v c) w).1, st), (h (.put key v c) w).2) := rfl

@[simp] theorem run_delete {key : String} :
    (delete key : Cmd σ Unit).run h st w = (((h (.delete key) w).1, st), (h (.delete key) w).2) := rfl

end Cmd
