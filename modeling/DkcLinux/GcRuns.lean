import DkcLinux.Gc
import DkcLinux.StoreSem
import DkcLinux.Conc.Logged

/-!
# Deletion plans carried out

* Against callables that may answer anything: nothing is called after an observation that another
  generation is current or that a target is not what its tombstone names (`execute_gc_stops`).
* On a store: an execution deletes queued objects that match their tombstones and nothing else, and
  one that returns has deleted all of them, however many attempts were cut before (`gc_resumable`).
-/

open Py Records

namespace Gc

/-! ## What is called -/

inductive Event where
  | get (key : String) (answer : Except PyErr (Option ObjectValue))
  | delete (key : String) (answer : Except PyErr Unit)
  | observed_generation (answer : Except PyErr Int)
  | mutation_checkpoint (answer : Except PyErr Unit)

/-- The store and the callables, as far as `execute_gc` sees them: answers that depend on all that was
called before. -/
structure Callables where
  get : String → List Event → Except PyErr (Option ObjectValue)
  delete : String → List Event → Except PyErr Unit
  observed_generation : List Event → Except PyErr Int
  mutation_checkpoint : List Event → Except PyErr Unit

/-- An execution and its calls. -/
def logged (hexdigest : ByteArray → String) (w : Callables) (plan : GcPlan) : Except PyErr (List String) × List Event :=
  (execute_gc hexdigest (fun key => Conc.Logged.call (w.get key) (.get key))
    (fun key => Conc.Logged.call (w.delete key) (.delete key)) plan
    (Conc.Logged.call w.observed_generation .observed_generation)
    (Conc.Logged.call w.mutation_checkpoint .mutation_checkpoint)).result []

section
variable (hexdigest : ByteArray → String) (plan : GcPlan)

/-- Another generation is observed, or an object that is not what the tombstone of its key names. -/
def Alarm : Event → Prop
  | .observed_generation (.ok g) => g ≠ plan.expected_generation
  | .get key (.ok (some v)) => ∃ t ∈ plan.targets, t.key = key ∧ matches_ hexdigest v t.toGcTargetFields = false
  | _ => False

variable {hexdigest plan} {w : Callables} {α : Type}

/-- Nothing follows an observation of another generation. -/
theorem observed_stops {f : Int → Conc.Logged PyErr Event α}
    (hraise : ∀ g, g ≠ plan.expected_generation → ∃ e, f g = throw e)
    (hgo : Conc.Logged.Stops (Alarm hexdigest plan) (f plan.expected_generation)) :
    Conc.Logged.Stops (Alarm hexdigest plan)
      (Conc.Logged.call w.observed_generation .observed_generation >>= f) := by
  refine Conc.Logged.stops_call (fun g halarm => hraise g halarm) fun g hno => ?_
  obtain rfl : g = plan.expected_generation := not_not.1 hno
  exact hgo

theorem checkpoint_stops {f : Unit → Conc.Logged PyErr Event α}
    (hgo : Conc.Logged.Stops (Alarm hexdigest plan) (f ())) : Conc.Logged.Stops (Alarm hexdigest plan)
      (Conc.Logged.call w.mutation_checkpoint .mutation_checkpoint >>= f) :=
  Conc.Logged.stops_call (fun _ halarm => halarm.elim) fun _ _ => hgo

theorem delete_stops {key : String} {f : Unit → Conc.Logged PyErr Event α}
    (hgo : Conc.Logged.Stops (Alarm hexdigest plan) (f ())) : Conc.Logged.Stops (Alarm hexdigest plan)
      (Conc.Logged.call (w.delete key) (.delete key) >>= f) :=
  Conc.Logged.stops_call (fun _ halarm => halarm.elim) fun _ _ => hgo

/-- An object that is not what the tombstone of the target names is an alarm. -/
theorem alarm_get {t : GcTarget} (ht : t ∈ plan.targets) {x : Option ObjectValue} :
    Alarm hexdigest plan (.get t.key (.ok x)) ↔ ∃ v, x = some v ∧ matches_ hexdigest v t.toGcTargetFields = false := by
  cases x with
  | none => simp [Alarm]
  | some v =>
    simp only [Alarm, Option.some.injEq, exists_eq_left']
    constructor
    · rintro ⟨t', ht', hkey, hno⟩
      rwa [List.inj_on_of_nodup_map plan.keys_nodup ht' ht hkey] at hno
    · exact fun hno => ⟨t, ht, rfl, hno⟩

theorem deleteTarget_stops {t : GcTarget} (ht : t ∈ plan.targets) : Conc.Logged.Stops (Alarm hexdigest plan)
    (deleteTarget (fun key => Conc.Logged.call (w.get key) (.get key))
      (fun key => Conc.Logged.call (w.delete key) (.delete key)) plan
      (Conc.Logged.call w.observed_generation .observed_generation)
      (Conc.Logged.call w.mutation_checkpoint .mutation_checkpoint) t) := by
  refine checkpoint_stops (delete_stops (checkpoint_stops ?_))
  refine Conc.Logged.stops_call (fun x halarm => ?_) fun x _ => ?_
  · obtain ⟨v, rfl, -⟩ := (alarm_get ht).1 halarm
    exact ⟨_, rfl⟩
  · cases x with
    | some v => exact Conc.Logged.stops_throw _
    | none =>
      refine observed_stops (fun g hg => ⟨_, if_pos hg⟩) ?_
      rw [if_neg (not_not.2 rfl)]
      exact Conc.Logged.stops_pure _

/-- Every target is checked before it is deleted. -/
theorem removeTarget_stops {t : GcTarget} (ht : t ∈ plan.targets) : Conc.Logged.Stops (Alarm hexdigest plan)
    (removeTarget hexdigest (fun key => Conc.Logged.call (w.get key) (.get key))
      (fun key => Conc.Logged.call (w.delete key) (.delete key)) plan
      (Conc.Logged.call w.observed_generation .observed_generation)
      (Conc.Logged.call w.mutation_checkpoint .mutation_checkpoint) t) := by
  refine observed_stops (fun g hg => ⟨_, if_pos hg⟩) ?_
  rw [if_neg (not_not.2 rfl)]
  refine Conc.Logged.stops_call (fun x halarm => ?_) fun x hno => ?_
  · obtain ⟨v, rfl, hv⟩ := (alarm_get ht).1 halarm
    exact ⟨_, if_pos (by simp [hv])⟩
  · cases x with
    | none => exact Conc.Logged.stops_pure _
    | some v =>
      have hv : matches_ hexdigest v t.toGcTargetFields = true := by
        by_contra hv
        exact hno ((alarm_get ht).2 ⟨v, rfl, by simpa using hv⟩)
      dsimp only
      rw [if_neg (by simp [hv])]
      exact Conc.Logged.stops_bind (deleteTarget_stops ht) fun _ => Conc.Logged.stops_pure _

theorem removeTargets_stops : ∀ {targets : List GcTarget} {deleted : List String},
    (∀ t ∈ targets, t ∈ plan.targets) → Conc.Logged.Stops (Alarm hexdigest plan)
      (removeTargets hexdigest (fun key => Conc.Logged.call (w.get key) (.get key))
        (fun key => Conc.Logged.call (w.delete key) (.delete key)) plan
        (Conc.Logged.call w.observed_generation .observed_generation)
        (Conc.Logged.call w.mutation_checkpoint .mutation_checkpoint) targets deleted)
  | [], _, _ => Conc.Logged.stops_pure _
  | t :: targets, deleted, h => by
    obtain ⟨ht, h⟩ := List.forall_mem_cons.1 h
    refine Conc.Logged.stops_bind (removeTarget_stops ht) fun gone => ?_
    cases gone with
    | true => exact removeTargets_stops h
    | false => exact removeTargets_stops h

/-- **An execution stops at the first alarm**: nothing is called after it, and an error is raised. -/
theorem execute_gc_stops {pre post : List Event} {e : Event} (h : (logged hexdigest w plan).2 = pre ++ e :: post)
    (halarm : Alarm hexdigest plan e) : post = [] ∧ ∃ err, (logged hexdigest w plan).1 = .error err := by
  obtain ⟨called, hlog, hstop⟩ := @removeTargets_stops hexdigest plan w plan.targets [] (fun t ht => ht) []
  have hcalled : (logged hexdigest w plan).2 = called := hlog
  exact hstop pre e post (hcalled.symm.trans h) halarm

end

/-! ## What is deleted -/

/-- A plan and its execution, and their calls. -/
def loggedAttempt (hexdigest : ByteArray → String) (w : Callables) (manifest : PublicationManifest) (now : Nat)
    (caps : GcCaps) : Except PyErr (List String) × List Event :=
  Conc.Logged.result (do
    let plan ← plan_gc hexdigest (fun key => Conc.Logged.call (w.get key) (.get key)) manifest now caps
    execute_gc hexdigest (fun key => Conc.Logged.call (w.get key) (.get key))
      (fun key => Conc.Logged.call (w.delete key) (.delete key)) plan
      (Conc.Logged.call w.observed_generation .observed_generation)
      (Conc.Logged.call w.mutation_checkpoint .mutation_checkpoint)) []

section
variable (keys : List String)

/-- No other key is deleted. -/
def Deletes : Event → Prop
  | .delete key _ => key ∈ keys
  | _ => True

variable {keys} {hexdigest : ByteArray → String} {w : Callables}

theorem planTargets_logs {caps : GcCaps} : ∀ {entries : List GcQueueEntry} {targets : List GcTarget} {total : Int},
    (∀ e ∈ entries, e.key ∈ keys) → (∀ t ∈ targets, t.key ∈ keys) →
    Conc.Logged.Logs (Deletes keys) (fun result : List GcTarget => ∀ t ∈ result, t.key ∈ keys)
      (planTargets hexdigest (fun key => Conc.Logged.call (w.get key) (.get key)) caps entries targets total)
  | [], targets, total, _, htargets => Conc.Logged.logs_pure htargets
  | e :: entries, targets, total, hentries, htargets => by
    obtain ⟨he, hentries⟩ := List.forall_mem_cons.1 hentries
    rw [planTargets, GcTarget.make_eq]
    refine Conc.Logged.logs_bind (Q := fun candidate => candidate = e.target) (Conc.Logged.logs_pure rfl)
      fun candidate hcandidate => ?_
    subst hcandidate
    by_cases hbig : e.target.size > caps.max_bytes
    · rw [if_pos hbig]
      exact Conc.Logged.logs_raise _ _
    rw [if_neg hbig]
    refine Conc.Logged.logs_bind (Conc.Logged.logs_call fun _ => trivial) fun current _ => ?_
    cases current with
    | none => exact planTargets_logs hentries htargets
    | some current =>
      dsimp only
      split
      · exact Conc.Logged.logs_throw _
      split
      · exact Conc.Logged.logs_throw _
      refine planTargets_logs hentries (List.forall_mem_append.2 ⟨htargets, ?_⟩)
      exact List.forall_mem_singleton.2 he

theorem ofExcept_logs {P : Event → Prop} {α : Type} {Q : α → Prop} {x : Except PyErr α} (h : ∀ a, x = .ok a → Q a) :
    Conc.Logged.Logs P Q (MonadExcept.ofExcept x : Conc.Logged PyErr Event α) := by
  cases x with
  | ok a => exact Conc.Logged.logs_pure (h a rfl)
  | error e => exact Conc.Logged.logs_throw e

theorem plan_gc_logs {manifest : PublicationManifest} {now : Nat} {caps : GcCaps} :
    Conc.Logged.Logs (Deletes manifest.queuedKeys) (fun plan : GcPlan => ∀ t ∈ plan.targets, t.key ∈ manifest.queuedKeys)
      (plan_gc hexdigest (fun key => Conc.Logged.call (w.get key) (.get key)) manifest now caps) := by
  rw [plan_gc]
  split
  · exact Conc.Logged.logs_throw _
  have hqueued : ∀ e ∈ queued manifest, e.key ∈ manifest.queuedKeys := fun e he =>
    List.mem_map_of_mem ((queued_perm manifest).mem_iff.1 he)
  refine Conc.Logged.logs_bind (planTargets_logs hqueued (by simp)) fun targets htargets => ?_
  refine ofExcept_logs fun plan hplan => ?_
  rw [GcPlan.make_ok hplan]
  exact htargets

theorem removeTarget_logs {plan : GcPlan} {t : GcTarget} (ht : t.key ∈ keys) :
    Conc.Logged.Logs (Deletes keys) (fun _ => True)
      (removeTarget hexdigest (fun key => Conc.Logged.call (w.get key) (.get key))
        (fun key => Conc.Logged.call (w.delete key) (.delete key)) plan
        (Conc.Logged.call w.observed_generation .observed_generation)
        (Conc.Logged.call w.mutation_checkpoint .mutation_checkpoint) t) := by
  rw [removeTarget]
  refine Conc.Logged.logs_bind (Conc.Logged.logs_call fun _ => trivial) fun observed _ => ?_
  split
  · exact Conc.Logged.logs_throw _
  refine Conc.Logged.logs_bind (Conc.Logged.logs_call fun _ => trivial) fun current _ => ?_
  cases current with
  | none => exact Conc.Logged.logs_pure trivial
  | some current =>
    dsimp only
    split
    · exact Conc.Logged.logs_throw _
    refine Conc.Logged.logs_bind (Q := fun _ => True) ?_ fun _ _ => Conc.Logged.logs_pure trivial
    rw [deleteTarget]
    refine Conc.Logged.logs_bind (Conc.Logged.logs_call fun _ => trivial) fun _ _ => ?_
    refine Conc.Logged.logs_bind (Conc.Logged.logs_call fun _ => ht) fun _ _ => ?_
    refine Conc.Logged.logs_bind (Conc.Logged.logs_call fun _ => trivial) fun _ _ => ?_
    refine Conc.Logged.logs_bind (Conc.Logged.logs_call fun _ => trivial) fun after _ => ?_
    split
    · exact Conc.Logged.logs_throw _
    refine Conc.Logged.logs_bind (Conc.Logged.logs_call fun _ => trivial) fun observed _ => ?_
    split
    · exact Conc.Logged.logs_throw _
    · exact Conc.Logged.logs_pure trivial

theorem removeTargets_logs {plan : GcPlan} : ∀ {targets : List GcTarget} {deleted : List String},
    (∀ t ∈ targets, t.key ∈ keys) → Conc.Logged.Logs (Deletes keys) (fun _ => True)
      (removeTargets hexdigest (fun key => Conc.Logged.call (w.get key) (.get key))
        (fun key => Conc.Logged.call (w.delete key) (.delete key)) plan
        (Conc.Logged.call w.observed_generation .observed_generation)
        (Conc.Logged.call w.mutation_checkpoint .mutation_checkpoint) targets deleted)
  | [], _, _ => Conc.Logged.logs_pure trivial
  | t :: targets, deleted, h => by
    obtain ⟨ht, h⟩ := List.forall_mem_cons.1 h
    refine Conc.Logged.logs_bind (removeTarget_logs ht) fun gone _ => ?_
    cases gone with
    | true => exact removeTargets_logs h
    | false => exact removeTargets_logs h

/-- **Only queued keys are deleted**, whatever the store and the callables answer. -/
theorem loggedAttempt_deletes {manifest : PublicationManifest} {now : Nat} {caps : GcCaps} {key : String}
    {answer : Except PyErr Unit} (h : Event.delete key answer ∈ (loggedAttempt hexdigest w manifest now caps).2) :
    key ∈ manifest.queuedKeys := by
  have hlogs : Conc.Logged.Logs (Deletes manifest.queuedKeys) (fun _ => True) (do
      let plan ← plan_gc hexdigest (fun key => Conc.Logged.call (w.get key) (.get key)) manifest now caps
      execute_gc hexdigest (fun key => Conc.Logged.call (w.get key) (.get key))
        (fun key => Conc.Logged.call (w.delete key) (.delete key)) plan
        (Conc.Logged.call w.observed_generation .observed_generation)
        (Conc.Logged.call w.mutation_checkpoint .mutation_checkpoint)) :=
    Conc.Logged.logs_bind plan_gc_logs fun plan hplan => removeTargets_logs hplan
  obtain ⟨⟨called, hlog, hcalled⟩, -⟩ := hlogs []
  rw [loggedAttempt, hlog, List.nil_append] at h
  exact hcalled _ h

end

/-! ## On a store -/

section
variable {σ : Type} (hexdigest : ByteArray → String)

/-- `store.get`, less the ETag. -/
def storeGet (key : String) : Cmd σ (Option ObjectValue) := do
  let object ← Cmd.get key
  return object.map (·.value)

/-- What is stored, less the ETags. -/
def values (s : Store) (key : String) : Option ObjectValue := (s.get key).map (·.value)

/-- What a client of the collector provides. -/
structure Client (σ : Type) where
  now : Nat
  caps : GcCaps
  observed_generation : Cmd σ Int
  mutation_checkpoint : Cmd σ Unit

/-- A plan and its execution. -/
def attempt (manifest : PublicationManifest) (c : Client σ) : Cmd σ (List String) := do
  let plan ← plan_gc hexdigest storeGet manifest c.now c.caps
  execute_gc hexdigest storeGet Cmd.delete plan c.observed_generation c.mutation_checkpoint

variable {hexdigest} {sem : (op : Op) → Store → op.Res → Store → Prop} {fails : Prop} (h : Store.Service sem fails)
  {R G : Store → Store → Prop} {st : σ} {s : Store} {manifest : PublicationManifest} {caps : GcCaps} {now : Nat}
include h

theorem storeGet_wp {β : Type} {key : String} {f : Option ObjectValue → Cmd σ β}
    {Q : Except PyErr β → σ → Store → Prop} (hE : fails → ∀ e st s, Q (.error e) st s)
    (hf : ∀ s', R s s' → G s' s' ∧ (f (values s' key)).wp sem R G Q st s') :
    (storeGet key >>= f).wp sem R G Q st s := by
  have hassoc : ((storeGet key : Cmd σ _) >>= f).wp sem R G Q st s ↔
      (Cmd.get key >>= fun object => f (object.map (·.value))).wp sem R G Q st s := by
    rw [storeGet, Cmd.wp_bind, Cmd.wp_bind, Cmd.wp_bind]
    rfl
  rw [hassoc]
  exact h.get_wp hE hf

/-! ### Planning -/

section
variable {J : Store → Prop} {store : String → Option ObjectValue} (hJ : ∀ s s', J s → R s s' → J s')
  (hG : ∀ s, G s s)
include hJ hG

theorem planTargets_wp : ∀ {entries : List GcQueueEntry} {targets : List GcTarget} {total : Int} {st : σ} {s : Store},
    (∀ s, J s → ∀ e ∈ entries, values s e.key = store e.key) → J s →
    (planTargets hexdigest storeGet caps entries targets total).wp sem R G
      (Cmd.Gives (fun result _ s' => J s' ∧
        planTargets hexdigest (fun key => (.ok (store key) : Except PyErr _)) caps entries targets total = .ok result)
        fun e _ _ => fails ∨
          planTargets hexdigest (fun key => (.ok (store key) : Except PyErr _)) caps entries targets total = .error e) st s
  | [], targets, total, st, s, _, hj => ⟨hj, rfl⟩
  | e :: entries, targets, total, st, s, hstore, hj => by
    have hrest : ∀ s, J s → ∀ e ∈ entries, values s e.key = store e.key := fun s hj x hx =>
      hstore s hj x (List.mem_cons_of_mem _ hx)
    rw [planTargets, planTargets, GcTarget.make_eq]
    simp only [ofExcept_except, except_ok_bind, except_throw, except_error_bind]
    rw [MonadExcept.ofExcept, Cmd.wp_bind, Cmd.wp_pure, Cmd.after_ok]
    by_cases hbig : e.target.size > caps.max_bytes
    · rw [if_pos hbig, if_pos hbig]
      exact .inr rfl
    rw [if_neg hbig, if_neg hbig]
    refine storeGet_wp h (fun hf _ _ _ => .inl hf) fun s' hs => ⟨hG s', ?_⟩
    have hj' := hJ s s' hj hs
    rw [hstore s' hj' e List.mem_cons_self]
    cases store e.key with
    | none => exact planTargets_wp hrest hj'
    | some v =>
      dsimp only
      by_cases hmatch : (!matches_ hexdigest v e.target.toGcTargetFields) = true
      · rw [if_pos hmatch, if_pos hmatch]
        exact .inr rfl
      · rw [if_neg hmatch, if_neg hmatch]
        split
        · exact .inr rfl
        · exact planTargets_wp hrest hj'

/-- On a store that holds `store` at the queued keys, planning is what it is on `store`. -/
theorem plan_gc_wp (hstore : ∀ s, J s → ∀ e ∈ manifest.gc_queue, values s e.key = store e.key) (hj : J s) :
    (plan_gc hexdigest storeGet manifest now caps).wp sem R G
      (Cmd.Gives (fun plan _ s' => J s' ∧
        plan_gc hexdigest (fun key => (.ok (store key) : Except PyErr _)) manifest now caps = .ok plan)
        fun e _ _ => fails ∨
          plan_gc hexdigest (fun key => (.ok (store key) : Except PyErr _)) manifest now caps = .error e) st s := by
  rw [plan_gc, plan_gc]
  simp only [ofExcept_except, except_throw, except_error_bind]
  by_cases hcaps : caps.max_objects < 1 ∨ caps.max_bytes < 1
  · rw [if_pos hcaps, if_pos hcaps]
    exact .inr rfl
  rw [if_neg hcaps, if_neg hcaps]
  rw [Cmd.wp_bind]
  refine Cmd.wp_mono (planTargets_wp h hJ hG (fun s hj x hx => hstore s hj x ((queued_perm manifest).mem_iff.1 hx)) hj)
    fun r st s hr => ?_
  rcases r with e | targets
  · rcases hr with hf | herr
    · exact .inl hf
    · right
      rw [herr]
      rfl
  · obtain ⟨hj, hok⟩ := hr
    rw [hok, except_ok_bind, Cmd.after_ok]
    unfold MonadExcept.ofExcept
    split
    · next plan hplan => exact ⟨hj, hplan⟩
    · next e he => exact .inr he

end

/-! ### Execution -/

omit h in
/-- A command that keeps what only `K` can change. -/
def Kept (sem : (op : Op) → Store → op.Res → Store → Prop) (R G K : Store → Store → Prop) {α : Type} (c : Cmd σ α) :
    Prop :=
  ∀ J : Store → Prop, (∀ s s', J s → K s s' → J s') → ∀ st s, J s →
    c.wp sem R G (Cmd.Gives (fun _ _ s => J s) fun _ _ _ => True) st s

section
variable {K : Store → Store → Prop} (hRK : ∀ s s', R s s' → K s s') (hG : ∀ s, G s s) {plan : GcPlan}
  {observed_generation : Cmd σ Int} {mutation_checkpoint : Cmd σ Unit} (hobs : Kept sem R G K observed_generation)
  (hcp : Kept sem R G K mutation_checkpoint)
  {J : List GcTarget → Store → Prop} (hJ : ∀ done s s', J done s → K s s' → J done s')
  (hkeys : ∀ t ∈ plan.targets, ∀ s s', K s s' → values s' t.key = values s t.key)
  (hskip : ∀ done t s, t ∈ plan.targets → J done s → values s t.key = none → J (done ++ [t]) s)
  (hdelete : ∀ done t s v, t ∈ plan.targets → J done s → values s t.key = some v →
    matches_ hexdigest v t.toGcTargetFields = true → G s (s.delete t.key) ∧ J (done ++ [t]) (s.delete t.key))
include hRK hG hobs hcp hJ hkeys hskip hdelete

omit hskip in
theorem deleteTarget_wp {done : List GcTarget} {t : GcTarget} {v : ObjectValue} (ht : t ∈ plan.targets)
    (hmatch : matches_ hexdigest v t.toGcTargetFields = true) (hj : J done s) (hv : values s t.key = some v) :
    (deleteTarget storeGet Cmd.delete plan observed_generation mutation_checkpoint t).wp sem R G
      (Cmd.Gives (fun _ _ s => J (done ++ [t]) s) fun _ _ _ => True) st s := by
  have hstable : ∀ s s', J done s ∧ values s t.key = some v → K s s' → J done s' ∧ values s' t.key = some v :=
    fun s s' hs hk => ⟨hJ done s s' hs.1 hk, (hkeys t ht s s' hk).trans hs.2⟩
  rw [deleteTarget]
  refine Cmd.wp_gives (hcp _ hstable st s ⟨hj, hv⟩) fun _ st s hs => ?_
  rw [Cmd.wp_bind]
  refine h.delete_wp (fun _ _ _ _ => trivial) fun s' hr => ?_
  obtain ⟨hj, hv⟩ := hstable s s' hs (hRK s s' hr)
  obtain ⟨hGd, hj⟩ := hdelete done t s' v ht hj hv hmatch
  refine ⟨hG s', hGd, ?_⟩
  rw [Cmd.after_ok]
  refine Cmd.wp_gives (hcp _ (hJ (done ++ [t])) st _ hj) fun _ st s hj => ?_
  refine storeGet_wp h (fun _ _ _ _ => trivial) fun s' hr => ⟨hG s', ?_⟩
  have hj := hJ (done ++ [t]) s s' hj (hRK s s' hr)
  split
  · trivial
  refine Cmd.wp_gives (hobs _ (hJ (done ++ [t])) st s' hj) fun g st s hj => ?_
  split
  · trivial
  · exact hj

theorem removeTarget_wp {done : List GcTarget} {t : GcTarget} (ht : t ∈ plan.targets) (hj : J done s) :
    (removeTarget hexdigest storeGet Cmd.delete plan observed_generation mutation_checkpoint t).wp sem R G
      (Cmd.Gives (fun _ _ s => J (done ++ [t]) s) fun _ _ _ => True) st s := by
  refine Cmd.wp_gives (hobs _ (hJ done) st s hj) fun g st s hj => ?_
  split
  · trivial
  refine storeGet_wp h (fun _ _ _ _ => trivial) fun s' hr => ⟨hG s', ?_⟩
  have hj := hJ done s s' hj (hRK s s' hr)
  cases hv : values s' t.key with
  | none => exact hskip done t s' ht hj hv
  | some v =>
    dsimp only
    split
    · trivial
    next hmatch =>
    have hmatch : matches_ hexdigest v t.toGcTargetFields = true := by simpa using hmatch
    refine Cmd.wp_gives (deleteTarget_wp h hRK hG hobs hcp hJ hkeys hdelete ht hmatch hj hv)
      fun _ st s hj => hj

theorem removeTargets_wp : ∀ {targets done : List GcTarget} {deleted : List String} {st : σ} {s : Store},
    (∀ t ∈ targets, t ∈ plan.targets) → J done s →
    (removeTargets hexdigest storeGet Cmd.delete plan observed_generation mutation_checkpoint targets deleted).wp sem R G
      (Cmd.Gives (fun _ _ s => J (done ++ targets) s) fun _ _ _ => True) st s
  | [], done, deleted, st, s, _, hj => by
    rw [List.append_nil]
    exact hj
  | t :: targets, done, deleted, st, s, ht, hj => by
    obtain ⟨ht, htargets⟩ := List.forall_mem_cons.1 ht
    have hsplit : done ++ t :: targets = done ++ [t] ++ targets := by simp
    rw [removeTargets, hsplit]
    refine Cmd.wp_gives (removeTarget_wp h hRK hG hobs hcp hJ hkeys hskip hdelete ht hj) fun gone st s hj => ?_
    split
    · exact removeTargets_wp htargets hj
    · exact removeTargets_wp htargets hj

/-- What every target keeps, an execution keeps. -/
theorem execute_gc_wp (hj : J [] s) :
    (execute_gc hexdigest storeGet Cmd.delete plan observed_generation mutation_checkpoint).wp sem R G
      (Cmd.Gives (fun _ _ s => J plan.targets s) fun _ _ _ => True) st s :=
  removeTargets_wp h hRK hG hobs hcp hJ hkeys hskip hdelete (fun _ ht => ht) hj

end

end

/-! ## Attempts that are cut -/

section
variable {σ : Type} (hexdigest : ByteArray → String) (manifest : PublicationManifest) (others : Set String)

/-- What a store holds without some keys. -/
def remains (s : Store) (gone : List String) (k : String) : Option StoredObject :=
  if k ∈ gone then none else s.get k

/-- A client that changes only `others`. -/
structure Client.Apart (c : Client σ) : Prop where
  observed_generation : ∀ st, (c.observed_generation st).AllOps (Store.changesOnly others)
  mutation_checkpoint : ∀ st, (c.mutation_checkpoint st).AllOps (Store.changesOnly others)

/-- What a client changes. -/
def Others (s s' : Store) : Prop := ∀ k, k ∉ others → s'.get k = s.get k

/-- All that one request can do: change `others`, or delete what a tombstone names. -/
inductive Collects (s : Store) : Store → Prop
  | other {s'} : Others others s s' → Collects s s'
  | delete {e v} : e ∈ manifest.gc_queue → values s e.key = some v →
      matches_ hexdigest v e.target.toGcTargetFields = true → Collects s (s.delete e.key)

/-- Attempts of any clients, one after the other, each cut anywhere: the stores before and after each
request, and the store that is reached. -/
inductive Rounds (σ : Type) (s₀ : Store) : List (Store × Store) → Store → Prop
  | start : Rounds σ s₀ [] s₀
  | attempt {tr s st tr' rest s'} {c : Client σ} : Rounds σ s₀ tr s → c.Apart others →
      Conc.Trace Store.Truthful Eq (attempt hexdigest manifest c st) s tr' rest s' → Rounds σ s₀ (tr ++ tr') s'

end

section
variable {σ : Type} {hexdigest : ByteArray → String} {manifest : PublicationManifest} {others : Set String}
  (happart : ∀ e ∈ manifest.gc_queue, e.key ∉ others)

theorem remains_snoc (s : Store) (gone : List String) (key k : String) :
    remains s (gone ++ [key]) k = if k = key then none else remains s gone k := by
  unfold remains
  by_cases heq : k = key <;> simp [heq]

theorem Others.values {s s' : Store} (h : Others others s s') {k : String} (hk : k ∉ others) :
    Gc.values s' k = Gc.values s k := by
  rw [Gc.values, Gc.values, h k hk]

/-- A command that changes only `others` keeps what depends on the other keys. -/
theorem kept_of_ops {α : Type} {c : Cmd σ α} (h : ∀ st, (c st).AllOps (Store.changesOnly others)) :
    Kept Store.Truthful Eq (Collects hexdigest manifest others) (Others others) c := by
  intro J hJ st s hj
  have hops : Conc.wp Store.Truthful Eq (Collects hexdigest manifest others) (c st) (fun _ => J) s := by
    refine Conc.wp_allOps (fun s s' hj hs => by rw [← hs]; exact hj) (fun o ho s r s' hj hr => ?_) (h st) hj
    have hothers : Others others s s' := fun k hk => ho.same hr.out hk
    exact ⟨.other hothers, hJ s s' hj hothers⟩
  refine Conc.wp_post (fun r s hj => ?_) hops
  rcases r with ⟨e | a, st⟩
  · trivial
  · exact hj

include happart

/-- Executing the plan of a store: all that was there of the queue goes. -/
theorem execute_wp {c : Client σ} (hc : c.Apart others) {plan : GcPlan} {st : σ} {s : Store}
    (htargets : plan.targets = (existing (values s) (queued manifest)).map GcQueueEntry.target) :
    (execute_gc hexdigest storeGet Cmd.delete plan c.observed_generation c.mutation_checkpoint).wp Store.Truthful Eq
      (Collects hexdigest manifest others)
      (Cmd.Gives (fun _ _ s' => ∀ k, k ∉ others → s'.get k = remains s manifest.queuedKeys k)
        fun _ _ _ => True) st s := by
  have hG : ∀ s, Collects hexdigest manifest others s s := fun s => .other fun _ _ => rfl
  have hmem : ∀ t ∈ plan.targets, ∃ e ∈ manifest.gc_queue, t = e.target := fun t ht => by
    rw [htargets, List.mem_map] at ht
    obtain ⟨e, he, rfl⟩ := ht
    exact ⟨e, (queued_perm manifest).mem_iff.1 (List.mem_filter.1 he).1, rfl⟩
  have happart' : ∀ t ∈ plan.targets, t.key ∉ others := fun t ht => by
    obtain ⟨e, he, rfl⟩ := hmem t ht
    exact happart e he
  -- what is left without the targets that are done
  have hwp : (execute_gc hexdigest storeGet Cmd.delete plan c.observed_generation c.mutation_checkpoint).wp
      Store.Truthful Eq (Collects hexdigest manifest others)
      (Cmd.Gives (fun _ _ s' => ∀ k, k ∉ others → s'.get k = remains s (plan.targets.map (·.key)) k)
        fun _ _ _ => True) st s :=
    execute_gc_wp Store.service_truthful (K := Others others)
    (fun s s' hs k _ => by rw [hs]) hG (kept_of_ops hc.observed_generation) (kept_of_ops hc.mutation_checkpoint)
    (J := fun done s' => ∀ k, k ∉ others → s'.get k = remains s (done.map (·.key)) k)
    (fun done s₁ s₂ hj hs k hk => (hs k hk).trans (hj k hk)) (fun t ht s₁ s₂ hs => hs.values (happart' t ht))
    (fun done t s₁ ht hj hnone k hk => by
      rw [List.map_append, List.map_singleton, remains_snoc]
      split
      · next heq =>
        rw [heq]
        exact Option.map_eq_none_iff.1 hnone
      · exact hj k hk)
    (fun done t s₁ v ht hj hv hmatch => by
      refine ⟨?_, fun k hk => ?_⟩
      · obtain ⟨e, he, rfl⟩ := hmem t ht
        exact .delete he hv hmatch
      · rw [List.map_append, List.map_singleton, remains_snoc]
        split
        · next heq => rw [heq, Conc.CondStore.get_delete_self]
        · next hne =>
          rw [Conc.CondStore.get_delete_ne _ hne]
          exact hj k hk)
    (show ∀ k, k ∉ others → s.get k = remains s [] k from fun k _ => rfl)
  refine Cmd.wp_mono hwp fun r st s' hr => ?_
  rcases r with e | deleted
  · trivial
  intro k hk
  rw [Cmd.gives_ok] at hr
  rw [hr k hk, htargets, List.map_map, remains, remains]
  by_cases hq : k ∈ manifest.queuedKeys
  · rw [if_pos hq]
    split
    · rfl
    · next hno =>
      obtain ⟨e, he, rfl⟩ := List.mem_map.1 hq
      by_contra hne
      refine hno (List.mem_map.2 ⟨e, List.mem_filter.2 ⟨(queued_perm manifest).mem_iff.2 he, ?_⟩, rfl⟩)
      rw [values, Option.isSome_map]
      exact Option.isSome_iff_ne_none.2 hne
  · rw [if_neg hq, if_neg]
    intro hin
    obtain ⟨e, he, rfl⟩ := List.mem_map.1 hin
    exact hq (List.mem_map_of_mem ((queued_perm manifest).mem_iff.1 (List.mem_filter.1 he).1))

/-- **One attempt**: every request deletes what a tombstone names, and an attempt that returns has
deleted all that is queued. -/
theorem attempt_wp {c : Client σ} (hc : c.Apart others) (st : σ) (s : Store) :
    (attempt hexdigest manifest c).wp Store.Truthful Eq (Collects hexdigest manifest others)
      (Cmd.Gives (fun _ _ s' => (∀ k, k ∉ others → s'.get k = remains s manifest.queuedKeys k) ∧
        1 ≤ c.caps.max_objects ∧ 1 ≤ c.caps.max_bytes ∧ ∀ e ∈ manifest.gc_queue, e.size ≤ c.caps.max_bytes)
        fun _ _ _ => True) st s := by
  have hplanning : (plan_gc hexdigest storeGet manifest c.now c.caps).wp Store.Truthful Eq
      (Collects hexdigest manifest others) (Cmd.Gives (fun plan _ s' => s' = s ∧
        plan_gc hexdigest (fun key => (.ok (values s key) : Except PyErr _)) manifest c.now c.caps = .ok plan)
        fun _ _ _ => True) st s := by
    refine Cmd.wp_mono (plan_gc_wp Store.service_truthful (J := fun s' => s' = s) (fun s s' hs hr => hr ▸ hs)
      (fun s => .other fun _ _ => rfl) (fun s' hs e he => by rw [hs]) rfl) fun r st s' hr => ?_
    rcases r with e | plan
    · trivial
    · exact hr
  rw [attempt]
  refine Cmd.wp_gives hplanning fun plan st s' hplan => ?_
  obtain ⟨rfl, hplan⟩ := hplan
  obtain ⟨hobjects, hbytes, hsizes, htargets, -⟩ := plan_gc_ok hplan
  refine Cmd.wp_mono (execute_wp happart hc htargets) fun r st s₁ hr => ?_
  rcases r with e | deleted
  · trivial
  · exact ⟨hr, hobjects, hbytes, hsizes⟩

/-- What is not as it was is queued, and gone. -/
def Shrunk (manifest : PublicationManifest) (others : Set String) (s₀ s : Store) : Prop :=
  ∀ k, k ∉ others → s.get k = s₀.get k ∨ k ∈ manifest.queuedKeys ∧ s.get k = none

omit happart in
theorem Collects.shrunk {s₀ s s' : Store} (h : Collects hexdigest manifest others s s')
    (hs : Shrunk manifest others s₀ s) : Shrunk manifest others s₀ s' := by
  intro k hk
  cases h with
  | other hothers =>
    rw [hothers k hk]
    exact hs k hk
  | @delete e v he hv hmatch =>
    by_cases heq : k = e.key
    · refine .inr ⟨heq ▸ List.mem_map_of_mem he, ?_⟩
      rw [heq, Conc.CondStore.get_delete_self]
    · rw [Conc.CondStore.get_delete_ne _ heq]
      exact hs k hk

/-- Wherever the attempts are cut, what they did was to collect. -/
theorem Rounds.collects {s₀ s : Store} {tr : List (Store × Store)} (h : Rounds hexdigest manifest others σ s₀ tr s) :
    (∀ x ∈ tr, Collects hexdigest manifest others x.1 x.2) ∧ Shrunk manifest others s₀ s := by
  induction h with
  | start => exact ⟨by simp, fun k _ => .inl rfl⟩
  | @attempt tr s st tr' rest s' c _ hc htr ih =>
    obtain ⟨hcollects, hshrunk⟩ := ih
    obtain ⟨hcollects', -⟩ := Conc.wp_trace htr (attempt_wp happart hc st s)
    refine ⟨List.forall_mem_append.2 ⟨hcollects, hcollects'⟩, ?_⟩
    exact htr.keeps (I := Shrunk manifest others s₀) (fun s s' hs heq => heq ▸ hs)
      (fun x hx hs => (hcollects' x hx).shrunk hs) hshrunk

end

section
variable (hexdigest : ByteArray → String) (manifest : PublicationManifest) (others : Set String)

/-- All that is queued is gone, everything else is as it was, and there is nothing more to plan. -/
structure Swept (caps : GcCaps) (s₀ s : Store) : Prop where
  remains : ∀ k, k ∉ others → s.get k = remains s₀ manifest.queuedKeys k
  planned : ∀ now < Calendar.maxSeconds, planned hexdigest (values s) manifest now caps = some []

variable {hexdigest manifest others}

theorem Swept.of_remains (happart : ∀ e ∈ manifest.gc_queue, e.key ∉ others) {caps : GcCaps} {s₀ s : Store}
    (hremains : ∀ k, k ∉ others → s.get k = Gc.remains s₀ manifest.queuedKeys k) (hobjects : 1 ≤ caps.max_objects)
    (hbytes : 1 ≤ caps.max_bytes) (hsizes : ∀ e ∈ manifest.gc_queue, e.size ≤ caps.max_bytes) :
    Swept hexdigest manifest others caps s₀ s where
  remains := hremains
  planned now hnow := by
    have hnone : ∀ e ∈ manifest.gc_queue, values s e.key = none := fun e he => by
      have hq : e.key ∈ manifest.queuedKeys := List.mem_map_of_mem he
      rw [values, hremains _ (happart e he), Gc.remains, if_pos hq]
      rfl
    have hempty : existing (values s) manifest.gc_queue = [] :=
      List.filter_eq_nil_iff.2 fun e he => by simp [hnone e he]
    have hfit : ¬ Refused hexdigest (values s) manifest caps := by
      rintro (⟨e, he, hne⟩ | hcount | htotal)
      · exact hne fun v hv => by rw [hnone e he] at hv; cases hv
      · rw [hempty] at hcount
        have hzero : (([] : List GcQueueEntry).length : Int) = 0 := rfl
        omega
      · rw [hempty] at htotal
        have hzero : totalSize [] = 0 := rfl
        omega
    rcases @plan_gc_spec hexdigest (values s) manifest caps now hnow hobjects hbytes with
      ⟨-, -, plan, hplan, htargets, -⟩ | ⟨hno, -⟩
    · have hperm := @existing_perm (values s) _ _ (queued_perm manifest)
      rw [hempty, List.perm_nil] at hperm
      rw [Gc.planned, hplan]
      simp only [Except.toOption, Option.map_some, htargets, hperm, List.map_nil]
    · exact absurd ⟨fun e he _ => hsizes e he, hfit⟩ hno

end

/-- **Garbage collection is resumable, and touches only its targets.** Attempts may be cut anywhere,
each plans anew: every request deletes what a tombstone names, and an attempt that returns has swept
the store as it was at the start. Whatever the store and the callables answer, nothing is called after
an observation that something else is there. -/
theorem gc_resumable {σ : Type} (hexdigest : ByteArray → String) {manifest : PublicationManifest} {others : Set String}
    (happart : ∀ e ∈ manifest.gc_queue, e.key ∉ others) :
    (∀ s₀ tr s, Rounds hexdigest manifest others σ s₀ tr s →
      (∀ x ∈ tr, Collects hexdigest manifest others x.1 x.2) ∧
      ∀ c : Client σ, c.Apart others → ∀ st tr' deleted st' s',
        Conc.Trace Store.Truthful Eq (attempt hexdigest manifest c st) s tr' (.ret (.ok deleted, st')) s' →
        Swept hexdigest manifest others c.caps s₀ s') ∧
    ∀ w plan pre e post, (logged hexdigest w plan).2 = pre ++ e :: post → Alarm hexdigest plan e →
      post = [] ∧ ∃ err, (logged hexdigest w plan).1 = .error err := by
  refine ⟨fun s₀ tr s h => ?_, fun w plan pre e post h halarm => execute_gc_stops h halarm⟩
  obtain ⟨hcollects, hshrunk⟩ := h.collects happart
  refine ⟨hcollects, fun c hc st tr' deleted st' s' htr => ?_⟩
  obtain ⟨hremains, hobjects, hbytes, hsizes⟩ := (Conc.wp_trace htr (attempt_wp happart hc st s)).2
  refine Swept.of_remains happart (fun k hk => ?_) hobjects hbytes hsizes
  rw [hremains k hk, remains, remains]
  split
  · rfl
  · next hno => exact (hshrunk k hk).resolve_right fun hq => hno hq.1

/-! The tombstone of three bytes, with its object there: an attempt that is cut after the deletion. -/

namespace Sample

def digest : ByteArray → String := fun _ => State.Sample.digest

def full : Store := (Conc.CondStore.empty.put "pool/old.deb"
  ⟨⟨#[1, 2, 3]⟩, ⟨"application/vnd.debian.binary-package", "public, max-age=31536000, immutable", by decide +kernel⟩⟩ .ifNoneMatch).2

def client : Client Unit where
  now := 0
  caps := ⟨10000, 3⟩
  observed_generation := pure 1
  mutation_checkpoint := pure ()

theorem apart : client.Apart ∅ := ⟨fun _ => trivial, fun _ => trivial⟩

/-- Two reads and the deletion. -/
def cut : Store := ((attempt digest State.Sample.manifest client ()).runN Store.serve 3 full).2

end Sample

theorem gc_resumable_sample : (Sample.full.get "pool/old.deb").isSome = true ∧
    Sample.cut.get "pool/old.deb" = none ∧
    ∀ tr deleted s, Conc.Trace Store.Truthful Eq
      (attempt Sample.digest State.Sample.manifest Sample.client ()) Sample.cut tr (.ret (.ok deleted, ())) s →
      Swept Sample.digest State.Sample.manifest ∅ ⟨10000, 3⟩ Sample.full s := by
  obtain ⟨tr, htr⟩ := Conc.trace_runN (R := Eq) Store.service_serve.truthful (fun _ => rfl) 3
    (attempt Sample.digest State.Sample.manifest Sample.client ()) Sample.full
  have happart : ∀ e ∈ State.Sample.manifest.gc_queue, e.key ∉ (∅ : Set String) := fun _ _ => Set.notMem_empty _
  have hrun := (gc_resumable (σ := Unit) Sample.digest happart).1 _ _ _ (.attempt .start Sample.apart htr)
  exact ⟨by decide +kernel, by decide +kernel, fun tr deleted s h => hrun.2 _ Sample.apart _ _ _ _ _ h⟩

end Gc
