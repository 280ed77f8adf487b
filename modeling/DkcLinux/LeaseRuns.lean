import DkcLinux.LeaseSafety

/-!
# Runs of lease clients

Any number of clients, each the run of one owner, call the methods of their `LeaseManager` in any
order a `strategy` chooses from what the earlier calls returned; a handle has to come from an
earlier call. A step of the system is one operation of one client, or a move of `World.Env`: a
client may stop for good between any two of its operations.
-/

open Conc LeaseSafety

namespace LeaseRuns

inductive Call where
  | acquire
  | renew (handle : LeaseHandle)
  | release (handle : LeaseHandle)
  /-- Other bounds raise before the first operation. -/
  | assert_batch_window (handle : LeaseHandle) (batch safety : Int) (bounds : 1 ≤ batch ∧ 0 ≤ safety)

def Call.handle? : Call → Option LeaseHandle
  | acquire => none
  | renew h | release h | assert_batch_window h _ _ _ => some h

/-- The handle a call returned, or nothing, or its exception. -/
abbrev Outcome := Except PyErr (Option LeaseHandle)

def Call.command (m : LeaseManager) (o : LeaseOwner) : Call → Cmd Unit (Option LeaseHandle)
  | acquire => do return some (← m.acquire o)
  | renew h => do return some (← m.renew h)
  | release h => do return some (← LeaseManager.release h)
  | assert_batch_window h batch safety _ => do
    LeaseManager.assert_batch_window h batch safety
    return none

/-- The finished calls, newest first, and what is left of the call in progress. -/
structure Client where
  log : List (Call × Outcome)
  busy : Option (Call × Proc (Outcome × Unit))

def Client.handles (c : Client) : List LeaseHandle :=
  c.log.filterMap fun x => match x.2 with
    | .ok h => h
    | .error _ => none

/-- The calls begun so far. -/
def Client.begun (c : Client) : Nat := c.log.length + if c.busy.isSome then 1 else 0

structure System (ι : Type) where
  owner : ι → LeaseOwner
  manager : ι → LeaseManager
  strategy : ι → List (Call × Outcome) → Option Call
  distinct : Function.Injective owner

namespace System

variable {ι : Type} (S : System ι)

def program (i : ι) (call : Call) : Proc (Outcome × Unit) := call.command (S.manager i) (S.owner i) ()

/-- The call in progress, or the one that starts with the next operation. -/
def current (i : ι) (c : Client) : Option (Call × Proc (Outcome × Unit)) :=
  match c.busy with
  | some b => some b
  | none =>
    match S.strategy i c.log with
    | some call => if ∀ h ∈ call.handle?, h ∈ c.handles then some (call, S.program i call) else none
    | none => none

/-- After an answer: a call that has nothing left to do returns in the same step. -/
def resume (log : List (Call × Outcome)) (call : Call) : Proc (Outcome × Unit) → Client
  | .ret r => ⟨(call, r.1) :: log, none⟩
  | .op o k => ⟨log, some (call, .op o k)⟩

def next (i : ι) (c : Client) : Option ((o : Op) × (o.Res → Client)) :=
  match S.current i c with
  | some (call, .op o k) => some ⟨o, fun r => resume c.log call (k r)⟩
  | _ => none

variable [DecidableEq ι]

abbrev Step := Conc.Step (fun i => World.Sem (S.owner i)) World.Env S.next
abbrev Steps := Conc.Steps (fun i => World.Sem (S.owner i)) World.Env S.next

/-- No client has called anything, and the lease record names none of them. -/
structure Start (c : Config ι World Client) : Prop where
  idle : ∀ i, c.thread i = ⟨[], none⟩
  unnamed : ∀ i, ¬ c.world.names (S.owner i)

end System

/-! ## One call -/

/-- What a call's owner knows when it returns. -/
structure Post (o : LeaseOwner) (call : Call) (r : Outcome) (w : World) : Prop where
  handle : ∀ h, r = .ok (some h) → h.owner = o ∧ Issued h w
  window : ∀ h batch safety bounds, call = .assert_batch_window h batch safety bounds → r = .ok none →
    ∃ e : Nat, Held w o e ∧ w.seconds + batch + safety < e

theorem post_error {o : LeaseOwner} {call : Call} {e : PyErr} {w : World} : Post o call (.error e) w :=
  ⟨fun _ h => (by cases h), fun _ _ _ _ _ h => by cases h⟩

theorem post_of_returns {o : LeaseOwner} {call : Call} {r : Except PyErr LeaseHandle} {w : World}
    (h : Returns o r w) : Post o call (r.map some) w := by
  rcases r with e | x
  · exact post_error
  · exact ⟨fun y hy => (by cases hy; exact h x rfl), fun _ _ _ _ _ h => by cases h⟩

/-- A method that returns a handle, as a call. -/
theorem returns_wp {o : LeaseOwner} {ttl : Nat} {c : Cmd Unit LeaseHandle} {call : Call} {w : World}
    (h : c.wp (World.Sem o) (Rely o) (Guar o ttl) (fun r _ => Returns o r) () w) :
    (do return some (← c) : Cmd Unit (Option LeaseHandle)).wp (World.Sem o) (Rely o) (Guar o ttl)
      (fun r _ => Post o call r) () w := by
  refine Cmd.wp_bind.2 (Cmd.wp_mono h fun r st w' hr => ?_)
  have hpost : Post o call (r.map some) w' := post_of_returns hr
  rcases r with e | x
  · exact hpost
  · exact hpost

theorem command_wp {o : LeaseOwner} {m : LeaseManager} {call : Call} {w : World}
    (ho : ∀ h ∈ call.handle?, h.owner = o) (hb : Bounded o (w.seconds + m.ttl_seconds) w) :
    (call.command m o).wp (World.Sem o) (Rely o) (Guar o m.ttl_seconds) (fun r _ => Post o call r) () w := by
  cases call with
  | acquire => exact returns_wp acquire_wp
  | renew h => exact returns_wp (renew_wp (ho h rfl) hb)
  | release h => exact returns_wp (release_wp (ho h rfl))
  | assert_batch_window h batch safety bounds =>
    refine Cmd.wp_bind.2 (Cmd.wp_mono (assert_batch_window_wp (ho h rfl)) fun r st w' hr => ?_)
    rcases r with e | _
    · exact post_error
    · refine ⟨fun _ h => (by cases h), fun _ _ _ _ heq _ => ?_⟩
      cases heq
      exact hr rfl

/-! ## Every client, in every interleaving -/

variable {ι : Type} {S : System ι}

/-- What client `i` knows of the world when it stands at `c`. -/
structure Ok (S : System ι) (i : ι) (c : Client) (w : World) : Prop where
  bounded : Bounded (S.owner i) (w.seconds + (S.manager i).ttl_seconds) w
  exact : w.names (S.owner i) → ∃ e, Held w (S.owner i) e
  handles : ∀ h ∈ c.handles, h.owner = S.owner i ∧ Issued h w
  busy : ∀ call p, c.busy = some (call, p) → (∃ o k, p = .op o k) ∧
    Conc.wp (World.Sem (S.owner i)) (Rely (S.owner i)) (Guar (S.owner i) (S.manager i).ttl_seconds) p
      (fun r => Post (S.owner i) call r.1) w

theorem Ok.rely {i : ι} {c : Client} {w w' : World} (h : Ok S i c w) (hR : Rely (S.owner i) w w') :
    Ok S i c w' where
  bounded := hR.bounded h.bounded
  exact hn := by
    have hl := hR.own hn
    obtain ⟨x, r, hx, hr⟩ := hn
    obtain ⟨e, he⟩ := h.exact ⟨x, r, hl ▸ hx, hr⟩
    exact ⟨e, he.of_lease hl⟩
  handles x hx := ⟨(h.handles x hx).1, (h.handles x hx).2.forward hR.toForward⟩
  busy call p hp := by
    obtain ⟨⟨o, k, rfl⟩, hw⟩ := h.busy call p hp
    exact ⟨⟨o, k, rfl⟩, wp_op_stable (fun _ _ _ h h' => h.trans h') hw hR⟩

/-- The call a client is in, or is about to start, is one its owner may make. -/
theorem Ok.current_wp {i : ι} {c : Client} {w : World} (h : Ok S i c w) {call : Call}
    {p : Proc (Outcome × Unit)} (hc : S.current i c = some (call, p)) :
    Conc.wp (World.Sem (S.owner i)) (Rely (S.owner i)) (Guar (S.owner i) (S.manager i).ttl_seconds) p
      (fun r => Post (S.owner i) call r.1) w := by
  unfold System.current at hc
  split at hc
  · next b hb => cases hc; exact (h.busy _ _ hb).2
  · split at hc
    · split at hc
      · next hh =>
        cases hc
        exact command_wp (fun x hx => (h.handles x (hh x hx)).1) h.bounded
      · cases hc
    · cases hc

theorem next_eq_some {i : ι} {c : Client} {op : Op} {k : op.Res → Client}
    (h : S.next i c = some ⟨op, k⟩) : ∃ call k', S.current i c = some (call, .op op k') ∧
      ∀ r, k r = System.resume c.log call (k' r) := by
  unfold System.next at h
  split at h
  · next call op' k' hc => cases h; exact ⟨call, k', hc, fun _ => rfl⟩
  · cases h

theorem Ok.step {i : ι} {c : Client} {w w' : World} {op : Op} {k : op.Res → Client} {r : op.Res}
    (h : Ok S i c w) (hn : S.next i c = some ⟨op, k⟩) (hs : World.Sem (S.owner i) op w r w') :
    Guar (S.owner i) (S.manager i).ttl_seconds w w' ∧ Ok S i (k r) w' := by
  obtain ⟨call, k', hc, hk⟩ := next_eq_some hn
  obtain ⟨hG, hw⟩ := h.current_wp hc w (.refl _ _) r w' hs
  have hh : ∀ x ∈ c.handles, x.owner = S.owner i ∧ Issued x w' := fun x hx =>
    ⟨(h.handles x hx).1, (h.handles x hx).2.forward hG.toForward⟩
  refine ⟨hG, ?_⟩
  rw [hk]
  rcases hp : k' r with res | ⟨op', k''⟩ <;> rw [hp] at hw
  · refine ⟨hG.bounded h.bounded, hG.exact h.exact, fun x hx => ?_, fun _ _ hb => by cases hb⟩
    obtain ⟨⟨cl, out⟩, hmem, hout⟩ := List.mem_filterMap.1 hx
    rcases List.mem_cons.1 hmem with heq | hold
    · cases heq
      rcases hres : res.1 with e | y
      · rw [hres] at hout; cases hout
      · rw [hres] at hout
        exact hw.handle x (by rw [hres]; exact congrArg _ hout)
    · exact hh x (List.mem_filterMap.2 ⟨(cl, out), hold, hout⟩)
  · refine ⟨hG.bounded h.bounded, hG.exact h.exact, hh, fun cl p hb => ?_⟩
    cases hb
    exact ⟨⟨op', k'', rfl⟩, hw⟩

theorem outline (S : System ι) : Outline (fun i => World.Sem (S.owner i)) World.Env S.next
    (fun i => Rely (S.owner i)) (fun i => Guar (S.owner i) (S.manager i).ttl_seconds) (Ok S) where
  stable _ _ _ _ h hR := h.rely hR
  step _ _ _ _ _ _ _ h hn hs := h.step hn hs
  compat _ _ _ _ hij h := h.rely (S.distinct.ne hij)
  env _ _ _ h := env_rely h

theorem System.Start.ok {c : Config ι World Client} (h : S.Start c) (i : ι) :
    Ok S i (c.thread i) c.world where
  bounded e he := absurd (he.names_iff.2 rfl) (h.unnamed i)
  exact hn := absurd hn (h.unnamed i)
  handles x hx := by rw [h.idle i] at hx; cases hx
  busy call p hb := by rw [h.idle i] at hb; cases hb

/-! ## A handle that is not stored any more -/

/-- The handle's revision is not the lease object. -/
def Stale (h : LeaseHandle) (w : World) : Prop := ∀ x, w.lease = some x → x.etag ≠ h.etag

theorem Stale.forward {h : LeaseHandle} {w w' : World} (hs : Stale h w)
    (hi : h.etag < w.store.revision) (hf : Forward w w') : Stale h w' := hf.store.stale hi hs

/-- What a call may do from a stale handle on: fail, with the lease as it was. -/
abbrev DeadWp {α : Type} (o : LeaseOwner) (h : LeaseHandle) (c : Cmd Unit α) : Prop :=
  ∀ w, c.wp (World.Sem o) (fun _ w' => Stale h w') (fun w w' => w'.lease = w.lease)
    (fun r _ _ => ∃ e, r = .error e) () w

theorem observe_dead {o : LeaseOwner} {h : LeaseHandle} {before : String} {α : Type}
    {f : LeaseRecord → Cmd Unit α} : DeadWp o h (LeaseManager.observe h before >>= f) := by
  intro w
  simp only [LeaseManager.observe, Cmd.wp_bind]
  intro w' hst r w'' hsem
  obtain ⟨-, hact⟩ := hsem
  cases hact with
  | getFailed e => exact ⟨rfl, e, rfl⟩
  | get =>
    refine ⟨rfl, ?_⟩
    have hst' : ∀ x, w'.store.get LEASE_KEY = some x → x.etag ≠ h.etag := hst
    rcases hx : w'.store.get LEASE_KEY with _ | x
    · exact ⟨_, rfl⟩
    · simp only [Conc.wp_ret, Cmd.after_ok, if_pos (hst' x hx)]
      exact ⟨_, rfl⟩

theorem now_dead {o : LeaseOwner} {h : LeaseHandle} {α : Type} {f : Nat → Cmd Unit α}
    (hf : ∀ t, DeadWp o h (f t)) : DeadWp o h (LeaseManager.now >>= f) := by
  intro w
  simp only [LeaseManager.now, Cmd.wp_bind]
  intro w' _ r w'' hsem
  obtain ⟨-, hact⟩ := hsem
  cases hact
  refine ⟨rfl, ?_⟩
  simp only [Conc.wp_ret, Cmd.after_ok]
  split
  · exact hf _ _
  · exact ⟨_, rfl⟩

theorem bind_dead {o : LeaseOwner} {h : LeaseHandle} {α β : Type} {c : Cmd Unit α}
    {f : α → Cmd Unit β} (hc : DeadWp o h c) : DeadWp o h (c >>= f) := by
  intro w
  refine Cmd.wp_bind.2 (Cmd.wp_mono (hc w) fun r st w' hr => ?_)
  obtain ⟨e, rfl⟩ := hr
  exact ⟨e, rfl⟩

theorem command_dead {o : LeaseOwner} {m : LeaseManager} {call : Call} {h : LeaseHandle}
    (hh : call.handle? = some h) : DeadWp o h (call.command m o) := by
  cases call with
  | acquire => cases hh
  | renew h' =>
    cases hh
    exact bind_dead (now_dead fun _ => observe_dead)
  | release h' =>
    cases hh
    exact bind_dead (now_dead fun _ => observe_dead)
  | assert_batch_window h' batch safety bounds =>
    cases hh
    refine bind_dead ?_
    unfold LeaseManager.assert_batch_window
    split
    · exact absurd bounds (by omega)
    · exact observe_dead

/-- The calls on `h` that client `i` began after its first `n` are dead. -/
structure Dead (i : ι) (h : LeaseHandle) (n : Nat) (c : Config ι World Client) : Prop where
  issued : h.etag < c.world.store.revision
  stale : Stale h c.world
  calls : ∀ call p, (c.thread i).busy = some (call, p) → call.handle? = some h →
    n ≤ (c.thread i).log.length → ∀ w, Conc.wp (World.Sem (S.owner i)) (fun _ w' => Stale h w')
      (fun w w' => w'.lease = w.lease) p (fun r _ => ∃ e, r.1 = .error e) w

theorem Dead.current {i : ι} {h : LeaseHandle} {n : Nat} {c : Config ι World Client}
    (hd : Dead (S := S) i h n c) {call : Call} {p : Proc (Outcome × Unit)}
    (hc : S.current i (c.thread i) = some (call, p)) (hh : call.handle? = some h)
    (hn : n ≤ (c.thread i).log.length) (w : World) :
    Conc.wp (World.Sem (S.owner i)) (fun _ w' => Stale h w') (fun w w' => w'.lease = w.lease) p
      (fun r _ => ∃ e, r.1 = .error e) w := by
  unfold System.current at hc
  split at hc
  · next b hb => cases hc; exact hd.calls _ _ hb hh hn w
  · split at hc
    · split at hc
      · cases hc; exact command_dead hh w
      · cases hc
    · cases hc

/-- Another owner's record is never the revision of one of `i`'s handles. -/
theorem stale_of_names {i : ι} {c : Config ι World Client} {h : LeaseHandle} {o : LeaseOwner}
    (hok : Ok S i (c.thread i) c.world) (hh : h ∈ (c.thread i).handles) (hn : c.world.names o)
    (ho : o ≠ S.owner i) : Dead (S := S) i h (c.thread i).begun c where
  issued := (hok.handles h hh).2.etag
  stale x hx he := by
    obtain ⟨howner, hiss⟩ := hok.handles h hh
    obtain ⟨y, r, hy, hr, hro⟩ := hn
    rw [hx] at hy; cases hy
    rw [parse_of_exact (hiss.exact x hx he)] at hr; cases hr
    exact ho ((hiss.owner o hro).trans howner)
  calls call p hb _ hn := by
    simp only [Client.begun, hb, Option.isSome_some, if_true] at hn
    omega

/-! ## Runs -/

variable [DecidableEq ι]

/-- Every client's knowledge holds in every configuration a run reaches. -/
theorem ok_of_steps {c c' : Config ι World Client} {tr} (h : S.Start c) (hs : S.Steps c tr c') (i : ι) :
    Ok S i (c'.thread i) c'.world :=
  (outline S).steps (fun i => h.ok i) hs i

theorem step_forward {c c' : Config ι World Client} {l} (h : S.Step c l c') :
    Forward c.world c'.world := by
  cases h with
  | client _ hs => exact (act_forward hs.2).1
  | env he => exact (env_forward he).1

theorem steps_forward {c c' : Config ι World Client} {tr} (h : S.Steps c tr c') :
    Forward c.world c'.world := by
  induction h with
  | nil => exact .refl _
  | cons hs _ ih => exact (step_forward hs).trans ih

/-- Client `i` stored a free lease record in a step of the run. -/
def Released (i : ι) (tr : List (Option (ι × Op) × Config ι World Client)) : Prop :=
  ∃ l ∈ tr, ∃ v c n, l.1 = some (i, .put LEASE_KEY v c) ∧ l.2.world.lease = some ⟨v, n⟩ ∧
    n + 1 = l.2.world.store.revision ∧ Free l.2.world

/-- The lease names `o` beyond second `t`, or that second has passed. -/
def Safe (o : LeaseOwner) (t : Int) (w : World) : Prop :=
  (∃ e : Nat, Held w o e ∧ t < e) ∨ t < w.seconds

theorem Safe.rely {o : LeaseOwner} {t : Int} {w w' : World} (h : Safe o t w) (hR : Rely o w w') :
    Safe o t w' := by
  have hs := hR.seconds
  rcases h with ⟨e, he, hlt⟩ | hlt
  · rcases hR.keep e he with hl | ⟨-, hle⟩
    · exact .inl ⟨e, he.of_lease hl, hlt⟩
    · exact .inr (by omega)
  · exact .inr (by omega)

/-- The owner itself gives up its window only by a release. -/
theorem Safe.guar {o : LeaseOwner} {t : Int} {ttl : Nat} {w w' : World} (h : Safe o t w)
    (hG : Guar o ttl w w') : Safe o t w' ∨ (Free w' ∧ w'.lease ≠ w.lease) := by
  have hs := hG.seconds
  rcases h with ⟨e, he, hlt⟩ | hlt
  · rcases hG.lease with hl | hc
    · exact .inl (.inl ⟨e, he.of_lease hl, hlt⟩)
    · cases hc with
      | take e' htake _ _ => exact absurd rfl (htake o e he).1
      | renew e₁ e' hheld hle hheld' _ =>
        obtain ⟨-, rfl⟩ := he.unique hheld
        exact .inl (.inl ⟨e', hheld', by omega⟩)
      | release e₁ hheld hfree =>
        refine .inr ⟨hfree, fun heq => ?_⟩
        exact hfree.not_names o ((he.of_lease heq).names_iff.2 rfl)
  · exact .inl (.inr (by omega))

/-- One step of the system keeps a window open, or is the owner's release. -/
theorem safe_step {c c' : Config ι World Client} {l} {i : ι} {t : Int}
    (hok : ∀ i, Ok S i (c.thread i) c.world) (hs : S.Step c l c') (h : Safe (S.owner i) t c.world) :
    Safe (S.owner i) t c'.world ∨ Released i [(l, c')] := by
  cases hs with
  | @client j op k r w hn hact =>
    have hG := ((hok j).step hn hact).1
    by_cases hij : i = j
    · subst hij
      rcases h.guar hG with hsafe | ⟨hfree, hne⟩
      · exact .inl hsafe
      · obtain ⟨-, hl | ⟨v, cond, rfl, -, hl, hrev⟩⟩ := act_forward hact.2
        · exact absurd hl hne
        · exact .inr ⟨_, List.mem_singleton.2 rfl, v, cond, _, rfl, hl, hrev.symm, hfree⟩
    · exact .inl (h.rely (hG.rely (S.distinct.ne hij)))
  | env he => exact .inl (h.rely (env_rely he))

theorem safe_steps {c c' : Config ι World Client} {tr} {i : ι} {t : Int}
    (hok : ∀ i, Ok S i (c.thread i) c.world) (hs : S.Steps c tr c') (h : Safe (S.owner i) t c.world) :
    Safe (S.owner i) t c'.world ∨ Released i tr := by
  induction hs with
  | nil => exact .inl h
  | @cons c₁ c₂ c₃ l tr hstep _ ih =>
    rcases safe_step hok hstep h with hsafe | ⟨x, hx, hrel⟩
    · rcases ih ((outline S).next_ok hok hstep) hsafe with hdone | ⟨x, hx, hrel⟩
      · exact .inl hdone
      · exact .inr ⟨x, List.mem_cons_of_mem _ hx, hrel⟩
    · exact .inr ⟨x, List.mem_cons.2 (.inl (List.mem_singleton.1 hx)), hrel⟩

/-- What is known of a call in the step that returns it. -/
theorem returned_post {c c' : Config ι World Client} {i : ι} {op : Op} {call : Call} {r : Outcome}
    (hok : Ok S i (c.thread i) c.world) (hs : S.Step c (some (i, op)) c')
    (hlog : (c'.thread i).log = (call, r) :: (c.thread i).log) : Post (S.owner i) call r c'.world := by
  cases hs with
  | @client _ _ k a w hn hact =>
    obtain ⟨call', k', hc, hk⟩ := next_eq_some hn
    obtain ⟨-, hw⟩ := hok.current_wp hc c.world (.refl _ _) a w hact
    simp only [Function.update_self, hk] at hlog
    rcases hp : k' a with res | ⟨op', k''⟩ <;> rw [hp] at hw hlog
    · simp only [System.resume, List.cons.injEq, Prod.mk.injEq, and_true] at hlog
      obtain ⟨rfl, rfl⟩ := hlog
      exact hw
    · exact absurd hlog.symm (List.cons_ne_self _ _)

theorem Dead.step {i : ι} {h : LeaseHandle} {n : Nat} {c c' : Config ι World Client} {l}
    (hd : Dead (S := S) i h n c) (hs : S.Step c l c') : Dead (S := S) i h n c' := by
  have hf := step_forward hs
  refine ⟨Nat.lt_of_lt_of_le hd.issued hf.store.revision, hd.stale.forward hd.issued hf, ?_⟩
  intro call p hb hh hn w
  cases hs with
  | env he => exact hd.calls call p hb hh hn w
  | @client j op k r w' hnx hact =>
    by_cases hij : i = j
    · subst hij
      obtain ⟨call', k', hc, hk⟩ := next_eq_some hnx
      simp only [Function.update_self, hk] at hb hn
      rcases hp : k' r with res | ⟨op', k''⟩ <;> rw [hp] at hb hn
      · cases hb
      · simp only [System.resume, Option.some.injEq, Prod.mk.injEq] at hb hn
        obtain ⟨rfl, rfl⟩ := hb
        have hw := hd.current hc hh hn c.world c.world hd.stale r w' hact
        rw [hp] at hw
        intro w₁ hst
        exact hw.2 w₁ hst
    · simp only [Function.update_of_ne hij] at hb hn
      exact hd.calls call p hb hh hn w

/-- A step of client `i` within a later call on a stale handle. -/
theorem Dead.within {i : ι} {h : LeaseHandle} {n : Nat} {c c' : Config ι World Client} {op : Op}
    {call : Call} {p : Proc (Outcome × Unit)} (hd : Dead (S := S) i h n c)
    (hs : S.Step c (some (i, op)) c') (hc : S.current i (c.thread i) = some (call, p))
    (hh : call.handle? = some h) (hn : n ≤ (c.thread i).log.length) :
    c'.world.lease = c.world.lease ∧
      ∀ r, (c'.thread i).log = (call, r) :: (c.thread i).log → ∃ e, r = .error e := by
  cases hs with
  | @client _ _ k a w' hnx hact =>
    obtain ⟨call', k', hc', hk⟩ := next_eq_some hnx
    rw [hc'] at hc; cases hc
    obtain ⟨hl, hw⟩ := hd.current hc' hh hn c.world c.world hd.stale a w' hact
    refine ⟨hl, fun r hlog => ?_⟩
    simp only [Function.update_self, hk] at hlog
    rcases hp : k' a with res | ⟨op', k''⟩ <;> rw [hp] at hw hlog
    · simp only [System.resume, List.cons.injEq, Prod.mk.injEq, and_true, true_and] at hlog
      rw [← hlog]; exact hw
    · exact absurd hlog.symm (List.cons_ne_self _ _)

theorem Dead.steps {i : ι} {h : LeaseHandle} {n : Nat} {c c' : Config ι World Client} {tr}
    (hd : Dead (S := S) i h n c) (hs : S.Steps c tr c') : Dead (S := S) i h n c' :=
  hs.invariant (fun _ _ _ hd hs => hd.step hs) hd

/-- A stopped client takes no step. -/
theorem stopped_no_step {i : ι} {c c' : Config ι World Client} {op : Op}
    (h : c.world.stopped (S.owner i)) : ¬ S.Step c (some (i, op)) c' := by
  intro hs
  cases hs with
  | client _ hact => exact hact.1 h

/-- Only an expired lease of a stopped owner changes hands. -/
theorem displaced_stopped {c c' : Config ι World Client} {l} {i : ι} {o : LeaseOwner}
    (hok : ∀ i, Ok S i (c.thread i) c.world) (hs : S.Step c l c') (hn : c.world.names (S.owner i))
    (hn' : c'.world.names o) (ho : o ≠ S.owner i) : c.world.stopped (S.owner i) := by
  obtain ⟨e, he⟩ := (hok i).exact hn
  have hsame : c'.world.lease ≠ c.world.lease := fun hl =>
    ho ((he.of_lease hl).names_iff.1 hn')
  cases hs with
  | env henv => exact absurd (env_forward henv).2 hsame
  | @client j op k r w hnx hact =>
    rcases ((hok j).step hnx hact).1.lease with hl | hc
    · exact absurd hl hsame
    · cases hc with
      | take e' htake _ _ => exact (htake _ e he).2.1
      | renew e₁ e' hheld _ hheld' _ =>
        rw [← (he.unique hheld).1] at hheld'
        exact absurd (hheld'.names_iff.1 hn') ho
      | release e₁ _ hfree => exact absurd hn' (hfree.not_names o)

/-- **Mutual exclusion and fencing.** In every run of any number of clients:

1. a returned window check keeps every other owner out until the window ends or its owner releases;
2. when another owner's record replaces the record that names an owner, that owner's run has
   stopped: it takes no further step;
3. while another owner is stored, a handle is dead: no call begun on it from then on succeeds or
   changes the lease. -/
theorem lease_mutual_exclusion (S : System ι) {c₀ c : Config ι World Client} {tr}
    (h₀ : S.Start c₀) (run : S.Steps c₀ tr c) (i : ι) :
    (∀ c₁ op h batch safety bounds, S.Step c (some (i, op)) c₁ →
      (c₁.thread i).log = (.assert_batch_window h batch safety bounds, .ok none) :: (c.thread i).log →
      ∀ tr₂ c₂, S.Steps c₁ tr₂ c₂ →
        (c₂.world.clock : Int) ≤ c₁.world.clock + (batch + safety) * 1000000 →
        Released i tr₂ ∨ ∀ o, c₂.world.names o → o = S.owner i) ∧
    (∀ l c₁ o, S.Step c l c₁ → c.world.names (S.owner i) → c₁.world.names o → o ≠ S.owner i →
      ∀ tr₂ c₂ op c₃, S.Steps c₁ tr₂ c₂ → ¬ S.Step c₂ (some (i, op)) c₃) ∧
    (∀ h o, h ∈ (c.thread i).handles → c.world.names o → o ≠ S.owner i →
      ∀ tr₂ c₂ op c₃ call p, S.Steps c tr₂ c₂ → S.Step c₂ (some (i, op)) c₃ →
        S.current i (c₂.thread i) = some (call, p) → call.handle? = some h →
        (c.thread i).begun ≤ (c₂.thread i).log.length →
        c₃.world.lease = c₂.world.lease ∧
          ∀ r, (c₃.thread i).log = (call, r) :: (c₂.thread i).log → ∃ e, r = .error e) := by
  have hok := ok_of_steps h₀ run
  refine ⟨fun c₁ op h batch safety bounds hs hlog tr₂ c₂ run₂ hwin => ?_,
    fun l c₁ o hs hn hn' ho tr₂ c₂ op c₃ run₂ => ?_,
    fun h o hh hn ho tr₂ c₂ op c₃ call p run₂ hs hc hch hbegun => ?_⟩
  · obtain ⟨e, he, hlt⟩ := (returned_post (hok i) hs hlog).window h batch safety bounds rfl rfl
    have hsafe : Safe (S.owner i) (c₁.world.seconds + batch + safety) c₁.world := .inl ⟨e, he, hlt⟩
    rcases safe_steps ((outline S).next_ok hok hs) run₂ hsafe with (⟨e', he', -⟩ | hpast) | hrel
    · exact .inr fun o ho => he'.names_iff.1 ho
    · exfalso
      simp only [World.seconds] at hpast
      omega
    · exact .inl hrel
  · have hstop := displaced_stopped hok hs hn hn' ho
    exact stopped_no_step ((steps_forward run₂).stopped _ ((step_forward hs).stopped _ hstop))
  · exact ((stale_of_names (hok i) hh hn ho).steps run₂).within hs hc hch hbegun

/-! ## One client undisturbed

A run with a passed window check: two owners, one of which acquires the lease and checks it. -/

/-- An undisturbed answer of the world to `o`'s run. -/
def reply (o : LeaseOwner) : (op : Op) → World → op.Res × World
  | .get key, w => (.ok (w.store.get key), w)
  | .put key v c, w =>
    if c.holds (w.store.get key) ∧ key = LEASE_KEY then (.ok ⟨v, w.store.revision⟩, w.stored o key v)
    else (.error (.RemoteStoreError 0 key), w)
  | .delete key, w => (.error (.RemoteStoreError 0 key), w)
  | .list_objects under, w => (.error (.RemoteStoreError 0 under), w)
  | .clock, w => (w.clock, w)
  | .terminal_proof _, w => (.ok false, w)
  | .sleep n, w => ((), { w with clock := w.clock + n * 1000000 })

theorem reply_act (o : LeaseOwner) (op : Op) (w : World) :
    World.Act o op w (reply o op w).1 (reply o op w).2 := by
  cases op with
  | put key v c =>
    simp only [reply]
    split
    · next h => exact .put h.1 (.inl h.2)
    · exact .putFailed _
  | get key => exact .get
  | delete key => exact .deleteFailed _
  | list_objects under => exact .list_objects _
  | clock => exact .clock
  | terminal_proof o' => exact .terminal_proof false (by simp)
  | sleep n => exact .sleep _ le_rfl

theorem act_stopped {o : LeaseOwner} {op : Op} {w w' : World} {r : op.Res}
    (h : World.Act o op w r w') : w'.stopped = w.stopped := by cases h <;> rfl

/-- A call that nobody disturbs runs to its end, and its last operation returns it. -/
theorem undisturbed {i : ι} {call : Call} : ∀ {p : Proc (Outcome × Unit)} {c : Config ι World Client},
    S.current i (c.thread i) = some (call, p) → (∃ o k, p = .op o k) →
    ¬ c.world.stopped (S.owner i) →
    ∃ tr c' op c'', S.Steps c tr c' ∧ S.Step c' (some (i, op)) c'' ∧
      (c'.thread i).log = (c.thread i).log ∧ c''.world = (p.run (reply (S.owner i)) c.world).2 ∧
      c''.thread = Function.update c.thread i
        ⟨(call, (p.run (reply (S.owner i)) c.world).1.1) :: (c.thread i).log, none⟩ := by
  intro p
  induction p with
  | ret a => rintro c - ⟨o, k, h⟩; cases h
  | op o k ih =>
    intro c hc _ hrun
    have hn : S.next i (c.thread i) = some ⟨o, fun r => System.resume (c.thread i).log call (k r)⟩ := by
      rw [System.next, hc]
    have hs : S.Step c (some (i, o)) _ := .client hn ⟨hrun, reply_act (S.owner i) o c.world⟩
    rcases hk : k (reply (S.owner i) o c.world).1 with a | ⟨o', k'⟩
    · refine ⟨[], c, o, _, .nil, hs, rfl, ?_, ?_⟩
      · simp [Prog.run, hk]
      · simp [Prog.run, hk, System.resume]
    · simp only [hk, System.resume] at hs
      obtain ⟨tr, c', op, c'', hrun', hlast, hlog, hw, ht⟩ :=
        ih _ (c := ⟨(reply (S.owner i) o c.world).2, Function.update c.thread i
          ⟨(c.thread i).log, some (call, .op o' k')⟩⟩)
          (by simp [System.current, hk]) ⟨o', k', hk⟩ (by rw [act_stopped (reply_act _ o _)]; exact hrun)
      refine ⟨_, c', op, c'', .cons hs hrun', hlast, by simpa using hlog, ?_, ?_⟩
      · rw [hw]; simp [Prog.run]
      · rw [ht]; simp [Prog.run]

section
variable {σ : Type} {o : LeaseOwner} {st : σ} {w : World}

theorem now_run (h : w.seconds < Calendar.maxSeconds) :
    (LeaseManager.now : Cmd σ Nat).run (reply o) st w = ((.ok w.seconds, st), w) := by
  simp only [LeaseManager.now, Cmd.run_bind]
  exact congrArg (fun c : Cmd σ Nat => c.run (reply o) st w) (if_pos h)

theorem write_run {r : LeaseRecord} {c : Cond} {body : ByteArray}
    (hb : Serialize.canonical_bytes r.to_dict = .ok body) (hc : c.holds w.lease = true) :
    (LeaseManager.write r c).run (reply o) st w =
      ((.ok ⟨⟨body, LEASE_METADATA⟩, w.store.revision⟩, st), w.stored o LEASE_KEY ⟨body, LEASE_METADATA⟩) := by
  have hc' : c.holds (w.store.get LEASE_KEY) = true := hc
  simp only [LeaseManager.write, Cmd.run_bind, Cmd.run_lift, hb, Cmd.andThen_ok, Cmd.run_put, reply,
    hc', and_self, if_true]

/-- A free key is acquired. -/
theorem acquire_run {m : LeaseManager} (hfree : w.lease = none)
    (hmax : w.seconds + m.ttl_seconds < Calendar.maxSeconds) :
    ∃ r x, m.held_record o w.seconds = .ok r ∧ Wrote r x w (w.stored o LEASE_KEY x.value) ∧
      (m.acquire o).run (reply o) st w =
        ((.ok ⟨o, r, x.etag, false⟩, st), w.stored o LEASE_KEY x.value) := by
  obtain ⟨r, hr⟩ : ∃ r, m.held_record o w.seconds = .ok r := held_record_ok hmax
  obtain ⟨body, hb⟩ := Serialize.canonical_bytes_ok r.to_dict_clean
  obtain ⟨-, -, hs, -⟩ := held_record_spec hr
  refine ⟨r, ⟨⟨body, LEASE_METADATA⟩, w.store.revision⟩, hr, wrote_stored hs hb w, ?_⟩
  have hget : w.store.get LEASE_KEY = none := hfree
  have hwrite : (LeaseManager.write r .ifNoneMatch).run (reply o) st w =
      ((.ok ⟨⟨body, LEASE_METADATA⟩, w.store.revision⟩, st), w.stored o LEASE_KEY ⟨body, LEASE_METADATA⟩) :=
    write_run hb (by rw [hfree]; rfl)
  simp only [LeaseManager.acquire, Cmd.run_bind, now_run (show w.seconds < Calendar.maxSeconds by omega),
    Cmd.andThen_ok, Cmd.run_get, reply, hget, LeaseManager.take, Cmd.run_lift, hr, hwrite, Cmd.run_pure]

/-- A handle whose record is stored and lasts long enough passes the window check. -/
theorem assert_run {h : LeaseHandle} {x : StoredObject} {batch safety : Int}
    (hmax : w.seconds < Calendar.maxSeconds) (hb : 1 ≤ batch ∧ 0 ≤ safety) (hx : w.lease = some x)
    (he : x.etag = h.etag) (hr : LeaseManager.require_exact_object x = .ok h.record)
    (hst : h.record.status = .held) (ho : h.record.owner = some h.owner) {s : String} {e : Nat}
    (hs : h.record.expires_utc = some s) (hp : Calendar.strptime s = some e)
    (hlt : w.seconds + batch + safety < e) :
    (LeaseManager.assert_batch_window h batch safety).run (reply o) st w = ((.ok (), st), w) := by
  have hget : w.store.get LEASE_KEY = some x := hx
  unfold LeaseManager.assert_batch_window
  rw [if_neg (by omega)]
  simp only [LeaseManager.observe, Cmd.run_bind, Cmd.run_get, reply, hget, Cmd.andThen_ok]
  rw [if_neg (not_not.2 he)]
  simp only [Cmd.run_lift, hr, Cmd.andThen_ok]
  rw [if_neg (by simp [hst, ho])]
  simp only [hs, LeaseManager.parse_utc, hp, Cmd.run_bind, Cmd.run_lift, Cmd.andThen_ok, now_run hmax]
  rw [if_neg (by omega)]
  rfl

end

theorem publisher_valid : LeaseOwnerFields.post_init
    ⟨"kogeler/dkc-linux", "101", "1", "publish", "0123456789abcdef0123456789abcdef"⟩ = .ok () := by decide

theorem site_valid : LeaseOwnerFields.post_init
    ⟨"kogeler/dkc-linux", "102", "1", "site", "fedcba9876543210fedcba9876543210"⟩ = .ok () := by decide

theorem ttl_valid : 60 ≤ 900 := by decide

def publisher : LeaseOwner where
  repository := "kogeler/dkc-linux"
  workflow_run_id := "101"
  run_attempt := "1"
  operation := "publish"
  nonce := "0123456789abcdef0123456789abcdef"
  valid := publisher_valid

def site : LeaseOwner where
  repository := "kogeler/dkc-linux"
  workflow_run_id := "102"
  run_attempt := "1"
  operation := "site"
  nonce := "fedcba9876543210fedcba9876543210"
  valid := site_valid

/-- Both owners acquire once and check one batch of 120 s. -/
def pair : System Bool where
  owner b := if b then publisher else site
  manager _ := ⟨900, 300, ttl_valid⟩
  strategy _ log :=
    match log with
    | [] => some .acquire
    | [(_, .ok (some h))] => some (.assert_batch_window h 120 60 (by decide))
    | _ => none
  distinct := by decide

def emptyWorld : World := ⟨.empty, 63000000000000000, fun _ => False, [], fun _ => 0⟩

def pairStart : Config Bool World Client := ⟨emptyWorld, fun _ => ⟨[], none⟩⟩

/-- The publisher acquires and passes its window check. -/
theorem pair_checked : ∃ (tr : _) (c c₁ : Config Bool World Client) (op : Op) (h : LeaseHandle),
    pair.Steps pairStart tr c ∧ pair.Step c (some (true, op)) c₁ ∧
      (c₁.thread true).log = (.assert_batch_window h 120 60 (by decide), .ok none) :: (c.thread true).log := by
  obtain ⟨r, x, hr, hw, hrun⟩ := @acquire_run Unit publisher () emptyWorld (pair.manager true) rfl (by decide)
  obtain ⟨hst, ho, -, s, hs, hp⟩ := held_record_spec hr
  have hacq : (pair.program true .acquire).run (reply publisher) emptyWorld =
      ((.ok (some ⟨publisher, r, x.etag, false⟩), ()), emptyWorld.stored publisher LEASE_KEY x.value) := by
    refine (Cmd.run_bind (h := reply publisher) (c := (pair.manager true).acquire publisher)).trans ?_
    rw [hrun]
    rfl
  obtain ⟨tr₁, c', op', c'', hrun₁, hlast₁, -, hw₁, ht₁⟩ :=
    undisturbed (S := pair) (i := true) (p := pair.program true .acquire) (c := pairStart) rfl ⟨_, _, rfl⟩ id
  simp only [show pair.owner true = publisher from rfl, pairStart, hacq] at hw₁ ht₁
  have hlog : c''.thread true = ⟨[(.acquire, .ok (some ⟨publisher, r, x.etag, false⟩))], none⟩ := by
    rw [ht₁, Function.update_self]
  have hassert : (LeaseManager.assert_batch_window ⟨publisher, r, x.etag, false⟩ 120 60).run
      (reply publisher) () (emptyWorld.stored publisher LEASE_KEY x.value) =
        ((.ok (), ()), emptyWorld.stored publisher LEASE_KEY x.value) :=
    assert_run (by rw [hw.seconds]; decide) (by decide) hw.lease rfl hw.exact hst ho hs hp (by rw [hw.seconds]; decide)
  have hnext : pair.current true (c''.thread true) =
      some (.assert_batch_window ⟨publisher, r, x.etag, false⟩ 120 60 (by decide),
        pair.program true (.assert_batch_window ⟨publisher, r, x.etag, false⟩ 120 60 (by decide))) := by
    simp [System.current, hlog, pair, Call.handle?, Client.handles]
  obtain ⟨tr₂, c, op, c₁, hrun₂, hlast₂, hlog₂, -, ht₂⟩ :=
    undisturbed hnext ⟨_, _, rfl⟩ (by rw [hw₁]; exact id)
  refine ⟨_, c, c₁, op, ⟨publisher, r, x.etag, false⟩, hrun₁.append (.cons hlast₁ hrun₂), hlast₂, ?_⟩
  have hcheck : (pair.program true (.assert_batch_window ⟨publisher, r, x.etag, false⟩ 120 60
      (by decide))).run (reply publisher) c''.world = ((.ok none, ()), c''.world) := by
    rw [hw₁]
    refine (Cmd.run_bind (h := reply publisher)
      (c := LeaseManager.assert_batch_window ⟨publisher, r, x.etag, false⟩ 120 60)).trans ?_
    rw [hassert]
    rfl
  rw [ht₂, Function.update_self, hlog₂]
  simp only [show pair.owner true = publisher from rfl, hcheck]

theorem pairStart_start : pair.Start pairStart where
  idle _ := rfl
  unnamed i := by
    rintro ⟨x, r, hx, -⟩
    cases hx

/-- After the check nobody but the publisher is named for 180 s, unless it releases. -/
theorem lease_mutual_exclusion_pair : ∃ (tr : _) (c c₁ : Config Bool World Client) (op : Op),
    pair.Steps pairStart tr c ∧ pair.Step c (some (true, op)) c₁ ∧
      ∀ tr₂ c₂, pair.Steps c₁ tr₂ c₂ → (c₂.world.clock : Int) ≤ c₁.world.clock + (120 + 60) * 1000000 →
        Released true tr₂ ∨ ∀ o, c₂.world.names o → o = publisher := by
  obtain ⟨tr, c, c₁, op, h, hrun, hlast, hlog⟩ := pair_checked
  exact ⟨tr, c, c₁, op, hrun, hlast,
    (lease_mutual_exclusion pair pairStart_start hrun true).1 c₁ op h 120 60 (by decide) hlast hlog⟩

end LeaseRuns
