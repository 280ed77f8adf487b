import DkcLinux.World

/-!
# Lease safety: what one owner's calls do to the shared lease

`Changed` lists the ways a run changes the lease object, `Guar` says a run does nothing else, and
`Rely` is what an owner may count on while the others run:

* while it is named and has not stopped, nobody else touches the lease;
* nobody else ever writes a record that names it.
-/

open Conc

namespace LeaseSafety

/-! ## What is stored -/

/-- A well-formed lease object that names `o` until second `e`. -/
def Names (x : StoredObject) (o : LeaseOwner) (e : Nat) : Prop :=
  ∃ r s, LeaseManager.require_exact_object x = .ok r ∧ r.status = .held ∧ r.owner = some o ∧
    r.expires_utc = some s ∧ Calendar.strptime s = some e

def Held (w : World) (o : LeaseOwner) (e : Nat) : Prop := ∃ x, w.lease = some x ∧ Names x o e

def Free (w : World) : Prop :=
  ∃ x r, w.lease = some x ∧ LeaseManager.require_exact_object x = .ok r ∧ r.status = .free

theorem Held.unique {w : World} {o o' : LeaseOwner} {e e' : Nat} (h : Held w o e) (h' : Held w o' e') :
    o = o' ∧ e = e' := by
  obtain ⟨x, hx, r, s, hr, -, ho, hs, he⟩ := h
  obtain ⟨x', hx', r', s', hr', -, ho', hs', he'⟩ := h'
  rw [hx] at hx'; cases hx'
  rw [hr] at hr'; cases hr'
  rw [ho] at ho'; rw [hs] at hs'; cases hs'
  rw [he] at he'
  exact ⟨Option.some.inj ho', Option.some.inj he'⟩

theorem parse_of_exact {x : StoredObject} {r : LeaseRecord}
    (h : LeaseManager.require_exact_object x = .ok r) : parse_lease x.value.body = .ok r := by
  unfold LeaseManager.require_exact_object at h
  split at h
  · cases h
  · exact h

theorem Held.names_iff {w : World} {o o' : LeaseOwner} {e : Nat} (h : Held w o e) :
    w.names o' ↔ o' = o := by
  obtain ⟨x, hx, r, s, hr, -, ho, -⟩ := h
  have hparse := parse_of_exact hr
  constructor
  · rintro ⟨x', r', hx', hr', ho'⟩
    rw [hx] at hx'; cases hx'
    rw [hparse] at hr'; cases hr'
    exact Option.some.inj (ho'.symm.trans ho)
  · rintro rfl
    exact ⟨x, r, hx, hparse, ho⟩

theorem Free.not_names {w : World} (h : Free w) (o : LeaseOwner) : ¬ w.names o := by
  rintro ⟨x', r', hx', hr', ho'⟩
  obtain ⟨x, r, hx, hr, hst⟩ := h
  rw [hx] at hx'; cases hx'
  rw [parse_of_exact hr] at hr'; cases hr'
  rw [(LeaseRecord.free_cases hst).1] at ho'
  cases ho'

theorem Held.of_lease {w w' : World} {o : LeaseOwner} {e : Nat} (h : Held w o e)
    (hl : w'.lease = w.lease) : Held w' o e := by
  obtain ⟨x, hx, hn⟩ := h
  exact ⟨x, hl.trans hx, hn⟩

/-! ## Guarantee and rely -/

/-- The world only moves forward. -/
structure Forward (w w' : World) : Prop where
  store : CondStore.Evolves w.store w'.store
  clock : w.clock ≤ w'.clock
  stopped : ∀ o, w.stopped o → w'.stopped o

theorem Forward.refl (w : World) : Forward w w := ⟨.refl _, le_rfl, fun _ h => h⟩

theorem Forward.trans {a b c : World} (h : Forward a b) (h' : Forward b c) : Forward a c :=
  ⟨h.store.trans h'.store, h.clock.trans h'.clock, fun o ho => h'.stopped o (h.stopped o ho)⟩

theorem Forward.seconds {w w' : World} (h : Forward w w') : w.seconds ≤ w'.seconds :=
  Nat.div_le_div_right h.clock

/-- The ways `o`'s run, whose leases last `ttl` seconds, changes the lease object. -/
inductive Changed (o : LeaseOwner) (ttl : Nat) (w w' : World) : Prop
  /-- Nothing, a free record, or an expired record of a stopped run is replaced. -/
  | take (e' : Nat) : (∀ o' e, Held w o' e → o' ≠ o ∧ w.stopped o' ∧ e ≤ w.seconds) →
      Held w' o e' → e' ≤ w.seconds + ttl → Changed o ttl w w'
  | renew (e e' : Nat) : Held w o e → e ≤ e' → Held w' o e' → e' ≤ w.seconds + ttl → Changed o ttl w w'
  | release (e : Nat) : Held w o e → Free w' → Changed o ttl w w'

structure Guar (o : LeaseOwner) (ttl : Nat) (w w' : World) : Prop extends Forward w w' where
  lease : w'.lease = w.lease ∨ Changed o ttl w w'

structure Rely (o : LeaseOwner) (w w' : World) : Prop extends Forward w w' where
  keep : ∀ e, Held w o e → w'.lease = w.lease ∨ (w'.stopped o ∧ e ≤ w'.seconds)
  own : w'.names o → w'.lease = w.lease

theorem Rely.refl (o : LeaseOwner) (w : World) : Rely o w w :=
  ⟨.refl w, fun _ _ => .inl rfl, fun _ => rfl⟩

theorem Rely.trans {o : LeaseOwner} {a b c : World} (h : Rely o a b) (h' : Rely o b c) : Rely o a c where
  toForward := h.toForward.trans h'.toForward
  keep e he := by
    rcases h.keep e he with hb | ⟨hb, hs⟩
    · rcases h'.keep e (he.of_lease hb) with hc | hc
      · exact .inl (hc.trans hb)
      · exact .inr hc
    · exact .inr ⟨h'.stopped o hb, hs.trans h'.seconds⟩
  own hn := by
    have hc := h'.own hn
    obtain ⟨x, r, hx, hr⟩ := hn
    exact hc.trans (h.own ⟨x, r, hc ▸ hx, hr⟩)

/-- Another owner's guarantee is allowed by `o`'s rely. -/
theorem Guar.rely {o o' : LeaseOwner} {ttl : Nat} {w w' : World} (hne : o ≠ o')
    (h : Guar o' ttl w w') : Rely o w w' where
  toForward := h.toForward
  keep e he := by
    rcases h.lease with hl | hc
    · exact .inl hl
    · cases hc with
      | take e' htake _ _ =>
        obtain ⟨-, hs, hle⟩ := htake o e he
        exact .inr ⟨h.stopped o hs, hle.trans h.seconds⟩
      | renew e₁ e' hheld _ _ _ => exact absurd (he.unique hheld).1 hne
      | release e₁ hheld _ => exact absurd (he.unique hheld).1 hne
  own hn := by
    rcases h.lease with hl | hc
    · exact hl
    · cases hc with
      | take e' _ hheld _ => exact absurd (hheld.names_iff.1 hn) hne
      | renew e₁ e' _ _ hheld _ => exact absurd (hheld.names_iff.1 hn) hne
      | release e₁ _ hfree => exact absurd hn (hfree.not_names o)

/-- Time, stops and pending requests never touch the lease. -/
theorem env_forward {w w' : World} (h : World.Env w w') : Forward w w' ∧ w'.lease = w.lease := by
  cases h with
  | tick t ht => exact ⟨⟨.refl _, ht, fun _ h => h⟩, rfl⟩
  | stop o => exact ⟨⟨.refl _, le_rfl, fun _ h => .inr h⟩, rfl⟩
  | takeEffect r ps _ _ =>
    have hne : LEASE_KEY ≠ r.key := r.not_lease.symm
    rcases hw : r.write with _ | ⟨v, c⟩ <;> simp only [World.apply, hw]
    · exact ⟨⟨CondStore.evolves_delete _ _, le_rfl, fun _ h => h⟩, CondStore.get_delete_ne _ hne⟩
    · refine ⟨⟨CondStore.evolves_put _ _ _ _, le_rfl, fun _ h => h⟩, ?_⟩
      rcases w.store.put_cases r.key v c with ⟨_, hp⟩ | ⟨_, hp⟩ <;> simp only [World.lease, hp]
      exact CondStore.get_write_ne _ v hne
  | drop ps _ => exact ⟨⟨.refl _, le_rfl, fun _ h => h⟩, rfl⟩

theorem env_rely {o : LeaseOwner} {w w' : World} (h : World.Env w w') : Rely o w w' where
  toForward := (env_forward h).1
  keep _ _ := .inl (env_forward h).2
  own _ := (env_forward h).2

/-- What an operation does to the lease: nothing, or it stores an object there. -/
theorem act_forward {o : LeaseOwner} {op : Op} {w w' : World} {r : op.Res} (h : World.Act o op w r w') :
    Forward w w' ∧ (w'.lease = w.lease ∨ ∃ v c, op = .put LEASE_KEY v c ∧ c.holds w.lease = true ∧
      w'.lease = some ⟨v, w.store.revision⟩ ∧ w'.store.revision = w.store.revision + 1) := by
  have hput : ∀ {key : String} {v : ObjectValue} {c : Cond}, c.holds (w.store.get key) = true →
      Forward w (w.stored o key v) ∧ ((w.stored o key v).lease = w.lease ∨
        ∃ v' c', Op.put key v c = .put LEASE_KEY v' c' ∧ c'.holds w.lease = true ∧
          (w.stored o key v).lease = some ⟨v', w.store.revision⟩ ∧
          (w.stored o key v).store.revision = w.store.revision + 1) := by
    intro key v c hc
    refine ⟨⟨CondStore.evolves_write _ _ _, le_rfl, fun _ h => h⟩, ?_⟩
    by_cases hk : key = LEASE_KEY
    · subst hk
      exact .inr ⟨v, c, rfl, hc, CondStore.get_write_self _ _ _, rfl⟩
    · exact .inl (CondStore.get_write_ne _ _ (Ne.symm hk))
  have hsame : Forward w w ∧ (w.lease = w.lease ∨ ∃ v c, op = .put LEASE_KEY v c ∧
      c.holds w.lease = true ∧ w.lease = some ⟨v, w.store.revision⟩ ∧
      w.store.revision = w.store.revision + 1) := ⟨.refl w, .inl rfl⟩
  cases h with
  | put hc _ => exact hput hc
  | putUnanswered e hc _ => exact hput hc
  | delete hk _ =>
    exact ⟨⟨CondStore.evolves_delete _ _, le_rfl, fun _ h => h⟩, .inl (CondStore.get_delete_ne _ hk.symm)⟩
  | deleteUnanswered e hk _ =>
    exact ⟨⟨CondStore.evolves_delete _ _, le_rfl, fun _ h => h⟩, .inl (CondStore.get_delete_ne _ hk.symm)⟩
  | putPending e hk => exact ⟨⟨.refl _, le_rfl, fun _ h => h⟩, .inl rfl⟩
  | deletePending e hk => exact ⟨⟨.refl _, le_rfl, fun _ h => h⟩, .inl rfl⟩
  | sleep t ht => exact ⟨⟨.refl _, (Nat.le_add_right _ _).trans ht, fun _ h => h⟩, .inl rfl⟩
  | get | getFailed | putRefused | putFailed | deleteFailed | list_objects | clock | terminal_proof
  | terminalFailed => exact hsame

/-! ## One operation -/

section
variable {σ : Type} {o : LeaseOwner} {ttl : Nat} {st : σ} {w : World}

theorem Guar.of_eq (h : Forward w w) : Guar o ttl w w := ⟨h, .inl rfl⟩

theorem wp_now {Q : Except PyErr Nat → σ → World → Prop}
    (h : ∀ w', Rely o w w' → ¬ w'.stopped o →
      (w'.seconds < Calendar.maxSeconds → Q (.ok w'.seconds) st w') ∧ Q (.error .OverflowError) st w') :
    (LeaseManager.now : Cmd σ Nat).wp (World.Sem o) (Rely o) (Guar o ttl) Q st w := by
  simp only [LeaseManager.now, Cmd.wp_bind]
  intro w' hR r w'' hsem
  obtain ⟨hrun, hact⟩ := hsem
  cases hact
  refine ⟨.of_eq (.refl _), ?_⟩
  have hw := h w' hR hrun
  simp only [Conc.wp_ret, Cmd.after_ok]
  split
  · next hlt => exact hw.1 hlt
  · exact hw.2

theorem wp_getLease {Q : Except PyErr (Option StoredObject) → σ → World → Prop}
    (h : ∀ w', Rely o w w' → Q (.ok w'.lease) st w' ∧ ∀ e, Q (.error e) st w') :
    (Cmd.get LEASE_KEY).wp (World.Sem o) (Rely o) (Guar o ttl) Q st w := by
  intro w' hR r w'' hsem
  obtain ⟨-, hact⟩ := hsem
  cases hact with
  | get => exact ⟨.of_eq (.refl _), (h w' hR).1⟩
  | getFailed e => exact ⟨.of_eq (.refl _), (h w' hR).2 e⟩

theorem wp_terminal_proof {Q : Except PyErr Bool → σ → World → Prop} {o' : LeaseOwner}
    (h : ∀ w', Rely o w w' → (∀ b : Bool, (b = true → w'.stopped o') → Q (.ok b) st w') ∧
      ∀ e, Q (.error e) st w') :
    (Cmd.terminal_proof o').wp (World.Sem o) (Rely o) (Guar o ttl) Q st w := by
  intro w' hR r w'' hsem
  obtain ⟨-, hact⟩ := hsem
  cases hact with
  | terminal_proof b hb => exact ⟨.of_eq (.refl _), (h w' hR).1 b hb⟩
  | terminalFailed e => exact ⟨.of_eq (.refl _), (h w' hR).2 e⟩

/-- `w'` is `w` after the record `r` became the lease object `x`. -/
structure Wrote (r : LeaseRecord) (x : StoredObject) (w w' : World) : Prop extends Forward w w' where
  seconds : w'.seconds = w.seconds
  lease : w'.lease = some x
  exact : LeaseManager.require_exact_object x = .ok r
  fresh : x.etag = w.store.revision

theorem wrote_stored {r : LeaseRecord} (hs : r.schema = "dkc.production-lease.v1") {body : ByteArray}
    (hb : Serialize.canonical_bytes r.to_dict = .ok body) (w : World) :
    Wrote r ⟨⟨body, LEASE_METADATA⟩, w.store.revision⟩ w (w.stored o LEASE_KEY ⟨body, LEASE_METADATA⟩) where
  store := CondStore.evolves_write _ _ _
  clock := le_rfl
  stopped _ h := h
  seconds := rfl
  lease := CondStore.get_write_self _ _ _
  exact := by simp [LeaseManager.require_exact_object, parse_lease_canonical hs hb]
  fresh := rfl

/-- A conditional write of a record, applied (answered or not) or not applied. -/
theorem wp_write {r : LeaseRecord} (hs : r.schema = "dkc.production-lease.v1") {c : Cond}
    {Q : Except PyErr StoredObject → σ → World → Prop}
    (herr : ∀ e w', Rely o w w' → Q (.error e) st w')
    (h : ∀ w', Rely o w w' → c.holds w'.lease = true → ∀ x w'', Wrote r x w' w'' →
      Changed o ttl w' w'' ∧ Q (.ok x) st w'' ∧ ∀ e, Q (.error e) st w'') :
    (LeaseManager.write r c).wp (World.Sem o) (Rely o) (Guar o ttl) Q st w := by
  rcases hb : Serialize.canonical_bytes r.to_dict with e | body
  · simp only [LeaseManager.write, Cmd.wp_bind, hb, Cmd.wp_lift, Cmd.after_error]
    exact herr e w (.refl o w)
  · simp only [LeaseManager.write, Cmd.wp_bind, hb, Cmd.wp_lift, Cmd.after_ok]
    intro w' hR res w'' hsem
    obtain ⟨-, hact⟩ := hsem
    have hw := wrote_stored (o := o) hs hb w'
    cases hact with
    | put hc _ =>
      obtain ⟨hch, hok, -⟩ := h w' hR hc _ _ hw
      exact ⟨⟨hw.toForward, .inr hch⟩, hok⟩
    | putUnanswered e hc _ =>
      obtain ⟨hch, -, he⟩ := h w' hR hc _ _ hw
      exact ⟨⟨hw.toForward, .inr hch⟩, he e⟩
    | putRefused => exact ⟨.of_eq (.refl _), herr _ w' hR⟩
    | putFailed => exact ⟨.of_eq (.refl _), herr _ w' hR⟩
    | putPending e hk => exact absurd rfl hk

/-! ## The records a manager writes -/

theorem held_record_spec {m : LeaseManager} {owner : LeaseOwner} {now : Nat} {acquired : Option Nat}
    {r : LeaseRecord} (h : m.held_record owner now acquired = .ok r) :
    r.status = .held ∧ r.owner = some owner ∧ r.schema = "dkc.production-lease.v1" ∧
      ∃ s, r.expires_utc = some s ∧ Calendar.strptime s = some (now + m.ttl_seconds) := by
  unfold LeaseManager.held_record at h
  split at h
  · next hlt =>
    have hf := LeaseRecord.make_ok h
    refine ⟨by rw [hf], by rw [hf], by rw [hf], Calendar.strftime (now + m.ttl_seconds), by rw [hf], ?_⟩
    exact Calendar.strptime_strftime hlt
  · cases h

/-- A manager's own record passes its check, as long as the expiry is a date. -/
theorem held_record_ok {m : LeaseManager} {owner : LeaseOwner} {now : Nat}
    (h : now + m.ttl_seconds < Calendar.maxSeconds) : ∃ r, m.held_record owner now = .ok r := by
  have httl := m.ttl_valid
  rw [LeaseManager.held_record, if_pos h]
  refine ⟨_, LeaseRecord.make_of_valid ?_⟩
  simp only [LeaseRecordFields.post_init, Option.getD_none, Records.utc_strftime h,
    Records.utc_strftime (show now < Calendar.maxSeconds by omega), except_ok_bind]
  simp
  omega

theorem free_record_spec {now : Nat} {r : LeaseRecord} (h : LeaseManager.free_record now = .ok r) :
    r.status = .free ∧ r.owner = none ∧ r.schema = "dkc.production-lease.v1" := by
  have hf := LeaseRecord.make_ok h
  exact ⟨by rw [hf], by rw [hf], by rw [hf]⟩

theorem Wrote.held {m : LeaseManager} {owner : LeaseOwner} {now : Nat} {acquired : Option Nat}
    {r : LeaseRecord} {x : StoredObject} {w w' : World} (hw : Wrote r x w w')
    (h : m.held_record owner now acquired = .ok r) : Held w' owner (now + m.ttl_seconds) := by
  obtain ⟨hst, ho, -, s, hs, ht⟩ := held_record_spec h
  exact ⟨x, hw.lease, r, s, hw.exact, hst, ho, hs, ht⟩

/-! ## Handles -/

/-- A handle stands for one stored revision: whenever that revision is the lease object, it is the
handle's record, and it names nobody but the handle's owner. -/
structure Issued (h : LeaseHandle) (w : World) : Prop where
  etag : h.etag < w.store.revision
  exact : ∀ x, w.lease = some x → x.etag = h.etag → LeaseManager.require_exact_object x = .ok h.record
  owner : ∀ o, h.record.owner = some o → o = h.owner

theorem Issued.forward {h : LeaseHandle} {w w' : World} (hi : Issued h w) (hf : Forward w w') :
    Issued h w' where
  etag := Nat.lt_of_lt_of_le hi.etag hf.store.revision
  exact x hx he := hi.exact x (hf.store.same (by rw [he]; exact hi.etag) hx) he
  owner := hi.owner

theorem Wrote.issued {r : LeaseRecord} {x : StoredObject} {w w' : World} (hw : Wrote r x w w')
    {owner : LeaseOwner} {b : Bool} (ho : ∀ o, r.owner = some o → o = owner) :
    Issued ⟨owner, r, x.etag, b⟩ w' where
  etag := CondStore.etag_lt hw.lease
  exact y hy _ := by
    rw [hw.lease] at hy; cases hy; exact hw.exact
  owner := ho

/-- What a call may return: a handle of its owner. -/
def Returns (o : LeaseOwner) (r : Except PyErr LeaseHandle) (w : World) : Prop :=
  ∀ h, r = .ok h → h.owner = o ∧ Issued h w

/-- The lease records that name `o` last at most `ttl` seconds from `t`. -/
def Bounded (o : LeaseOwner) (t : Nat) (w : World) : Prop := ∀ e, Held w o e → e ≤ t

theorem Bounded.rely {o : LeaseOwner} {t : Nat} {w w' : World} (h : Bounded o t w) (hR : Rely o w w') :
    Bounded o t w' := fun e he => h e (he.of_lease (hR.own (he.names_iff.2 rfl)).symm)

/-! What a run knows of its own records survives its own steps and those of the others. -/

theorem Rely.bounded {o : LeaseOwner} {ttl : Nat} {w w' : World} (hR : Rely o w w')
    (h : Bounded o (w.seconds + ttl) w) : Bounded o (w'.seconds + ttl) w' :=
  fun e he => (h.rely hR e he).trans (Nat.add_le_add_right hR.seconds _)

theorem Guar.bounded {o : LeaseOwner} {ttl : Nat} {w w' : World} (hG : Guar o ttl w w')
    (h : Bounded o (w.seconds + ttl) w) : Bounded o (w'.seconds + ttl) w' := by
  intro e he
  have hs := hG.seconds
  rcases hG.lease with hl | hc
  · have := h e (he.of_lease hl.symm)
    omega
  · cases hc with
    | take e' _ hheld hle => have := (he.unique hheld).2; omega
    | renew e₁ e' _ _ hheld hle => have := (he.unique hheld).2; omega
    | release e₁ _ hfree => exact absurd (he.names_iff.2 rfl) (hfree.not_names o)

theorem Guar.exact {o : LeaseOwner} {ttl : Nat} {w w' : World} (hG : Guar o ttl w w')
    (h : w.names o → ∃ e, Held w o e) (hn : w'.names o) : ∃ e, Held w' o e := by
  rcases hG.lease with hl | hc
  · obtain ⟨x, r, hx, hr⟩ := hn
    obtain ⟨e, he⟩ := h ⟨x, r, hl ▸ hx, hr⟩
    exact ⟨e, he.of_lease hl⟩
  · cases hc with
    | take e' _ hheld _ => exact ⟨e', hheld⟩
    | renew e₁ e' _ _ hheld _ => exact ⟨e', hheld⟩
    | release e₁ _ hfree => exact absurd hn (hfree.not_names o)

/-! ## The methods -/

theorem same_object {w w' : World} (hf : Forward w w') {x y : StoredObject} (hx : w.lease = some x)
    (hy : w'.lease = some y) (he : y.etag = x.etag) : y = x := by
  have hlt : y.etag < w.store.revision := by rw [he]; exact CondStore.etag_lt hx
  have := hf.store.same hlt hy
  rw [show w.store.get LEASE_KEY = some x from hx] at this
  exact (Option.some.inj this).symm

variable {m : LeaseManager}

theorem returns_error {e : PyErr} : Returns o (.error e) w := fun _ h => by cases h

/-- A take that only replaces what may be replaced. -/
theorem take_wp {now : Nat} {c : Cond} {b : Bool} (hnow : now ≤ w.seconds)
    (hc : ∀ w', Rely o w w' → c.holds w'.lease = true →
      ∀ o' e, Held w' o' e → o' ≠ o ∧ w'.stopped o' ∧ e ≤ w'.seconds) :
    (m.take o now c b).wp (World.Sem o) (Rely o) (Guar o m.ttl_seconds) (fun r _ => Returns o r) st w := by
  simp only [LeaseManager.take, Cmd.wp_bind, Cmd.wp_lift]
  rcases hr : m.held_record o now with e | r
  · exact returns_error
  · obtain ⟨-, ho, hs, -⟩ := held_record_spec hr
    simp only [Cmd.after_ok, Cmd.wp_bind]
    refine wp_write hs (fun e w' _ => ?_) fun w' hR hholds x w'' hw => ⟨?_, ?_, fun e => ?_⟩
    · exact returns_error
    · have hle : now ≤ w'.seconds := hnow.trans hR.seconds
      exact .take _ (hc w' hR hholds) (hw.held hr) (by omega)
    · intro h hh
      cases hh
      exact ⟨rfl, hw.issued fun o' ho' => by rw [ho] at ho'; exact (Option.some.inj ho').symm⟩
    · exact returns_error

theorem reacquire_returns {now : Nat} {x : StoredObject} {r : LeaseRecord} (hx : w.lease = some x)
    (hr : LeaseManager.require_exact_object x = .ok r) (ho : r.owner = some o) :
    Returns o (LeaseManager.reacquire o now x r) w := by
  intro h hh
  unfold LeaseManager.reacquire at hh
  split at hh
  · cases hh
  · simp only [except_bind_eq_ok] at hh
    obtain ⟨t, -, hh⟩ := hh
    split at hh
    · cases hh
    · cases hh
      refine ⟨rfl, CondStore.etag_lt hx, fun y hy _ => ?_, fun o' ho' => ?_⟩
      · rw [hx] at hy; cases hy; exact hr
      · exact (Option.some.inj (ho.symm.trans ho')).symm

theorem stale_takeover_expired {r : LeaseRecord} {now grace : Nat} {b : Bool}
    (hmax : now < Calendar.maxSeconds)
    (h : r.stale_takeover_allowed (Calendar.strftime now) grace b = .ok true) :
    b = true ∧ ∀ s e, r.expires_utc = some s → Calendar.strptime s = some e → e ≤ now := by
  simp only [LeaseRecord.stale_takeover_allowed] at h
  split at h
  · cases h
  · split at h
    · next s hs =>
      split at h
      · cases h
      · next hb =>
        simp only [except_pure, except_bind_eq_ok, Records.utc_strftime hmax] at h
        obtain ⟨t, ht, e, he, hge⟩ := h
        cases ht
        refine ⟨by simpa using hb, fun s' e' hs' he' => ?_⟩
        rw [hs] at hs'; cases hs'
        rw [Records.strptime_of_utc he] at he'; cases he'
        simp only [Except.ok.injEq, decide_eq_true_eq] at hge
        omega
    · cases h

/-- `require_stale` passes only over a stopped run whose lease has expired. -/
theorem require_stale_wp {now : Nat} {r : LeaseRecord} (hnow : now ≤ w.seconds)
    (hmax : now < Calendar.maxSeconds) :
    (m.require_stale now r).wp (World.Sem o) (Rely o) (Guar o m.ttl_seconds) (fun res st' w' =>
      st' = st ∧ Rely o w w' ∧ (res = .ok () → ∀ o' s e, r.owner = some o' → r.expires_utc = some s →
        Calendar.strptime s = some e → w'.stopped o' ∧ e ≤ w'.seconds)) st w := by
  unfold LeaseManager.require_stale
  split
  · exact ⟨rfl, .refl o w, fun h => by cases h⟩
  · next old hold =>
    simp only [Cmd.wp_bind]
    refine wp_terminal_proof fun w' hR => ⟨fun b hb => ?_, fun e => ⟨rfl, hR, fun h => by cases h⟩⟩
    simp only [Cmd.after_ok]
    rcases ha : r.stale_takeover_allowed (Calendar.strftime now) m.takeover_grace_seconds b with e | allowed
    · exact ⟨rfl, hR, fun h => by cases h⟩
    · cases allowed with
      | false => exact ⟨rfl, hR, fun h => by cases h⟩
      | true =>
        obtain ⟨hbt, hexp⟩ := stale_takeover_expired hmax ha
        refine ⟨rfl, hR, fun _ o' s e ho' hs he => ?_⟩
        rw [hold] at ho'; cases ho'
        exact ⟨hb hbt, (hexp s e hs he).trans (hnow.trans hR.seconds)⟩

theorem acquire_wp :
    (m.acquire o).wp (World.Sem o) (Rely o) (Guar o m.ttl_seconds) (fun r _ => Returns o r) st w := by
  simp only [LeaseManager.acquire, Cmd.wp_bind]
  refine wp_now fun w₁ hR₁ _ => ⟨fun hmax => ?_, returns_error⟩
  simp only [Cmd.after_ok, Cmd.wp_bind]
  refine wp_getLease fun w₂ hR₂ => ⟨?_, fun e => returns_error⟩
  simp only [Cmd.after_ok]
  rcases hx : w₂.lease with _ | x
  · refine take_wp hR₂.seconds fun w' _ hc o' e he => ?_
    obtain ⟨y, hy, -⟩ := he
    rw [Cond.holds_ifNoneMatch, hy] at hc
    cases hc
  · simp only [Cmd.wp_bind, Cmd.wp_lift]
    rcases hr : LeaseManager.require_exact_object x with e | r
    · exact returns_error
    -- the object a write against the ETag just read replaces is the one that was read
    have hread : ∀ w', Rely o w₂ w' → (Cond.ifMatch x.etag).holds w'.lease = true →
        ∀ o' e, Held w' o' e → Names x o' e := by
      rintro w' hR hc o' e ⟨y, hy, hn⟩
      obtain ⟨z, hz, hze⟩ := Cond.holds_ifMatch.1 hc
      rw [hy] at hz; cases hz
      rwa [same_object hR.toForward hx hy hze] at hn
    simp only [Cmd.after_ok]
    split
    · next hown =>
      simp only [Cmd.wp_lift]
      exact reacquire_returns hx hr hown.2
    · next hown =>
      split
      · next hheld =>
        simp only [Cmd.wp_bind]
        refine Cmd.wp_mono (require_stale_wp hR₂.seconds hmax) fun res st' w₃ hres => ?_
        obtain ⟨-, hR₃, hok⟩ := hres
        rcases res with e | _
        · exact returns_error
        · refine take_wp (hR₂.seconds.trans hR₃.seconds) fun w' hR hc o' e he => ?_
          obtain ⟨r', s, hr', -, ho', hs, he'⟩ := hread w' (hR₃.trans hR) hc o' e he
          rw [hr] at hr'; cases hr'
          obtain ⟨hstop, hle⟩ := hok rfl o' s e ho' hs he'
          refine ⟨fun heq => hown ⟨hheld, by rw [ho', heq]⟩, hR.stopped o' hstop, hle.trans hR.seconds⟩
      · next hfree =>
        refine take_wp hR₂.seconds fun w' hR hc o' e he => ?_
        obtain ⟨r', s, hr', hst, -⟩ := hread w' hR hc o' e he
        rw [hr] at hr'; cases hr'
        exact absurd hst hfree

/-- The observed record is the stored one, and a handle of `o` keeps it while `o` runs. -/
theorem observe_wp {h : LeaseHandle} {before : String} :
    (LeaseManager.observe h before).wp (World.Sem o) (Rely o) (Guar o ttl) (fun res st' w' =>
      st' = st ∧ Rely o w w' ∧ ∀ r, res = .ok r → ∃ x, w'.lease = some x ∧ x.etag = h.etag ∧
        LeaseManager.require_exact_object x = .ok r) st w := by
  simp only [LeaseManager.observe, Cmd.wp_bind]
  refine wp_getLease fun w' hR => ⟨?_, fun e => ⟨rfl, hR, fun r hr => by cases hr⟩⟩
  simp only [Cmd.after_ok]
  rcases hx : w'.lease with _ | x
  · exact ⟨rfl, hR, fun r hr => by cases hr⟩
  · dsimp only
    split
    · exact ⟨rfl, hR, fun r hr => by cases hr⟩
    · next he => exact ⟨rfl, hR, fun r hr => ⟨x, hx, by simpa using he, hr⟩⟩

theorem parse_utc_ok {s : String} {t : Nat} (h : LeaseManager.parse_utc s = .ok t) :
    Calendar.strptime s = some t := by
  unfold LeaseManager.parse_utc at h
  split at h
  · cases h; assumption
  · cases h

/-- **A passed window check**: the owner is stored with more than the window left. -/
theorem assert_batch_window_wp {h : LeaseHandle} {batch safety : Int} (ho : h.owner = o) :
    (LeaseManager.assert_batch_window h batch safety).wp (World.Sem o) (Rely o) (Guar o ttl)
      (fun res _ w' => res = .ok () → ∃ e : Nat, Held w' o e ∧ w'.seconds + batch + safety < e)
      st w := by
  have herr : ∀ {e : PyErr} {w' : World}, (.error e : Except PyErr Unit) = .ok () →
      ∃ e : Nat, Held w' o e ∧ w'.seconds + batch + safety < e := fun h => by cases h
  unfold LeaseManager.assert_batch_window
  split
  · exact herr
  simp only [Cmd.wp_bind]
  refine Cmd.wp_mono observe_wp fun res st' w₁ ⟨_, hR₁, hx⟩ => ?_
  rcases res with e | r
  · exact herr
  obtain ⟨x, hx, -, hr⟩ := hx r rfl
  simp only [Cmd.after_ok]
  split
  · exact herr
  next hheld =>
  simp only [not_or, not_not] at hheld
  split
  · exact herr
  next s hs =>
  simp only [Cmd.wp_bind, Cmd.wp_lift]
  rcases he : LeaseManager.parse_utc s with e | e
  · exact herr
  simp only [Cmd.after_ok, Cmd.wp_bind]
  refine wp_now fun w₂ hR₂ hrun => ⟨fun _ => ?_, herr⟩
  have hnames : Held w₁ o e := ⟨x, hx, r, s, hr, hheld.1, by rw [hheld.2, ho], hs, parse_utc_ok he⟩
  simp only [Cmd.after_ok]
  split
  · exact herr
  · next hlt =>
    -- the owner is running, so the record that was read is still stored
    refine fun _ => ⟨e, ?_, by omega⟩
    rcases hR₂.keep e hnames with hsame | ⟨hstop, -⟩
    · exact hnames.of_lease hsame
    · exact absurd hstop hrun

theorem renew_wp {h : LeaseHandle} (ho : h.owner = o) (hb : Bounded o (w.seconds + m.ttl_seconds) w) :
    (m.renew h).wp (World.Sem o) (Rely o) (Guar o m.ttl_seconds) (fun r _ => Returns o r) st w := by
  unfold LeaseManager.renew
  simp only [Cmd.wp_bind]
  refine wp_now fun w₁ hR₁ _ => ⟨fun _ => ?_, returns_error⟩
  simp only [Cmd.after_ok, Cmd.wp_bind]
  refine Cmd.wp_mono observe_wp fun res st' w₂ hobserved => ?_
  obtain ⟨_, hR₂, hx⟩ := hobserved
  rcases res with e | r
  · exact returns_error
  obtain ⟨x, hx, hxe, hr⟩ := hx r rfl
  simp only [Cmd.after_ok]
  split
  · exact returns_error
  next hheld =>
  simp only [not_or, not_not] at hheld
  split
  · exact returns_error
  next s hs =>
  simp only [Cmd.wp_bind, Cmd.wp_lift]
  rcases he : LeaseManager.parse_utc s with e | e
  · exact returns_error
  simp only [Cmd.after_ok]
  split
  · exact returns_error
  next hexp =>
  split
  · exact returns_error
  next a _ =>
  simp only [Cmd.wp_bind, Cmd.wp_lift]
  rcases LeaseManager.parse_utc a with e | ta
  · exact returns_error
  simp only [Cmd.after_ok, Cmd.wp_bind, Cmd.wp_lift]
  rcases hren : m.held_record h.owner w₁.seconds (some ta) with e | renewed
  · exact returns_error
  obtain ⟨-, hown, hschema, -⟩ := held_record_spec hren
  simp only [Cmd.after_ok, Cmd.wp_bind]
  refine wp_write hschema (fun e w' _ => ?_) fun w' hR hholds y w'' hw => ⟨?_, ?_, fun e => ?_⟩
  · exact returns_error
  · -- the write replaces the very record that was observed
    have hnames : Held w₂ o e := ⟨x, hx, r, s, hr, hheld.1, by rw [hheld.2, ho], hs, parse_utc_ok he⟩
    obtain ⟨z, hz, hze⟩ := Cond.holds_ifMatch.1 hholds
    have hzx := same_object hR.toForward hx hz (hze.trans hxe.symm)
    have hbound : e ≤ w₁.seconds + m.ttl_seconds :=
      (((hb.rely hR₁).rely hR₂) e hnames).trans (Nat.add_le_add_right hR₁.seconds _)
    have hle : w₁.seconds ≤ w'.seconds := hR₂.seconds.trans hR.seconds
    have hnew := hw.held hren
    rw [ho] at hnew
    refine .renew e _ (hnames.of_lease ?_) hbound hnew (by omega)
    rw [hz, hx, hzx]
  · intro h' hh
    cases hh
    refine ⟨ho, hw.issued fun o' ho' => ?_⟩
    rw [hown] at ho'
    exact (Option.some.inj ho').symm
  · exact returns_error

theorem release_wp {h : LeaseHandle} (ho : h.owner = o) :
    (LeaseManager.release h).wp (World.Sem o) (Rely o) (Guar o ttl) (fun r _ => Returns o r) st w := by
  unfold LeaseManager.release
  simp only [Cmd.wp_bind]
  refine wp_now fun w₁ hR₁ _ => ⟨fun _ => ?_, returns_error⟩
  simp only [Cmd.after_ok, Cmd.wp_bind]
  refine Cmd.wp_mono observe_wp fun res st' w₂ hobserved => ?_
  obtain ⟨_, hR₂, hx⟩ := hobserved
  rcases res with e | r
  · exact returns_error
  obtain ⟨x, hx, hxe, hr⟩ := hx r rfl
  simp only [Cmd.after_ok]
  split
  · exact returns_error
  next hheld =>
  simp only [not_or, not_not] at hheld
  simp only [Cmd.wp_bind, Cmd.wp_lift]
  rcases hfree : LeaseManager.free_record w₁.seconds with e | released
  · exact returns_error
  obtain ⟨hst, hown, hschema⟩ := free_record_spec hfree
  simp only [Cmd.after_ok, Cmd.wp_bind]
  refine wp_write hschema (fun e w' _ => ?_) fun w' hR hholds y w'' hw => ⟨?_, ?_, fun e => ?_⟩
  · exact returns_error
  · obtain ⟨-, -, expires, -, -, hexp, -, -, -, e, -, -, he, -⟩ := LeaseRecord.held_cases hheld.1
    have hnames : Held w₂ o e :=
      ⟨x, hx, r, expires, hr, hheld.1, by rw [hheld.2, ho], hexp, Records.strptime_of_utc he⟩
    obtain ⟨z, hz, hze⟩ := Cond.holds_ifMatch.1 hholds
    have hzx := same_object hR.toForward hx hz (hze.trans hxe.symm)
    refine .release e (hnames.of_lease ?_) ⟨y, released, hw.lease, hw.exact, hst⟩
    rw [hz, hx, hzx]
  · intro h' hh
    cases hh
    refine ⟨ho, hw.issued fun o' ho' => ?_⟩
    rw [hown] at ho'
    cases ho'
  · exact returns_error

end

end LeaseSafety
