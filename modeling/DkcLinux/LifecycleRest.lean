import DkcLinux.LifecycleRuns

/-!
# The lifecycle comes to rest (`dkc/lifecycle.py:110-270`, `storage-publish.py:254-263`)

What a decision compares with the state is what the gate compared with the decision, and the size that it
looks at is the one that the publisher checked last. So a published state is decided `no_op` on the input
that it was published for (`decide_no_op`), and a run on that input commits nothing more (`converges`).
-/

namespace Lifecycle

section
variable {formats : String → String → Bool} {hexdigest : ByteArray → String}
  {validate : String → Json → Except PyErr Unit} {parsedate_to_datetime : String → Except PyErr Datetime}

/-- `sum(item.size for item in inventory)` of a listing. -/
def storage_size (inventory : List (String × Nat)) : Int := ((inventory.map (·.2)).sum : Nat)

/-- The check after the deletions (`storage-publish.py:254-263`). -/
def final_limit_check (manifest : PublicationManifest) (final_storage_size : Int) : Except PyErr Unit :=
  if manifest.retention_mode = .series_size ∧ manifest.retention_max_bytes.any (final_storage_size > ·) = true then
    .error (.RuntimeError "committed object storage exceeds the signed retention limit")
  else .ok ()

/-- The metadata of the state outlast the horizon of a clock. -/
def Fresh (parsedate_to_datetime : String → Except PyErr Datetime) (s : AuthoritativeState) (now : Datetime)
    (seconds : Int) : Prop :=
  now.aware = true ∧ ∃ horizon expiry, horizonEnd now seconds = .ok horizon ∧
    valid_until parsedate_to_datetime s = .ok expiry ∧ horizon < expiry

theorem utc_eq {now : Datetime} (haware : now.aware = true) {micros : Int} (h : now.astimezone = .ok micros) :
    ∃ t < Calendar.maxSeconds, utc now = .ok (Calendar.strftime t) := by
  have hrange : 0 ≤ micros ∧ micros < Calendar.maxSeconds * 1000000 := by
    unfold Datetime.astimezone at h
    split at h
    · next hrange =>
      cases h
      exact hrange
    · cases h
  refine ⟨(micros / 1000000).toNat, by omega, ?_⟩
  rw [utc, haware, h]
  rfl

theorem decide_inputs {o : Observation} {now : Datetime} {state : Option AuthoritativeState} {read bootstrap : Bool}
    {seconds : Int} {d : DiscoveryDecision} (h : decide parsedate_to_datetime o now state read bootstrap seconds = .ok d) :
    ¬ seconds < 3600 ∧ o.checkRetention = .ok () := by
  obtain ⟨now_utc, -, h⟩ := except_bind_eq_ok.1 h
  obtain ⟨source, -, h⟩ := except_bind_eq_ok.1 h
  obtain ⟨hseconds, h⟩ := except_check_eq_ok.1 h
  obtain ⟨u, hretention, -⟩ := except_bind_eq_ok.1 h
  exact ⟨hseconds, hretention⟩

/-- Nothing to do is always a decision on a state. -/
theorem no_op_ok {o : Observation} {d : DiscoveryDecision} (hcarries : Carries o d.toDiscoveryDecisionFields) {t : Nat}
    (ht : t < Calendar.maxSeconds) (s : AuthoritativeState) (reason : String) :
    ∃ d', no_op (AuthoritativeRecord (o.record (Calendar.strftime t)) s) reason = .ok d' ∧ d'.decision = .no_op := by
  obtain ⟨hdsc, hpolicy, hrevision, hretention, -⟩ := d.checks
  rw [hcarries.source_dsc_sha256] at hdsc
  rw [hcarries.build_policy_sha256] at hpolicy
  rw [hcarries.dkc_revision] at hrevision
  obtain ⟨hgeneration, hid⟩ := s.pointer_checked
  let f : DiscoveryDecisionFields := { AuthoritativeRecord (o.record (Calendar.strftime t)) s with
    decision := .no_op, reason := some reason }
  have hretention' : f.checkRetention = .ok () := by
    rw [DiscoveryDecisionFields.checkRetention, hcarries.retention_mode, hcarries.retention_max_bytes] at hretention
    exact hretention
  have hstate : f.checkState = .ok () := by
    simp [f, AuthoritativeRecord, DiscoveryDecisionFields.checkState, hid, hgeneration]
  have hflags : f.checkFlags = .ok () := rfl
  have hpost : f.post_init = .ok () := by
    rw [DiscoveryDecisionFields.post_init]
    show (Records.sha256 o.source_dsc_sha256 "source_dsc_sha256" >>= _) = _
    rw [hdsc, except_ok_bind]
    show (Records.sha256 o.build_policy_sha256 "build_policy_sha256" >>= _) = _
    rw [hpolicy, except_ok_bind]
    show (if o.dkc_revision < 1 then _ else _) = _
    rw [if_neg hrevision, hretention', except_ok_bind]
    show (Records.utc (Calendar.strftime t) "utc" >>= _) = _
    rw [Records.utc_strftime ht, except_ok_bind, hstate, except_ok_bind, hflags]
  exact ⟨⟨f, hpost⟩, DiscoveryDecision.make_fields ⟨f, hpost⟩, rfl⟩

/-- **A published state is at rest**: with the same input, nothing is to do while the metadata are fresh. -/
theorem decide_no_op {o : Observation} {now now' : Datetime} {state : Option AuthoritativeState}
    {read bootstrap bootstrap' : Bool} {seconds : Int} {d : DiscoveryDecision} {s : AuthoritativeState}
    {inventory : List (String × Nat)}
    (hdecide : decide parsedate_to_datetime o now state read bootstrap seconds = .ok d)
    (hagrees : Agrees d.toDiscoveryDecisionFields s.manifest)
    (hlimit : final_limit_check s.manifest (storage_size inventory) = .ok ())
    (hsize : s.storage_size = storage_size inventory) (hfresh : Fresh parsedate_to_datetime s now' seconds) :
    ∃ d', decide parsedate_to_datetime o now' (some s) true bootstrap' seconds = .ok d' ∧ d'.decision = .no_op := by
  obtain ⟨haware, horizon, expiry, hhorizon, hexpiry, hlt⟩ := hfresh
  obtain ⟨micros, hmicros, -⟩ := except_bind_eq_ok.1 hhorizon
  obtain ⟨t, ht, hutc⟩ := utc_eq haware hmicros
  obtain ⟨hcarries, source, hsource, -⟩ := decide_ok hdecide
  obtain ⟨hseconds, hretention⟩ := decide_inputs hdecide
  obtain ⟨d', hd', hno⟩ := no_op_ok hcarries ht s "the newest source is already published and metadata is fresh"
  refine ⟨d', ?_, hno⟩
  have hversion : s.manifest.source_version = o.source_version :=
    hagrees.source_version.trans hcarries.source_version
  have hdsc : s.manifest.source_dsc_sha256 = o.source_dsc_sha256 :=
    hagrees.source_dsc_sha256.trans hcarries.source_dsc_sha256
  have hrevision : s.manifest.dkc_revision = o.dkc_revision := hagrees.dkc_revision.trans hcarries.dkc_revision
  have hpolicy : s.manifest.build_policy_sha256 = o.build_policy_sha256 :=
    hagrees.build_policy_sha256.trans hcarries.build_policy_sha256
  have hlto : s.manifest.lto_mode = o.lto_mode := hagrees.lto_mode.trans hcarries.lto_mode
  have hmode : s.manifest.retention_mode = o.retention_mode :=
    hagrees.retention_mode.trans hcarries.retention_mode
  have hmax : s.manifest.retention_max_bytes = o.retention_max_bytes :=
    hagrees.retention_max_bytes.trans hcarries.retention_max_bytes
  have hsame : Debver.compare source source = 0 := Debver.compare_eq_zero.2 rfl
  have hdiffers : o.retentionDiffers s = false := by
    rw [final_limit_check, except_guard_eq_ok, hmode, hmax, ← hsize] at hlimit
    rw [Observation.retentionDiffers, hmode, hmax]
    simpa using hlimit
  rw [decide, hutc, except_ok_bind, hsource, except_ok_bind, if_neg hseconds, hretention, except_ok_bind]
  show decide_published parsedate_to_datetime o source _ now' s seconds = _
  rw [decide_published, hversion, hsource, except_ok_bind]
  simp only [hsame, hdsc, hrevision, hpolicy, hlto, hdiffers, hhorizon, hexpiry, except_ok_bind]
  simpa [not_le.2 hlt] using hd'

/-- A step that reads a state at rest decides that nothing is to do. -/
theorem Step.rests {s : AuthoritativeState} {next : Option AuthoritativeState} {entry : Entry} {o : Observation}
    {seconds : Int} (h : Step formats hexdigest validate parsedate_to_datetime (some s) entry next)
    (hrest : ∀ now' bootstrap', Fresh parsedate_to_datetime s now' seconds →
      ∃ d', decide parsedate_to_datetime o now' (some s) true bootstrap' seconds = .ok d' ∧ d'.decision = .no_op)
    (hinput : entry.observation = o ∧ entry.seconds = seconds ∧ Fresh parsedate_to_datetime s entry.now seconds) :
    entry.decision.decision = if entry.read then .no_op else .blocked := by
  cases hread : entry.read with
  | false => exact h.blocked hread
  | true =>
    obtain @⟨given, committed, o', now, read, bootstrap, seconds', d, hgiven, hdecide, hcommitted⟩ := h
    obtain ⟨ho, hseconds, hfresh⟩ := hinput
    obtain rfl : o' = o := ho
    obtain rfl : seconds' = seconds := hseconds
    obtain rfl : read = true := hread
    obtain ⟨d', hd', hno⟩ := hrest now bootstrap hfresh
    rw [hgiven rfl, hd'] at hdecide
    obtain rfl : d' = d := Except.ok.inj hdecide
    exact hno

/-- **The lifecycle converges**: after a publication that a decision allowed and that is within its limit, the
same input is decided `no_op`; and along every run on unchanged input while the metadata are fresh, nothing is
committed again. -/
theorem converges {o : Observation} {now : Datetime} {state : Option AuthoritativeState} {read bootstrap : Bool}
    {seconds : Int} {d : DiscoveryDecision} {s : AuthoritativeState} {inventory : List (String × Nat)}
    (hdecide : decide parsedate_to_datetime o now state read bootstrap seconds = .ok d)
    (hpublished : Published formats hexdigest validate d s)
    (hlimit : final_limit_check s.manifest (storage_size inventory) = .ok ())
    (hsize : s.storage_size = storage_size inventory) :
    (∀ now' bootstrap', Fresh parsedate_to_datetime s now' seconds →
      ∃ d', decide parsedate_to_datetime o now' (some s) true bootstrap' seconds = .ok d' ∧ d'.decision = .no_op) ∧
    ∀ entries final, Run formats hexdigest validate parsedate_to_datetime (some s) entries final →
      (∀ entry ∈ entries, entry.observation = o ∧ entry.seconds = seconds ∧
        Fresh parsedate_to_datetime s entry.now seconds) →
      final = some s ∧ commits entries = [] ∧
        ∀ entry ∈ entries, entry.decision.decision = if entry.read then .no_op else .blocked := by
  have hrest (now' : Datetime) (bootstrap' : Bool) (hfresh : Fresh parsedate_to_datetime s now' seconds) :
      ∃ d', decide parsedate_to_datetime o now' (some s) true bootstrap' seconds = .ok d' ∧ d'.decision = .no_op :=
    decide_no_op hdecide hpublished.agrees hlimit hsize hfresh
  refine ⟨hrest, fun entries final hrun hinput => ?_⟩
  generalize hstart : some s = start at hrun
  induction hrun with
  | nil => exact ⟨rfl, rfl, fun _ h => by cases h⟩
  | @cons state next final entry entries hstep hrun ih =>
    subst hstart
    obtain ⟨hone, hinput⟩ := List.forall_mem_cons.1 hinput
    have hdecision := hstep.rests hrest hone
    have hnone : entry.committed = none := by
      refine Option.eq_none_iff_forall_not_mem.2 fun s' hs' => ?_
      have hwork := hstep.work hs'
      rw [hdecision] at hwork
      split at hwork <;> rcases hwork with h | h <;> cases h
    have hnext : some s = next := by rw [hstep.next_eq, hnone, Option.none_or]
    obtain ⟨hfinal, hcommits, hall⟩ := ih hinput hnext
    refine ⟨hfinal.trans hnext.symm, ?_, List.forall_mem_cons.2 ⟨hdecision, hall⟩⟩
    rw [commits, List.filterMap_cons_none hnone]
    exact hcommits

end

/-- A minute after the bootstrap nothing is to do. -/
theorem converges_bootstrap : ∃ d, decide Sample.parsedate_to_datetime Sample.observation
    ⟨63922564860000000, true⟩ (some Sample.state) true false 604800 = .ok d ∧ d.decision = .no_op := by
  have hlimit : final_limit_check Sample.state.manifest (storage_size Sample.inventory) = .ok () := by decide +kernel
  have hconverges := (converges Sample.decided Sample.published hlimit rfl).1
  refine hconverges ⟨63922564860000000, true⟩ false ⟨rfl, 63923169660000000, 63923774400000000, ?_, ?_, by decide⟩
  · decide +kernel
  · decide +kernel

end Lifecycle
