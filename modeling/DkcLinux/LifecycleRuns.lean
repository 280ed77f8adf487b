import DkcLinux.Lifecycle

/-!
# The lifecycle never rolls back (`dkc/lifecycle.py:33-270`, `dkc/release_gate.py:118-154`)

A run takes decisions one after the other; a decision that allows it may be followed by a publication that
the gate accepts, whose manifest is the state of the later decisions.

| what is between                          | lemma             |
|------------------------------------------|-------------------|
| a decision and what was observed         | `decide_ok`       |
| a decision and the manifest it allows    | `matches_agrees`  |
| a committed state and the one before it  | `Step.moves`      |
| a committed state and all before it      | `Run.follows`     |
-/

namespace Lifecycle

open Kwargs

/-! ## What a decision says -/

section
variable {parsedate_to_datetime : String → Except PyErr Datetime}

/-- A decision is about what was observed. -/
structure Carries (o : Observation) (d : DiscoveryDecisionFields) : Prop where
  source_version : d.source_version = o.source_version
  source_dsc_sha256 : d.source_dsc_sha256 = o.source_dsc_sha256
  dkc_revision : d.dkc_revision = o.dkc_revision
  build_policy_sha256 : d.build_policy_sha256 = o.build_policy_sha256
  lto_mode : d.lto_mode = o.lto_mode
  retention_mode : d.retention_mode = o.retention_mode
  retention_max_bytes : d.retention_max_bytes = o.retention_max_bytes

/-- The decisions that ask for work on a state. -/
inductive Work (o : Observation) (source : DebianVersion) (s : AuthoritativeState) : DiscoveryDecisionFields → Prop
  | newer {d published} (hdecision : d.decision = .build)
      (hparse : Debver.parse s.manifest.source_version = .ok published) (hnewer : 0 < Debver.compare source published) :
      Work o source s d
  | revision {d published} (hdecision : d.decision = .build)
      (hparse : Debver.parse s.manifest.source_version = .ok published) (hsame : Debver.compare source published = 0)
      (hdsc : o.source_dsc_sha256 = s.manifest.source_dsc_sha256) (hrevision : s.manifest.dkc_revision < o.dkc_revision) :
      Work o source s d
  | maintenance {d published} (hdecision : d.decision = .maintenance)
      (hparse : Debver.parse s.manifest.source_version = .ok published) (hsame : Debver.compare source published = 0)
      (hdsc : o.source_dsc_sha256 = s.manifest.source_dsc_sha256) (hrevision : o.dkc_revision = s.manifest.dkc_revision)
      (hpolicy : o.build_policy_sha256 = s.manifest.build_policy_sha256) (hlto : o.lto_mode = s.manifest.lto_mode) :
      Work o source s d

/-- What is decided without a state: nothing, or a first build. -/
def Bare (read : Bool) (d : DiscoveryDecisionFields) : Prop :=
  d.decision = .blocked ∨ (d.decision = .build ∧ read = true ∧ d.state_generation = none)

/-- What is decided on a state. -/
def OnState (o : Observation) (source : DebianVersion) (s : AuthoritativeState) (d : DiscoveryDecisionFields) : Prop :=
  d.state_generation = some s.pointer.generation ∧ (d.decision = .blocked ∨ d.decision = .no_op ∨ Work o source s d)

theorem decide_published_ok {o : Observation} {source : DebianVersion} {record : DiscoveryDecisionFields}
    {now : Datetime} {s : AuthoritativeState} {seconds : Int} {d : DiscoveryDecision} (hrecord : Carries o record)
    (h : decide_published parsedate_to_datetime o source record now s seconds = .ok d) :
    Carries o d.toDiscoveryDecisionFields ∧ OnState o source s d.toDiscoveryDecisionFields := by
  obtain ⟨h1, h2, h3, h4, h5, h6, h7⟩ := hrecord
  obtain ⟨published, hparse, h⟩ := except_bind_eq_ok.1 h
  simp only at h
  split at h
  · rw [DiscoveryDecision.make_ok h]
    exact ⟨⟨h1, h2, h3, h4, h5, h6, h7⟩, rfl, .inl rfl⟩
  next hold =>
  split at h
  · rw [DiscoveryDecision.make_ok h]
    exact ⟨⟨h1, h2, h3, h4, h5, h6, h7⟩, rfl, .inl rfl⟩
  next hdsc =>
  split at h
  · next hnewer =>
    rw [DiscoveryDecision.make_ok h]
    exact ⟨⟨h1, h2, h3, h4, h5, h6, h7⟩, rfl, .inr (.inr (.newer rfl hparse hnewer))⟩
  next hnewer =>
  have hsame : Debver.compare source published = 0 := by omega
  have hdsc : o.source_dsc_sha256 = s.manifest.source_dsc_sha256 := by simpa [hsame] using hdsc
  split at h
  · rw [DiscoveryDecision.make_ok h]
    exact ⟨⟨h1, h2, h3, h4, h5, h6, h7⟩, rfl, .inl rfl⟩
  next hlow =>
  split at h
  · next hhigh =>
    rw [DiscoveryDecision.make_ok h]
    exact ⟨⟨h1, h2, h3, h4, h5, h6, h7⟩, rfl, .inr (.inr (.revision rfl hparse hsame hdsc hhigh))⟩
  next hhigh =>
  have hrevision : o.dkc_revision = s.manifest.dkc_revision := by omega
  split at h
  · rw [DiscoveryDecision.make_ok h]
    exact ⟨⟨h1, h2, h3, h4, h5, h6, h7⟩, rfl, .inl rfl⟩
  next hpolicy =>
  rw [not_or, not_not, not_not] at hpolicy
  split at h
  · rw [DiscoveryDecision.make_ok h]
    exact ⟨⟨h1, h2, h3, h4, h5, h6, h7⟩, rfl,
      .inr (.inr (.maintenance rfl hparse hsame hdsc hrevision hpolicy.1 hpolicy.2))⟩
  obtain ⟨horizon, -, h⟩ := except_bind_eq_ok.1 h
  obtain ⟨until_, -, h⟩ := except_bind_eq_ok.1 h
  split at h
  · rw [DiscoveryDecision.make_ok h]
    exact ⟨⟨h1, h2, h3, h4, h5, h6, h7⟩, rfl,
      .inr (.inr (.maintenance rfl hparse hsame hdsc hrevision hpolicy.1 hpolicy.2))⟩
  · rw [DiscoveryDecision.make_ok h]
    exact ⟨⟨h1, h2, h3, h4, h5, h6, h7⟩, rfl, .inr (.inl rfl)⟩

/-- **Every decision**, by what was read. -/
theorem decide_ok {o : Observation} {now : Datetime} {state : Option AuthoritativeState} {read bootstrap : Bool}
    {seconds : Int} {d : DiscoveryDecision} (h : decide parsedate_to_datetime o now state read bootstrap seconds = .ok d) :
    Carries o d.toDiscoveryDecisionFields ∧ ∃ source, Debver.parse o.source_version = .ok source ∧
      (Bare read d.toDiscoveryDecisionFields ∧ (read = true → state = none) ∨
        read = true ∧ ∃ s ∈ state, OnState o source s d.toDiscoveryDecisionFields) := by
  obtain ⟨now_utc, -, h⟩ := except_bind_eq_ok.1 h
  obtain ⟨source, hsource, h⟩ := except_bind_eq_ok.1 h
  obtain ⟨-, h⟩ := except_check_eq_ok.1 h
  obtain ⟨u, -, h⟩ := except_bind_eq_ok.1 h
  cases read with
  | false =>
    have h : blocked (o.record now_utc) "authoritative state could not be read" = .ok d := h
    rw [DiscoveryDecision.make_ok h]
    exact ⟨⟨rfl, rfl, rfl, rfl, rfl, rfl, rfl⟩, source, hsource, .inl ⟨.inl rfl, fun h => by cases h⟩⟩
  | true =>
    cases state with
    | none =>
      cases bootstrap with
      | false =>
        have h : blocked { o.record now_utc with authoritative_state_read := true }
          "authoritative state is absent and bootstrap is not allowed" = .ok d := h
        rw [DiscoveryDecision.make_ok h]
        exact ⟨⟨rfl, rfl, rfl, rfl, rfl, rfl, rfl⟩, source, hsource, .inl ⟨.inl rfl, fun _ => rfl⟩⟩
      | true =>
        have h : build { o.record now_utc with authoritative_state_read := true } "bootstrap an empty repository" =
          .ok d := h
        rw [DiscoveryDecision.make_ok h]
        exact ⟨⟨rfl, rfl, rfl, rfl, rfl, rfl, rfl⟩, source, hsource, .inl ⟨.inr ⟨rfl, rfl, rfl⟩, fun _ => rfl⟩⟩
    | some s =>
      obtain ⟨hcarries, hstate⟩ := decide_published_ok ⟨rfl, rfl, rfl, rfl, rfl, rfl, rfl⟩ h
      exact ⟨hcarries, source, hsource, .inr ⟨rfl, s, rfl, hstate⟩⟩

end

/-- Work and permission are those of the decision. -/
theorem flags (d : DiscoveryDecision) : (d.build_required, d.maintenance_required, d.publish_allowed) =
    d.decision.expected_flags := by
  have h := d.checks.2.2.2.2.2
  simp only [DiscoveryDecisionFields.checkFlags, except_throw, except_error_bind, except_check_eq_ok] at h
  exact not_not.1 h.2.2.1

theorem publish_allowed_iff (d : DiscoveryDecision) :
    d.publish_allowed = true ↔ d.decision = .build ∨ d.decision = .maintenance := by
  have h := congrArg (·.2.2) (flags d)
  simp only at h
  rw [h]
  cases d.decision <;> decide

/-! ## What the gate leaves of a manifest -/

/-- The manifest is the one that the decision asks for. -/
structure Agrees (d : DiscoveryDecisionFields) (m : PublicationManifest) : Prop where
  source_version : m.source_version = d.source_version
  source_dsc_sha256 : m.source_dsc_sha256 = d.source_dsc_sha256
  dkc_revision : m.dkc_revision = d.dkc_revision
  build_policy_sha256 : m.build_policy_sha256 = d.build_policy_sha256
  lto_mode : m.lto_mode = d.lto_mode
  retention_mode : m.retention_mode = d.retention_mode
  retention_max_bytes : m.retention_max_bytes = d.retention_max_bytes
  generation : m.generation = expected_generation d

/-- Where the fields of a manifest come from. -/
structure ReadFrom (fields : List (String × Json)) (m : PublicationManifest) : Prop where
  source_version : required fields "source_version" str = .ok m.source_version
  source_dsc_sha256 : required fields "source_dsc_sha256" str = .ok m.source_dsc_sha256
  dkc_revision : required fields "dkc_revision" int = .ok m.dkc_revision
  build_policy_sha256 : required fields "build_policy_sha256" str = .ok m.build_policy_sha256
  lto_mode : ∃ s, required fields "lto_mode" str = .ok s ∧ LtoMode.ofString s = .ok m.lto_mode
  retention_mode : ∃ s, defaulted fields "retention_mode" "series" str = .ok s ∧
    RetentionMode.ofString s = .ok m.retention_mode
  retention_max_bytes : defaulted fields "retention_max_bytes" none (orNone int) = .ok m.retention_max_bytes
  generation : required fields "generation" int = .ok m.generation

theorem ofKwargs_readFrom {artifacts : List Artifact} {queue : List GcQueueEntry} {fields : List (String × Json)}
    {m : PublicationManifest} (h : PublicationManifest.ofKwargs artifacts queue fields = .ok m) : ReadFrom fields m := by
  obtain ⟨_, -, h⟩ := except_bind_eq_ok.1 h
  obtain ⟨generation, hgeneration, h⟩ := except_bind_eq_ok.1 h
  obtain ⟨_, -, h⟩ := except_bind_eq_ok.1 h
  obtain ⟨_, -, h⟩ := except_bind_eq_ok.1 h
  obtain ⟨source_version, hsource, h⟩ := except_bind_eq_ok.1 h
  obtain ⟨source_dsc, hdsc, h⟩ := except_bind_eq_ok.1 h
  obtain ⟨_, -, h⟩ := except_bind_eq_ok.1 h
  obtain ⟨revision, hrevision, h⟩ := except_bind_eq_ok.1 h
  obtain ⟨policy, hpolicy, h⟩ := except_bind_eq_ok.1 h
  obtain ⟨lto_text, hltotext, h⟩ := except_bind_eq_ok.1 h
  obtain ⟨lto, hlto, h⟩ := except_bind_eq_ok.1 h
  obtain ⟨_, -, h⟩ := except_bind_eq_ok.1 h
  obtain ⟨_, -, h⟩ := except_bind_eq_ok.1 h
  obtain ⟨_, -, h⟩ := except_bind_eq_ok.1 h
  obtain ⟨_, -, h⟩ := except_bind_eq_ok.1 h
  obtain ⟨_, -, h⟩ := except_bind_eq_ok.1 h
  obtain ⟨_, -, h⟩ := except_bind_eq_ok.1 h
  obtain ⟨mode_text, hmodetext, h⟩ := except_bind_eq_ok.1 h
  obtain ⟨mode, hmode, h⟩ := except_bind_eq_ok.1 h
  obtain ⟨limit, hlimit, h⟩ := except_bind_eq_ok.1 h
  obtain ⟨_, -, h⟩ := except_bind_eq_ok.1 h
  obtain ⟨_, -, h⟩ := except_bind_eq_ok.1 h
  obtain ⟨_, -, h⟩ := except_bind_eq_ok.1 h
  obtain ⟨_, -, h⟩ := except_bind_eq_ok.1 h
  have hm := PublicationManifest.make_ok h
  refine ⟨?_, ?_, ?_, ?_, ⟨lto_text, hltotext, ?_⟩, ⟨mode_text, hmodetext, ?_⟩, ?_, ?_⟩ <;> rw [hm]
  · exact hsource
  · exact hdsc
  · exact hrevision
  · exact hpolicy
  · exact hlto
  · exact hmode
  · exact hlimit
  · exact hgeneration

theorem lookup_rest {fields : List (String × Json)} {name : String} (h : name ≠ "artifacts" ∧ name ≠ "gc_queue") :
    (pop (pop fields "artifacts") "gc_queue").lookup name = fields.lookup name := by
  rw [lookup_pop, if_neg h.2, lookup_pop, if_neg h.1]

theorem required_rest {α : Type} {fields : List (String × Json)} {name : String} {read : Json → Except PyErr α}
    (h : name ≠ "artifacts" ∧ name ≠ "gc_queue") :
    required (pop (pop fields "artifacts") "gc_queue") name read = required fields name read := by
  rw [required, required, lookup_rest h]

theorem defaulted_rest {α : Type} {fields : List (String × Json)} {name : String} {default : α}
    {read : Json → Except PyErr α} (h : name ≠ "artifacts" ∧ name ≠ "gc_queue") :
    defaulted (pop (pop fields "artifacts") "gc_queue") name default read = defaulted fields name default read := by
  rw [defaulted, defaulted, lookup_rest h]

/-- A manifest is read from the object in its body. -/
theorem parse_manifest_readFrom {validate : String → Json → Except PyErr Unit} {body : ByteArray}
    {fields : List (String × Json)} {m : PublicationManifest}
    (hobject : State.object body "publication manifest" = .ok (.obj fields))
    (h : State.parse_manifest validate body = .ok m) : ReadFrom fields m := by
  unfold State.parse_manifest at h
  rw [hobject, except_ok_bind] at h
  obtain ⟨_, -, h⟩ := except_bind_eq_ok.1 h
  rw [obj_obj, except_ok_bind] at h
  cases hlookup : fields.lookup "artifacts" with
  | none =>
    rw [hlookup] at h
    cases h
  | some raw_artifacts =>
  simp only [hlookup, except_ok_bind] at h
  split at h
  · obtain ⟨artifacts, -, h⟩ := except_bind_eq_ok.1 h
    obtain ⟨queue, -, h⟩ := except_bind_eq_ok.1 h
    obtain ⟨h1, h2, h3, h4, h5, h6, h7, h8⟩ := ofKwargs_readFrom h
    rw [required_rest (by decide)] at h1 h2 h3 h4 h5 h8
    rw [defaulted_rest (by decide)] at h6 h7
    exact ⟨h1, h2, h3, h4, h5, h6, h7, h8⟩
  · cases h

theorem str_agrees {fields : List (String × Json)} {name value s : String} (h : strDiffers fields name value = false)
    (hread : required fields name str = .ok s) : s = value := by
  unfold strDiffers at h
  unfold required at hread
  split at h
  · next t hlookup =>
    rw [hlookup] at hread
    obtain rfl : t = s := Except.ok.inj hread
    simpa using h
  · cases h

theorem int_agrees {fields : List (String × Json)} {name : String} {value n : Int}
    (h : intDiffers fields name value = false) (hread : required fields name int = .ok n) : n = value := by
  unfold intDiffers at h
  unfold required at hread
  split at h
  · next k hlookup =>
    rw [hlookup] at hread
    obtain rfl : k = n := Except.ok.inj hread
    simpa using h
  · next b hlookup =>
    rw [hlookup] at hread
    cases hread
  · cases h

theorem option_agrees {fields : List (String × Json)} {name : String} {value x : Option Int}
    (h : optionDiffers fields name value = false) (hread : defaulted fields name none (orNone int) = .ok x) :
    x = value := by
  unfold defaulted at hread
  cases value with
  | none =>
    simp only [optionDiffers] at h
    split at h
    · next hlookup =>
      rw [hlookup] at hread
      exact (Except.ok.inj hread).symm
    · next hlookup =>
      rw [hlookup] at hread
      exact (Except.ok.inj hread).symm
    · cases h
  | some value =>
    simp only [optionDiffers, intDiffers] at h
    split at h
    · next k hlookup =>
      rw [hlookup] at hread
      obtain rfl : some k = x := Except.ok.inj hread
      simpa using h
    · next b hlookup =>
      rw [hlookup] at hread
      cases hread
    · cases h

/-- **A manifest that passes the gate** is the one of the decision. -/
theorem matches_agrees {validate : String → Json → Except PyErr Unit} {d : DiscoveryDecisionFields}
    {verified : Except PyErr Unit} {fields : List (String × Json)} {m : PublicationManifest}
    (h : publication_matches validate d verified (.ok (.obj fields)) = .ok ()) (hread : ReadFrom fields m) :
    Agrees d m := by
  obtain ⟨-, h⟩ := except_check_eq_ok.1 h
  obtain ⟨_, -, h⟩ := except_bind_eq_ok.1 h
  obtain ⟨_, -, h⟩ := except_bind_eq_ok.1 h
  obtain ⟨identity, -, h⟩ := except_bind_eq_ok.1 h
  obtain ⟨version, -, h⟩ := except_bind_eq_ok.1 h
  obtain ⟨hnone, -⟩ := except_check_eq_ok.1 h
  have hsame := List.filterMap_eq_nil_iff.1 (not_not.1 hnone)
  simp only [List.mem_cons, List.not_mem_nil, or_false, forall_eq_or_imp, forall_eq, ite_eq_right_iff, reduceCtorEq,
    imp_false, Bool.not_eq_true] at hsame
  obtain ⟨hpolicy, hrevision, -, hgeneration, hlto, hlimit, hmode, hdsc, hsource, -⟩ := hsame
  obtain ⟨lto, hltoread, hltoof⟩ := hread.lto_mode
  obtain ⟨mode, hmoderead, hmodeof⟩ := hread.retention_mode
  refine ⟨str_agrees hsource hread.source_version, str_agrees hdsc hread.source_dsc_sha256,
    int_agrees hrevision hread.dkc_revision, str_agrees hpolicy hread.build_policy_sha256, ?_, ?_,
    option_agrees hlimit hread.retention_max_bytes, int_agrees hgeneration hread.generation⟩
  · rw [str_agrees hlto hltoread, LtoMode.ofString_toString] at hltoof
    exact (Except.ok.inj hltoof).symm
  · have hrequired : required fields "retention_mode" str = .ok mode := by
      unfold strDiffers at hmode
      unfold defaulted at hmoderead
      unfold required
      split at hmode
      · next t hlookup =>
        rw [hlookup] at hmoderead
        rw [hlookup]
        exact hmoderead
      · cases hmode
    rw [str_agrees hmode hrequired, RetentionMode.ofString_toString] at hmodeof
    exact (Except.ok.inj hmodeof).symm

/-! ## Runs -/

/-- `s'` is of a later release: a newer source, or a higher revision of an equal one. -/
def Above (s s' : AuthoritativeState) : Prop :=
  ∃ v v', Debver.parse s.manifest.source_version = .ok v ∧ Debver.parse s'.manifest.source_version = .ok v' ∧
    (Debver.compare v v' < 0 ∨ (Debver.compare v v' = 0 ∧ s.manifest.dkc_revision < s'.manifest.dkc_revision))

/-- Both are of one release. -/
def Level (s s' : AuthoritativeState) : Prop :=
  ∃ v v', Debver.parse s.manifest.source_version = .ok v ∧ Debver.parse s'.manifest.source_version = .ok v' ∧
    Debver.compare v v' = 0 ∧ s.manifest.dkc_revision = s'.manifest.dkc_revision

/-- Both are built from one descriptor under one policy. -/
def SameBuild (s s' : AuthoritativeState) : Prop :=
  s.manifest.source_dsc_sha256 = s'.manifest.source_dsc_sha256 ∧
    s.manifest.build_policy_sha256 = s'.manifest.build_policy_sha256 ∧ s.manifest.lto_mode = s'.manifest.lto_mode

/-- `s'` may be published after `s`. -/
def Follows (s s' : AuthoritativeState) : Prop := (Above s s' ∨ Level s s') ∧ (Level s s' → SameBuild s s')

/-- The release as a value of a linear order. -/
def rank (v : DebianVersion) (s : AuthoritativeState) := toLex (Debver.key v, s.manifest.dkc_revision)

theorem rank_lt {v v' : DebianVersion} {s s' : AuthoritativeState} : rank v s < rank v' s' ↔
    Debver.compare v v' < 0 ∨ (Debver.compare v v' = 0 ∧ s.manifest.dkc_revision < s'.manifest.dkc_revision) := by
  rw [rank, rank, Prod.Lex.toLex_lt_toLex, Debver.compare_neg, Debver.compare_eq_zero]

theorem rank_eq {v v' : DebianVersion} {s s' : AuthoritativeState} : rank v s = rank v' s' ↔
    Debver.compare v v' = 0 ∧ s.manifest.dkc_revision = s'.manifest.dkc_revision := by
  rw [rank, rank, toLex_inj, Prod.mk.injEq, Debver.compare_eq_zero]

theorem above_or_level {s s' : AuthoritativeState} : Above s s' ∨ Level s s' ↔
    ∃ v v', Debver.parse s.manifest.source_version = .ok v ∧ Debver.parse s'.manifest.source_version = .ok v' ∧
      rank v s ≤ rank v' s' := by
  simp only [Above, Level, ← rank_lt, ← rank_eq, le_iff_lt_or_eq]
  constructor
  · rintro (⟨v, v', h, h', hlt⟩ | ⟨v, v', h, h', heq⟩)
    · exact ⟨v, v', h, h', .inl hlt⟩
    · exact ⟨v, v', h, h', .inr heq⟩
  · rintro ⟨v, v', h, h', hlt | heq⟩
    · exact .inl ⟨v, v', h, h', hlt⟩
    · exact .inr ⟨v, v', h, h', heq⟩

theorem Follows.trans {a b c : AuthoritativeState} (hab : Follows a b) (hbc : Follows b c) : Follows a c := by
  obtain ⟨v, v', hv, hv', hle⟩ := above_or_level.1 hab.1
  obtain ⟨w, w', hw, hw', hle'⟩ := above_or_level.1 hbc.1
  obtain rfl : v' = w := Except.ok.inj (hv'.symm.trans hw)
  refine ⟨above_or_level.2 ⟨v, w', hv, hw', hle.trans hle'⟩, ?_⟩
  rintro ⟨x, x', hx, hx', hlevel⟩
  obtain rfl : v = x := Except.ok.inj (hv.symm.trans hx)
  obtain rfl : w' = x' := Except.ok.inj (hw'.symm.trans hx')
  -- the middle one is of the same release
  have heq : rank v a = rank w' c := rank_eq.2 hlevel
  have hmid : rank v a = rank v' b := le_antisymm hle (heq ▸ hle')
  obtain ⟨hdsc, hpolicy, hlto⟩ := hab.2 ⟨v, v', hv, hv', rank_eq.1 hmid⟩
  obtain ⟨hdsc', hpolicy', hlto'⟩ := hbc.2 ⟨v', w', hv', hw', rank_eq.1 (hmid.symm.trans heq)⟩
  exact ⟨hdsc.trans hdsc', hpolicy.trans hpolicy', hlto.trans hlto'⟩

section
variable (formats : String → String → Bool) (hexdigest : ByteArray → String)
  (validate : String → Json → Except PyErr Unit) (parsedate_to_datetime : String → Except PyErr Datetime)

/-- The gate accepts a manifest for a decision, and the manifest is the one of the state. -/
def Published (d : DiscoveryDecision) (s : AuthoritativeState) : Prop :=
  ∃ root verified body fields, ReleaseGate.load_discovery_decision formats hexdigest root = .ok d ∧
    require_publication_matches_decision formats hexdigest validate root verified (.ok (.obj fields)) = .ok () ∧
    State.object body "publication manifest" = .ok (.obj fields) ∧ State.parse_manifest validate body = .ok s.manifest

/-- The input of a decision, the decision, and what was committed. -/
structure Entry where
  observation : Observation
  now : Datetime
  seconds : Int
  read : Bool
  decision : DiscoveryDecision
  committed : Option AuthoritativeState

/-- One decision on the state that was read, and the state after it. Where the read fails, `decide` may be
given any state. -/
inductive Step : Option AuthoritativeState → Entry → Option AuthoritativeState → Prop
  | decided {state given committed : Option AuthoritativeState} {o : Observation} {now : Datetime}
      {read bootstrap : Bool} {seconds : Int} {d : DiscoveryDecision} (hgiven : read = true → given = state)
      (hdecide : decide parsedate_to_datetime o now given read bootstrap seconds = .ok d)
      (hcommitted : ∀ s ∈ committed, d.publish_allowed = true ∧ Published formats hexdigest validate d s) :
      Step state ⟨o, now, seconds, read, d, committed⟩ (committed.or state)

inductive Run : Option AuthoritativeState → List Entry → Option AuthoritativeState → Prop
  | nil {state} : Run state [] state
  | cons {state next final entry entries} (hstep : Step formats hexdigest validate parsedate_to_datetime state entry next)
      (hrun : Run next entries final) : Run state (entry :: entries) final

end

/-- The states that were committed. -/
def commits (entries : List Entry) : List AuthoritativeState := entries.filterMap (·.committed)

/-- The state after some decisions. -/
def latest : Option AuthoritativeState → List Entry → Option AuthoritativeState
  | state, [] => state
  | state, entry :: entries => latest (entry.committed.or state) entries

/-- How a commit moves from the state before it. -/
def Moves : Option AuthoritativeState → DiscoveryDecisionFields → AuthoritativeState → Prop
  | none, d, s' => d.decision = .build ∧ s'.manifest.generation = 0
  | some s, d, s' => s'.manifest.generation = s.manifest.generation + 1 ∧
    (d.decision = .build ∧ Above s s' ∨ d.decision = .maintenance ∧ Level s s')

section
variable {formats : String → String → Bool} {hexdigest : ByteArray → String}
  {validate : String → Json → Except PyErr Unit} {parsedate_to_datetime : String → Except PyErr Datetime}

theorem Published.agrees {d : DiscoveryDecision} {s : AuthoritativeState}
    (h : Published formats hexdigest validate d s) : Agrees d.toDiscoveryDecisionFields s.manifest := by
  obtain ⟨root, verified, body, fields, hload, hgate, hobject, hparse⟩ := h
  rw [require_publication_matches_decision, hload, except_ok_bind] at hgate
  exact matches_agrees hgate (parse_manifest_readFrom hobject hparse)

/-- **One commit**: it follows the state before it, as its decision says. -/
theorem Step.moves {state next : Option AuthoritativeState} {entry : Entry}
    (h : Step formats hexdigest validate parsedate_to_datetime state entry next) {s' : AuthoritativeState}
    (hs' : s' ∈ entry.committed) :
    Moves state entry.decision.toDiscoveryDecisionFields s' ∧ ∀ s ∈ state, Follows s s' := by
  obtain @⟨given, committed, o, now, read, bootstrap, seconds, d, hgiven, hdecide, hcommitted⟩ := h
  obtain ⟨hallowed, hpublished⟩ := hcommitted s' hs'
  have hagrees := hpublished.agrees
  obtain ⟨hcarries, source, hsource, hcases⟩ := decide_ok hdecide
  have hparse : Debver.parse s'.manifest.source_version = .ok source := by
    rw [hagrees.source_version, hcarries.source_version, hsource]
  have hrevision' : s'.manifest.dkc_revision = o.dkc_revision := hagrees.dkc_revision.trans hcarries.dkc_revision
  have hwork := (publish_allowed_iff d).1 hallowed
  rcases hcases with ⟨hbare, hnone⟩ | ⟨hread, s, hs, hgeneration, hcases⟩
  · rcases hbare with hblocked | ⟨hbuild, hread, hstate⟩
    · rw [hblocked] at hwork
      rcases hwork with h | h <;> cases h
    · obtain rfl : state = none := (hgiven hread).symm.trans (hnone hread)
      refine ⟨⟨hbuild, ?_⟩, fun s hs => by cases hs⟩
      rw [hagrees.generation, expected_generation, hstate]
  · obtain rfl : state = some s := (hgiven hread).symm.trans hs
    have hnext : s'.manifest.generation = s.manifest.generation + 1 := by
      rw [hagrees.generation, expected_generation, hgeneration, s.generation_eq]
    rcases hcases with hblocked | hno | hcases
    · rw [hblocked] at hwork
      rcases hwork with h | h <;> cases h
    · rw [hno] at hwork
      rcases hwork with h | h <;> cases h
    have hone {P : AuthoritativeState → Prop} (hP : P s) : ∀ t ∈ some s, P t := fun t ht => by cases ht; exact hP
    have hapart {published : DebianVersion} (hp : Debver.parse s.manifest.source_version = .ok published)
        (hlt : rank published s < rank source s') : Follows s s' := by
      refine ⟨.inl ⟨published, source, hp, hparse, rank_lt.1 hlt⟩, ?_⟩
      rintro ⟨v, v', hv, hv', hlevel⟩
      obtain rfl : published = v := Except.ok.inj (hp.symm.trans hv)
      obtain rfl : source = v' := Except.ok.inj (hparse.symm.trans hv')
      exact absurd (rank_eq.2 hlevel) hlt.ne
    cases hcases with
    | newer hdecision hp hnewer =>
      next published =>
      have hlt : rank published s < rank source s' :=
        rank_lt.2 (.inl (by rw [Debver.compare_swap]; omega))
      exact ⟨⟨hnext, .inl ⟨hdecision, published, source, hp, hparse, rank_lt.1 hlt⟩⟩, hone (hapart hp hlt)⟩
    | revision hdecision hp hsame hdsc hrevision =>
      next published =>
      have hlt : rank published s < rank source s' :=
        rank_lt.2 (.inr ⟨by rw [Debver.compare_swap, hsame]; rfl, by omega⟩)
      exact ⟨⟨hnext, .inl ⟨hdecision, published, source, hp, hparse, rank_lt.1 hlt⟩⟩, hone (hapart hp hlt)⟩
    | maintenance hdecision hp hsame hdsc hrevision hpolicy hlto =>
      next published =>
      have hlevel : Level s s' :=
        ⟨published, source, hp, hparse, by rw [Debver.compare_swap, hsame]; rfl, by omega⟩
      refine ⟨⟨hnext, .inr ⟨hdecision, hlevel⟩⟩, hone ⟨.inr hlevel, fun _ => ⟨?_, ?_, ?_⟩⟩⟩
      · rw [hagrees.source_dsc_sha256, hcarries.source_dsc_sha256, hdsc]
      · rw [hagrees.build_policy_sha256, hcarries.build_policy_sha256, hpolicy]
      · rw [hagrees.lto_mode, hcarries.lto_mode, hlto]

theorem Step.next_eq {state next : Option AuthoritativeState} {entry : Entry}
    (h : Step formats hexdigest validate parsedate_to_datetime state entry next) : next = entry.committed.or state := by
  cases h
  rfl

theorem Step.blocked {state next : Option AuthoritativeState} {entry : Entry}
    (h : Step formats hexdigest validate parsedate_to_datetime state entry next) (hread : entry.read = false) :
    entry.decision.decision = .blocked := by
  obtain @⟨given, committed, o, now, read, bootstrap, seconds, d, hgiven, hdecide, hcommitted⟩ := h
  obtain rfl : read = false := hread
  obtain ⟨-, source, -, ⟨hblocked | ⟨-, hread, -⟩, -⟩ | ⟨hread, -⟩⟩ := decide_ok hdecide
  · exact hblocked
  · cases hread
  · cases hread

/-- A decision without the state asks for nothing. -/
theorem Step.unread {state next : Option AuthoritativeState} {entry : Entry}
    (h : Step formats hexdigest validate parsedate_to_datetime state entry next) (hread : entry.read = false) :
    entry.decision.build_required = false ∧ entry.decision.maintenance_required = false ∧
      entry.decision.publish_allowed = false := by
  have hflags := flags entry.decision
  rw [h.blocked hread] at hflags
  exact ⟨congrArg (·.1) hflags, congrArg (·.2.1) hflags, congrArg (·.2.2) hflags⟩

/-- What is committed was work. -/
theorem Step.work {state next : Option AuthoritativeState} {entry : Entry}
    (h : Step formats hexdigest validate parsedate_to_datetime state entry next) {s : AuthoritativeState}
    (hs : s ∈ entry.committed) : entry.decision.decision = .build ∨ entry.decision.decision = .maintenance := by
  obtain @⟨given, committed, o, now, read, bootstrap, seconds, d, hgiven, hdecide, hcommitted⟩ := h
  exact (publish_allowed_iff d).1 (hcommitted s hs).1

theorem Run.moves {start final : Option AuthoritativeState} {entries : List Entry}
    (h : Run formats hexdigest validate parsedate_to_datetime start entries final) :
    ∀ pre entry post, entries = pre ++ entry :: post → ∀ s' ∈ entry.committed,
      Moves (latest start pre) entry.decision.toDiscoveryDecisionFields s' := by
  induction h with
  | nil => intro pre entry post heq; simp at heq
  | cons hstep hrun ih =>
    intro pre entry post heq s' hs'
    cases pre with
    | nil =>
      obtain ⟨rfl, -⟩ := List.cons_eq_cons.1 heq
      exact (hstep.moves hs').1
    | cons first pre =>
      obtain ⟨rfl, htail⟩ := List.cons_eq_cons.1 heq
      rw [latest, ← hstep.next_eq]
      exact ih pre entry post htail s' hs'

theorem Run.follows {start final : Option AuthoritativeState} {entries : List Entry}
    (h : Run formats hexdigest validate parsedate_to_datetime start entries final) :
    (commits entries).Pairwise Follows ∧ ∀ s ∈ start, ∀ s' ∈ commits entries, Follows s s' := by
  induction h with
  | nil => exact ⟨.nil, fun _ _ _ h => by cases h⟩
  | @cons state next final entry entries hstep hrun ih =>
    obtain rfl := hstep.next_eq
    cases hcommitted : entry.committed with
    | none =>
      rw [hcommitted, Option.none_or] at ih
      rw [commits, List.filterMap_cons_none hcommitted]
      exact ih
    | some s' =>
      rw [hcommitted, Option.some_or] at ih
      have hfollows := ih.2 s' rfl
      rw [commits, List.filterMap_cons_some hcommitted]
      refine ⟨.cons hfollows ih.1, fun s hs t ht => ?_⟩
      have hs' := (hstep.moves hcommitted).2 s hs
      rcases List.mem_cons.1 ht with rfl | ht
      · exact hs'
      · exact hs'.trans (hfollows t ht)

theorem Run.unread {start final : Option AuthoritativeState} {entries : List Entry}
    (h : Run formats hexdigest validate parsedate_to_datetime start entries final) :
    ∀ entry ∈ entries, entry.read = false → entry.decision.build_required = false ∧
      entry.decision.maintenance_required = false ∧ entry.decision.publish_allowed = false := by
  induction h with
  | nil => intro entry hmem; cases hmem
  | cons hstep hrun ih =>
    intro entry hmem hread
    rcases List.mem_cons.1 hmem with rfl | hmem
    · exact hstep.unread hread
    · exact ih entry hmem hread

end

/-! ## A bootstrap

The three files of the decision that are hashed differ in their sizes. -/

namespace Sample

def hexdigest (b : ByteArray) : String :=
  if b.size = 536 then "555cd2e85572b523dac7a157a926ea186abb950e844a5c6b083f0ec47f2e935a"
  else if b.size = 371 then "0a681e84e751528669817dd3bbae0861a91433bb40bbcd461a91a8dfefcf3c34"
  else "61448b9931d3f57443557cd8cbb0bd86ca9506ee1eca3dcf362556bfb8db58a4"

theorem isSha256_hexdigest (b : ByteArray) : Records.isSha256 (hexdigest b) = true := by
  unfold hexdigest
  split_ifs <;> decide +kernel

def parsedate_to_datetime (raw : String) : Except PyErr Datetime :=
  if raw = "Mon, 31 Aug 2026 12:00:00 GMT" then .ok ⟨63923774400000000, true⟩
  else .error (.ValueError "invalid date value or format")

def observation : Observation where
  source_version := "7.1.7-1"
  source_dsc_sha256 := State.Sample.digest
  dkc_revision := 1
  build_policy_sha256 := State.Sample.digest
  lto_mode := .thin
  retention_mode := .series_size
  retention_max_bytes := some 9500000000

/-- 2026-08-17T12:00:00Z. -/
def now : Datetime := ⟨63922564800000000, true⟩

def decision : DiscoveryDecision :=
  ⟨{ observation.record "2026-08-17T12:00:00Z" with
      decision := .build
      build_required := true
      publish_allowed := true
      authoritative_state_read := true
      reason := some "bootstrap an empty repository" }, by decide +kernel⟩

theorem decided : decide parsedate_to_datetime observation now none true true 604800 = .ok decision := by
  decide +kernel

/-- What is decided where the state cannot be read. -/
def unread : DiscoveryDecision :=
  ⟨{ observation.record "2026-08-17T12:00:00Z" with reason := some "authoritative state could not be read" },
    by decide +kernel⟩

theorem decided_unread : decide parsedate_to_datetime observation now none false true 604800 = .ok unread := by
  decide +kernel

theorem decision_valid : DiscoveryDecision.validate ReleaseGate.Sample.formats decision.to_dict = .ok () := by
  decide +kernel

theorem meta_distinct : ([("dkc-linux-image", "7.1.7-1+dkc13.1")].map (·.1)).Nodup := by decide

def manifest : PublicationManifest :=
  ⟨{ generation := 0, publication_id := "publish-1", transaction_id := "publish-1", source_version := "7.1.7-1",
     source_dsc_sha256 := State.Sample.digest, dkc_version := "7.1.7-1+dkc13.1", dkc_revision := 1,
     build_policy_sha256 := State.Sample.digest, lto_mode := .thin, build_id := "0123456789ab",
     retained_series := [[7, 1]], artifacts := [State.Sample.artifact], live_objects := ["pool/dkc.deb"],
     apt_metadata := ⟨[("valid_until", .str "Mon, 31 Aug 2026 12:00:00 GMT")], by decide⟩,
     meta_packages := ⟨[("dkc-linux-image", "7.1.7-1+dkc13.1")], meta_distinct⟩,
     created_utc := "2026-08-17T13:00:00Z", retention_mode := .series_size,
     retention_max_bytes := some 9500000000 }, by decide +kernel⟩

def pointer : StatePointer :=
  ⟨{ generation := 0, publication_id := "publish-1", manifest_key := "state/publications/publish-1/manifest.json",
     manifest_sha256 := State.Sample.digest, committed_utc := "2026-08-17T13:00:00Z" }, by decide +kernel⟩

def state : AuthoritativeState :=
  ⟨{ pointer := pointer, manifest := manifest.read, state_etag := "1", manifest_etag := "2",
     storage_object_count := 2, storage_size := 3000 }, by decide +kernel⟩

def inventory : List (String × Nat) := [("pool/dkc.deb", 1000), ("state/current.asc", 2000)]

/-- Every manifest passes the schema check of this sample. -/
def validate (_ : String) (_ : Json) : Except PyErr Unit := .ok ()

theorem gate_passes : publication_matches validate decision.toDiscoveryDecisionFields (.ok ())
    (.ok (.obj (Json.wireFields (PublicationManifest.asdict manifest.toPublicationManifestFields)))) = .ok () := by
  decide +kernel

theorem published : Published ReleaseGate.Sample.formats hexdigest validate decision state := by
  obtain ⟨root, hroot⟩ := @ReleaseGate.write_succeeds _ hexdigest _ decision_valid
  have hload := ReleaseGate.load_back isSha256_hexdigest decision_valid hroot rfl (by decide +kernel)
  obtain ⟨body, hbody⟩ : ∃ body, Serialize.canonical_bytes manifest.to_dict = .ok body :=
    Serialize.canonical_bytes_ok ((Json.clean_iff _).2 ⟨manifest.to_dict_distinct,
      PublicationManifest.to_dict_floats (by decide)⟩)
  refine ⟨root, .ok (), body, _, hload, ?_, State.object_canonical _ manifest.to_dict_distinct hbody,
    State.parse_manifest_canonical rfl hbody⟩
  rw [require_publication_matches_decision, hload]
  exact gate_passes

end Sample

end Lifecycle
