import DkcLinux.KbuildCommands
import DkcLinux.Text.Lines

/-!
# What a passed audit says of the kernel's C compiles

A rejection is never taken back, the cap on the recorded errors included (`reject_ne`, `rejectAll_clean`), so a log that
passes was clean after each of its records (`fold_clean`) and every check on the way of a record held (`audit_clang_clean`).

| the check | what it gives |
| --- | --- |
| `_positive_simd_flags tokens = []` | no token that the pattern matches (`positive_nil_iff`) |
| `marches tokens = [march]`, `no_simd_violation … = []` | the order of the flags (`ordered_of_checks`) |

The pattern has `sse.*`, which `ssse3` does not match, and eight names without `.*`. What it misses is `Unlisted`
(`enables_iff`), and a log that passes is free of vector code exactly if none of its kernel C compiles has such a
token (`passed_free_iff`).
-/

namespace KbuildAudit

open Py SourceProfile

/-! ## The vector extensions -/

/-- The extensions of the MMX, 3DNow!, SSE, SSSE3, AVX, FMA, F16C, AMX, AES, SHA, PCLMUL and GFNI families. -/
def VECTOR_STEMS : List String :=
  ["mmx", "3dnow", "sse", "ssse3", "avx", "fma", "f16c", "amx", "aes", "sha", "pclmul", "gfni", "vaes", "vpclmulqdq"]

/-- `-m<ext>` for an extension of these families. -/
def EnablesVector (token : Text) : Prop := ∃ ext, token = '-' :: 'm' :: ext ∧ ∃ stem ∈ VECTOR_STEMS, stem.toList <+: ext

/-- The stems with `.*` in the pattern. -/
def OPEN_STEMS : List String := ["sse", "avx", "3dnow", "fma", "amx"]

/-- The names without `.*` in the pattern. -/
def CLOSED_NAMES : List String := ["mmx", "f16c", "sha", "aes", "pclmul", "gfni", "vaes", "vpclmulqdq"]

/-- `-mssse3`, and longer names than the closed ones, such as `-msha512`. -/
def Unlisted (token : Text) : Prop :=
  ∃ ext, token = '-' :: 'm' :: ext ∧
    ("ssse3".toList <+: ext ∨ ∃ name ∈ CLOSED_NAMES, name.toList <+: ext ∧ ext ≠ name.toList)

theorem starts_iff {token : Text} {p : String} : starts token p = true ↔ p.toList <+: token := List.isPrefixOf_iff_prefix

theorem mem_vector_stems {stem : String} : stem ∈ VECTOR_STEMS ↔ stem = "ssse3" ∨ stem ∈ OPEN_STEMS ∨ stem ∈ CLOSED_NAMES := by
  simp only [VECTOR_STEMS, OPEN_STEMS, CLOSED_NAMES, List.mem_cons, List.not_mem_nil, or_false]
  tauto

theorem starts_m_iff {token : Text} : starts token "-m" = true ↔ ∃ ext, token = '-' :: 'm' :: ext := by
  rw [starts_iff]
  constructor
  · rintro ⟨ext, rfl⟩
    exact ⟨ext, rfl⟩
  · rintro ⟨ext, rfl⟩
    exact ⟨ext, rfl⟩

theorem matches_family_iff {open_ended exact : List String} {name : Text} :
    matches_family open_ended exact name = true ↔
      (∃ e ∈ exact, name = e.toList) ∨ '\n' ∉ name ∧ ∃ stem ∈ open_ended, stem.toList <+: name := by
  simp [matches_family, starts_iff]

theorem vector_flag_iff {token : Text} : vector_flag token = true ↔ ∃ ext, token = '-' :: 'm' :: ext ∧
    ((∃ name ∈ CLOSED_NAMES, ext = name.toList) ∨ '\n' ∉ ext ∧ ∃ stem ∈ OPEN_STEMS, stem.toList <+: ext) := by
  have hdef : vector_flag token = (starts token "-m" && matches_family OPEN_STEMS CLOSED_NAMES (token.drop 2)) := rfl
  rw [hdef, Bool.and_eq_true, starts_m_iff, matches_family_iff]
  constructor
  · rintro ⟨⟨ext, rfl⟩, h⟩
    exact ⟨ext, rfl, h⟩
  · rintro ⟨ext, rfl, h⟩
    exact ⟨⟨ext, rfl⟩, h⟩

/-- **The pattern finds a vector flag unless it is one of the unlisted.** -/
theorem enables_iff {token : Text} (hline : '\n' ∉ token) :
    EnablesVector token ↔ vector_flag token = true ∨ Unlisted token := by
  rw [vector_flag_iff]
  constructor
  · rintro ⟨ext, rfl, stem, hstem, hprefix⟩
    rcases mem_vector_stems.1 hstem with rfl | hopen | hclosed
    · exact .inr ⟨ext, rfl, .inl hprefix⟩
    · have hext : '\n' ∉ ext := fun h => hline (List.mem_cons_of_mem _ (List.mem_cons_of_mem _ h))
      exact .inl ⟨ext, rfl, .inr ⟨hext, stem, hopen, hprefix⟩⟩
    · by_cases hexact : ext = stem.toList
      · exact .inl ⟨ext, rfl, .inl ⟨stem, hclosed, hexact⟩⟩
      · exact .inr ⟨ext, rfl, .inr ⟨stem, hclosed, hprefix, hexact⟩⟩
  · rintro (⟨ext, rfl, ⟨name, hname, rfl⟩ | ⟨-, stem, hstem, hprefix⟩⟩ | ⟨ext, rfl, hprefix | ⟨name, hname, hprefix, -⟩⟩)
    · exact ⟨_, rfl, name, mem_vector_stems.2 (.inr (.inr hname)), List.prefix_refl _⟩
    · exact ⟨ext, rfl, stem, mem_vector_stems.2 (.inr (.inl hstem)), hprefix⟩
    · exact ⟨ext, rfl, "ssse3", mem_vector_stems.2 (.inl rfl), hprefix⟩
    · exact ⟨ext, rfl, name, mem_vector_stems.2 (.inr (.inr hname)), hprefix⟩

/-- No extension starts like `no-`. -/
theorem not_starts_mno {token : Text} (h : EnablesVector token) : starts token "-mno-" = false := by
  obtain ⟨ext, rfl, stem, hstem, rest, rfl⟩ := h
  have hhead : stem.toList.head?.any (· ≠ 'n') = true := by
    revert stem
    decide
  cases hchars : stem.toList with
  | nil =>
    rw [hchars] at hhead
    cases hhead
  | cons c chars =>
    rw [hchars] at hhead
    have hc : c ≠ 'n' := by simpa using hhead
    rw [Bool.eq_false_iff, ne_eq, starts_iff]
    rintro ⟨more, hmore⟩
    have hthird : some 'n' = some c := congrArg (fun chars : Text => chars[2]?) hmore
    exact hc (Option.some.inj hthird).symm

theorem mem_sorted_set {tokens : List Text} {token : Text} : token ∈ sorted_set tokens ↔ token ∈ tokens := by
  rw [sorted_set, List.mem_insertionSort, List.mem_dedup]

theorem positive_nil_iff {tokens : List Text} (hlines : ∀ token ∈ tokens, '\n' ∉ token) :
    _positive_simd_flags tokens = [] ↔ ∀ token ∈ tokens, vector_flag token = false := by
  rw [List.eq_nil_iff_forall_not_mem]
  constructor
  · intro h token htoken
    rw [Bool.eq_false_iff]
    intro hflag
    refine h token (mem_sorted_set.2 (List.mem_filter.2 ⟨htoken, ?_⟩))
    rw [hflag, not_starts_mno ((enables_iff (hlines token htoken)).2 (.inl hflag))]
    rfl
  · intro h token htoken
    obtain ⟨htoken, hflag⟩ := List.mem_filter.1 (mem_sorted_set.1 htoken)
    rw [h token htoken] at hflag
    cases hflag

/-! ## The order of the flags -/

/-- The last place of a flag. -/
def LastAt (tokens : List Text) (flag : Text) (k : Nat) : Prop :=
  tokens[k]? = some flag ∧ ∀ l, tokens[l]? = some flag → l ≤ k

/-- The expected `-march` is the only one, and each no-SIMD flag has its last place after it. -/
def Ordered (policy : FlavorPolicy) (tokens : List Text) : Prop :=
  ∃ i, tokens[i]? = some (expected_march policy) ∧
    (∀ j token, tokens[j]? = some token → starts token "-march=" = true → j = i) ∧
    ∀ flag ∈ policy.c_no_simd_flags, ∃ k, LastAt tokens flag.toList k ∧ i < k

theorem mem_flag_positions {tokens : List Text} {flag : String} {k : Nat} :
    k ∈ _flag_positions tokens flag ↔ tokens[k]? = some flag.toList := by
  simp [_flag_positions, List.mem_zipIdx_iff_getElem?]

theorem flag_positions_sorted (tokens : List Text) (flag : String) : (_flag_positions tokens flag).Pairwise (· < ·) := by
  have hall : (tokens.zipIdx.map (·.2)).Pairwise (· < ·) := by
    rw [List.zipIdx_map_snd]
    exact List.pairwise_lt_range'
  exact hall.sublist (List.filter_sublist.map _)

theorem lastAt_of_getLast {tokens : List Text} {flag : String} {k : Nat} (h : (_flag_positions tokens flag).getLast? = some k) :
    LastAt tokens flag.toList k := by
  obtain ⟨before, hpositions⟩ := List.getLast?_eq_some_iff.1 h
  have hsorted := flag_positions_sorted tokens flag
  rw [hpositions, List.pairwise_append] at hsorted
  refine ⟨mem_flag_positions.1 (hpositions ▸ List.mem_append_right _ List.mem_cons_self), fun l hl => ?_⟩
  have hmem := mem_flag_positions.2 hl
  rw [hpositions, List.mem_append, List.mem_singleton] at hmem
  rcases hmem with hbefore | rfl
  · exact (hsorted.2.2 l hbefore k List.mem_cons_self).le
  · exact le_refl _

theorem no_simd_violation_nil {target : Text} {tokens : List Text} {march : Text} {required : String}
    (h : no_simd_violation target tokens march required = []) :
    ∃ k, LastAt tokens required.toList k ∧ tokens.idxOf march ≤ k := by
  unfold no_simd_violation at h
  split at h
  · cases h
  · next position hlast =>
    split at h
    · cases h
    · next hplace => exact ⟨position, lastAt_of_getLast hlast, not_lt.1 hplace⟩

theorem ordered_of_checks {policy : FlavorPolicy} {target : Text} {tokens : List Text}
    (hmarches : marches tokens = [expected_march policy])
    (hflags : policy.c_no_simd_flags.flatMap (no_simd_violation target tokens (expected_march policy)) = []) :
    Ordered policy tokens := by
  obtain ⟨before, after, rfl, hbefore, hmarch, hafter⟩ := List.filter_eq_cons_iff.1 hmarches
  have hunseen : expected_march policy ∉ before := fun h => hbefore _ h hmarch
  have hindex : (before ++ expected_march policy :: after).idxOf (expected_march policy) = before.length := by
    rw [List.idxOf_append_of_notMem hunseen, List.idxOf_cons_self, Nat.add_zero]
  refine ⟨before.length, by simp, ?_, ?_⟩
  · intro j token hj hstarts
    rcases lt_trichotomy j before.length with hlt | heq | hgt
    · rw [List.getElem?_append_left hlt] at hj
      exact absurd hstarts (hbefore token (List.mem_of_getElem? hj))
    · exact heq
    · rw [List.getElem?_append_right hgt.le] at hj
      obtain ⟨n, hn⟩ : ∃ n, j - before.length = n + 1 := ⟨j - before.length - 1, by omega⟩
      rw [hn, List.getElem?_cons_succ] at hj
      exact absurd hstarts (List.filter_eq_nil_iff.1 hafter token (List.mem_of_getElem? hj))
  · intro flag hflag
    obtain ⟨k, hlast, hplace⟩ := no_simd_violation_nil (List.flatMap_eq_nil_iff.1 hflags flag hflag)
    rw [hindex] at hplace
    refine ⟨k, hlast, lt_of_le_of_ne hplace ?_⟩
    rintro rfl
    -- a no-SIMD flag is no `-march`
    have hsame : flag.toList = expected_march policy := by simpa using hlast.1.symm
    have hother : ∀ flag ∈ C_NO_SIMD_FLAGS, starts flag.toList "-march=" = false := by decide
    rw [← hsame] at hmarch
    exact absurd hmarch (by rw [hother flag hflag]; exact Bool.false_ne_true)

/-! ## No rejection is taken back -/

theorem reject_ne (s : State) (violation : Violation) : (s.reject violation).errors ≠ [] := by
  unfold State.reject
  split
  · simp
  · next hfull =>
    intro h
    rw [h] at hfull
    exact hfull (by decide)

theorem rejectIf_clean {s : State} {condition : Bool} {violation : Violation} :
    (s.rejectIf condition violation).errors = [] ↔ condition = false ∧ s.errors = [] := by
  cases condition with
  | false => simp [State.rejectIf]
  | true => simp [State.rejectIf, reject_ne]

theorem rejectAll_clean {s : State} {violations : List Violation} :
    (s.rejectAll violations).errors = [] ↔ violations = [] ∧ s.errors = [] := by
  induction violations generalizing s with
  | nil => simp [State.rejectAll]
  | cons violation violations ih =>
    have hstep : s.rejectAll (violation :: violations) = (s.reject violation).rejectAll violations := rfl
    rw [hstep, ih]
    simp [reject_ne]

@[simp] theorem count_errors (s : State) (name : String) : (s.count name).errors = s.errors := rfl

theorem audit_kernel_rust_clean {policy : FlavorPolicy} {target : Text} {tokens : List Text} {s : State}
    (h : (audit_kernel_rust policy target tokens s).errors = []) : s.errors = [] := by
  unfold audit_kernel_rust at h
  obtain ⟨-, h⟩ := rejectIf_clean.1 h
  obtain ⟨-, h⟩ := rejectAll_clean.1 h
  split at h
  · exact absurd h (reject_ne _ _)
  · exact (rejectIf_clean.1 (rejectIf_clean.1 h).2).2

theorem audit_rust_clean {policy : FlavorPolicy} {target : Text} {tokens : List Text} {s : State}
    (h : (audit_rust policy target tokens s).errors = []) : s.errors = [] := by
  rw [audit_rust] at h
  by_cases hrust : (tokens.any fun token => path_name token = "rustc".toList) = true
  · rw [if_pos hrust] at h
    by_cases hkernel : _is_kernel_rust tokens = true
    · rw [if_pos hkernel] at h
      exact audit_kernel_rust_clean (s := s.count "kernel_rust") h
    · rw [if_neg hkernel] at h
      exact (rejectIf_clean.1 h).2
  · rwa [if_neg hrust] at h

theorem audit_assembly_clean {target : Text} {tokens : List Text} {s : State} (h : (audit_assembly target tokens s).errors = []) :
    s.errors = [] := by
  unfold audit_assembly at h
  split at h
  · dsimp only at h
    split at h
    · exact absurd h (reject_ne _ _)
    · exact (rejectIf_clean.1 h).2
  · exact h

theorem audit_special_c_clean {target : Text} {tokens : List Text} {s : State}
    (h : (audit_special_c target tokens s).errors = []) : s.errors = [] ∧ _positive_simd_flags tokens = [] := by
  unfold audit_special_c at h
  simp only [rejectIf_clean, decide_eq_false_iff_not, not_not] at h
  exact ⟨h.2.2.2.2, h.1⟩

theorem audit_lto_clean {kbuild : KbuildAuditPolicy} {lto_mode : String} {target : Text} {tokens : List Text} {s : State}
    (h : (audit_lto kbuild lto_mode target tokens s).errors = []) : s.errors = [] := by
  unfold audit_lto at h
  dsimp only at h
  generalize (lto_mode ≠ "none" && kbuild.lto_excluded_c_targets.contains (String.ofList target)) = excluded at h
  generalize (if excluded = true then [] else expected_lto_flags lto_mode) = expected at h
  split at h
  · exact absurd h (reject_ne _ _)
  · split at h
    · exact (rejectIf_clean.1 h).2
    · split at h
      · exact h
      · simp only [rejectIf_clean] at h
        exact h.2.2.2

theorem audit_fpu_clean {policy : FlavorPolicy} {target : Text} {tokens : List Text} {s : State}
    (h : (audit_fpu policy target tokens s).errors = []) : s.errors = [] ∧
      (String.ofList target ∉ policy.intentional_fpu_objects → _positive_simd_flags tokens = []) := by
  unfold audit_fpu at h
  dsimp only at h
  split at h
  · simp only [rejectIf_clean] at h
    obtain ⟨hallowed, -, -, hs⟩ := h
    refine ⟨hs, fun hout => absurd ?_ hout⟩
    simpa using hallowed
  · next hplain =>
    refine ⟨h, fun _ => ?_⟩
    by_contra hpositive
    exact hplain (by simp [hpositive])

/-- The ordinary and special kernel C compiles of the ladder. -/
structure KernelC (tokens : List Text) : Prop where
  clang : _is_clang_compile tokens = true
  source : (_source tokens ".c").isNone = false
  kernel : has tokens "-D__KERNEL__" = true

/-- What the checks leave of a kernel C compile. -/
structure Checked (policy : FlavorPolicy) (target : Text) (tokens : List Text) : Prop where
  positive : String.ofList target ∉ policy.intentional_fpu_objects → _positive_simd_flags tokens = []
  ordered : _is_special_c target = false → Ordered policy tokens

theorem audit_normal_c_clean {policy : FlavorPolicy} {kbuild : KbuildAuditPolicy} {lto_mode : String} {target : Text}
    {tokens : List Text} {s : State} (h : (audit_normal_c policy kbuild lto_mode target tokens s).errors = []) :
    s.errors = [] ∧ Checked policy target tokens := by
  unfold audit_normal_c at h
  split at h
  · exact absurd h (reject_ne _ _)
  · next hmarches =>
    obtain ⟨h, hpositive⟩ := audit_fpu_clean h
    obtain ⟨hflags, h⟩ := rejectAll_clean.1 h
    exact ⟨audit_lto_clean h, hpositive, fun _ => ordered_of_checks (not_not.1 hmarches) hflags⟩

/-- The ladder: an exit is no kernel C compile, or its checks held. -/
theorem audit_clang_clean {policy : FlavorPolicy} {kbuild : KbuildAuditPolicy} {lto_mode : String} {target : Text}
    {tokens : List Text} {s : State} (h : (audit_clang policy kbuild lto_mode target tokens s).errors = []) :
    s.errors = [] ∧ (KernelC tokens → Checked policy target tokens) := by
  rw [audit_clang] at h
  cases hclang : _is_clang_compile tokens with
  | false =>
    rw [hclang] at h
    exact ⟨h, fun hc => absurd hc.clang (by rw [hclang]; exact Bool.false_ne_true)⟩
  | true =>
    rw [hclang, if_neg (by decide)] at h
    cases hsource : (_source tokens ".c").isNone with
    | true =>
      rw [hsource, if_pos rfl] at h
      exact ⟨audit_assembly_clean h, fun hc => absurd (hsource.symm.trans hc.source) (by decide)⟩
    | false =>
      rw [hsource, if_neg (by decide)] at h
      dsimp only at h
      cases hkernel : has tokens "-D__KERNEL__" with
      | false =>
        rw [hkernel, if_pos (by decide)] at h
        exact ⟨(rejectIf_clean.1 h).2, fun hc => absurd (hkernel.symm.trans hc.kernel) (by decide)⟩
      | true =>
        rw [hkernel, if_neg (by decide)] at h
        cases hspecial : _is_special_c target with
        | true =>
          rw [hspecial, if_pos rfl] at h
          obtain ⟨hs, hpositive⟩ := audit_special_c_clean h
          exact ⟨hs, fun _ => ⟨fun _ => hpositive, fun hnormal => absurd (hspecial.symm.trans hnormal) (by decide)⟩⟩
        | false =>
          rw [hspecial, if_neg (by decide)] at h
          obtain ⟨hs, hchecked⟩ := audit_normal_c_clean h
          exact ⟨hs, fun _ => hchecked⟩

/-- The line is a record of this target and these tokens. -/
def IsRecord (line target : Text) (tokens : List Text) : Prop :=
  ∃ command, record_fields line = some (target, command) ∧ Shlex.split command = .ok tokens

/-- One record: nothing was rejected before it, and its checks held. -/
theorem audit_record_clean {policy : FlavorPolicy} {kbuild : KbuildAuditPolicy} {lto_mode : String} {s : State}
    {record : Text × Nat} (h : (audit_record policy kbuild lto_mode s record).errors = []) : s.errors = [] ∧
      ∀ target tokens, IsRecord record.1 target tokens → KernelC tokens → Checked policy target tokens := by
  unfold audit_record at h
  dsimp only at h
  split at h
  · exact absurd h (reject_ne _ _)
  · next target command hfields =>
    split at h
    · exact absurd h (reject_ne _ _)
    · next tokens hsplit =>
      obtain ⟨h, hchecked⟩ := audit_clang_clean h
      refine ⟨audit_rust_clean (s := s.count "records") h, ?_⟩
      rintro target' tokens' ⟨command', hfields', hsplit'⟩
      cases hfields.symm.trans hfields'
      cases hsplit.symm.trans hsplit'
      exact hchecked

/-- **The log: if nothing was rejected after it, every record was clean.** -/
theorem fold_clean {policy : FlavorPolicy} {kbuild : KbuildAuditPolicy} {lto_mode : String} {records : List (Text × Nat)}
    {s : State} (h : (records.foldl (audit_record policy kbuild lto_mode) s).errors = []) : s.errors = [] ∧
      ∀ record ∈ records, ∀ target tokens, IsRecord record.1 target tokens → KernelC tokens → Checked policy target tokens := by
  induction records generalizing s with
  | nil => exact ⟨h, fun record hrecord => by cases hrecord⟩
  | cons record records ih =>
    obtain ⟨hnext, hrest⟩ := ih h
    obtain ⟨hs, hrecord⟩ := audit_record_clean hnext
    refine ⟨hs, fun other hother => ?_⟩
    rcases List.mem_cons.1 hother with rfl | hother
    · exact hrecord
    · exact hrest other hother

theorem audit_coverage_clean {policy : FlavorPolicy} {kbuild : KbuildAuditPolicy} {lto_mode : String} {s : State}
    (h : (audit_coverage policy kbuild lto_mode s).errors = []) : s.errors = [] := by
  unfold audit_coverage at h
  simp only [rejectAll_clean] at h
  exact h.2.2.2

/-- A record of the log. -/
def Recorded (log target : Text) (tokens : List Text) : Prop := ∃ line ∈ log_lines log, IsRecord line target tokens

theorem audit_passes {log : Text} {policy : FlavorPolicy} {kbuild : KbuildAuditPolicy} {lto_mode : String}
    (hmode : lto_mode ∈ LTO_MODES) (hclean : (audit_state log policy kbuild lto_mode).errors = []) :
    ∃ report, audit log policy kbuild lto_mode = .ok report ∧ report.status = "PASS" := by
  unfold audit
  rw [if_neg (not_not.2 hmode)]
  exact ⟨_, rfl, if_pos hclean⟩

theorem passed_checked {log : Text} {policy : FlavorPolicy} {kbuild : KbuildAuditPolicy} {lto_mode : String} {report : Report}
    (haudit : audit log policy kbuild lto_mode = .ok report) (hpass : report.status = "PASS") {target : Text}
    {tokens : List Text} (hrecord : Recorded log target tokens) (hkernel : KernelC tokens) : Checked policy target tokens := by
  unfold audit at haudit
  split at haudit
  · cases haudit
  · cases haudit
    have hclean : (audit_state log policy kbuild lto_mode).errors = [] := by
      by_contra herrors
      rw [if_neg herrors] at hpass
      have hfail : "FAIL" = "PASS" := hpass
      exact absurd hfail (by decide)
    obtain ⟨line, hline, hfields⟩ := hrecord
    obtain ⟨n, hn⟩ := List.getElem?_of_mem hline
    have hmem : (line, n) ∈ (log_lines log).zipIdx := List.mem_zipIdx_iff_getElem?.2 hn
    exact (fold_clean (audit_coverage_clean hclean)).2 (line, n) hmem target tokens hfields hkernel

/-! ## Tokens have no newline -/

theorem log_lines_newline {log line : Text} (h : line ∈ log_lines log) : '\n' ∉ line := by
  unfold log_lines at h
  dsimp only at h
  split at h
  · exact not_mem_of_mem_splitOn (List.dropLast_subset _ h)
  · exact not_mem_of_mem_splitOn h

theorem record_fields_subset {line target command : Text} (h : record_fields line = some (target, command)) :
    command ⊆ line := by
  have hjoin : List.intercalate ['\t'] (line.splitOn '\t') = line := List.intercalate_splitOn '\t'
  unfold record_fields at h
  split at h
  · next target file command more hsplit =>
    cases h
    rw [hsplit, List.intercalate_cons_cons, List.intercalate_cons_cons] at hjoin
    intro c hc
    rw [← hjoin]
    exact List.mem_append_right _ (List.mem_append_right _ hc)
  · cases h

theorem token_newline {log target : Text} {tokens : List Text} (h : Recorded log target tokens) :
    ∀ token ∈ tokens, '\n' ∉ token := by
  obtain ⟨line, hline, command, hfields, hsplit⟩ := h
  intro token htoken hc
  exact log_lines_newline hline (record_fields_subset hfields (Shlex.split_subset hsplit token htoken hc))

/-! ## The gate -/

/-- The kernel C compiles outside the allowlist enable no vector extension, and the ordinary ones keep the order. -/
def VectorFree (log : Text) (policy : FlavorPolicy) : Prop :=
  ∀ target tokens, Recorded log target tokens → KernelC tokens → String.ofList target ∉ policy.intentional_fpu_objects →
    (∀ token ∈ tokens, ¬EnablesVector token) ∧ (_is_special_c target = false → Ordered policy tokens)

/-- None of these compiles has a token that the pattern misses. -/
def NoneUnlisted (log : Text) (policy : FlavorPolicy) : Prop :=
  ∀ target tokens, Recorded log target tokens → KernelC tokens → String.ofList target ∉ policy.intentional_fpu_objects →
    ∀ token ∈ tokens, ¬Unlisted token

/-- **A log that passes is free of vector code exactly if no such compile has an unlisted token.** -/
theorem passed_free_iff {log : Text} {policy : FlavorPolicy} {kbuild : KbuildAuditPolicy} {lto_mode : String} {report : Report}
    (haudit : audit log policy kbuild lto_mode = .ok report) (hpass : report.status = "PASS") :
    VectorFree log policy ↔ NoneUnlisted log policy := by
  constructor
  · intro h target tokens hrecord hkernel hout token htoken hunlisted
    have hline := token_newline hrecord token htoken
    exact (h target tokens hrecord hkernel hout).1 token htoken ((enables_iff hline).2 (.inr hunlisted))
  · intro h target tokens hrecord hkernel hout
    have hchecked := passed_checked haudit hpass hrecord hkernel
    have hlines := token_newline hrecord
    refine ⟨fun token htoken henables => ?_, hchecked.ordered⟩
    rcases (enables_iff (hlines token htoken)).1 henables with hflag | hunlisted
    · rw [(positive_nil_iff hlines).1 (hchecked.positive hout) token htoken] at hflag
      cases hflag
    · exact h target tokens hrecord hkernel hout token htoken hunlisted

/-! ## A log with `-mssse3` -/

namespace Sample

def row (target : String) (tokens : List String) : Text :=
  target.toList ++ "\ta.cmd\t".toList ++ List.intercalate [' '] (tokens.map String.toList) ++ ['\n']

def policy : FlavorPolicy := ⟨"v3", "x86-64-v3", ["lib/fpu.o"]⟩

def kbuild : KbuildAuditPolicy where
  minimum_counts := [("records", 1), ("normal_c", 1), ("special_c", 1), ("kernel_rust", 1)]
  minimum_host_c := [("none", 1), ("thin", 1), ("full", 1)]
  lto_excluded_c_targets := ["arch/x86/boot/startup/sme.o"]

def tokens (extra : List String) : List String :=
  ["clang", "-D__KERNEL__", "-march=x86-64-v3", "-mno-sse", "-mno-mmx", "-mno-sse2", "-mno-3dnow", "-mno-avx", "-mno-sse4a"] ++
    extra ++ ["-c", "a.c"]

/-- One compile of each kind; `fs/open.o` has the extra tokens. -/
def log (extra : List String) : Text :=
  row "fs/open.o" (tokens extra) ++
  row "lib/fpu.o" (tokens ["-msse", "-D_LINUX_FPU_COMPILATION_UNIT"]) ++
  row "arch/x86/boot/a.o" ["clang", "-D__KERNEL__", "-mno-mmx", "-mno-sse", "-c", "a.c"] ++
  row "scripts/a" ["clang", "-c", "a.c"] ++
  row "rust/core.o" ["rustc", "--target=./scripts/target.json", "-Ctarget-cpu=x86-64-v3",
    "-Ctarget-feature=-sse,-sse2,-sse3,-ssse3,-sse4.1,-sse4.2,-avx,-avx2"]

theorem log_clean : (audit_state (log ["-mssse3"]) policy kbuild "none").errors = [] := by
  rw [← List.length_eq_zero_iff]
  decide +kernel

theorem open_recorded : Recorded (log ["-mssse3"]) "fs/open.o".toList ((tokens ["-mssse3"]).map String.toList) := by
  refine ⟨(row "fs/open.o" (tokens ["-mssse3"])).dropLast, by decide +kernel, ?_⟩
  exact ⟨List.intercalate [' '] ((tokens ["-mssse3"]).map String.toList), by decide +kernel, by decide +kernel⟩

theorem open_kernel : KernelC ((tokens ["-mssse3"]).map String.toList) :=
  ⟨by decide +kernel, by decide +kernel, by decide +kernel⟩

end Sample

theorem passed_free_open : ∃ report, audit (Sample.log ["-mssse3"]) Sample.policy Sample.kbuild "none" = .ok report ∧
    report.status = "PASS" ∧
    (VectorFree (Sample.log ["-mssse3"]) Sample.policy ↔ NoneUnlisted (Sample.log ["-mssse3"]) Sample.policy) := by
  obtain ⟨report, haudit, hpass⟩ := audit_passes (by decide) Sample.log_clean
  exact ⟨report, haudit, hpass, passed_free_iff haudit hpass⟩

/-- `-mssse3` in `fs/open.o` passes. -/
theorem ssse3_passes : ¬∀ log policy kbuild lto_mode report, audit log policy kbuild lto_mode = .ok report →
    report.status = "PASS" → VectorFree log policy := by
  intro h
  obtain ⟨report, haudit, hpass⟩ := audit_passes (by decide) Sample.log_clean
  have hfree := h _ _ _ _ report haudit hpass _ _ Sample.open_recorded Sample.open_kernel (by decide)
  refine hfree.1 "-mssse3".toList (by decide) ⟨"ssse3".toList, rfl, "ssse3", by decide, List.prefix_refl _⟩

end KbuildAudit
