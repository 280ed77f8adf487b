import DkcLinux.Evidence
import DkcLinux.Discovery

/-!
# The decision handoff (`dkc/release_gate.py:31-96`)

`write_discovery_decision` leaves `decision.json`, `outputs.env`, `result.env` and their checksums;
`load_discovery_decision` verifies the directory, rebuilds the decision from the first file and
compares the other two with it. `decision_round_trip` says for which decisions this gives the
decision back.
-/

open Py Records Json

namespace ReleaseGate

/-- `boolean_text`. -/
def boolean_text (value : Bool) : String := if value then "true" else "false"

/-- `str(n)`. -/
def intText (n : Int) : String := String.ofList (renderInt n)

/-- `discovery_decision_outputs`. -/
def discovery_decision_outputs (decision : DiscoveryDecisionFields) : List (String × String) :=
  let next_generation := (decision.state_generation.map (· + 1)).getD 0
  [("authoritative_state_read", boolean_text decision.authoritative_state_read),
    ("build_policy_sha256", decision.build_policy_sha256),
    ("build_required", boolean_text decision.build_required),
    ("decision", decision.decision.toString),
    ("dkc_revision", intText decision.dkc_revision),
    ("lto_mode", decision.lto_mode.toString),
    ("maintenance_required", boolean_text decision.maintenance_required),
    ("next_generation", intText next_generation),
    ("publish_allowed", boolean_text decision.publish_allowed),
    ("source_dsc_sha256", decision.source_dsc_sha256),
    ("source_version", decision.source_version),
    ("state_present", boolean_text decision.state_generation.isSome)]

/-- `f"{key}={value}\n"` of the sorted items. -/
def envText (items : List (String × String)) : String :=
  String.ofList ((sortedItems items).flatMap fun x => x.1.toList ++ '=' :: x.2.toList ++ ['\n'])

def outputsText (decision : DiscoveryDecisionFields) : String := envText (discovery_decision_outputs decision)

def resultText (decision : DiscoveryDecisionFields) : String :=
  String.ofList ("status=PASS\nlifecycle_decision=".toList ++ decision.decision.toString.toList ++ ['\n'])

/-- The three files, `decision.json` with a given text. -/
def files (decision_json : String) (decision : DiscoveryDecisionFields) : Dict ByteArray where
  items := [("decision.json", decision_json.toUTF8), ("outputs.env", (outputsText decision).toUTF8),
    ("result.env", (resultText decision).toUTF8)]
  nodup := by simp

theorem not_checksums (decision_json : String) (decision : DiscoveryDecisionFields) :
    Evidence.CHECKSUMS ∉ (files decision_json decision).keys := by
  simp [files, Dict.keys, Evidence.CHECKSUMS]

section
-- the format checker, and `hashlib.sha256(...).hexdigest()`
variable (formats : String → String → Bool) (hexdigest : ByteArray → String)

/-- `write_discovery_decision`: what is at `root` afterwards. -/
def write_discovery_decision (root : Root) (decision : DiscoveryDecision) : Except PyErr Root := do
  match root with
  | .absent =>
    DiscoveryDecision.validate formats decision.to_dict
    match decision.to_dict.dumps with
    | none => throw (.TypeError "float is not allowed in a canonical record")
    | some text =>
      return Evidence.written hexdigest (files text decision.toDiscoveryDecisionFields) (not_checksums _ _)
  | _ => throw (.ValueError "refusing to replace lifecycle decision output")

/-- `json.loads((root / "decision.json").read_text(encoding="utf-8"))`. -/
def decisionJson (root : Root) : Except PyErr Json :=
  match root.read_text "decision.json" with
  | .error _ => .error (.ValueError "lifecycle decision is not valid JSON")
  | .ok text =>
    match Json.loads text with
    | none => .error (.ValueError "lifecycle decision is not valid JSON")
    | some value => .ok value

/-- The comparison of the other two files with the decision. -/
def compareFiles (root : Root) (decision : DiscoveryDecisionFields) : Except PyErr Unit := do
  if (← root.read_text "outputs.env") ≠ outputsText decision then
    throw (.ValueError "lifecycle outputs differ from the typed decision")
  if (← root.read_text "result.env") ≠ resultText decision then
    throw (.ValueError "lifecycle decision status is not successful")

/-- `load_discovery_decision`. -/
def load_discovery_decision (root : Root) : Except PyErr DiscoveryDecision := do
  let paths ← Evidence.verify_evidence_directory hexdigest root
  if paths ≠ ["decision.json", "outputs.env", "result.env"] then
    throw (.ValueError "lifecycle decision has an unexpected file boundary")
  match ← decisionJson root with
  | .obj fields =>
    DiscoveryDecision.validate formats (.obj fields)
    let decision ← DiscoveryDecision.ofKwargs fields
    compareFiles root decision.toDiscoveryDecisionFields
    return decision
  | _ => throw (.ValueError "lifecycle decision is not an object")

end

/-! ## Carriage returns

Only the source version is free text; a text file reads back as it was written iff it has no
carriage return. -/

theorem renderInt_nonneg {n : Int} (h : 0 ≤ n) : '\r' ∉ renderInt n := by
  intro hmem
  cases n with
  | ofNat n => exact absurd (Nat.isDigit_of_mem_toDigits (by decide) (by decide) hmem) (by decide)
  | negSucc n => exact absurd h (by simp)

theorem toString_plain (d : Decision) : '\r' ∉ d.toString.toList := by
  cases d <;> decide

theorem boolean_plain (b : Bool) : '\r' ∉ (boolean_text b).toList := by
  cases b <;> decide

theorem lto_plain (m : LtoMode) : '\r' ∉ m.toString.toList := by
  cases m <;> decide

theorem digest_plain {digest : String} (h : isSha256 digest = true) : '\r' ∉ digest.toList :=
  fun hc => absurd (Evidence.isSha256_chars h hc).2 (by decide)

theorem mem_envText {items : List (String × String)} (hkeys : ∀ x ∈ items, '\r' ∉ x.1.toList) :
    '\r' ∈ (envText items).toList ↔ ∃ x ∈ items, '\r' ∈ x.2.toList := by
  simp only [envText, String.toList_ofList, List.mem_flatMap, mem_sortedItems, List.mem_append, List.mem_cons,
    List.not_mem_nil, or_false]
  constructor
  · rintro ⟨x, hx, (hc | hc | hc) | hc⟩
    · exact absurd hc (hkeys x hx)
    · exact absurd hc (by decide)
    · exact ⟨x, hx, hc⟩
    · exact absurd hc (by decide)
  · rintro ⟨x, hx, hc⟩
    exact ⟨x, hx, .inl (.inr (.inr hc))⟩

theorem mem_outputsText (d : DiscoveryDecision) :
    '\r' ∈ (outputsText d.toDiscoveryDecisionFields).toList ↔ '\r' ∈ d.source_version.toList := by
  obtain ⟨hdsc, hpolicy, hrevision, hgeneration⟩ := d.checked
  have hnext : '\r' ∉ (intText ((d.state_generation.map (· + 1)).getD 0)).toList := by
    rw [intText, String.toList_ofList]
    apply renderInt_nonneg
    cases hstate : d.state_generation with
    | none => exact le_rfl
    | some n =>
      have := hgeneration n hstate
      show 0 ≤ n + 1
      omega
  have hrev : '\r' ∉ (intText d.dkc_revision).toList := by
    rw [intText, String.toList_ofList]
    exact renderInt_nonneg (by omega)
  rw [outputsText, mem_envText]
  · simp [discovery_decision_outputs, boolean_plain, toString_plain, lto_plain, digest_plain hdsc,
      digest_plain hpolicy, hnext, hrev]
  · simp [discovery_decision_outputs]

theorem resultText_plain (d : DiscoveryDecisionFields) : '\r' ∉ (resultText d).toList := by
  unfold resultText
  rw [String.toList_ofList, List.mem_append, List.mem_append, not_or, not_or]
  exact ⟨⟨by decide +kernel, toString_plain d.decision⟩, by decide⟩

/-! ## Reading the handoff back -/

theorem listable {text : String} {d : DiscoveryDecisionFields} :
    ∀ name ∈ (files text d).keys, Evidence.Listable name := by
  have hkeys : (files text d).keys = ["decision.json", "outputs.env", "result.env"] := rfl
  rw [hkeys]
  simp only [List.forall_mem_cons, List.not_mem_nil, IsEmpty.forall_iff, implies_true, and_true]
  exact ⟨⟨by decide +kernel, Evidence.plain_of_all (by decide +kernel), by decide⟩,
    ⟨by decide +kernel, Evidence.plain_of_all (by decide +kernel), by decide⟩,
    ⟨by decide +kernel, Evidence.plain_of_all (by decide +kernel), by decide⟩⟩

theorem sorted_keys : (["decision.json", "outputs.env", "result.env"] : List String).insertionSort (· ≤ ·) =
    ["decision.json", "outputs.env", "result.env"] := by decide +kernel

section
variable {formats : String → String → Bool} {hexdigest : ByteArray → String}

/-- A text file compares equal with what was written iff it has no carriage return. -/
theorem read_text_eq_iff {t : String} : Serialize.read_text t.toUTF8 = .ok t ↔ '\r' ∉ t.toList := by
  rw [Serialize.read_text, Serialize.fromUTF8?_toUTF8]
  simp only [Except.ok.injEq]
  rw [← universalNewlines_eq_iff, ← String.toList_inj, String.toList_ofList]

/-- The written files agree with a decision iff its source version has no carriage return. -/
theorem compareFiles_written {text : String} (d : DiscoveryDecision) :
    compareFiles (Evidence.written hexdigest (files text d.toDiscoveryDecisionFields) (not_checksums _ _))
      d.toDiscoveryDecisionFields = .ok () ↔ '\r' ∉ d.source_version.toList := by
  have houtputs := @Evidence.read_text_written hexdigest _ (not_checksums text d.toDiscoveryDecisionFields)
    "outputs.env" _ rfl
  have hresult := @Evidence.read_text_written hexdigest _ (not_checksums text d.toDiscoveryDecisionFields)
    "result.env" _ rfl
  rw [Serialize.read_text_toUTF8 (resultText_plain _)] at hresult
  rw [compareFiles, houtputs, hresult, ← mem_outputsText d, ← read_text_eq_iff]
  constructor
  · intro h
    obtain ⟨t, ht, h⟩ := except_bind_eq_ok.1 h
    simp only [except_throw, except_error_bind, except_check_eq_ok, not_not] at h
    rw [ht, h.1]
  · intro h
    simp only [h, except_ok_bind, ne_eq, not_true, if_false, except_pure]

theorem write_succeeds {d : DiscoveryDecision} (hvalid : DiscoveryDecision.validate formats d.to_dict = .ok ()) :
    ∃ root, write_discovery_decision formats hexdigest .absent d = .ok root := by
  obtain ⟨text, hdumps, -⟩ := dumps_clean d.to_dict_clean
  simp only [write_discovery_decision, hvalid, hdumps, except_ok_bind, except_pure]
  exact ⟨_, rfl⟩

/-- What `load_discovery_decision` does with a written handoff. -/
theorem load_written (hhex : ∀ b, isSha256 (hexdigest b) = true) {d : DiscoveryDecision}
    (hvalid : DiscoveryDecision.validate formats d.to_dict = .ok ()) {root : Root}
    (hroot : write_discovery_decision formats hexdigest .absent d = .ok root) :
    ∃ text, root = Evidence.written hexdigest (files text d.toDiscoveryDecisionFields) (not_checksums _ _) ∧
      load_discovery_decision formats hexdigest root = (do
        let decision ← DiscoveryDecision.make (DiscoveryDecision.reread d.toDiscoveryDecisionFields)
        compareFiles root decision.toDiscoveryDecisionFields
        return decision) := by
  obtain ⟨text, hdumps, hplain, hloads⟩ := dumps_clean d.to_dict_clean
  simp only [write_discovery_decision, hvalid, hdumps, except_ok_bind, except_pure, Except.ok.injEq] at hroot
  refine ⟨text, hroot.symm, ?_⟩
  have hpaths : Evidence.verify_evidence_directory hexdigest root =
      .ok ["decision.json", "outputs.env", "result.env"] := by
    rw [← hroot, Evidence.verify_written _ hhex listable (by simp [files])]
    exact congrArg Except.ok sorted_keys
  have hjson : decisionJson root = .ok d.to_dict.sortKeys := by
    rw [decisionJson, ← hroot, @Evidence.read_text_written hexdigest _ _ "decision.json" _ rfl,
      Serialize.read_text_toUTF8 hplain]
    simp only [hloads]
  have hsorted : DiscoveryDecision.validate formats d.to_dict.sortKeys = .ok () := by
    rw [DiscoveryDecision.validate, Schema.accepts_sortKeys _ _ d.to_dict_distinct]
    exact hvalid
  have hobject : d.to_dict.sortKeys = .obj (wireFields (DiscoveryDecision.asdict d.toDiscoveryDecisionFields)) := rfl
  rw [hobject] at hjson hsorted
  rw [load_discovery_decision]
  simp only [hpaths, hjson, hsorted, except_ok_bind, ne_eq, not_true, if_false, except_pure,
    DiscoveryDecision.ofKwargs_wire]

/-- A decision with a byte limit and a plain source version is read back. -/
theorem load_back (hhex : ∀ b, isSha256 (hexdigest b) = true) {d : DiscoveryDecision}
    (hvalid : DiscoveryDecision.validate formats d.to_dict = .ok ()) {root : Root}
    (hroot : write_discovery_decision formats hexdigest .absent d = .ok root)
    (hmode : d.retention_mode = .series_size) (hplain : '\r' ∉ d.source_version.toList) :
    load_discovery_decision formats hexdigest root = .ok d := by
  obtain ⟨text, hwritten, hload⟩ := load_written hhex hvalid hroot
  obtain ⟨n, hn⟩ := d.limit_iff.2 hmode
  have hreread : DiscoveryDecision.reread d.toDiscoveryDecisionFields = d.toDiscoveryDecisionFields := by
    rw [DiscoveryDecision.reread, hn, Option.getD_some, ← hn]
  have hcompare : compareFiles root d.toDiscoveryDecisionFields = .ok () := by
    rwa [hwritten, compareFiles_written]
  rw [hload, hreread, d.make_fields, except_ok_bind, hcompare]
  rfl

end

/-! ## A build decision in both modes

The four contents that are hashed differ in their sizes. -/

namespace Sample

def formats (name value : String) : Bool := name ≠ "date-time" || (Calendar.strptime value).isSome

def hexdigest (b : ByteArray) : String :=
  if b.size = 583 then "2aaeff6c177066f1610e76b605e9aefaecf345acfa878ade3f52685fed725ab0"
  else if b.size = 545 then "0273efc080154f0d1d5a825e8db3c2c735284f7129389919a7daa54fefb4a1bd"
  else if b.size = 370 then "027d6c6c0fd8c171103a72cf02a2bf42b2295dd9e1c822e9b495ae6054b60248"
  else "61448b9931d3f57443557cd8cbb0bd86ca9506ee1eca3dcf362556bfb8db58a4"

theorem isSha256_hexdigest (b : ByteArray) : isSha256 (hexdigest b) = true := by
  unfold hexdigest
  split_ifs <;> decide +kernel

def fields (retention_mode : RetentionMode) (retention_max_bytes : Option Int) : DiscoveryDecisionFields where
  decision := .build
  source_version := "7.1.7-1"
  source_dsc_sha256 := "aaaaaaaaaaaaaaaaaaaaaaaaaaaaaaaaaaaaaaaaaaaaaaaaaaaaaaaaaaaaaaaa"
  dkc_revision := 2
  build_policy_sha256 := "bbbbbbbbbbbbbbbbbbbbbbbbbbbbbbbbbbbbbbbbbbbbbbbbbbbbbbbbbbbbbbbb"
  lto_mode := .thin
  utc := "2026-08-17T12:00:00Z"
  retention_mode := retention_mode
  retention_max_bytes := retention_max_bytes
  build_required := true
  publish_allowed := true
  authoritative_state_read := true
  state_generation := some 4
  state_publication_id := some "20260816-abcdef12"
  reason := some "new revision"

def sized : DiscoveryDecision := ⟨fields .series_size (some 9500000000), by decide +kernel⟩

def series : DiscoveryDecision := ⟨fields .series none, by decide +kernel⟩

theorem sized_valid : DiscoveryDecision.validate formats sized.to_dict = .ok () := by decide +kernel

theorem series_valid : DiscoveryDecision.validate formats series.to_dict = .ok () := by decide +kernel

end Sample

end ReleaseGate
