import DkcLinux.Debver
import Mathlib.Tactic.Tauto

/-!
# The version grammar (`dkc/debver.py:28-31`, `116-146`)

`parse` against Policy 5.6.12. The two differ in three places:

| text        | Policy                         | `parse`                                            |
|-------------|--------------------------------|----------------------------------------------------|
| `1.0-`      | no version: empty revision     | accepts it with the revision `""`                  |
| `0:1:2`     | epoch 0, upstream `1:2`        | `InvalidVersion`: epoch 0 counts as no epoch       |
| `²:1`       | no version                     | `ValueError` of `int`; accepts other digits (`٣:1`)|
-/

namespace Debver

open Py

/-! ## The grammar -/

def epochPart : Option (List Char) → List Char
  | none => []
  | some e => e ++ [':']

def revisionPart : Option (List Char) → List Char
  | none => []
  | some r => '-' :: r

/-- A non-empty run of ASCII digits. -/
def AsciiNumber (e : List Char) : Prop := e ≠ [] ∧ ∀ c ∈ e, isAsciiDigit c = true

/-- `upstream ['-' revision]`. -/
structure Body (rest upstream : List Char) (revision : Option (List Char)) : Prop where
  spelled : rest = upstream ++ revisionPart revision
  upstream_valid : isUpstream upstream = true
  hyphen : '-' ∈ upstream → revision.isSome = true
  revision_valid : ∀ r ∈ revision, r ≠ [] ∧ isRevision r = true

/-- Policy 5.6.12: `[epoch ':'] upstream ['-' revision]`. -/
structure Policy (text : List Char) (epoch : Option (List Char)) (upstream : List Char)
    (revision : Option (List Char)) : Prop where
  spelled : text = epochPart epoch ++ (upstream ++ revisionPart revision)
  epoch_valid : ∀ e ∈ epoch, AsciiNumber e
  colon : ':' ∈ upstream → epoch.isSome = true
  body : Body (upstream ++ revisionPart revision) upstream revision

/-- The value of a written epoch; no epoch is 0. -/
def epochValue (epoch : Option (List Char)) : Nat := epoch.elim 0 number

/-- What `parse` does with a text is what Policy says of it. -/
def ParsesAsPolicy (text : String) : Prop :=
  match parse text with
  | .ok v => ∃ epoch upstream revision, Policy text.toList epoch upstream revision ∧
      v.epoch = epochValue epoch ∧ v.upstream.toList = upstream ∧ v.revision.toList = revision.getD []
  | .error (.InvalidVersion _ _) =>
    ¬ ∃ epoch upstream revision, Policy text.toList epoch upstream revision
  | .error _ => False

/-! ## Where the two differ -/

/-- The checks of `validated`. -/
def Accepts (epoch : Nat) (upstream revision : List Char) : Prop :=
  isUpstream upstream = true ∧ isRevision revision = true ∧ (':' ∈ upstream → epoch ≠ 0)

/-- Digits before the first colon that are not all ASCII: one is not decimal, or the rest passes. -/
def ForeignEpoch (text : String) : Prop :=
  text.toList.any isSpace = false ∧ ∃ head tail, text.toList = head ++ ':' :: tail ∧ ':' ∉ head ∧
    isdigit (String.ofList head) = true ∧ ¬ AsciiNumber head ∧
    (isdecimal (String.ofList head) = true →
      Accepts (intOf (String.ofList head)) (splitRevision tail).1 (splitRevision tail).2)

/-- A version whose revision is empty after its hyphen. -/
def EmptyRevision (text : String) : Prop :=
  ∃ epoch upstream, text.toList = epochPart epoch ++ (upstream ++ ['-']) ∧
    (∀ e ∈ epoch, AsciiNumber e) ∧ isUpstream upstream = true ∧ (':' ∈ upstream → epochValue epoch ≠ 0)

/-- A version with an epoch 0 and a colon in its upstream part. -/
def ZeroEpochColon (text : String) : Prop :=
  ∃ epoch upstream revision, Policy text.toList (some epoch) upstream revision ∧
    number epoch = 0 ∧ ':' ∈ upstream

/-! ## The body -/

theorem not_hyphen {r : List Char} (h : isRevision r = true) : '-' ∉ r := fun hmem => by
  have := List.all_eq_true.1 h '-' hmem
  revert this
  decide

theorem not_colon {r : List Char} (h : isRevision r = true) : ':' ∉ r := fun hmem => by
  have := List.all_eq_true.1 h ':' hmem
  revert this
  decide

theorem splitRevision_hyphen {r : List Char} (h : '-' ∉ r) (u : List Char) :
    splitRevision (u ++ '-' :: r) = (u, r) := by
  rw [splitRevision, if_pos (by simp), rpartition_append h]

theorem splitRevision_spelled (rest : List Char) :
    rest = (splitRevision rest).1 ++ revisionPart (if '-' ∈ rest then some (splitRevision rest).2 else none) := by
  by_cases h : '-' ∈ rest
  · obtain ⟨u, r, hr, hs⟩ := rpartition_mem h
    rw [if_pos h, hs, splitRevision_hyphen hr]
    rfl
  · rw [if_neg h, splitRevision, if_neg h]
    simp [revisionPart]

/-- The only reading of a body is the one `splitRevision` takes. -/
theorem body_iff {rest u : List Char} {r : Option (List Char)} : Body rest u r ↔
    u = (splitRevision rest).1 ∧ r = (if '-' ∈ rest then some (splitRevision rest).2 else none) ∧
      isUpstream (splitRevision rest).1 = true ∧ isRevision (splitRevision rest).2 = true ∧
      ('-' ∈ rest → (splitRevision rest).2 ≠ []) := by
  constructor
  · rintro ⟨rfl, hu, hyphen, hr⟩
    cases r with
    | none =>
      have hnot : '-' ∉ u := fun h => by simpa using hyphen h
      simp [revisionPart, splitRevision, hnot, hu, isRevision]
    | some r =>
      obtain ⟨hne, hr⟩ := hr r rfl
      rw [revisionPart, splitRevision_hyphen (not_hyphen hr)]
      simp [hu, hr, hne]
  · rintro ⟨rfl, rfl, hu, hr, hne⟩
    refine ⟨splitRevision_spelled rest, hu, fun hmem => ?_, fun r h => ?_⟩
    · have hrest : '-' ∈ rest := by
        rw [splitRevision_spelled rest]
        exact List.mem_append_left _ hmem
      rw [if_pos hrest]
      rfl
    · by_cases hrest : '-' ∈ rest
      · rw [if_pos hrest] at h
        cases h
        exact ⟨hne hrest, hr⟩
      · rw [if_neg hrest] at h
        cases h

theorem body_empty {rest u : List Char} :
    rest = u ++ ['-'] ↔ '-' ∈ rest ∧ (splitRevision rest).2 = [] ∧ u = (splitRevision rest).1 := by
  constructor
  · rintro rfl
    rw [splitRevision_hyphen (List.not_mem_nil)]
    simp
  · rintro ⟨hmem, hnil, rfl⟩
    have h := splitRevision_spelled rest
    rwa [if_pos hmem, hnil] at h

theorem isDigit_ascii {c : Char} (h : isAsciiDigit c = true) : decimal c = some (c.toNat - 48) := by
  simp only [isAsciiDigit, Bool.and_eq_true, decide_eq_true_eq] at h
  exact Calendar.decimal_ascii h.1 h.2

theorem AsciiNumber.isdecimal {e : List Char} (h : AsciiNumber e) :
    isdecimal (String.ofList e) = true := by
  simp only [Py.isdecimal, String.toList_ofList, Bool.and_eq_true, decide_eq_true_eq, List.all_eq_true]
  exact ⟨h.1, fun c hc => by rw [isDigit_ascii (h.2 c hc)]; rfl⟩

theorem isdigit_of_isdecimal {s : String} (h : isdecimal s = true) : isdigit s = true := by
  simp only [Py.isdecimal, Py.isdigit, Bool.and_eq_true, List.all_eq_true] at h ⊢
  exact ⟨h.1, fun c hc => by rw [isDigit, h.2 c hc]; rfl⟩

theorem AsciiNumber.intOf {e : List Char} (h : AsciiNumber e) : intOf (String.ofList e) = number e := by
  rw [Py.intOf, String.toList_ofList, number]
  have hfold : ∀ (e : List Char) (n : Nat), (∀ c ∈ e, isAsciiDigit c = true) →
      e.foldl (fun n c => 10 * n + (decimal c).getD 0) n = e.foldl push n := by
    intro e
    induction e with
    | nil => exact fun _ _ => rfl
    | cons c e ih =>
      intro n hc
      rw [List.foldl_cons, List.foldl_cons, isDigit_ascii (hc c List.mem_cons_self)]
      exact ih _ fun d hd => hc d (List.mem_cons_of_mem _ hd)
  exact hfold e 0 h.2

theorem AsciiNumber.not_colon {e : List Char} (h : AsciiNumber e) : ':' ∉ e := fun hmem => by
  have := h.2 ':' hmem
  revert this
  decide

/-! ## Texts without and with a colon -/

theorem colon_inj {a b c d : List Char} (ha : ':' ∉ a) (hc : ':' ∉ c)
    (h : a ++ ':' :: b = c ++ ':' :: d) : a = c ∧ b = d := by
  have := partition_append ha b
  rw [h, partition_append hc d, Prod.mk.injEq] at this
  exact ⟨this.1.symm, this.2.symm⟩

theorem policy_no_colon {text : List Char} (hc : ':' ∉ text) {e r : Option (List Char)} {u : List Char} :
    Policy text e u r ↔ e = none ∧ Body text u r := by
  constructor
  · intro h
    cases e with
    | none =>
      have hspelled : text = u ++ revisionPart r := h.spelled
      exact ⟨rfl, hspelled ▸ h.body⟩
    | some e => exact absurd (by rw [h.spelled]; simp [epochPart]) hc
  · rintro ⟨rfl, h⟩
    refine ⟨h.spelled, by simp, fun hu => absurd ?_ hc, h.spelled ▸ h⟩
    rw [h.spelled]
    exact List.mem_append_left _ hu

theorem policy_colon {head tail : List Char} (hc : ':' ∉ head) {e r : Option (List Char)} {u : List Char} :
    Policy (head ++ ':' :: tail) e u r ↔ e = some head ∧ AsciiNumber head ∧ Body tail u r := by
  constructor
  · intro h
    have hspelled := h.spelled
    cases e with
    | none =>
      have hu : ':' ∉ u := fun hu => by simpa using h.colon hu
      have hr : ':' ∉ revisionPart r := by
        cases r with
        | none => simp [revisionPart]
        | some r => simpa [revisionPart] using not_colon (h.body.revision_valid r rfl).2
      have hmem : ':' ∈ u ++ revisionPart r := by
        have h' : head ++ ':' :: tail = u ++ revisionPart r := hspelled
        rw [← h']
        simp
      exact absurd hmem (by simp [hu, hr])
    | some e =>
      have he := h.epoch_valid e rfl
      rw [epochPart, List.append_assoc] at hspelled
      obtain ⟨rfl, rfl⟩ := colon_inj hc he.not_colon hspelled
      exact ⟨rfl, he, h.body⟩
  · rintro ⟨rfl, he, h⟩
    refine ⟨?_, by simpa using he, by simp, h.spelled ▸ h⟩
    rw [h.spelled, epochPart]
    simp

theorem emptyRevision_no_colon {text : String} (hc : ':' ∉ text.toList) : EmptyRevision text ↔
    '-' ∈ text.toList ∧ (splitRevision text.toList).2 = [] ∧
      isUpstream (splitRevision text.toList).1 = true := by
  constructor
  · rintro ⟨e, u, hs, -, hu, -⟩
    cases e with
    | none =>
      obtain ⟨hmem, hnil, rfl⟩ := body_empty.1 (show text.toList = u ++ ['-'] from hs)
      exact ⟨hmem, hnil, hu⟩
    | some e => exact absurd (by rw [hs]; simp [epochPart]) hc
  · rintro ⟨hmem, hnil, hu⟩
    have hs := body_empty.2 ⟨hmem, hnil, rfl⟩
    refine ⟨none, _, hs, by simp, hu, fun h => absurd ?_ hc⟩
    rw [hs]
    exact List.mem_append_left _ h

theorem emptyRevision_colon {text : String} {head tail : List Char} (hs : text.toList = head ++ ':' :: tail)
    (hc : ':' ∉ head) : EmptyRevision text ↔ AsciiNumber head ∧ '-' ∈ tail ∧
      (splitRevision tail).2 = [] ∧ isUpstream (splitRevision tail).1 = true ∧
      (':' ∈ (splitRevision tail).1 → number head ≠ 0) := by
  rw [EmptyRevision, hs]
  constructor
  · rintro ⟨e, u, hs, he, hu, hcolon⟩
    cases e with
    | none =>
      have hmem : ':' ∈ u := by
        have h' : head ++ ':' :: tail = u ++ ['-'] := hs
        have : ':' ∈ u ++ ['-'] := by rw [← h']; simp
        simpa using this
      exact absurd rfl (hcolon hmem)
    | some e =>
      rw [epochPart, List.append_assoc] at hs
      obtain ⟨rfl, htail⟩ : head = e ∧ tail = u ++ ['-'] := colon_inj hc (he e rfl).not_colon hs
      obtain ⟨hmem, hnil, rfl⟩ := body_empty.1 htail
      exact ⟨he _ rfl, hmem, hnil, hu, hcolon⟩
  · rintro ⟨he, hmem, hnil, hu, hcolon⟩
    refine ⟨some head, _, ?_, by simpa using he, hu, hcolon⟩
    rw [epochPart, List.append_assoc, ← body_empty.2 ⟨hmem, hnil, rfl⟩]
    rfl

theorem zeroEpochColon_no_colon {text : String} (hc : ':' ∉ text.toList) : ¬ ZeroEpochColon text := by
  rintro ⟨e, u, r, h, -, -⟩
  cases ((policy_no_colon hc).1 h).1

theorem zeroEpochColon_colon {text : String} {head tail : List Char}
    (hs : text.toList = head ++ ':' :: tail) (hc : ':' ∉ head) : ZeroEpochColon text ↔
      AsciiNumber head ∧ number head = 0 ∧ ∃ u r, Body tail u r ∧ ':' ∈ u := by
  rw [ZeroEpochColon, hs]
  constructor
  · rintro ⟨e, u, r, h, h0, hu⟩
    obtain ⟨he, ha, hb⟩ := (policy_colon hc).1 h
    cases he
    exact ⟨ha, h0, u, r, hb, hu⟩
  · rintro ⟨ha, h0, u, r, hb, hu⟩
    exact ⟨head, u, r, (policy_colon hc).2 ⟨rfl, ha, hb⟩, h0, hu⟩

theorem foreignEpoch_colon {text : String} {head tail : List Char} (hsp : text.toList.any isSpace = false)
    (hs : text.toList = head ++ ':' :: tail) (hc : ':' ∉ head) : ForeignEpoch text ↔
      isdigit (String.ofList head) = true ∧ ¬ AsciiNumber head ∧
      (isdecimal (String.ofList head) = true →
        Accepts (intOf (String.ofList head)) (splitRevision tail).1 (splitRevision tail).2) := by
  rw [ForeignEpoch, hs]
  constructor
  · rintro ⟨-, head', tail', hs', hc', h⟩
    obtain ⟨rfl, rfl⟩ := colon_inj hc' hc hs'.symm
    exact h
  · intro h
    exact ⟨hs ▸ hsp, head, tail, rfl, hc, h⟩

/-! ## What `parse` does -/

/-- The checks raise `InvalidVersion` or return the version of the components. -/
theorem validated_cases (text : String) (epoch : Nat) (u r : List Char) :
    (Accepts epoch u r ∧ ∃ v, validated text epoch u r = .ok v ∧ v.epoch = epoch ∧
      v.upstream.toList = u ∧ v.revision.toList = r ∧ v.raw = text) ∨
    (¬ Accepts epoch u r ∧ ∃ msg shown, validated text epoch u r = .error (.InvalidVersion msg shown)) := by
  rw [validated]
  split
  · next hu =>
    split
    · next hr =>
      split
      · next hcolon => exact .inr ⟨fun h => h.2.2 hcolon.1 hcolon.2, _, _, rfl⟩
      · next hcolon =>
        refine .inl ⟨⟨hu, hr, fun hmem h0 => hcolon ⟨hmem, h0⟩⟩, _, rfl, rfl, ?_, ?_, rfl⟩
        · exact String.toList_ofList
        · exact String.toList_ofList
    · next hr => exact .inr ⟨fun h => hr h.2.1, _, _, rfl⟩
  · next hu => exact .inr ⟨fun h => hu h.1, _, _, rfl⟩

/-- The characters of versions lie between `+` and `~`. -/
def Plain (s : List Char) : Prop := ∀ c ∈ s, 43 ≤ c.toNat ∧ c.toNat ≤ 126

theorem Plain.append {a b : List Char} (ha : Plain a) (hb : Plain b) : Plain (a ++ b) := fun c hc =>
  (List.mem_append.1 hc).elim (ha c) (hb c)

theorem Plain.no_space {s : List Char} (h : Plain s) : s.any isSpace = false := by
  rw [List.any_eq_false]
  intro c hc
  have := h c hc
  simp [isSpace]
  omega

theorem alnum_plain {c : Char} (h : isAsciiAlnum c = true) : 43 ≤ c.toNat ∧ c.toNat ≤ 126 := by
  rw [isAsciiAlnum, Bool.or_assoc, ← isAsciiAlpha, Bool.or_eq_true, isAsciiDigit_iff,
    isAsciiAlpha_iff] at h
  omega

theorem upstream_plain {u : List Char} (h : isUpstream u = true) : Plain u := by
  intro c hc
  rw [isUpstream, Bool.and_eq_true] at h
  have := List.all_eq_true.1 h.2 c hc
  simp only [isUpstreamChar, Bool.or_eq_true, List.contains_iff_mem, List.mem_cons,
    List.not_mem_nil, or_false] at this
  rcases this with h | rfl | rfl | rfl | rfl | rfl
  · exact alnum_plain h
  all_goals decide

theorem revision_plain {r : List Char} (h : isRevision r = true) : Plain r := by
  intro c hc
  have := List.all_eq_true.1 h c hc
  simp only [isRevisionChar, Bool.or_eq_true, List.contains_iff_mem, List.mem_cons,
    List.not_mem_nil, or_false] at this
  rcases this with h | rfl | rfl | rfl
  · exact alnum_plain h
  all_goals decide

theorem epoch_plain {e : Option (List Char)} (h : ∀ e' ∈ e, AsciiNumber e') : Plain (epochPart e) := by
  cases e with
  | none => intro c hc; cases hc
  | some e =>
    refine Plain.append (fun c hc => ?_) (by simp [Plain])
    have := isAsciiDigit_iff.1 ((h e rfl).2 c hc)
    omega

theorem Body.plain {rest u : List Char} {r : Option (List Char)} (h : Body rest u r) : Plain rest := by
  rw [h.spelled]
  refine (upstream_plain h.upstream_valid).append ?_
  cases r with
  | none => intro c hc; cases hc
  | some r =>
    have hr := revision_plain (h.revision_valid r rfl).2
    rintro c (_ | ⟨_, hc⟩)
    · decide
    · exact hr c hc

theorem Policy.plain {text u : List Char} {e r : Option (List Char)} (h : Policy text e u r) :
    Plain text := by
  rw [h.spelled]
  exact (epoch_plain h.epoch_valid).append h.body.plain

theorem EmptyRevision.plain {text : String} (h : EmptyRevision text) : Plain text.toList := by
  obtain ⟨e, u, hs, he, hu, -⟩ := h
  rw [hs]
  exact (epoch_plain he).append ((upstream_plain hu).append (by simp [Plain]))

/-- A text with a space, or none at all, is no version for either. -/
theorem parse_not_plain {text : String} (h : text = "" ∨ text.toList.any isSpace = true) :
    ∃ msg shown, parse text = .error (.InvalidVersion msg shown) := by
  by_cases hp : text = "" ∨ padded text = true
  · exact ⟨_, _, by rw [parse, if_pos hp]⟩
  · have hsp : text.toList.any isSpace = true := h.resolve_left fun h => hp (.inl h)
    exact ⟨_, _, by rw [parse, if_neg hp, if_pos hsp]⟩

theorem parse_plain {text : String} (hne : text ≠ "") (hsp : text.toList.any isSpace = false) :
    parse text = (do
      let (epoch, rest) ← splitEpoch text
      validated text epoch (splitRevision rest).1 (splitRevision rest).2) := by
  have hp : ¬ (text = "" ∨ padded text = true) := by
    rintro (h | h)
    · exact hne h
    · rw [padded_space h] at hsp
      cases hsp
  rw [parse, if_neg hp, if_neg (by simp [hsp])]

/-- What a version was parsed from. -/
theorem parse_ok {text : String} {v : DebianVersion} (h : parse text = .ok v) :
    text ≠ "" ∧ text.toList.any isSpace = false ∧ v.raw = text ∧ ∃ rest,
      splitEpoch text = .ok (v.epoch, rest) ∧ v.upstream.toList = (splitRevision rest).1 ∧
      v.revision.toList = (splitRevision rest).2 := by
  by_cases hplain : text = "" ∨ text.toList.any isSpace = true
  · obtain ⟨msg, shown, herr⟩ := parse_not_plain hplain
    rw [herr] at h
    cases h
  · rw [not_or, Bool.not_eq_true] at hplain
    rw [parse_plain hplain.1 hplain.2] at h
    obtain ⟨⟨epoch, rest⟩, hsplit, hv⟩ := except_bind_eq_ok.1 h
    rcases validated_cases text epoch (splitRevision rest).1 (splitRevision rest).2 with
      ⟨-, v', hv', h0, hu, hr, hraw⟩ | ⟨-, msg, shown, herr⟩
    · obtain rfl : v' = v := Except.ok.inj (hv'.symm.trans hv)
      exact ⟨hplain.1, hplain.2, hraw, rest, by rw [h0]; exact hsplit, hu, hr⟩
    · have := herr.symm.trans hv
      cases this

/-- What a version can be parsed from. -/
theorem parse_accepts {text : String} (hne : text ≠ "") (hsp : text.toList.any isSpace = false)
    {epoch : Nat} {rest : List Char} (hsplit : splitEpoch text = .ok (epoch, rest))
    (ha : Accepts epoch (splitRevision rest).1 (splitRevision rest).2) :
    ∃ v, parse text = .ok v ∧ v.epoch = epoch ∧ v.upstream.toList = (splitRevision rest).1 ∧
      v.revision.toList = (splitRevision rest).2 := by
  rw [parse_plain hne hsp, hsplit]
  rcases validated_cases text epoch (splitRevision rest).1 (splitRevision rest).2 with
    ⟨-, v, hv, h0, hu, hr, -⟩ | ⟨hnot, -⟩
  · exact ⟨v, hv, h0, hu, hr⟩
  · exact absurd ha hnot

/-- The body of a version is valid. -/
def ValidBody (rest : List Char) : Prop :=
  isUpstream (splitRevision rest).1 = true ∧ isRevision (splitRevision rest).2 = true ∧
    ('-' ∈ rest → (splitRevision rest).2 ≠ [])

theorem no_revision {rest : List Char} (h : '-' ∉ rest) : (splitRevision rest).2 = [] := by
  rw [splitRevision, if_neg h]

/-- After the epoch, the two agree if the checks accept what Policy does. -/
theorem exact_iff {text : String} {rest : List Char} {epoch : Nat} {e : Option (List Char)} {Q : Prop}
    (hparse : parse text = validated text epoch (splitRevision rest).1 (splitRevision rest).2)
    (hpolicy : ∀ e' u r, Policy text.toList e' u r ↔ e' = e ∧ Q ∧ Body rest u r)
    (hvalue : Q → epochValue e = epoch) :
    ParsesAsPolicy text ↔
      (Accepts epoch (splitRevision rest).1 (splitRevision rest).2 ↔ Q ∧ ValidBody rest) := by
  simp only [ParsesAsPolicy, hparse, hpolicy, body_iff]
  rcases validated_cases text epoch (splitRevision rest).1 (splitRevision rest).2 with
    ⟨ha, v, hv, h0, hu, hr, -⟩ | ⟨ha, msg, shown, hv⟩
  · rw [hv]
    constructor
    · rintro ⟨e', u, r, ⟨-, hq, -, -, hbody⟩, -⟩
      exact iff_of_true ha ⟨hq, hbody⟩
    · intro h
      obtain ⟨hq, hbody⟩ := h.1 ha
      refine ⟨e, _, _, ⟨rfl, hq, rfl, rfl, hbody⟩, by rw [h0, hvalue hq], hu, ?_⟩
      rw [hr]
      split
      · rfl
      · next hnot => exact no_revision hnot
  · rw [hv]
    constructor
    · intro h
      refine iff_of_false ha fun hb => h ?_
      exact ⟨e, _, _, rfl, hb.1, rfl, rfl, hb.2⟩
    · rintro h ⟨e', u, r, -, hq, -, -, hbody⟩
      exact ha (h.2 ⟨hq, hbody⟩)

theorem exists_body_colon {rest : List Char} :
    (∃ u r, Body rest u r ∧ ':' ∈ u) ↔ ValidBody rest ∧ ':' ∈ (splitRevision rest).1 := by
  constructor
  · rintro ⟨u, r, hb, hcolon⟩
    obtain ⟨rfl, -, hvalid⟩ := body_iff.1 hb
    exact ⟨hvalid, hcolon⟩
  · rintro ⟨hvalid, hcolon⟩
    exact ⟨_, _, body_iff.2 ⟨rfl, rfl, hvalid⟩, hcolon⟩

/-- A text without a colon. -/
theorem exact_no_colon {text : String} (hne : text ≠ "") (hsp : text.toList.any isSpace = false)
    (hc : ':' ∉ text.toList) : ParsesAsPolicy text ↔ ¬ EmptyRevision text := by
  have hcolon : ':' ∉ (splitRevision text.toList).1 := fun h => hc (by
    rw [splitRevision_spelled text.toList]
    exact List.mem_append_left _ h)
  have hparse : parse text =
      validated text 0 (splitRevision text.toList).1 (splitRevision text.toList).2 := by
    rw [parse_plain hne hsp, splitEpoch, if_neg hc]
    rfl
  have hnil : (splitRevision text.toList).2 = [] → isRevision (splitRevision text.toList).2 = true := by
    intro h
    rw [h]
    rfl
  rw [exact_iff (e := none) (Q := True) hparse
    (fun e' u r => by rw [policy_no_colon hc, true_and]) fun _ => rfl, emptyRevision_no_colon hc,
    Accepts, ValidBody]
  tauto

/-- A text whose digits before the first colon are decimal. -/
theorem exact_decimal {text : String} {head tail : List Char} (hsp : text.toList.any isSpace = false)
    (hs : text.toList = head ++ ':' :: tail) (hc : ':' ∉ head)
    (hdec : isdecimal (String.ofList head) = true) :
    ParsesAsPolicy text ↔ ¬ ForeignEpoch text ∧ ¬ EmptyRevision text ∧ ¬ ZeroEpochColon text := by
  have hdig := isdigit_of_isdecimal hdec
  have hne : text ≠ "" := by
    rintro rfl
    simp at hs
  have hparse : parse text = validated text (intOf (String.ofList head)) (splitRevision tail).1
      (splitRevision tail).2 := by
    have hsplit : splitEpoch text = .ok (intOf (String.ofList head), tail) := by
      rw [splitEpoch, if_pos (by rw [hs]; simp), hs, partition_append hc]
      dsimp only
      rw [if_pos hdig, int, if_pos hdec]
      rfl
    rw [parse_plain hne hsp, hsplit]
    rfl
  have hpolicy : ∀ e' u r, Policy text.toList e' u r ↔ e' = some head ∧ AsciiNumber head ∧ Body tail u r := by
    intro e' u r
    rw [hs]
    exact policy_colon hc
  have hnil : (splitRevision tail).2 = [] → isRevision (splitRevision tail).2 = true := by
    intro h
    rw [h]
    rfl
  rw [exact_iff hparse hpolicy fun ha => ha.intOf.symm, foreignEpoch_colon hsp hs hc,
    emptyRevision_colon hs hc, zeroEpochColon_colon hs hc]
  rw [exists_body_colon]
  by_cases ha : AsciiNumber head
  · simp only [ha.intOf, ha, Accepts, ValidBody, not_true_eq_false, false_and, and_false, not_false_eq_true,
      true_and]
    grind
  · simp [ha, hdig, hdec]

/-- A text with a colon. -/
theorem exact_colon {text : String} {head tail : List Char} (hsp : text.toList.any isSpace = false)
    (hs : text.toList = head ++ ':' :: tail) (hc : ':' ∉ head) :
    ParsesAsPolicy text ↔ ¬ ForeignEpoch text ∧ ¬ EmptyRevision text ∧ ¬ ZeroEpochColon text := by
  by_cases hdec : isdecimal (String.ofList head) = true
  · exact exact_decimal hsp hs hc hdec
  have ha : ¬ AsciiNumber head := fun ha => hdec ha.isdecimal
  have hne : text ≠ "" := by
    rintro rfl
    simp at hs
  rw [foreignEpoch_colon hsp hs hc, emptyRevision_colon hs hc, zeroEpochColon_colon hs hc,
    ParsesAsPolicy, parse_plain hne hsp, splitEpoch, if_pos (by rw [hs]; simp), hs, partition_append hc]
  simp only [policy_colon hc]
  by_cases hdig : isdigit (String.ofList head) = true
  · rw [if_pos hdig, int, if_neg hdec]
    simp [hdig, ha, hdec]
  · rw [if_neg hdig]
    simp [hdig, ha]

end Debver
