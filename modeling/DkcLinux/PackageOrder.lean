import DkcLinux.Naming
import DkcLinux.VersionHash

/-!
# The order of package versions (`dkc/naming.py:84-97`)

A package version appends its suffix to the last fragment of the Debian version. The appended
suffix is read where the fragment ends, so it decides against a longer fragment that goes on there:
`7.1.7-1` and `7.1.7-1+deb13u1` are in order, but `+dkc13.1` sorts above `+deb13u1+dkc13.1`.
-/

namespace Debver

open Py

/-! ## Cutting a fragment -/

def startsWithDigit (s : List Char) : Bool := s.head?.any isAsciiDigit
def endsWithDigit (s : List Char) : Bool := s.getLast?.any isAsciiDigit

/-- No number goes on from the first part into the second. -/
def Boundary (y z : List Char) : Prop := ¬ (endsWithDigit y = true ∧ startsWithDigit z = true)

theorem units_append {z : List Char} : ∀ {m : Option Nat} {y : List Char},
    (startsWithDigit z = true → m.isNone = true ∨ y ≠ []) → Boundary y z →
    units m (y ++ z) = units m y ++ units none z
  | none, [], _, _ => rfl
  | some n, [], hm, _ => by
    cases z with
    | nil => rfl
    | cons d z =>
      cases hd : isAsciiDigit d with
      | false => simp [units, hd]
      | true => simpa using hm (by simp [startsWithDigit, hd])
  | m, c :: y, _, hb => by
    have hb' : Boundary y z := by
      cases y with
      | nil => simp [Boundary, endsWithDigit]
      | cons d y => simpa [Boundary, endsWithDigit, List.getLast?_cons_cons] using hb
    have hcont : ∀ n : Nat, isAsciiDigit c = true → startsWithDigit z = true →
        (some n).isNone = true ∨ y ≠ [] := by
      intro n hc hz
      refine .inr fun hnil => hb ⟨?_, hz⟩
      rw [hnil]
      simpa [endsWithDigit] using hc
    rw [List.cons_append]
    cases hc : isAsciiDigit c with
    | true =>
      cases m with
      | none => simp [units, hc, units_append (hcont _ hc) hb']
      | some n => simp [units, hc, units_append (hcont _ hc) hb']
    | false =>
      have hnone : units none (y ++ z) = units none y ++ units none z := units_append (fun _ => .inl rfl) hb'
      cases m with
      | none => simp [units, hc, hnone]
      | some n => simp [units, hc, hnone]

/-- The characters of the text runs and the numbers. -/
def marks : List Char → List HashUnit
  | [] => []
  | c :: rest =>
    if isAsciiDigit c then
      .n (number (c :: rest.takeWhile isAsciiDigit)) :: marks (rest.dropWhile isAsciiDigit)
    else .s [c] :: marks rest
termination_by s => s.length
decreasing_by
  · exact Nat.lt_succ_of_le (List.dropWhile_suffix _).length_le
  · simp

theorem spell_marks (s : List Char) : spell (marks s) = units none s := by
  induction s using marks.induct with
  | case1 => rw [marks, spell_nil, units]
  | case2 c rest hc ih =>
    rw [marks, if_pos hc, spell_cons, ih, units, if_pos hc, units_some]
    rfl
  | case3 c rest hc ih =>
    rw [marks, if_neg hc, spell_cons, ih, units, if_neg hc]
    rfl

/-- A number, or one character that is no digit. -/
def IsMark : HashUnit → Prop
  | .n _ => True
  | .s t => ∃ c, t = [c] ∧ isAsciiDigit c = false

theorem marks_isMark (s : List Char) : ∀ u ∈ marks s, IsMark u := by
  induction s using marks.induct with
  | case1 => simp [marks]
  | case2 c rest hc ih =>
    rw [marks, if_pos hc]
    rintro u (_ | ⟨_, hu⟩)
    · trivial
    · exact ih u hu
  | case3 c rest hc ih =>
    rw [marks, if_neg hc]
    rintro u (_ | ⟨_, hu⟩)
    · exact ⟨c, rfl, by simpa using hc⟩
    · exact ih u hu

/-- Marks are read off their sequence one by one. -/
theorem spell_prefix : ∀ {us vs : List HashUnit} {zs : List Int}, (∀ u ∈ us, IsMark u) →
    (∀ v ∈ vs, IsMark v) → spell vs = spell us ++ zs → ∃ ws, vs = us ++ ws ∧ spell ws = zs
  | [], vs, zs, _, _, h => ⟨vs, rfl, h⟩
  | .n k :: us, [], zs, _, _, h => by simp [spellUnit] at h
  | .s t :: us, [], zs, hu, _, h => by
    obtain ⟨c, rfl, -⟩ := hu _ List.mem_cons_self
    simp [spellUnit] at h
  | .n k :: us, .n m :: vs, zs, hu, hv, h => by
    simp only [spell_cons, spellUnit, List.cons_append, List.nil_append, List.cons.injEq, true_and,
      Nat.cast_inj] at h
    obtain ⟨ws, rfl, hw⟩ := spell_prefix (fun u hm => hu u (List.mem_cons_of_mem _ hm))
      (fun v hm => hv v (List.mem_cons_of_mem _ hm)) h.2
    exact ⟨ws, by rw [h.1]; rfl, hw⟩
  | .n k :: us, .s t :: vs, zs, _, hv, h => by
    obtain ⟨d, rfl, hd⟩ := hv _ List.mem_cons_self
    simp only [spell_cons, spellUnit, List.map_cons, List.map_nil, List.cons_append,
      List.cons.injEq] at h
    exact absurd h.1 (order_ne_zero hd)
  | .s t :: us, .n m :: vs, zs, hu, _, h => by
    obtain ⟨c, rfl, hc⟩ := hu _ List.mem_cons_self
    simp only [spell_cons, spellUnit, List.map_cons, List.map_nil, List.cons_append,
      List.cons.injEq] at h
    exact absurd h.1.symm (order_ne_zero hc)
  | .s t :: us, .s t' :: vs, zs, hu, hv, h => by
    obtain ⟨c, rfl, hc⟩ := hu _ List.mem_cons_self
    obtain ⟨d, rfl, hd⟩ := hv _ List.mem_cons_self
    simp only [spell_cons, spellUnit, List.map_cons, List.map_nil, List.cons_append,
      List.nil_append, List.cons.injEq] at h
    obtain ⟨ws, rfl, hw⟩ := spell_prefix (fun u hm => hu u (List.mem_cons_of_mem _ hm))
      (fun v hm => hv v (List.mem_cons_of_mem _ hm)) h.2
    exact ⟨ws, by rw [order_injective hd hc h.1]; rfl, hw⟩

theorem startsWithDigit_dropWhile (s : List Char) : startsWithDigit (s.dropWhile isAsciiDigit) = false := by
  have h := List.head?_dropWhile_not isAsciiDigit s
  rw [startsWithDigit]
  cases hs : (s.dropWhile isAsciiDigit).head? with
  | none => rfl
  | some c =>
    rw [hs] at h
    exact h

/-- Reading a number stops where no digit follows. -/
theorem marks_digits {ds y : List Char} {c : Char} (hc : isAsciiDigit c = true)
    (hd : ∀ d ∈ ds, isAsciiDigit d = true) (hy : startsWithDigit y = false) :
    marks (c :: ds ++ y) = .n (number (c :: ds)) :: marks y := by
  have htake : (ds ++ y).takeWhile isAsciiDigit = ds ∧ (ds ++ y).dropWhile isAsciiDigit = y := by
    rw [List.takeWhile_append_of_pos hd, List.dropWhile_append_of_pos hd]
    cases y with
    | nil => simp
    | cons d y =>
      have : isAsciiDigit d = false := by simpa [startsWithDigit] using hy
      simp [this]
  rw [List.cons_append, marks, if_pos hc, htake.1, htake.2]

theorem Boundary.append {y z : List Char} (h : Boundary y z) (hy : y ≠ []) (x : List Char) :
    Boundary (x ++ y) z := by
  rw [Boundary, endsWithDigit, List.getLast?_append_of_ne_nil x hy]
  exact h

/-- A cut between two marks is a cut of the text. -/
theorem marks_cut : ∀ {us ws : List HashUnit} {y : List Char}, marks y = us ++ ws →
    ∃ y' z, y = y' ++ z ∧ Boundary y' z ∧ marks y' = us ∧ marks z = ws
  | [], ws, y, h => ⟨[], y, rfl, by simp [Boundary, endsWithDigit], by rw [marks], h⟩
  | u :: us, ws, [], h => by simp [marks] at h
  | u :: us, ws, c :: rest, h => by
    by_cases hc : isAsciiDigit c = true
    · rw [marks, if_pos hc, List.cons_append, List.cons.injEq] at h
      obtain ⟨hu, h⟩ := h
      obtain ⟨y', z, hy, hb, hmarks, hz⟩ := marks_cut h
      have hdigits : ∀ d ∈ rest.takeWhile isAsciiDigit, isAsciiDigit d = true :=
        fun d hd => List.mem_takeWhile_imp hd
      have hhead := startsWithDigit_dropWhile rest
      rw [hy] at hhead
      refine ⟨c :: rest.takeWhile isAsciiDigit ++ y', z, ?_, ?_, ?_, hz⟩
      · rw [List.append_assoc, ← hy, List.cons_append, List.takeWhile_append_dropWhile]
      · cases y' with
        | nil => exact fun h => by rw [show startsWithDigit z = false from hhead] at h; cases h.2
        | cons d y' => exact hb.append (List.cons_ne_nil d y') _
      · rw [marks_digits hc hdigits (by cases y' with
          | nil => rfl
          | cons d y' => exact hhead), hmarks, hu]
    · rw [marks, if_neg hc, List.cons_append, List.cons.injEq] at h
      obtain ⟨hu, h⟩ := h
      obtain ⟨y', z, rfl, hb, hmarks, hz⟩ := marks_cut h
      refine ⟨c :: y', z, rfl, ?_, ?_, hz⟩
      · cases y' with
        | nil => simpa [Boundary, endsWithDigit] using fun h => absurd h hc
        | cons d y' => exact hb.append (List.cons_ne_nil d y') [c]
      · rw [marks, if_neg hc, hmarks, hu]

/-- A sequence that goes on cuts the text where the first one ends. -/
theorem units_cut {x y : List Char} {zs : List Int} (h : units none y = units none x ++ zs) :
    ∃ y' z, y = y' ++ z ∧ Boundary y' z ∧ units none y' = units none x ∧ units none z = zs := by
  rw [← spell_marks x, ← spell_marks y] at h
  obtain ⟨ws, hws, hzs⟩ := spell_prefix (marks_isMark x) (marks_isMark y) h
  obtain ⟨y', z, hy, hb, hmarks, hz⟩ := marks_cut hws
  refine ⟨y', z, hy, hb, ?_, ?_⟩
  · rw [← spell_marks, hmarks, spell_marks]
  · rw [← spell_marks, hz, hzs]

/-! ## Fragments with a suffix -/

/-- `y` goes on after `x`, with `z`: what comes before `z` in `y` is read like `x`, to the same place. -/
def Extends (x y z : List Char) : Prop :=
  ∃ y', y = y' ++ z ∧ z ≠ [] ∧ Boundary y' z ∧ compare_fragment (x ++ ['+']) (y' ++ ['+']) = 0

theorem boundary_plus {s : List Char} (x : List Char) (hs : startsWithDigit s = false) : Boundary x s := by
  simp [Boundary, hs]

theorem units_plus (x : List Char) : units none (x ++ ['+']) = units none x ++ [299] :=
  units_append (fun h => absurd h (by decide)) (boundary_plus x rfl)

theorem same_units {x y : List Char} :
    compare_fragment (x ++ ['+']) (y ++ ['+']) = 0 ↔ units none x = units none y := by
  rw [compare_fragment_eq, sign_eq_zero, Padded.order_eq_eq, units_plus, units_plus]
  constructor
  · intro h
    exact (Padded.seq_concat_inj (by decide) (by decide) h).1
  · intro h
    rw [h]

theorem extends_units {x y : List Char} {P : List Int → Prop} :
    (∀ z, Extends x y z → P (units none z)) ↔
      ∀ zs, zs ≠ [] → units none y = units none x ++ zs → P zs := by
  constructor
  · intro h zs hne hy
    obtain ⟨y', z, rfl, hb, hy', rfl⟩ := units_cut hy
    refine h z ⟨y', rfl, ?_, hb, same_units.2 hy'.symm⟩
    rintro rfl
    exact hne rfl
  · rintro h z ⟨y', rfl, hz, hb, hsame⟩
    rw [same_units] at hsame
    refine h _ ?_ ?_
    · cases z with
      | nil => exact absurd rfl hz
      | cons c z =>
        rw [units]
        split <;> simp
    · rw [units_append (fun _ => .inl rfl) hb, hsame]

/-! ## The suffix -/

def suffix (dkc_revision : Int) : List Char := (Identity.suffix dkc_revision).toList

theorem suffix_eq (n : Nat) : suffix n = "+dkc13.".toList ++ Nat.toDigits 10 n := by
  rw [suffix, Identity.suffix, String.toList_append]
  exact congrArg _ String.toList_ofList

theorem toDigits_digit (n : Nat) : ∀ c ∈ Nat.toDigits 10 n, isAsciiDigit c = true := fun c hc => by
  have h := Nat.isDigit_of_mem_toDigits (by decide) le_rfl hc
  rw [isAsciiDigit_iff]
  simpa [Char.isDigit, UInt32.le_iff_toNat_le] using h

theorem units_toDigits (n : Nat) : units none (Nat.toDigits 10 n) = [0, (n : Int)] := by
  have hdigit := toDigits_digit n
  cases h : Nat.toDigits 10 n with
  | nil => exact absurd h Nat.toDigits_ne_nil
  | cons c ds =>
    rw [h] at hdigit
    have hnumber : number (c :: ds) = n := by
      rw [← h]
      exact Nat.ofDigitChars_ten_toDigits
    have hall : ∀ d ∈ ds, isAsciiDigit d = true := fun d hd => hdigit d (List.mem_cons_of_mem _ hd)
    rw [units, if_pos (hdigit c List.mem_cons_self), units_some,
      List.takeWhile_eq_self_iff.2 hall, List.dropWhile_eq_nil_iff.2 hall, ← hnumber]
    rfl

/-- The suffix ends in the revision. -/
theorem units_suffix (n : Nat) : units none (suffix n) = [299, 100, 107, 99, 0, 13, 302, 0, (n : Int)] := by
  have hname : units none "+dkc13.".toList = [299, 100, 107, 99, 0, 13, 302] := by decide +kernel
  have hdot : endsWithDigit "+dkc13.".toList = false := by decide +kernel
  have hb : Boundary "+dkc13.".toList (Nat.toDigits 10 n) := fun h => by
    rw [hdot] at h
    cases h.1
  rw [suffix_eq, units_append (fun _ => .inl rfl) hb, units_toDigits, hname]
  rfl

theorem suffix_starts (n : Nat) : startsWithDigit (suffix n) = false := by
  rw [suffix_eq]
  rfl

/-- A suffix after a fragment. -/
theorem units_append_suffix (x : List Char) (n : Nat) :
    units none (x ++ suffix n) = units none x ++ 299 :: [100, 107, 99, 0, 13, 302, 0, (n : Int)] := by
  rw [units_append (fun _ => .inl rfl) (boundary_plus x (suffix_starts n)), units_suffix]

theorem suffix_lt {m n : Nat} : Padded.seq (units none (suffix m)) < Padded.seq (units none (suffix n)) ↔
    m < n := by
  have h := @Padded.seq_append_lt Int _ _ [(m : Int)] [(n : Int)] [299, 100, 107, 99, 0, 13, 302, 0]
  rw [units_suffix, units_suffix]
  rw [Padded.seq_cons_lt, Nat.cast_lt] at h
  exact h.trans (or_iff_left fun h => lt_irrefl _ h.2)

/-- **Two suffixes on fragments in order.** -/
theorem suffix_both {x y : List Char} {m n : Nat}
    (h : compare_fragment x y < 0 ∨ (compare_fragment x y = 0 ∧ m < n)) :
    compare_fragment (x ++ suffix m) (y ++ suffix n) < 0 ↔
      ∀ z, Extends x y z → compare_fragment (suffix m) (z ++ suffix n) < 0 := by
  simp only [compare_fragment_neg, compare_fragment_zero, ← suffix_lt, units_append_suffix] at h ⊢
  rw [units_suffix, units_suffix] at h
  rw [Padded.append_lt_append h (by decide), units_suffix]
  exact (extends_units (P := fun zs => Padded.seq [299, 100, 107, 99, 0, 13, 302, 0, (m : Int)] <
    Padded.seq (zs ++ 299 :: [100, 107, 99, 0, 13, 302, 0, (n : Int)]))).symm

/-- **A suffix on the first fragment only.** -/
theorem suffix_first {x y : List Char} {m : Nat} {P : Prop} (h : compare_fragment x y ≤ 0) :
    (compare_fragment (x ++ suffix m) y < 0 ∨ (compare_fragment (x ++ suffix m) y = 0 ∧ P)) ↔
      compare_fragment x y ≠ 0 ∧ ∀ z, Extends x y z →
        compare_fragment (suffix m) z < 0 ∨ (compare_fragment (suffix m) z = 0 ∧ P) := by
  rw [le_iff_lt_or_eq] at h
  simp only [Ne, compare_fragment_neg, compare_fragment_zero, units_append_suffix, units_suffix] at h ⊢
  rw [Padded.append_lt_or (le_iff_lt_or_eq.2 h) (by decide)]
  refine and_congr_right fun _ => ?_
  exact (extends_units (P := fun zs => Padded.seq [299, 100, 107, 99, 0, 13, 302, 0, (m : Int)] <
    Padded.seq zs ∨ (Padded.seq [299, 100, 107, 99, 0, 13, 302, 0, (m : Int)] = Padded.seq zs ∧ P))).symm

/-- **A suffix on the second fragment only.** -/
theorem suffix_second {x y : List Char} {n : Nat} (h : compare_fragment x y ≤ 0) :
    compare_fragment x (y ++ suffix n) < 0 := by
  rw [le_iff_lt_or_eq, compare_fragment_neg, compare_fragment_zero] at h
  rw [compare_fragment_neg, units_append_suffix]
  refine lt_of_le_of_lt (le_iff_lt_or_eq.2 h) ?_
  have hzero := @Padded.zeros_lt_append Int _ _ [] rfl 299 (by decide) [100, 107, 99, 0, 13, 302, 0, (n : Int)]
  have := (Padded.seq_append_lt (units none y)).2 hzero
  rwa [List.append_nil] at this

/-! ## Parsing a package version -/

theorem suffix_chars (n : Nat) : isRevision (suffix n) = true := by
  have hname : isRevision "+dkc13.".toList = true := by decide +kernel
  rw [suffix_eq, isRevision, List.all_append, Bool.and_eq_true]
  refine ⟨hname, List.all_eq_true.2 fun c hc => ?_⟩
  rw [isRevisionChar, isAsciiAlnum, toDigits_digit n c hc]
  rfl

theorem suffix_no_colon (n : Nat) : ':' ∉ suffix n := not_colon (suffix_chars n)

theorem suffix_no_hyphen (n : Nat) : '-' ∉ suffix n := not_hyphen (suffix_chars n)

theorem upstream_of_revision {c : Char} (h : isRevisionChar c = true) : isUpstreamChar c = true := by
  rw [isRevisionChar, Bool.or_eq_true] at h
  rw [isUpstreamChar, Bool.or_eq_true]
  refine h.imp id fun h => ?_
  simp only [List.contains_iff_mem, List.mem_cons, List.not_mem_nil, or_false] at h ⊢
  tauto

/-- What is appended to a text without a colon in it stays behind the epoch. -/
theorem splitEpoch_append {text : String} {epoch : Nat} {rest : List Char} {s : String}
    (hs : ':' ∉ s.toList) (h : splitEpoch text = .ok (epoch, rest)) :
    splitEpoch (text ++ s) = .ok (epoch, rest ++ s.toList) ∧ ('-' ∈ text.toList ↔ '-' ∈ rest) := by
  by_cases hc : ':' ∈ text.toList
  · obtain ⟨head, tail, hhead, htext⟩ := partition_mem hc
    have happ : (text ++ s).toList = head ++ ':' :: (tail ++ s.toList) := by
      rw [String.toList_append, htext]
      simp
    rw [splitEpoch, if_pos hc, htext, partition_append hhead] at h
    rw [splitEpoch, if_pos (by rw [happ]; simp), happ, partition_append hhead, htext]
    dsimp only at h ⊢
    by_cases hdig : isdigit (String.ofList head) = true
    · rw [if_pos hdig] at h ⊢
      obtain ⟨e, he, h⟩ := except_bind_eq_ok.1 h
      cases h
      rw [he]
      refine ⟨rfl, ?_⟩
      have hnot : '-' ∉ head := fun hmem => by
        rw [Py.isdigit, String.toList_ofList, Bool.and_eq_true] at hdig
        have := List.all_eq_true.1 hdig.2 '-' hmem
        revert this
        decide +kernel
      simp [hnot]
    · rw [if_neg hdig] at h
      cases h
  · rw [splitEpoch, if_neg hc] at h
    cases h
    rw [splitEpoch, String.toList_append, if_neg (by simp [hc, hs])]
    exact ⟨rfl, Iff.rfl⟩

/-- A suffix goes to the revision if there is a hyphen. -/
theorem splitRevision_append {rest s : List Char} (hs : '-' ∉ s) : splitRevision (rest ++ s) =
    if '-' ∈ rest then ((splitRevision rest).1, (splitRevision rest).2 ++ s)
    else ((splitRevision rest).1 ++ s, (splitRevision rest).2) := by
  by_cases h : '-' ∈ rest
  · obtain ⟨u, r, hr, rfl⟩ := rpartition_mem h
    rw [if_pos h, splitRevision_hyphen hr, List.append_assoc, List.cons_append,
      splitRevision_hyphen (by simp [hr, hs])]
  · rw [if_neg h, splitRevision, splitRevision, if_neg h, if_neg (by simp [h, hs])]

/-- The Debian version has a revision part. -/
def hyphened (v : DebianVersion) : Prop := '-' ∈ v.raw.toList

instance (v : DebianVersion) : Decidable (hyphened v) := inferInstanceAs (Decidable ('-' ∈ v.raw.toList))

/-- **A package version parses to the Debian version with the suffix on its last fragment.** -/
theorem parse_package {text : String} {v : DebianVersion} (h : parse text = .ok v) (n : Nat) :
    ∃ p, parse (v.raw ++ Identity.suffix n) = .ok p ∧ p.epoch = v.epoch ∧
      (hyphened v → p.upstream.toList = v.upstream.toList ∧ p.revision.toList = v.revision.toList ++ suffix n) ∧
      (¬ hyphened v → p.upstream.toList = v.upstream.toList ++ suffix n ∧ p.revision.toList = [] ∧
        v.revision.toList = []) := by
  obtain ⟨hne, hsp, hraw, rest, hsplit, hu, hr⟩ := parse_ok h
  rw [hyphened, hraw]
  obtain ⟨hsplit', hhyphen⟩ := splitEpoch_append (suffix_no_colon n) hsplit
  have hup := v.upstream_valid
  have hrev := v.revision_valid
  have hcolon := v.colon_epoch
  rw [hu] at hup hcolon
  rw [hr] at hrev
  have hne' : text ++ Identity.suffix n ≠ "" := fun h0 => hne (String.append_eq_empty_iff.1 h0).1
  have hsp' : (text ++ Identity.suffix n).toList.any isSpace = false := by
    rw [String.toList_append, List.any_append, hsp]
    exact (revision_plain (suffix_chars n)).no_space
  have hsr := @splitRevision_append rest (suffix n) (suffix_no_hyphen n)
  by_cases hmem : '-' ∈ rest
  · rw [if_pos hmem] at hsr
    have ha : Accepts v.epoch (splitRevision (rest ++ suffix n)).1 (splitRevision (rest ++ suffix n)).2 := by
      rw [hsr]
      refine ⟨hup, ?_, hcolon⟩
      rw [isRevision, List.all_append, Bool.and_eq_true]
      exact ⟨hrev, suffix_chars n⟩
    obtain ⟨p, hp, hepoch, hpu, hpr⟩ := parse_accepts hne' hsp' hsplit' ha
    rw [← suffix, hsr] at hpu hpr
    rw [hhyphen, hu, hr]
    exact ⟨p, hp, hepoch, fun _ => ⟨hpu, hpr⟩, fun h => absurd hmem h⟩
  · rw [if_neg hmem] at hsr
    have hnil := no_revision hmem
    have ha : Accepts v.epoch (splitRevision (rest ++ suffix n)).1 (splitRevision (rest ++ suffix n)).2 := by
      rw [hsr]
      refine ⟨?_, hrev, fun hc => hcolon ?_⟩
      · rw [isUpstream, Bool.and_eq_true] at hup ⊢
        rw [List.all_append, Bool.and_eq_true]
        refine ⟨?_, hup.2, ?_⟩
        · cases hs : (splitRevision rest).1 with
          | nil => rw [hs] at hup; simp at hup
          | cons c u => rw [hs] at hup; exact hup.1
        · exact List.all_eq_true.2 fun c hc =>
            upstream_of_revision (List.all_eq_true.1 (suffix_chars n) c hc)
      · exact (List.mem_append.1 hc).resolve_right (suffix_no_colon n)
    obtain ⟨p, hp, hepoch, hpu, hpr⟩ := parse_accepts hne' hsp' hsplit' ha
    rw [← suffix, hsr] at hpu hpr
    rw [hhyphen, hu, hr]
    exact ⟨p, hp, hepoch, fun h => absurd h hmem, fun _ => ⟨hpu, hpr.trans hnil, hnil⟩⟩

/-! ## Package versions in order -/

/-- The package version of the first identity sorts below that of the second. -/
def PackageBelow (i j : Identity) : Prop :=
  ∃ p q result, i.package_version = .ok p ∧ j.package_version = .ok q ∧
    compare_str p q = .ok result ∧ result < 0

/-- A newer source, or the same with a higher revision, has the higher package version, and a
package version is higher than its source. -/
structure Monotone (i j : Identity) : Prop where
  source : compare i.debian_source_version j.debian_source_version < 0 → PackageBelow i j
  revision : compare i.debian_source_version j.debian_source_version = 0 →
    i.dkc_revision < j.dkc_revision → PackageBelow i j
  derived : ∃ p result, i.package_version = .ok p ∧
    compare_str i.debian_source_version.raw p = .ok result ∧ result < 0

/-- The second version is newer, or equal with a higher DKC revision. -/
def Newer (i j : Identity) : Prop :=
  compare i.debian_source_version j.debian_source_version < 0 ∨
    (compare i.debian_source_version j.debian_source_version = 0 ∧ i.dkc_revision < j.dkc_revision)

/-- The last fragment of the second version does not go on after that of the first with something
that sorts below the suffix. -/
def NoExtension (i j : Identity) (x y : List Char) : Prop :=
  ∀ z, Extends x y z → compare_fragment (suffix i.dkc_revision) (z ++ suffix j.dkc_revision) < 0

/-- What the appended suffixes do to two versions in order. -/
def InOrder (i j : Identity) : Prop :=
  let v := i.debian_source_version
  let w := j.debian_source_version
  v.epoch ≠ w.epoch ∨
    if hyphened v then
      hyphened w → compare_fragment v.upstream.toList w.upstream.toList ≠ 0 ∨
        NoExtension i j v.revision.toList w.revision.toList
    else if hyphened w then
      compare_fragment v.upstream.toList w.upstream.toList ≠ 0 ∧
        ∀ z, Extends v.upstream.toList w.upstream.toList z →
          compare_fragment (suffix i.dkc_revision) z < 0 ∨
            (compare_fragment (suffix i.dkc_revision) z = 0 ∧
              compare_fragment [] (w.revision.toList ++ suffix j.dkc_revision) < 0)
    else NoExtension i j v.upstream.toList w.upstream.toList

section
variable {i j : Identity}
  (hi : parse i.debian_source_version.raw = .ok i.debian_source_version)
  (hj : parse j.debian_source_version.raw = .ok j.debian_source_version)
include hi

/-- The package version as a version. -/
theorem package_parsed : ∃ p, i.package_version = .ok (i.debian_source_version.raw ++ Identity.suffix i.dkc_revision) ∧
    parse (i.debian_source_version.raw ++ Identity.suffix i.dkc_revision) = .ok p ∧
      p.epoch = i.debian_source_version.epoch ∧
      (hyphened i.debian_source_version → p.upstream.toList = i.debian_source_version.upstream.toList ∧
        p.revision.toList = i.debian_source_version.revision.toList ++ suffix i.dkc_revision) ∧
      (¬ hyphened i.debian_source_version →
        p.upstream.toList = i.debian_source_version.upstream.toList ++ suffix i.dkc_revision ∧
        p.revision.toList = [] ∧ i.debian_source_version.revision.toList = []) := by
  have hn : ((i.dkc_revision.toNat : Nat) : Int) = i.dkc_revision :=
    Int.toNat_of_nonneg (by have := i.revision_pos; omega)
  obtain ⟨p, hp, h⟩ := parse_package hi i.dkc_revision.toNat
  rw [hn] at hp h
  refine ⟨p, ?_, hp, h⟩
  rw [Identity.package_version, hp]
  rfl

include hj

theorem packageBelow_iff : PackageBelow i j ↔ ∃ p q,
    parse (i.debian_source_version.raw ++ Identity.suffix i.dkc_revision) = .ok p ∧
    parse (j.debian_source_version.raw ++ Identity.suffix j.dkc_revision) = .ok q ∧ key p < key q := by
  obtain ⟨p, hpv, hp, -⟩ := package_parsed hi
  obtain ⟨q, hqv, hq, -⟩ := package_parsed hj
  constructor
  · rintro ⟨p', q', result, hp', hq', hresult, hneg⟩
    obtain rfl := Except.ok.inj (hpv.symm.trans hp')
    obtain rfl := Except.ok.inj (hqv.symm.trans hq')
    rw [compare_str, hp, hq] at hresult
    cases hresult
    exact ⟨p, q, hp, hq, compare_neg.1 hneg⟩
  · rintro ⟨p', q', hp', hq', hlt⟩
    obtain rfl := Except.ok.inj (hp.symm.trans hp')
    obtain rfl := Except.ok.inj (hq.symm.trans hq')
    refine ⟨_, _, compare p q, hpv, hqv, ?_, compare_neg.2 hlt⟩
    rw [compare_str, hp, hq]
    rfl

/-- **Two identities in order have package versions in order exactly if the suffixes allow it.** -/
theorem below_iff (h : Newer i j) : PackageBelow i j ↔ InOrder i j := by
  obtain ⟨p, -, hp, hpe, hph, hpn⟩ := package_parsed hi
  obtain ⟨q, -, hq, hqe, hqh, hqn⟩ := package_parsed hj
  have hlt : PackageBelow i j ↔ key p < key q := by
    rw [packageBelow_iff hi hj]
    constructor
    · rintro ⟨p', q', hp', hq', hlt⟩
      rwa [Except.ok.inj (hp.symm.trans hp'), Except.ok.inj (hq.symm.trans hq')]
    · exact fun hlt => ⟨p, q, hp, hq, hlt⟩
  rw [hlt, key_lt, hpe, hqe]
  simp only [← compare_fragment_neg, ← compare_fragment_zero]
  simp only [Newer, compare_neg, compare_eq_zero, key_lt, key_eq, ← compare_fragment_neg,
    ← compare_fragment_zero] at h
  simp only [InOrder]
  obtain ⟨m, hm⟩ := Int.eq_ofNat_of_zero_le (show 0 ≤ i.dkc_revision by have := i.revision_pos; omega)
  obtain ⟨n, hn⟩ := Int.eq_ofNat_of_zero_le (show 0 ≤ j.dkc_revision by have := j.revision_pos; omega)
  rw [hm] at h hph hpn
  rw [hn] at h hqh hqn
  simp only [NoExtension, hm, hn]
  by_cases he : i.debian_source_version.epoch = j.debian_source_version.epoch
  · simp only [he, lt_irrefl, false_or, true_and, ne_eq, not_true_eq_false, Nat.cast_lt] at h ⊢
    have hle : compare_fragment i.debian_source_version.upstream.toList
        j.debian_source_version.upstream.toList ≤ 0 := by
      rcases h with (h | ⟨h, -⟩) | ⟨⟨h, -⟩, -⟩
      · exact h.le
      · exact h.le
      · exact h.le
    by_cases hv : hyphened i.debian_source_version <;> by_cases hw : hyphened j.debian_source_version
    · -- both suffixes go to the revision
      rw [if_pos hv, (hph hv).1, (hph hv).2, (hqh hw).1, (hqh hw).2]
      rcases hle.lt_or_eq with hlt | heq
      · exact iff_of_true (.inl hlt) fun _ => .inl hlt.ne
      · have hrev : compare_fragment i.debian_source_version.revision.toList
              j.debian_source_version.revision.toList < 0 ∨
            (compare_fragment i.debian_source_version.revision.toList
              j.debian_source_version.revision.toList = 0 ∧ m < n) := by
          rcases h with (h | ⟨-, h⟩) | ⟨⟨-, h⟩, hmn⟩
          · exact absurd heq h.ne
          · exact .inl h
          · exact .inr ⟨h, hmn⟩
        rw [heq, ← suffix_both hrev]
        simp [hw]
    · -- the first upstream version stays, the second grows
      rw [if_pos hv, (hph hv).1, (hqn hw).1]
      exact iff_of_true (.inl (suffix_second hle)) fun h => absurd h hw
    · rw [if_neg hv, if_pos hw, (hpn hv).1, (hpn hv).2.1, (hqh hw).1, (hqh hw).2]
      exact suffix_first hle
    · -- both suffixes go to the upstream version
      rw [if_neg hv, if_neg hw, (hpn hv).1, (hpn hv).2.1, (hqn hw).1, (hqn hw).2.1]
      have hnil : ¬ compare_fragment [] [] < 0 := by
        rw [compare_fragment_neg]
        exact lt_irrefl _
      have hup : compare_fragment i.debian_source_version.upstream.toList
            j.debian_source_version.upstream.toList < 0 ∨
          (compare_fragment i.debian_source_version.upstream.toList
            j.debian_source_version.upstream.toList = 0 ∧ m < n) := by
        rw [(hpn hv).2.2, (hqn hw).2.2] at h
        rcases h with (h | ⟨-, h⟩) | ⟨⟨h, -⟩, hmn⟩
        · exact .inl h
        · exact absurd h hnil
        · exact .inr ⟨h, hmn⟩
      rw [← suffix_both hup]
      exact or_iff_left fun h => hnil h.2
  · have hlt : i.debian_source_version.epoch < j.debian_source_version.epoch := by
      rcases h with (h | ⟨h, -⟩) | ⟨⟨h, -⟩, -⟩
      · exact h
      · exact absurd h he
      · exact absurd h he
    exact iff_of_true (.inl hlt) (.inl he)

omit hj in
/-- A package version sorts above its source. -/
theorem derived_above : ∃ p result, i.package_version = .ok p ∧
    compare_str i.debian_source_version.raw p = .ok result ∧ result < 0 := by
  obtain ⟨p, hpv, hp, hpe, hph, hpn⟩ := package_parsed hi
  refine ⟨_, compare i.debian_source_version p, hpv, by rw [compare_str, hi, hp]; rfl, ?_⟩
  rw [compare_neg, key_lt, hpe]
  simp only [← compare_fragment_neg, ← compare_fragment_zero]
  have hself : ∀ x, compare_fragment x x = 0 := fun x => compare_fragment_zero.2 rfl
  obtain ⟨m, hm⟩ := Int.eq_ofNat_of_zero_le (show 0 ≤ i.dkc_revision by have := i.revision_pos; omega)
  rw [hm] at hph hpn
  simp only [lt_irrefl, true_and, false_or]
  by_cases hv : hyphened i.debian_source_version
  · rw [(hph hv).1, (hph hv).2]
    exact .inr ⟨hself _, suffix_second (hself _).le⟩
  · rw [(hpn hv).1]
    exact .inl (suffix_second (hself _).le)

end

/-- An identity exists where `create` succeeds. -/
theorem create_exists {text build_id : String} {r : Int} (h : (Identity.create text r build_id).isOk = true) :
    ∃ i, Identity.create text r build_id = .ok i := by
  cases hi : Identity.create text r build_id with
  | ok i => exact ⟨i, rfl⟩
  | error e => rw [hi] at h; cases h

/-- The package version is the text, where that parses. -/
theorem package_version_ok {i : Identity} {text : String}
    (htext : i.debian_source_version.raw ++ Identity.suffix i.dkc_revision = text)
    (h : (Debver.parse text).isOk = true) : i.package_version = .ok text := by
  rw [Identity.package_version, htext]
  cases hparse : Debver.parse text with
  | ok v => rfl
  | error e => rw [hparse] at h; cases h

end Debver
