import DkcLinux.Retention

/-!
# The order of series and the order of versions

A version starts with a number. After it comes, for a series, a dot and another number:

| upstream  | starts with | goes on with | series   |
|-----------|-------------|--------------|----------|
| `7.1~rc2` | 7           | `.1~rc2`     | (7, 1)   |
| `7`       | 7           |              | (7, 0)   |
| `7.a`     | 7           | `.a`         | (7, 0)   |
| `7:9`     | 7           | `:9`         | (7, 0)   |

The series forgets the epoch, and what stands in the place of the second number. So of two versions
in the order of their series the first compares lower unless its epoch is greater, or it goes on
with something that sorts above `.` and a number (`below_iff`).
-/

open Py

namespace DebianVersion

open Debver

/-- The number a version starts with. -/
def lead (v : DebianVersion) : Nat := number (v.upstream.toList.takeWhile isAsciiDigit)

/-- What follows the first number. -/
def afterLead (v : DebianVersion) : List Char := v.upstream.toList.dropWhile isAsciiDigit

/-- The second number of the series. -/
def minor : List Char → Nat
  | '.' :: rest => number (rest.takeWhile isAsciiDigit)
  | _ => 0

theorem series_eq (v : DebianVersion) : v.series = toLex (v.lead, minor v.afterLead) := by
  rw [series, lead, afterLead]
  cases v.upstream.toList.dropWhile isAsciiDigit with
  | nil => rfl
  | cons c rest =>
    by_cases hc : c = '.'
    · subst hc
      rfl
    · simp [minor, hc, number]

/-- It sorts above a dot and any number. -/
def overtakes : List Char → Bool
  | ':' :: _ => true
  | '.' :: c :: _ => !isAsciiDigit c && c != '~'
  | _ => false

/-- The second version, of a greater series, is greater. -/
def Below (a b : DebianVersion) : Prop :=
  a.epoch < b.epoch ∨ (a.epoch = b.epoch ∧ (a.lead < b.lead ∨ overtakes a.afterLead = false))

instance (a b : DebianVersion) : Decidable (Below a b) := by unfold Below; infer_instance

theorem atText_upstream (v : DebianVersion) : atText v.upstream.toList = false := by
  have h := v.upstream_valid
  rw [isUpstream, Bool.and_eq_true] at h
  cases hu : v.upstream.toList with
  | nil => rfl
  | cons c rest =>
    rw [hu] at h
    simpa [atText] using h.1

theorem afterLead_valid (v : DebianVersion) :
    ∀ c ∈ v.afterLead, isUpstreamChar c = true := fun c hc => by
  have h := v.upstream_valid
  rw [isUpstream, Bool.and_eq_true, List.all_eq_true] at h
  exact h.2 c ((List.dropWhile_suffix _).mem hc)

theorem afterLead_head (v : DebianVersion) : ∀ c, v.afterLead.head? = some c → isAsciiDigit c = false := by
  intro c hc
  have h := List.head?_dropWhile_not isAsciiDigit v.upstream.toList
  rw [← afterLead, hc] at h
  simpa using h

/-- The comparison reads the first number first. -/
theorem seq_upstream (v : DebianVersion) : Padded.seq (units none v.upstream.toList) =
    Padded.seq (0 :: (v.lead : ℤ) :: units none v.afterLead) :=
  units_numeric v.atText_upstream

theorem seq_upstream_lt {a b : DebianVersion} :
    Padded.seq (units none a.upstream.toList) < Padded.seq (units none b.upstream.toList) ↔
      a.lead < b.lead ∨ (a.lead = b.lead ∧
        Padded.seq (units none a.afterLead) < Padded.seq (units none b.afterLead)) := by
  rw [seq_upstream, seq_upstream, Padded.seq_cons_lt, Padded.seq_cons_lt]
  simp

theorem seq_upstream_eq {a b : DebianVersion} :
    Padded.seq (units none a.upstream.toList) = Padded.seq (units none b.upstream.toList) ↔
      a.lead = b.lead ∧ Padded.seq (units none a.afterLead) = Padded.seq (units none b.afterLead) := by
  rw [seq_upstream, seq_upstream, Padded.seq_cons_inj, Padded.seq_cons_inj]
  simp

/-- The first character decides, unless both are the same. -/
theorem seq_text {c : Char} (hc : isAsciiDigit c = false) (s : List Char) :
    Padded.seq (units none (c :: s)) = Padded.seq (order c :: units none s) := by
  rw [units, hc]
  rfl

theorem seq_dot (s : List Char) : Padded.seq (units none ('.' :: s)) = Padded.seq (302 :: units none s) :=
  seq_text (by decide) s

theorem seq_headD (s : List Char) :
    Padded.seq (units none s) = Padded.seq (weight s :: (units none s).tail) := by
  rw [← units_headD, Padded.seq_uncons]

theorem number_of_text {s : List Char} (h : atText s = true) : number (s.takeWhile isAsciiDigit) = 0 := by
  cases s with
  | nil => rfl
  | cons c s =>
    simp only [atText, Bool.not_eq_true'] at h
    rw [List.takeWhile_cons_of_neg (by simp [h])]
    rfl

/-- Texts that compare equal have the same second number. -/
theorem minor_congr {s t : List Char} (hs : ∀ c, s.head? = some c → isAsciiDigit c = false)
    (ht : ∀ c, t.head? = some c → isAsciiDigit c = false)
    (h : Padded.seq (units none s) = Padded.seq (units none t)) : minor s = minor t := by
  have hweight : weight s = weight t := by
    rw [seq_headD s, seq_headD t, Padded.seq_cons_inj] at h
    exact h.1
  -- only a dot weighs as much as a dot
  have hdot : ∀ {u : List Char}, (∀ c, u.head? = some c → isAsciiDigit c = false) → weight u = 302 →
      ∃ r, u = '.' :: r := by
    intro u hu hw
    cases u with
    | nil => cases hw
    | cons c r =>
      have hc := hu c rfl
      rw [weight, hc] at hw
      exact ⟨r, by rw [order_injective hc (by decide) (show order c = order '.' from hw)]⟩
  by_cases hw : weight s = 302
  · obtain ⟨r, rfl⟩ := hdot hs hw
    obtain ⟨q, rfl⟩ := hdot ht (hweight ▸ hw)
    rw [seq_dot, seq_dot, Padded.seq_cons_inj] at h
    have hrest := h.2
    have hhead : atText r = atText q := by
      have hw := hrest
      rw [seq_headD r, seq_headD q, Padded.seq_cons_inj] at hw
      have hiff := weight_eq_zero (s := r)
      rw [hw.1, weight_eq_zero] at hiff
      revert hiff
      cases atText r <;> cases atText q <;> simp
    cases hr : atText r with
    | true => rw [minor, minor, number_of_text hr, number_of_text (hhead ▸ hr)]
    | false =>
      rw [units_numeric hr, units_numeric (hhead ▸ hr), Padded.seq_cons_inj, Padded.seq_cons_inj] at hrest
      exact Int.ofNat_inj.1 hrest.2.1
  · have hnone : ∀ {u : List Char}, weight u ≠ 302 → minor u = 0 := by
      intro u hu
      unfold minor
      split
      · exact absurd rfl hu
      · rfl
    rw [hnone hw, hnone (hweight ▸ hw)]

/-- Versions that compare equal are of one series. -/
theorem series_of_key {a b : DebianVersion} (h : key a = key b) : a.series = b.series := by
  obtain ⟨-, hup, -⟩ := key_eq.1 h
  obtain ⟨hlead, hafter⟩ := seq_upstream_eq.1 hup
  rw [series_eq, series_eq, hlead, minor_congr a.afterLead_head b.afterLead_head hafter]

/-- The characters that may follow, but not a dot or a colon, sort below a dot. -/
theorem order_lt_dot {c : Char} (hc : isUpstreamChar c = true) (hd : isAsciiDigit c = false) (hdot : c ≠ '.')
    (hcolon : c ≠ ':') : order c < 302 := by
  rcases order_cases hd with ⟨-, ho⟩ | ⟨hlo, hhi, ho⟩ | ho
  · omega
  · omega
  · rw [isUpstreamChar, Bool.or_eq_true] at hc
    rcases hc with hc | hc
    · rw [order, hd] at ho ⊢
      have halpha : isAsciiAlpha c = true := by
        rw [isAsciiAlnum, hd, Bool.false_or] at hc
        exact hc
      have hrange := isAsciiAlpha_iff.1 halpha
      by_cases htilde : c = '~'
      · simp [htilde]
      · rw [if_neg htilde, halpha] at ho ⊢
        simp only [Bool.false_eq_true, if_false, if_true] at ho ⊢
        omega
    · simp only [List.contains_iff_mem, List.mem_cons, List.not_mem_nil, or_false] at hc
      rcases hc with rfl | rfl | rfl | rfl | rfl
      · exact absurd rfl hdot
      · decide
      · decide
      · exact absurd rfl hcolon
      · decide

/-- A second number that is greater: the first text is lower unless it overtakes. -/
theorem seq_lt_of_minor {s t : List Char} (hs : ∀ c, s.head? = some c → isAsciiDigit c = false)
    (hvalid : ∀ c ∈ s, isUpstreamChar c = true) (h : minor s < minor t) :
    (overtakes s = false → Padded.seq (units none s) < Padded.seq (units none t)) ∧
      (overtakes s = true → Padded.seq (units none t) < Padded.seq (units none s)) := by
  obtain ⟨q, rfl⟩ : ∃ q, t = '.' :: q := by
    unfold minor at h
    split at h <;> split at h
    · exact ⟨_, rfl⟩
    · omega
    · exact ⟨_, rfl⟩
    · omega
  have hq : atText q = false := by
    by_contra hq
    rw [Bool.not_eq_false] at hq
    have hzero : minor ('.' :: q) = 0 := number_of_text hq
    omega
  have ht : Padded.seq (units none ('.' :: q)) =
      Padded.seq (302 :: 0 :: (minor ('.' :: q) : ℤ) :: units none (numeric q).2) := by
    rw [seq_dot]
    exact Padded.seq_cons_inj.2 ⟨rfl, units_numeric hq⟩
  rw [ht]
  cases s with
  | nil =>
    refine ⟨fun _ => ?_, fun ho => by cases ho⟩
    rw [units, Padded.seq_nil]
    exact Padded.seq_cons_lt.2 (.inl (by decide))
  | cons c s =>
    have hc := hs c rfl
    by_cases hdot : c = '.'
    · subst hdot
      rw [seq_dot, Padded.seq_cons_lt, Padded.seq_cons_lt]
      simp only [lt_irrefl, true_and, false_or]
      cases hnext : atText s with
      | false =>
        -- both go on with a number
        refine ⟨fun _ => ?_, fun ho => ?_⟩
        · rw [units_numeric hnext]
          exact Padded.seq_cons_lt.2 (.inr ⟨rfl, Padded.seq_cons_lt.2 (.inl (Int.ofNat_lt.2 h))⟩)
        · cases s with
          | nil => cases ho
          | cons d s =>
            simp only [atText, Bool.not_eq_false'] at hnext
            simp [overtakes, hnext] at ho
      | true =>
        cases s with
        | nil => cases hnext
        | cons d s =>
          simp only [atText, Bool.not_eq_true'] at hnext
          rw [seq_text hnext, Padded.seq_cons_lt, Padded.seq_cons_lt]
          simp only [overtakes, hnext, Bool.not_false, Bool.true_and, bne_eq_false_iff_eq, bne_iff_ne]
          refine ⟨fun htilde => .inl (by rw [htilde]; decide), fun htilde => .inl ?_⟩
          rcases order_cases hnext with ⟨h', -⟩ | ⟨hlo, -, ho⟩ | ho
          · exact absurd h' htilde
          · omega
          · omega
    · rw [seq_text hc, Padded.seq_cons_lt, Padded.seq_cons_lt]
      by_cases hcolon : c = ':'
      · subst hcolon
        refine ⟨fun ho => ?_, fun _ => .inl (by decide)⟩
        cases ho
      · have hlt := order_lt_dot (hvalid c List.mem_cons_self) hc hdot hcolon
        refine ⟨fun _ => .inl hlt, fun ho => ?_⟩
        unfold overtakes at ho
        split at ho
        · next heq => exact absurd (List.cons.inj heq).1 hcolon
        · next heq => exact absurd (List.cons.inj heq).1 hdot
        · cases ho

/-- **Versions in the order of their series**: the first compares lower exactly in these cases. -/
theorem below_iff {a b : DebianVersion} (h : a.series < b.series) : compare a b < 0 ↔ Below a b := by
  rw [series_eq, series_eq, Prod.Lex.toLex_lt_toLex] at h
  dsimp only at h
  rw [compare_neg, key_lt, Below, seq_upstream_lt, seq_upstream_eq]
  refine or_congr_right (and_congr_right fun _ => ?_)
  rcases h with hlead | ⟨hlead, hminor⟩
  · simp [hlead]
  · have hcases := seq_lt_of_minor a.afterLead_head a.afterLead_valid hminor
    cases ho : overtakes a.afterLead with
    | false =>
      have hlt := hcases.1 ho
      simp [hlead, hlt]
    | true =>
      have hgt := hcases.2 ho
      simp only [hlead, lt_irrefl, hgt.ne', true_and, false_and, false_or, or_false, Bool.true_eq_false, iff_false]
      exact fun hlt => lt_asymm hlt hgt

end DebianVersion
