import DkcLinux.Records
import DkcLinux.Order.Padded

/-!
# Debian versions (`dkc/debver.py`)

A fragment is an upstream version or a revision. Both are matched against an ASCII class before a
`DebianVersion` exists, so the `str.isdigit` and `str.isalpha` of the two loops over a fragment are
the ASCII classes; the epoch is tested before that, with the Unicode `str.isdigit`.
-/

namespace Debver

open Py

/-! ## The grammar checks -/

/-- `[A-Za-z0-9.+\-:~]`. -/
def isUpstreamChar (c : Char) : Bool := isAsciiAlnum c || ['.', '+', '-', ':', '~'].contains c

/-- `[A-Za-z0-9.+~]`. -/
def isRevisionChar (c : Char) : Bool := isAsciiAlnum c || ['.', '+', '~'].contains c

/-- `_UPSTREAM_RE`: `^[0-9][A-Za-z0-9.+\-:~]*$`. -/
def isUpstream (s : List Char) : Bool := s.head?.any isAsciiDigit && s.all isUpstreamChar

/-- `_REVISION_RE`: `^[A-Za-z0-9.+~]*$`. -/
def isRevision (s : List Char) : Bool := s.all isRevisionChar

end Debver

/-- A parsed, validated Debian version. -/
structure DebianVersion where
  epoch : Nat
  upstream : String
  revision : String
  raw : String
  upstream_valid : Debver.isUpstream upstream.toList = true
  revision_valid : Debver.isRevision revision.toList = true
  colon_epoch : ':' ∈ upstream.toList → epoch ≠ 0
deriving DecidableEq

namespace Debver

open Py

/-- `int(text)` of a text of digits: a digit that is not decimal is no literal. -/
def int (text : String) : Except PyErr Nat :=
  if isdecimal text then .ok (intOf text) else .error (.ValueError "invalid literal for int() with base 10" [text])

/-- The epoch and what follows it. -/
def splitEpoch (text : String) : Except PyErr (Nat × List Char) :=
  if ':' ∈ text.toList then
    let (head, tail) := partition ':' text.toList
    if isdigit (String.ofList head) then do
      let epoch ← int (String.ofList head)
      return (epoch, tail)
    else .error (.InvalidVersion "non-numeric epoch" [text])
  else .ok (0, text.toList)

/-- The upstream version and the revision, which is everything after the last hyphen. -/
def splitRevision (rest : List Char) : List Char × List Char :=
  if '-' ∈ rest then rpartition '-' rest else (rest, [])

/-- The checks of the components, and the version they make. -/
def validated (text : String) (epoch : Nat) (upstream revision : List Char) :
    Except PyErr DebianVersion :=
  if hu : isUpstream upstream = true then
    if hr : isRevision revision = true then
      if hc : ':' ∈ upstream ∧ epoch = 0 then
        .error (.InvalidVersion "colon in upstream version without an epoch" [text])
      else .ok
        { epoch := epoch
          upstream := String.ofList upstream
          revision := String.ofList revision
          raw := text
          upstream_valid := by rw [String.toList_ofList]; exact hu
          revision_valid := by rw [String.toList_ofList]; exact hr
          colon_epoch := by
            rw [String.toList_ofList]
            intro hcolon h0
            exact hc ⟨hcolon, h0⟩ }
    else .error (.InvalidVersion "invalid Debian revision" [text])
  else .error (.InvalidVersion "invalid upstream version" [text])

/-- `DebianVersion.parse`. -/
def parse (text : String) : Except PyErr DebianVersion :=
  if text = "" ∨ padded text then .error (.InvalidVersion "empty or padded version" [text])
  else if text.toList.any isSpace then .error (.InvalidVersion "whitespace in version" [text])
  else do
    let (epoch, rest) ← splitEpoch text
    validated text epoch (splitRevision rest).1 (splitRevision rest).2

/-! ## Comparing fragments -/

/-- `_order`: the collation weight of one character of a non-numeric run. -/
def order (c : Char) : Int :=
  if c = '~' then -1
  else if isAsciiDigit c then 0
  else if isAsciiAlpha c then c.toNat
  else c.toNat + 256

/-- A character that is not a digit comes next. -/
def atText : List Char → Bool
  | [] => false
  | c :: _ => !isAsciiDigit c

/-- The weight of what comes next: a run that has ended weighs nothing. -/
def weight : List Char → Int
  | [] => 0
  | c :: _ => if isAsciiDigit c then 0 else order c

/-- `-1 if left < right else 1`, of two numbers that differ. -/
def smaller (left right : Int) : Int := if left < right then -1 else 1

theorem length_tail_lt {left right : List Char} (h : (atText left || atText right) = true) :
    left.tail.length + right.tail.length < left.length + right.length := by
  cases left with
  | nil =>
    cases right with
    | nil => simp [atText] at h
    | cons d right => simp
  | cons c left =>
    simp only [List.tail_cons, List.length_cons, List.length_tail]
    omega

/-- The non-numeric runs: where they end, or the result that a difference returns. -/
def compare_text (left right : List Char) : Except Int (List Char × List Char) :=
  if _h : (atText left || atText right) = true then
    if weight left ≠ weight right then .error (smaller (weight left) (weight right))
    else compare_text left.tail right.tail
  else .ok (left, right)
termination_by left.length + right.length
decreasing_by exact length_tail_lt _h

def push (n : Nat) (c : Char) : Nat := 10 * n + (c.toNat - 48)

/-- `int(digits or "0")`. -/
def number (digits : List Char) : Nat := digits.foldl push 0

/-- The numeric run that comes next, and what follows it. -/
def numeric (s : List Char) : Nat × List Char :=
  (number (s.takeWhile isAsciiDigit), s.dropWhile isAsciiDigit)

/-- Where the non-numeric runs end: past some characters, or at once. -/
theorem compare_text_ok {left right l r : List Char} (h : compare_text left right = .ok (l, r)) :
    atText l = false ∧ atText r = false ∧
      (l.length + r.length < left.length + right.length ∨ (l = left ∧ r = right)) := by
  induction left, right using compare_text.induct with
  | case1 left right htext hne =>
    rw [compare_text, dif_pos htext, if_pos hne] at h
    cases h
  | case2 left right htext heq ih =>
    rw [compare_text, dif_pos htext, if_neg heq] at h
    obtain ⟨hl, hr, hlen⟩ := ih h
    have hlt := length_tail_lt htext
    refine ⟨hl, hr, .inl ?_⟩
    rcases hlen with hlen | ⟨rfl, rfl⟩ <;> omega
  | case3 left right htext =>
    rw [compare_text, dif_neg htext] at h
    cases h
    simp only [Bool.or_eq_true, not_or, Bool.not_eq_true] at htext
    exact ⟨htext.1, htext.2, .inr ⟨rfl, rfl⟩⟩

theorem numeric_le (s : List Char) : (numeric s).2.length ≤ s.length :=
  (List.dropWhile_suffix _).length_le

theorem numeric_lt {s : List Char} (h : atText s = false) (hne : s ≠ []) :
    (numeric s).2.length < s.length := by
  cases s with
  | nil => exact absurd rfl hne
  | cons c s =>
    simp only [atText, Bool.not_eq_false'] at h
    rw [numeric, List.dropWhile_cons_of_pos h]
    exact Nat.lt_succ_of_le (List.dropWhile_suffix _).length_le

/-- Each round of the comparison goes on. -/
theorem round_lt {left right l r : List Char} (hne : ¬ (left = [] ∧ right = []))
    (h : compare_text left right = .ok (l, r)) :
    (numeric l).2.length + (numeric r).2.length < left.length + right.length := by
  obtain ⟨hl, hr, hlen⟩ := compare_text_ok h
  have h1 := numeric_le l
  have h2 := numeric_le r
  rcases hlen with hlen | ⟨rfl, rfl⟩
  · omega
  · by_cases hnil : l = []
    · have := numeric_lt hr fun h0 => hne ⟨hnil, h0⟩
      omega
    · have := numeric_lt hl hnil
      omega

/-- `_compare_fragment`. -/
def compare_fragment (left right : List Char) : Int :=
  if _hne : left = [] ∧ right = [] then 0
  else match _h : compare_text left right with
    | .error result => result
    | .ok (l, r) =>
      if (numeric l).1 ≠ (numeric r).1 then smaller (numeric l).1 (numeric r).1
      else compare_fragment (numeric l).2 (numeric r).2
termination_by left.length + right.length
decreasing_by exact round_lt _hne _h

/-- `compare`: −1, 0 or 1. -/
def compare (a b : DebianVersion) : Int :=
  if a.epoch ≠ b.epoch then smaller a.epoch b.epoch
  else if compare_fragment a.upstream.toList b.upstream.toList ≠ 0 then
    compare_fragment a.upstream.toList b.upstream.toList
  else compare_fragment a.revision.toList b.revision.toList

/-- `compare` of two texts. -/
def compare_str (left right : String) : Except PyErr Int := do
  let a ← parse left
  let b ← parse right
  return compare a b

/-! ## The sequence of a fragment -/

/-- What the comparison reads of a fragment: the weights of a non-numeric run, a zero for its end,
the number that follows, and so on. A number is being read from `some`. -/
def units : Option Nat → List Char → List Int
  | none, [] => []
  | some n, [] => [n]
  | none, c :: s => if isAsciiDigit c then 0 :: units (some (push 0 c)) s else order c :: units none s
  | some n, c :: s =>
    if isAsciiDigit c then units (some (push n c)) s else n :: order c :: units none s

/-- The three kinds of characters of a non-numeric run. -/
theorem order_cases {c : Char} (h : isAsciiDigit c = false) :
    (c = '~' ∧ order c = -1) ∨ (65 ≤ c.toNat ∧ c.toNat ≤ 122 ∧ order c = c.toNat) ∨
      order c = c.toNat + 256 := by
  rw [order, h]
  by_cases htilde : c = '~'
  · exact .inl ⟨htilde, if_pos htilde⟩
  · rw [if_neg htilde]
    by_cases ha : isAsciiAlpha c = true
    · have hrange := isAsciiAlpha_iff.1 ha
      exact .inr (.inl ⟨by omega, by omega, if_pos ha⟩)
    · exact .inr (.inr (if_neg ha))

theorem order_ne_zero {c : Char} (h : isAsciiDigit c = false) : order c ≠ 0 := by
  rcases order_cases h with ⟨-, ho⟩ | ⟨hlo, -, ho⟩ | ho <;> omega

/-- The weight tells the character. -/
theorem order_injective {c d : Char} (hc : isAsciiDigit c = false) (hd : isAsciiDigit d = false)
    (h : order c = order d) : c = d := by
  rcases order_cases hc with ⟨rfl, ho⟩ | ⟨hlo, hhi, ho⟩ | ho <;>
    rcases order_cases hd with ⟨rfl, ho'⟩ | ⟨hlo', hhi', ho'⟩ | ho' <;>
    first
    | rfl
    | exact Char.toNat_inj.1 (by omega)

theorem weight_eq_zero {s : List Char} : weight s = 0 ↔ atText s = false := by
  cases s with
  | nil => simp [weight, atText]
  | cons c s =>
    rw [weight, atText]
    cases h : isAsciiDigit c with
    | false => simp [order_ne_zero h]
    | true => simp

@[simp] theorem units_headD (s : List Char) : (units none s).headD 0 = weight s := by
  cases s with
  | nil => rfl
  | cons c s =>
    rw [units, weight]
    split <;> rfl

theorem units_tail {s : List Char} (h : atText s = true) : (units none s).tail = units none s.tail := by
  cases s with
  | nil => rfl
  | cons c s =>
    simp only [atText, Bool.not_eq_true'] at h
    rw [units, h]
    rfl

theorem units_some (n : Nat) (s : List Char) :
    units (some n) s =
      Int.ofNat ((s.takeWhile isAsciiDigit).foldl push n) :: units none (s.dropWhile isAsciiDigit) := by
  induction s generalizing n with
  | nil => rfl
  | cons c s ih =>
    rw [units]
    cases h : isAsciiDigit c with
    | false => simp [h, units]
    | true => simp [h, ih]

/-- A number, after the end of the run before it. -/
theorem units_numeric {s : List Char} (h : atText s = false) :
    Padded.seq (units none s) = Padded.seq (0 :: ((numeric s).1 : Int) :: units none (numeric s).2) := by
  cases s with
  | nil =>
    rw [units, Padded.seq_nil, Padded.seq_cons_inj]
    exact ⟨rfl, Padded.seq_nil⟩
  | cons c s =>
    simp only [atText, Bool.not_eq_false'] at h
    rw [units, h, if_pos rfl, units_some, numeric, List.takeWhile_cons_of_pos h,
      List.dropWhile_cons_of_pos h, number, List.foldl_cons]
    rfl

/-- The three results of a comparison. -/
def sign : Ordering → Int
  | .lt => -1
  | .eq => 0
  | .gt => 1

@[simp] theorem sign_eq_zero {o : Ordering} : sign o = 0 ↔ o = .eq := by cases o <;> decide

theorem smaller_eq_sign {a b : Int} (h : a ≠ b) : smaller a b = sign (cmp a b) := by
  rw [smaller]
  rcases lt_or_gt_of_ne h with hlt | hgt
  · rw [if_pos hlt, (cmp_eq_lt_iff a b).2 hlt, sign]
  · rw [if_neg (not_lt.2 hgt.le), (cmp_eq_gt_iff a b).2 hgt, sign]

/-- The non-numeric runs read the sequences up to their first difference. -/
theorem compare_text_order (left right : List Char) :
    (∀ result, compare_text left right = .error result →
      result = sign (Padded.order (units none left) (units none right))) ∧
    ∀ l r, compare_text left right = .ok (l, r) →
      Padded.order (units none left) (units none right) = Padded.order (units none l) (units none r) := by
  induction left, right using compare_text.induct with
  | case1 left right htext hne =>
    rw [compare_text, dif_pos htext, if_pos hne, Padded.order_uncons, units_headD, units_headD]
    refine ⟨fun result h => ?_, fun l r h => (nomatch h)⟩
    cases h
    rw [smaller_eq_sign hne]
    cases hc : cmp (weight left) (weight right) with
    | lt => rfl
    | eq => exact absurd ((cmp_eq_eq_iff _ _).1 hc) hne
    | gt => rfl
  | case2 left right htext heq ih =>
    have heq' : weight left = weight right := not_not.1 heq
    have hboth : atText left = true ∧ atText right = true := by
      have hiff := weight_eq_zero (s := left)
      rw [heq', weight_eq_zero] at hiff
      revert htext hiff
      cases atText left <;> cases atText right <;> simp
    rw [compare_text, dif_pos htext, if_neg heq, Padded.order_uncons, units_headD, units_headD, heq',
      cmp_self_eq_eq, Ordering.eq_then, units_tail hboth.1, units_tail hboth.2]
    exact ih
  | case3 left right htext =>
    rw [compare_text, dif_neg htext]
    refine ⟨fun result h => (nomatch h), fun l r h => ?_⟩
    cases h
    rfl

/-- One round: the numbers decide unless they are equal. -/
theorem round_order {left right l r : List Char} (h : compare_text left right = .ok (l, r)) :
    Padded.order (units none left) (units none right) =
      (cmp ((numeric l).1 : Int) (numeric r).1).then
        (Padded.order (units none (numeric l).2) (units none (numeric r).2)) := by
  obtain ⟨hl, hr, -⟩ := compare_text_ok h
  rw [(compare_text_order left right).2 l r h,
    Padded.order_congr (units_numeric hl) (units_numeric hr)]
  rfl

/-- **Two fragments compare as their sequences do.** -/
theorem compare_fragment_eq (left right : List Char) :
    compare_fragment left right = sign (Padded.order (units none left) (units none right)) := by
  induction left, right using compare_fragment.induct with
  | case1 left right hnil =>
    obtain ⟨rfl, rfl⟩ := hnil
    rw [compare_fragment, dif_pos ⟨rfl, rfl⟩]
    rfl
  | case2 left right hne result h =>
    rw [compare_fragment, dif_neg hne]
    split
    · next result' h' => exact (compare_text_order left right).1 _ h'
    · next h' => rw [h] at h'; cases h'
  | case3 left right hne l r h hnum =>
    rw [compare_fragment, dif_neg hne]
    split
    · next h' => rw [h] at h'; cases h'
    · next l' r' h' =>
      rw [h] at h'
      cases h'
      have hnum' : ((numeric l).1 : Int) ≠ (numeric r).1 := by exact_mod_cast hnum
      rw [if_pos hnum, round_order h, smaller_eq_sign hnum']
      cases hc : cmp ((numeric l).1 : Int) (numeric r).1 with
      | lt => rfl
      | eq => exact absurd ((cmp_eq_eq_iff _ _).1 hc) hnum'
      | gt => rfl
  | case4 left right hne l r h hnum ih =>
    rw [compare_fragment, dif_neg hne]
    split
    · next h' => rw [h] at h'; cases h'
    · next l' r' h' =>
      rw [h] at h'
      cases h'
      rw [if_neg hnum, ih, round_order h, not_not.1 hnum, cmp_self_eq_eq, Ordering.eq_then]

end Debver
