import DkcLinux.Debver
import Mathlib.Data.Prod.Lex
import Mathlib.Tactic.Ring
import Mathlib.Data.List.TakeWhile
import Mathlib.Data.Int.ConditionallyCompleteOrder

/-!
# The order of Debian versions (`dkc/debver.py:34-205`)

| fragment        | sequence                                   |
|-----------------|--------------------------------------------|
| `7.1~rc2`       | `0 7 302 0 1 -1 114 99 0 2`                |
| `7.1`           | `0 7 302 0 1`, and zeros                   |

A version is its epoch and the sequences of its two fragments, so `compare` is a linear order of
these triples: reflexivity, antisymmetry and transitivity are theirs.
-/

namespace Debver

/-- What `compare` reads of a version. -/
def key (v : DebianVersion) : ℕ ×ₗ Lex (ℕ → ℤ) ×ₗ Lex (ℕ → ℤ) :=
  toLex (v.epoch, toLex (Padded.seq (units none v.upstream.toList),
    Padded.seq (units none v.revision.toList)))

/-- The three comparisons of `compare`, one after the other. -/
def ordering (a b : DebianVersion) : Ordering :=
  (cmp a.epoch b.epoch).then
    ((Padded.order (units none a.upstream.toList) (units none b.upstream.toList)).then
      (Padded.order (units none a.revision.toList) (units none b.revision.toList)))

/-- A pair is compared by its first components, then by its second ones. -/
theorem compares_lex {α β : Type} [LinearOrder α] [LinearOrder β] {a a' : α} {b b' : β}
    {o o' : Ordering} (h : o.Compares a a') (h' : o'.Compares b b') :
    (o.then o').Compares (toLex (a, b)) (toLex (a', b')) := by
  cases o with
  | lt => exact Prod.Lex.toLex_lt_toLex.2 (.inl h)
  | eq =>
    obtain rfl : a = a' := h
    cases o' with
    | lt => exact Prod.Lex.toLex_lt_toLex.2 (.inr ⟨rfl, h'⟩)
    | eq => exact congrArg (fun b => toLex (a, b)) h'
    | gt => exact Prod.Lex.toLex_lt_toLex.2 (.inr ⟨rfl, h'⟩)
  | gt => exact Prod.Lex.toLex_lt_toLex.2 (.inl h)

theorem ordering_compares (a b : DebianVersion) : (ordering a b).Compares (key a) (key b) :=
  compares_lex (cmp_compares _ _) (compares_lex (Padded.order_compares _ _) (Padded.order_compares _ _))

theorem compare_eq_sign (a b : DebianVersion) : compare a b = sign (ordering a b) := by
  rw [compare, ordering, compare_fragment_eq, compare_fragment_eq]
  by_cases he : a.epoch = b.epoch
  · rw [if_neg (not_not.2 he), he, cmp_self_eq_eq, Ordering.eq_then]
    cases Padded.order (units none a.upstream.toList) (units none b.upstream.toList) <;> rfl
  · have he' : (a.epoch : Int) ≠ b.epoch := by exact_mod_cast he
    rw [if_pos he, smaller_eq_sign he']
    rcases lt_or_gt_of_ne he with hlt | hgt
    · rw [(cmp_eq_lt_iff _ _).2 hlt, (cmp_eq_lt_iff _ _).2 (Int.ofNat_lt.2 hlt)]
      rfl
    · rw [(cmp_eq_gt_iff _ _).2 hgt, (cmp_eq_gt_iff _ _).2 (Int.ofNat_lt.2 hgt)]
      rfl

theorem sign_neg {o : Ordering} : sign o < 0 ↔ o = .lt := by cases o <;> decide

theorem compare_eq_zero {a b : DebianVersion} : compare a b = 0 ↔ key a = key b := by
  rw [compare_eq_sign, sign_eq_zero, (ordering_compares a b).eq_eq]

theorem compare_neg {a b : DebianVersion} : compare a b < 0 ↔ key a < key b := by
  rw [compare_eq_sign, sign_neg, (ordering_compares a b).eq_lt]

/-- Epochs, then upstream versions, then revisions. -/
theorem key_lt {a b : DebianVersion} : key a < key b ↔ a.epoch < b.epoch ∨ (a.epoch = b.epoch ∧
    (Padded.seq (units none a.upstream.toList) < Padded.seq (units none b.upstream.toList) ∨
      (Padded.seq (units none a.upstream.toList) = Padded.seq (units none b.upstream.toList) ∧
        Padded.seq (units none a.revision.toList) < Padded.seq (units none b.revision.toList)))) := by
  rw [key, key, Prod.Lex.toLex_lt_toLex, Prod.Lex.toLex_lt_toLex]

theorem key_eq {a b : DebianVersion} : key a = key b ↔ a.epoch = b.epoch ∧
    Padded.seq (units none a.upstream.toList) = Padded.seq (units none b.upstream.toList) ∧
      Padded.seq (units none a.revision.toList) = Padded.seq (units none b.revision.toList) := by
  rw [key, key, toLex_inj, Prod.mk.injEq, toLex_inj, Prod.mk.injEq]

theorem compare_fragment_neg {l r : List Char} :
    compare_fragment l r < 0 ↔ Padded.seq (units none l) < Padded.seq (units none r) := by
  rw [compare_fragment_eq, sign_neg, Padded.order_eq_lt]

theorem compare_fragment_zero {l r : List Char} :
    compare_fragment l r = 0 ↔ Padded.seq (units none l) = Padded.seq (units none r) := by
  rw [compare_fragment_eq, sign_eq_zero, Padded.order_eq_eq]

theorem compare_nonpos {a b : DebianVersion} : compare a b ≤ 0 ↔ key a ≤ key b := by
  rw [le_iff_lt_or_eq, le_iff_lt_or_eq, compare_neg, compare_eq_zero]

theorem compare_swap (a b : DebianVersion) : compare b a = -compare a b := by
  have h := ordering_compares a b
  have h' := ordering_compares b a
  rw [compare_eq_sign, compare_eq_sign, ← h.swap.inj h']
  cases ordering a b <;> rfl

end Debver

/-! ## The reference order -/

namespace Dpkg

open Py

/-- `~`, then the end of the run, then the letters, then the other characters. -/
def rank : Option Char → Nat × Nat
  | none => (1, 0)
  | some c => if c = '~' then (0, 0) else if isAsciiAlpha c then (2, c.toNat) else (3, c.toNat)

def rankOrder (x y : Option Char) : Ordering :=
  (cmp (rank x).1 (rank y).1).then (cmp (rank x).2 (rank y).2)

/-- Two non-digit runs, character by character. -/
def textOrder : List Char → List Char → Ordering
  | [], [] => .eq
  | c :: _, [] => rankOrder (some c) none
  | [], d :: _ => rankOrder none (some d)
  | c :: cs, d :: ds => (rankOrder (some c) (some d)).then (textOrder cs ds)

/-- The first differing digit. -/
def digitOrder : List Char → List Char → Ordering
  | c :: cs, d :: ds => (cmp c.toNat d.toNat).then (digitOrder cs ds)
  | _, _ => .eq

/-- Two digit runs without their leading zeros: by length, then by the first differing digit. -/
def numberOrder (xs ys : List Char) : Ordering :=
  let xs := xs.dropWhile (· = '0')
  let ys := ys.dropWhile (· = '0')
  (cmp xs.length ys.length).then (digitOrder xs ys)

def textRun (s : List Char) : List Char := s.takeWhile fun c => !isAsciiDigit c
def afterText (s : List Char) : List Char := s.dropWhile fun c => !isAsciiDigit c
def digitRun (s : List Char) : List Char := (afterText s).takeWhile isAsciiDigit
def afterDigits (s : List Char) : List Char := (afterText s).dropWhile isAsciiDigit

theorem atText_afterText (s : List Char) : Debver.atText (afterText s) = false := by
  cases h : afterText s with
  | nil => rfl
  | cons c t =>
    have hhead := List.head?_dropWhile_not (fun c => !isAsciiDigit c) s
    rw [← afterText, h] at hhead
    simpa [Debver.atText] using hhead

theorem numeric_afterText (s : List Char) :
    Debver.numeric (afterText s) = (Debver.number (digitRun s), afterDigits s) := rfl

theorem afterDigits_le (s : List Char) : (afterDigits s).length ≤ s.length :=
  le_trans (List.dropWhile_suffix _).length_le (List.dropWhile_suffix _).length_le

theorem afterDigits_lt {s : List Char} (h : s ≠ []) : (afterDigits s).length < s.length := by
  by_cases hnil : afterText s = []
  · rw [afterDigits, hnil]
    exact List.length_pos_iff.2 h
  · calc (afterDigits s).length < (afterText s).length := Debver.numeric_lt (atText_afterText s) hnil
      _ ≤ s.length := (List.dropWhile_suffix _).length_le

/-- `verrevcmp`, run by run. -/
def verrevcmp (a b : List Char) : Ordering :=
  if _h : a = [] ∧ b = [] then .eq
  else (textOrder (textRun a) (textRun b)).then
    ((numberOrder (digitRun a) (digitRun b)).then (verrevcmp (afterDigits a) (afterDigits b)))
termination_by a.length + b.length
decreasing_by
  have ha := afterDigits_le a
  have hb := afterDigits_le b
  rcases not_and_or.1 _h with h | h
  · have := afterDigits_lt h
    omega
  · have := afterDigits_lt h
    omega

/-- The reference order of versions. -/
def order (a b : DebianVersion) : Ordering :=
  (cmp a.epoch b.epoch).then
    ((verrevcmp a.upstream.toList b.upstream.toList).then
      (verrevcmp a.revision.toList b.revision.toList))

/-! ## Run by run, both read the same sequence -/

/-- The weight `_order` gives to a character, and to the end of a run. -/
def weight : Option Char → Int
  | none => 0
  | some c => Debver.order c

/-- The four ranks and their weights. -/
theorem rank_weight {x : Option Char} (hx : ∀ c ∈ x, isAsciiDigit c = false) :
    (rank x = (0, 0) ∧ weight x = -1) ∨ (rank x = (1, 0) ∧ weight x = 0) ∨
      (∃ n : Nat, 65 ≤ n ∧ n ≤ 122 ∧ rank x = (2, n) ∧ weight x = n) ∨
      ∃ n : Nat, rank x = (3, n) ∧ weight x = n + 256 := by
  cases x with
  | none => exact .inr (.inl ⟨rfl, rfl⟩)
  | some c =>
    have hc := hx c rfl
    by_cases htilde : c = '~'
    · subst htilde
      exact .inl ⟨rfl, rfl⟩
    · by_cases ha : isAsciiAlpha c = true
      · have hrange := isAsciiAlpha_iff.1 ha
        refine .inr (.inr (.inl ⟨c.toNat, by omega, by omega, ?_, ?_⟩))
        · rw [rank, if_neg htilde, if_pos ha]
        · rw [weight, Debver.order, if_neg htilde, if_neg (by simp [hc]), if_pos ha]
      · refine .inr (.inr (.inr ⟨c.toNat, ?_, ?_⟩))
        · rw [rank, if_neg htilde, if_neg ha]
        · rw [weight, Debver.order, if_neg htilde, if_neg (by simp [hc]), if_neg ha]

theorem rankOrder_eq {x y : Option Char} (hx : ∀ c ∈ x, isAsciiDigit c = false)
    (hy : ∀ c ∈ y, isAsciiDigit c = false) : rankOrder x y = cmp (weight x) (weight y) := by
  rw [rankOrder]
  rcases rank_weight hx with ⟨hr, hw⟩ | ⟨hr, hw⟩ | ⟨n, hn, hn', hr, hw⟩ | ⟨n, hr, hw⟩ <;>
    rcases rank_weight hy with ⟨hs, hv⟩ | ⟨hs, hv⟩ | ⟨m, hm, hm', hs, hv⟩ | ⟨m, hs, hv⟩ <;>
    rw [hr, hs, hw, hv] <;> delta cmp cmpUsing <;> split_ifs <;> first | rfl | omega

theorem then_of_ne_eq {o : Ordering} (h : o ≠ .eq) (p : Ordering) : o.then p = o := by
  cases o with
  | lt => rfl
  | eq => exact absurd rfl h
  | gt => rfl

/-- Runs that differ decide, and equal ones do not. -/
theorem textOrder_eq (xs ys : List Int) : ∀ cs ds : List Char, (∀ c ∈ cs, isAsciiDigit c = false) →
    (∀ d ∈ ds, isAsciiDigit d = false) →
    Padded.order (cs.map Debver.order ++ 0 :: xs) (ds.map Debver.order ++ 0 :: ys) =
      (textOrder cs ds).then (Padded.order xs ys)
  | [], [], _, _ => by
    show (cmp (0 : Int) 0).then (Padded.order xs ys) = Padded.order xs ys
    rw [cmp_self_eq_eq, Ordering.eq_then]
  | c :: cs, [], hc, _ => by
    have hne : cmp (Debver.order c) 0 ≠ .eq := by
      rw [Ne, cmp_eq_eq_iff]
      exact Debver.order_ne_zero (hc c List.mem_cons_self)
    rw [textOrder, rankOrder_eq (by simpa using hc c) (by simp), weight, weight, then_of_ne_eq hne]
    exact then_of_ne_eq hne _
  | [], d :: ds, _, hd => by
    have hne : cmp 0 (Debver.order d) ≠ .eq := by
      rw [Ne, cmp_eq_eq_iff]
      exact (Debver.order_ne_zero (hd d List.mem_cons_self)).symm
    rw [textOrder, rankOrder_eq (by simp) (by simpa using hd d), weight, weight, then_of_ne_eq hne]
    exact then_of_ne_eq hne _
  | c :: cs, d :: ds, hc, hd => by
    have ih := textOrder_eq xs ys cs ds (fun c h => hc c (List.mem_cons_of_mem _ h))
      fun d h => hd d (List.mem_cons_of_mem _ h)
    rw [textOrder, rankOrder_eq (by simpa using hc c) (by simpa using hd d), Ordering.then_assoc, ← ih]
    rfl

/-- Digits after a number multiply it and add less than one unit of it. -/
theorem foldl_push {ds : List Char} (hd : ∀ d ∈ ds, isAsciiDigit d = true) (n : Nat) :
    n * 10 ^ ds.length ≤ ds.foldl Debver.push n ∧ ds.foldl Debver.push n < (n + 1) * 10 ^ ds.length := by
  induction ds generalizing n with
  | nil => simp
  | cons d ds ih =>
    have hrange := isAsciiDigit_iff.1 (hd d List.mem_cons_self)
    obtain ⟨hlo, hhi⟩ := ih (fun d h => hd d (List.mem_cons_of_mem _ h)) (Debver.push n d)
    have hpush : 10 * n ≤ Debver.push n d ∧ Debver.push n d + 1 ≤ 10 * (n + 1) := by
      rw [Debver.push]
      omega
    rw [List.foldl_cons, List.length_cons, pow_succ]
    constructor
    · calc n * (10 ^ ds.length * 10) = 10 * n * 10 ^ ds.length := by ring
        _ ≤ Debver.push n d * 10 ^ ds.length := Nat.mul_le_mul_right _ hpush.1
        _ ≤ _ := hlo
    · calc _ < (Debver.push n d + 1) * 10 ^ ds.length := hhi
        _ ≤ 10 * (n + 1) * 10 ^ ds.length := Nat.mul_le_mul_right _ hpush.2
        _ = (n + 1) * (10 ^ ds.length * 10) := by ring

/-- A smaller number stays smaller with as many digits after it. -/
theorem foldl_push_lt {xs ys : List Char} (hx : ∀ c ∈ xs, isAsciiDigit c = true)
    (hy : ∀ c ∈ ys, isAsciiDigit c = true) (hlen : xs.length = ys.length) {n m : Nat} (h : n < m) :
    xs.foldl Debver.push n < ys.foldl Debver.push m :=
  calc xs.foldl Debver.push n < (n + 1) * 10 ^ xs.length := (foldl_push hx n).2
    _ ≤ m * 10 ^ ys.length := by rw [hlen]; exact Nat.mul_le_mul_right _ h
    _ ≤ ys.foldl Debver.push m := (foldl_push hy m).1

/-- As many digits: the first that differs decides. -/
theorem digitOrder_eq : ∀ {xs ys : List Char}, (∀ c ∈ xs, isAsciiDigit c = true) →
    (∀ c ∈ ys, isAsciiDigit c = true) → xs.length = ys.length → ∀ n : Nat,
    digitOrder xs ys = cmp (xs.foldl Debver.push n) (ys.foldl Debver.push n)
  | [], [], _, _, _, n => (cmp_self_eq_eq _).symm
  | c :: cs, d :: ds, hx, hy, hlen, n => by
    have hc := isAsciiDigit_iff.1 (hx c List.mem_cons_self)
    have hd := isAsciiDigit_iff.1 (hy d List.mem_cons_self)
    have hx' : ∀ c ∈ cs, isAsciiDigit c = true := fun c h => hx c (List.mem_cons_of_mem _ h)
    have hy' : ∀ c ∈ ds, isAsciiDigit c = true := fun c h => hy c (List.mem_cons_of_mem _ h)
    have hlen' : cs.length = ds.length := Nat.succ.inj hlen
    show (cmp c.toNat d.toNat).then (digitOrder cs ds) =
      cmp (cs.foldl Debver.push (Debver.push n c)) (ds.foldl Debver.push (Debver.push n d))
    rcases lt_trichotomy c.toNat d.toNat with hlt | heq | hgt
    · have hpush : Debver.push n c < Debver.push n d := by simp only [Debver.push]; omega
      rw [(cmp_eq_lt_iff _ _).2 hlt, (cmp_eq_lt_iff _ _).2 (foldl_push_lt hx' hy' hlen' hpush)]
      rfl
    · have hpush : Debver.push n c = Debver.push n d := by simp only [Debver.push, heq]
      rw [heq, cmp_self_eq_eq, Ordering.eq_then, hpush]
      exact digitOrder_eq hx' hy' hlen' _
    · have hpush : Debver.push n d < Debver.push n c := by simp only [Debver.push]; omega
      rw [(cmp_eq_gt_iff _ _).2 hgt, (cmp_eq_gt_iff _ _).2 (foldl_push_lt hy' hx' hlen'.symm hpush)]
      rfl
  | [], _ :: _, _, _, hlen, _ => by simp at hlen
  | _ :: _, [], _, _, hlen, _ => by simp at hlen

theorem number_dropZeros (s : List Char) :
    Debver.number (s.dropWhile (· = '0')) = Debver.number s := by
  induction s with
  | nil => rfl
  | cons c s ih =>
    by_cases hc : c = '0'
    · subst hc
      rw [List.dropWhile_cons_of_pos (by simp), ih]
      rfl
    · rw [List.dropWhile_cons_of_neg (by simpa using hc)]

/-- More digits after a first one that is not 0 write a greater number. -/
theorem number_lt_of_length {xs ys : List Char} (hx : ∀ c ∈ xs, isAsciiDigit c = true)
    (hy : ∀ c ∈ ys, isAsciiDigit c = true) (hhead : ys.head? ≠ some '0') (hlen : xs.length < ys.length) :
    Debver.number xs < Debver.number ys := by
  cases ys with
  | nil => simp at hlen
  | cons d ds =>
    have hd := isAsciiDigit_iff.1 (hy d List.mem_cons_self)
    have h0 : d.toNat ≠ 48 := by
      intro h0
      exact hhead (by rw [List.head?_cons, ← Char.ofNat_toNat d, h0])
    calc Debver.number xs < (0 + 1) * 10 ^ xs.length := (foldl_push hx 0).2
      _ ≤ Debver.push 0 d * 10 ^ ds.length :=
        Nat.mul_le_mul (by rw [Debver.push]; omega)
          (Nat.pow_le_pow_right (by decide) (Nat.le_of_lt_succ hlen))
      _ ≤ Debver.number (d :: ds) := (foldl_push (fun c h => hy c (List.mem_cons_of_mem _ h)) _).1

theorem numberOrder_eq {xs ys : List Char} (hx : ∀ c ∈ xs, isAsciiDigit c = true)
    (hy : ∀ c ∈ ys, isAsciiDigit c = true) :
    numberOrder xs ys = cmp (Debver.number xs) (Debver.number ys) := by
  have hhead : ∀ s : List Char, (s.dropWhile (· = '0')).head? ≠ some '0' := by
    intro s h
    have hhead := List.head?_dropWhile_not (fun c => decide (c = '0')) s
    rw [h] at hhead
    simp at hhead
  have hx' : ∀ c ∈ xs.dropWhile (· = '0'), isAsciiDigit c = true :=
    fun c h => hx c ((List.dropWhile_suffix _).mem h)
  have hy' : ∀ c ∈ ys.dropWhile (· = '0'), isAsciiDigit c = true :=
    fun c h => hy c ((List.dropWhile_suffix _).mem h)
  rw [numberOrder, ← number_dropZeros xs, ← number_dropZeros ys]
  rcases lt_trichotomy (xs.dropWhile (· = '0')).length (ys.dropWhile (· = '0')).length with hlt | heq | hgt
  · rw [(cmp_eq_lt_iff _ _).2 hlt,
      (cmp_eq_lt_iff _ _).2 (number_lt_of_length hx' hy' (hhead ys) hlt)]
    rfl
  · rw [heq, cmp_self_eq_eq, Ordering.eq_then]
    exact digitOrder_eq hx' hy' heq 0
  · rw [(cmp_eq_gt_iff _ _).2 hgt,
      (cmp_eq_gt_iff _ _).2 (number_lt_of_length hy' hx' (hhead xs) hgt)]
    rfl

theorem units_text (s : List Char) : Debver.units none s =
    (textRun s).map Debver.order ++ Debver.units none (afterText s) := by
  induction s with
  | nil => rfl
  | cons c s ih =>
    cases hc : isAsciiDigit c with
    | true => simp [textRun, afterText, hc]
    | false =>
      rw [textRun, afterText, List.takeWhile_cons_of_pos (by simp [hc]),
        List.dropWhile_cons_of_pos (by simp [hc]), Debver.units, hc]
      simpa [textRun, afterText] using ih

theorem textRun_not_digit (s : List Char) : ∀ c ∈ textRun s, isAsciiDigit c = false := fun c hc => by
  simpa using List.mem_takeWhile_imp hc

theorem digitRun_digit (s : List Char) : ∀ c ∈ digitRun s, isAsciiDigit c = true := fun _ hc =>
  List.mem_takeWhile_imp hc

/-- One round of a fragment. -/
theorem seq_round (s : List Char) : Padded.seq (Debver.units none s) =
    Padded.seq ((textRun s).map Debver.order ++
      0 :: (Debver.number (digitRun s) : Int) :: Debver.units none (afterDigits s)) := by
  rw [units_text]
  exact Padded.seq_append_congr (Debver.units_numeric (atText_afterText s)) _

/-- **Run by run and unit by unit, the same order.** -/
theorem verrevcmp_eq (a b : List Char) :
    verrevcmp a b = Padded.order (Debver.units none a) (Debver.units none b) := by
  induction a, b using verrevcmp.induct with
  | case1 a b h =>
    obtain ⟨rfl, rfl⟩ := h
    rw [verrevcmp, dif_pos ⟨rfl, rfl⟩]
    rfl
  | case2 a b h ih =>
    have hcast : cmp (Debver.number (digitRun a) : Int) (Debver.number (digitRun b)) =
        cmp (Debver.number (digitRun a)) (Debver.number (digitRun b)) :=
      (Nat.strictMono_cast (α := Int)).cmp_map_eq _ _
    rw [verrevcmp, dif_neg h, ih, Padded.order_congr (seq_round a) (seq_round b),
      textOrder_eq _ _ _ _ (textRun_not_digit a) (textRun_not_digit b),
      numberOrder_eq (digitRun_digit a) (digitRun_digit b), Padded.order_cons, hcast]

theorem order_eq (a b : DebianVersion) : order a b = Debver.ordering a b := by
  rw [order, Debver.ordering, verrevcmp_eq, verrevcmp_eq]

end Dpkg

namespace Debver

end Debver
