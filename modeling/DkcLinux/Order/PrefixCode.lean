import Mathlib.Data.List.Basic
import Mathlib.Data.Nat.Basic
import Mathlib.Algebra.Group.Nat.Defs

/-!
# Codes that can be read in one pass

The words of a code stand one after the other, without separators. The code is `Instantaneous` if what follows a word does
not change where the word ends: then a sequence of words is read in one way only.

| code | rule |
|---|---|
| words of one length | `Instantaneous.of_length` |
| two words | `Instantaneous.pair` |
| the length, then the text | `Instantaneous.framed` |
| a list of words that are not empty | `Instantaneous.list` |
| the digits of a number, a fixed count of them | `bigEndian_injective` |
-/

namespace PrefixCode

variable {α β σ : Type}

/-- The values of `D` have words that can be told apart whatever follows them. -/
def Instantaneous (D : α → Prop) (code : α → List σ) : Prop :=
  ∀ a b : α, ∀ x y : List σ, D a → D b → code a ++ x = code b ++ y → a = b ∧ x = y

theorem Instantaneous.injective {D : α → Prop} {code : α → List σ} (h : Instantaneous D code) {a b : α} (ha : D a)
    (hb : D b) (heq : code a = code b) : a = b :=
  (h a b [] [] ha hb (by rw [heq])).1

theorem Instantaneous.of_length {D : α → Prop} {code : α → List σ} {n : Nat} (hlength : ∀ a, (code a).length = n)
    (hinj : ∀ a b, D a → D b → code a = code b → a = b) : Instantaneous D code := by
  intro a b x y ha hb heq
  obtain ⟨hword, hrest⟩ := List.append_inj heq (by rw [hlength, hlength])
  exact ⟨hinj a b ha hb hword, hrest⟩

theorem Instantaneous.pair {D : α → Prop} {E : β → Prop} {f : α → List σ} {g : β → List σ} (hf : Instantaneous D f)
    (hg : Instantaneous E g) : Instantaneous (fun p : α × β => D p.1 ∧ E p.2) fun p => f p.1 ++ g p.2 := by
  rintro ⟨a, b⟩ ⟨a', b'⟩ x y ⟨ha, hb⟩ ⟨ha', hb'⟩ heq
  rw [List.append_assoc, List.append_assoc] at heq
  obtain ⟨rfl, heq⟩ := hf a a' _ _ ha ha' heq
  obtain ⟨rfl, hrest⟩ := hg b b' x y hb hb' heq
  exact ⟨rfl, hrest⟩

/-- A text behind its length. -/
theorem Instantaneous.framed {D : Nat → Prop} {len : Nat → List σ} (h : Instantaneous D len) :
    Instantaneous (fun text : List σ => D text.length) fun text => len text.length ++ text := by
  intro a b x y ha hb heq
  rw [List.append_assoc, List.append_assoc] at heq
  obtain ⟨hlength, heq⟩ := h a.length b.length _ _ ha hb heq
  exact List.append_inj heq hlength

/-- A list of words ends where the symbols end, so a word must not be empty. -/
theorem Instantaneous.list {D : α → Prop} {code : α → List σ} (h : Instantaneous D code) (hne : ∀ a, code a ≠ []) :
    ∀ {as bs : List α}, (∀ a ∈ as, D a) → (∀ b ∈ bs, D b) → as.flatMap code = bs.flatMap code → as = bs
  | [], [], _, _, _ => rfl
  | [], b :: bs, _, _, heq => by
    rw [List.flatMap_nil, List.flatMap_cons] at heq
    exact absurd (List.append_eq_nil_iff.1 heq.symm).1 (hne b)
  | a :: as, [], _, _, heq => by
    rw [List.flatMap_nil, List.flatMap_cons] at heq
    exact absurd (List.append_eq_nil_iff.1 heq).1 (hne a)
  | a :: as, b :: bs, ha, hb, heq => by
    rw [List.flatMap_cons, List.flatMap_cons] at heq
    rw [List.forall_mem_cons] at ha hb
    obtain ⟨rfl, hrest⟩ := h a b _ _ ha.1 hb.1 heq
    rw [h.list hne ha.2 hb.2 hrest]

/-! ## Numbers -/

/-- The last `count` digits of a number in the base `base`, the greatest first. -/
def bigEndian (base : Nat) : Nat → Nat → List Nat
  | 0, _ => []
  | count + 1, n => bigEndian base count (n / base) ++ [n % base]

theorem length_bigEndian (base count n : Nat) : (bigEndian base count n).length = count := by
  induction count generalizing n with
  | zero => rfl
  | succ count ih => rw [bigEndian, List.length_append, ih, List.length_singleton]

theorem bigEndian_lt {base : Nat} (hbase : 0 < base) (count n : Nat) : ∀ d ∈ bigEndian base count n, d < base := by
  induction count generalizing n with
  | zero => simp [bigEndian]
  | succ count ih =>
    intro d hd
    rcases List.mem_append.1 hd with hd | hd
    · exact ih (n / base) d hd
    · rw [List.mem_singleton.1 hd]
      exact Nat.mod_lt n hbase

theorem bigEndian_injective {base count n m : Nat} (hn : n < base ^ count) (hm : m < base ^ count)
    (h : bigEndian base count n = bigEndian base count m) : n = m := by
  induction count generalizing n m with
  | zero =>
    rw [Nat.pow_zero] at hn hm
    omega
  | succ count ih =>
    rw [Nat.pow_succ] at hn hm
    obtain ⟨hfront, hlast⟩ := List.append_inj' h rfl
    have hquotient : n / base = m / base :=
      ih (Nat.div_lt_of_lt_mul (by rwa [Nat.mul_comm])) (Nat.div_lt_of_lt_mul (by rwa [Nat.mul_comm])) hfront
    have hremainder : n % base = m % base := List.singleton_inj.1 hlast
    calc n = base * (n / base) + n % base := (Nat.div_add_mod n base).symm
      _ = base * (m / base) + m % base := by rw [hquotient, hremainder]
      _ = m := Nat.div_add_mod m base

end PrefixCode
