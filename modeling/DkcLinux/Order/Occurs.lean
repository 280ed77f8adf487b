import Mathlib.Data.List.Basic

/-!
# Places in a list

`Occurs xs needle q`: `needle` stands in `xs` after `q` elements. `find` lists these places from a start
on (`mem_find`), and `splice` puts other elements in place of some.
-/

namespace List

variable {α : Type}

/-- `needle` stands after the first `q` elements. -/
def Occurs (xs needle : List α) (q : Nat) : Prop := ∃ pre post, xs = pre ++ needle ++ post ∧ pre.length = q

/-- `xs[a:b]`. -/
def slice (xs : List α) (a b : Nat) : List α := (xs.take b).drop a

/-- `xs[p:p+n] = ys`. -/
def splice (xs : List α) (p n : Nat) (ys : List α) : List α := xs.take p ++ ys ++ xs.drop (p + n)

theorem slice_append {xs ys zs : List α} {a b : Nat} (ha : xs.length = a) (hb : a + ys.length = b) :
    (xs ++ ys ++ zs).slice a b = ys := by
  subst ha hb
  rw [slice, ← length_append, take_left, drop_left]

theorem splice_append {xs ys zs ys' : List α} {p : Nat} (hp : xs.length = p) :
    (xs ++ ys ++ zs).splice p ys.length ys' = xs ++ ys' ++ zs := by
  subst hp
  rw [splice, ← length_append, drop_left, append_assoc xs ys zs, take_left]

theorem Occurs.le {xs needle : List α} {q : Nat} (h : xs.Occurs needle q) : q + needle.length ≤ xs.length := by
  obtain ⟨pre, post, rfl, rfl⟩ := h
  simp

theorem occurs_iff {xs needle : List α} {q : Nat} :
    xs.Occurs needle q ↔ q + needle.length ≤ xs.length ∧ xs.slice q (q + needle.length) = needle := by
  constructor
  · intro h
    refine ⟨h.le, ?_⟩
    obtain ⟨pre, post, rfl, hq⟩ := h
    exact slice_append hq rfl
  · rintro ⟨hle, hslice⟩
    refine ⟨xs.take q, xs.drop (q + needle.length), ?_, by simp; omega⟩
    have htake : xs.take q ++ needle = xs.take (q + needle.length) := by
      conv_lhs => rw [← hslice, slice]
      have hpre : xs.take q = (xs.take (q + needle.length)).take q := by rw [take_take, Nat.min_eq_left (by omega)]
      rw [hpre, take_append_drop]
    rw [htake, take_append_drop]

/-- A part of what occurs occurs. -/
theorem Occurs.part {xs a b c : List α} {q : Nat} (h : xs.Occurs (a ++ b ++ c) q) : xs.Occurs b (q + a.length) := by
  obtain ⟨pre, post, rfl, rfl⟩ := h
  exact ⟨pre ++ a, c ++ post, by simp, by simp⟩

theorem occurs_append {done xs needle : List α} {q : Nat} (h : done.length ≤ q) :
    (done ++ xs).Occurs needle q ↔ xs.Occurs needle (q - done.length) := by
  constructor
  · rintro ⟨pre, post, heq, rfl⟩
    have hpre : done <+: pre := by
      have hwhole : pre <+: done ++ xs := by
        rw [heq, List.append_assoc]
        exact List.prefix_append _ _
      exact List.prefix_of_prefix_length_le (List.prefix_append _ _) hwhole h
    obtain ⟨rest, rfl⟩ := hpre
    rw [List.append_assoc, List.append_assoc] at heq
    refine ⟨rest, post, ?_, by rw [List.length_append, Nat.add_sub_cancel_left]⟩
    rw [List.append_cancel_left heq, List.append_assoc]
  · rintro ⟨pre, post, rfl, hlen⟩
    refine ⟨done ++ pre, post, by simp only [List.append_assoc], ?_⟩
    rw [List.length_append]
    omega

section
variable [DecidableEq α]

/-- The places of a list that is not empty, from `start` on. -/
def find (xs needle : List α) (start : Nat) : List Nat :=
  (range (xs.length + 1 - needle.length)).filter fun q =>
    start ≤ q && xs[q]? = needle.head? && xs.slice q (q + needle.length) = needle

theorem mem_find {xs needle : List α} {start q : Nat} (h : needle ≠ []) :
    q ∈ xs.find needle start ↔ start ≤ q ∧ xs.Occurs needle q := by
  have hlen : 0 < needle.length := length_pos_iff.2 h
  have hfirst : xs.Occurs needle q → xs[q]? = needle.head? := by
    rintro ⟨pre, post, rfl, rfl⟩
    rw [append_assoc, getElem?_append_right (Nat.le_refl _), Nat.sub_self, getElem?_append_left hlen, head?_eq_getElem?]
  rw [find, mem_filter, mem_range]
  simp only [Bool.and_eq_true, decide_eq_true_eq]
  constructor
  · rintro ⟨hlt, ⟨hstart, -⟩, hslice⟩
    exact ⟨hstart, occurs_iff.2 ⟨by omega, hslice⟩⟩
  · rintro ⟨hstart, hocc⟩
    have hle := hocc.le
    exact ⟨by omega, ⟨hstart, hfirst hocc⟩, (occurs_iff.1 hocc).2⟩

theorem nodup_find (xs needle : List α) (start : Nat) : (xs.find needle start).Nodup :=
  nodup_range.filter _

/-- The only place of a list. -/
theorem find_eq_singleton {xs needle : List α} {start q : Nat} (h : ∀ p, p ∈ xs.find needle start ↔ p = q) : xs.find needle start = [q] := by
  have hperm : (xs.find needle start).Perm [q] := by
    refine (perm_ext_iff_of_nodup (nodup_find xs needle start) (pairwise_singleton _ q)).2 fun p => ?_
    rw [h, mem_singleton]
  exact perm_singleton.1 hperm

end

end List
