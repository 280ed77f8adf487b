import Mathlib.Algebra.BigOperators.Group.List.Basic
import Mathlib.Data.List.Nodup
import Mathlib.Data.List.Perm.Basic
import Mathlib.Tactic.Ring

/-!
# Counters

A count for each of finitely many keys, in the order of their first count. Counts that are added one after the other
(`addAll`) depend on their sum for each key only (`same_addAll`), and the total is the sum of all (`total_addAll`).
-/

structure Counter (α : Type) where
  items : List (α × Int)
  nodup : (items.map (·.1)).Nodup

namespace Counter

variable {α : Type}

def empty : Counter α := ⟨[], List.nodup_nil⟩

def keys (c : Counter α) : List α := c.items.map (·.1)

/-- `sum(c.values())`. -/
def total (c : Counter α) : Int := (c.items.map (·.2)).sum

/-- Equality of dicts: the order of the keys does not count. -/
def Same (c d : Counter α) : Prop := c.items.Perm d.items

theorem Same.refl (c : Counter α) : c.Same c := List.Perm.refl _

theorem Same.symm {c d : Counter α} (h : c.Same d) : d.Same c := List.Perm.symm h

theorem Same.total_eq {c d : Counter α} (h : c.Same d) : c.total = d.total := by
  unfold total
  exact (List.Perm.map _ h).sum_eq

theorem Same.mem_keys {c d : Counter α} (h : c.Same d) {k : α} : k ∈ c.keys ↔ k ∈ d.keys := (h.map (·.1)).mem_iff

variable [DecidableEq α]

/-- `c[k] += n`. -/
def add (c : Counter α) (k : α) (n : Int) : Counter α :=
  if h : k ∈ c.keys then
    { items := c.items.map fun x => if x.1 = k then (k, x.2 + n) else x
      nodup := by
        have hkeys : (c.items.map fun x => if x.1 = k then (k, x.2 + n) else x).map (·.1) = c.items.map (·.1) := by
          rw [List.map_map]
          refine List.map_congr_left fun x _ => ?_
          by_cases hx : x.1 = k <;> simp [hx]
        rw [hkeys]
        exact c.nodup }
  else
    { items := c.items ++ [(k, n)]
      nodup := by
        rw [List.map_append, List.nodup_append]
        refine ⟨c.nodup, by simp, fun a ha b hb hab => h ?_⟩
        rw [List.map_singleton, List.mem_singleton] at hb
        rw [hab, hb] at ha
        exact ha }

/-- Several counts. -/
def addAll (c : Counter α) (xs : List (α × Int)) : Counter α := xs.foldl (fun c x => c.add x.1 x.2) c

/-- What is counted for a key. -/
def sumOf (k : α) (xs : List (α × Int)) : Int := ((xs.filter fun x => x.1 = k).map (·.2)).sum

/-- `c[k]`, and 0 for a key that is not there. -/
def count (c : Counter α) (k : α) : Int := sumOf k c.items

theorem sumOf_append (k : α) (xs ys : List (α × Int)) : sumOf k (xs ++ ys) = sumOf k xs + sumOf k ys := by
  simp [sumOf, List.filter_append]

theorem sumOf_cons (k : α) (x : α × Int) (xs : List (α × Int)) :
    sumOf k (x :: xs) = (if x.1 = k then x.2 else 0) + sumOf k xs := by
  by_cases h : x.1 = k <;> simp [sumOf, h]

theorem sumOf_eq_zero {k : α} {xs : List (α × Int)} (h : k ∉ xs.map (·.1)) : sumOf k xs = 0 := by
  have hnil : xs.filter (fun x => x.1 = k) = [] := by
    refine List.filter_eq_nil_iff.2 fun x hx hk => h ?_
    rw [← of_decide_eq_true hk]
    exact List.mem_map_of_mem hx
  rw [sumOf, hnil]
  rfl

theorem sumOf_mem {xs : List (α × Int)} (hn : (xs.map (·.1)).Nodup) {x : α × Int} (hx : x ∈ xs) : sumOf x.1 xs = x.2 := by
  induction xs with
  | nil => cases hx
  | cons y ys ih =>
    rw [List.map_cons, List.nodup_cons] at hn
    rw [sumOf_cons]
    rcases List.mem_cons.1 hx with rfl | hx
    · rw [if_pos rfl, sumOf_eq_zero hn.1, Int.add_zero]
    · have hne : y.1 ≠ x.1 := fun heq => hn.1 (heq ▸ List.mem_map_of_mem hx)
      rw [if_neg hne, ih hn.2 hx, Int.zero_add]

theorem mem_items {c : Counter α} {k : α} {n : Int} : (k, n) ∈ c.items ↔ k ∈ c.keys ∧ c.count k = n := by
  constructor
  · exact fun h => ⟨List.mem_map_of_mem h, sumOf_mem c.nodup h⟩
  · rintro ⟨hk, hn⟩
    obtain ⟨⟨k', m⟩, hx, rfl⟩ := List.mem_map.1 hk
    have hm : c.count k' = m := sumOf_mem c.nodup hx
    rw [← hn, hm]
    exact hx

/-- Counters are equal that have the same keys and counts. -/
theorem same_iff {c d : Counter α} : c.Same d ↔ (∀ k, k ∈ c.keys ↔ k ∈ d.keys) ∧ ∀ k, c.count k = d.count k := by
  constructor
  · intro h
    exact ⟨fun k => h.mem_keys, fun k => ((h.filter _).map _).sum_eq⟩
  · rintro ⟨hkeys, hcount⟩
    refine (List.perm_ext_iff_of_nodup c.nodup.of_map d.nodup.of_map).2 ?_
    rintro ⟨k, n⟩
    rw [mem_items, mem_items, hkeys, hcount]

/-! ## Adding -/

theorem mem_keys_add {c : Counter α} {k k' : α} {n : Int} : k' ∈ (c.add k n).keys ↔ k' ∈ c.keys ∨ k' = k := by
  unfold add
  split
  · next h =>
    have hkeys : (c.items.map fun x => if x.1 = k then (k, x.2 + n) else x).map (·.1) = c.keys := by
      rw [List.map_map]
      refine List.map_congr_left fun x _ => ?_
      by_cases hx : x.1 = k <;> simp [hx]
    rw [keys, hkeys]
    exact ⟨.inl, fun h' => h'.elim id fun heq => heq ▸ h⟩
  · simp [keys]

theorem sumOf_bump {k k' : α} {n : Int} {xs : List (α × Int)} (hn : (xs.map (·.1)).Nodup) (hk : k ∈ xs.map (·.1)) :
    sumOf k' (xs.map fun x => if x.1 = k then (k, x.2 + n) else x) = sumOf k' xs + if k' = k then n else 0 := by
  induction xs with
  | nil => cases hk
  | cons x xs ih =>
    rw [List.map_cons, List.nodup_cons] at hn
    rw [List.map_cons, sumOf_cons, sumOf_cons]
    by_cases hx : x.1 = k
    · have hrest : (xs.map fun x => if x.1 = k then (k, x.2 + n) else x) = xs := by
        refine (List.map_congr_left fun y hy => if_neg fun hyk => hn.1 ?_).trans (List.map_id xs)
        rw [hx, ← hyk]
        exact List.mem_map_of_mem hy
      rw [hrest, if_pos hx]
      by_cases hk' : k' = k
      · rw [if_pos hk'.symm, if_pos hk', if_pos (hx.trans hk'.symm)]
        ring
      · rw [if_neg (Ne.symm hk'), if_neg hk', if_neg fun h => hk' (h.symm.trans hx)]
        ring
    · have hmem : k ∈ xs.map (·.1) := (List.mem_cons.1 hk).resolve_left (Ne.symm hx)
      rw [if_neg hx, ih hn.2 hmem]
      ring

theorem count_add (c : Counter α) (k k' : α) (n : Int) : (c.add k n).count k' = c.count k' + if k' = k then n else 0 := by
  unfold add
  split
  · next h => exact sumOf_bump c.nodup h
  · next h =>
    rw [count, sumOf_append, sumOf_cons]
    simp [count, sumOf, eq_comm]

theorem total_bump {k : α} {n : Int} {xs : List (α × Int)} (hn : (xs.map (·.1)).Nodup) (hk : k ∈ xs.map (·.1)) :
    ((xs.map fun x => if x.1 = k then (k, x.2 + n) else x).map (·.2)).sum = (xs.map (·.2)).sum + n := by
  induction xs with
  | nil => cases hk
  | cons x xs ih =>
    rw [List.map_cons, List.nodup_cons] at hn
    by_cases hx : x.1 = k
    · have hrest : (xs.map fun x => if x.1 = k then (k, x.2 + n) else x) = xs := by
        refine (List.map_congr_left fun y hy => if_neg fun hyk => hn.1 ?_).trans (List.map_id xs)
        rw [hx, ← hyk]
        exact List.mem_map_of_mem hy
      simp only [List.map_cons, List.sum_cons, hrest, if_pos hx]
      ring
    · have hmem : k ∈ xs.map (·.1) := (List.mem_cons.1 hk).resolve_left (Ne.symm hx)
      simp only [List.map_cons, List.sum_cons, if_neg hx, ih hn.2 hmem]
      ring

theorem total_add (c : Counter α) (k : α) (n : Int) : (c.add k n).total = c.total + n := by
  unfold add
  split
  · next h => exact total_bump c.nodup h
  · simp [total]

/-! ## Adding several -/

theorem mem_keys_addAll {c : Counter α} {xs : List (α × Int)} {k : α} :
    k ∈ (c.addAll xs).keys ↔ k ∈ c.keys ∨ k ∈ xs.map (·.1) := by
  induction xs generalizing c with
  | nil => simp [addAll]
  | cons x xs ih =>
    rw [addAll, List.foldl_cons]
    refine ih.trans ?_
    rw [mem_keys_add, List.map_cons, List.mem_cons, or_assoc]

theorem count_addAll (c : Counter α) (xs : List (α × Int)) (k : α) : (c.addAll xs).count k = c.count k + sumOf k xs := by
  induction xs generalizing c with
  | nil => simp [addAll, sumOf]
  | cons x xs ih =>
    rw [addAll, List.foldl_cons]
    refine (ih _).trans ?_
    rw [count_add, sumOf_cons, Int.add_assoc]
    simp only [eq_comm]

/-- **The counts are conserved.** -/
theorem total_addAll (c : Counter α) (xs : List (α × Int)) : (c.addAll xs).total = c.total + (xs.map (·.2)).sum := by
  induction xs generalizing c with
  | nil => simp [addAll]
  | cons x xs ih =>
    rw [addAll, List.foldl_cons]
    refine (ih _).trans ?_
    rw [total_add, List.map_cons, List.sum_cons, Int.add_assoc]

/-- **The order of the counts does not matter.** -/
theorem same_addAll (c : Counter α) {xs ys : List (α × Int)} (h : xs.Perm ys) : (c.addAll xs).Same (c.addAll ys) := by
  refine same_iff.2 ⟨fun k => ?_, fun k => ?_⟩
  · rw [mem_keys_addAll, mem_keys_addAll, (h.map (·.1)).mem_iff]
  · rw [count_addAll, count_addAll, sumOf, sumOf, ((h.filter _).map _).sum_eq]

end Counter
