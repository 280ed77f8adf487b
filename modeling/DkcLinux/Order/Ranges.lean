import Mathlib.Order.Defs.LinearOrder
import Mathlib.Order.Lattice
import Mathlib.Data.List.Chain
import Mathlib.Data.List.Pairwise

/-!
# Half-open ranges

A range has a first value and a value it ends before, both optional. Ranges in a row, each proper and
each ahead of the next, are all apart: comparing neighbours is enough (`pairwise_ahead`), and a value
is in at most one of them (`filter_length_le_one`).
-/

structure Range (α : Type) where
  first : Option α
  before : Option α

namespace Range

variable {α β : Type} [LinearOrder α] {r s t : Range α} {v : α}

def Mem (v : α) (r : Range α) : Prop := (∀ a, r.first = some a → a ≤ v) ∧ ∀ b, r.before = some b → v < b

/-- Both ends, if there are two, are in order. -/
def Proper (r : Range α) : Prop := ∀ a b, r.first = some a → r.before = some b → a < b

/-- The first range ends before the second begins. -/
def Ahead (r s : Range α) : Prop := ∃ b a, r.before = some b ∧ s.first = some a ∧ b ≤ a

theorem Ahead.trans (hs : s.Proper) (h : Ahead r s) (h' : Ahead s t) : Ahead r t := by
  obtain ⟨b, a, hb, ha, hle⟩ := h
  obtain ⟨b', a', hb', ha', hle'⟩ := h'
  exact ⟨b, a', hb, ha', hle.trans ((hs a b' ha hb').le.trans hle')⟩

/-- Nothing is in two ranges that are apart. -/
theorem Ahead.not_mem (h : Ahead r s) (hr : Mem v r) : ¬ Mem v s := by
  obtain ⟨b, a, hb, ha, hle⟩ := h
  intro hs
  exact absurd ((hr.2 b hb).trans_le (hle.trans (hs.1 a ha))) (lt_irrefl v)

/-- Neighbours that are apart make all apart. -/
theorem pairwise_ahead {ranges : List (Range α)} (hproper : ∀ r ∈ ranges, r.Proper)
    (h : ranges.IsChain Ahead) : ranges.Pairwise Ahead := by
  -- the relation is transitive at proper ranges
  let Step (r s : Range α) : Prop := Ahead r s ∧ r.Proper
  have htrans : IsTrans (Range α) Step := ⟨fun a b c hab hbc => ⟨hab.1.trans hbc.2 hbc.1, hab.2⟩⟩
  have hchain : ranges.IsChain Step := h.imp_of_mem_imp fun r s hr _ hrs => ⟨hrs, hproper r hr⟩
  exact (List.isChain_iff_pairwise.1 hchain).imp fun h => h.1

/-- A value is in at most one of them. -/
theorem filter_length_le_one {range : β → Range α} {xs : List β} (h : (xs.map range).Pairwise Ahead) {p : β → Bool}
    (hp : ∀ x ∈ xs, p x = true → Mem v (range x)) : (xs.filter p).length ≤ 1 := by
  induction xs with
  | nil => exact Nat.zero_le _
  | cons x xs ih =>
    rw [List.map_cons, List.pairwise_cons] at h
    obtain ⟨hx, hxs⟩ := List.forall_mem_cons.1 hp
    by_cases hpx : p x = true
    · have hnone : xs.filter p = [] := List.filter_eq_nil_iff.2 fun y hy hpy =>
        (h.1 _ (List.mem_map_of_mem hy)).not_mem (hx hpx) (hxs y hy hpy)
      rw [List.filter_cons_of_pos hpx, hnone]
      exact le_rfl
    · rw [List.filter_cons_of_neg hpx]
      exact ih h.2 hxs

end Range
