import Mathlib.Order.PiLex
import Mathlib.Order.Compare
import Mathlib.Data.List.GetD

/-!
# Zero-padded lexicographic order

A finite list stands for the infinite sequence that goes on with zeros, and lists are ordered as
these sequences are lexicographically: an end is a run of zeros, so something below zero sorts
before it and something above zero after it. The order is Mathlib's on `Lex (ℕ → α)`; `order`
computes it on the lists.
-/

namespace Padded

variable {α : Type} [Zero α]

/-- The sequence a list stands for. -/
def seq (xs : List α) : Lex (ℕ → α) := toLex fun i => xs.getD i 0

theorem seq_apply (xs : List α) (i : ℕ) : seq xs i = xs.getD i 0 := rfl

@[simp] theorem seq_cons_zero (x : α) (xs : List α) : seq (x :: xs) 0 = x := rfl

@[simp] theorem seq_cons_succ (x : α) (xs : List α) (i : ℕ) : seq (x :: xs) (i + 1) = seq xs i := rfl

/-- The end goes on with a zero. -/
theorem seq_nil : seq ([] : List α) = seq [0] := by
  funext i
  cases i <;> rfl

/-- Every sequence has a first element. -/
theorem seq_uncons (xs : List α) : seq (xs.headD 0 :: xs.tail) = seq xs := by
  cases xs with
  | nil => exact seq_nil.symm
  | cons x xs => rfl

theorem seq_cons_inj {x y : α} {xs ys : List α} :
    seq (x :: xs) = seq (y :: ys) ↔ x = y ∧ seq xs = seq ys := by
  constructor
  · intro h
    exact ⟨congrFun h 0, funext fun i => congrFun h (i + 1)⟩
  · rintro ⟨rfl, h⟩
    funext i
    cases i with
    | zero => rfl
    | succ i => exact congrFun h i

theorem seq_append_congr {xs ys : List α} (h : seq xs = seq ys) (ps : List α) :
    seq (ps ++ xs) = seq (ps ++ ys) := by
  induction ps with
  | nil => exact h
  | cons p ps ih => exact seq_cons_inj.2 ⟨rfl, ih⟩

variable [LinearOrder α]

theorem seq_cons_lt {x y : α} {xs ys : List α} :
    seq (x :: xs) < seq (y :: ys) ↔ x < y ∨ (x = y ∧ seq xs < seq ys) := by
  constructor
  · rintro ⟨i, heq, hlt⟩
    cases i with
    | zero => exact .inl hlt
    | succ i =>
      exact .inr ⟨heq 0 (Nat.succ_pos i), i, fun j hj => heq (j + 1) (Nat.succ_lt_succ hj), hlt⟩
  · rintro (hlt | ⟨rfl, i, heq, hlt⟩)
    · exact ⟨0, fun j hj => absurd hj (Nat.not_lt_zero j), hlt⟩
    · refine ⟨i + 1, fun j hj => ?_, hlt⟩
      cases j with
      | zero => rfl
      | succ j => exact heq j (Nat.lt_of_succ_lt_succ hj)

/-- The order against zeros. -/
def zeros : List α → Ordering
  | [] => .eq
  | y :: ys => (cmp 0 y).then (zeros ys)

/-- The order, computed on the lists. -/
def order : List α → List α → Ordering
  | [], ys => zeros ys
  | x :: xs, ys => (cmp x (ys.headD 0)).then (order xs ys.tail)

theorem order_cons (x y : α) (xs ys : List α) : order (x :: xs) (y :: ys) = (cmp x y).then (order xs ys) := rfl

/-- The first difference decides. -/
theorem compares_cons {x y : α} {xs ys : List α} {o : Ordering} (h : o.Compares (seq xs) (seq ys)) :
    ((cmp x y).then o).Compares (seq (x :: xs)) (seq (y :: ys)) := by
  rcases lt_trichotomy x y with hlt | rfl | hgt
  · rw [(cmp_eq_lt_iff x y).2 hlt]
    exact seq_cons_lt.2 (.inl hlt)
  · rw [cmp_self_eq_eq]
    cases o with
    | lt => exact seq_cons_lt.2 (.inr ⟨rfl, h⟩)
    | eq => exact seq_cons_inj.2 ⟨rfl, h⟩
    | gt => exact seq_cons_lt.2 (.inr ⟨rfl, h⟩)
  · rw [(cmp_eq_gt_iff x y).2 hgt]
    exact seq_cons_lt.2 (.inl hgt)

theorem zeros_compares : ∀ ys : List α, (zeros ys).Compares (seq []) (seq ys)
  | [] => rfl
  | y :: ys => by
    rw [seq_nil]
    exact compares_cons (zeros_compares ys)

theorem order_compares : ∀ xs ys : List α, (order xs ys).Compares (seq xs) (seq ys)
  | [], ys => zeros_compares ys
  | x :: xs, ys => by
    rw [← seq_uncons ys]
    exact compares_cons (order_compares xs ys.tail)

theorem order_uncons (xs ys : List α) :
    order xs ys = (cmp (xs.headD 0) (ys.headD 0)).then (order xs.tail ys.tail) := by
  cases xs with
  | nil =>
    cases ys with
    | nil =>
      show Ordering.eq = (cmp (0 : α) 0).then .eq
      rw [cmp_self_eq_eq]
      rfl
    | cons y ys => rfl
  | cons x xs => rfl

/-- Only the sequences matter. -/
theorem order_congr {xs xs' ys ys' : List α} (hx : seq xs = seq xs') (hy : seq ys = seq ys') :
    order xs ys = order xs' ys' := by
  have h := order_compares xs ys
  rw [hx, hy] at h
  exact (order_compares xs' ys').inj h |>.symm

theorem order_eq_lt {xs ys : List α} : order xs ys = .lt ↔ seq xs < seq ys :=
  (order_compares xs ys).eq_lt

theorem order_eq_eq {xs ys : List α} : order xs ys = .eq ↔ seq xs = seq ys :=
  (order_compares xs ys).eq_eq

theorem order_eq_gt {xs ys : List α} : order xs ys = .gt ↔ seq ys < seq xs :=
  (order_compares xs ys).eq_gt

/-! ## Appending -/

theorem seq_append_lt {xs ys : List α} (ps : List α) :
    seq (ps ++ xs) < seq (ps ++ ys) ↔ seq xs < seq ys := by
  induction ps with
  | nil => rfl
  | cons p ps ih => rw [List.cons_append, List.cons_append, seq_cons_lt, ih]; simp

omit [LinearOrder α] in
theorem seq_append_inj {xs ys : List α} (ps : List α) :
    seq (ps ++ xs) = seq (ps ++ ys) ↔ seq xs = seq ys := by
  induction ps with
  | nil => rfl
  | cons p ps ih => rw [List.cons_append, List.cons_append, seq_cons_inj, ih]; simp

omit [LinearOrder α] in
/-- Lists that do not end in a zero are determined by their sequences. -/
theorem seq_concat_inj : ∀ {xs ys : List α} {a b : α}, a ≠ 0 → b ≠ 0 →
    seq (xs ++ [a]) = seq (ys ++ [b]) → xs = ys ∧ a = b
  | [], [], a, b, _, _, h => ⟨rfl, (seq_cons_inj.1 h).1⟩
  | x :: xs, y :: ys, a, b, ha, hb, h => by
    obtain ⟨rfl, htail⟩ := seq_cons_inj.1 h
    obtain ⟨rfl, hab⟩ := seq_concat_inj ha hb htail
    exact ⟨rfl, hab⟩
  | [], y :: ys, a, b, _, hb, h => by
    have hlast : seq ([] : List α) = seq (ys ++ [b]) := (seq_cons_inj.1 h).2
    have := congrFun hlast ys.length
    simp [seq_apply] at this
    exact absurd this.symm hb
  | x :: xs, [], a, b, ha, _, h => by
    have hlast : seq (xs ++ [a]) = seq ([] : List α) := (seq_cons_inj.1 h).2
    have := congrFun hlast xs.length
    simp [seq_apply] at this
    exact absurd this ha

/-- A list below the zeros stays there whatever follows. -/
theorem append_lt_zeros {xs : List α} (h : seq xs < seq []) (ys : List α) : seq (xs ++ ys) < seq [] := by
  induction xs with
  | nil => exact absurd h (lt_irrefl _)
  | cons x xs ih =>
    rw [seq_nil] at h
    rw [List.cons_append, seq_nil, seq_cons_lt]
    rcases seq_cons_lt.1 h with hx | ⟨rfl, hxs⟩
    · exact .inl hx
    · exact .inr ⟨rfl, ih hxs⟩

/-- Something positive after zeros. -/
theorem zeros_lt_append {xs : List α} (h : seq xs = seq []) {t : α} (ht : 0 < t) (ts : List α) :
    seq [] < seq (xs ++ t :: ts) := by
  induction xs with
  | nil =>
    rw [seq_nil]
    exact seq_cons_lt.2 (.inl ht)
  | cons x xs ih =>
    rw [seq_nil, seq_cons_inj] at h
    obtain ⟨rfl, h⟩ := h
    rw [seq_nil]
    exact seq_cons_lt.2 (.inr ⟨rfl, ih h⟩)

/-- Of two lists in order, the second goes on after the first, or the first after the second with
nothing above zero, or they differ somewhere and what follows does not matter. -/
theorem append_cases {xs ys : List α} (h : seq xs ≤ seq ys) :
    (∃ zs, ys = xs ++ zs) ∨
    ((¬ ∃ zs, ys = xs ++ zs) ∧
      ((∀ us vs, seq (xs ++ us) < seq (ys ++ vs)) ∨ ∃ z zs, xs = ys ++ z :: zs ∧ seq (z :: zs) ≤ seq [])) := by
  induction xs generalizing ys with
  | nil => exact .inl ⟨ys, rfl⟩
  | cons x xs ih =>
    cases ys with
    | nil => exact .inr ⟨by simp, .inr ⟨x, xs, rfl, h⟩⟩
    | cons y ys =>
      by_cases hxy : x = y
      · subst hxy
        have hle : seq xs ≤ seq ys := by
          rcases h.lt_or_eq with hlt | heq
          · exact ((seq_append_lt [x]).1 hlt).le
          · exact (seq_cons_inj.1 heq).2.le
        simp only [List.cons_append, List.cons.injEq, true_and, seq_cons_lt, lt_irrefl, false_or]
        exact ih hle
      · have hlt : x < y := by
          rcases h.lt_or_eq with hlt | heq
          · exact (seq_cons_lt.1 hlt).resolve_right fun h => hxy h.1
          · exact absurd (seq_cons_inj.1 heq).1 hxy
        refine .inr ⟨?_, .inl fun us vs => seq_cons_lt.2 (.inl hlt)⟩
        rintro ⟨zs, hzs⟩
        exact hxy (List.cons.inj hzs).1.symm

/-- **Appending to lists in order**: it keeps them in order unless the second goes on after the
first with something that sorts, with what is appended to it, not above what is appended to the first. -/
theorem append_lt_append {xs ys us vs : List α} {u v : α}
    (h : seq xs < seq ys ∨ (seq xs = seq ys ∧ seq (u :: us) < seq (v :: vs))) (hv : 0 < v) :
    seq (xs ++ u :: us) < seq (ys ++ v :: vs) ↔
      ∀ zs, zs ≠ [] → ys = xs ++ zs → seq (u :: us) < seq (zs ++ v :: vs) := by
  have hle : seq xs ≤ seq ys := h.elim le_of_lt fun h => h.1.le
  rcases append_cases hle with ⟨zs, rfl⟩ | ⟨hnot, hlt | ⟨z, zs, rfl, hz⟩⟩
  · rw [List.append_assoc, seq_append_lt]
    constructor
    · intro hlt zs' _ heq
      rwa [← List.append_cancel_left heq]
    · intro hall
      by_cases hnil : zs = []
      · subst hnil
        rcases h with h | h
        · rw [List.append_nil] at h
          exact absurd h (lt_irrefl _)
        · exact h.2
      · exact hall zs hnil rfl
  · exact iff_of_true (hlt _ _) fun zs _ heq => absurd ⟨zs, heq⟩ hnot
  · refine iff_of_true ?_ fun zs _ heq => absurd ⟨zs, heq⟩ hnot
    rw [seq_nil] at hz
    have hz0 : z ≤ 0 := by
      rcases hz.lt_or_eq with hlt | heq
      · exact (seq_cons_lt.1 hlt).elim le_of_lt fun h => h.1.le
      · exact (seq_cons_inj.1 heq).1.le
    rw [List.append_assoc, seq_append_lt]
    exact seq_cons_lt.2 (.inl (hz0.trans_lt hv))

/-- Appending something positive to the first list only. -/
theorem append_lt_or {xs ys us : List α} {u : α} {P : Prop} (h : seq xs ≤ seq ys) (hu : 0 < u) :
    (seq (xs ++ u :: us) < seq ys ∨ (seq (xs ++ u :: us) = seq ys ∧ P)) ↔
      seq xs ≠ seq ys ∧
        ∀ zs, zs ≠ [] → ys = xs ++ zs → seq (u :: us) < seq zs ∨ (seq (u :: us) = seq zs ∧ P) := by
  rcases append_cases h with ⟨zs, rfl⟩ | ⟨hnot, hlt | ⟨z, zs, rfl, hz⟩⟩
  · rw [seq_append_lt, seq_append_inj]
    constructor
    · intro hor
      refine ⟨fun heq => ?_, fun zs' _ hzs => by rwa [← List.append_cancel_left hzs]⟩
      have hzero : seq zs = seq [] := by
        rw [← seq_append_inj xs, List.append_nil]
        exact heq.symm
      have hpos := zeros_lt_append (rfl : seq ([] : List α) = seq []) hu us
      rw [hzero] at hor
      rcases hor with hor | ⟨hor, -⟩
      · exact lt_asymm hor hpos
      · exact hpos.ne' hor
    · rintro ⟨hne, hall⟩
      refine hall zs (fun hnil => hne ?_) rfl
      rw [hnil, List.append_nil]
  · have hlt' := hlt (u :: us) []
    have hne := hlt [] []
    rw [List.append_nil] at hlt' hne
    rw [List.append_nil] at hne
    exact iff_of_true (.inl hlt') ⟨hne.ne, fun zs _ heq => absurd ⟨zs, heq⟩ hnot⟩
  · have hys : ∀ vs, seq (ys ++ vs) = seq ys ↔ seq vs = seq [] := fun vs => by
      have := @seq_append_inj α _ vs [] ys
      rwa [List.append_nil] at this
    have hys' : ∀ vs, seq (ys ++ vs) < seq ys ↔ seq vs < seq [] := fun vs => by
      have := @seq_append_lt α _ _ vs [] ys
      rwa [List.append_nil] at this
    rw [List.append_assoc, hys', hys, Ne, hys]
    rcases hz.lt_or_eq with hneg | hzero
    · exact iff_of_true (.inl (append_lt_zeros hneg _))
        ⟨hneg.ne, fun zs' _ heq => absurd ⟨zs', heq⟩ hnot⟩
    · have hpos := zeros_lt_append hzero hu us
      refine iff_of_false ?_ fun h => h.1 hzero
      rintro (hlt | ⟨heq, -⟩)
      · exact lt_asymm hlt hpos
      · exact hpos.ne' heq

end Padded
