import Mathlib.Data.List.Sort
import Mathlib.Data.List.Dedup
import Mathlib.Data.List.Lattice
import Mathlib.Data.List.Induction
import Mathlib.Data.List.Perm.Basic
import Mathlib.Order.Basic

/-!
# Grouping and greedy removal

A list is grouped by a key: the keys in the order of their first occurrence, each with its members
in the order of the list. Groups are then removed from the front until a weight fits a limit: what
is removed is a prefix, and every prefix is what some limit removes.

| operation | rule |
|---|---|
| `groupBy` | `mem_groupBy`, `keys_groupBy_snoc` |
| `maxBy` (the first largest) | `maxBy_snoc`, `maxBy_eq_some`, `maxBy_groupBy` |
| `trim` | `trim_least`, `trim_eq` |
| the order of the input | `pair_sublist_keys_groupBy`, `insertionSort_perm` |
-/

namespace Grouping

variable {α κ σ : Type}

def keys (groups : List (κ × List α)) : List κ := groups.map (·.1)

@[simp] theorem keys_nil : keys ([] : List (κ × List α)) = [] := rfl

@[simp] theorem keys_cons (k : κ) (xs : List α) (rest : List (κ × List α)) :
    keys ((k, xs) :: rest) = k :: keys rest := rfl

section Groups
variable [DecidableEq κ]

/-- One more member of the group `k`, which is made if it is not there. -/
def insert (k : κ) (x : α) : List (κ × List α) → List (κ × List α)
  | [] => [(k, [x])]
  | (k', xs) :: rest => if k' = k then (k', xs ++ [x]) :: rest else (k', xs) :: insert k x rest

def groupBy (f : α → κ) (xs : List α) : List (κ × List α) :=
  xs.foldl (fun groups x => insert (f x) x groups) []

theorem keys_insert (k : κ) (x : α) : ∀ groups : List (κ × List α),
    keys (insert k x groups) = if k ∈ keys groups then keys groups else keys groups ++ [k]
  | [] => by simp [insert]
  | (k', xs) :: rest => by
    by_cases hk : k' = k
    · simp [insert, hk]
    · rw [insert, if_neg hk, keys_cons, keys_insert k x rest, keys_cons]
      by_cases hmem : k ∈ keys rest
      · rw [if_pos hmem, if_pos (List.mem_cons_of_mem _ hmem)]
      · rw [if_neg hmem, if_neg (by simp [Ne.symm hk, hmem]), List.cons_append]

/-- A group after an insertion. -/
theorem mem_insert {k k' : κ} {x : α} {ys : List α} : ∀ {groups : List (κ × List α)}, (keys groups).Nodup →
    ((k', ys) ∈ insert k x groups ↔
      (k' ≠ k ∧ (k', ys) ∈ groups) ∨
        (k' = k ∧ ((∃ xs, (k, xs) ∈ groups ∧ ys = xs ++ [x]) ∨ (k ∉ keys groups ∧ ys = [x]))))
  | [], _ => by simp [insert, keys]
  | (k₀, xs) :: rest, hn => by
    rw [keys_cons, List.nodup_cons] at hn
    have ih := @mem_insert k k' x ys rest hn.2
    by_cases hk : k₀ = k
    · subst hk
      have hnot : ∀ zs, (k₀, zs) ∉ rest := fun zs hz => hn.1 (List.mem_map_of_mem hz)
      rw [insert, if_pos rfl]
      simp only [List.mem_cons, Prod.mk.injEq, keys_cons, true_or, not_true_eq_false,
        false_and, or_false]
      constructor
      · rintro (⟨rfl, rfl⟩ | h)
        · exact .inr ⟨rfl, xs, .inl ⟨trivial, rfl⟩, rfl⟩
        · by_cases h' : k' = k₀
          · rw [h'] at h
            exact absurd h (hnot ys)
          · exact .inl ⟨h', .inr h⟩
      · rintro (⟨hne, ⟨rfl, -⟩ | h⟩ | ⟨rfl, zs, ⟨-, rfl⟩ | h, rfl⟩)
        · exact absurd rfl hne
        · exact .inr h
        · exact .inl ⟨rfl, rfl⟩
        · exact absurd h (hnot zs)
    · rw [insert, if_neg hk]
      simp only [List.mem_cons, ih, keys_cons, Prod.mk.injEq, Ne.symm hk, false_and, false_or]
      constructor
      · rintro (⟨rfl, rfl⟩ | ⟨hne, h⟩ | h)
        · exact .inl ⟨hk, .inl ⟨rfl, rfl⟩⟩
        · exact .inl ⟨hne, .inr h⟩
        · exact .inr h
      · rintro (⟨hne, h | h⟩ | h)
        · exact .inl h
        · exact .inr (.inl ⟨hne, h⟩)
        · exact .inr (.inr h)

theorem groupBy_snoc (f : α → κ) (xs : List α) (x : α) :
    groupBy f (xs ++ [x]) = insert (f x) x (groupBy f xs) := by
  rw [groupBy, List.foldl_append]
  rfl

/-- A key is listed where it occurs first. -/
theorem keys_groupBy_snoc (f : α → κ) (xs : List α) (x : α) : keys (groupBy f (xs ++ [x])) =
    if f x ∈ keys (groupBy f xs) then keys (groupBy f xs) else keys (groupBy f xs) ++ [f x] := by
  rw [groupBy_snoc, keys_insert]

theorem mem_keys_groupBy {f : α → κ} {xs : List α} {k : κ} :
    k ∈ keys (groupBy f xs) ↔ ∃ x ∈ xs, f x = k := by
  induction xs using List.reverseRecOn with
  | nil => simp [groupBy, keys]
  | append_singleton xs x ih =>
    rw [keys_groupBy_snoc]
    split
    · next hx =>
      rw [ih]
      constructor
      · rintro ⟨y, hy, rfl⟩
        exact ⟨y, List.mem_append_left _ hy, rfl⟩
      · rintro ⟨y, hy, rfl⟩
        rcases List.mem_append.1 hy with hy | hy
        · exact ⟨y, hy, rfl⟩
        · obtain rfl := List.mem_singleton.1 hy
          exact ih.1 hx
    · simp only [List.mem_append, ih, List.mem_singleton, or_and_right, exists_or, exists_eq_left]
      exact or_congr_right eq_comm

theorem nodup_keys_groupBy (f : α → κ) (xs : List α) : (keys (groupBy f xs)).Nodup := by
  induction xs using List.reverseRecOn with
  | nil => exact List.nodup_nil
  | append_singleton xs x ih =>
    rw [keys_groupBy_snoc]
    split
    · exact ih
    · next hx => exact List.nodup_append.2 ⟨ih, List.nodup_singleton _, by grind⟩

/-- A group holds the members of its key, and is never empty. -/
theorem mem_groupBy {f : α → κ} {xs ys : List α} {k : κ} :
    (k, ys) ∈ groupBy f xs ↔ (∃ x ∈ xs, f x = k) ∧ ys = xs.filter (f · = k) := by
  induction xs using List.reverseRecOn generalizing ys with
  | nil => simp [groupBy]
  | append_singleton xs x ih =>
    rw [groupBy_snoc, mem_insert (nodup_keys_groupBy f xs), mem_keys_groupBy, List.filter_append]
    by_cases hk : k = f x
    · subst hk
      simp only [ne_eq, not_true_eq_false, false_and, true_and, false_or, ih, decide_true,
        List.filter_cons_of_pos, List.filter_nil]
      constructor
      · rintro (⟨zs, ⟨-, rfl⟩, rfl⟩ | ⟨hnone, rfl⟩)
        · exact ⟨⟨x, by simp, rfl⟩, rfl⟩
        · refine ⟨⟨x, by simp, rfl⟩, ?_⟩
          rw [List.filter_eq_nil_iff.2 fun y hy h => hnone ⟨y, hy, of_decide_eq_true h⟩]
          rfl
      · rintro ⟨-, rfl⟩
        by_cases hsome : ∃ y ∈ xs, f y = f x
        · exact .inl ⟨_, ⟨hsome, rfl⟩, rfl⟩
        · refine .inr ⟨hsome, ?_⟩
          rw [List.filter_eq_nil_iff.2 fun y hy h => hsome ⟨y, hy, of_decide_eq_true h⟩]
          rfl
    · have hx : decide (f x = k) = false := decide_eq_false (Ne.symm hk)
      simp only [ne_eq, hk, not_false_eq_true, true_and, false_and, or_false, ih, hx,
        Bool.false_eq_true, List.filter_cons_of_neg, List.filter_nil, List.append_nil]
      refine and_congr_left fun _ => ⟨?_, ?_⟩
      · rintro ⟨y, hy, rfl⟩
        exact ⟨y, List.mem_append_left _ hy, rfl⟩
      · rintro ⟨y, hy, rfl⟩
        rcases List.mem_append.1 hy with hy | hy
        · exact ⟨y, hy, rfl⟩
        · rw [List.mem_singleton.1 hy] at hk
          exact absurd rfl hk

theorem insert_map {β : Type} (g : α → β) (k : κ) (x : α) : ∀ groups : List (κ × List α),
    insert k (g x) (groups.map fun group => (group.1, group.2.map g)) =
      (insert k x groups).map fun group => (group.1, group.2.map g)
  | [] => rfl
  | (k', xs) :: rest => by
    by_cases hk : k' = k
    · simp [insert, hk]
    · simp [insert, hk, insert_map g k x rest]

theorem groupBy_map {β : Type} (f : β → κ) (g : α → β) (xs : List α) : groupBy f (xs.map g) =
    (groupBy (fun x => f (g x)) xs).map fun group => (group.1, group.2.map g) := by
  induction xs using List.reverseRecOn with
  | nil => rfl
  | append_singleton xs x ih =>
    rw [List.map_append, List.map_singleton, groupBy_snoc, groupBy_snoc, ih]
    exact insert_map g (f (g x)) x _

/-- Some keys, and the members they have. -/
theorem filter_keys_groupBy (f : α → κ) (p : κ → Bool) (xs : List α) :
    (keys (groupBy f xs)).filter p = keys (groupBy f (xs.filter fun x => p (f x))) := by
  induction xs using List.reverseRecOn with
  | nil => rfl
  | append_singleton xs x ih =>
    rw [keys_groupBy_snoc, List.filter_append]
    cases hp : p (f x) with
    | false =>
      simp only [hp, Bool.false_eq_true, not_false_eq_true, List.filter_cons_of_neg, List.filter_nil,
        List.append_nil, ← ih]
      split
      · rfl
      · simp [List.filter_append, hp]
    | true =>
      simp only [hp, List.filter_cons_of_pos, List.filter_nil, keys_groupBy_snoc, ← ih]
      have hmem : f x ∈ (keys (groupBy f xs)).filter p ↔ f x ∈ keys (groupBy f xs) := by
        simp [List.mem_filter, hp]
      by_cases h : f x ∈ keys (groupBy f xs)
      · rw [if_pos h, if_pos (hmem.2 h)]
      · rw [if_neg h, if_neg fun h' => h (hmem.1 h'), List.filter_append]
        simp [hp]

end Groups

/-! ## The first largest -/

/-- `max(xs)`: the first of the largest elements, by the strict comparison `lt`. -/
def maxBy (lt : κ → κ → Bool) (xs : List κ) : Option κ :=
  xs.foldl (fun best x => match best with
    | none => some x
    | some b => some (if lt b x then x else b)) none

theorem maxBy_snoc (lt : κ → κ → Bool) (xs : List κ) (x : κ) : maxBy lt (xs ++ [x]) =
    match maxBy lt xs with
    | none => some x
    | some b => some (if lt b x then x else b) := by
  rw [maxBy, List.foldl_append]
  rfl

section Max
variable {ι : Type} [LinearOrder ι] {rank : κ → ι} {lt : κ → κ → Bool}
  (hlt : ∀ a b, lt a b = true ↔ rank a < rank b)
include hlt

theorem maxBy_spec (xs : List κ) : (xs = [] ∧ maxBy lt xs = none) ∨
    ∃ b, maxBy lt xs = some b ∧ b ∈ xs ∧ ∀ x ∈ xs, rank x ≤ rank b := by
  induction xs using List.reverseRecOn with
  | nil => exact .inl ⟨rfl, rfl⟩
  | append_singleton xs x ih =>
    refine .inr ?_
    rw [maxBy_snoc]
    rcases ih with ⟨rfl, hnone⟩ | ⟨b, hb, hmem, hmax⟩
    · rw [hnone]
      exact ⟨x, rfl, by simp, by simp⟩
    · rw [hb]
      by_cases hx : rank b < rank x
      · refine ⟨x, by simp [(hlt b x).2 hx], by simp, fun y hy => ?_⟩
        rcases List.mem_append.1 hy with hy | hy
        · exact (hmax y hy).trans hx.le
        · rw [List.mem_singleton.1 hy]
      · have hno : lt b x = false := by
          rw [← Bool.not_eq_true, hlt]
          exact hx
        refine ⟨b, by simp [hno], by simp [hmem], fun y hy => ?_⟩
        rcases List.mem_append.1 hy with hy | hy
        · exact hmax y hy
        · rw [List.mem_singleton.1 hy]
          exact not_lt.1 hx

/-- Repetitions do not matter. -/
theorem maxBy_groupBy [DecidableEq κ] (f : α → κ) (xs : List α) :
    maxBy lt (keys (groupBy f xs)) = maxBy lt (xs.map f) := by
  induction xs using List.reverseRecOn with
  | nil => rfl
  | append_singleton xs x ih =>
    rw [keys_groupBy_snoc, List.map_append, List.map_singleton, maxBy_snoc]
    split
    · next hx =>
      rw [ih]
      have hmem : f x ∈ xs.map f := by
        obtain ⟨y, hy, hyx⟩ := mem_keys_groupBy.1 hx
        exact List.mem_map.2 ⟨y, hy, hyx⟩
      rcases maxBy_spec hlt (xs.map f) with ⟨hnil, -⟩ | ⟨b, hb, -, hmax⟩
      · rw [hnil] at hmem
        exact absurd hmem List.not_mem_nil
      · have hno : lt b (f x) = false := by
          rw [← Bool.not_eq_true, hlt]
          exact not_lt.2 (hmax _ hmem)
        simp [hb, hno]
    · rw [maxBy_snoc, ih]

/-- **The first largest**: nothing before it is as large, nothing after it larger. -/
theorem maxBy_eq_some {xs : List κ} {b : κ} : maxBy lt xs = some b ↔
    ∃ ps qs, xs = ps ++ b :: qs ∧ (∀ x ∈ ps, rank x < rank b) ∧ ∀ x ∈ qs, rank x ≤ rank b := by
  constructor
  · intro h
    induction xs using List.reverseRecOn generalizing b with
    | nil => cases h
    | append_singleton xs x ih =>
      rw [maxBy_snoc] at h
      cases hm : maxBy lt xs with
      | none =>
        rcases maxBy_spec hlt xs with ⟨rfl, -⟩ | ⟨c, hc, -⟩
        · rw [hm] at h
          cases h
          exact ⟨[], [], rfl, by simp, by simp⟩
        · rw [hm] at hc
          cases hc
      | some c =>
        rw [hm] at h
        obtain ⟨ps, qs, rfl, hps, hqs⟩ := ih hm
        by_cases hx : rank c < rank x
        · simp only [(hlt c x).2 hx, if_true, Option.some.injEq] at h
          subst h
          refine ⟨ps ++ c :: qs, [], rfl, fun y hy => ?_, by simp⟩
          rcases List.mem_append.1 hy with hy | hy
          · exact (hps y hy).trans hx
          · rcases List.mem_cons.1 hy with rfl | hy
            · exact hx
            · exact (hqs y hy).trans_lt hx
        · have hno : lt c x = false := by
            rw [← Bool.not_eq_true, hlt]
            exact hx
          simp only [hno, Bool.false_eq_true, if_false, Option.some.injEq] at h
          subst h
          refine ⟨ps, qs ++ [x], by simp, hps, fun y hy => ?_⟩
          rcases List.mem_append.1 hy with hy | hy
          · exact hqs y hy
          · rw [List.mem_singleton.1 hy]
            exact not_lt.1 hx
  · rintro ⟨ps, qs, rfl, hps, hqs⟩
    induction qs using List.reverseRecOn with
    | nil =>
      rw [maxBy_snoc]
      rcases maxBy_spec hlt ps with ⟨-, hnone⟩ | ⟨c, hc, hmem, -⟩
      · rw [hnone]
      · simp [hc, (hlt c b).2 (hps c hmem)]
    | append_singleton qs x ih =>
      have hx : lt b x = false := by
        rw [← Bool.not_eq_true, hlt]
        exact not_lt.2 (hqs x (by simp))
      rw [← List.cons_append, ← List.append_assoc, maxBy_snoc, ih fun y hy => hqs y (by simp [hy])]
      simp [hx]
end Max

/-! ## Removal up to a limit -/

/-- Remove from the front until the weight fits. -/
def trim (remove : κ → σ → σ) (weight : σ → Int) (limit : Int) : List κ → σ → σ
  | [], s => s
  | k :: ks, s => if weight s ≤ limit then s else trim remove weight limit ks (remove k s)

section Trim
variable {remove : κ → σ → σ} {weight : σ → Int} {limit : Int}

/-- What is left without the first `n`. -/
def without (remove : κ → σ → σ) (ks : List κ) (n : Nat) (s : σ) : σ :=
  (ks.take n).foldl (fun s k => remove k s) s

/-- **The least prefix is removed**: nothing shorter fits. -/
theorem trim_least : ∀ (ks : List κ) (s : σ), ∃ n ≤ ks.length,
    trim remove weight limit ks s = without remove ks n s ∧
      (∀ m < n, limit < weight (without remove ks m s)) ∧
        (n < ks.length → weight (without remove ks n s) ≤ limit)
  | [], s => ⟨0, le_rfl, rfl, by simp, by simp⟩
  | k :: ks, s => by
    by_cases h : weight s ≤ limit
    · exact ⟨0, Nat.zero_le _, by rw [trim, if_pos h]; rfl, by simp, fun _ => h⟩
    · obtain ⟨n, hn, htrim, hover, hfit⟩ := trim_least ks (remove k s)
      refine ⟨n + 1, by simpa using hn, ?_, fun m hm => ?_, fun hlen => hfit (by simpa using hlen)⟩
      · rw [trim, if_neg h, htrim]
        rfl
      · cases m with
        | zero => exact not_le.1 h
        | succ m => exact hover m (Nat.lt_of_succ_lt_succ hm)

/-- **A prefix is removed.** -/
theorem trim_cut (ks : List κ) (s : σ) : ∃ n ≤ ks.length,
    trim remove weight limit ks s = without remove ks n s ∧
      (n = 0 ∨ limit < weight s) ∧ (n < ks.length → weight (without remove ks n s) ≤ limit) := by
  obtain ⟨n, hn, htrim, hover, hfit⟩ := @trim_least _ _ remove weight limit ks s
  exact ⟨n, hn, htrim, (Nat.eq_zero_or_pos n).imp id fun hpos => hover 0 hpos, hfit⟩

/-- **Every prefix is removed by a limit that fits it and nothing shorter.** -/
theorem trim_eq : ∀ {n : Nat} {ks : List κ} {s : σ}, (∀ m < n, limit < weight (without remove ks m s)) →
    weight (without remove ks n s) ≤ limit → trim remove weight limit ks s = without remove ks n s
  | 0, [], _, _, _ => rfl
  | 0, k :: ks, s, _, hfit => by rw [trim, if_pos (show weight s ≤ limit from hfit)]; rfl
  | n + 1, [], s, hover, hfit => rfl
  | n + 1, k :: ks, s, hover, hfit => by
    have h0 : limit < weight s := hover 0 (Nat.succ_pos n)
    rw [trim, if_neg (not_le.2 h0),
      trim_eq (fun m hm => hover (m + 1) (Nat.succ_lt_succ hm)) hfit]
    rfl

end Trim

/-- Some prefix tells two elements apart. -/
theorem take_separates {a b : κ} (hab : a ≠ b) : ∀ {l : List κ}, a ∈ l ∨ b ∈ l →
    ∃ n ≤ l.length, ¬ (a ∈ l.take n ↔ b ∈ l.take n)
  | [], h => by simp at h
  | x :: l, h => by
    by_cases ha : x = a
    · subst ha
      exact ⟨1, by simp, by simp [Ne.symm hab]⟩
    · by_cases hb : x = b
      · subst hb
        exact ⟨1, by simp, by simp [hab]⟩
      · obtain ⟨n, hn, hsep⟩ := @take_separates a b hab l (by
          rcases h with h | h
          · exact .inl ((List.mem_cons.1 h).resolve_left (Ne.symm ha))
          · exact .inr ((List.mem_cons.1 h).resolve_left (Ne.symm hb)))
        exact ⟨n + 1, by simpa using hn, by simpa [Ne.symm ha, Ne.symm hb] using hsep⟩

/-! ## The first of a sorted list -/

/-- Among the first `n` of a descending list: fewer than `n` are larger. -/
theorem mem_take_descending [LinearOrder κ] : ∀ {n : Nat} {l : List κ}, l.Nodup → l.Pairwise (· ≥ ·) →
    ∀ {x : κ}, x ∈ l.take n ↔ x ∈ l ∧ (l.filter fun y => decide (x < y)).length < n
  | 0, l, _, _, x => by simp
  | n + 1, [], _, _, x => by simp
  | n + 1, y :: l, hn, hs, x => by
    rw [List.nodup_cons] at hn
    rw [List.pairwise_cons] at hs
    by_cases hx : x = y
    · subst hx
      have hnone : (x :: l).filter (fun z => decide (x < z)) = [] := by
        rw [List.filter_eq_nil_iff]
        intro z hz
        rcases List.mem_cons.1 hz with rfl | hz
        · simp
        · simpa using hs.1 z hz
      simp [hnone]
    · rw [List.take_succ_cons, List.mem_cons, mem_take_descending hn.2 hs.2, List.mem_cons]
      simp only [hx, false_or]
      refine and_congr_right fun hmem => ?_
      have hlt : x < y := lt_of_le_of_ne (hs.1 x hmem) hx
      simp [hlt]

theorem mem_take_sorted [LinearOrder κ] {n : Nat} {l : List κ} (hn : l.Nodup) {x : κ} :
    x ∈ (l.insertionSort (· ≥ ·)).take n ↔ x ∈ l ∧ (l.filter fun y => decide (x < y)).length < n := by
  have hperm := List.perm_insertionSort (· ≥ ·) l
  rw [mem_take_descending (hperm.nodup_iff.2 hn) (List.pairwise_insertionSort (· ≥ ·) l),
    hperm.mem_iff, (hperm.filter _).length_eq]

/-! ## The order of the input -/

section
variable [DecidableEq κ]

/-- What comes first is grouped first. -/
theorem keys_groupBy_append (f : α → κ) (xs ys : List α) :
    ∃ ks, keys (groupBy f (xs ++ ys)) = keys (groupBy f xs) ++ ks := by
  induction ys using List.reverseRecOn with
  | nil => exact ⟨[], by simp⟩
  | append_singleton ys y ih =>
    obtain ⟨ks, hks⟩ := ih
    rw [← List.append_assoc, keys_groupBy_snoc, hks]
    split
    · exact ⟨ks, rfl⟩
    · exact ⟨ks ++ [f y], List.append_assoc _ _ _⟩

/-- Two keys are listed in the order in which they occur. -/
theorem pair_sublist_keys_groupBy {f : α → κ} {xs ys : List α} {a b : κ} (ha : ∃ x ∈ xs, f x = a)
    (hb : ∃ y ∈ ys, f y = b) (hno : ∀ x ∈ xs, f x ≠ b) : [a, b].Sublist (keys (groupBy f (xs ++ ys))) := by
  obtain ⟨ks, hks⟩ := keys_groupBy_append f xs ys
  have hmem : b ∈ keys (groupBy f xs) ++ ks := by
    rw [← hks, mem_keys_groupBy]
    obtain ⟨y, hy, hyb⟩ := hb
    exact ⟨y, List.mem_append_right _ hy, hyb⟩
  have hright : b ∈ ks := by
    rcases List.mem_append.1 hmem with h | h
    · obtain ⟨x, hx, hxb⟩ := mem_keys_groupBy.1 h
      exact absurd hxb (hno x hx)
    · exact h
  rw [hks]
  exact (List.singleton_sublist.2 (mem_keys_groupBy.2 ha)).append (List.singleton_sublist.2 hright)

theorem pair_sublist_dedup {xs ys : List κ} {a b : κ} (ha : a ∈ xs) (hno : a ∉ ys) (hb : b ∈ ys) :
    [a, b].Sublist (xs ++ ys).dedup := by
  obtain ⟨ts, -, hts⟩ := List.sublist_suffix_of_union xs ys.dedup
  rw [List.dedup_append, ← hts]
  have hmem : a ∈ ts ++ ys.dedup := by
    rw [hts, List.mem_union_iff]
    exact .inl ha
  have hleft : a ∈ ts := (List.mem_append.1 hmem).resolve_right fun h => hno (List.mem_dedup.1 h)
  exact (List.singleton_sublist.2 hleft).append (List.singleton_sublist.2 (List.mem_dedup.2 hb))

end

/-- Sorting forgets the order of elements that the relation tells apart. -/
theorem insertionSort_perm {r : κ → κ → Prop} [DecidableRel r] [Std.Total r] [IsTrans κ r] {xs ys : List κ}
    (h : xs.Perm ys) (hanti : ∀ a ∈ xs, ∀ b ∈ xs, r a b → r b a → a = b) :
    xs.insertionSort r = ys.insertionSort r := by
  have hperm := ((List.perm_insertionSort r xs).trans h).trans (List.perm_insertionSort r ys).symm
  refine hperm.eq_of_pairwise (fun a b ha hb hab hba => ?_) (List.pairwise_insertionSort r xs)
    (List.pairwise_insertionSort r ys)
  rw [List.mem_insertionSort] at ha hb
  exact hanti a ha b (h.mem_iff.2 hb) hab hba

/-- Two elements have one order in a list without repetitions. -/
theorem not_sublist_swap {a b : κ} : ∀ {xs : List κ}, xs.Nodup → [a, b].Sublist xs → ¬ [b, a].Sublist xs := by
  intro xs hn hab hba
  induction xs with
  | nil => cases hab
  | cons x xs ih =>
    rw [List.nodup_cons] at hn
    cases hab with
    | cons _ hab =>
      cases hba with
      | cons _ hba => exact ih hn.2 hab hba
      | cons_cons _ _ => exact hn.1 (hab.subset (by simp))
    | cons_cons _ hab =>
      cases hba with
      | cons _ hba => exact hn.1 (hba.subset (by simp))
      | cons_cons _ hba => exact hn.1 (hab.subset (by simp))
/-- A prefix with the second of two elements has the first. -/
theorem mem_take_of_pair {a b : κ} : ∀ {xs : List κ} {n : Nat}, xs.Nodup → [a, b].Sublist xs → b ∈ xs.take n →
    a ∈ xs.take n
  | [], n, _, h, _ => by cases h
  | x :: xs, 0, _, _, hb => by simp at hb
  | x :: xs, n + 1, hn, h, hb => by
    rw [List.nodup_cons] at hn
    rw [List.take_succ_cons] at hb ⊢
    cases h with
    | cons _ h =>
      have hbx : b ≠ x := by
        rintro rfl
        exact hn.1 (h.subset (by simp))
      exact List.mem_cons_of_mem _ (mem_take_of_pair hn.2 h ((List.mem_cons.1 hb).resolve_left hbx))
    | cons_cons _ h => exact List.mem_cons_self

/-- Two elements stand in one order or the other. -/
theorem pair_sublist_or {a b : κ} (hne : a ≠ b) : ∀ {xs : List κ}, a ∈ xs → b ∈ xs →
    [a, b].Sublist xs ∨ [b, a].Sublist xs
  | [], ha, _ => by simp at ha
  | x :: xs, ha, hb => by
    rcases List.mem_cons.1 ha with rfl | ha'
    · have hb' := (List.mem_cons.1 hb).resolve_left hne.symm
      exact .inl ((List.singleton_sublist.2 hb').cons_cons a)
    · rcases List.mem_cons.1 hb with rfl | hb'
      · exact .inr ((List.singleton_sublist.2 ha').cons_cons b)
      · exact (pair_sublist_or hne ha' hb').imp (fun h => h.cons x) fun h => h.cons x

end Grouping
