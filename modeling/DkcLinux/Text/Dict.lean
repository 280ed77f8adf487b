import DkcLinux.Text.PyStr
import Mathlib.Data.List.Nodup
import Mathlib.Data.List.Perm.Basic

/-!
# Dicts with string keys

Items in insertion order, no key twice. `get?` and membership of an item say the same
(`mem_items`), so a loop over the items and a lookup by key can be exchanged.
-/

namespace Py

structure Dict (V : Type) where
  items : List (String × V)
  nodup : (items.map (·.1)).Nodup

namespace Dict

variable {V W : Type}

def empty : Dict V := ⟨[], List.nodup_nil⟩

def keys (d : Dict V) : List String := d.items.map (·.1)

def get? (d : Dict V) (k : String) : Option V := d.items.lookup k

/-- `d[k] = v` of a key that is not there. -/
def add (d : Dict V) (k : String) (v : V) (h : k ∉ d.keys) : Dict V where
  items := d.items ++ [(k, v)]
  nodup := by
    rw [List.map_append, List.nodup_append]
    refine ⟨d.nodup, by simp, ?_⟩
    intro a ha b hb hab
    simp only [List.map_cons, List.map_nil, List.mem_singleton] at hb
    exact h (by rw [← hb, ← hab]; exact ha)

/-- `d[k] = v`: the value of a key that is there is replaced in its place. -/
def set (d : Dict V) (k : String) (v : V) : Dict V :=
  if h : k ∈ d.keys then
    { items := d.items.map fun x => if x.1 = k then (k, v) else x
      nodup := by
        have hkeys : (d.items.map fun x => if x.1 = k then (k, v) else x).map (·.1) = d.items.map (·.1) := by
          rw [List.map_map]
          refine List.map_congr_left fun x _ => ?_
          by_cases hx : x.1 = k <;> simp [hx]
        rw [hkeys]
        exact d.nodup }
  else d.add k v h

def filter (d : Dict V) (p : String → V → Bool) : Dict V where
  items := d.items.filter fun x => p x.1 x.2
  nodup := d.nodup.sublist (List.filter_sublist.map _)

theorem nodup_sortedItems (d : Dict V) : ((sortedItems d.items).map (·.1)).Nodup :=
  ((perm_sortedItems d.items).map _).nodup_iff.2 d.nodup

/-- `d.pop(k)`, the rest. -/
def erase (d : Dict V) (k : String) : Dict V := d.filter fun k' _ => k' ≠ k

/-- A value for every key of a list. -/
def ofKeys (ks : List String) (h : ks.Nodup) (f : String → V) : Dict V where
  items := ks.map fun k => (k, f k)
  nodup := by simpa [Function.comp_def] using h

/-- Another value for every key. -/
def map (d : Dict V) (f : V → W) : Dict W where
  items := d.items.map fun x => (x.1, f x.2)
  nodup := by simpa [Function.comp_def] using d.nodup

theorem mem_items {d : Dict V} {k : String} {v : V} : (k, v) ∈ d.items ↔ d.get? k = some v := by
  obtain ⟨items, hn⟩ := d
  simp only [get?]
  induction items with
  | nil => simp
  | cons x xs ih =>
    obtain ⟨k', v'⟩ := x
    simp only [List.map_cons, List.nodup_cons] at hn
    by_cases hk : k = k'
    · subst hk
      have hnot : ∀ v, (k, v) ∉ xs := fun v hv => hn.1 (List.mem_map_of_mem hv)
      simp [hnot, eq_comm]
    · simp [List.lookup_cons, hk, ih hn.2, beq_eq_false_iff_ne.2 hk]

theorem mem_keys {d : Dict V} {k : String} : k ∈ d.keys ↔ ∃ v, d.get? k = some v := by
  simp only [keys, List.mem_map, ← mem_items]
  constructor
  · rintro ⟨⟨k', v⟩, h, rfl⟩
    exact ⟨v, h⟩
  · rintro ⟨v, h⟩
    exact ⟨(k, v), h, rfl⟩

theorem get?_eq_none {d : Dict V} {k : String} : d.get? k = none ↔ k ∉ d.keys := by
  rw [mem_keys]
  cases d.get? k <;> simp

theorem get?_filter {d : Dict V} {p : String → V → Bool} {k : String} {v : V} :
    (d.filter p).get? k = some v ↔ d.get? k = some v ∧ p k v = true := by
  rw [← mem_items, ← mem_items, filter, List.mem_filter]

theorem get?_erase {d : Dict V} {k k' : String} {v : V} :
    (d.erase k).get? k' = some v ↔ d.get? k' = some v ∧ k' ≠ k := by
  rw [erase, get?_filter]
  simp

theorem get?_add {d : Dict V} {k : String} {v : V} (h : k ∉ d.keys) {k' : String} {v' : V} :
    (d.add k v h).get? k' = some v' ↔ d.get? k' = some v' ∨ (k' = k ∧ v' = v) := by
  rw [← mem_items, ← mem_items]
  simp [add]

theorem get?_set {d : Dict V} {k k' : String} {v v' : V} :
    (d.set k v).get? k' = some v' ↔ if k' = k then v' = v else d.get? k' = some v' := by
  unfold set
  split
  · next hmem =>
    rw [← mem_items, ← mem_items, List.mem_map]
    obtain ⟨w, hw⟩ := mem_keys.1 hmem
    rw [← mem_items] at hw
    constructor
    · rintro ⟨x, hx, heq⟩
      by_cases hk : x.1 = k
      · rw [if_pos hk] at heq
        cases heq
        rw [if_pos rfl]
      · rw [if_neg hk] at heq
        rw [heq] at hk hx
        rwa [if_neg hk]
    · intro h
      by_cases hk : k' = k
      · rw [if_pos hk] at h
        exact ⟨(k, w), hw, by rw [if_pos rfl, hk, h]⟩
      · rw [if_neg hk] at h
        exact ⟨(k', v'), h, if_neg hk⟩
  · next hnot =>
    rw [get?_add]
    by_cases hk : k' = k
    · rw [if_pos hk, hk, get?_eq_none.2 hnot]
      simp
    · simp [hk]

theorem get?_ofKeys {ks : List String} (h : ks.Nodup) {f : String → V} {k : String} {v : V} :
    (ofKeys ks h f).get? k = some v ↔ k ∈ ks ∧ v = f k := by
  rw [← mem_items]
  simp only [ofKeys, List.mem_map, Prod.mk.injEq]
  constructor
  · rintro ⟨a, ha, rfl, rfl⟩
    exact ⟨ha, rfl⟩
  · rintro ⟨hk, rfl⟩
    exact ⟨k, hk, rfl, rfl⟩

@[simp] theorem keys_map {d : Dict V} (f : V → W) : (d.map f).keys = d.keys := by
  simp [map, keys, Function.comp_def]

theorem get?_map {d : Dict V} {f : V → W} {k : String} {w : W} :
    (d.map f).get? k = some w ↔ ∃ v, d.get? k = some v ∧ f v = w := by
  simp only [← mem_items, map, List.mem_map, Prod.mk.injEq]
  constructor
  · rintro ⟨x, hx, rfl, rfl⟩
    exact ⟨x.2, hx, rfl⟩
  · rintro ⟨v, hv, rfl⟩
    exact ⟨(k, v), hv, rfl, rfl⟩

@[simp] theorem keys_ofKeys {ks : List String} (h : ks.Nodup) {f : String → V} :
    (ofKeys ks h f).keys = ks := by
  simp [ofKeys, keys, Function.comp_def]

end Dict

end Py
