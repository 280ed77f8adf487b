import DkcLinux.LifecycleRest
import DkcLinux.StoreSem
import Mathlib.Algebra.BigOperators.Group.List.Basic

/-!
# Whole-storage accounting (`dkc/storage_budget.py`)

`project_storage` applies the intended writes and deletions to a listed namespace. `project_ok` says
what it computes: a dict that has for each key the size of its write, nothing for a deletion, and what was
listed otherwise. A store that holds this has the projected number of objects and bytes (`Counts.exact`).
-/

open Py

structure StorageProjection where
  object_count : Int
  size : Int
  valid : 0 ≤ object_count ∧ 0 ≤ size
deriving DecidableEq

/-- `StorageProjection.__post_init__`. -/
def StorageProjection.make (object_count size : Int) : Except PyErr StorageProjection :=
  if h : 0 ≤ object_count ∧ 0 ≤ size then .ok ⟨object_count, size, h⟩
  else .error (.ValueError "storage projection must not be negative")

namespace StorageBudget

/-- One object of the listing. -/
def addCurrent (objects : Dict Int) (current_item : String × Int) : Except PyErr (Dict Int) :=
  if h : current_item.1 ∈ objects.keys then .error (.ValueError "current storage inventory is malformed")
  else if current_item.2 < 0 then .error (.ValueError "current storage inventory is malformed")
  else .ok (objects.add current_item.1 current_item.2 h)

/-- One write, after those of `write_keys`. -/
def addWrite (state : List String × Dict Int) (write : String × Int) : Except PyErr (List String × Dict Int) :=
  if write.1 ∈ state.1 ∨ write.2 < 0 then .error (.ValueError "publication storage inventory is malformed")
  else .ok (write.1 :: state.1, state.2.set write.1 write.2)

/-- The deletions, after the writes of `write_keys`. -/
def removeAll (write_keys : List String) (objects : Dict Int) (deletions : List String) : Except PyErr (Dict Int) :=
  if ¬ deletions.Nodup then .error (.ValueError "storage deletion inventory repeats a key")
  else if ∃ key ∈ write_keys, key ∈ deletions then
    .error (.ValueError "storage projection would both write and delete an object")
  else .ok (objects.filter fun key _ => key ∉ deletions)

def total (objects : Dict Int) : Int := (objects.items.map (·.2)).sum

/-- The keys and sizes of `current` and of `writes`, and the keys of `deletions`. -/
def project_storage (current writes : List (String × Int)) (deletions : List String) :
    Except PyErr StorageProjection := do
  let objects ← current.foldlM addCurrent .empty
  let (write_keys, objects) ← writes.foldlM addWrite ([], objects)
  let objects ← removeAll write_keys objects deletions
  StorageProjection.make objects.items.length (total objects)

/-! ## What is projected -/

theorem addCurrent_ok {current : List (String × Int)} {start objects : Dict Int}
    (h : current.foldlM addCurrent start = .ok objects) : objects.items = start.items ++ current := by
  induction current generalizing start with
  | nil =>
    cases h
    simp
  | cons x current ih =>
    rw [List.foldlM_cons] at h
    obtain ⟨next, hnext, h⟩ := except_bind_eq_ok.1 h
    unfold addCurrent at hnext
    split at hnext
    · cases hnext
    · rw [except_check_eq_ok] at hnext
      obtain ⟨-, hnext⟩ := hnext
      cases hnext
      rw [ih h, Dict.add, List.append_assoc, List.singleton_append]

/-- The sizes after the writes. -/
def Written (writes : List (String × Int)) (start objects : Dict Int) : Prop :=
  ∀ k n, objects.get? k = some n ↔ (k, n) ∈ writes ∨ k ∉ writes.map (·.1) ∧ start.get? k = some n

theorem addWrite_ok {writes : List (String × Int)} {keys write_keys : List String} {start objects : Dict Int}
    (h : writes.foldlM addWrite (keys, start) = .ok (write_keys, objects)) :
    (∀ k, k ∈ write_keys ↔ k ∈ writes.map (·.1) ∨ k ∈ keys) ∧ (writes.map (·.1)).Nodup ∧
      (∀ k ∈ writes.map (·.1), k ∉ keys) ∧ Written writes start objects := by
  induction writes generalizing keys start with
  | nil =>
    cases h
    simp [Written]
  | cons x writes ih =>
    rw [List.foldlM_cons] at h
    obtain ⟨next, hnext, h⟩ := except_bind_eq_ok.1 h
    unfold addWrite at hnext
    rw [except_check_eq_ok, not_or] at hnext
    obtain ⟨⟨hnew, -⟩, hnext⟩ := hnext
    cases hnext
    obtain ⟨hkeys, hnodup, hfresh, hwritten⟩ := ih h
    have hx : x.1 ∉ writes.map (·.1) := fun hmem => hfresh x.1 hmem List.mem_cons_self
    refine ⟨fun k => ?_, List.nodup_cons.2 ⟨hx, hnodup⟩, ?_, fun k n => ?_⟩
    · rw [hkeys, List.map_cons, List.mem_cons, List.mem_cons]
      tauto
    · intro k hk
      rcases List.mem_cons.1 hk with rfl | hk
      · exact hnew
      · exact fun hmem => hfresh k hk (List.mem_cons_of_mem _ hmem)
    · rw [hwritten, Dict.get?_set, List.map_cons, List.mem_cons, List.mem_cons]
      by_cases hk : k = x.1
      · have hnot : (k, n) ∉ writes := fun hmem => hx (hk ▸ List.mem_map_of_mem hmem)
        have heq : (k, n) = x ↔ n = x.2 := ⟨fun h => by rw [← h], fun h => Prod.ext hk h⟩
        have hk' : k ∉ writes.map (·.1) := hk ▸ hx
        rw [if_pos hk, heq]
        tauto
      · have hne : (k, n) ≠ x := fun h => hk (by rw [← h])
        rw [if_neg hk]
        simp [hne, hk]

/-- What is left of a listing after writes and deletions. -/
def Left (current writes : List (String × Int)) (deletions : List String) (k : String) (n : Int) : Prop :=
  k ∉ deletions ∧ ((k, n) ∈ writes ∨ k ∉ writes.map (·.1) ∧ (k, n) ∈ current)

/-- A projection counts what is left. -/
structure Counts (current writes : List (String × Int)) (deletions : List String) (projection : StorageProjection)
    (objects : Dict Int) : Prop where
  left : ∀ k n, objects.get? k = some n ↔ Left current writes deletions k n
  object_count : projection.object_count = objects.items.length
  size : projection.size = total objects

theorem project_ok {current writes : List (String × Int)} {deletions : List String} {projection : StorageProjection}
    (h : project_storage current writes deletions = .ok projection) :
    (∃ objects, Counts current writes deletions projection objects) ∧ (writes.map (·.1)).Nodup ∧
      ∀ key ∈ writes.map (·.1), key ∉ deletions := by
  obtain ⟨listed, hlisted, h⟩ := except_bind_eq_ok.1 h
  obtain ⟨⟨write_keys, written⟩, hwritten, h⟩ := except_bind_eq_ok.1 h
  obtain ⟨objects, hobjects, h⟩ := except_bind_eq_ok.1 h
  obtain ⟨hkeys, hnodup, -, hwrites⟩ := addWrite_ok hwritten
  unfold removeAll at hobjects
  rw [except_check_eq_ok, except_check_eq_ok] at hobjects
  obtain ⟨-, hdisjoint, hobjects⟩ := hobjects
  cases hobjects
  unfold StorageProjection.make at h
  split at h
  · cases h
    refine ⟨⟨_, fun k n => ?_, rfl, rfl⟩, hnodup, fun key hkey hmem => hdisjoint ⟨key, ?_, hmem⟩⟩
    · rw [Dict.get?_filter, hwrites, ← Dict.mem_items, addCurrent_ok hlisted, Left, decide_eq_true_eq, and_comm]
      rfl
    · exact (hkeys key).2 (.inl hkey)
  · cases h

/-! ## A store that holds what is projected -/

/-- The keys and the sizes of a listing. -/
def listed (inventory : List (String × Nat)) : List (String × Int) := inventory.map fun x => (x.1, (x.2 : Int))

theorem mem_listed {s : Store} {k : String} {n : Int} :
    (k, n) ∈ listed (s.listing "") ↔ ∃ x, s.get k = some x ∧ (x.value.body.size : Int) = n := by
  have hall : startswith k "" = true := by simp [startswith]
  unfold listed
  rw [List.mem_map]
  constructor
  · rintro ⟨⟨k', m⟩, hmem, heq⟩
    cases heq
    obtain ⟨-, x, hget, rfl⟩ := Store.mem_listing.1 hmem
    exact ⟨x, hget, rfl⟩
  · rintro ⟨x, hget, rfl⟩
    exact ⟨(k, x.value.body.size), Store.mem_listing.2 ⟨hall, x, hget, rfl⟩, rfl⟩

/-- The number of objects and bytes of a store are those of a projection. -/
structure Exact (projection : StorageProjection) (s : Store) : Prop where
  object_count : ((s.listing "").length : Int) = projection.object_count
  size : Lifecycle.storage_size (s.listing "") = projection.size

theorem sum_listed (inventory : List (String × Nat)) :
    ((listed inventory).map (·.2)).sum = Lifecycle.storage_size inventory := by
  rw [Lifecycle.storage_size, listed, List.map_map]
  induction inventory with
  | nil => rfl
  | cons x inventory ih =>
    rw [List.map_cons, List.sum_cons, ih, List.map_cons, List.sum_cons]
    simp

theorem Counts.exact {current writes : List (String × Int)} {deletions : List String} {projection : StorageProjection}
    {objects : Dict Int} (h : Counts current writes deletions projection objects) {s : Store}
    (hs : ∀ k n, (k, n) ∈ listed (s.listing "") ↔ Left current writes deletions k n) : Exact projection s := by
  have hnodup : ((listed (s.listing "")).map (·.1)).Nodup := by
    rw [listed, List.map_map]
    exact Store.nodup_listing s ""
  have hperm : (listed (s.listing "")).Perm objects.items := by
    refine (List.perm_ext_iff_of_nodup hnodup.of_map objects.nodup.of_map).2 ?_
    rintro ⟨k, n⟩
    rw [hs, Dict.mem_items, h.left]
  refine ⟨?_, ?_⟩
  · rw [h.object_count, ← hperm.length_eq, listed, List.length_map]
  · rw [h.size, total, ← (hperm.map _).sum_eq, sum_listed]

end StorageBudget
