import Mathlib.Data.List.AList

/-!
# A linearizable conditional store

A key holds at most one value with an entity tag. A write names its condition (`Cond`): the key
is absent, or it still carries a given tag. Every successful write gets a tag no write had
before, so a tag stands for one write: `Evolves` is what any number of operations of any number
of clients can do to a store, and `Evolves.stale` says that a tag that left a key stays away.
-/

namespace Conc

/-- A stored value and the tag of the write that put it there. -/
structure Entry (V : Type) where
  value : V
  etag : Nat
deriving Repr, DecidableEq

inductive Cond where
  | ifNoneMatch
  | ifMatch (etag : Nat)
deriving Repr, DecidableEq

namespace Cond

/-- Whether a write is allowed against what the key holds. -/
def holds {V : Type} : Cond → Option (Entry V) → Bool
  | .ifNoneMatch, none => true
  | .ifMatch e, some x => x.etag == e
  | _, _ => false

@[simp] theorem holds_ifNoneMatch {V : Type} {x : Option (Entry V)} :
    ifNoneMatch.holds x = true ↔ x = none := by cases x <;> simp [holds]

@[simp] theorem holds_ifMatch {V : Type} {e : Nat} {x : Option (Entry V)} :
    (ifMatch e).holds x = true ↔ ∃ y, x = some y ∧ y.etag = e := by cases x <;> simp [holds]

end Cond

/-- The objects, and the next tag: every tag in use was issued before it. -/
structure CondStore (K V : Type) [DecidableEq K] where
  objects : AList fun _ : K => Entry V
  revision : Nat
  issued : ∀ k e, objects.lookup k = some e → e.etag < revision

namespace CondStore

variable {K V : Type} [DecidableEq K]

def empty : CondStore K V := ⟨∅, 0, fun _ _ h => by simp at h⟩

def get (s : CondStore K V) (k : K) : Option (Entry V) := s.objects.lookup k

/-- An unconditional write: the building block of `put`. -/
def write (s : CondStore K V) (k : K) (v : V) : CondStore K V where
  objects := s.objects.insert k ⟨v, s.revision⟩
  revision := s.revision + 1
  issued k' e h := by
    by_cases hk : k' = k
    · subst hk
      rw [AList.lookup_insert] at h
      cases h; exact Nat.lt_succ_self _
    · rw [AList.lookup_insert_ne hk] at h
      exact Nat.lt_succ_of_lt (s.issued k' e h)

def delete (s : CondStore K V) (k : K) : CondStore K V where
  objects := s.objects.erase k
  revision := s.revision
  issued k' e h := by
    by_cases hk : k' = k
    · subst hk; simp at h
    · rw [AList.lookup_erase_ne hk] at h; exact s.issued k' e h

/-- The conditional write: the new entry, or nothing and the store as it was. -/
def put (s : CondStore K V) (k : K) (v : V) (c : Cond) : Option (Entry V) × CondStore K V :=
  if c.holds (s.get k) then (some ⟨v, s.revision⟩, s.write k v) else (none, s)

@[simp] theorem get_empty (k : K) : (empty : CondStore K V).get k = none := rfl

@[simp] theorem get_write_self (s : CondStore K V) (k : K) (v : V) :
    (s.write k v).get k = some ⟨v, s.revision⟩ := AList.lookup_insert _

theorem get_write_ne (s : CondStore K V) {k k' : K} (v : V) (h : k' ≠ k) :
    (s.write k v).get k' = s.get k' := AList.lookup_insert_ne h

theorem get_write (s : CondStore K V) (k k' : K) (v : V) :
    (s.write k v).get k' = if k' = k then some ⟨v, s.revision⟩ else s.get k' := by
  split
  · next h => subst h; exact get_write_self s k' v
  · next h => exact get_write_ne s v h

@[simp] theorem revision_write (s : CondStore K V) (k : K) (v : V) :
    (s.write k v).revision = s.revision + 1 := rfl

@[simp] theorem get_delete_self (s : CondStore K V) (k : K) : (s.delete k).get k = none :=
  AList.lookup_erase _ _

theorem get_delete_ne (s : CondStore K V) {k k' : K} (h : k' ≠ k) :
    (s.delete k).get k' = s.get k' := AList.lookup_erase_ne h

@[simp] theorem revision_delete (s : CondStore K V) (k : K) : (s.delete k).revision = s.revision :=
  rfl

/-- The two outcomes of a conditional write. -/
theorem put_cases (s : CondStore K V) (k : K) (v : V) (c : Cond) :
    (c.holds (s.get k) = true ∧ s.put k v c = (some ⟨v, s.revision⟩, s.write k v)) ∨
      (c.holds (s.get k) = false ∧ s.put k v c = (none, s)) := by
  unfold put
  cases h : c.holds (s.get k)
  · exact .inr ⟨rfl, by simp⟩
  · exact .inl ⟨rfl, by simp⟩

theorem etag_lt {s : CondStore K V} {k : K} {e : Entry V} (h : s.get k = some e) :
    e.etag < s.revision := s.issued k e h

/-! ## What any number of operations can do -/

/-- Every object is the entry it was, or was written since. -/
structure Evolves (s s' : CondStore K V) : Prop where
  revision : s.revision ≤ s'.revision
  fresh : ∀ k e, s'.get k = some e → s.get k = some e ∨ s.revision ≤ e.etag

theorem Evolves.refl (s : CondStore K V) : Evolves s s := ⟨le_refl _, fun _ _ h => .inl h⟩

theorem Evolves.trans {a b c : CondStore K V} (h : Evolves a b) (h' : Evolves b c) :
    Evolves a c where
  revision := Nat.le_trans h.revision h'.revision
  fresh k e he := by
    rcases h'.fresh k e he with hb | hb
    · exact h.fresh k e hb
    · exact .inr (Nat.le_trans h.revision hb)

theorem evolves_write (s : CondStore K V) (k : K) (v : V) : Evolves s (s.write k v) where
  revision := Nat.le_succ _
  fresh k' e he := by
    rw [get_write] at he
    split at he
    · cases he; exact .inr le_rfl
    · exact .inl he

theorem evolves_delete (s : CondStore K V) (k : K) : Evolves s (s.delete k) where
  revision := le_rfl
  fresh k' e he := by
    by_cases hk : k' = k
    · subst hk; simp at he
    · rw [get_delete_ne s hk] at he; exact .inl he

theorem evolves_put (s : CondStore K V) (k : K) (v : V) (c : Cond) : Evolves s (s.put k v c).2 := by
  rcases s.put_cases k v c with ⟨_, h⟩ | ⟨_, h⟩ <;> rw [h]
  · exact evolves_write s k v
  · exact .refl s

/-- A tag determines its entry: a key that shows an issued tag showed that entry before. -/
theorem Evolves.same {s s' : CondStore K V} (h : Evolves s s') {k : K} {e : Entry V}
    (ht : e.etag < s.revision) (hs' : s'.get k = some e) : s.get k = some e :=
  (h.fresh k e hs').resolve_right (Nat.not_le.2 ht)

/-- A tag that is not on a key any more never returns to it. -/
theorem Evolves.stale {s s' : CondStore K V} (h : Evolves s s') {k : K} {t : Nat}
    (ht : t < s.revision) (hs : ∀ e, s.get k = some e → e.etag ≠ t) :
    ∀ e, s'.get k = some e → e.etag ≠ t := by
  intro e he
  rcases h.fresh k e he with h' | h'
  · exact hs e h'
  · omega

end CondStore

end Conc
