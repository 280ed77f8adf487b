import DkcLinux.Text.Json
import DkcLinux.Text.Dict

/-!
# Dicts written as JSON objects

A dict is written without its null fields (`dropNone`) and with its keys sorted; `wire` is what a
reader gets for it. Where no object repeats a key (`distinct`), a field is found there by its key
(`lookup_wire`).
-/

namespace Json

def isNull : Json → Bool
  | .null => true
  | _ => false

mutual

/-- `_drop_none`. -/
def dropNone : Json → Json
  | .arr vs => .arr (dropItems vs)
  | .obj fs => .obj (dropFields fs)
  | .null => .null
  | .bool b => .bool b
  | .int n => .int n
  | .float l => .float l
  | .str s => .str s

def dropItems : List Json → List Json
  | [] => []
  | v :: vs => dropNone v :: dropItems vs

def dropFields : List (String × Json) → List (String × Json)
  | [] => []
  | f :: fs => if isNull f.2 then dropFields fs else (f.1, dropNone f.2) :: dropFields fs

end

mutual

/-- No key twice in one object. -/
def distinct : Json → Bool
  | .arr vs => distinctItems vs
  | .obj fs => (fs.map (·.1)).Nodup && distinctFields fs
  | _ => true

def distinctItems : List Json → Bool
  | [] => true
  | v :: vs => distinct v && distinctItems vs

def distinctFields : List (String × Json) → Bool
  | [] => true
  | f :: fs => distinct f.2 && distinctFields fs

end

mutual

/-- No null anywhere. -/
def noNulls : Json → Bool
  | .null => false
  | .arr vs => noNullItems vs
  | .obj fs => noNullFields fs
  | _ => true

def noNullItems : List Json → Bool
  | [] => true
  | v :: vs => noNulls v && noNullItems vs

def noNullFields : List (String × Json) → Bool
  | [] => true
  | f :: fs => noNulls f.2 && noNullFields fs

end

/-! ## Distinct keys and floats -/

mutual

theorem clean_iff : ∀ v : Json, v.Clean ↔ v.distinct = true ∧ v.rejectFloats = false
  | .null | .bool _ | .int _ | .str _ => by simp [Clean, distinct, rejectFloats]
  | .float _ => by simp [Clean, rejectFloats]
  | .arr vs => cleanItems_iff vs
  | .obj fs => by
    simp only [Clean, distinct, rejectFloats, Bool.and_eq_true, decide_eq_true_eq, cleanFields_iff' fs,
      and_assoc]

theorem cleanItems_iff : ∀ vs : List Json,
    CleanItems vs ↔ distinctItems vs = true ∧ rejectFloatsItems vs = false
  | [] => by simp [CleanItems, distinctItems, rejectFloatsItems]
  | v :: vs => by
    simp only [CleanItems, distinctItems, rejectFloatsItems, Bool.and_eq_true, Bool.or_eq_false_iff,
      clean_iff v, cleanItems_iff vs]
    tauto

theorem cleanFields_iff' : ∀ fs : List (String × Json),
    CleanFields fs ↔ distinctFields fs = true ∧ rejectFloatsFields fs = false
  | [] => by simp [CleanFields, distinctFields, rejectFloatsFields]
  | f :: fs => by
    simp only [CleanFields, distinctFields, rejectFloatsFields, Bool.and_eq_true, Bool.or_eq_false_iff,
      clean_iff f.2, cleanFields_iff' fs]
    tauto

end

theorem distinctFields_iff {fs : List (String × Json)} :
    distinctFields fs = true ↔ ∀ f ∈ fs, f.2.distinct = true := by
  induction fs with
  | nil => simp [distinctFields]
  | cons f fs ih => simp [distinctFields, ih]

theorem distinctItems_map {α : Type} {write : α → Json} (h : ∀ a, (write a).distinct = true) (xs : List α) :
    distinctItems (xs.map write) = true := by
  induction xs with
  | nil => rfl
  | cons x xs ih => rw [List.map_cons, distinctItems, h, ih]; rfl

theorem dropFields_keys (fs : List (String × Json)) :
    (dropFields fs).map (·.1) = (fs.filter fun f => !isNull f.2).map (·.1) := by
  induction fs with
  | nil => rfl
  | cons f fs ih =>
    cases h : isNull f.2 <;> simp [dropFields, h, ih]

theorem dropFields_nodup {fs : List (String × Json)} (h : (fs.map (·.1)).Nodup) :
    ((dropFields fs).map (·.1)).Nodup := by
  rw [dropFields_keys]
  exact h.sublist (List.filter_sublist.map _)

mutual

theorem distinct_dropNone : ∀ v : Json, v.distinct = true → v.dropNone.distinct = true
  | .null, h | .bool _, h | .int _, h | .float _, h | .str _, h => h
  | .arr vs, h => distinct_dropItems vs h
  | .obj fs, h => by
    simp only [distinct, Bool.and_eq_true, decide_eq_true_eq] at h
    simp only [dropNone, distinct, Bool.and_eq_true, decide_eq_true_eq]
    exact ⟨dropFields_nodup h.1, distinct_dropFields fs h.2⟩

theorem distinct_dropItems : ∀ vs : List Json, distinctItems vs = true →
    distinctItems (dropItems vs) = true
  | [], _ => rfl
  | v :: vs, h => by
    simp only [distinctItems, Bool.and_eq_true] at h
    simp only [dropItems, distinctItems, Bool.and_eq_true]
    exact ⟨distinct_dropNone v h.1, distinct_dropItems vs h.2⟩

theorem distinct_dropFields : ∀ fs : List (String × Json), distinctFields fs = true →
    distinctFields (dropFields fs) = true
  | [], _ => rfl
  | f :: fs, h => by
    simp only [distinctFields, Bool.and_eq_true] at h
    have ih := distinct_dropFields fs h.2
    cases hn : isNull f.2 with
    | true => rw [dropFields, if_pos hn]; exact ih
    | false =>
      rw [dropFields, if_neg (by simp [hn]), distinctFields, Bool.and_eq_true]
      exact ⟨distinct_dropNone f.2 h.1, ih⟩

end

theorem rejectFloatsFields_iff {fs : List (String × Json)} :
    rejectFloatsFields fs = false ↔ ∀ f ∈ fs, f.2.rejectFloats = false := by
  induction fs with
  | nil => simp [rejectFloatsFields]
  | cons f fs ih => simp [rejectFloatsFields, ih]

theorem rejectFloatsItems_map {α : Type} {write : α → Json} (h : ∀ a, (write a).rejectFloats = false)
    (xs : List α) : rejectFloatsItems (xs.map write) = false := by
  induction xs with
  | nil => rfl
  | cons x xs ih => rw [List.map_cons, rejectFloatsItems, h, ih]; rfl

mutual

/-- Dropping nulls adds no float. -/
theorem rejectFloats_dropNone : ∀ v : Json, v.rejectFloats = false → v.dropNone.rejectFloats = false
  | .null, _ | .bool _, _ | .int _, _ | .str _, _ => rfl
  | .float _, h => h
  | .arr vs, h => rejectFloats_dropItems vs h
  | .obj fs, h => rejectFloats_dropFields fs h

theorem rejectFloats_dropItems : ∀ vs : List Json, rejectFloatsItems vs = false →
    rejectFloatsItems (dropItems vs) = false
  | [], _ => rfl
  | v :: vs, h => by
    simp only [rejectFloatsItems, Bool.or_eq_false_iff] at h
    simp only [dropItems, rejectFloatsItems, Bool.or_eq_false_iff]
    exact ⟨rejectFloats_dropNone v h.1, rejectFloats_dropItems vs h.2⟩

theorem rejectFloats_dropFields : ∀ fs : List (String × Json), rejectFloatsFields fs = false →
    rejectFloatsFields (dropFields fs) = false
  | [], _ => rfl
  | f :: fs, h => by
    simp only [rejectFloatsFields, Bool.or_eq_false_iff] at h
    have ih := rejectFloats_dropFields fs h.2
    cases hn : isNull f.2 with
    | true => rw [dropFields, if_pos hn]; exact ih
    | false =>
      rw [dropFields, if_neg (by simp [hn]), rejectFloatsFields, Bool.or_eq_false_iff]
      exact ⟨rejectFloats_dropNone f.2 h.1, ih⟩

end

mutual

theorem distinct_sortKeys : ∀ v : Json, v.distinct = true → v.sortKeys.distinct = true
  | .null, h | .bool _, h | .int _, h | .float _, h | .str _, h => h
  | .arr vs, h => distinct_sortItems vs h
  | .obj fs, h => by
    simp only [distinct, Bool.and_eq_true, decide_eq_true_eq] at h
    have hperm := Py.perm_sortedItems (sortFields fs)
    simp only [sortKeys, distinct, Bool.and_eq_true, decide_eq_true_eq]
    refine ⟨?_, distinctFields_iff.2 fun f hf => ?_⟩
    · rw [(hperm.map _).nodup_iff, sortFields_keys]
      exact h.1
    · exact distinctFields_iff.1 (distinct_sortFields fs h.2) f (hperm.mem_iff.1 hf)

theorem distinct_sortItems : ∀ vs : List Json, distinctItems vs = true →
    distinctItems (sortItems vs) = true
  | [], _ => rfl
  | v :: vs, h => by
    simp only [distinctItems, Bool.and_eq_true] at h
    simp only [sortItems, distinctItems, Bool.and_eq_true]
    exact ⟨distinct_sortKeys v h.1, distinct_sortItems vs h.2⟩

theorem distinct_sortFields : ∀ fs : List (String × Json), distinctFields fs = true →
    distinctFields (sortFields fs) = true
  | [], _ => rfl
  | f :: fs, h => by
    simp only [distinctFields, Bool.and_eq_true] at h
    simp only [sortFields, distinctFields, Bool.and_eq_true]
    exact ⟨distinct_sortKeys f.2 h.1, distinct_sortFields fs h.2⟩

end

mutual

/-- There is nothing to drop where there is no null. -/
theorem dropNone_eq : ∀ v : Json, v.noNulls = true → v.dropNone = v
  | .null, h => by simp [noNulls] at h
  | .bool _, _ | .int _, _ | .float _, _ | .str _, _ => rfl
  | .arr vs, h => congrArg Json.arr (dropItems_eq vs h)
  | .obj fs, h => congrArg Json.obj (dropFields_eq fs h)

theorem dropItems_eq : ∀ vs : List Json, noNullItems vs = true → dropItems vs = vs
  | [], _ => rfl
  | v :: vs, h => by
    simp only [noNullItems, Bool.and_eq_true] at h
    rw [dropItems, dropNone_eq v h.1, dropItems_eq vs h.2]

theorem dropFields_eq : ∀ fs : List (String × Json), noNullFields fs = true → dropFields fs = fs
  | [], _ => rfl
  | f :: fs, h => by
    simp only [noNullFields, Bool.and_eq_true] at h
    have hn : isNull f.2 = false := by
      cases hf : f.2 with
      | null => rw [hf] at h; simp [noNulls] at h
      | _ => rfl
    rw [dropFields, if_neg (by simp [hn]), dropNone_eq f.2 h.1, dropFields_eq fs h.2]

end

@[simp] theorem dropItems_map (vs : List Json) : dropItems vs = vs.map dropNone := by
  induction vs with
  | nil => rfl
  | cons v vs ih => rw [dropItems, ih, List.map_cons]

@[simp] theorem sortItems_map (vs : List Json) : sortItems vs = vs.map sortKeys := by
  induction vs with
  | nil => rfl
  | cons v vs ih => rw [sortItems, ih, List.map_cons]

theorem sortFields_map (fs : List (String × Json)) : sortFields fs = fs.map fun f => (f.1, f.2.sortKeys) := by
  induction fs with
  | nil => rfl
  | cons f fs ih => rw [sortFields, ih, List.map_cons]

/-! ## Sorting twice -/

theorem sortedItems_sorted {V : Type} (d : List (String × V)) :
    Py.sortedItems (Py.sortedItems d) = Py.sortedItems d :=
  List.Pairwise.insertionSort_eq (List.pairwise_insertionSort (fun a b : String × V => a.1 ≤ b.1) d)

mutual

theorem sortKeys_sortKeys : ∀ v : Json, v.sortKeys.sortKeys = v.sortKeys
  | .null | .bool _ | .int _ | .float _ | .str _ => rfl
  | .arr vs => congrArg Json.arr (sortItems_sortItems vs)
  | .obj fs => by
    have hmem : ∀ f ∈ Py.sortedItems (sortFields fs), f.2.sortKeys = f.2 := fun f hf =>
      sortFields_sorted fs f (Py.mem_sortedItems.1 hf)
    have hfix : sortFields (Py.sortedItems (sortFields fs)) = Py.sortedItems (sortFields fs) := by
      rw [sortFields_map]
      conv_rhs => rw [← List.map_id (Py.sortedItems (sortFields fs))]
      exact List.map_congr_left fun f hf => Prod.ext rfl (hmem f hf)
    rw [sortKeys, sortKeys, hfix, sortedItems_sorted]

theorem sortItems_sortItems : ∀ vs : List Json, sortItems (sortItems vs) = sortItems vs
  | [] => rfl
  | v :: vs => by rw [sortItems, sortItems, sortKeys_sortKeys v, sortItems_sortItems vs]

theorem sortFields_sorted : ∀ fs : List (String × Json), ∀ f ∈ sortFields fs, f.2.sortKeys = f.2
  | [], f, hf => by simp [sortFields] at hf
  | g :: fs, f, hf => by
    rw [sortFields, List.mem_cons] at hf
    rcases hf with rfl | hf
    · exact sortKeys_sortKeys g.2
    · exact sortFields_sorted fs f hf

end

/-! ## Fields by key -/

theorem mem_iff_lookup {V : Type} {fs : List (String × V)} (h : (fs.map (·.1)).Nodup) {k : String} {v : V} :
    (k, v) ∈ fs ↔ fs.lookup k = some v :=
  @Py.Dict.mem_items V ⟨fs, h⟩ k v

theorem lookup_perm {V : Type} {fs gs : List (String × V)} (h : fs.Perm gs) (hn : (fs.map (·.1)).Nodup)
    (k : String) : fs.lookup k = gs.lookup k := by
  apply Option.ext
  intro v
  rw [← mem_iff_lookup hn, ← mem_iff_lookup ((h.map _).nodup_iff.1 hn), h.mem_iff]

theorem lookup_dropFields : ∀ {fs : List (String × Json)}, (fs.map (·.1)).Nodup → ∀ k : String,
    (dropFields fs).lookup k = (fs.lookup k).bind fun v => if isNull v then none else some v.dropNone
  | [], _, _ => rfl
  | (k', v) :: fs, h, k => by
    rw [List.map_cons, List.nodup_cons] at h
    have ih := lookup_dropFields h.2 k
    by_cases hk : k = k'
    · subst hk
      have hnone : fs.lookup k = none := by
        rw [Option.eq_none_iff_forall_ne_some]
        intro w hw
        have hkey : k ∉ fs.map (·.1) := h.1
        have hmem : (k, w) ∈ fs := (mem_iff_lookup h.2).2 hw
        exact hkey (List.mem_map_of_mem hmem)
      cases hn : isNull v <;> simp [dropFields, hn, ih, hnone]
    · have hne : (k == k') = false := by simpa using hk
      cases hn : isNull v <;> simp [dropFields, hn, ih, List.lookup_cons, hne]

theorem lookup_sortFields (fs : List (String × Json)) (k : String) :
    (sortFields fs).lookup k = (fs.lookup k).map sortKeys := by
  induction fs with
  | nil => rfl
  | cons f fs ih =>
    obtain ⟨k', v⟩ := f
    by_cases hk : k = k'
    · simp [sortFields, hk]
    · have hne : (k == k') = false := by simpa using hk
      simp [sortFields, List.lookup_cons, hne, ih]

/-- A field of a dict is found in what is written of it, too. -/
theorem lookup_sortKeys {fs : List (String × Json)} (h : (fs.map (·.1)).Nodup) (k : String) :
    (Py.sortedItems (sortFields fs)).lookup k = (fs.lookup k).map sortKeys := by
  have hn : ((sortFields fs).map (·.1)).Nodup := by rwa [sortFields_keys]
  rw [← lookup_perm (Py.perm_sortedItems (sortFields fs)).symm hn, lookup_sortFields]

/-- The items of the object a reader gets for a dict. -/
def wireFields (fs : List (String × Json)) : List (String × Json) :=
  Py.sortedItems (sortFields (dropFields fs))

/-- What a reader gets for a value. -/
def wire (v : Json) : Json := v.dropNone.sortKeys

theorem wire_obj (fs : List (String × Json)) : wire (.obj fs) = .obj (wireFields fs) := rfl

theorem wire_arr (vs : List Json) : wire (.arr vs) = .arr (vs.map wire) := by
  rw [wire, dropNone, sortKeys, dropItems_map, sortItems_map, List.map_map]
  rfl

/-- **A field of the dict is found by its key**, unless it was null. -/
theorem lookup_wire {fs : List (String × Json)} (h : (fs.map (·.1)).Nodup) (k : String) :
    (wireFields fs).lookup k = (fs.lookup k).bind fun v => if isNull v then none else some v.wire := by
  have hn : ((sortFields (dropFields fs)).map (·.1)).Nodup := by
    rw [sortFields_keys]
    exact dropFields_nodup h
  have hperm := Py.perm_sortedItems (sortFields (dropFields fs))
  rw [wireFields, ← lookup_perm hperm.symm hn, lookup_sortFields, lookup_dropFields h]
  cases fs.lookup k with
  | none => rfl
  | some v => cases hv : isNull v <;> simp [hv, wire]

@[simp] theorem wire_str (s : String) : (Json.str s).wire = .str s := rfl
@[simp] theorem wire_int (n : Int) : (Json.int n).wire = .int n := rfl
@[simp] theorem wire_bool (b : Bool) : (Json.bool b).wire = .bool b := rfl
@[simp] theorem isNull_str (s : String) : (Json.str s).isNull = false := rfl
@[simp] theorem isNull_int (n : Int) : (Json.int n).isNull = false := rfl
@[simp] theorem isNull_bool (b : Bool) : (Json.bool b).isNull = false := rfl
@[simp] theorem isNull_arr (vs : List Json) : (Json.arr vs).isNull = false := rfl
@[simp] theorem isNull_obj (fs : List (String × Json)) : (Json.obj fs).isNull = false := rfl

theorem distinct_wire {v : Json} (h : v.distinct = true) : v.wire.distinct = true :=
  distinct_sortKeys _ (distinct_dropNone v h)

theorem wireFields_keys {fs : List (String × Json)} {k : String} (h : k ∈ (wireFields fs).map (·.1)) :
    k ∈ fs.map (·.1) := by
  rw [wireFields, ((Py.perm_sortedItems _).map _).mem_iff, sortFields_keys, dropFields_keys] at h
  exact (List.filter_sublist.map _).subset h

end Json
