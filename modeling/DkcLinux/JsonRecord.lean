import DkcLinux.Records
import DkcLinux.Text.Dict
import DkcLinux.Text.JsonWire

/-!
# Records as keyword arguments (`dkc/records.py:98-115`)

`to_dict` is `_drop_none(asdict(record))`; a record is read back by passing the items of the object
that was read as keyword arguments.
-/

namespace Kwargs

/-- No keyword argument but those of the constructor. -/
def check (names : List String) (fields : List (String × Json)) : Except PyErr Unit :=
  match fields.find? fun f => f.1 ∉ names with
  | some f => .error (.TypeError ("got an unexpected keyword argument " ++ f.1))
  | none => .ok ()

/-- A field without a default. -/
def required {α : Type} (fields : List (String × Json)) (name : String) (read : Json → Except PyErr α) :
    Except PyErr α :=
  match fields.lookup name with
  | some v => read v
  | none => .error (.TypeError ("missing a required argument: " ++ name))

/-- A field with a default. -/
def defaulted {α : Type} (fields : List (String × Json)) (name : String) (default : α)
    (read : Json → Except PyErr α) : Except PyErr α :=
  match fields.lookup name with
  | some v => read v
  | none => .ok default

/-- The fields without one that was popped. -/
def pop (fields : List (String × Json)) (name : String) : List (String × Json) :=
  fields.filter fun f => f.1 ≠ name

/-! A value of another type than the field's raises `TypeError` here; Python raises that or another
exception when the record is checked. -/

def str : Json → Except PyErr String
  | .str s => .ok s
  | _ => .error (.TypeError "str")

def int : Json → Except PyErr Int
  | .int n => .ok n
  | _ => .error (.TypeError "int")

def bool : Json → Except PyErr Bool
  | .bool b => .ok b
  | _ => .error (.TypeError "bool")

def list {α : Type} (read : Json → Except PyErr α) : Json → Except PyErr (List α)
  | .arr vs => vs.mapM read
  | _ => .error (.TypeError "list")

def obj : Json → Except PyErr (List (String × Json))
  | .obj fs => .ok fs
  | _ => .error (.TypeError "dict")

def orNone {α : Type} (read : Json → Except PyErr α) : Json → Except PyErr (Option α)
  | .null => .ok none
  | v => do return some (← read v)

/-- The value of a field that may be `None`. -/
def ofOption {α : Type} (write : α → Json) : Option α → Json
  | none => .null
  | some a => write a

@[simp] theorem str_str (s : String) : str (.str s) = .ok s := rfl
@[simp] theorem int_int (n : Int) : int (.int n) = .ok n := rfl
@[simp] theorem bool_bool (b : Bool) : bool (.bool b) = .ok b := rfl
@[simp] theorem obj_obj (fs : List (String × Json)) : obj (.obj fs) = .ok fs := rfl

/-- A list of values that read back reads back. -/
theorem list_wire {α : Type} {read : Json → Except PyErr α} {write : α → Json}
    (h : ∀ a, read (write a).wire = .ok a) (xs : List α) :
    list read (Json.arr (xs.map write)).wire = .ok xs := by
  rw [Json.wire_arr, list, List.map_map]
  induction xs with
  | nil => rfl
  | cons x xs ih =>
    rw [List.map_cons, List.mapM_cons, ih]
    show (read (write x).wire >>= _) = _
    rw [h]
    rfl

theorem orNone_ok {α : Type} {read : Json → Except PyErr α} {v : Json} {a : α} (hv : Json.isNull v = false)
    (h : read v = .ok a) : orNone read v = .ok (some a) := by
  unfold orNone
  split
  · cases hv
  · rw [h]
    rfl

open Json

theorem distinct_ofOption {α : Type} {write : α → Json} (h : ∀ a, (write a).distinct = true) (x : Option α) :
    (ofOption write x).distinct = true := by
  cases x with
  | none => rfl
  | some a => exact h a

theorem rejectFloats_ofOption {α : Type} {write : α → Json} (h : ∀ a, (write a).rejectFloats = false)
    (x : Option α) : (ofOption write x).rejectFloats = false := by
  cases x with
  | none => rfl
  | some a => exact h a

theorem lookup_pop (fields : List (String × Json)) (name k : String) :
    (pop fields name).lookup k = if k = name then none else fields.lookup k := by
  induction fields with
  | nil => simp [pop]
  | cons f fields ih =>
    obtain ⟨k', v⟩ := f
    rw [pop] at ih ⊢
    by_cases hname : k' = name
    · rw [List.filter_cons_of_neg (by simpa using hname), ih]
      by_cases hk : k = name
      · rw [if_pos hk, if_pos hk]
      · have hne : (k == k') = false := by
          rw [hname]
          simpa using hk
        rw [if_neg hk, if_neg hk, List.lookup_cons, hne]
    · rw [List.filter_cons_of_pos (by simpa using hname)]
      by_cases hk : k = k'
      · subst hk
        simp [hname]
      · have hne : (k == k') = false := by simpa using hk
        rw [List.lookup_cons, List.lookup_cons, hne, ih]

theorem check_pop {names : List String} {fs : List (String × Json)} {a b : String}
    (h : ∀ k ∈ fs.map (·.1), k = a ∨ k = b ∨ k ∈ names) : check names (pop (pop (wireFields fs) a) b) = .ok () := by
  have hnone : (pop (pop (wireFields fs) a) b).find? (fun f => f.1 ∉ names) = none := by
    rw [List.find?_eq_none]
    intro f hf
    simp only [pop, List.mem_filter, decide_eq_true_eq] at hf
    rcases h f.1 (wireFields_keys (List.mem_map_of_mem hf.1.1)) with h' | h' | h'
    · exact absurd h' hf.1.2
    · exact absurd h' hf.2
    · simpa using h'
  rw [check, hnone]

theorem check_wire {names : List String} {fs : List (String × Json)}
    (h : ∀ k ∈ fs.map (·.1), k ∈ names) : check names (wireFields fs) = .ok () := by
  have hnone : (wireFields fs).find? (fun f => f.1 ∉ names) = none := by
    rw [List.find?_eq_none]
    intro f hf
    simpa using h f.1 (wireFields_keys (List.mem_map_of_mem hf))
  rw [check, hnone]

section
variable {α : Type} {fs : List (String × Json)} (hn : (fs.map (·.1)).Nodup) {name : String} {v : Json}
  {read : Json → Except PyErr α}
include hn

theorem required_wire (h : fs.lookup name = some v) (hv : isNull v = false) :
    required (wireFields fs) name read = read v.wire := by
  rw [required, lookup_wire hn, h]
  simp [hv]

theorem defaulted_wire {default : α} (h : fs.lookup name = some v) (hv : isNull v = false) :
    defaulted (wireFields fs) name default read = read v.wire := by
  rw [defaulted, lookup_wire hn, h]
  simp [hv]

/-- An absent optional field is read as the default. -/
theorem defaulted_wire_null {default : α} (h : fs.lookup name = some .null) :
    defaulted (wireFields fs) name default read = .ok default := by
  rw [defaulted, lookup_wire hn, h]
  rfl

/-- An optional field whose default is `None` reads back. -/
theorem defaulted_wire_ofOption {write : α → Json} {x : Option α}
    (h : fs.lookup name = some (ofOption write x)) (hwrite : ∀ a, isNull (write a) = false)
    (hwire : ∀ a, isNull (write a).wire = false) (hread : ∀ a, read (write a).wire = .ok a) :
    defaulted (wireFields fs) name none (orNone read) = .ok x := by
  cases x with
  | none => exact defaulted_wire_null hn h
  | some a =>
    rw [defaulted_wire hn h (hwrite a)]
    exact orNone_ok (hwire a) (hread a)

end

end Kwargs
