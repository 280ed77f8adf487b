import DkcLinux.Text.Lines
import DkcLinux.Text.Dict
import DkcLinux.Text.SurrogateEscape
import DkcLinux.Records

/-!
# Workflow assignments (`dkc/github.py:51-89`)

The reader splits the command file as a text file (`file_lines`), the writer ends its rows with a newline and forbids
only `\n`, `\r` and `\0` in a value.

| branch of the writer                     | what it leaves                                                 |
|------------------------------------------|----------------------------------------------------------------|
| not accepted, or a key with another value | the file                                                      |
| nothing new                              | the file                                                       |
| new keys                                 | a row for each, up to the first value that cannot be encoded    |

Main theorem `reads_back_iff`: the new rows are read back, and a failed call leaves no trace, exactly where `Fits`
holds; `form_feed_conflicts` is a call whose repetition fails.

A `str` may have lone surrogates, as an environment value with bytes that are no UTF-8 has; the text of a file has none.
-/

namespace WorkflowAssignments

open Py

abbrev Text := List Char

/-- A `str`. -/
abbrev Value := List CodePoint

/-! ## The reader -/

def is_key_char (c : Char) : Bool := isAsciiAlnum c || c = '_'

/-- `^[A-Za-z_][A-Za-z0-9_]*$`. -/
def is_output_key : Text → Bool
  | [] => false
  | c :: cs => (isAsciiAlpha c || c = '_') && cs.all is_key_char

/-- The key and the value of a line that assigns. -/
def assignment (line : Text) : Option (Text × Text) :=
  if '=' ∉ line ∨ !is_output_key (partition '=' line).1 then none else some (partition '=' line)

def read_line (result : Dict Text) (line : Text) : Except PyErr (Dict Text) :=
  match assignment line with
  | none => .ok result
  | some (key, value) =>
    let key := String.ofList key
    if (result.get? key).any (· ≠ value) then .error (.ValueError s!"workflow command file contains conflicting {key}")
    else .ok (result.set key value)

/-- `none` is a path that does not exist. -/
def existing_assignments : Option Text → Except PyErr (Dict Text)
  | none => .ok .empty
  | some text => (file_lines text).foldlM read_line .empty

/-! ## The writer -/

/-- `stream.write` of a `str`, in UTF-8. -/
def encode (value : Value) : Option Text := value.mapM fun
  | .char c => some c
  | .escape _ => none

/-- What is not written yet. -/
def pending (existing : Dict Text) : List (String × Value) → Except PyErr (List (String × Value))
  | [] => .ok []
  | (key, value) :: items =>
    match existing.get? key with
    | some old =>
      if old.map .char ≠ value then .error (.ValueError s!"workflow output {key} already has another value")
      else pending existing items
    | none => (pending existing items).map ((key, value) :: ·)

def row (x : String × Text) : Text := x.1.toList ++ '=' :: x.2

/-- What was written before an encoding fails is in the file when it is closed. -/
def append : List (String × Value) → Text → Except PyErr Unit × Option Text
  | [], text => (.ok (), some text)
  | (key, value) :: items, text =>
    match encode value with
    | none => (.error (.ValueError "surrogates not allowed"), some text)
    | some value => append items (text ++ (row (key, value) ++ ['\n']))

def has_unsafe_key (values : Dict Value) : Bool :=
  values.items.isEmpty || values.keys.any fun key => !is_output_key key.toList

def has_unsafe_value (values : Dict Value) : Bool :=
  values.items.any fun x => .char '\n' ∈ x.2 || .char '\r' ∈ x.2 || .char '\x00' ∈ x.2

/-- The result, and the file after it. -/
def write_workflow_assignments (file : Option Text) (values : Dict Value) : Except PyErr Unit × Option Text :=
  if has_unsafe_key values then (.error (.ValueError "workflow output contains an unsafe key"), file)
  else if has_unsafe_value values then (.error (.ValueError "workflow output contains an unsafe value"), file)
  else
    match existing_assignments file >>= fun existing => pending existing (sortedItems values.items) with
    | .error e => (.error e, file)
    | .ok [] => (.ok (), file)
    | .ok items => append items (file.getD [])

/-! ## What a line assigns -/

theorem not_equals {key : Text} (h : is_output_key key = true) : '=' ∉ key := by
  intro hmem
  cases key with
  | nil => cases hmem
  | cons c cs =>
    rw [is_output_key, Bool.and_eq_true] at h
    rcases List.mem_cons.1 hmem with rfl | hmem
    · exact absurd h.1 (by decide)
    · exact absurd (List.all_eq_true.1 h.2 _ hmem) (by decide)

theorem assignment_iff {line key value : Text} :
    assignment line = some (key, value) ↔ is_output_key key = true ∧ line = key ++ '=' :: value := by
  constructor
  · intro h
    unfold assignment at h
    by_cases hnot : '=' ∉ line ∨ !is_output_key (partition '=' line).1
    · rw [if_pos hnot] at h
      cases h
    · rw [if_neg hnot] at h
      rw [not_or, not_not] at hnot
      obtain ⟨a, b, ha, rfl⟩ := partition_mem hnot.1
      rw [partition_append ha] at h hnot
      cases h
      exact ⟨by simpa using hnot.2, rfl⟩
  · rintro ⟨hkey, rfl⟩
    unfold assignment
    rw [partition_append (not_equals hkey), if_neg]
    simp [hkey]

theorem assignment_row {key : String} (h : is_output_key key.toList = true) (value : Text) :
    assignment (row (key, value)) = some (key.toList, value) := assignment_iff.2 ⟨h, rfl⟩

/-! ## What is read -/

theorem read_line_get {result found : Dict Text} {line : Text} (h : read_line result line = .ok found) {key : String}
    {value : Text} : found.get? key = some value ↔
      result.get? key = some value ∨ assignment line = some (key.toList, value) := by
  rw [read_line] at h
  split at h
  · next hnone =>
    cases h
    simp [hnone]
  · next key' value' hsome =>
    obtain ⟨hsame, h⟩ := except_check_eq_ok.1 h
    cases h
    rw [hsome, Dict.get?_set, Option.some_inj, Prod.mk.injEq]
    by_cases hkey : key = String.ofList key'
    · subst hkey
      rw [if_pos rfl, String.toList_ofList]
      refine ⟨fun hv => .inr ⟨rfl, hv.symm⟩, fun hv => ?_⟩
      rcases hv with hv | ⟨-, hv⟩
      · simpa [hv] using hsame
      · exact hv.symm
    · rw [if_neg hkey]
      refine ⟨.inl, fun hv => hv.resolve_right ?_⟩
      rintro ⟨rfl, -⟩
      exact hkey (String.ofList_toList).symm

/-- A value is read where it was known or where a line assigns it. -/
theorem read_lines_get {lines : List Text} {result found : Dict Text} (h : lines.foldlM read_line result = .ok found)
    {key : String} {value : Text} : found.get? key = some value ↔
      result.get? key = some value ∨ ∃ line ∈ lines, assignment line = some (key.toList, value) := by
  induction lines generalizing result with
  | nil =>
    cases h
    simp
  | cons line lines ih =>
    rw [List.foldlM_cons] at h
    obtain ⟨next, hnext, h⟩ := except_bind_eq_ok.1 h
    rw [ih h, read_line_get hnext, or_assoc, List.exists_mem_cons_iff]

theorem existing_eq (file : Option Text) : existing_assignments file = (file_lines (file.getD [])).foldlM read_line .empty := by
  cases file <;> rfl

/-- Rows with new keys are read. -/
theorem read_rows {rows : List (String × Text)} {result : Dict Text} (hkeys : ∀ x ∈ rows, is_output_key x.1.toList = true)
    (hnew : ∀ x ∈ rows, x.1 ∉ result.keys) (hnodup : (rows.map (·.1)).Nodup) :
    ∃ found, (rows.map row).foldlM read_line result = .ok found := by
  induction rows generalizing result with
  | nil => exact ⟨result, rfl⟩
  | cons x rows ih =>
    rw [List.map_cons, List.nodup_cons] at hnodup
    have hx : read_line result (row x) = .ok (result.set x.1 x.2) := by
      have hget := Dict.get?_eq_none.2 (hnew x List.mem_cons_self)
      rw [read_line, show row x = row (x.1, x.2) from rfl, assignment_row (hkeys x List.mem_cons_self)]
      simp [hget]
    rw [List.map_cons, List.foldlM_cons, hx, except_ok_bind]
    refine ih (fun y hy => hkeys y (List.mem_cons_of_mem _ hy)) (fun y hy => ?_) hnodup.2
    rw [Dict.mem_keys]
    rintro ⟨value, hvalue⟩
    rw [Dict.get?_set] at hvalue
    by_cases hkey : y.1 = x.1
    · exact hnodup.1 (hkey ▸ List.mem_map_of_mem hy)
    · rw [if_neg hkey] at hvalue
      exact hnew y (List.mem_cons_of_mem _ hy) (Dict.mem_keys.2 ⟨value, hvalue⟩)

/-! ## What is written -/

def lift (x : String × Text) : String × Value := (x.1, x.2.map .char)

def block (rows : List (String × Text)) : Text := (rows.map row).flatMap fun line => line ++ ['\n']

theorem encode_char : ∀ text : Text, encode (text.map .char) = some text
  | [] => rfl
  | c :: text => by
    have ih := encode_char text
    rw [encode] at ih ⊢
    rw [List.map_cons, List.mapM_cons, ih]
    rfl

theorem encode_eq_some : ∀ {value : Value} {text : Text}, encode value = some text → text.map .char = value
  | [], text, h => by
    cases h
    rfl
  | p :: value, text, h => by
    rw [encode, List.mapM_cons] at h
    cases p with
    | escape b => cases h
    | char c =>
      cases hrest : encode value with
      | none =>
        rw [encode] at hrest
        rw [hrest] at h
        cases h
      | some rest =>
        have ih := encode_eq_some hrest
        rw [encode] at hrest
        rw [hrest] at h
        cases h
        rw [List.map_cons, ih]

theorem append_rows (rows : List (String × Text)) (items : List (String × Value)) (text : Text) :
    append (rows.map lift ++ items) text = append items (text ++ block rows) := by
  induction rows generalizing text with
  | nil => simp [block]
  | cons x rows ih =>
    rw [List.map_cons, List.cons_append, lift, append, encode_char]
    exact (ih _).trans (by simp [block])

/-- What can be written, and then a value that cannot. -/
theorem exists_rows (items : List (String × Value)) : ∃ (rows : List (String × Text)) (rest : List (String × Value)),
    items = rows.map lift ++ rest ∧
    ∀ x ∈ rest.head?, encode x.2 = none := by
  induction items with
  | nil => exact ⟨[], [], rfl, by simp⟩
  | cons x items ih =>
    cases hx : encode x.2 with
    | none => exact ⟨[], x :: items, rfl, by simpa using hx⟩
    | some text =>
      obtain ⟨rows, rest, rfl, hrest⟩ := ih
      refine ⟨(x.1, text) :: rows, rest, ?_, hrest⟩
      rw [List.map_cons, List.cons_append, lift, encode_eq_some hx]

/-! ## The branches of the writer -/

/-- The call is accepted. -/
structure Accepts (known : Dict Text) (values : Dict Value) : Prop where
  safe_keys : has_unsafe_key values = false
  safe_values : has_unsafe_value values = false
  agrees : ∀ x ∈ values.items, ∀ old, known.get? x.1 = some old → old.map .char = x.2

/-- The keys that are not known, in the order in which they are written. -/
def new_items (known : Dict Text) (values : Dict Value) : List (String × Value) :=
  (sortedItems values.items).filter fun x => (known.get? x.1).isNone

theorem pending_agrees {known : Dict Text} {items : List (String × Value)}
    (h : ∀ x ∈ items, ∀ old, known.get? x.1 = some old → old.map .char = x.2) :
    pending known items = .ok (items.filter fun x => (known.get? x.1).isNone) := by
  induction items with
  | nil => rfl
  | cons x items ih =>
    have ih := ih fun y hy => h y (List.mem_cons_of_mem x hy)
    rw [pending]
    cases hget : known.get? x.1 with
    | none => simp [ih, hget, Except.map]
    | some old => simp [ih, hget, h x List.mem_cons_self old hget]

theorem pending_conflict {known : Dict Text} {items : List (String × Value)}
    (h : ∃ x ∈ items, ∃ old, known.get? x.1 = some old ∧ old.map .char ≠ x.2) : ∃ e, pending known items = .error e := by
  induction items with
  | nil =>
    obtain ⟨x, hx, -⟩ := h
    cases hx
  | cons y items ih =>
    rw [pending]
    cases hget : known.get? y.1 with
    | none =>
      obtain ⟨x, hx, old, hold, hne⟩ := h
      rcases List.mem_cons.1 hx with rfl | hx
      · rw [hget] at hold
        cases hold
      · obtain ⟨e, he⟩ := ih ⟨x, hx, old, hold, hne⟩
        exact ⟨e, by rw [he]; rfl⟩
    | some old =>
      by_cases hsame : old.map .char = y.2
      · obtain ⟨x, hx, old', hold, hne⟩ := h
        rcases List.mem_cons.1 hx with rfl | hx
        · rw [hget] at hold
          cases hold
          exact absurd hsame hne
        · simpa [hsame] using ih ⟨x, hx, old', hold, hne⟩
      · simp [hsame]

theorem write_refused {file : Option Text} {known : Dict Text} {values : Dict Value}
    (h : existing_assignments file = .ok known) (hnot : ¬ Accepts known values) :
    ∃ e, write_workflow_assignments file values = (.error e, file) := by
  rw [write_workflow_assignments]
  by_cases hkeys : has_unsafe_key values = true
  · exact ⟨_, if_pos hkeys⟩
  rw [if_neg hkeys]
  by_cases hvalues : has_unsafe_value values = true
  · exact ⟨_, if_pos hvalues⟩
  rw [if_neg hvalues, h, except_ok_bind]
  have hconflict : ∃ x ∈ sortedItems values.items, ∃ old, known.get? x.1 = some old ∧ old.map .char ≠ x.2 := by
    by_contra hno
    refine hnot ⟨Bool.eq_false_of_not_eq_true hkeys, Bool.eq_false_of_not_eq_true hvalues, fun x hx old hold => ?_⟩
    by_contra hne
    exact hno ⟨x, mem_sortedItems.2 hx, old, hold, hne⟩
  obtain ⟨e, he⟩ := pending_conflict hconflict
  exact ⟨e, by rw [he]⟩

theorem write_accepted {file : Option Text} {known : Dict Text} {values : Dict Value}
    (h : existing_assignments file = .ok known) (hok : Accepts known values) :
    write_workflow_assignments file values =
      if new_items known values = [] then (.ok (), file) else append (new_items known values) (file.getD []) := by
  have hpending : pending known (sortedItems values.items) =
      .ok ((sortedItems values.items).filter fun x => (known.get? x.1).isNone) :=
    pending_agrees fun x hx => hok.agrees x (mem_sortedItems.1 hx)
  rw [write_workflow_assignments, if_neg (by rw [hok.safe_keys]; decide), if_neg (by rw [hok.safe_values]; decide), h,
    except_ok_bind, hpending, ← new_items]
  cases new_items known values with
  | nil => rfl
  | cons x items => rfl

theorem mem_new_items {known : Dict Text} {values : Dict Value} {x : String × Value} :
    x ∈ new_items known values ↔ x ∈ values.items ∧ known.get? x.1 = none := by
  rw [new_items, List.mem_filter, mem_sortedItems, Option.isNone_iff_eq_none]

theorem nodup_new_items (known : Dict Text) (values : Dict Value) : ((new_items known values).map (·.1)).Nodup :=
  (((perm_sortedItems values.items).map (·.1)).nodup_iff.2 values.nodup).sublist (List.filter_sublist.map _)

theorem Accepts.key {known : Dict Text} {values : Dict Value} (h : Accepts known values) {x : String × Value}
    (hx : x ∈ values.items) : is_output_key x.1.toList = true := by
  have hkeys := h.safe_keys
  rw [has_unsafe_key, Bool.or_eq_false_iff, List.any_eq_false] at hkeys
  have hkey := hkeys.2 x.1 (List.mem_map_of_mem hx)
  simpa using hkey

/-! ## Reading back -/

/-- What a call promises. -/
structure ReadsBack (file : Option Text) (known : Dict Text) (values : Dict Value) : Prop where
  raised : ∀ e after, write_workflow_assignments file values = (.error e, after) → after = file
  returned : ∀ after, write_workflow_assignments file values = (.ok (), after) → ∃ found,
    existing_assignments after = .ok found ∧
    (∀ x ∈ values.items, ∃ text, found.get? x.1 = some text ∧ text.map .char = x.2) ∧
    (∀ key text, known.get? key = some text → found.get? key = some text) ∧
    write_workflow_assignments after values = (.ok (), after)

def has_line_break (value : Value) : Bool := value.any fun
  | .char c => isLineBreak c
  | .escape _ => false

/-- The new values are lines and stand on lines of their own; a value that cannot be encoded is the first. -/
def Fits (file : Option Text) (items : List (String × Value)) : Prop :=
  if ∀ x ∈ items, (encode x.2).isSome then Ended (file.getD []) ∧ ∀ x ∈ items, has_line_break x.2 = false
  else file.isSome ∧ ∀ x ∈ items.head?, encode x.2 = none

theorem has_line_break_char (text : Text) : has_line_break (text.map .char) = false ↔ Unbroken text := by
  simp [has_line_break, Unbroken, List.any_map, Function.comp_def]

theorem is_key_char_iff {c : Char} : is_key_char c = true ↔
    isAsciiDigit c = true ∨ isAsciiAlpha c = true ∨ c = '_' := by
  simp [is_key_char, isAsciiAlnum, isAsciiAlpha, or_assoc]

theorem key_char_unbroken {c : Char} (h : is_key_char c = true) : isLineBreak c = false := by
  rw [is_key_char_iff, isAsciiDigit_iff, isAsciiAlpha_iff] at h
  have hrange : 48 ≤ c.toNat ∧ c.toNat ≤ 122 := by
    rcases h with h | h | rfl
    · omega
    · omega
    · decide
  simp only [isLineBreak, Bool.or_eq_false_iff, Bool.and_eq_false_iff, decide_eq_false_iff_not, beq_eq_false_iff_ne]
  omega

theorem key_unbroken {key : Text} (h : is_output_key key = true) : Unbroken key := by
  cases key with
  | nil => cases h
  | cons c cs =>
    rw [is_output_key, Bool.and_eq_true] at h
    intro d hd
    apply key_char_unbroken
    rcases List.mem_cons.1 hd with rfl | hd
    · have hfirst := h.1
      rw [Bool.or_eq_true, decide_eq_true_eq] at hfirst
      exact is_key_char_iff.2 (.inr hfirst)
    · exact List.all_eq_true.1 h.2 d hd

theorem unbroken_row {key : String} {value : Text} (hkey : is_output_key key.toList = true) :
    Unbroken (row (key, value)) ↔ Unbroken value := by
  constructor
  · exact fun h c hc => h c (List.mem_append_right _ (List.mem_cons_of_mem _ hc))
  · intro h c hc
    rcases List.mem_append.1 hc with hc | hc
    · exact key_unbroken hkey c hc
    · rcases List.mem_cons.1 hc with rfl | hc
      · decide
      · exact h c hc

/-- The rows of new keys are read after an ended text. -/
theorem read_appended {file : Option Text} {known : Dict Text} (h : existing_assignments file = .ok known)
    (hended : Ended (file.getD [])) {rows : List (String × Text)} (hkeys : ∀ x ∈ rows, is_output_key x.1.toList = true)
    (hunbroken : ∀ x ∈ rows, Unbroken x.2) (hnew : ∀ x ∈ rows, known.get? x.1 = none) (hnodup : (rows.map (·.1)).Nodup) :
    ∃ found, existing_assignments (some (file.getD [] ++ block rows)) = .ok found ∧
      ∀ key value, found.get? key = some value ↔ known.get? key = some value ∨ (key, value) ∈ rows := by
  have hhead : (block rows).head? ≠ some '\n' := by
    cases rows with
    | nil => simp [block]
    | cons x rows =>
      have hkey := hkeys x List.mem_cons_self
      intro hc
      cases hchars : x.1.toList with
      | nil =>
        rw [hchars] at hkey
        cases hkey
      | cons c cs =>
        have hbreak := key_unbroken hkey
        rw [hchars] at hbreak
        have hc : c = '\n' := by simpa [block, row, hchars] using hc
        exact hbreak.no_newline (hc ▸ List.mem_cons_self)
  have hrows : ∀ line ∈ rows.map row, Unbroken line := by
    intro line hline
    obtain ⟨x, hx, rfl⟩ := List.mem_map.1 hline
    exact (unbroken_row (hkeys x hx)).2 (hunbroken x hx)
  rw [existing_eq] at h ⊢
  obtain ⟨found, hfound⟩ := read_rows hkeys (fun x hx => Dict.get?_eq_none.1 (hnew x hx)) hnodup
  refine ⟨found, ?_, fun key value => ?_⟩
  · rw [Option.getD_some, file_lines_append hended hhead, List.foldlM_append, h, except_ok_bind, block,
      file_lines_rows hrows, hfound]
  · rw [read_lines_get hfound]
    refine or_congr_right ⟨?_, fun hmem => ?_⟩
    · rintro ⟨line, hline, hassign⟩
      obtain ⟨x, hx, rfl⟩ := List.mem_map.1 hline
      have hx' := assignment_row (hkeys x hx) x.2
      rw [hassign, Option.some_inj, Prod.mk.injEq, String.toList_inj] at hx'
      rwa [hx'.1, hx'.2]
    · exact ⟨row (key, value), List.mem_map_of_mem hmem, assignment_row (hkeys _ hmem) value⟩

/-- A row that continues a line is not read. -/
theorem ended_of_read {file : Option Text} {known : Dict Text} (h : existing_assignments file = .ok known)
    {x : String × Text} {rows : List (String × Text)} (hkeys : ∀ y ∈ x :: rows, is_output_key y.1.toList = true)
    (hunbroken : ∀ y ∈ x :: rows, Unbroken y.2) (hnew : known.get? x.1 = none) (hnodup : ((x :: rows).map (·.1)).Nodup)
    (hread : row x ∈ file_lines (file.getD [] ++ block (x :: rows))) : Ended (file.getD []) := by
  by_contra hended
  obtain ⟨init, last, hlast, hlines, hcontinue⟩ := file_lines_continue hended
  have hx : Unbroken (row x) := (unbroken_row (hkeys x List.mem_cons_self)).2 (hunbroken x List.mem_cons_self)
  have hrows : ∀ line ∈ rows.map row, Unbroken line := by
    intro line hline
    obtain ⟨y, hy, rfl⟩ := List.mem_map.1 hline
    exact (unbroken_row (hkeys y (List.mem_cons_of_mem x hy))).2 (hunbroken y (List.mem_cons_of_mem x hy))
  have hblock : block (x :: rows) = row x ++ '\n' :: block rows := by simp [block]
  have hne : row x ≠ [] := List.append_ne_nil_of_right_ne_nil _ (List.cons_ne_nil _ _)
  have hassign : assignment (row x) = some (x.1.toList, x.2) := assignment_row (hkeys x List.mem_cons_self) x.2
  rw [hblock, hcontinue _ _ hne hx, block, file_lines_rows hrows, List.mem_append, List.mem_cons] at hread
  rcases hread with hmem | hsame | hmem
  · -- such a line was there before
    have hold : known.get? x.1 = some x.2 := by
      rw [existing_eq] at h
      refine (read_lines_get h).2 (.inr ⟨row x, ?_, hassign⟩)
      rw [hlines]
      exact List.mem_append_left _ hmem
    rw [hnew] at hold
    cases hold
  · have hlen := congrArg List.length hsame
    rw [List.length_append] at hlen
    have hpos := List.length_pos_iff.2 hlast
    omega
  · obtain ⟨y, hy, hsame⟩ := List.mem_map.1 hmem
    have hassign' := assignment_row (hkeys y (List.mem_cons_of_mem x hy)) y.2
    rw [show row (y.1, y.2) = row x from hsame, hassign, Option.some_inj, Prod.mk.injEq, String.toList_inj] at hassign'
    rw [List.map_cons, List.nodup_cons] at hnodup
    exact hnodup.1 (hassign'.1 ▸ List.mem_map_of_mem hy)

theorem block_eq_nil {rows : List (String × Text)} : block rows = [] ↔ rows = [] := by
  cases rows <;> simp [block]

theorem encode_lift (x : String × Text) : encode (lift x).2 = some x.2 := encode_char x.2

theorem mem_lift {rows : List (String × Text)} {key : String} {text : Text} :
    (key, text.map CodePoint.char) ∈ rows.map lift ↔ (key, text) ∈ rows := by
  have hinj : Function.Injective lift := by
    rintro ⟨k, t⟩ ⟨k', t'⟩ heq
    obtain ⟨hk, ht⟩ := Prod.mk.inj heq
    have ht : t = t' := List.map_injective_iff.2 (fun _ _ hc => CodePoint.char.inj hc) ht
    rw [show k = k' from hk, ht]
  exact List.mem_map_of_injective hinj (a := (key, text))

theorem fits_of_reads {file : Option Text} {known : Dict Text} {values : Dict Value}
    (h : existing_assignments file = .ok known) (hok : Accepts known values) (hne : new_items known values ≠ [])
    (hback : ReadsBack file known values) : Fits file (new_items known values) := by
  have hwrite := write_accepted h hok
  have hnodup := nodup_new_items known values
  obtain ⟨rows, rest, hitems, hrest⟩ := exists_rows (new_items known values)
  have hmem : ∀ x ∈ rows, lift x ∈ values.items ∧ known.get? x.1 = none := fun x hx =>
    mem_new_items.1 (hitems ▸ List.mem_append_left _ (List.mem_map_of_mem hx))
  have hkeys : ∀ x ∈ rows, is_output_key x.1.toList = true := fun x hx => hok.key (hmem x hx).1
  rw [if_neg hne, hitems, append_rows] at hwrite
  cases rest with
  | nil =>
    rw [List.append_nil] at hitems
    obtain ⟨found, hfound, hvalues, -, -⟩ := hback.returned _ hwrite
    have hread : ∀ x ∈ rows, row x ∈ file_lines (file.getD [] ++ block rows) := by
      intro x hx
      obtain ⟨text, hget, htext⟩ := hvalues _ (hmem x hx).1
      have heq : text = x.2 := List.map_injective_iff.2 (fun _ _ hc => CodePoint.char.inj hc) htext
      rw [existing_eq] at hfound
      rcases (read_lines_get hfound).1 hget with hget | ⟨line, hline, hassign⟩
      · cases hget
      · have hrow : line = row x := by
          rw [(assignment_iff.1 hassign).2, heq]
          rfl
        rwa [hrow] at hline
    have hunbroken : ∀ x ∈ rows, Unbroken x.2 := fun x hx =>
      (unbroken_row (hkeys x hx)).1 (file_lines_unbroken (hread x hx))
    have hencode : ∀ x ∈ rows.map lift, (encode x.2).isSome := by
      intro x hx
      obtain ⟨y, -, rfl⟩ := List.mem_map.1 hx
      rw [encode_lift]
      rfl
    rw [hitems, Fits, if_pos hencode]
    refine ⟨?_, fun x hx => ?_⟩
    · cases rows with
      | nil => exact absurd hitems hne
      | cons x rows =>
        have hnodup : ((x :: rows).map (·.1)).Nodup := by
          rw [hitems, List.map_map] at hnodup
          exact hnodup
        exact ended_of_read h hkeys hunbroken (hmem x List.mem_cons_self).2 hnodup (hread x List.mem_cons_self)
    · obtain ⟨y, hy, rfl⟩ := List.mem_map.1 hx
      exact (has_line_break_char y.2).2 (hunbroken y hy)
  | cons y rest =>
    have hy : encode y.2 = none := hrest y rfl
    rw [append, hy] at hwrite
    have hafter := hback.raised _ _ hwrite
    have hrows : rows = [] := by
      cases file with
      | none => cases hafter
      | some text =>
        rw [Option.getD_some, Option.some_inj] at hafter
        exact block_eq_nil.1 (List.append_right_eq_self.1 hafter)
    have hnot : ¬ ∀ x ∈ new_items known values, (encode x.2).isSome := by
      intro hall
      have hsome := hall y (by rw [hitems]; simp)
      rw [hy] at hsome
      cases hsome
    rw [Fits, if_neg hnot, hitems, hrows, ← hafter]
    exact ⟨rfl, hrest⟩

theorem reads_of_fits {file : Option Text} {known : Dict Text} {values : Dict Value}
    (h : existing_assignments file = .ok known) (hok : Accepts known values)
    (hfits : new_items known values ≠ [] → Fits file (new_items known values)) : ReadsBack file known values := by
  have hwrite := write_accepted h hok
  by_cases hne : new_items known values = []
  · rw [if_pos hne] at hwrite
    refine ⟨fun e after hraised => ?_, fun after hreturned => ?_⟩
    · rw [hwrite] at hraised
      cases hraised
    · rw [hwrite] at hreturned
      cases hreturned
      refine ⟨known, h, fun x hx => ?_, fun _ _ hget => hget, hwrite⟩
      cases hget : known.get? x.1 with
      | none =>
        have hnew := mem_new_items.2 ⟨hx, hget⟩
        rw [hne] at hnew
        cases hnew
      | some old => exact ⟨old, rfl, hok.agrees x hx old hget⟩
  · have hfits := hfits hne
    have hnodup := nodup_new_items known values
    obtain ⟨rows, rest, hitems, hrest⟩ := exists_rows (new_items known values)
    have hmem : ∀ x ∈ rows, lift x ∈ values.items ∧ known.get? x.1 = none := fun x hx =>
      mem_new_items.1 (hitems ▸ List.mem_append_left _ (List.mem_map_of_mem hx))
    rw [if_neg hne, hitems, append_rows] at hwrite
    cases rest with
    | nil =>
      rw [List.append_nil] at hitems
      have hencode : ∀ x ∈ rows.map lift, (encode x.2).isSome := by
        intro x hx
        obtain ⟨y, -, rfl⟩ := List.mem_map.1 hx
        rw [encode_lift]
        rfl
      rw [hitems, Fits, if_pos hencode] at hfits
      have hnodup : (rows.map (·.1)).Nodup := by
        rw [hitems, List.map_map] at hnodup
        exact hnodup
      obtain ⟨found, hfound, hget⟩ := read_appended h hfits.1 (fun x hx => hok.key (hmem x hx).1)
        (fun x hx => (has_line_break_char x.2).1 (hfits.2 _ (List.mem_map_of_mem hx))) (fun x hx => (hmem x hx).2) hnodup
      have hvalues : ∀ x ∈ values.items, ∃ text, found.get? x.1 = some text ∧ text.map .char = x.2 := by
        intro x hx
        cases hold : known.get? x.1 with
        | some old => exact ⟨old, (hget _ _).2 (.inl hold), hok.agrees x hx old hold⟩
        | none =>
          have hnew := mem_new_items.2 ⟨hx, hold⟩
          rw [hitems] at hnew
          obtain ⟨y, hy, rfl⟩ := List.mem_map.1 hnew
          exact ⟨y.2, (hget _ _).2 (.inr hy), rfl⟩
      refine ⟨fun e after hraised => ?_, fun after hreturned => ?_⟩
      · rw [hwrite] at hraised
        cases hraised
      · rw [hwrite] at hreturned
        cases hreturned
        have hagain : Accepts found values := by
          refine ⟨hok.safe_keys, hok.safe_values, fun x hx old hold => ?_⟩
          obtain ⟨text, htext, heq⟩ := hvalues x hx
          rw [htext] at hold
          cases hold
          exact heq
        refine ⟨found, hfound, hvalues, fun key text hold => (hget key text).2 (.inl hold), ?_⟩
        rw [write_accepted hfound hagain, if_pos]
        refine List.eq_nil_iff_forall_not_mem.2 fun x hx => ?_
        obtain ⟨hx, hnone⟩ := mem_new_items.1 hx
        obtain ⟨text, htext, -⟩ := hvalues x hx
        rw [hnone] at htext
        cases htext
    | cons y rest =>
      have hy : encode y.2 = none := hrest y rfl
      have hnot : ¬ ∀ x ∈ new_items known values, (encode x.2).isSome := by
        intro hall
        have hsome := hall y (by rw [hitems]; simp)
        rw [hy] at hsome
        cases hsome
      rw [Fits, if_neg hnot, hitems] at hfits
      have hrows : rows = [] := by
        cases rows with
        | nil => rfl
        | cons x rows =>
          have hx := hfits.2 (lift x) rfl
          rw [encode_lift] at hx
          cases hx
      obtain ⟨text, rfl⟩ := Option.isSome_iff_exists.1 hfits.1
      rw [append, hy, hrows] at hwrite
      refine ⟨fun e after hraised => ?_, fun after hreturned => ?_⟩
      · rw [hwrite] at hraised
        cases hraised
        simp [block]
      · rw [hwrite] at hreturned
        cases hreturned

/-- **The assignments are read back, and a failed call leaves the file, iff what is written fits.** -/
theorem reads_back_iff {file : Option Text} {known : Dict Text} (h : existing_assignments file = .ok known)
    (values : Dict Value) : ReadsBack file known values ↔
      (Accepts known values → new_items known values ≠ [] → Fits file (new_items known values)) := by
  constructor
  · exact fun hback hok hne => fits_of_reads h hok hne hback
  · intro hfits
    by_cases hok : Accepts known values
    · exact reads_of_fits h hok (hfits hok)
    · obtain ⟨e, hwrite⟩ := write_refused h hok
      refine ⟨fun e' after hraised => ?_, fun after hreturned => ?_⟩
      · rw [hwrite] at hraised
        cases hraised
        rfl
      · rw [hwrite] at hreturned
        cases hreturned

/-- `{key: value}`. -/
def one_value (key value : String) : Dict Value := ⟨[(key, value.toList.map .char)], List.nodup_singleton key⟩

theorem reads_back_second : ReadsBack (some "A=1\n".toList) ⟨[("A", ['1'])], List.nodup_singleton _⟩ (one_value "B" "2") := by
  refine (reads_back_iff (by rfl) _).2 fun _ _ => ?_
  have hnew : new_items ⟨[("A", ['1'])], List.nodup_singleton _⟩ (one_value "B" "2") = [("B", [.char '2'])] := by decide
  have hlast : ("A=1\n".toList).getLast? = some '\n' := by rfl
  rw [hnew, Fits, if_pos (by decide)]
  constructor
  · intro c hc
    rw [Option.getD_some, hlast] at hc
    cases hc
    rfl
  · decide

/-- The form feed ends the line that is read back, so the same call again is a conflict. -/
theorem form_feed_conflicts : ¬ ∀ (file : Option Text) (known : Dict Text) (values : Dict Value),
    existing_assignments file = .ok known → ReadsBack file known values := by
  intro h
  have hback := h (some []) .empty (one_value "A" "x\x0cy") (by rfl)
  obtain ⟨found, -, -, -, hagain⟩ := hback.returned (some "A=x\x0cy\n".toList) (by decide)
  exact absurd hagain (by decide)

end WorkflowAssignments
