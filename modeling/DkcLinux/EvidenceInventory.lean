import Mathlib.Data.List.Lex
import DkcLinux.Evidence
import DkcLinux.Text.Lines

/-!
# Inventories of handoffs (`_write_inventory` of `dkc/release_cache.py` and `dkc/github_artifacts.py`)

The writer puts one line for each file below a directory, and `verify_evidence_directory` reads them back. The writer
refuses links and special files as the reader does, but it writes every name, and the reader has rules for names
(`safe_relative`) and more line boundaries than the newline.

| | |
| --- | --- |
| what the reader accepts | `verify_ok_iff`, of the lines `addLines_items` |
| what the writer leaves | `write_inventory_ok`, `written_lines` |
| one change behind the writer | `SingleChange`, `change_refused` |

`inventory_iff`: the round trip holds, and every single change is refused, exactly if the reader can list every name.
-/

open Py Records

namespace Evidence

/-! ## The writer -/

/-- `pathlib` compares paths by their segments. -/
def path_parts (name : String) : List (List Char) := name.toList.splitOn '/'

/-- `sorted(root.rglob("*"))`. -/
def rglob (below : Dict Entry) : List (String × Entry) :=
  below.items.insertionSort fun x y => path_parts x.1 ≤ path_parts y.1

/-- The files of the loop; `what` stands in the errors. -/
def files_below (what : String) : List (String × Entry) → Except PyErr (List (String × ByteArray))
  | [] => .ok []
  | (name, .file content) :: rest => do
    let files ← files_below what rest
    return if name = CHECKSUMS then files else (name, content) :: files
  | (_, .directory) :: rest => files_below what rest
  | (_, .symlink) :: _ => .error (.ValueError (what ++ " contains a symbolic link"))
  | (_, .special) :: _ => .error (.ValueError (what ++ " contains a special file"))

/-- The directory after `_write_inventory`. -/
def write_inventory (what : String) (hexdigest : ByteArray → String) (below : Dict Entry) : Except PyErr (Dict Entry) := do
  let files ← files_below what (rglob below)
  let records := files.map (checksumLine hexdigest)
  if records = [] then throw (.ValueError (what ++ " is empty"))
  match below.get? CHECKSUMS with
  | some .directory => throw .OSError
  | _ => return below.set CHECKSUMS (.file (String.ofList (List.intercalate ['\n'] records ++ ['\n'])).toUTF8)

/-! ## Files below a directory -/

/-- No link and no special file. -/
def PlainEntry : Entry → Prop
  | .file _ => True
  | .directory => True
  | .symlink => False
  | .special => False

/-- The content of a regular file. -/
def fileAt (below : Dict Entry) (name : String) : Option ByteArray :=
  match below.get? name with
  | some (.file content) => some content
  | _ => none

theorem fileAt_iff {below : Dict Entry} {name : String} {content : ByteArray} :
    fileAt below name = some content ↔ (name, Entry.file content) ∈ below.items := by
  rw [Dict.mem_items, fileAt]
  split
  · next c hget => rw [hget, Option.some.injEq, Option.some.injEq, Entry.file.injEq]
  · next hother =>
    constructor
    · intro h
      cases h
    · intro h
      exact absurd h (hother content)

/-- The files of a walk, but the checksum file. -/
def inventoried : List (String × Entry) → List (String × ByteArray)
  | [] => []
  | (name, .file content) :: rest => if name = CHECKSUMS then inventoried rest else (name, content) :: inventoried rest
  | (_, .directory) :: rest => inventoried rest
  | (_, .symlink) :: rest => inventoried rest
  | (_, .special) :: rest => inventoried rest

theorem mem_inventoried {entries : List (String × Entry)} {name : String} {content : ByteArray} :
    (name, content) ∈ inventoried entries ↔ (name, Entry.file content) ∈ entries ∧ name ≠ CHECKSUMS := by
  fun_induction inventoried entries with
  | case1 => simp
  | case2 content' rest ih =>
    rw [ih, List.mem_cons, Prod.mk.injEq]
    tauto
  | case3 name' content' rest hname ih =>
    rw [List.mem_cons, List.mem_cons, ih, Prod.mk.injEq, Prod.mk.injEq, Entry.file.injEq]
    constructor
    · rintro (⟨rfl, rfl⟩ | ⟨hrest, hne⟩)
      · exact ⟨.inl ⟨rfl, rfl⟩, hname⟩
      · exact ⟨.inr hrest, hne⟩
    · rintro ⟨heq | hrest, hne⟩
      · exact .inl heq
      · exact .inr ⟨hrest, hne⟩
  | case4 name' rest ih => simp [ih]
  | case5 name' rest ih => simp [ih]
  | case6 name' rest ih => simp [ih]

theorem inventoried_nodup {entries : List (String × Entry)} (h : (entries.map (·.1)).Nodup) :
    ((inventoried entries).map (·.1)).Nodup := by
  fun_induction inventoried entries with
  | case1 => exact List.nodup_nil
  | case2 content rest ih => exact ih (List.nodup_cons.1 h).2
  | case3 name content rest hname ih =>
    rw [List.map_cons, List.nodup_cons] at h
    rw [List.map_cons, List.nodup_cons]
    refine ⟨fun hmem => h.1 ?_, ih h.2⟩
    obtain ⟨⟨n, c⟩, hx, rfl⟩ := List.mem_map.1 hmem
    exact List.mem_map_of_mem (f := (·.1)) (mem_inventoried.1 hx).1
  | case4 name rest ih => exact ih (List.nodup_cons.1 h).2
  | case5 name rest ih => exact ih (List.nodup_cons.1 h).2
  | case6 name rest ih => exact ih (List.nodup_cons.1 h).2

theorem files_below_ok_iff {what : String} {entries : List (String × Entry)} {files : List (String × ByteArray)} :
    files_below what entries = .ok files ↔ (∀ x ∈ entries, PlainEntry x.2) ∧ files = inventoried entries := by
  fun_induction inventoried entries generalizing files with
  | case1 => simp [files_below, eq_comm]
  | case2 content rest ih =>
    rw [files_below, except_bind_eq_ok]
    simp only [ih, if_true, List.forall_mem_cons, PlainEntry, true_and]
    constructor
    · rintro ⟨rest', ⟨hplain, rfl⟩, hpure⟩
      cases hpure
      exact ⟨hplain, rfl⟩
    · rintro ⟨hplain, rfl⟩
      exact ⟨_, ⟨hplain, rfl⟩, rfl⟩
  | case3 name content rest hname ih =>
    rw [files_below, except_bind_eq_ok]
    simp only [ih, if_neg hname, List.forall_mem_cons, PlainEntry, true_and]
    constructor
    · rintro ⟨rest', ⟨hplain, rfl⟩, hpure⟩
      cases hpure
      exact ⟨hplain, rfl⟩
    · rintro ⟨hplain, rfl⟩
      exact ⟨_, ⟨hplain, rfl⟩, rfl⟩
  | case4 name rest ih =>
    rw [files_below, ih, List.forall_mem_cons]
    simp only [PlainEntry, true_and]
  | case5 name rest ih => simp [files_below, PlainEntry]
  | case6 name rest ih => simp [files_below, PlainEntry]

/-- The walk of the reader is that of the writer. -/
theorem observe_eq (entries : List (String × Entry)) : observe entries = files_below "evidence handoff" entries := by
  fun_induction observe entries with
  | case1 => rfl
  | case2 name content rest ih => rw [files_below, ih]
  | case3 name rest ih => rw [files_below, ih]
  | case4 => rfl
  | case5 => rfl

/-! ## The lines of an inventory -/

/-- A line: the digest, two blanks and the name. -/
def row (x : String × String) : List Char := x.2.toList ++ ' ' :: ' ' :: x.1.toList

theorem row_injective {x y : String × String} (hx : isSha256 x.2 = true) (hy : isSha256 y.2 = true) (h : row x = row y) :
    x = y := by
  have hblank : ∀ z : String × String, isSha256 z.2 = true → ' ' ∉ z.2.toList := fun z hz hmem => (isSha256_chars hz hmem).1 rfl
  have hparts := congrArg (partitionOn [' ', ' ']) h
  rw [row, row, partitionOn_append (hblank x hx), partitionOn_append (hblank y hy), Option.some.injEq, Prod.mk.injEq,
    String.toList_inj, String.toList_inj] at hparts
  exact Prod.ext hparts.2 hparts.1

theorem eq_of_partitionOn {sep : Char} {l a b : List Char} (h : partitionOn [sep, sep] l = some (a, b)) :
    l = a ++ sep :: sep :: b := by
  induction l generalizing a with
  | nil => cases h
  | cons c l ih =>
    rw [partitionOn] at h
    split at h
    · next hprefix =>
      cases h
      obtain ⟨rest, hrest⟩ := List.isPrefixOf_iff_prefix.1 hprefix
      rw [← hrest]
      rfl
    · rw [Option.map_eq_some_iff] at h
      obtain ⟨⟨a', b'⟩, hl, heq⟩ := h
      cases heq
      rw [ih hl, List.cons_append]

theorem eq_of_safe_relative {value name : String} (h : safe_relative value = .ok name) : value = name := by
  rw [safe_relative] at h
  split at h
  · cases h
  · exact Except.ok.inj h

/-- What the reader accepts as a line. -/
structure Accepted (x : String × String) : Prop where
  digest : isSha256 x.2 = true
  safe : safe_relative x.1 = .ok x.1
  other : x.1 ≠ CHECKSUMS

theorem addLine_items {expected d : Dict String} {line : List Char} (h : addLine expected line = .ok d) :
    ∃ x, line = row x ∧ d.items = expected.items ++ [x] ∧ Accepted x := by
  rw [addLine] at h
  split at h
  · cases h
  · next digest raw_name hparts =>
    by_cases hdigest : isSha256 (String.ofList digest) = true
    · rw [hdigest] at h
      simp only [Bool.not_true, Bool.false_eq_true, if_false] at h
      obtain ⟨name, hname, h⟩ := except_bind_eq_ok.1 h
      have hraw := eq_of_safe_relative hname
      subst hraw
      split at h
      · next hnew =>
        cases h
        refine ⟨(String.ofList raw_name, String.ofList digest), ?_, rfl, hdigest, hname, hnew.2⟩
        rw [row, String.toList_ofList, String.toList_ofList, eq_of_partitionOn hparts]
      · cases h
    · rw [Bool.eq_false_of_not_eq_true hdigest] at h
      cases h

/-- **The lines that the reader accepts are the rows of what it reads.** -/
theorem addLines_items {lines : List (List Char)} {expected d : Dict String} (h : lines.foldlM addLine expected = .ok d) :
    ∃ xs : List (String × String), lines = xs.map row ∧ d.items = expected.items ++ xs ∧ ∀ x ∈ xs, Accepted x := by
  induction lines generalizing expected with
  | nil =>
    cases h
    exact ⟨[], rfl, (List.append_nil _).symm, fun x hx => by cases hx⟩
  | cons line lines ih =>
    rw [List.foldlM_cons, except_bind_eq_ok] at h
    obtain ⟨next, hnext, h⟩ := h
    obtain ⟨x, rfl, hitems, hx⟩ := addLine_items hnext
    obtain ⟨xs, rfl, hrest, hxs⟩ := ih h
    refine ⟨x :: xs, rfl, by rw [hrest, hitems, List.append_assoc]; rfl, ?_⟩
    exact List.forall_mem_cons.2 ⟨hx, hxs⟩

/-! ## What the reader accepts -/

/-- The lines of a checksum file, as they are read. -/
def inventory_lines (checksum : ByteArray) : Option (List (List Char)) :=
  (Serialize.read_text checksum).toOption.map fun text => splitlines text.toList

/-- The files are those expected, with the digests expected. -/
structure Expected (hexdigest : ByteArray → String) (below : Dict Entry) (expected : Dict String) : Prop where
  plain : ∀ x ∈ below.items, PlainEntry x.2
  names : ∀ name, name ∈ expected.keys ↔ name ≠ CHECKSUMS ∧ ∃ content, fileAt below name = some content
  digests : ∀ name content, name ≠ CHECKSUMS → fileAt below name = some content →
    expected.get? name = some (hexdigest content)

theorem mem_observed {below : Dict Entry} {name : String} {content : ByteArray} :
    (name, content) ∈ inventoried (sortedItems below.items) ↔ name ≠ CHECKSUMS ∧ fileAt below name = some content := by
  rw [mem_inventoried, mem_sortedItems, fileAt_iff, and_comm]

theorem verifyBelow_ok_iff {hexdigest : ByteArray → String} {below : Dict Entry} {checksum : ByteArray} {names : List String} :
    verifyBelow hexdigest below checksum = .ok names ↔ ∃ lines expected, inventory_lines checksum = some lines ∧
      lines.foldlM addLine .empty = .ok expected ∧ expected.items ≠ [] ∧ Expected hexdigest below expected ∧
      names = expected.keys.insertionSort (· ≤ ·) := by
  have hread : ∀ lines, inventory_lines checksum = some lines ↔
      ∃ text, Serialize.read_text checksum = .ok text ∧ splitlines text.toList = lines := by
    intro lines
    unfold inventory_lines
    cases Serialize.read_text checksum with
    | error e => simp [Except.toOption]
    | ok text => simp [Except.toOption]
  have hcompare : ∀ expected : Dict String, Expected hexdigest below expected ↔ (∀ x ∈ below.items, PlainEntry x.2) ∧
      (!((inventoried (sortedItems below.items)).all fun x => expected.keys.contains x.1) ||
        !(expected.keys.all fun name => ((inventoried (sortedItems below.items)).map (·.1)).contains name)) = false ∧
      ((inventoried (sortedItems below.items)).any fun x => expected.get? x.1 ≠ some (hexdigest x.2)) = false := by
    intro expected
    simp only [Bool.or_eq_false_iff, Bool.not_eq_false', List.all_eq_true, List.any_eq_false, Prod.forall, mem_observed,
      List.contains_iff_mem, List.mem_map, Prod.exists, exists_and_right, exists_eq_right, decide_eq_true_eq, not_not]
    constructor
    · rintro ⟨hplain, hnames, hdigests⟩
      refine ⟨fun name entry => hplain (name, entry), ⟨fun name content h => (hnames name).2 ⟨h.1, content, h.2⟩, fun name h => ?_⟩,
        fun name content h => ?_⟩
      · obtain ⟨hne, content, hfile⟩ := (hnames name).1 h
        exact ⟨content, hne, hfile⟩
      · exact hdigests name content h.1 h.2
    · rintro ⟨hplain, ⟨hlisted, hfound⟩, hdigests⟩
      refine ⟨fun x => hplain x.1 x.2, fun name => ⟨fun h => ?_, fun h => ?_⟩,
        fun name content hne hfile => hdigests name content ⟨hne, hfile⟩⟩
      · obtain ⟨content, hne, hfile⟩ := hfound name h
        exact ⟨hne, content, hfile⟩
      · obtain ⟨hne, content, hfile⟩ := h
        exact hlisted name content ⟨hne, hfile⟩
  have hplain : (∀ x ∈ sortedItems below.items, PlainEntry x.2) ↔ ∀ x ∈ below.items, PlainEntry x.2 := by
    simp only [mem_sortedItems]
  simp only [verifyBelow, except_bind_eq_ok, except_raise_eq_ok, observe_eq, files_below_ok_iff, hplain, hread, hcompare,
    List.isEmpty_iff, Bool.not_eq_true]
  constructor
  · rintro ⟨text, htext, expected, hexpected, hne, _, ⟨hplain, rfl⟩, hlisted, hdigests, hnames⟩
    cases hnames
    exact ⟨_, expected, ⟨text, htext, rfl⟩, hexpected, hne, ⟨hplain, hlisted, hdigests⟩, rfl⟩
  · rintro ⟨_, expected, ⟨text, htext, rfl⟩, hexpected, hne, ⟨hplain, hlisted, hdigests⟩, rfl⟩
    exact ⟨text, htext, expected, hexpected, hne, _, ⟨hplain, rfl⟩, hlisted, hdigests, rfl⟩

/-- **What `verify_evidence_directory` accepts.** -/
theorem verify_ok_iff {hexdigest : ByteArray → String} {below : Dict Entry} {names : List String} :
    verify_evidence_directory hexdigest (.directory below) = .ok names ↔
      ∃ checksum lines expected, fileAt below CHECKSUMS = some checksum ∧ inventory_lines checksum = some lines ∧
        lines.foldlM addLine .empty = .ok expected ∧ expected.items ≠ [] ∧ Expected hexdigest below expected ∧
        names = expected.keys.insertionSort (· ≤ ·) := by
  rw [verify_evidence_directory]
  split
  · next checksum hget =>
    have hfile : fileAt below CHECKSUMS = some checksum := by rw [fileAt, hget]
    rw [verifyBelow_ok_iff, hfile]
    constructor
    · rintro ⟨lines, expected, h⟩
      exact ⟨checksum, lines, expected, rfl, h⟩
    · rintro ⟨_, lines, expected, hchecksum, h⟩
      cases hchecksum
      exact ⟨lines, expected, h⟩
  · next hother =>
    have hfile : fileAt below CHECKSUMS = none := by
      unfold fileAt
      split
      · next content hget => exact absurd hget (hother content)
      · rfl
    simp [hfile]

/-! ## What the writer leaves -/

theorem perm_rglob (below : Dict Entry) : (rglob below).Perm below.items := List.perm_insertionSort _ _

/-- The files below a directory, as the writer meets them. -/
def files (below : Dict Entry) : List (String × ByteArray) := inventoried (rglob below)

theorem mem_files {below : Dict Entry} {name : String} {content : ByteArray} :
    (name, content) ∈ files below ↔ name ≠ CHECKSUMS ∧ fileAt below name = some content := by
  rw [files, mem_inventoried, (perm_rglob below).mem_iff, fileAt_iff, and_comm]

theorem files_nodup (below : Dict Entry) : ((files below).map (·.1)).Nodup :=
  inventoried_nodup (((perm_rglob below).map _).nodup_iff.2 below.nodup)

/-- The sorted relative paths of the files. -/
def file_names (below : Dict Entry) : List String := ((files below).map (·.1)).insertionSort (· ≤ ·)

theorem mem_file_names {below : Dict Entry} {name : String} :
    name ∈ file_names below ↔ name ≠ CHECKSUMS ∧ ∃ content, fileAt below name = some content := by
  simp only [file_names, List.mem_insertionSort, List.mem_map, Prod.exists, exists_and_right, exists_eq_right, mem_files,
    exists_and_left]

/-- The text of an inventory. -/
def inventory_text (records : List (List Char)) : List Char := records.flatMap fun record => record ++ ['\n']

theorem intercalate_newline {records : List (List Char)} (h : records ≠ []) :
    List.intercalate ['\n'] records ++ ['\n'] = inventory_text records := by
  induction records with
  | nil => exact absurd rfl h
  | cons record records ih =>
    cases records with
    | nil => simp [inventory_text]
    | cons next records =>
      have hcons : inventory_text (record :: next :: records) = record ++ '\n' :: inventory_text (next :: records) := by
        simp [inventory_text]
      rw [hcons, ← ih (List.cons_ne_nil _ _), List.intercalate_cons_cons]
      simp

section
variable {what : String} {hexdigest : ByteArray → String} {below result : Dict Entry}

theorem write_inventory_ok (h : write_inventory what hexdigest below = .ok result) :
    (∀ x ∈ below.items, PlainEntry x.2) ∧ files below ≠ [] ∧ result = below.set CHECKSUMS
      (.file (String.ofList (inventory_text ((files below).map (checksumLine hexdigest)))).toUTF8) := by
  rw [write_inventory, except_bind_eq_ok] at h
  obtain ⟨walked, hwalked, h⟩ := h
  obtain ⟨hplain, rfl⟩ := files_below_ok_iff.1 hwalked
  obtain ⟨hne, h⟩ := except_raise_eq_ok.1 h
  rw [intercalate_newline hne] at h
  refine ⟨fun x hx => hplain x ((perm_rglob below).mem_iff.2 hx), fun hnil => hne (by rw [files] at hnil; rw [hnil]; rfl), ?_⟩
  split at h
  · cases h
  · cases h
    rfl

/-- What the writer needs: no link, no special file, some file, and no directory in the inventory's place. -/
theorem write_inventory_succeeds (hplain : ∀ x ∈ below.items, PlainEntry x.2) (hfiles : files below ≠ [])
    (hplace : below.get? CHECKSUMS ≠ some .directory) : ∃ result, write_inventory what hexdigest below = .ok result := by
  have hwalk : files_below what (rglob below) = .ok (files below) :=
    files_below_ok_iff.2 ⟨fun x hx => hplain x ((perm_rglob below).mem_iff.1 hx), rfl⟩
  rw [write_inventory, hwalk, except_ok_bind]
  dsimp only
  rw [if_neg (by simpa using hfiles)]
  split
  · next hdirectory => exact absurd hdirectory hplace
  · exact ⟨_, rfl⟩

theorem fileAt_set {content : ByteArray} {name : String} :
    fileAt (below.set CHECKSUMS (.file content)) name = if name = CHECKSUMS then some content else fileAt below name := by
  apply Option.ext
  intro c
  rw [fileAt_iff, Dict.mem_items, Dict.get?_set]
  split
  · rw [Entry.file.injEq, Option.some.injEq, eq_comm]
  · rw [fileAt_iff, Dict.mem_items]

theorem plain_set {content : ByteArray} (h : ∀ x ∈ below.items, PlainEntry x.2) :
    ∀ x ∈ (below.set CHECKSUMS (.file content)).items, PlainEntry x.2 := by
  rintro ⟨name, entry⟩ hx
  rw [Dict.mem_items, Dict.get?_set] at hx
  split at hx
  · rw [hx]
    trivial
  · exact h (name, entry) (Dict.mem_items.2 hx)

end

/-- The names and digests of the files. -/
def digests (hexdigest : ByteArray → String) (below : Dict Entry) : List (String × String) :=
  (files below).map fun x => (x.1, hexdigest x.2)

section
variable {what : String} {hexdigest : ByteArray → String} {below result : Dict Entry}
  (hhex : ∀ b, isSha256 (hexdigest b) = true)
include hhex

/-- The lines that the reader meets, if it can list the names. -/
theorem written_lines (hnames : ∀ name ∈ file_names below, Listable name) :
    inventory_lines (String.ofList (inventory_text ((files below).map (checksumLine hexdigest)))).toUTF8 =
      some ((digests hexdigest below).map row) := by
  have hplain : ∀ record ∈ (files below).map (checksumLine hexdigest), Unbroken record := by
    intro record hrecord c hc
    obtain ⟨⟨name, content⟩, hx, rfl⟩ := List.mem_map.1 hrecord
    have hlistable := hnames name (mem_file_names.2 ⟨(mem_files.1 hx).1, content, (mem_files.1 hx).2⟩)
    rw [checksumLine, List.mem_append, List.mem_cons, List.mem_cons] at hc
    rcases hc with hc | rfl | rfl | hc
    · exact (isSha256_chars (hhex content) hc).2
    · rfl
    · rfl
    · exact hlistable.plain c hc
  have hreturn : '\r' ∉ inventory_text ((files below).map (checksumLine hexdigest)) := by
    intro hmem
    obtain ⟨record, hrecord, hmem⟩ := List.mem_flatMap.1 hmem
    rcases List.mem_append.1 hmem with hmem | hmem
    · exact (hplain record hrecord).no_return hmem
    · exact absurd (List.mem_singleton.1 hmem) (by decide)
  rw [inventory_lines, Serialize.read_text_toUTF8 (by rwa [String.toList_ofList])]
  simp only [Except.toOption, Option.map_some, String.toList_ofList, inventory_text, splitlines_lines hplain, digests,
    List.map_map]
  rfl

theorem digests_accepted (hnames : ∀ name ∈ file_names below, Listable name) :
    ∃ expected, ((digests hexdigest below).map row).foldlM addLine .empty = .ok expected ∧
      expected.items = digests hexdigest below := by
  have hlistable : ∀ x ∈ files below, Listable x.1 := fun x hx =>
    hnames x.1 (mem_file_names.2 ⟨(mem_files.1 hx).1, x.2, (mem_files.1 hx).2⟩)
  obtain ⟨expected, hexpected, hitems⟩ := @addLine_foldlM _ hhex _ hlistable .empty (files_nodup below)
  refine ⟨expected, ?_, hitems⟩
  rw [digests, List.map_map]
  exact hexpected

/-- **What was written verifies, with the paths of the files.** -/
theorem written_verifies (h : write_inventory what hexdigest below = .ok result)
    (hnames : ∀ name ∈ file_names below, Listable name) :
    verify_evidence_directory hexdigest (.directory result) = .ok (file_names below) := by
  obtain ⟨hplain, hne, rfl⟩ := write_inventory_ok h
  obtain ⟨expected, hexpected, hitems⟩ := digests_accepted hhex hnames
  have hkeys : expected.keys = (files below).map (·.1) := by
    rw [Dict.keys, hitems, digests, List.map_map]
    rfl
  refine verify_ok_iff.2 ⟨_, _, expected, by rw [fileAt_set, if_pos rfl], written_lines hhex hnames, hexpected, ?_, ?_, ?_⟩
  · rw [hitems, digests]
    simpa using hne
  · refine ⟨plain_set hplain, fun name => ?_, fun name content hother hfile => ?_⟩
    · rw [hkeys, fileAt_set]
      simp only [List.mem_map, Prod.exists, exists_and_right, exists_eq_right, mem_files, exists_and_left]
      refine and_congr_right fun hother => ?_
      rw [if_neg hother]
    · rw [fileAt_set, if_neg hother] at hfile
      rw [← Dict.mem_items, hitems]
      exact List.mem_map_of_mem (f := fun x : String × ByteArray => (x.1, hexdigest x.2)) (mem_files.2 ⟨hother, hfile⟩)
  · rw [hkeys, file_names]

end

/-- The names that verify can be listed. -/
theorem listable_of_verified {hexdigest : ByteArray → String} {below : Dict Entry} {names : List String}
    (h : verify_evidence_directory hexdigest (.directory below) = .ok names) : ∀ name ∈ file_names below, Listable name := by
  obtain ⟨checksum, lines, expected, -, hlines, hexpected, -, hagrees, -⟩ := verify_ok_iff.1 h
  obtain ⟨xs, rfl, hitems, haccepted⟩ := addLines_items hexpected
  intro name hname
  obtain ⟨x, hx, rfl⟩ := List.mem_map.1 ((hagrees.names name).2 (mem_file_names.1 hname))
  rw [hitems] at hx
  have hx : x ∈ xs := hx
  refine ⟨(haccepted x hx).safe, ?_, (haccepted x hx).other⟩
  unfold inventory_lines at hlines
  obtain ⟨text, -, hsplit⟩ := Option.map_eq_some_iff.1 hlines
  have hunbroken : Unbroken (row x) := by
    refine unbroken_of_mem (s := text.toList) (w := []) (fun c hc => by cases hc) ?_
    rw [← splitlines, hsplit]
    exact List.mem_map_of_mem hx
  intro c hc
  exact hunbroken c (List.mem_append_right _ (List.mem_cons_of_mem _ (List.mem_cons_of_mem _ hc)))

/-! ## One change behind the writer -/

/-- One change of a directory, of its files or of its inventory's lines. Directories may come and go with it. -/
inductive SingleChange (before after : String → Option ByteArray) : Prop
  | altered {name : String} {content content' : ByteArray} (other : name ≠ CHECKSUMS) (file : before name = some content)
      (new : content' ≠ content) (change : after = Function.update before name (some content'))
  | added {name : String} {content : ByteArray} (free : before name = none)
      (change : after = Function.update before name (some content))
  | removed {name : String} {content : ByteArray} (file : before name = some content)
      (change : after = Function.update before name none)
  | renamed {name name' : String} {content : ByteArray} (file : before name = some content) (free : before name' = none)
      (change : after = Function.update (Function.update before name none) name' (some content))
  | dropped {checksum checksum' : ByteArray} {lines lines' : List (List Char)} {line : List Char}
      (file : before CHECKSUMS = some checksum) (old : inventory_lines checksum = some (lines ++ line :: lines'))
      (new : inventory_lines checksum' = some (lines ++ lines'))
      (change : after = Function.update before CHECKSUMS (some checksum'))
  | duplicated {checksum checksum' : ByteArray} {lines lines' : List (List Char)} {line : List Char}
      (file : before CHECKSUMS = some checksum) (old : inventory_lines checksum = some (lines ++ lines'))
      (listed : line ∈ lines ++ lines') (new : inventory_lines checksum' = some (lines ++ line :: lines'))
      (change : after = Function.update before CHECKSUMS (some checksum'))

/-- No collision between two contents of a file. -/
def CollisionFree (hexdigest : ByteArray → String) (before after : String → Option ByteArray) : Prop :=
  ∀ name content content', before name = some content → after name = some content' →
    hexdigest content = hexdigest content' → content = content'

/-- What the reader expects by the lines of an inventory. -/
structure Inventory (lines : List (List Char)) (expected : Dict String) : Prop where
  rows : lines = expected.items.map row
  accepted : ∀ x ∈ expected.items, Accepted x

theorem inventory_of_read {lines : List (List Char)} {expected : Dict String}
    (h : lines.foldlM addLine .empty = .ok expected) : Inventory lines expected := by
  obtain ⟨xs, rfl, hitems, haccepted⟩ := addLines_items h
  have hitems : expected.items = xs := hitems
  exact ⟨by rw [hitems], by rwa [hitems]⟩

/-- A line is there once. -/
theorem Inventory.nodup {lines : List (List Char)} {expected : Dict String} (h : Inventory lines expected) : lines.Nodup := by
  rw [h.rows]
  refine (List.Nodup.of_map _ expected.nodup).map_on fun x hx y hy hrow => ?_
  exact row_injective (h.accepted x hx).digest (h.accepted y hy).digest hrow

/-- Equal lines, equal entries. -/
theorem Inventory.get?_eq {lines lines' : List (List Char)} {expected expected' : Dict String} (h : Inventory lines expected)
    (h' : Inventory lines' expected') {name digest : String} (hget : expected.get? name = some digest)
    (hline : row (name, digest) ∈ lines') : expected'.get? name = some digest := by
  rw [h'.rows] at hline
  obtain ⟨x, hx, hrow⟩ := List.mem_map.1 hline
  have hdigest := (h.accepted _ (Dict.mem_items.2 hget)).digest
  rw [row_injective (h'.accepted x hx).digest hdigest hrow] at hx
  exact Dict.mem_items.1 hx

theorem Inventory.line_mem {lines : List (List Char)} {expected : Dict String} (h : Inventory lines expected)
    {name digest : String} (hget : expected.get? name = some digest) : row (name, digest) ∈ lines := by
  rw [h.rows]
  exact List.mem_map_of_mem (Dict.mem_items.2 hget)

/-- **Two verified directories with the same lines have the same files**, up to a collision. -/
theorem same_files {hexdigest : ByteArray → String} {below below' : Dict Entry} {expected : Dict String}
    (h : Expected hexdigest below expected) (h' : Expected hexdigest below' expected)
    (hfree : CollisionFree hexdigest (fileAt below) (fileAt below')) {name : String} (hother : name ≠ CHECKSUMS) :
    fileAt below name = fileAt below' name := by
  apply Option.ext
  intro content
  constructor
  · intro hfile
    obtain ⟨-, content', hfile'⟩ := (h'.names name).1 ((h.names name).2 ⟨hother, content, hfile⟩)
    have hdigest := (h.digests name content hother hfile).symm.trans (h'.digests name content' hother hfile')
    rw [hfree name content content' hfile hfile' (Option.some.inj hdigest), hfile']
  · intro hfile'
    obtain ⟨-, content', hfile⟩ := (h.names name).1 ((h'.names name).2 ⟨hother, content, hfile'⟩)
    have hdigest := (h.digests name content' hother hfile).symm.trans (h'.digests name content hother hfile')
    rw [← hfree name content' content hfile hfile' (Option.some.inj hdigest), hfile]

/-- A file has its lines only. -/
theorem lines_unique {file : Option ByteArray} {checksum checksum' : ByteArray} {lines lines' : List (List Char)}
    (hfile : file = some checksum) (hlines : inventory_lines checksum = some lines) (hfile' : file = some checksum')
    (hlines' : inventory_lines checksum' = some lines') : lines = lines' := by
  cases hfile.symm.trans hfile'
  exact Option.some.inj (hlines.symm.trans hlines')

/-- **A single change of a verified directory is refused.** -/
theorem change_refused {hexdigest : ByteArray → String} {below changed : Dict Entry} {names names' : List String}
    (h : verify_evidence_directory hexdigest (.directory below) = .ok names)
    (hchange : SingleChange (fileAt below) (fileAt changed))
    (hfree : CollisionFree hexdigest (fileAt below) (fileAt changed)) :
    verify_evidence_directory hexdigest (.directory changed) ≠ .ok names' := by
  intro h'
  obtain ⟨checksum, lines, expected, hfile, hlines, hread, -, hfiles, -⟩ := verify_ok_iff.1 h
  obtain ⟨checksum', lines', expected', hfile', hlines', hread', -, hfiles', -⟩ := verify_ok_iff.1 h'
  -- the inventory as it was
  have hsame : fileAt changed CHECKSUMS = fileAt below CHECKSUMS → expected' = expected := by
    intro heq
    rw [hfile, hfile', Option.some.injEq] at heq
    rw [heq, hlines, Option.some.injEq] at hlines'
    rw [← hlines', hread, Except.ok.injEq] at hread'
    exact hread'.symm
  have hkept : ∀ name, fileAt changed CHECKSUMS = fileAt below CHECKSUMS → name ≠ CHECKSUMS →
      fileAt below name = fileAt changed name := fun name heq hother =>
    same_files hfiles (hsame heq ▸ hfiles') hfree hother
  cases hchange with
  | altered hother hcontent hnew hafter =>
    have hname := congrFun hafter
    have hsum := hname CHECKSUMS
    rw [Function.update_of_ne (Ne.symm hother)] at hsum
    have hsame := hkept _ hsum hother
    rw [hname, Function.update_self, hcontent, Option.some.injEq] at hsame
    exact hnew hsame.symm
  | @added name content hnone hafter =>
    have hother : name ≠ CHECKSUMS := by
      rintro rfl
      rw [hfile] at hnone
      cases hnone
    have hname := congrFun hafter
    have hsum := hname CHECKSUMS
    rw [Function.update_of_ne (Ne.symm hother)] at hsum
    have hsame := hkept name hsum hother
    rw [hname, Function.update_self, hnone] at hsame
    cases hsame
  | @removed name content hcontent hafter =>
    have hname := congrFun hafter
    by_cases hother : name = CHECKSUMS
    · rw [hname, ← hother, Function.update_self] at hfile'
      cases hfile'
    · have hsum := hname CHECKSUMS
      rw [Function.update_of_ne (Ne.symm hother)] at hsum
      have hsame := hkept name hsum hother
      rw [hname, Function.update_self, hcontent] at hsame
      cases hsame
  | @renamed name name' content hcontent hnone hafter =>
    have hname := congrFun hafter
    have hdifferent : name ≠ name' := by
      rintro rfl
      rw [hcontent] at hnone
      cases hnone
    have hother' : name' ≠ CHECKSUMS := by
      rintro rfl
      rw [hfile] at hnone
      cases hnone
    by_cases hother : name = CHECKSUMS
    · rw [hname, Function.update_of_ne (Ne.symm hother'), ← hother, Function.update_self] at hfile'
      cases hfile'
    · have hsum := hname CHECKSUMS
      rw [Function.update_of_ne (Ne.symm hother'), Function.update_of_ne (Ne.symm hother)] at hsum
      have hsame := hkept name hsum hother
      rw [hname, Function.update_of_ne hdifferent, Function.update_self, hcontent] at hsame
      cases hsame
  | @dropped checksum₁ checksum₂ lines₁ lines₂ line hfile₁ hold hnew hafter =>
    have hsum : fileAt changed CHECKSUMS = some checksum₂ := by rw [hafter, Function.update_self]
    obtain rfl := lines_unique hfile hlines hfile₁ hold
    obtain rfl := lines_unique hfile' hlines' hsum hnew
    have hinventory := inventory_of_read hread
    have hnodup := hinventory.nodup
    -- the file of the dropped line
    have hline : line ∈ expected.items.map row := hinventory.rows ▸ List.mem_append_right _ List.mem_cons_self
    obtain ⟨⟨name, digest⟩, hx, rfl⟩ := List.mem_map.1 hline
    have hget := Dict.mem_items.1 hx
    obtain ⟨hother, content, hcontent⟩ := (hfiles.names name).1 (Dict.mem_keys.2 ⟨digest, hget⟩)
    have hstill : fileAt changed name = some content := by rw [hafter, Function.update_of_ne hother, hcontent]
    have hget' := hfiles'.digests name content hother hstill
    rw [← hfiles.digests name content hother hcontent, hget] at hget'
    have hmem := (inventory_of_read hread').line_mem hget'
    rw [List.nodup_middle, List.nodup_cons] at hnodup
    exact hnodup.1 hmem
  | @duplicated checksum₁ checksum₂ lines₁ lines₂ line hfile₁ hold hlisted hnew hafter =>
    have hsum : fileAt changed CHECKSUMS = some checksum₂ := by rw [hafter, Function.update_self]
    obtain rfl := lines_unique hfile' hlines' hsum hnew
    have hnodup := (inventory_of_read hread').nodup
    rw [List.nodup_middle, List.nodup_cons] at hnodup
    exact hnodup.1 hlisted

/-- What was written verifies only if the reader can list the names. -/
theorem listable_of_written {what : String} {hexdigest : ByteArray → String} {below result : Dict Entry} {names : List String}
    (h : write_inventory what hexdigest below = .ok result)
    (hverified : verify_evidence_directory hexdigest (.directory result) = .ok names) :
    ∀ name ∈ file_names below, Listable name := by
  intro name hname
  obtain ⟨hother, hfile⟩ := mem_file_names.1 hname
  refine listable_of_verified hverified name (mem_file_names.2 ⟨hother, ?_⟩)
  obtain ⟨-, -, rfl⟩ := write_inventory_ok h
  rwa [fileAt_set, if_neg hother]

/-- The round trip, and a refusal of every single change. -/
structure Survives (hexdigest : ByteArray → String) (below result : Dict Entry) : Prop where
  verifies : verify_evidence_directory hexdigest (.directory result) = .ok (file_names below)
  refuses : ∀ changed, SingleChange (fileAt result) (fileAt changed) → CollisionFree hexdigest (fileAt result) (fileAt changed) →
    ∃ e, verify_evidence_directory hexdigest (.directory changed) = .error e

/-- **The round trip holds and every single change is refused, exactly if the reader can list the names.** -/
theorem inventory_iff {what : String} {hexdigest : ByteArray → String} (hhex : ∀ b, isSha256 (hexdigest b) = true)
    {below result : Dict Entry} (h : write_inventory what hexdigest below = .ok result) :
    Survives hexdigest below result ↔ ∀ name ∈ file_names below, Listable name := by
  constructor
  · intro hsurvives
    exact listable_of_written h hsurvives.verifies
  · intro hnames
    have hverified := written_verifies hhex h hnames
    refine ⟨hverified, fun changed hchange hfree => ?_⟩
    cases hresult : verify_evidence_directory hexdigest (.directory changed) with
    | error e => exact ⟨e, rfl⟩
    | ok names => exact absurd hresult (change_refused hverified hchange hfree)

namespace Sample

/-- The digest of no bytes. -/
def hexdigest (_ : ByteArray) : String := "e3b0c44298fc1c149afbf4c8996fb92427ae41e4649b934ca495991b7852b855"

theorem hexdigest_digest (b : ByteArray) : isSha256 (hexdigest b) = true := by
  unfold hexdigest
  decide +kernel

/-- One empty file. -/
def single (name : String) : Dict Entry := ⟨[(name, .file .empty)], List.nodup_singleton name⟩

end Sample

end Evidence

open Evidence

namespace ReleaseCache

def _write_inventory (hexdigest : ByteArray → String) (root : Dict Entry) : Except PyErr (Dict Entry) :=
  write_inventory "release-cache staging" hexdigest root

theorem written_survives_iff {hexdigest : ByteArray → String} (hhex : ∀ b, isSha256 (hexdigest b) = true)
    {root result : Dict Entry} (h : _write_inventory hexdigest root = .ok result) :
    Survives hexdigest root result ↔ ∀ name ∈ file_names root, Listable name := inventory_iff hhex h

theorem result_survives : ∃ result, _write_inventory Sample.hexdigest (Sample.single "result.env") = .ok result ∧
    Survives Sample.hexdigest (Sample.single "result.env") result := by
  refine ⟨_, rfl, (written_survives_iff Sample.hexdigest_digest rfl).2 fun name hname => ?_⟩
  have hnames : file_names (Sample.single "result.env") = ["result.env"] := by decide
  rw [hnames, List.mem_singleton] at hname
  subst hname
  exact ⟨by rfl, plain_of_all (by decide), by decide⟩

/-- A name of two lines. -/
theorem newline_unread : ¬∀ hexdigest : ByteArray → String, (∀ b, isSha256 (hexdigest b) = true) →
    ∀ root result, _write_inventory hexdigest root = .ok result → Survives hexdigest root result := by
  intro h
  obtain ⟨result, hwrite⟩ : ∃ result, _write_inventory Sample.hexdigest (Sample.single "a\nb") = .ok result := ⟨_, rfl⟩
  have hsurvives := h Sample.hexdigest Sample.hexdigest_digest _ result hwrite
  have hlistable := listable_of_written hwrite hsurvives.verifies "a\nb" (by decide)
  exact absurd (hlistable.plain '\n' (by decide)) (by decide)

end ReleaseCache

namespace GithubArtifacts

def _write_inventory (hexdigest : ByteArray → String) (root : Dict Entry) : Except PyErr (Dict Entry) :=
  write_inventory "artifact evidence" hexdigest root

/-- The sibling writer. -/
theorem artifacts_survive_iff {hexdigest : ByteArray → String} (hhex : ∀ b, isSha256 (hexdigest b) = true)
    {root result : Dict Entry} (h : _write_inventory hexdigest root = .ok result) :
    Survives hexdigest root result ↔ ∀ name ∈ file_names root, Listable name := inventory_iff hhex h

end GithubArtifacts
