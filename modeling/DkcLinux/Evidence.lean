import DkcLinux.Records
import DkcLinux.Text.Dict

/-!
# Hash-bound handoffs (`dkc/evidence.py`)

A handoff is a directory whose `evidence.sha256` lists the digest of every other file.

| `verify_evidence_directory`      | here        |
|----------------------------------|-------------|
| one line of the checksum file    | `addLine`   |
| the walk over the directory      | `observe`   |
| names and digests compared       | `verifyBelow` |

`verify_written`: what a writer leaves with the checksums of its files verifies.
-/

open Py Records

/-- What a walk finds under a name. -/
inductive Entry where
  | file (content : ByteArray)
  | directory
  | symlink
  | special

/-- A path: nothing, a link, a file, or a directory with all that `rglob` finds below it. -/
inductive Root where
  | absent
  | symlink
  | file
  | directory (below : Dict Entry)

/-- `(root / name).read_text(encoding="utf-8")`. -/
def Root.read_text (root : Root) (name : String) : Except PyErr String :=
  match root with
  | .directory below =>
    match below.get? name with
    | some (.file content) => Serialize.read_text content
    | _ => .error .OSError
  | _ => .error .OSError

namespace Evidence

def CHECKSUMS : String := "evidence.sha256"

/-- `_safe_relative`. `Path` drops empty and `.` segments, but of `.` itself it leaves `.`. -/
def safe_relative (value : String) : Except PyErr String :=
  if value = "" || padded value || contains value "\\" || (value ≠ "." &&
      (value.toList.splitOn '/').any fun segment => [[], ['.'], ['.', '.']].contains segment) then
    .error (.ValueError "evidence inventory contains an unsafe path")
  else .ok value

def malformed : PyErr := .ValueError "evidence checksum manifest is malformed"

/-- One line of the checksum file. -/
def addLine (expected : Dict String) (line : List Char) : Except PyErr (Dict String) :=
  match partitionOn [' ', ' '] line with
  | none => .error malformed
  | some (digest, raw_name) => do
    if !isSha256 (String.ofList digest) then throw malformed
    let name ← safe_relative (String.ofList raw_name)
    if h : name ∉ expected.keys ∧ name ≠ CHECKSUMS then
      return expected.add name (String.ofList digest) h.1
    throw (.ValueError "evidence checksum manifest repeats or names itself")

/-- The files a walk finds, but the checksum file. -/
def observe : List (String × Entry) → Except PyErr (List (String × ByteArray))
  | [] => .ok []
  | (name, .file content) :: rest => do
    let files ← observe rest
    return if name = CHECKSUMS then files else (name, content) :: files
  | (_, .directory) :: rest => observe rest
  | (_, .symlink) :: _ => .error (.ValueError "evidence handoff contains a symbolic link")
  | (_, .special) :: _ => .error (.ValueError "evidence handoff contains a special file")

section
-- `hashlib.sha256(...).hexdigest()`
variable (hexdigest : ByteArray → String)

def verifyBelow (below : Dict Entry) (checksum : ByteArray) : Except PyErr (List String) := do
  let text ← Serialize.read_text checksum
  let expected ← (splitlines text.toList).foldlM addLine .empty
  if expected.items.isEmpty then
    throw (.ValueError "evidence checksum manifest is empty")
  let observed ← observe (sortedItems below.items)
  if !(observed.all fun x => expected.keys.contains x.1) ||
      !(expected.keys.all fun name => (observed.map (·.1)).contains name) then
    throw (.ValueError "evidence checksum manifest does not match the handoff")
  if observed.any fun x => expected.get? x.1 ≠ some (hexdigest x.2) then
    throw (.ValueError "evidence checksum verification failed")
  return expected.keys.insertionSort (· ≤ ·)

/-- `verify_evidence_directory`. -/
def verify_evidence_directory (root : Root) : Except PyErr (List String) :=
  match root with
  | .symlink => .error (.ValueError "evidence root is a symbolic link")
  | .absent => .error .OSError
  | .file => .error (.ValueError "evidence root is not a directory")
  | .directory below =>
    match below.get? CHECKSUMS with
    | some (.file checksum) => verifyBelow hexdigest below checksum
    | _ => .error (.ValueError "evidence checksum manifest is not a regular file")

/-! ## Writing a handoff -/

/-- The line of one file, without its newline. -/
def checksumLine (x : String × ByteArray) : List Char :=
  (hexdigest x.2).toList ++ ' ' :: ' ' :: x.1.toList

def checksums (files : Dict ByteArray) : String :=
  String.ofList ((sortedItems files.items).flatMap fun x => checksumLine hexdigest x ++ ['\n'])

/-- The files and their checksums. -/
def contents (files : Dict ByteArray) (h : CHECKSUMS ∉ files.keys) : Dict Entry :=
  (files.map .file).add CHECKSUMS (.file (checksums hexdigest files).toUTF8) (by rwa [Dict.keys_map])

def written (files : Dict ByteArray) (h : CHECKSUMS ∉ files.keys) : Root :=
  .directory (contents hexdigest files h)

end

/-- A name that the checksum file can list. -/
structure Listable (name : String) : Prop where
  safe : safe_relative name = .ok name
  plain : ∀ c ∈ name.toList, isLineBreak c = false
  other : name ≠ CHECKSUMS

theorem plain_of_all {name : String} (h : (name.toList.all fun c => !isLineBreak c) = true) :
    ∀ c ∈ name.toList, isLineBreak c = false := fun c hc => by
  simpa using List.all_eq_true.1 h c hc

theorem isLowerHex_range {c : Char} (h : isLowerHex c = true) :
    (48 ≤ c.toNat ∧ c.toNat ≤ 57) ∨ (97 ≤ c.toNat ∧ c.toNat ≤ 102) := by
  rw [isLowerHex, Bool.or_eq_true, isAsciiDigit_iff] at h
  simpa [Char.le_def, UInt32.le_iff_toNat_le] using h

theorem isSha256_chars {digest : String} (h : isSha256 digest = true) {c : Char} (hc : c ∈ digest.toList) :
    c ≠ ' ' ∧ isLineBreak c = false := by
  simp only [isSha256, fullmatchClass, Bool.and_eq_true, List.all_eq_true] at h
  have hrange := isLowerHex_range (h.1.1 c hc)
  constructor
  · rintro rfl
    revert hrange
    decide
  · simp only [isLineBreak, Bool.or_eq_false_iff, Bool.and_eq_false_iff, beq_eq_false_iff_ne,
      decide_eq_false_iff_not]
    omega

section
variable {hexdigest : ByteArray → String} (hhex : ∀ b, isSha256 (hexdigest b) = true)
include hhex

/-- A written line is read as it was written. -/
theorem addLine_written {expected : Dict String} {x : String × ByteArray} (hx : Listable x.1)
    (hnew : x.1 ∉ expected.keys) :
    addLine expected (checksumLine hexdigest x) = .ok (expected.add x.1 (hexdigest x.2) hnew) := by
  have hblank : ' ' ∉ (hexdigest x.2).toList := fun h => (isSha256_chars (hhex x.2) h).1 rfl
  have hvalid : (!isSha256 (hexdigest x.2)) = false := by rw [hhex]; rfl
  rw [addLine, checksumLine, partitionOn_append hblank]
  simp only [String.ofList_toList, hvalid, hx.safe, Bool.false_eq_true, if_false, except_ok_bind]
  rw [dif_pos ⟨hnew, hx.other⟩]
  rfl

theorem addLine_foldlM {xs : List (String × ByteArray)} (hx : ∀ x ∈ xs, Listable x.1) {expected : Dict String}
    (hn : (expected.keys ++ xs.map (·.1)).Nodup) :
    ∃ d, (xs.map (checksumLine hexdigest)).foldlM addLine expected = .ok d ∧
      d.items = expected.items ++ xs.map fun x => (x.1, hexdigest x.2) := by
  induction xs generalizing expected with
  | nil => exact ⟨expected, rfl, by simp⟩
  | cons x xs ih =>
    have hnew : x.1 ∉ expected.keys := fun h =>
      (List.nodup_append.1 hn).2.2 x.1 h x.1 (by simp) rfl
    have hkeys : (expected.add x.1 (hexdigest x.2) hnew).keys = expected.keys ++ [x.1] := by
      simp [Dict.keys, Dict.add]
    have hrest : ((expected.add x.1 (hexdigest x.2) hnew).keys ++ xs.map (·.1)).Nodup := by
      rw [hkeys]
      simpa using hn
    obtain ⟨d, hd, hitems⟩ := ih (fun y hy => hx y (List.mem_cons_of_mem _ hy)) hrest
    refine ⟨d, ?_, by rw [hitems]; simp [Dict.add]⟩
    rw [List.map_cons, List.foldlM_cons, addLine_written hhex (hx x List.mem_cons_self) hnew]
    exact hd

/-- The checksum file is read as the digests of the files. -/
theorem checksums_read {files : Dict ByteArray} (hfiles : ∀ name ∈ files.keys, Listable name) :
    ∃ text expected, Serialize.read_text (checksums hexdigest files).toUTF8 = .ok text ∧
      (splitlines text.toList).foldlM addLine .empty = .ok expected ∧
      expected.items = (sortedItems files.items).map fun x => (x.1, hexdigest x.2) := by
  have hsorted : ∀ x ∈ sortedItems files.items, Listable x.1 := fun x hx =>
    hfiles x.1 (List.mem_map_of_mem (mem_sortedItems.1 hx))
  have hplain : ∀ l ∈ (sortedItems files.items).map (checksumLine hexdigest), ∀ c ∈ l, isLineBreak c = false := by
    intro l hl c hc
    obtain ⟨x, hx, rfl⟩ := List.mem_map.1 hl
    simp only [checksumLine, List.mem_append, List.mem_cons] at hc
    rcases hc with hc | rfl | rfl | hc
    · exact (isSha256_chars (hhex x.2) hc).2
    · rfl
    · rfl
    · exact (hsorted x hx).plain c hc
  have htext : (checksums hexdigest files).toList =
      ((sortedItems files.items).map (checksumLine hexdigest)).flatMap fun l => l ++ ['\n'] := by
    rw [checksums, String.toList_ofList, List.flatMap_map]
  have hreturn : '\r' ∉ (checksums hexdigest files).toList := by
    rw [htext]
    intro h
    obtain ⟨l, hl, hc⟩ := List.mem_flatMap.1 h
    rcases List.mem_append.1 hc with hc | hc
    · exact absurd (hplain l hl _ hc) (by decide)
    · exact absurd hc (by decide)
  have hn : ((Dict.empty : Dict String).keys ++ (sortedItems files.items).map (·.1)).Nodup :=
    ((perm_sortedItems files.items).map _).nodup_iff.2 files.nodup
  obtain ⟨expected, hd, hitems⟩ := @addLine_foldlM _ hhex _ hsorted .empty hn
  exact ⟨_, expected, Serialize.read_text_toUTF8 hreturn, by rw [htext, splitlines_lines hplain, hd], hitems⟩

end

/-- A directory of plain files. -/
theorem observe_files {entries : List (String × Entry)} (h : ∀ x ∈ entries, ∃ content, x.2 = .file content) :
    ∃ files, observe entries = .ok files ∧
      ∀ name content, (name, content) ∈ files ↔ (name, Entry.file content) ∈ entries ∧ name ≠ CHECKSUMS := by
  induction entries with
  | nil => exact ⟨[], rfl, by simp⟩
  | cons x entries ih =>
    obtain ⟨files, hfiles, hmem⟩ := ih fun y hy => h y (List.mem_cons_of_mem _ hy)
    obtain ⟨name, entry⟩ := x
    obtain ⟨content, rfl⟩ := h (name, entry) List.mem_cons_self
    refine ⟨if name = CHECKSUMS then files else (name, content) :: files, by rw [observe, hfiles]; rfl, ?_⟩
    intro k b
    by_cases hname : name = CHECKSUMS
    · rw [if_pos hname, hmem, List.mem_cons]
      constructor
      · rintro ⟨hb, hk⟩
        exact ⟨.inr hb, hk⟩
      · rintro ⟨hb | hb, hk⟩
        · cases hb
          exact absurd hname hk
        · exact ⟨hb, hk⟩
    · rw [if_neg hname, List.mem_cons, List.mem_cons, hmem]
      constructor
      · rintro (hb | ⟨hb, hk⟩)
        · cases hb
          exact ⟨.inl rfl, hname⟩
        · exact ⟨.inr hb, hk⟩
      · rintro ⟨hb | hb, hk⟩
        · cases hb
          exact .inl rfl
        · exact .inr ⟨hb, hk⟩

section
variable {hexdigest : ByteArray → String} {files : Dict ByteArray} (h : CHECKSUMS ∉ files.keys)

theorem get?_contents {name : String} {entry : Entry} : (contents hexdigest files h).get? name = some entry ↔
    (∃ content, files.get? name = some content ∧ .file content = entry) ∨
      (name = CHECKSUMS ∧ entry = .file (checksums hexdigest files).toUTF8) := by
  rw [contents, Dict.get?_add, Dict.get?_map]

theorem observe_written (hfiles : ∀ name ∈ files.keys, Listable name) :
    ∃ observed, observe (sortedItems (contents hexdigest files h).items) = .ok observed ∧
      ∀ name content, (name, content) ∈ observed ↔ files.get? name = some content := by
  obtain ⟨observed, hobserved, hmem⟩ := @observe_files (sortedItems (contents hexdigest files h).items) (by
    rintro ⟨name, entry⟩ hx
    rw [mem_sortedItems, Dict.mem_items, get?_contents] at hx
    rcases hx with ⟨content, -, rfl⟩ | ⟨-, rfl⟩
    · exact ⟨content, rfl⟩
    · exact ⟨_, rfl⟩)
  refine ⟨observed, hobserved, fun name content => ?_⟩
  rw [hmem, mem_sortedItems, Dict.mem_items, get?_contents]
  constructor
  · rintro ⟨⟨content', hget, hc⟩ | ⟨hname, -⟩, hne⟩
    · cases hc
      exact hget
    · exact absurd hname hne
  · intro hget
    have hkey : name ∈ files.keys := Dict.mem_keys.2 ⟨content, hget⟩
    exact ⟨.inl ⟨content, hget, rfl⟩, (hfiles name hkey).other⟩

/-- The comparison of the walk with the checksums, when both are the files'. -/
theorem compared {expected : Dict String} {observed : List (String × ByteArray)}
    (hitems : expected.items = (sortedItems files.items).map fun x => (x.1, hexdigest x.2))
    (hfile : ∀ name content, (name, content) ∈ observed ↔ files.get? name = some content) :
    observed.all (fun x => expected.keys.contains x.1) = true ∧
      expected.keys.all (fun name => (observed.map (·.1)).contains name) = true ∧
      observed.any (fun x => expected.get? x.1 ≠ some (hexdigest x.2)) = false := by
  have hkey : ∀ name, name ∈ expected.keys ↔ name ∈ files.keys := by
    intro name
    rw [Dict.keys, hitems, List.map_map]
    exact ((perm_sortedItems files.items).map _).mem_iff
  refine ⟨?_, ?_, ?_⟩
  · rw [List.all_eq_true]
    rintro ⟨name, content⟩ hx
    rw [List.contains_iff_mem, hkey]
    exact Dict.mem_keys.2 ⟨content, (hfile name content).1 hx⟩
  · rw [List.all_eq_true]
    intro name hname
    obtain ⟨content, hget⟩ := Dict.mem_keys.1 ((hkey name).1 hname)
    rw [List.contains_iff_mem]
    exact List.mem_map_of_mem (f := (·.1)) ((hfile name content).2 hget)
  · rw [List.any_eq_false]
    rintro ⟨name, content⟩ hx
    have hget : expected.get? name = some (hexdigest content) := by
      rw [← Dict.mem_items, hitems]
      exact List.mem_map_of_mem (f := fun x : String × ByteArray => (x.1, hexdigest x.2))
        (mem_sortedItems.2 (Dict.mem_items.2 ((hfile name content).1 hx)))
    simp [hget]

/-- **A written handoff verifies**, and its names are the files'. -/
theorem verify_written (hhex : ∀ b, isSha256 (hexdigest b) = true) (hfiles : ∀ name ∈ files.keys, Listable name)
    (hne : files.items ≠ []) :
    verify_evidence_directory hexdigest (written hexdigest files h) =
      .ok (files.keys.insertionSort (· ≤ ·)) := by
  obtain ⟨text, expected, htext, hexpected, hitems⟩ := checksums_read hhex hfiles
  obtain ⟨observed, hobserved, hfile⟩ := @observe_written hexdigest _ h hfiles
  obtain ⟨hlisted, hfound, hverified⟩ := compared hitems hfile
  have hempty : expected.items.isEmpty = false := by
    rw [hitems, List.isEmpty_eq_false_iff]
    intro hnil
    rw [List.map_eq_nil_iff] at hnil
    exact hne (List.Perm.nil_eq (hnil ▸ perm_sortedItems files.items)).symm
  have hsum := (@get?_contents hexdigest _ h _ _).2 (.inr ⟨rfl, rfl⟩)
  have hkeys : expected.keys.Perm files.keys := by
    rw [Dict.keys, hitems, List.map_map]
    exact (perm_sortedItems files.items).map _
  have hsort : (expected.keys.insertionSort (· ≤ ·)).Perm (files.keys.insertionSort (· ≤ ·)) :=
    (List.perm_insertionSort _ _).trans (hkeys.trans (List.perm_insertionSort _ _).symm)
  rw [written, verify_evidence_directory]
  simp only [hsum, verifyBelow, htext, hexpected, hobserved, hempty, hlisted, hfound, hverified, except_ok_bind,
    Bool.false_eq_true, if_false, Bool.not_true, Bool.or_self]
  exact congrArg Except.ok (hsort.eq_of_pairwise' (List.pairwise_insertionSort _ _) (List.pairwise_insertionSort _ _))

/-- A file of a written handoff is read. -/
theorem read_text_written {name : String} {content : ByteArray} (hget : files.get? name = some content) :
    (written hexdigest files h).read_text name = Serialize.read_text content := by
  have hentry := (@get?_contents hexdigest _ h _ _).2 (.inl ⟨content, hget, rfl⟩)
  rw [written, Root.read_text]
  simp only [hentry]

end

end Evidence
