import Mathlib.Logic.Function.Basic
import DkcLinux.Order.Occurs
import DkcLinux.Text.SurrogateEscape
import DkcLinux.Records

/-!
# Source patches (`dkc/sourcepatch.py`)

A patch is read into hunks for each file (`parse_patch`); `place` finds the one place of a hunk in the
text patched so far, `apply_file` works through the hunks of one file, and `apply_patch` tries the patch
and its reverse on every file before it writes.

A text is what `decode("utf-8", "surrogateescape")` makes of bytes, and a tree holds the bytes of its
regular files under the names on their way.
-/

namespace SourcePatch

abbrev Line := List CodePoint

/-! ## Text -/

def newline : CodePoint := .char '\n'

def ofString (s : String) : Line := s.toList.map .char

/-- As `repr` shows an escape. -/
def render (text : Line) : String :=
  String.join <| text.map fun
    | .char c => c.toString
    | .escape b => "\\udc" ++ String.ofList (Nat.toDigits 16 b.toNat)

def startswith (line : Line) (p : String) : Bool := (ofString p).isPrefixOf line

def isSpace : CodePoint → Bool
  | .char c => Py.isSpace c
  | .escape _ => false

def strip (line : Line) : Line := ((line.dropWhile isSpace).reverse.dropWhile isSpace).reverse

/-- Split on newlines only; kernel sources contain form feeds. -/
def lines (text : Line) : List Line :=
  let parts := text.splitOn newline
  parts.dropLast.map (· ++ [newline]) ++ (parts.getLast?.filter (· ≠ [])).toList

/-! ## Hunks -/

inductive Tag where
  | context
  | removed
  | added
deriving DecidableEq, Repr

def Tag.swap : Tag → Tag
  | .context => .context
  | .removed => .added
  | .added => .removed

/-- One hunk as (tag, line) pairs. `parse_hunk` raises where nothing changes. -/
structure Hunk where
  lines : List (Tag × Line)
  changes : ∃ line ∈ lines, line.1 ≠ .context

namespace Hunk

def old (hunk : Hunk) : List Line := (hunk.lines.filter fun line => line.1 ≠ .added).map (·.2)

def new (hunk : Hunk) : List Line := (hunk.lines.filter fun line => line.1 ≠ .removed).map (·.2)

def leading (hunk : Hunk) : Nat := (hunk.lines.takeWhile fun line => line.1 = .context).length

def trailing (hunk : Hunk) : Nat := (hunk.lines.reverse.takeWhile fun line => line.1 = .context).length

theorem Tag.swap_context {tag : Tag} : tag.swap = .context ↔ tag = .context := by cases tag <;> decide

/-- The hunk the other way. -/
def reversed (hunk : Hunk) : Hunk where
  lines := hunk.lines.map fun line => (line.1.swap, line.2)
  changes := by
    obtain ⟨line, hmem, htag⟩ := hunk.changes
    exact ⟨(line.1.swap, line.2), List.mem_map_of_mem hmem, mt Tag.swap_context.1 htag⟩

end Hunk

structure FilePatch where
  path : Line
  hunks : List Hunk

def FilePatch.reversed (item : FilePatch) : FilePatch := ⟨item.path, item.hunks.map Hunk.reversed⟩

/-! ## Reading a patch -/

def digit : CodePoint → Option Nat
  | .char c => Py.decimal c
  | .escape _ => none

/-- `\d+` and its value. -/
def number (line : Line) : Option (Nat × Line) :=
  match line.takeWhile fun c => (digit c).isSome with
  | [] => none
  | digits => some (digits.foldl (fun n c => 10 * n + (digit c).getD 0) 0, line.drop digits.length)

/-- `\d+(?:,(\d+))?` and the group; 1 is the count of a range without one. -/
def range (line : Line) : Option (Nat × Line) := do
  match ← number line with
  | (_, .char ',' :: line) => number line
  | (_, line) => some (1, line)

/-- What follows a text. -/
def after (p : String) (line : Line) : Option Line :=
  if startswith line p then some (line.drop p.length) else none

/-- `@@ -\d+(?:,(\d+))? \+\d+(?:,(\d+))? @@` and its counts. -/
def hunk_header (line : Line) : Option (Nat × Nat) := do
  let line ← after "@@ -" line
  let (old_count, line) ← range line
  let line ← after " +" line
  let (new_count, line) ← range line
  let _ ← after " @@" line
  some (old_count, new_count)

def UNSUPPORTED : List String :=
  ["rename from ", "rename to ", "copy from ", "copy to ", "new file mode ", "deleted file mode ",
    "old mode ", "new mode ", "Binary files ", "GIT binary patch"]

/-- The names on the way to a path: `PurePosixPath(path).parts` of a relative one. -/
def parts (path : Line) : List Line :=
  (path.splitOn (.char '/')).filter fun part => part ≠ [] && part ≠ ofString "."

def patch_path (header : Line) (pre : String) : Except PyErr Line :=
  let name := (header.drop 4).takeWhile fun c => c ≠ newline && c ≠ .char '\t'
  if name = ofString "/dev/null" then
    .error (.SourcePatchError "creating or deleting files is not supported")
  else if !startswith name pre then
    .error (.SourcePatchError ("patch path lacks the " ++ pre ++ " prefix: ") [render name])
  else
    let path := name.drop pre.length
    if parts path = [] || startswith path "/" || ofString ".." ∈ parts path then
      .error (.SourcePatchError "unsafe patch path: " [render name])
    else .ok path

/-- A line of a hunk: an empty one is blank context whose leading space was removed. -/
def hunk_line (line : Line) : Option (Tag × Line) :=
  if line = [newline] then some (.context, line)
  else
    let tag : Option Tag := match line.head? with
      | some (.char ' ') => some .context
      | some (.char '-') => some .removed
      | some (.char '+') => some .added
      | _ => none
    if line.tail.getLast? = some newline then tag.map fun tag => (tag, line.tail) else none

/-- The lines of a hunk up to its counts, and the lines left with the index of the first. -/
def hunk_body (path : Line) (old_count new_count : Nat) :
    List Line → Nat → Nat → Nat → Except PyErr (List (Tag × Line) × Nat × Nat × Nat × List Line)
  | [], index, old, new =>
    if old < old_count || new < new_count then
      .error (.SourcePatchError ("truncated hunk in " ++ render path))
    else .ok ([], old, new, index, [])
  | line :: rest, index, old, new =>
    if old < old_count || new < new_count then
      match hunk_line line with
      | none => .error (.SourcePatchError ("patch line " ++ toString (index + 1) ++ " is not a complete hunk line"))
      | some (tag, text) => do
        let (body, left) ← hunk_body path old_count new_count rest (index + 1)
          (if tag ≠ .added then old + 1 else old) (if tag ≠ .removed then new + 1 else new)
        .ok ((tag, text) :: body, left)
    else .ok ([], old, new, index, line :: rest)

/-- One hunk after its header. -/
def parse_hunk (path : Line) (counts : Nat × Nat) (rest : List Line) (index : Nat) :
    Except PyErr (Hunk × Nat × List Line) := do
  let (body, old, new, index, left) ← hunk_body path counts.1 counts.2 rest index 0 0
  if (old, new) ≠ counts then .error (.SourcePatchError ("hunk line counts do not match in " ++ render path))
  else if left.head?.any (startswith · "\\") then
    .error (.SourcePatchError (render path ++ ": a missing final newline is not supported"))
  else if h : ∃ line ∈ body, line.1 ≠ Tag.context then .ok (⟨body, h⟩, index, left)
  else .error (.SourcePatchError (render path ++ ": a hunk changes nothing"))

/-- The hunks of one file; each takes its header at least. -/
def parse_hunks (path : Line) : Nat → List Line → Nat → Except PyErr (List Hunk × Nat × List Line)
  | n + 1, line :: rest, index =>
    match hunk_header line with
    | none => .ok ([], index, line :: rest)
    | some counts => do
      let (hunk, index, rest) ← parse_hunk path counts rest (index + 1)
      let (hunks, left) ← parse_hunks path n rest index
      .ok (hunk :: hunks, left)
  | _, rest, index => .ok ([], index, rest)

/-- The headers of one file and its hunks. -/
def parse_file (line : Line) (rest : List Line) (index : Nat) : Except PyErr (FilePatch × Nat × List Line) :=
  match rest with
  | [] => .error (.SourcePatchError ("patch line " ++ toString (index + 1) ++ " lacks its +++ header"))
  | header :: rest =>
    if !startswith header "+++ " then
      .error (.SourcePatchError ("patch line " ++ toString (index + 1) ++ " lacks its +++ header"))
    else do
      let path ← patch_path line "a/"
      let path' ← patch_path header "b/"
      if path' ≠ path then .error (.SourcePatchError ("renaming " ++ render path ++ " is not supported"))
      else
        let (hunks, left) ← parse_hunks path rest.length rest (index + 2)
        if hunks.isEmpty then .error (.SourcePatchError (render path ++ " has no hunks"))
        else .ok (⟨path, hunks⟩, left)

/-- The files of a patch; each line is looked at once at most. -/
def parse_files : Nat → List Line → Nat → Except PyErr (List FilePatch)
  | n + 1, line :: rest, index =>
    if UNSUPPORTED.any (startswith line) then
      .error (.SourcePatchError ("unsupported patch feature: " ++ render (strip line)))
    else if startswith line "--- " then do
      let (item, index, rest) ← parse_file line rest index
      .ok (item :: (← parse_files n rest index))
    else if ["+++ ", "@@ ", "\\"].any (startswith line) then
      .error (.SourcePatchError ("patch line " ++ toString (index + 1) ++ " is outside a file"))
    else parse_files n rest (index + 1)
  | _, _, _ => .ok []

/-- The modifications of existing files in one unified diff. -/
def parse_patch (text : Line) : Except PyErr (List FilePatch) := do
  let files ← parse_files (lines text).length (lines text) 0
  if files.isEmpty then .error (.SourcePatchError "patch contains no file changes")
  else if ¬ (files.map (·.path)).Nodup then .error (.SourcePatchError "patch names one file more than once")
  else .ok files

/-! The loops never run out of rounds. -/

theorem hunk_body_left {path : Line} {old_count new_count : Nat} : ∀ {rest : List Line} {index old new : Nat}
    {body : List (Tag × Line)} {old' new' index' : Nat} {left : List Line},
    hunk_body path old_count new_count rest index old new = .ok (body, old', new', index', left) →
      left.length ≤ rest.length
  | [], _, _, _, _, _, _, _, _, h => by
    obtain ⟨-, h⟩ := except_check_eq_ok.1 h
    cases h
    exact Nat.le_refl _
  | line :: rest, index, old, new, _, _, _, _, _, h => by
    unfold hunk_body at h
    split at h
    · split at h
      · cases h
      · obtain ⟨⟨body, old', new', index', left⟩, hbody, h⟩ := except_bind_eq_ok.1 h
        cases h
        exact (hunk_body_left hbody).trans (Nat.le_succ _)
    · cases h
      exact Nat.le_refl _

theorem parse_hunk_left {path : Line} {counts : Nat × Nat} {rest left : List Line} {index index' : Nat} {hunk : Hunk}
    (h : parse_hunk path counts rest index = .ok (hunk, index', left)) : left.length ≤ rest.length := by
  obtain ⟨⟨body, old, new, index'', left'⟩, hbody, h⟩ := except_bind_eq_ok.1 h
  have hle := hunk_body_left hbody
  obtain ⟨-, h⟩ := except_check_eq_ok.1 h
  obtain ⟨-, h⟩ := except_check_eq_ok.1 h
  split at h
  · cases h
    exact hle
  · cases h

theorem parse_hunks_left {path : Line} : ∀ {n : Nat} {rest left : List Line} {index index' : Nat} {hunks : List Hunk},
    parse_hunks path n rest index = .ok (hunks, index', left) → left.length ≤ rest.length
  | 0, _, _, _, _, _, h => by
    cases h
    exact Nat.le_refl _
  | _ + 1, [], _, _, _, _, h => by
    cases h
    exact Nat.le_refl _
  | n + 1, line :: rest, _, _, _, _, h => by
    unfold parse_hunks at h
    split at h
    · cases h
      exact Nat.le_refl _
    · obtain ⟨⟨hunk, index, rest'⟩, hhunk, h⟩ := except_bind_eq_ok.1 h
      obtain ⟨⟨hunks, index', left⟩, hhunks, h⟩ := except_bind_eq_ok.1 h
      cases h
      exact ((parse_hunks_left hhunks).trans (parse_hunk_left hhunk)).trans (Nat.le_succ _)

theorem parse_hunks_enough {path : Line} : ∀ {n m : Nat} {rest : List Line} {index : Nat},
    rest.length ≤ n → rest.length ≤ m → parse_hunks path n rest index = parse_hunks path m rest index
  | n, m, [], _, _, _ => by cases n <;> cases m <;> rfl
  | n + 1, m + 1, line :: rest, index, hn, hm => by
    unfold parse_hunks
    split
    · rfl
    · cases hhunk : parse_hunk path _ rest (index + 1) with
      | error e => rfl
      | ok parsed =>
        have hle : parsed.2.2.length ≤ rest.length := parse_hunk_left hhunk
        rw [List.length_cons] at hn hm
        have heq : parse_hunks path n parsed.2.2 parsed.2.1 = parse_hunks path m parsed.2.2 parsed.2.1 :=
          parse_hunks_enough (by omega) (by omega)
        simp only [except_ok_bind, heq]

theorem parse_file_left {line : Line} {rest left : List Line} {index index' : Nat} {item : FilePatch}
    (h : parse_file line rest index = .ok (item, index', left)) : left.length ≤ rest.length := by
  cases rest with
  | nil => cases h
  | cons header rest =>
    obtain ⟨-, h⟩ := except_check_eq_ok.1 h
    obtain ⟨path, -, h⟩ := except_bind_eq_ok.1 h
    obtain ⟨path', -, h⟩ := except_bind_eq_ok.1 h
    obtain ⟨-, h⟩ := except_check_eq_ok.1 h
    obtain ⟨⟨hunks, index'', left'⟩, hhunks, h⟩ := except_bind_eq_ok.1 h
    obtain ⟨-, h⟩ := except_check_eq_ok.1 h
    cases h
    exact (parse_hunks_left hhunks).trans (Nat.le_succ _)

/-- More rounds than lines change nothing. -/
theorem parse_files_enough : ∀ {n m : Nat} {rest : List Line} {index : Nat},
    rest.length ≤ n → rest.length ≤ m → parse_files n rest index = parse_files m rest index
  | n, m, [], _, _, _ => by cases n <;> cases m <;> rfl
  | n + 1, m + 1, line :: rest, index, hn, hm => by
    rw [List.length_cons] at hn hm
    unfold parse_files
    split
    · rfl
    · split
      · cases hfile : parse_file line rest index with
        | error e => rfl
        | ok parsed =>
          have hle : parsed.2.2.length ≤ rest.length := parse_file_left hfile
          have heq : parse_files n parsed.2.2 parsed.2.1 = parse_files m parsed.2.2 parsed.2.1 :=
            parse_files_enough (by omega) (by omega)
          simp only [except_ok_bind, heq]
      · have heq : parse_files n rest (index + 1) = parse_files m rest (index + 1) :=
          parse_files_enough (by omega) (by omega)
        rw [heq]

/-! ## Placing the hunks -/

structure Placement where
  start : Nat
  length : Nat
  replacement : List Line
  exact : Bool

/-- The old lines between the context. -/
def Hunk.core_old (hunk : Hunk) : List Line := hunk.old.slice hunk.leading (hunk.old.length - hunk.trailing)

/-- The new lines between the context. -/
def Hunk.core_new (hunk : Hunk) : List Line := hunk.new.slice hunk.leading (hunk.new.length - hunk.trailing)

/-- Where the changed lines stand with one complete side of context. A side without context lines cannot
place a hunk on its own. -/
def moved (lines : List Line) (hunk : Hunk) (start : Nat) : List Nat :=
  let old := hunk.old
  let before := if hunk.leading ≠ 0 then
      (lines.find (old.take (old.length - hunk.trailing)) start).map (· + hunk.leading)
    else []
  let behind := if hunk.trailing ≠ 0 then lines.find (old.drop hunk.leading) start else []
  (before ++ behind).dedup

/-- The one place of a hunk. A label is the text of an error and what it shows. -/
def place (lines : List Line) (hunk : Hunk) (start : Nat) (label : String × List String) :
    Except PyErr Placement :=
  if hunk.old = [] then .error (.SourcePatchError (label.1 ++ " has no old text to place") label.2)
  else
    match lines.find hunk.old start with
    | [position] => .ok ⟨position + hunk.leading, hunk.core_old.length, hunk.core_new, true⟩
    | [] =>
      match moved lines hunk start with
      | [position] => .ok ⟨position, hunk.core_old.length, hunk.core_new, false⟩
      | [] => .error (.SourcePatchError (label.1 ++ " is not present") label.2)
      | positions =>
        .error (.SourcePatchError (label.1 ++ " matches in " ++ toString positions.length ++ " places") label.2)
    | positions =>
      .error (.SourcePatchError (label.1 ++ " matches in " ++ toString positions.length ++ " places") label.2)

/-- The file, the hunk's number and the start of its first changed line. -/
def hunk_label (path : Line) (number : Nat) (hunk : Hunk) : String × List String :=
  let changed := strip ((hunk.lines.find? fun line => line.1 ≠ .context).elim [] (·.2))
  (render path ++ " hunk " ++ toString number, [render (changed.take 60)])

/-- The rest of the hunks of one file, on the text patched so far. -/
def apply_hunks (path : Line) : List Line → Nat → Bool → Nat → List Hunk → Except PyErr (List Line × Bool)
  | result, _, exact, _, [] => .ok (result, exact)
  | result, cursor, exact, number, hunk :: hunks => do
    let placement ← place result hunk cursor (hunk_label path number hunk)
    apply_hunks path (result.splice placement.start placement.length placement.replacement)
      (placement.start + placement.replacement.length) (exact && placement.exact) (number + 1) hunks

def apply_file (lines : List Line) (item : FilePatch) : Except PyErr (List Line × Bool) :=
  apply_hunks item.path lines 0 true 1 item.hunks

structure Attempt where
  files : Option (List (Line × List Line))
  exact : Bool
  error : String × List String

/-- The patched text of every file, or why one cannot be patched. -/
def attempt (originals : List (FilePatch × List Line)) : Attempt :=
  match originals.mapM fun original => do
    let (result, exact) ← apply_file original.2 original.1
    pure ((original.1.path, result), exact) with
  | .ok files => ⟨some (files.map (·.1)), files.all (·.2), ("", [])⟩
  | .error (.SourcePatchError msg shown) => ⟨none, false, (msg, shown)⟩
  | .error _ => ⟨none, false, ("", [])⟩

/-! ## The tree -/

/-- The bytes of each regular file, under the names on its way. -/
abbrev SourceTree := List (List UInt8) → Option (List UInt8)

/-- The file that a path names. -/
def fileOf (path : Line) : List (List UInt8) := (parts path).map SurrogateEscape.encode

def read (root : SourceTree) (path : Line) : Except PyErr (List Line) :=
  match root (fileOf path) with
  | none => .error (.SourcePatchError (render path ++ " is not a regular file in the source tree"))
  | some bytes => .ok (lines (SurrogateEscape.decode bytes))

def bytesOf (result : List Line) : List UInt8 := SurrogateEscape.encode result.flatten

def write (root : SourceTree) (files : List (Line × List Line)) : SourceTree :=
  files.foldl (fun root file => Function.update root (fileOf file.1) (some (bytesOf file.2))) root

inductive Status where
  | applied
  | context_moved
  | already_present
deriving DecidableEq, Repr

/-- One of the attempts is the answer and the other is not. -/
def Attempt.wins (a b : Attempt) : Bool := a.files.isSome && (a.exact || b.files.isNone) && !b.exact

/-- The text of each file of a patch, as the tree has it. -/
def read_all (root : SourceTree) (patch : List FilePatch) : Except PyErr (List (FilePatch × List Line)) :=
  patch.mapM fun item => do pure (item, ← read root item.path)

/-- The attempt on the reverse of each file patch. -/
def attempt_reversed (originals : List (FilePatch × List Line)) : Attempt :=
  attempt (originals.map fun original => (original.1.reversed, original.2))

/-- The attempts decide: nothing is written unless every hunk of every file has been placed. -/
def conclude (root : SourceTree) (forward backward : Attempt) : Except PyErr Status × SourceTree :=
  if forward.wins backward then
    (.ok (if forward.exact then .applied else .context_moved), write root (forward.files.getD []))
  else if backward.wins forward then (.ok .already_present, root)
  else if forward.files.isSome then
    (.error (.SourcePatchError "the patch both applies and appears to be present already; review the source"), root)
  else
    (.error (.SourcePatchError (forward.error.1 ++ ", and the fix is not already present") forward.error.2), root)

/-- How a patch was applied, and the tree after it. -/
def apply_patch (root : SourceTree) (text : Line) : Except PyErr Status × SourceTree :=
  match (do
    let patch ← parse_patch text
    read_all root patch) with
  | .error e => (.error e, root)
  | .ok originals => conclude root (attempt originals) (attempt_reversed originals)

end SourcePatch
