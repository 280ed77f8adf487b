import DkcLinux.PatchRendering

/-!
# The diffs of the overlay (`scripts/in-container/generate-overlay-patches.py:1226-1349`)

`unified_diff` writes the lines of `str.splitlines`, which also ends a line at a form feed and other separators;
`change_groups` reads them in the same way, `parse_patch` and patch(1) split on newlines only. `difflib` is a
parameter.
-/

namespace OverlayPatches

open SourcePatch

/-! ## Lines -/

/-- The line boundaries of `str.splitlines`. -/
def isBreak : CodePoint → Bool
  | .char c => Py.isLineBreak c
  | .escape _ => false

def carriage : CodePoint := .char '\r'

def splitlinesFrom (line : Line) : Line → List Line
  | [] => if line = [] then [] else [line]
  | [c] => [line ++ [c]]
  | c :: d :: text =>
    if c = carriage ∧ d = newline then (line ++ [c, d]) :: splitlinesFrom [] text
    else if isBreak c then (line ++ [c]) :: splitlinesFrom [] (d :: text)
    else splitlinesFrom (line ++ [c]) (d :: text)

/-- `text.splitlines(keepends=True)`. -/
def splitlines (text : Line) : List Line := splitlinesFrom [] text

/-! ## `difflib` -/

/-- The hunks of a diff with what stands before each, and what follows the last. -/
structure Script where
  hunks : List (List Line × List (Tag × Line))
  rest : List Line

namespace Script

def side (without : Tag) (lines : List (Tag × Line)) : List Line := (lines.filter fun line => line.1 ≠ without).map (·.2)

def before (script : Script) : List Line :=
  script.hunks.flatMap (fun hunk => hunk.1 ++ side .added hunk.2) ++ script.rest

def after (script : Script) : List Line :=
  script.hunks.flatMap (fun hunk => hunk.1 ++ side .removed hunk.2) ++ script.rest

end Script

inductive OpTag where
  | replace
  | delete
  | insert
  | equal
deriving DecidableEq

structure Opcode where
  tag : OpTag
  i1 : Nat
  i2 : Nat
  j1 : Nat
  j2 : Nat

/-- The opcodes turn `a` from place `i` on into `b` from place `j` on. -/
def Describes (a b : List Line) : List Opcode → Nat → Nat → Prop
  | [], i, j => i = a.length ∧ j = b.length
  | op :: ops, i, j =>
    (op.i1 = i ∧ op.j1 = j) ∧ (i ≤ op.i2 ∧ j ≤ op.j2) ∧ (op.i2 ≤ a.length ∧ op.j2 ≤ b.length) ∧
      (op.tag = .equal → a.slice i op.i2 = b.slice j op.j2) ∧ Describes a b ops op.i2 op.j2

/-- What is used of `difflib`: the hunks of `unified_diff`, and `SequenceMatcher(None, a, b, autojunk=False)`. -/
structure Difflib where
  script : List Line → List Line → Script
  get_opcodes : List Line → List Line → List Opcode

/-- The hunks and the opcodes describe the lists they are given. -/
structure Difflib.Correct (d : Difflib) : Prop where
  before : ∀ a b, (d.script a b).before = a
  after : ∀ a b, (d.script a b).after = b
  changes : ∀ a b, ∀ hunk ∈ (d.script a b).hunks, ∃ line ∈ hunk.2, line.1 ≠ .context
  same : ∀ a, (d.script a a).hunks = []
  opcodes : ∀ a b, Describes a b (d.get_opcodes a b) 0 0

/-! ## Writing -/

/-- `_format_range_unified(start, start + length)`. -/
def format_range (start length : Nat) : Line :=
  if length = 1 then digits (start + 1)
  else digits (if length = 0 then start else start + 1) ++ .char ',' :: digits length

def format_line (line : Tag × Line) : Line := line.1.mark :: line.2

/-- The lines of the hunks, after `i` lines of one side and `j` of the other. -/
def format_hunks : Nat → Nat → List (List Line × List (Tag × Line)) → List Line
  | _, _, [] => []
  | i, j, (gap, lines) :: hunks =>
    let old := (Script.side .added lines).length
    let new := (Script.side .removed lines).length
    (ofString "@@ -" ++ format_range (i + gap.length) old ++ ofString " +" ++ format_range (j + gap.length) new ++
      ofString " @@" ++ [newline]) :: (lines.map format_line ++
        format_hunks (i + gap.length + old) (j + gap.length + new) hunks)

/-- `difflib.unified_diff(a, b, fromfile, tofile)`. -/
def difflib_unified_diff (d : Difflib) (a b : List Line) (fromfile tofile : Line) : List Line :=
  match (d.script a b).hunks with
  | [] => []
  | hunks => (ofString "--- " ++ fromfile ++ [newline]) :: (ofString "+++ " ++ tofile ++ [newline]) :: format_hunks 0 0 hunks

def unified_diff (d : Difflib) (path : Line) (before : Option Line) (after : Line) : Line :=
  (difflib_unified_diff d (before.elim [] splitlines) (splitlines after)
    (before.elim (ofString "/dev/null") fun _ => ofString "a/" ++ path) (ofString "b/" ++ path)).flatten

/-! ## Reading -/

structure ChangeGroup where
  header : Line
  old : List Line
  new : List Line
deriving DecidableEq

/-- `text.rstrip()`. -/
def rstrip (text : Line) : Line := (text.reverse.dropWhile isSpace).reverse

/-- The lines of a hunk up to its counts: both sides, and the lines left with the index of the first. -/
def hunk_sides (header : Line) (old_count new_count : Nat) :
    List Line → Nat → List Line → List Line → Except PyErr (List Line × List Line × Nat × List Line)
  | [], index, old, new =>
    if old.length < old_count || new.length < new_count then
      .error (.ValueError ("truncated hunk in " ++ render header))
    else .ok (old, new, index, [])
  | line :: rest, index, old, new =>
    if old.length < old_count || new.length < new_count then
      match line.head? with
      | some (.char ' ') => hunk_sides header old_count new_count rest (index + 1) (old ++ [line.tail]) (new ++ [line.tail])
      | some (.char '-') => hunk_sides header old_count new_count rest (index + 1) (old ++ [line.tail]) new
      | some (.char '+') => hunk_sides header old_count new_count rest (index + 1) old (new ++ [line.tail])
      | _ => .error (.ValueError ("diff line " ++ toString (index + 1) ++ " is not a hunk line"))
    else .ok (old, new, index, line :: rest)

/-- The groups of one hunk, diffed on its own. -/
def hunk_groups (d : Difflib) (header : Line) (old new : List Line) : List ChangeGroup :=
  ((d.get_opcodes old new).filter fun op => op.tag ≠ .equal).map fun op =>
    ⟨header, old.slice op.i1 op.i2, new.slice op.j1 op.j2⟩

/-- The hunks of one file; each takes its header at least. -/
def file_groups (d : Difflib) (header : Line) : Nat → List Line → Nat → Except PyErr (List ChangeGroup × Nat × List Line)
  | n + 1, line :: rest, index =>
    match hunk_header line with
    | none => .ok ([], index, line :: rest)
    | some (old_count, new_count) => do
      let (old, new, index, rest) ← hunk_sides header old_count new_count rest (index + 1) [] []
      if (old.length, new.length) ≠ (old_count, new_count) then
        .error (.ValueError ("hunk line counts do not match in " ++ render header))
      else
        let (groups, left) ← file_groups d header n rest index
        .ok (hunk_groups d header old new ++ groups, left)
  | _, rest, index => .ok ([], index, rest)

/-- The files of a diff; each takes its headers at least. -/
def all_groups (d : Difflib) : Nat → List Line → Nat → Except PyErr (List ChangeGroup)
  | n + 1, line :: rest, index =>
    match rest with
    | next :: rest =>
      if startswith line "--- " && startswith next "+++ " then do
        let header := rstrip (line.drop 4) ++ .char ' ' :: rstrip (next.drop 4)
        let (groups, index, rest) ← file_groups d header rest.length rest (index + 2)
        .ok (groups ++ (← all_groups d n rest index))
      else .error (.ValueError ("diff line " ++ toString (index + 1) ++ " is not a file header"))
    | [] => .error (.ValueError ("diff line " ++ toString (index + 1) ++ " is not a file header"))
  | _, _, _ => .ok []

/-- The removed and added lines of a unified diff, in order. -/
def change_groups (d : Difflib) (patch : Line) : Except PyErr (List ChangeGroup) :=
  all_groups d (splitlines patch).length (splitlines patch) 0

end OverlayPatches
