import DkcLinux.OverlayDiff
import DkcLinux.Order.Replace
import DkcLinux.Text.Dict

/-!
# Applying the overlay (`scripts/in-container/generate-overlay-patches.py:39-77, 1109-1288, 1352-1417`)

`edit_tree` works through the ordered series in memory, `reviewed_series` compares what it makes with the committed
patches, and `write_loop` writes the changed files. The series (`PATCHES`, `NEW_FILES`), `difflib` and the regex
engine are parameters.
-/

namespace OverlayPatches

open SourcePatch
open Py (Dict)

inductive Exit where
  | SystemExit (msg : String) (shown : List String := [])
  | UnicodeDecodeError
  | raised (e : PyErr)
deriving DecidableEq, Repr

/-! ## Texts -/

abbrev Text := List Char

/-- The text as lines of a diff are read. -/
def line (text : Text) : Line := text.map .char

def charOf : CodePoint → Option Char
  | .char c => some c
  | .escape _ => none

/-- `bytes.decode("utf-8")`. -/
def decode_utf8 (bytes : List UInt8) : Except Exit Text :=
  match (SurrogateEscape.decode bytes).mapM charOf with
  | some text => .ok text
  | none => .error .UnicodeDecodeError

/-- `text.encode("utf-8")`. -/
def encode_utf8 (text : Text) : List UInt8 := SurrogateEscape.encode (line text)

/-- From the `skip`-th character on. -/
def countFrom (needle : Text) : Nat → Text → Nat
  | _, [] => 0
  | 0, c :: text => if needle.isPrefixOf (c :: text) then countFrom needle (needle.length - 1) text + 1 else countFrom needle 0 text
  | skip + 1, _ :: text => countFrom needle skip text

/-- `text.count(needle)`. -/
def count (text needle : Text) : Nat := if needle = [] then text.length + 1 else countFrom needle 0 text

/-- `text.replace(needle, replacement, 1)`. -/
def replace_first (needle replacement : Text) : Text → Text
  | [] => if needle = [] then replacement else []
  | c :: text =>
    if needle.isPrefixOf (c :: text) then replacement ++ (c :: text).drop needle.length
    else c :: replace_first needle replacement text

/-! ## The series -/

inductive Variant where
  | spelling (anchor replacement : String)
  /-- A generation in which `marker` does not exist. -/
  | absent (marker : String)
deriving DecidableEq, Repr

/-- One edit; `OneOf` needs at least two reviewed spellings. -/
inductive Edit where
  | one (anchor replacement : String)
  | oneOf (first second : Variant) (rest : List Variant)
  | linePattern (regex replacement : String)

inductive Group where
  | file (path : String) (edits : List Edit)
  | fileVariants (first second : String × List Edit) (rest : List (String × List Edit))

/-- `PATCHES` and `NEW_FILES`. -/
structure Series where
  patches : Dict (List Group)
  new_files : Dict (Dict String)

/-- What is used of other libraries: `difflib.unified_diff` with three lines of context and with one, and the spans of
`re.finditer(rf"^(?:{regex})\n", text, re.MULTILINE)`. -/
structure Tools where
  difflib : Difflib
  narrow : Difflib
  finditer : String → Text → List (Nat × Nat)

def LLVM_PLACEHOLDER : String := "@LLVM_MAJOR@"

def LLVM_TOOLS : List (String × String) := [
  ("LLVM", "-$(LLVM_MAJOR)"),
  ("LLVM_PREFIX", ""),
  ("LLVM_SUFFIX", "-$(LLVM_MAJOR)"),
  ("CC", "$$(if $$(DEBIAN_KERNEL_USE_CCACHE),$$(CCACHE)) clang-$(LLVM_MAJOR)"),
  ("HOSTCC", "clang-$(LLVM_MAJOR)"),
  ("HOSTCXX", "clang++-$(LLVM_MAJOR)"),
  ("LD", "ld.lld-$(LLVM_MAJOR)"),
  ("AR", "llvm-ar-$(LLVM_MAJOR)"),
  ("NM", "llvm-nm-$(LLVM_MAJOR)"),
  ("OBJCOPY", "llvm-objcopy-$(LLVM_MAJOR)"),
  ("OBJDUMP", "llvm-objdump-$(LLVM_MAJOR)"),
  ("READELF", "llvm-readelf-$(LLVM_MAJOR)"),
  ("STRIP", "llvm-strip-$(LLVM_MAJOR)"),
  ("LLVM_LINK", "llvm-link-$(LLVM_MAJOR)")]

/-- `text.replace(LLVM_PLACEHOLDER, llvm_major)`. -/
def with_major (llvm_major : String) (text : Text) : Text :=
  List.replaceAll LLVM_PLACEHOLDER.toList llvm_major.toList text

def kernelvariables_block (llvm_major : String) : Text :=
  LLVM_TOOLS.flatMap fun (name, value) =>
    ("\techo '" ++ name ++ " = ").toList ++ with_major llvm_major value.toList ++ "' >> '$(DIR)/.kernelvariables'\n".toList

/-- `_render`: explicit markers. -/
def render_markers (replacement llvm_major : String) : Text :=
  with_major llvm_major
    (List.replaceAll "@KERNELVARIABLES@".toList (kernelvariables_block llvm_major) replacement.toList)

def Variant.matches_text (text : Text) : Variant → Bool
  | .absent marker => count text marker.toList = 0
  | .spelling anchor _ => count text anchor.toList = 1

def Variant.anchor : Variant → String
  | .absent marker => marker
  | .spelling anchor _ => anchor

def reviewed_again (what problem path anchor : String) : Exit :=
  .SystemExit (what ++ " " ++ problem ++ " in " ++ path ++
    "; the Debian source changed and the overlay must be reviewed:\n---\n" ++ anchor ++ "\n---")

def apply_line_pattern (tools : Tools) (path : String) (text : Text) (regex replacement llvm_major : String) :
    Except Exit Text :=
  match tools.finditer regex text with
  | [(start, stop)] =>
    let rendered := List.replaceAll "@LINE@".toList (text.slice start stop) (render_markers replacement llvm_major)
    .ok (text.take start ++ rendered ++ text.drop stop)
  | [] => .error (reviewed_again "line pattern" "no longer matches exactly one line" path regex)
  | _ => .error (reviewed_again "line pattern" "is ambiguous" path regex)

def apply_variants (path : String) (text : Text) (first : Variant) (rest : List Variant) (llvm_major : String) :
    Except Exit Text :=
  let anchor := String.ofList (first.anchor.toList.take 200)
  match (first :: rest).filter (·.matches_text text) with
  | [.absent _] => .ok text
  | [.spelling anchor replacement] =>
    .ok (replace_first anchor.toList (render_markers replacement llvm_major) text)
  | [] => .error (reviewed_again "anchor" "no longer matches exactly once" path anchor)
  | _ => .error (reviewed_again "anchor" "is ambiguous" path anchor)

/-- Apply one exact edit, choosing the single matching reviewed spelling. -/
def apply_edit (tools : Tools) (path : String) (text : Text) (edit : Edit) (llvm_major : String) : Except Exit Text :=
  match edit with
  | .linePattern regex replacement => apply_line_pattern tools path text regex replacement llvm_major
  | .one anchor replacement => apply_variants path text (.spelling anchor replacement) [] llvm_major
  | .oneOf first second rest => apply_variants path text first (second :: rest) llvm_major

/-! ## The tree -/

/-- What stands at a place; a symlink with the place at its end, if there is one. -/
inductive Node (Place : Type) where
  | file (bytes : List UInt8)
  | directory
  | symlink (target : Option Place)

/-- Where the names on the way of a path lead, and what stands there. Two paths have one place where a directory on
the way of one of them is a symlink. -/
structure Root (Place : Type) where
  place : String → Place
  node : Place → Option (Node Place)

section
variable {Place : Type}

namespace Root

def follow (root : Root Place) (path : String) : Option (Node Place) :=
  match root.node (root.place path) with
  | some (.symlink target) => target.bind root.node
  | node => node

def is_file (root : Root Place) (path : String) : Bool := root.follow path matches some (.file _)

def path_exists (root : Root Place) (path : String) : Bool := (root.follow path).isSome

def is_symlink (root : Root Place) (path : String) : Bool := root.node (root.place path) matches some (.symlink _)

def read_bytes (root : Root Place) (path : String) : Except Exit (List UInt8) :=
  match root.follow path with
  | some (.file bytes) => .ok bytes
  | _ => .error (.raised .OSError)

/-- Of a path that is not a symlink. -/
def write_bytes [DecidableEq Place] (root : Root Place) (path : String) (bytes : List UInt8) : Root Place :=
  { root with node := Function.update root.node (root.place path) (some (.file bytes)) }

end Root

/-! ## The edits in memory -/

/-- The entries of `original` and of `files` for one path. -/
structure Edited where
  original : Option Text
  content : Text
deriving DecidableEq

structure EditedTree where
  patches : Dict Line
  files : Dict Edited

/-- A loop that carries a state. -/
def loop {σ α β : Type} (step : σ → α → Except Exit (β × σ)) : σ → List α → Except Exit (List β × σ)
  | state, [] => .ok ([], state)
  | state, x :: xs => do
    let (y, state) ← step state x
    let (ys, state) ← loop step state xs
    .ok (y :: ys, state)

/-- No newline translation: an applied file keeps every byte that no edit touches. -/
def current (root : Root Place) (tree : Dict Edited) (path : String) : Except Exit Edited :=
  match tree.get? path with
  | some edited => .ok edited
  | none => do
    let text ← decode_utf8 (← root.read_bytes path)
    .ok ⟨some text, text⟩

/-- The one file of a group that is there. -/
def present (root : Root Place) : Group → Except Exit (String × List Edit)
  | .file path edits => .ok (path, edits)
  | .fileVariants first second rest =>
    match (first :: second :: rest).filter fun item => root.is_file item.1 with
    | [item] => .ok item
    | _ => .error (.SystemExit ("exactly one reviewed file name must exist: " ++
        String.intercalate ", " ((first :: second :: rest).map (·.1))))

def edit_group (tools : Tools) (root : Root Place) (llvm_major : String) (tree : Dict Edited) (group : Group) :
    Except Exit (Line × Dict Edited) := do
  let (path, edits) ← present root group
  let before ← current root tree path
  let after ← edits.foldlM (fun text edit => apply_edit tools path text edit llvm_major) before.content
  .ok (unified_diff tools.difflib (ofString path) (some (line before.content)) (line after), tree.set path { before with content := after })

def add_file (tools : Tools) (root : Root Place) (tree : Dict Edited) (new : String × String) :
    Except Exit (Line × Dict Edited) :=
  if root.path_exists new.1 = true ∨ new.1 ∈ tree.keys then
    .error (.SystemExit ("new overlay file " ++ new.1 ++ " now exists upstream; review the collision"))
  else .ok (unified_diff tools.difflib (ofString new.1) none (ofString new.2), tree.set new.1 ⟨none, new.2.toList⟩)

def edit_patch (tools : Tools) (series : Series) (root : Root Place) (llvm_major : String) (tree : Dict Edited)
    (patch : String × List Group) : Except Exit ((String × Line) × Dict Edited) := do
  let (chunks, tree) ← loop (edit_group tools root llvm_major) tree patch.2
  let new_files := (series.new_files.get? patch.1).elim [] fun new => new.items.mergeSort fun a b => a.1 ≤ b.1
  let (chunks', tree) ← loop (add_file tools root) tree new_files
  .ok ((patch.1, (chunks ++ chunks').flatten), tree)

/-- Apply every edit of the ordered series in memory. -/
def edit_tree (tools : Tools) (series : Series) (root : Root Place) (llvm_major : String) : Except Exit EditedTree := do
  let (patches, files) ← loop (edit_patch tools series root llvm_major) Dict.empty series.patches.items
  .ok ⟨patches.foldl (fun patches patch => if patch.2 = [] then patches else patches.set patch.1 patch.2) Dict.empty, files⟩

/-! ## The committed patches -/

def render_groups (groups : List ChangeGroup) : List Line :=
  let lines := groups.flatMap fun group =>
    (ofString "@ " ++ group.header ++ [newline]) ::
      (group.old.map (.char '-' :: ·) ++ group.new.map (.char '+' :: ·))
  lines.map fun line => if line.getLast? = some newline then line else line ++ [newline]

/-- `sorted(names)` as `repr` shows names without quotes in them. -/
def repr_names (names : List String) : String :=
  "[" ++ String.intercalate ", " ((names.mergeSort fun a b => a ≤ b).map fun name => "'" ++ name ++ "'") ++ "]"

/-- The patches of the reviewed directory, `none` where one cannot be read. -/
def committed_patches (reviewed : Dict (Option (List UInt8))) (llvm_major : String) : Except Exit (List (String × Line)) :=
  reviewed.items.mapM fun
    | (_, none) => .error (.raised .OSError)
    | (name, some bytes) => do .ok (name, line (with_major llvm_major (← decode_utf8 bytes)))

/-- The changed lines of one patch are the committed ones; the note about it. -/
def compare_patch (tools : Tools) (llvm_major : String) (name : String) (committed patch : Line) : Except Exit String :=
  match change_groups tools.difflib committed with
  | .error (.ValueError msg _) => .error (.SystemExit ("committed " ++ name ++ " is not a readable unified diff: " ++ msg))
  | .error e => .error (.raised e)
  | .ok expected =>
    match change_groups tools.difflib patch with
    | .error e => .error (.raised e)
    | .ok actual =>
      if expected ≠ actual then
        let difference := difflib_unified_diff tools.narrow (render_groups expected) (render_groups actual)
          (ofString ("committed/" ++ name)) (ofString ("generated/" ++ name))
        .error (.SystemExit (name ++ " does not describe the lines the overlay changes in this source with LLVM " ++
          llvm_major ++ "; regenerate it with `make overlay-patches` and review the difference:\n" ++
          render (difference.take 80).flatten ++ (if 80 < difference.length then "[difference truncated]\n" else "")))
      else .ok ("  " ++ name ++ (if patch ≠ committed then
        " (context differs from the reviewed source; changed lines match)" else ""))

/-- What `apply` does before it writes. -/
def reviewed_series (tools : Tools) (series : Series) (root : Root Place) (llvm_major : Int)
    (reviewed : Dict (Option (List UInt8))) : Except Exit (EditedTree × List String) := do
  let edited ← edit_tree tools series root (toString llvm_major)
  let committed ← committed_patches reviewed (toString llvm_major)
  let missing := edited.patches.keys.filter (· ∉ committed.map (·.1))
  let unexpected := (committed.map (·.1)).filter (· ∉ edited.patches.keys)
  if missing ≠ [] ∨ unexpected ≠ [] then
    .error (.SystemExit ("the committed overlay is not the series this source needs: missing=" ++ repr_names missing ++
      ", unexpected=" ++ repr_names unexpected ++ "; regenerate it with `make overlay-patches` and review the result"))
  else
    let notes ← edited.patches.items.mapM fun (name, patch) =>
      compare_patch tools (toString llvm_major) name ((committed.lookup name).getD []) patch
    .ok (edited, notes)

/-! ## Writing -/

variable [DecidableEq Place]

/-- Missing directories on the way of a new file are made. -/
def write_loop : Root Place → List (String × Edited) → Except Exit Unit × Root Place
  | root, [] => (.ok (), root)
  | root, (path, edited) :: files =>
    if edited.original = some edited.content then write_loop root files
    else if root.is_symlink path then
      (.error (.SystemExit ("refusing to write the overlay through symlink " ++ path)), root)
    else write_loop (root.write_bytes path (encode_utf8 edited.content)) files

/-- Edit the tree in place, but only as the committed patches describe. -/
def apply (tools : Tools) (series : Series) (root : Root Place) (llvm_major : Int)
    (reviewed : Dict (Option (List UInt8))) : Except Exit (List String) × Root Place :=
  match reviewed_series tools series root llvm_major reviewed with
  | .error e => (.error e, root)
  | .ok (edited, notes) =>
    let (result, root) := write_loop root edited.files.items
    (result.map fun _ => notes, root)

end

end OverlayPatches
