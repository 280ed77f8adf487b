import DkcLinux.EvidenceInventory

/-!
# The source-tree manifest (`build_tree_manifest` of `dkc/sourcepackage.py`)

`os.walk` gives each directory's names as directories and others; a link that leads to a directory is among the first, is
not followed, and is not looked at. A line is written for each of the others.

| | |
| --- | --- |
| the lines of the walk | `walk`, the lines of `recorded` (`walk_lines`) |
| what a reader of the tree sees | `listing`: `recorded` and `unrecorded` (`mem_listing`) |
| a line gives back its entry | `line_injective`, for names without the separators |

`manifest_identifies_iff`: trees with one manifest agree exactly if they agree in what has no line, the links to
directories and the modes of directories.
-/

open Py Records

namespace SourcePackage

/-- The entries of a directory. A link has what `is_dir` says of it. -/
inductive SourceTree where
  | nil
  | file (name : String) (mode : Fin 4096) (content : ByteArray) (rest : SourceTree)
  | link (name : String) (mode : Fin 4096) (target : String) (is_dir : Bool) (rest : SourceTree)
  | directory (name : String) (mode : Fin 4096) (below rest : SourceTree)
  | special (name : String) (rest : SourceTree)

/-- One of `filenames`. -/
inductive Leaf where
  | file (mode : Fin 4096) (content : ByteArray)
  | link (mode : Fin 4096) (target : String)
  | special

/-- `path.relative_to(root).as_posix()`, below the relative directory; that of the root is empty. -/
def child (directory name : String) : String := if directory = "" then name else directory ++ "/" ++ name

def filenames : SourceTree → List (String × Leaf)
  | .nil => []
  | .file name mode content rest => (name, .file mode content) :: filenames rest
  | .link name mode target is_dir rest => if is_dir then filenames rest else (name, .link mode target) :: filenames rest
  | .directory _ _ _ rest => filenames rest
  | .special name rest => (name, .special) :: filenames rest

/-- `{mode:04o}`. -/
def octal (mode : Fin 4096) : List Char := [512, 64, 8, 1].map fun unit => Nat.digitChar (mode / unit % 8)

def fields (parts : List (List Char)) : List Char := List.intercalate ['\t'] parts

section
variable (hexdigest : ByteArray → String)

/-- The record of a file name. -/
def record (relative : String) : Leaf → Except PyErr (List Char)
  | .link mode target => .ok (fields [['l'], octal mode, relative.toList, target.toList])
  | .file mode content =>
    .ok (fields [['f'], octal mode, Nat.toDigits 10 content.size, (hexdigest content).toList, relative.toList])
  | .special => .error (.ValueError "special file in source tree: " [relative])

/-- A directory's own records, then those of its directories, in the order of their names. -/
def visit (directory : String) (files : List (String × Leaf))
    (below : List (String × Except PyErr (List (List Char)))) : Except PyErr (List (List Char)) := do
  let records ← (sortedItems files).mapM fun x => record hexdigest (child directory x.1) x.2
  let rest ← (sortedItems below).mapM (·.2)
  return records ++ rest.flatten

/-- What the walk gives for each directory, without the `.pc` of the root. -/
def dirnames (directory : String) : SourceTree → List (String × Except PyErr (List (List Char)))
  | .nil => []
  | .file _ _ _ rest => dirnames directory rest
  | .link _ _ _ _ rest => dirnames directory rest
  | .directory name _ below rest =>
    if directory = "" ∧ name = ".pc" then dirnames directory rest
    else (name, visit hexdigest (child directory name) (filenames below) (dirnames (child directory name) below)) ::
      dirnames directory rest
  | .special _ rest => dirnames directory rest

def walk (directory : String) (tree : SourceTree) : Except PyErr (List (List Char)) :=
  visit hexdigest directory (filenames tree) (dirnames hexdigest directory tree)

/-- `none` is a root that is no plain directory. -/
def build_tree_manifest : Option SourceTree → Except PyErr (List Char)
  | none => .error (.ValueError "source-tree root must be a plain directory")
  | some tree => do
    let records ← walk hexdigest "" tree
    return List.intercalate ['\n'] records ++ ['\n']

end

/-! ## The entries of a tree -/

inductive Info where
  | file (mode : Fin 4096) (content : ByteArray)
  | link (mode : Fin 4096) (target : String)
  | directory (mode : Fin 4096)

/-- All entries by their relative paths, without the `.pc` directory of the root and without directories that have no
entry below. -/
def listing (directory : String) : SourceTree → List (String × Info)
  | .nil => []
  | .file name mode content rest => (child directory name, .file mode content) :: listing directory rest
  | .link name mode target _ rest => (child directory name, .link mode target) :: listing directory rest
  | .directory name mode below rest =>
    (if directory = "" ∧ name = ".pc" then []
      else match listing (child directory name) below with
        | [] => []
        | entries => (child directory name, .directory mode) :: entries) ++ listing directory rest
  | .special _ rest => listing directory rest

/-- The entries that have a line. -/
def recorded (directory : String) : SourceTree → List (String × Info)
  | .nil => []
  | .file name mode content rest => (child directory name, .file mode content) :: recorded directory rest
  | .link name mode target is_dir rest =>
    (if is_dir then [] else [(child directory name, .link mode target)]) ++ recorded directory rest
  | .directory name _ below rest =>
    (if directory = "" ∧ name = ".pc" then [] else recorded (child directory name) below) ++ recorded directory rest
  | .special _ rest => recorded directory rest

/-- The links to directories, and the directories themselves. -/
def unrecorded (directory : String) : SourceTree → List (String × Info)
  | .nil => []
  | .file _ _ _ rest => unrecorded directory rest
  | .link name mode target is_dir rest =>
    (if is_dir then [(child directory name, .link mode target)] else []) ++ unrecorded directory rest
  | .directory name mode below rest =>
    (if directory = "" ∧ name = ".pc" ∨ listing (child directory name) below = [] then []
      else (child directory name, .directory mode) :: unrecorded (child directory name) below) ++ unrecorded directory rest
  | .special _ rest => unrecorded directory rest

theorem mem_listing {directory : String} {tree : SourceTree} {x : String × Info} :
    x ∈ listing directory tree ↔ x ∈ recorded directory tree ∨ x ∈ unrecorded directory tree := by
  induction tree generalizing directory with
  | nil => simp [listing, recorded, unrecorded]
  | file name mode content rest ih => simp only [listing, recorded, unrecorded, List.mem_cons, ih, or_assoc]
  | link name mode target is_dir rest ih =>
    cases is_dir with
    | true =>
      simp only [listing, recorded, unrecorded, List.mem_cons, List.mem_append, ih, if_true, List.not_mem_nil]
      tauto
    | false =>
      simp only [listing, recorded, unrecorded, List.mem_cons, List.mem_append, ih, Bool.false_eq_true, if_false,
        List.not_mem_nil]
      tauto
  | directory name mode below rest ihbelow ihrest =>
    simp only [listing, recorded, unrecorded, List.mem_append, ihrest]
    by_cases hpc : directory = "" ∧ name = ".pc"
    · simp only [hpc, and_self, true_or, if_true, List.not_mem_nil, false_or]
    · have ih := @ihbelow (child directory name)
      rw [if_neg hpc, if_neg hpc]
      cases hentries : listing (child directory name) below with
      | nil =>
        rw [hentries] at ih
        have hnone : x ∉ recorded (child directory name) below := fun h => List.not_mem_nil (ih.2 (.inl h))
        simp [hnone]
      | cons entry entries =>
        rw [hentries, List.mem_cons] at ih
        simp only [hpc, List.cons_ne_nil, or_self, if_false, List.mem_cons]
        tauto
  | special name rest ih => simpa only [listing, recorded, unrecorded] using ih

/-! ## The lines of the walk -/

/-- The line of an entry that has one. -/
def line (hexdigest : ByteArray → String) : String × Info → List Char
  | (relative, .file mode content) =>
    fields [['f'], octal mode, Nat.toDigits 10 content.size, (hexdigest content).toList, relative.toList]
  | (relative, .link mode target) => fields [['l'], octal mode, relative.toList, target.toList]
  | (_, .directory _) => []

section
variable {hexdigest : ByteArray → String}

theorem visit_ok {directory : String} {files : List (String × Leaf)} {below : List (String × Except PyErr (List (List Char)))}
    {lines : List (List Char)} (h : visit hexdigest directory files below = .ok lines) :
    (∀ s ∈ below, ∃ rest, s.2 = .ok rest) ∧ ∀ text, text ∈ lines ↔
      (∃ x ∈ files, record hexdigest (child directory x.1) x.2 = .ok text) ∨ ∃ s ∈ below, ∃ rest, s.2 = .ok rest ∧ text ∈ rest := by
  rw [visit, except_bind_eq_ok] at h
  obtain ⟨records, hrecords, h⟩ := h
  obtain ⟨blocks, hblocks, h⟩ := except_bind_eq_ok.1 h
  cases h
  obtain ⟨hsome, hfrom⟩ := except_mapM_mem hrecords
  obtain ⟨hsome', hfrom'⟩ := except_mapM_mem hblocks
  simp only [mem_sortedItems] at hsome hfrom hsome' hfrom'
  refine ⟨fun s hs => ?_, fun text => ?_⟩
  · obtain ⟨rest, -, hrest⟩ := hsome' s hs
    exact ⟨rest, hrest⟩
  · rw [List.mem_append, List.mem_flatten]
    constructor
    · rintro (hrecord | ⟨rest, hrest, htext⟩)
      · exact .inl (hfrom text hrecord)
      · obtain ⟨s, hs, hok⟩ := hfrom' rest hrest
        exact .inr ⟨s, hs, rest, hok, htext⟩
    · rintro (⟨x, hx, hok⟩ | ⟨s, hs, rest, hok, htext⟩)
      · obtain ⟨record, hrecord, hsame⟩ := hsome x hx
        cases hok.symm.trans hsame
        exact .inl hrecord
      · obtain ⟨block, hblock, hsame⟩ := hsome' s hs
        cases hok.symm.trans hsame
        exact .inr ⟨rest, hblock, htext⟩

/-- The two parts of a visit, together the lines of what is recorded. -/
theorem visited_lines {directory : String} {tree : SourceTree}
    (h : ∀ s ∈ dirnames hexdigest directory tree, ∃ rest, s.2 = .ok rest) (text : List Char) :
    ((∃ x ∈ filenames tree, record hexdigest (child directory x.1) x.2 = .ok text) ∨
      ∃ s ∈ dirnames hexdigest directory tree, ∃ rest, s.2 = .ok rest ∧ text ∈ rest) ↔
      ∃ x ∈ recorded directory tree, line hexdigest x = text := by
  induction tree generalizing directory with
  | nil => simp [filenames, dirnames, recorded]
  | file name mode content rest ih =>
    simp only [filenames, recorded, List.exists_mem_cons_iff, or_assoc]
    rw [show dirnames hexdigest directory (.file name mode content rest) = dirnames hexdigest directory rest from rfl] at h ⊢
    rw [ih h, record, Except.ok.injEq]
    rfl
  | link name mode target is_dir rest ih =>
    rw [show dirnames hexdigest directory (.link name mode target is_dir rest) = dirnames hexdigest directory rest from rfl] at h ⊢
    cases is_dir with
    | true => exact ih h
    | false =>
      simp only [filenames, recorded, Bool.false_eq_true, if_false, List.singleton_append, List.exists_mem_cons_iff, or_assoc]
      rw [ih h, record, Except.ok.injEq]
      rfl
  | directory name mode below rest ihbelow ihrest =>
    by_cases hpc : directory = "" ∧ name = ".pc"
    · rw [dirnames, if_pos hpc] at h
      rw [dirnames, if_pos hpc, recorded, if_pos hpc]
      exact ihrest h
    · rw [dirnames, if_neg hpc, List.forall_mem_cons] at h
      obtain ⟨⟨lines, hvisit⟩, hrest⟩ := h
      have hlines : visit hexdigest (child directory name) (filenames below) (dirnames hexdigest (child directory name) below) =
          .ok lines := hvisit
      obtain ⟨hbelow, hmem⟩ := visit_ok hlines
      rw [dirnames, if_neg hpc, recorded, if_neg hpc, filenames]
      simp only [List.exists_mem_cons_iff, List.mem_append, or_and_right, exists_or, hlines, Except.ok.injEq, exists_eq_left']
      rw [← ihrest hrest, ← ihbelow hbelow, ← hmem]
      exact or_left_comm
  | special name rest ih =>
    rw [show dirnames hexdigest directory (.special name rest) = dirnames hexdigest directory rest from rfl] at h ⊢
    rw [filenames, recorded, ← ih h, List.exists_mem_cons_iff, record, or_assoc]
    simp

theorem walk_lines {tree : SourceTree} {directory : String} {lines : List (List Char)}
    (h : walk hexdigest directory tree = .ok lines) (text : List Char) :
    text ∈ lines ↔ ∃ x ∈ recorded directory tree, line hexdigest x = text := by
  obtain ⟨hbelow, hmem⟩ := visit_ok h
  rw [hmem, visited_lines hbelow]

end

/-! ## A line gives back its entry -/

/-- An entry whose line ends where it ends, and a link whose path ends before its target. -/
def Separable : String × Info → Prop
  | (relative, .file _ _) => '\n' ∉ relative.toList
  | (relative, .link _ target) => '\n' ∉ relative.toList ∧ '\t' ∉ relative.toList ∧ '\n' ∉ target.toList
  | (_, .directory _) => False

theorem digitChar_injective {a b : Nat} (ha : a < 8) (hb : b < 8) (h : Nat.digitChar a = Nat.digitChar b) : a = b := by
  have hall : ∀ a < 8, ∀ b < 8, Nat.digitChar a = Nat.digitChar b → a = b := by decide
  exact hall a ha b hb h

theorem octal_injective {m n : Fin 4096} (h : octal m = octal n) : m = n := by
  have hbound : ∀ k : Nat, k % 8 < 8 := fun k => Nat.mod_lt k (by decide)
  simp only [octal, List.map_cons, List.map_nil, List.cons.injEq, and_true] at h
  obtain ⟨h3, h2, h1, h0⟩ := h
  have h3 := digitChar_injective (hbound _) (hbound _) h3
  have h2 := digitChar_injective (hbound _) (hbound _) h2
  have h1 := digitChar_injective (hbound _) (hbound _) h1
  have h0 := digitChar_injective (hbound _) (hbound _) h0
  have hm := m.isLt
  have hn := n.isLt
  exact Fin.ext (by omega)

theorem octal_chars {mode : Fin 4096} {c : Char} (h : c ∈ octal mode) : c ≠ '\t' ∧ c ≠ '\n' := by
  have hdigit : ∀ k < 8, Nat.digitChar k ≠ '\t' ∧ Nat.digitChar k ≠ '\n' := by decide
  obtain ⟨unit, -, rfl⟩ := List.mem_map.1 h
  exact hdigit _ (Nat.mod_lt _ (by decide))

theorem size_chars {n : Nat} {c : Char} (h : c ∈ Nat.toDigits 10 n) : c ≠ '\t' ∧ c ≠ '\n' := by
  have hdigit := Nat.isDigit_of_mem_toDigits (by decide) le_rfl h
  constructor
  · rintro rfl
    exact absurd hdigit (by decide)
  · rintro rfl
    exact absurd hdigit (by decide)

theorem digest_chars {digest : String} (h : isSha256 digest = true) {c : Char} (hc : c ∈ digest.toList) :
    c ≠ '\t' ∧ c ≠ '\n' := by
  simp only [isSha256, fullmatchClass, Bool.and_eq_true, List.all_eq_true] at h
  have hrange := Evidence.isLowerHex_range (h.1.1 c hc)
  constructor
  · rintro rfl
    exact absurd hrange (by decide)
  · rintro rfl
    exact absurd hrange (by decide)

theorem fields_cons (a b : List Char) (rest : List (List Char)) : fields (a :: b :: rest) = a ++ '\t' :: fields (b :: rest) := by
  rw [fields, List.intercalate_cons_cons, List.append_assoc]
  rfl

@[simp] theorem fields_single (a : List Char) : fields [a] = a := by simp [fields]

theorem mem_fields {parts : List (List Char)} {c : Char} (h : c ∈ fields parts) : c = '\t' ∨ ∃ part ∈ parts, c ∈ part := by
  induction parts with
  | nil => cases h
  | cons a parts ih =>
    cases parts with
    | nil =>
      rw [fields_single] at h
      exact .inr ⟨a, List.mem_cons_self, h⟩
    | cons b rest =>
      rw [fields_cons, List.mem_append, List.mem_cons] at h
      rcases h with h | h | h
      · exact .inr ⟨a, List.mem_cons_self, h⟩
      · exact .inl h
      · rcases ih h with htab | ⟨part, hpart, hc⟩
        · exact .inl htab
        · exact .inr ⟨part, List.mem_cons_of_mem _ hpart, hc⟩

/-- The first field, and the rest. -/
theorem fields_inj {a a' b b' : List Char} {rest rest' : List (List Char)} (ha : '\t' ∉ a) (ha' : '\t' ∉ a')
    (h : fields (a :: b :: rest) = fields (a' :: b' :: rest')) : a = a' ∧ fields (b :: rest) = fields (b' :: rest') := by
  rw [fields_cons, fields_cons] at h
  induction a generalizing a' with
  | nil =>
    cases a' with
    | nil => exact ⟨rfl, (List.cons.inj h).2⟩
    | cons c a' =>
      have hc := (List.cons.inj h).1
      exact absurd (hc ▸ List.mem_cons_self) ha'
  | cons c a ih =>
    cases a' with
    | nil =>
      have hc := (List.cons.inj h).1
      exact absurd (hc ▸ List.mem_cons_self) ha
    | cons c' a' =>
      obtain ⟨hc, hrest⟩ := List.cons.inj h
      obtain ⟨hsame, hfields⟩ := ih (fun hmem => ha (List.mem_cons_of_mem _ hmem)) (fun hmem => ha' (List.mem_cons_of_mem _ hmem)) hrest
      exact ⟨by rw [hc, hsame], hfields⟩

/-- No collision between the contents of two entries. -/
def NoCollision (hexdigest : ByteArray → String) (x y : String × Info) : Prop :=
  ∀ mode mode' content content', x.2 = .file mode content → y.2 = .file mode' content' →
    hexdigest content = hexdigest content' → content = content'

section
variable {hexdigest : ByteArray → String} (hhex : ∀ b, isSha256 (hexdigest b) = true)
include hhex

/-- **Different entries have different lines.** -/
theorem line_injective {x y : String × Info} (hx : Separable x) (hy : Separable y) (hfree : NoCollision hexdigest x y)
    (h : line hexdigest x = line hexdigest y) : x = y := by
  have hoctal : ∀ mode, '\t' ∉ octal mode := fun mode hmem => (octal_chars hmem).1 rfl
  have hsize : ∀ n, '\t' ∉ Nat.toDigits 10 n := fun n hmem => (size_chars hmem).1 rfl
  have hdigest : ∀ b, '\t' ∉ (hexdigest b).toList := fun b hmem => (digest_chars (hhex b) hmem).1 rfl
  have hf : '\t' ∉ ['f'] := by decide
  have hl : '\t' ∉ ['l'] := by decide
  obtain ⟨relative, info⟩ := x
  obtain ⟨relative', info'⟩ := y
  cases info with
  | directory mode => exact absurd hx id
  | file mode content =>
    cases info' with
    | directory mode => exact absurd hy id
    | link mode' target' => exact absurd (fields_inj hf hl h).1 (by decide)
    | file mode' content' =>
      obtain ⟨-, h⟩ := fields_inj hf hf h
      obtain ⟨hmode, h⟩ := fields_inj (hoctal mode) (hoctal mode') h
      obtain ⟨-, h⟩ := fields_inj (hsize _) (hsize _) h
      obtain ⟨hcontent, h⟩ := fields_inj (hdigest _) (hdigest _) h
      rw [fields_single, fields_single, String.toList_inj] at h
      rw [String.toList_inj] at hcontent
      rw [h, octal_injective hmode, hfree mode mode' content content' rfl rfl hcontent]
  | link mode target =>
    cases info' with
    | directory mode => exact absurd hy id
    | file mode' content' => exact absurd (fields_inj hl hf h).1 (by decide)
    | link mode' target' =>
      obtain ⟨-, h⟩ := fields_inj hl hl h
      obtain ⟨hmode, h⟩ := fields_inj (hoctal mode) (hoctal mode') h
      obtain ⟨hrelative, h⟩ := fields_inj hx.2.1 hy.2.1 h
      rw [fields_single, fields_single, String.toList_inj] at h
      rw [String.toList_inj] at hrelative
      rw [h, octal_injective hmode, hrelative]

theorem line_newline {x : String × Info} (hx : Separable x) : '\n' ∉ line hexdigest x := by
  obtain ⟨relative, info⟩ := x
  cases info with
  | directory mode => exact absurd hx id
  | file mode content =>
    intro hmem
    rcases mem_fields hmem with htab | ⟨part, hpart, hc⟩
    · exact absurd htab (by decide)
    · simp only [List.mem_cons, List.not_mem_nil, or_false] at hpart
      rcases hpart with rfl | rfl | rfl | rfl | rfl
      · exact absurd hc (by decide)
      · exact (octal_chars hc).2 rfl
      · exact (size_chars hc).2 rfl
      · exact (digest_chars (hhex content) hc).2 rfl
      · exact hx hc
  | link mode target =>
    intro hmem
    rcases mem_fields hmem with htab | ⟨part, hpart, hc⟩
    · exact absurd htab (by decide)
    · simp only [List.mem_cons, List.not_mem_nil, or_false] at hpart
      rcases hpart with rfl | rfl | rfl | rfl
      · exact absurd hc (by decide)
      · exact (octal_chars hc).2 rfl
      · exact hx.1 hc
      · exact hx.2.2 hc

omit hhex in
theorem line_ne_nil {x : String × Info} (hx : Separable x) : line hexdigest x ≠ [] := by
  obtain ⟨relative, info⟩ := x
  cases info with
  | directory mode => exact absurd hx id
  | file mode content => simp [line, fields_cons]
  | link mode target => simp [line, fields_cons]

end

/-! ## The manifest -/

/-- Joined lines give back the lines. -/
theorem joined_injective {lines lines' : List (List Char)} (hplain : ∀ l ∈ lines, '\n' ∉ l ∧ l ≠ [])
    (hplain' : ∀ l ∈ lines', '\n' ∉ l ∧ l ≠ [])
    (h : List.intercalate ['\n'] lines ++ ['\n'] = List.intercalate ['\n'] lines' ++ ['\n']) : lines = lines' := by
  have hjoined := List.append_cancel_right h
  have hsplit : ∀ ls : List (List Char), (∀ l ∈ ls, '\n' ∉ l ∧ l ≠ []) → ls ≠ [] →
      (List.intercalate ['\n'] ls).splitOn '\n' = ls := fun ls hls hne => List.splitOn_intercalate '\n' (fun l hl => (hls l hl).1) hne
  have hempty : ∀ ls : List (List Char), (∀ l ∈ ls, '\n' ∉ l ∧ l ≠ []) → List.intercalate ['\n'] ls = [] → ls = [] := by
    intro ls hls hnil
    by_contra hne
    have hself := hsplit ls hls hne
    rw [hnil, List.splitOn_nil] at hself
    exact (hls [] (hself ▸ List.mem_cons_self)).2 rfl
  by_cases hnil : lines = []
  · rw [hnil] at hjoined ⊢
    exact (hempty lines' hplain' hjoined.symm).symm
  · by_cases hnil' : lines' = []
    · rw [hnil'] at hjoined ⊢
      exact hempty lines hplain hjoined
    · rw [← hsplit lines hplain hnil, hjoined, hsplit lines' hplain' hnil']

/-- The names and targets of a tree do not run into each other. -/
def SourceTree.Separable (tree : SourceTree) : Prop := ∀ x ∈ recorded "" tree, SourcePackage.Separable x

/-- SHA-256 has no collision between the contents of two trees. -/
def CollisionFree (hexdigest : ByteArray → String) (tree tree' : SourceTree) : Prop :=
  ∀ x ∈ recorded "" tree, ∀ y ∈ recorded "" tree', NoCollision hexdigest x y

/-- The same entries, but for the `.pc` directory of the root and directories with nothing below. -/
def Agree (tree tree' : SourceTree) : Prop := ∀ x, x ∈ listing "" tree ↔ x ∈ listing "" tree'

/-- What has no line in the one is in the other. -/
def UnrecordedAgree (tree tree' : SourceTree) : Prop :=
  (∀ x ∈ unrecorded "" tree, x ∈ listing "" tree') ∧ ∀ x ∈ unrecorded "" tree', x ∈ listing "" tree

theorem manifest_ok {hexdigest : ByteArray → String} {tree : SourceTree} {manifest : List Char}
    (h : build_tree_manifest hexdigest (some tree) = .ok manifest) : ∃ lines, walk hexdigest "" tree = .ok lines ∧
      manifest = List.intercalate ['\n'] lines ++ ['\n'] := by
  obtain ⟨lines, hlines, hmanifest⟩ := except_bind_eq_ok.1 h
  exact ⟨lines, hlines, (Except.ok.inj hmanifest).symm⟩

section
variable {hexdigest : ByteArray → String} (hhex : ∀ b, isSha256 (hexdigest b) = true) {tree tree' : SourceTree}
  {manifest : List Char} (h : build_tree_manifest hexdigest (some tree) = .ok manifest)
  (h' : build_tree_manifest hexdigest (some tree') = .ok manifest) (hsep : tree.Separable) (hsep' : tree'.Separable)
include hhex h h' hsep hsep'

/-- **One manifest, one set of recorded entries.** -/
theorem recorded_subset (hfree : CollisionFree hexdigest tree tree') : ∀ x ∈ recorded "" tree, x ∈ recorded "" tree' := by
  obtain ⟨lines, hlines, rfl⟩ := manifest_ok h
  obtain ⟨lines', hlines', hjoined⟩ := manifest_ok h'
  have hplain : ∀ l ∈ lines, '\n' ∉ l ∧ l ≠ [] := by
    intro l hl
    obtain ⟨x, hx, rfl⟩ := (walk_lines hlines l).1 hl
    exact ⟨line_newline hhex (hsep x hx), line_ne_nil (hsep x hx)⟩
  have hplain' : ∀ l ∈ lines', '\n' ∉ l ∧ l ≠ [] := by
    intro l hl
    obtain ⟨x, hx, rfl⟩ := (walk_lines hlines' l).1 hl
    exact ⟨line_newline hhex (hsep' x hx), line_ne_nil (hsep' x hx)⟩
  have hsame := joined_injective hplain hplain' hjoined
  intro x hx
  have hline := (walk_lines hlines _).2 ⟨x, hx, rfl⟩
  rw [hsame] at hline
  obtain ⟨y, hy, hxy⟩ := (walk_lines hlines' _).1 hline
  rwa [line_injective hhex (hsep x hx) (hsep' y hy) (hfree x hx y hy) hxy.symm]

/-- **Trees with one manifest agree exactly if they agree in what has no line.** -/
theorem manifest_identifies_iff (hfree : CollisionFree hexdigest tree tree') : Agree tree tree' ↔ UnrecordedAgree tree tree' := by
  have hfree' : CollisionFree hexdigest tree' tree := fun y hy x hx mode mode' content content' hc hc' hsame =>
    (hfree x hx y hy mode' mode content' content hc' hc hsame.symm).symm
  constructor
  · intro hagree
    exact ⟨fun x hx => (hagree x).1 (mem_listing.2 (.inr hx)), fun x hx => (hagree x).2 (mem_listing.2 (.inr hx))⟩
  · rintro ⟨hunrecorded, hunrecorded'⟩ x
    constructor
    · intro hx
      rcases mem_listing.1 hx with hx | hx
      · exact mem_listing.2 (.inl (recorded_subset hhex h h' hsep hsep' hfree x hx))
      · exact hunrecorded x hx
    · intro hx
      rcases mem_listing.1 hx with hx | hx
      · exact mem_listing.2 (.inl (recorded_subset hhex h' h hsep' hsep hfree' x hx))
      · exact hunrecorded' x hx

end

/-- Names with the separators: the target of one link imitates a second link. -/
theorem target_imitates (hexdigest : ByteArray → String) {a b : String} (hab : a ≤ b) (t u : String) :
    build_tree_manifest hexdigest (some (.link a 511 (t ++ "\nl\t0777\t" ++ b ++ "\t" ++ u) false .nil)) =
      build_tree_manifest hexdigest (some (.link a 511 t false (.link b 511 u false .nil))) := by
  have hmode : octal 511 = "0777".toList := by decide
  simp [build_tree_manifest, walk, visit, filenames, dirnames, sortedItems, record, child, fields, hmode, hab]

/-! ## A link to a directory -/

namespace Sample

/-- A directory with a file. -/
def plain : SourceTree := .directory "d" 0o755 (.file "f" 0o644 .empty .nil) .nil

/-- And a link to the directory. -/
def linked : SourceTree := .link "b" 0o777 "d" true plain

theorem same_manifest : ∃ manifest, build_tree_manifest Evidence.Sample.hexdigest (some plain) = .ok manifest ∧
    build_tree_manifest Evidence.Sample.hexdigest (some linked) = .ok manifest := ⟨_, rfl, rfl⟩

theorem recorded_plain : recorded "" plain = [("d/f", .file 0o644 .empty)] := rfl

theorem recorded_linked : recorded "" linked = [("d/f", .file 0o644 .empty)] := rfl

theorem collision_free : CollisionFree Evidence.Sample.hexdigest plain linked := by
  intro x hx y hy mode mode' content content' hc hc' _
  rw [recorded_plain, List.mem_singleton] at hx
  rw [recorded_linked, List.mem_singleton] at hy
  subst hx hy
  cases hc
  cases hc'
  rfl

theorem separable_plain : plain.Separable := by
  intro x hx
  rw [recorded_plain, List.mem_singleton] at hx
  subst hx
  show '\n' ∉ "d/f".toList
  decide

theorem separable_linked : linked.Separable := separable_plain

end Sample

theorem linked_directory_iff : ∃ manifest,
    build_tree_manifest Evidence.Sample.hexdigest (some Sample.plain) = .ok manifest ∧
    build_tree_manifest Evidence.Sample.hexdigest (some Sample.linked) = .ok manifest ∧
    (Agree Sample.plain Sample.linked ↔ UnrecordedAgree Sample.plain Sample.linked) := by
  obtain ⟨manifest, hplain, hlinked⟩ := Sample.same_manifest
  exact ⟨manifest, hplain, hlinked, manifest_identifies_iff Evidence.Sample.hexdigest_digest hplain hlinked
    Sample.separable_plain Sample.separable_linked Sample.collision_free⟩

/-- The manifest does not show the link. -/
theorem link_unseen : ¬∀ hexdigest : ByteArray → String, (∀ b, isSha256 (hexdigest b) = true) →
    ∀ tree tree' manifest, build_tree_manifest hexdigest (some tree) = .ok manifest →
      build_tree_manifest hexdigest (some tree') = .ok manifest → CollisionFree hexdigest tree tree' → Agree tree tree' := by
  intro h
  obtain ⟨manifest, hplain, hlinked⟩ := Sample.same_manifest
  have hagree := h _ Evidence.Sample.hexdigest_digest _ _ manifest hplain hlinked Sample.collision_free
  have hlink : ("b", Info.link 0o777 "d") ∈ listing "" Sample.plain := (hagree _).2 List.mem_cons_self
  have hlisting : listing "" Sample.plain = [("d", .directory 0o755), ("d/f", .file 0o644 .empty)] := rfl
  rw [hlisting] at hlink
  simp at hlink

end SourcePackage
