import DkcLinux.OverlayApply
import DkcLinux.DiffMeaning

/-!
# When an overlay is applied as a whole

A file of the overlay may be a symlink, which the write loop refuses when it comes to it.

| theorem                   | what                                                                              |
|---------------------------|-----------------------------------------------------------------------------------|
| `edit_tree_origins`       | what is edited was read from the tree, and what is added was not there            |
| `write_loop_clean`        | without a symlink among the changed files, all of them are written                |
| `write_loop_stops`        | a symlink stops the loop behind the files before it                               |
| `apply_whole_iff`         | when `apply` is all or nothing                                                    |
| `second_link_tears`       | the first file of a patch is written before the second one is refused             |
-/

namespace OverlayPatches

open SourcePatch
open Py (Dict)

section
variable {Place : Type} {tools : Tools} {series : Series} {root : Root Place}

/-! ## Texts and their bytes -/

theorem readable_line : ∀ text : Text, SurrogateEscape.Readable (line text)
  | [] => rfl
  | c :: text => by
    have ih := readable_line text
    have hcons : line (c :: text) = .char c :: line text := rfl
    rw [SurrogateEscape.Readable, hcons, SurrogateEscape.encode_cons, SurrogateEscape.encodePoint,
      SurrogateEscape.decode_char, ih]

theorem mapM_charOf : ∀ text : Text, (line text).mapM charOf = some text
  | [] => rfl
  | c :: text => by
    have ih := mapM_charOf text
    have hcons : line (c :: text) = .char c :: line text := rfl
    rw [hcons, List.mapM_cons, ih]
    rfl

theorem mapM_charOf_eq : ∀ {codes : Line} {text : Text}, codes.mapM charOf = some text → codes = line text
  | [], text, h => by
    cases h
    rfl
  | c :: codes, text, h => by
    rw [List.mapM_cons] at h
    cases c with
    | escape b => cases h
    | char c =>
      cases hrest : codes.mapM charOf with
      | none =>
        rw [hrest] at h
        cases h
      | some rest =>
        rw [hrest] at h
        cases h
        exact congrArg (.char c :: ·) (mapM_charOf_eq hrest)

theorem decode_encode (text : Text) : decode_utf8 (encode_utf8 text) = .ok text := by
  have hread : SurrogateEscape.decode (SurrogateEscape.encode (line text)) = line text := readable_line text
  rw [decode_utf8, encode_utf8, hread, mapM_charOf]

theorem encode_decode {bytes : List UInt8} {text : Text} (h : decode_utf8 bytes = .ok text) : encode_utf8 text = bytes := by
  rw [decode_utf8] at h
  cases hcodes : (SurrogateEscape.decode bytes).mapM charOf with
  | none =>
    rw [hcodes] at h
    cases h
  | some text' =>
    rw [hcodes] at h
    cases h
    rw [encode_utf8, ← mapM_charOf_eq hcodes, SurrogateEscape.encode_decode]

theorem encode_injective {a b : Text} (h : encode_utf8 a = encode_utf8 b) : a = b := by
  have heq := decode_encode a
  rw [h, decode_encode] at heq
  exact (Except.ok.inj heq).symm

/-! ## The edits in memory -/

/-- An entry is about a file that was read, or about one that is not there. -/
def Origin (root : Root Place) (path : String) : Edited → Prop
  | ⟨some text, _⟩ => root.read_bytes path = .ok (encode_utf8 text)
  | ⟨none, _⟩ => root.path_exists path = false

def Origins (root : Root Place) (tree : Dict Edited) : Prop := ∀ path edited, tree.get? path = some edited → Origin root path edited

theorem loop_inv {σ α β : Type} {step : σ → α → Except Exit (β × σ)} {P : σ → Prop}
    (hstep : ∀ {s x y s'}, step s x = .ok (y, s') → P s → P s') : ∀ {xs : List α} {s s' : σ} {ys : List β},
      loop step s xs = .ok (ys, s') → P s → P s'
  | [], _, _, _, h, hs => by
    cases h
    exact hs
  | x :: xs, _, _, _, h, hs => by
    obtain ⟨⟨y, s₁⟩, hx, h⟩ := except_bind_eq_ok.1 h
    obtain ⟨⟨ys, s₂⟩, hxs, h⟩ := except_bind_eq_ok.1 h
    cases h
    exact loop_inv hstep hxs (hstep hx hs)

theorem origin_set {root : Root Place} {tree : Dict Edited} {path : String} {edited : Edited} (htree : Origins root tree)
    (h : Origin root path edited) : Origins root (tree.set path edited) := by
  intro path' edited' hget
  rw [Dict.get?_set] at hget
  by_cases hpath : path' = path
  · rw [if_pos hpath] at hget
    rw [hpath, hget]
    exact h
  · rw [if_neg hpath] at hget
    exact htree path' edited' hget

theorem current_origin {root : Root Place} {tree : Dict Edited} {path : String} {edited : Edited}
    (h : current root tree path = .ok edited) (htree : Origins root tree) : Origin root path edited := by
  unfold current at h
  split at h
  · next edited' hget =>
    cases h
    exact htree path _ hget
  · obtain ⟨bytes, hbytes, h⟩ := except_bind_eq_ok.1 h
    obtain ⟨text, htext, h⟩ := except_bind_eq_ok.1 h
    cases h
    rw [Origin, encode_decode htext]
    exact hbytes

theorem edit_group_origins {llvm_major : String} {tree tree' : Dict Edited} {group : Group} {chunk : Line}
    (h : edit_group tools root llvm_major tree group = .ok (chunk, tree')) (htree : Origins root tree) :
    Origins root tree' := by
  obtain ⟨⟨path, edits⟩, hpresent, h⟩ := except_bind_eq_ok.1 h
  obtain ⟨before, hbefore, h⟩ := except_bind_eq_ok.1 h
  obtain ⟨after, hafter, h⟩ := except_bind_eq_ok.1 h
  cases h
  refine origin_set htree ?_
  have horigin := current_origin hbefore htree
  obtain ⟨original, content⟩ := before
  cases original <;> exact horigin

theorem add_file_origins {tree tree' : Dict Edited} {new : String × String} {chunk : Line}
    (h : add_file tools root tree new = .ok (chunk, tree')) (htree : Origins root tree) : Origins root tree' := by
  obtain ⟨hnew, h⟩ := except_check_eq_ok.1 h
  cases h
  refine origin_set htree (eq_false_of_ne_true fun hexists => hnew (.inl hexists))

theorem edit_patch_origins {llvm_major : String} {tree tree' : Dict Edited} {patch : String × List Group}
    {made : String × Line} (h : edit_patch tools series root llvm_major tree patch = .ok (made, tree'))
    (htree : Origins root tree) : Origins root tree' := by
  obtain ⟨⟨chunks, tree₁⟩, hgroups, h⟩ := except_bind_eq_ok.1 h
  obtain ⟨⟨chunks', tree₂⟩, hfiles, h⟩ := except_bind_eq_ok.1 h
  cases h
  have hedited := loop_inv (fun hstep => edit_group_origins hstep) hgroups htree
  exact loop_inv (fun hstep => add_file_origins hstep) hfiles hedited

/-- What is edited was read from the tree, and what is added was not there. -/
theorem edit_tree_origins {llvm_major : String} {edited : EditedTree} (h : edit_tree tools series root llvm_major = .ok edited) :
    Origins root edited.files := by
  obtain ⟨⟨patches, files⟩, hloop, h⟩ := except_bind_eq_ok.1 h
  cases h
  refine loop_inv (fun hstep => edit_patch_origins hstep) hloop ?_
  intro path edited hget
  cases hget

/-- A committed patch that is what the generator makes. -/
theorem compare_patch_self {llvm_major name : String} {patch : Line} {groups : List ChangeGroup}
    (h : change_groups tools.difflib patch = .ok groups) : compare_patch tools llvm_major name patch patch = .ok ("  " ++ name) := by
  unfold compare_patch
  rw [h]
  simp

/-- A group of one file that no earlier patch edits. -/
theorem edit_group_file {llvm_major path : String} {edits : List Edit} {tree : Dict Edited} {text after : Text}
    (hnew : tree.get? path = none) (hread : root.read_bytes path = .ok (encode_utf8 text))
    (hedits : edits.foldlM (fun text edit => apply_edit tools path text edit llvm_major) text = .ok after) :
    edit_group tools root llvm_major tree (.file path edits) =
      .ok (unified_diff tools.difflib (ofString path) (some (line text)) (line after), tree.set path ⟨some text, after⟩) := by
  have hcurrent : current root tree path = .ok ⟨some text, text⟩ := by
    rw [current, hnew]
    simp only [hread, except_ok_bind, decode_encode]
  rw [edit_group]
  simp only [present, except_ok_bind, hcurrent, hedits]

/-- A patch of one group without new files. -/
theorem edit_patch_one {llvm_major name : String} {group : Group} {tree tree' : Dict Edited} {chunk : Line}
    (hnew : series.new_files.get? name = none) (h : edit_group tools root llvm_major tree group = .ok (chunk, tree')) :
    edit_patch tools series root llvm_major tree (name, [group]) = .ok ((name, chunk), tree') := by
  rw [edit_patch]
  simp [loop, h, hnew]

/-! ## The files that are written -/

/-- The files that are written. -/
def changed (files : List (String × Edited)) : List (String × Edited) :=
  files.filter fun file => file.2.original ≠ some file.2.content

/-- No changed file is a symlink, and files of one place get one content. -/
def Unlinked (root : Root Place) (files : List (String × Edited)) : Prop :=
  (∀ file ∈ changed files, root.is_symlink file.1 = false) ∧
    ∀ file ∈ changed files, ∀ file' ∈ changed files, root.place file.1 = root.place file'.1 → file.2.content = file'.2.content

/-- The first file that is changed is a symlink, so nothing is written. -/
def FirstLinked (root : Root Place) (files : List (String × Edited)) : Prop :=
  ∃ file, (changed files).head? = some file ∧ root.is_symlink file.1 = true

/-- Up to the first symlink among the changed files. -/
theorem first_symlink (root : Root Place) : ∀ files : List (String × Edited),
    (∀ file ∈ changed files, root.is_symlink file.1 = false) ∨
      ∃ before path edited behind, files = before ++ (path, edited) :: behind ∧
        (∀ file ∈ changed before, root.is_symlink file.1 = false) ∧ edited.original ≠ some edited.content ∧
          root.is_symlink path = true
  | [] => .inl fun file hmem => absurd hmem List.not_mem_nil
  | (path, edited) :: files => by
    rw [changed]
    by_cases hsame : edited.original = some edited.content
    · rw [List.filter_cons_of_neg (by simp [hsame])]
      rcases first_symlink root files with h | ⟨before, path', edited', behind, rfl, hbefore, h⟩
      · exact .inl h
      · refine .inr ⟨(path, edited) :: before, path', edited', behind, rfl, ?_, h⟩
        rwa [changed, List.filter_cons_of_neg (by simp [hsame])]
    · rw [List.filter_cons_of_pos (by simp [hsame])]
      cases hlink : root.is_symlink path with
      | true => exact .inr ⟨[], path, edited, files, rfl, fun file hmem => absurd hmem List.not_mem_nil, hsame, hlink⟩
      | false =>
        rcases first_symlink root files with h | ⟨before, path', edited', behind, rfl, hbefore, h⟩
        · refine .inl fun file hfile => ?_
          rcases List.mem_cons.1 hfile with rfl | hfile
          · exact hlink
          · exact h file hfile
        · refine .inr ⟨(path, edited) :: before, path', edited', behind, rfl, fun file hfile => ?_, h⟩
          rw [changed, List.filter_cons_of_pos (by simp [hsame])] at hfile
          rcases List.mem_cons.1 hfile with rfl | hfile
          · exact hlink
          · exact hbefore file hfile

variable [DecidableEq Place]

/-! ## All or nothing -/

/-- Every changed file has its content, and nothing else is different. -/
structure Written (root root' : Root Place) (files : List (String × Edited)) : Prop where
  names : root'.place = root.place
  content : ∀ file ∈ changed files, root'.node (root.place file.1) = some (.file (encode_utf8 file.2.content))
  other : ∀ place, (∀ file ∈ changed files, root.place file.1 ≠ place) → root'.node place = root.node place

/-- An error leaves the tree as it was; otherwise the edits made in memory are in it. -/
structure AllOrNothing (tools : Tools) (series : Series) (root : Root Place) (llvm_major : Int)
    (reviewed : Dict (Option (List UInt8))) : Prop where
  refused : ∀ e root', apply tools series root llvm_major reviewed = (.error e, root') → root' = root
  applied : ∀ notes root', apply tools series root llvm_major reviewed = (.ok notes, root') →
    ∃ edited, edit_tree tools series root (toString llvm_major) = .ok edited ∧ Written root root' edited.files.items

/-- The files are written one after the other. -/
def write_all (root : Root Place) (files : List (String × Edited)) : Root Place :=
  (changed files).foldl (fun root file => root.write_bytes file.1 (encode_utf8 file.2.content)) root

/-! ## The write loop -/

@[simp] theorem write_bytes_place (root : Root Place) (path : String) (bytes : List UInt8) :
    (root.write_bytes path bytes).place = root.place := rfl

@[simp] theorem write_bytes_node (root : Root Place) (path : String) (bytes : List UInt8) :
    (root.write_bytes path bytes).node = Function.update root.node (root.place path) (some (.file bytes)) := rfl

/-- Writing a file that is no symlink makes and breaks no symlink. -/
theorem is_symlink_write {path : String} (h : root.is_symlink path = false) (bytes : List UInt8) (path' : String) :
    (root.write_bytes path bytes).is_symlink path' = root.is_symlink path' := by
  rw [Root.is_symlink, Root.is_symlink, write_bytes_node, write_bytes_place]
  by_cases hplace : root.place path' = root.place path
  · rw [Root.is_symlink] at h
    rw [hplace, Function.update_self, h]
  · rw [Function.update_of_ne hplace]

theorem write_all_cons (path : String) (edited : Edited) (files : List (String × Edited)) :
    write_all root ((path, edited) :: files) =
      if edited.original = some edited.content then write_all root files
      else write_all (root.write_bytes path (encode_utf8 edited.content)) files := by
  by_cases h : edited.original = some edited.content
  · rw [if_pos h, write_all, changed, List.filter_cons_of_neg (by simp [h])]
    rfl
  · rw [if_neg h, write_all, changed, List.filter_cons_of_pos (by simp [h])]
    rfl

/-- Without a symlink among the changed files, all of them are written. -/
theorem write_loop_clean : ∀ {files : List (String × Edited)} {root : Root Place},
    (∀ file ∈ changed files, root.is_symlink file.1 = false) → write_loop root files = (.ok (), write_all root files)
  | [], _, _ => rfl
  | (path, edited) :: files, root, h => by
    rw [write_loop, write_all_cons]
    by_cases hsame : edited.original = some edited.content
    · rw [if_pos hsame, if_pos hsame]
      rw [changed, List.filter_cons_of_neg (by simp [hsame])] at h
      exact write_loop_clean h
    · rw [changed, List.filter_cons_of_pos (by simp [hsame])] at h
      have hpath : root.is_symlink path = false := h _ List.mem_cons_self
      rw [if_neg hsame, if_neg hsame, if_neg (by rw [hpath]; exact Bool.false_ne_true)]
      refine write_loop_clean fun file hfile => ?_
      rw [is_symlink_write hpath]
      exact h file (List.mem_cons_of_mem _ hfile)

/-- A symlink stops the loop behind the files before it. -/
theorem write_loop_stops {path : String} {edited : Edited} (hchanged : edited.original ≠ some edited.content)
    {behind : List (String × Edited)} : ∀ {files : List (String × Edited)} {root : Root Place},
      (∀ file ∈ changed files, root.is_symlink file.1 = false) → root.is_symlink path = true →
        write_loop root (files ++ (path, edited) :: behind) =
          (.error (.SystemExit ("refusing to write the overlay through symlink " ++ path)), write_all root files)
  | [], root, _, hlink => by
    rw [List.nil_append, write_loop, if_neg hchanged, if_pos hlink]
    rfl
  | (path', edited') :: files, root, h, hlink => by
    rw [List.cons_append, write_loop, write_all_cons]
    by_cases hsame : edited'.original = some edited'.content
    · rw [if_pos hsame, if_pos hsame]
      rw [changed, List.filter_cons_of_neg (by simp [hsame])] at h
      exact write_loop_stops hchanged h hlink
    · rw [changed, List.filter_cons_of_pos (by simp [hsame])] at h
      have hpath : root.is_symlink path' = false := h _ List.mem_cons_self
      rw [if_neg hsame, if_neg hsame, if_neg (by rw [hpath]; exact Bool.false_ne_true)]
      refine write_loop_stops hchanged (fun file hfile => ?_) (by rw [is_symlink_write hpath, hlink])
      rw [is_symlink_write hpath]
      exact h file (List.mem_cons_of_mem _ hfile)

theorem write_all_place : ∀ (files : List (String × Edited)) (root : Root Place), (write_all root files).place = root.place
  | [], _ => rfl
  | (path, edited) :: files, root => by
    rw [write_all_cons]
    by_cases hsame : edited.original = some edited.content
    · rw [if_pos hsame, write_all_place files]
    · rw [if_neg hsame, write_all_place files, write_bytes_place]

/-- What stands at a place afterwards: the content of a changed file that leads there, or what stood there. -/
theorem write_all_node (place : Place) : ∀ (files : List (String × Edited)) (root : Root Place),
    (∃ file ∈ changed files, root.place file.1 = place ∧
      (write_all root files).node place = some (.file (encode_utf8 file.2.content))) ∨
    ((∀ file ∈ changed files, root.place file.1 ≠ place) ∧ (write_all root files).node place = root.node place)
  | [], _ => .inr ⟨fun file hmem => absurd hmem List.not_mem_nil, rfl⟩
  | (path, edited) :: files, root => by
    rw [write_all_cons]
    by_cases hsame : edited.original = some edited.content
    · rw [if_pos hsame, changed, List.filter_cons_of_neg (by simp [hsame])]
      exact write_all_node place files root
    · rw [if_neg hsame, changed, List.filter_cons_of_pos (by simp [hsame])]
      rcases write_all_node place files (root.write_bytes path (encode_utf8 edited.content)) with
        ⟨file, hfile, hplace, hnode⟩ | ⟨hnone, hnode⟩
      · exact .inl ⟨file, List.mem_cons_of_mem _ hfile, hplace, hnode⟩
      · by_cases hplace : root.place path = place
        · refine .inl ⟨(path, edited), List.mem_cons_self, hplace, ?_⟩
          rw [hnode, write_bytes_node, hplace, Function.update_self]
        · refine .inr ⟨fun file hfile => ?_, ?_⟩
          · rcases List.mem_cons.1 hfile with rfl | hfile
            · exact hplace
            · exact hnone file hfile
          · rw [hnode, write_bytes_node, Function.update_of_ne (Ne.symm hplace)]

/-- All changed files have their content exactly where files of one place get one content. -/
theorem written_iff (files : List (String × Edited)) (root : Root Place) :
    Written root (write_all root files) files ↔ ∀ file ∈ changed files, ∀ file' ∈ changed files,
      root.place file.1 = root.place file'.1 → file.2.content = file'.2.content := by
  constructor
  · intro h file hfile file' hfile' hplace
    have hnode := h.content file hfile
    rw [hplace, h.content file' hfile'] at hnode
    exact encode_injective (Node.file.inj (Option.some.inj hnode)).symm
  · intro h
    refine ⟨write_all_place files root, fun file hfile => ?_, fun place hnone => ?_⟩
    · rcases write_all_node (root.place file.1) files root with ⟨file', hfile', hplace, hnode⟩ | ⟨hnone, -⟩
      · rw [hnode, h file' hfile' file hfile hplace]
      · exact absurd rfl (hnone file hfile)
    · rcases write_all_node place files root with ⟨file, hfile, hplace, -⟩ | ⟨-, hnode⟩
      · exact absurd hplace (hnone file hfile)
      · exact hnode

/-- A write of a changed file leaves a trace. -/
theorem write_all_ne {files : List (String × Edited)} (horigin : ∀ file ∈ files, Origin root file.1 file.2) (hne : changed files ≠ []) :
    write_all root files ≠ root := by
  intro heq
  obtain ⟨first, hfirst⟩ := List.exists_mem_of_ne_nil _ hne
  rcases write_all_node (root.place first.1) files root with ⟨file, hfile, hplace, hnode⟩ | ⟨hnone, -⟩
  · rw [heq, ← hplace] at hnode
    have hfollow : root.follow file.1 = some (.file (encode_utf8 file.2.content)) := by rw [Root.follow, hnode]
    obtain ⟨hmem, hchanged⟩ := List.mem_filter.1 hfile
    have hfrom := horigin file hmem
    obtain ⟨path, original, content⟩ := file
    cases original with
    | none =>
      have hexists : root.path_exists path = false := hfrom
      rw [Root.path_exists, hfollow] at hexists
      cases hexists
    | some text =>
      have hread : root.read_bytes path = .ok (encode_utf8 text) := hfrom
      rw [Root.read_bytes, hfollow] at hread
      have htext := encode_injective (Except.ok.inj hread)
      exact of_decide_eq_true hchanged (congrArg some htext.symm)
  · exact absurd rfl (hnone first hfirst)

/-! ## All or nothing -/

/-- **`apply` is all or nothing exactly where no changed file is a symlink, or the first one is.** -/
theorem apply_whole_iff (tools : Tools) (series : Series) (root : Root Place) (llvm_major : Int)
    (reviewed : Dict (Option (List UInt8))) : AllOrNothing tools series root llvm_major reviewed ↔
      ∀ edited notes, reviewed_series tools series root llvm_major reviewed = .ok (edited, notes) →
        FirstLinked root edited.files.items ∨ Unlinked root edited.files.items := by
  cases hseries : reviewed_series tools series root llvm_major reviewed with
  | error e =>
    have hrun : apply tools series root llvm_major reviewed = (.error e, root) := by rw [apply, hseries]
    refine ⟨fun _ edited notes h => (by cases h), fun _ => ⟨fun e' root' h => ?_, fun notes root' h => ?_⟩⟩
    · rw [hrun] at h
      exact (Prod.mk.inj h).2.symm
    · rw [hrun] at h
      cases h
  | ok reviewed' =>
    obtain ⟨edited, notes⟩ := reviewed'
    obtain ⟨tree, htree, hrest⟩ := except_bind_eq_ok.1 hseries
    obtain ⟨committed, -, hrest⟩ := except_bind_eq_ok.1 hrest
    obtain ⟨-, hrest⟩ := except_check_eq_ok.1 hrest
    obtain ⟨notes', -, hrest⟩ := except_bind_eq_ok.1 hrest
    cases hrest
    have horigin : ∀ file ∈ edited.files.items, Origin root file.1 file.2 := fun file hmem =>
      edit_tree_origins htree file.1 file.2 (Dict.mem_items.1 hmem)
    have hone : (∀ edited' notes', (Except.ok (edited, notes) : Except Exit (EditedTree × List String)) = .ok (edited', notes') →
        FirstLinked root edited'.files.items ∨ Unlinked root edited'.files.items) ↔
          FirstLinked root edited.files.items ∨ Unlinked root edited.files.items := by
      refine ⟨fun h => h edited notes rfl, fun h edited' notes' heq => ?_⟩
      cases heq
      exact h
    rw [hone]
    rcases first_symlink root edited.files.items with hclean | ⟨before, path, file, behind, hfiles, hbefore, hchanged, hlink⟩
    · have hrun : apply tools series root llvm_major reviewed = (.ok notes, write_all root edited.files.items) := by
        rw [apply, hseries]
        simp only [write_loop_clean hclean]
        rfl
      constructor
      · intro h
        obtain ⟨edited', htree', hwritten⟩ := h.applied _ _ hrun
        rw [htree] at htree'
        cases htree'
        exact .inr ⟨hclean, (written_iff _ _).1 hwritten⟩
      · rintro (⟨first, hfirst, hlink⟩ | ⟨-, hplaces⟩)
        · rw [hclean first (List.mem_of_mem_head? hfirst)] at hlink
          cases hlink
        · refine ⟨fun e root' h => ?_, fun notes' root' h => ?_⟩
          · rw [hrun] at h
            cases h
          · rw [hrun] at h
            cases h
            exact ⟨edited, htree, (written_iff _ _).2 hplaces⟩
    · have hmem : (path, file) ∈ changed edited.files.items := by
        rw [hfiles, changed, List.filter_append]
        exact List.mem_append_right _ (List.mem_filter.2 ⟨List.mem_cons_self, decide_eq_true hchanged⟩)
      have hchain : changed edited.files.items = changed before ++ (path, file) :: changed behind := by
        rw [hfiles, changed, List.filter_append, List.filter_cons_of_pos (by simp [hchanged])]
        rfl
      have hrun : apply tools series root llvm_major reviewed =
          (.error (.SystemExit ("refusing to write the overlay through symlink " ++ path)), write_all root before) := by
        rw [apply, hseries]
        simp only [hfiles, write_loop_stops hchanged hbefore hlink]
        rfl
      constructor
      · intro h
        left
        have hnone : changed before = [] := by
          by_contra hne
          refine write_all_ne (fun item hitem => horigin item ?_) hne (h.refused _ _ hrun)
          rw [hfiles]
          exact List.mem_append_left _ hitem
        refine ⟨(path, file), ?_, hlink⟩
        rw [hchain, hnone]
        rfl
      · rintro (⟨first, hfirst, hfirstlink⟩ | ⟨hclean, -⟩)
        · have hnone : changed before = [] := by
            cases hcases : changed before with
            | nil => rfl
            | cons item items =>
              rw [hchain, hcases] at hfirst
              cases hfirst
              rw [hbefore _ (hcases ▸ List.mem_cons_self)] at hfirstlink
              cases hfirstlink
          refine ⟨fun e root' h => ?_, fun notes' root' h => ?_⟩
          · rw [hrun, write_all, hnone] at h
            exact (Prod.mk.inj h).2.symm
          · rw [hrun] at h
            cases h
        · rw [hclean _ hmem] at hlink
          cases hlink
end

/-! ## A run that is not -/

namespace Sample

/-- Two groups of `PATCHES`, one in its first patch and one in its last. -/
def LAYOUT_TEMPLATES : Group := .file "debian/templates/image.control.in" [.oneOf
  (.spelling "Pre-Depends: linux-base (>= 4.17~)\n" "Pre-Depends: linux-base (>= 4.12~)\n")
  (.spelling "Pre-Depends: linux-base (>= 4.12~)\n" "Pre-Depends: linux-base (>= 4.12~)\n") []]

def PACKAGE_TEMPLATES : Group :=
  .file "debian/templates/image.meta.bug-presubj.in" [.one "package name linux-image-" "package name dkc-linux-image-"]

def series : Series where
  patches := ⟨[("0000-debian-13-kernel-image-layout.patch", [LAYOUT_TEMPLATES]),
    ("0005-dkc-package-namespace.patch", [PACKAGE_TEMPLATES])], by simp⟩
  new_files := Dict.empty

def tools : Tools := ⟨keep_start, keep_start, fun _ _ => []⟩

def row (s : String) : Text := s.toList ++ ['\n']

def control : Text := row "Pre-Depends: linux-base (>= 4.17~)"
def control' : Text := row "Pre-Depends: linux-base (>= 4.12~)"
def presubj : Text := row "package name linux-image-"
def presubj' : Text := row "package name dkc-linux-image-"

/-- The second file is a symlink to a file with the text. -/
def root : Root String where
  place path := path
  node path :=
    if path = "debian/templates/image.control.in" then some (.file (encode_utf8 control))
    else if path = "debian/templates/image.meta.bug-presubj.in" then some (.symlink (some "debian/templates/presubj"))
    else if path = "debian/templates/presubj" then some (.file (encode_utf8 presubj))
    else none

/-- The patch of a file of one row. -/
def row_patch (path old new : String) : Text :=
  "--- a/".toList ++ path.toList ++ ['\n'] ++ ("+++ b/".toList ++ path.toList ++ ['\n'] ++
    ("@@ -1 +1 @@\n".toList ++ ('-' :: row old ++ '+' :: row new)))

def control_patch : Text := row_patch "debian/templates/image.control.in"
  "Pre-Depends: linux-base (>= 4.17~)" "Pre-Depends: linux-base (>= 4.12~)"

def presubj_patch : Text := row_patch "debian/templates/image.meta.bug-presubj.in"
  "package name linux-image-" "package name dkc-linux-image-"

def reviewed : Dict (Option (List UInt8)) :=
  ⟨[("0000-debian-13-kernel-image-layout.patch", some (encode_utf8 control_patch)),
    ("0005-dkc-package-namespace.patch", some (encode_utf8 presubj_patch))], by simp⟩

theorem line_pieces (a b c path old new : Text) :
    line (a ++ path ++ ['\n'] ++ (b ++ path ++ ['\n'] ++ (c ++ ('-' :: old ++ '+' :: new)))) =
      line a ++ line path ++ [newline] ++ (line b ++ line path ++ [newline] ++
        (line c ++ (.char '-' :: line old ++ .char '+' :: line new))) := by
  simp [line, newline]

theorem row_row {s : String} (h : ∀ c ∈ s.toList, Py.isLineBreak c = false) : Row (line (row s)) := by
  refine ⟨line s.toList, fun c hc => ?_, .inl (List.map_append)⟩
  obtain ⟨d, hd, rfl⟩ := List.mem_map.1 hc
  exact h d hd

theorem splitlines_row {l : Line} (h : Row l) : splitlines l = [l] := by
  have hone : ∀ row ∈ [l], Row row := fun row hmem => List.mem_singleton.1 hmem ▸ h
  have hrows := splitlines_rows hone
  rwa [List.flatten_singleton] at hrows

theorem diff_row {path l l' : Line} (h : Row l) (h' : Row l') (hne : l ≠ l') : unified_diff keep_start path (some l) l' =
    ofString "--- a/" ++ path ++ [newline] ++ (ofString "+++ b/" ++ path ++ [newline] ++
      (ofString "@@ -1 +1 @@\n" ++ (.char '-' :: l ++ .char '+' :: l'))) := by
  have hscript : (keep_start.script (splitlines l) (splitlines l')).hunks = [([], [(.removed, l), (.added, l')])] := by
    rw [splitlines_row h, splitlines_row h']
    simp [keep_start, changed_lines, hne]
  have hheader : ofString "@@ -" ++ format_range 0 1 ++ ofString " +" ++ format_range 0 1 ++ ofString " @@" ++ [newline] =
      ofString "@@ -1 +1 @@\n" := by decide +kernel
  have hhunks : format_hunks 0 0 [([], [(.removed, l), (.added, l')])] =
      [ofString "@@ -1 +1 @@\n", .char '-' :: l, .char '+' :: l'] := by
    rw [← hheader]
    rfl
  rw [diff_text hscript, hhunks]
  simp only [List.flatten_cons, List.flatten_nil, List.append_nil]

theorem row_patch_diff {path old new : String} (hold : ∀ c ∈ old.toList, Py.isLineBreak c = false)
    (hnew : ∀ c ∈ new.toList, Py.isLineBreak c = false) (hne : row old ≠ row new) :
    unified_diff keep_start (ofString path) (some (line (row old))) (line (row new)) = line (row_patch path old new) := by
  have hline : line (row old) ≠ line (row new) := by
    intro heq
    exact hne (List.map_injective_iff.2 (fun a b h => CodePoint.char.inj h) heq)
  rw [diff_row (row_row hold) (row_row hnew) hline]
  exact (line_pieces "--- a/".toList "+++ b/".toList "@@ -1 +1 @@\n".toList path.toList (row old) (row new)).symm

theorem with_major_free {llvm_major : String} {text : Text} (h : 'M' ∉ text) : with_major llvm_major text = text := by
  have hnone : ¬ LLVM_PLACEHOLDER.toList <:+: text := fun hin => h (hin.subset (by decide))
  have hstart := (List.noStart_iff (by decide)).2 hnone
  have hskip := List.replaceAll_skip llvm_major.toList hstart
  rw [List.append_nil] at hskip
  rw [with_major, hskip]
  exact List.append_nil text

theorem control_edit : apply_edit tools "debian/templates/image.control.in" control (.oneOf
    (.spelling "Pre-Depends: linux-base (>= 4.17~)\n" "Pre-Depends: linux-base (>= 4.12~)\n")
    (.spelling "Pre-Depends: linux-base (>= 4.12~)\n" "Pre-Depends: linux-base (>= 4.12~)\n") []) "21" = .ok control' := by
  rfl

theorem presubj_edit : apply_edit tools "debian/templates/image.meta.bug-presubj.in" presubj
    (.one "package name linux-image-" "package name dkc-linux-image-") "21" = .ok presubj' := by
  rfl

def control_files : Dict Edited := Dict.empty.set "debian/templates/image.control.in" ⟨some control, control'⟩

def both_files : Dict Edited := control_files.set "debian/templates/image.meta.bug-presubj.in" ⟨some presubj, presubj'⟩

theorem control_group : edit_group tools root "21" Dict.empty LAYOUT_TEMPLATES = .ok (line control_patch, control_files) := by
  have hdiff : unified_diff tools.difflib (ofString "debian/templates/image.control.in") (some (line control))
      (line control') = line control_patch := row_patch_diff (by decide) (by decide) (by decide)
  rw [← hdiff]
  refine edit_group_file rfl rfl ?_
  rw [List.foldlM_cons, control_edit]
  rfl

theorem presubj_group : edit_group tools root "21" control_files PACKAGE_TEMPLATES = .ok (line presubj_patch, both_files) := by
  have hdiff : unified_diff tools.difflib (ofString "debian/templates/image.meta.bug-presubj.in") (some (line presubj))
      (line presubj') = line presubj_patch := row_patch_diff (by decide) (by decide) (by decide)
  rw [← hdiff]
  refine edit_group_file rfl rfl ?_
  rw [List.foldlM_cons, presubj_edit]
  rfl

def control_path : OverlayPath where
  text := ofString "debian/templates/image.control.in"
  no_break := by decide
  no_tab := by decide
  safe := by decide

def presubj_path : OverlayPath where
  text := ofString "debian/templates/image.meta.bug-presubj.in"
  no_break := by decide
  no_tab := by decide
  safe := by decide

theorem whole_row {s : String} (h : ∀ c ∈ s.toList, Py.isLineBreak c = false) : Whole (line (row s)) := by
  intro l hl
  rw [splitlines_row (row_row h), List.mem_singleton] at hl
  rw [hl, row, line, List.map_append]
  exact List.getLast?_concat

theorem control_groups : ∃ groups, change_groups tools.difflib (line control_patch) = .ok groups := by
  have hmeans : Means keep_start control_path (line control) (line control') :=
    rows_mean keep_start_correct control_path (whole_row (by decide)) (whole_row (by decide))
  obtain ⟨groups, hgroups, -⟩ := hmeans.groups
  have hdiff : unified_diff keep_start control_path.text (some (line control)) (line control') = line control_patch :=
    row_patch_diff (by decide) (by decide) (by decide)
  rw [hdiff] at hgroups
  exact ⟨groups, hgroups⟩

theorem presubj_groups : ∃ groups, change_groups tools.difflib (line presubj_patch) = .ok groups := by
  have hmeans : Means keep_start presubj_path (line presubj) (line presubj') :=
    rows_mean keep_start_correct presubj_path (whole_row (by decide)) (whole_row (by decide))
  obtain ⟨groups, hgroups, -⟩ := hmeans.groups
  have hdiff : unified_diff keep_start presubj_path.text (some (line presubj)) (line presubj') = line presubj_patch :=
    row_patch_diff (by decide) (by decide) (by decide)
  rw [hdiff] at hgroups
  exact ⟨groups, hgroups⟩

theorem edited_series : edit_tree tools series root "21" = .ok ⟨⟨[("0000-debian-13-kernel-image-layout.patch", line control_patch),
    ("0005-dkc-package-namespace.patch", line presubj_patch)], by simp⟩, both_files⟩ := by
  have hcontrol : edit_patch tools series root "21" Dict.empty ("0000-debian-13-kernel-image-layout.patch", [LAYOUT_TEMPLATES]) =
      .ok (("0000-debian-13-kernel-image-layout.patch", line control_patch), control_files) :=
    edit_patch_one rfl control_group
  have hpresubj : edit_patch tools series root "21" control_files ("0005-dkc-package-namespace.patch", [PACKAGE_TEMPLATES]) =
      .ok (("0005-dkc-package-namespace.patch", line presubj_patch), both_files) :=
    edit_patch_one rfl presubj_group
  have hitems : series.patches.items = [("0000-debian-13-kernel-image-layout.patch", [LAYOUT_TEMPLATES]),
    ("0005-dkc-package-namespace.patch", [PACKAGE_TEMPLATES])] := rfl
  rw [edit_tree, hitems]
  simp only [loop, hcontrol, hpresubj, except_ok_bind]
  rfl

theorem committed_series : committed_patches reviewed "21" = .ok [("0000-debian-13-kernel-image-layout.patch", line control_patch),
    ("0005-dkc-package-namespace.patch", line presubj_patch)] := by
  have hcontrol : with_major "21" control_patch = control_patch := with_major_free (by decide)
  have hpresubj : with_major "21" presubj_patch = presubj_patch := with_major_free (by decide)
  have hitems : reviewed.items = [("0000-debian-13-kernel-image-layout.patch", some (encode_utf8 control_patch)),
    ("0005-dkc-package-namespace.patch", some (encode_utf8 presubj_patch))] := rfl
  rw [committed_patches, hitems, List.mapM_cons, List.mapM_cons, List.mapM_nil]
  simp only [decode_encode, except_ok_bind, hcontrol, hpresubj, except_pure]

/-- The generated patches are the committed ones. -/
theorem series_reviewed : ∃ patches notes, reviewed_series tools series root 21 reviewed = .ok (⟨patches, both_files⟩, notes) := by
  have hmajor : toString (21 : Int) = "21" := rfl
  obtain ⟨groups, hgroups⟩ := control_groups
  obtain ⟨groups', hgroups'⟩ := presubj_groups
  refine ⟨⟨[("0000-debian-13-kernel-image-layout.patch", line control_patch),
    ("0005-dkc-package-namespace.patch", line presubj_patch)], by simp⟩,
    ["  0000-debian-13-kernel-image-layout.patch", "  0005-dkc-package-namespace.patch"], ?_⟩
  have hnotes : compare_patch tools "21" "0000-debian-13-kernel-image-layout.patch" (line control_patch) (line control_patch) =
      .ok "  0000-debian-13-kernel-image-layout.patch" := compare_patch_self hgroups
  have hnotes' : compare_patch tools "21" "0005-dkc-package-namespace.patch" (line presubj_patch) (line presubj_patch) =
      .ok "  0005-dkc-package-namespace.patch" := compare_patch_self hgroups'
  have hlookup : List.lookup "0005-dkc-package-namespace.patch" [("0000-debian-13-kernel-image-layout.patch", line control_patch),
      ("0005-dkc-package-namespace.patch", line presubj_patch)] = some (line presubj_patch) := rfl
  rw [reviewed_series, hmajor, edited_series]
  simp [committed_series, Dict.keys, hnotes, hnotes', hlookup]

theorem torn : ¬ AllOrNothing tools series root 21 reviewed := by
  obtain ⟨patches, notes, hseries⟩ := Sample.series_reviewed
  intro h
  have hrun : apply tools series root 21 reviewed = (.error (.SystemExit
      "refusing to write the overlay through symlink debian/templates/image.meta.bug-presubj.in"),
        root.write_bytes "debian/templates/image.control.in" (encode_utf8 control')) := by
    have hfiles : both_files.items = [("debian/templates/image.control.in", ⟨some control, control'⟩),
      ("debian/templates/image.meta.bug-presubj.in", ⟨some presubj, presubj'⟩)] := rfl
    have hcontrol : ¬ (some control = some control') := by decide
    have hpresubj : ¬ (some presubj = some presubj') := by decide
    have hplain : root.is_symlink "debian/templates/image.control.in" = false := rfl
    have hlink : root.is_symlink "debian/templates/image.meta.bug-presubj.in" = true := rfl
    rw [apply, hseries]
    simp only [hfiles, write_loop, if_neg hcontrol, if_neg hpresubj, hplain, is_symlink_write hplain, hlink, if_true]
    rfl
  have hsame := congrArg (fun root => root.node "debian/templates/image.control.in") (h.refused _ _ hrun)
  have hnode : root.node "debian/templates/image.control.in" = some (.file (encode_utf8 control)) := rfl
  have hplace : root.place "debian/templates/image.control.in" = "debian/templates/image.control.in" := rfl
  simp only [write_bytes_node, hplace, Function.update_self, hnode, Option.some.injEq, Node.file.injEq] at hsame
  exact absurd (encode_injective hsame) (by decide)

end Sample

/-- The first file is written before the second one is refused. -/
theorem second_link_tears : ¬ ∀ (tools : Tools) (series : Series) (root : Root String) (llvm_major : Int)
    (reviewed : Dict (Option (List UInt8))), tools.difflib.Correct → AllOrNothing tools series root llvm_major reviewed :=
  fun h => Sample.torn (h Sample.tools Sample.series Sample.root 21 Sample.reviewed keep_start_correct)

end OverlayPatches
