import Mathlib.Data.List.DropRight
import DkcLinux.PatchPlacement

/-!
# Sections of a patch that name one file (`dkc/sourcepatch.py:156-192`, `:261-306`)

Every section of a patch is read, attempted and written under the path it spells. Sections of one file all
start from the text the tree has, and the last one written is the one that stays (`write_last`).
-/

namespace SourcePatch

open SurrogateEscape

/-- The sections of a patch that name a file. -/
def sections (patch : List FilePatch) (file : List (List UInt8)) : List FilePatch :=
  patch.filter fun item => fileOf item.path = file

/-- The text with one list of hunks after the other applied. -/
def Series : List Line → List (List Hunk) → List Line → Prop
  | text, [], result => result = text
  | text, hunks :: rest, result => ∃ middle, Woven text hunks middle ∧ Series middle rest result

/-- Each file that the patch names has the hunks of all its sections. -/
def AllPlaced (root root' : SourceTree) (patch : List FilePatch) : Prop :=
  ∀ item ∈ patch, ∃ bytes result, root (fileOf item.path) = some bytes ∧
    Series (lines (decode bytes)) ((sections patch (fileOf item.path)).map (·.hunks)) result ∧
    root' (fileOf item.path) = some (bytesOf result)

/-- No hunk is lost where the patch is written. -/
def NoneLost (root : SourceTree) (text : Line) : Prop :=
  match apply_patch root text with
  | (.ok .applied, root') | (.ok .context_moved, root') =>
    ∃ patch, parse_patch text = .ok patch ∧ AllPlaced root root' patch
  | _ => True

/-- The last section of each file makes of the original what all its sections make of it. -/
def LastMakesAll (root : SourceTree) (patch : List FilePatch) : Prop :=
  ∀ file, ∀ bytes ∈ root file, ∀ item ∈ (sections patch file).getLast?, ∀ result,
    Woven (lines (decode bytes)) item.hunks result →
      ∃ all, Series (lines (decode bytes)) ((sections patch file).map (·.hunks)) all ∧ bytesOf all = bytesOf result

/-! ## What stays -/

theorem Series.unique : ∀ {rest : List (List Hunk)} {text result result' : List Line},
    Series text rest result → Series text rest result' → result = result'
  | [], _, _, _, h, h' => h.trans h'.symm
  | _ :: _, _, _, _, ⟨_, hwoven, h⟩, ⟨_, hwoven', h'⟩ => by
    obtain rfl := hwoven.unique hwoven'
    exact h.unique h'

theorem Series.single {text result : List Line} {hunks : List Hunk} (h : Woven text hunks result) :
    Series text [hunks] result := ⟨result, h, rfl⟩

theorem write_snoc (root : SourceTree) (files : List (Line × List Line)) (file : Line × List Line) :
    write root (files ++ [file]) = Function.update (write root files) (fileOf file.1) (some (bytesOf file.2)) :=
  List.foldl_concat ..

/-- **The last text for a file stays.** -/
theorem write_last {root : SourceTree} {files : List (Line × List Line)} {key : List (List UInt8)}
    {file : Line × List Line} (h : file ∈ (files.filter fun file => fileOf file.1 = key).getLast?) :
    write root files key = some (bytesOf file.2) := by
  induction files using List.reverseRecOn with
  | nil => cases h
  | append_singleton files other ih =>
    rw [write_snoc]
    by_cases hkey : fileOf other.1 = key
    · rw [List.filter_append, List.filter_singleton, decide_eq_true hkey, cond_true, List.getLast?_concat] at h
      obtain rfl : other = file := Option.some.inj h
      rw [← hkey, Function.update_self]
    · rw [List.filter_append, List.filter_singleton, decide_eq_false hkey, cond_false, List.append_nil] at h
      rw [Function.update_of_ne (Ne.symm hkey), ih h]

/-- The last section of a file has its text last. -/
theorem made_last {root : SourceTree} {patch : List FilePatch} {files : List (Line × List Line)}
    (h : List.Forall₂ (Made root) patch files) {key : List (List UInt8)} {item : FilePatch}
    (hlast : item ∈ (sections patch key).getLast?) :
    ∃ file ∈ (files.filter fun file => fileOf file.1 = key).getLast?, Made root item file := by
  have hsections : List.Forall₂ (Made root) (sections patch key) (files.filter fun file => fileOf file.1 = key) := by
    refine List.rel_filter (fun item file hmade => ?_) h
    have hkey : fileOf file.1 = fileOf item.path := congrArg fileOf hmade.1
    simp only [decide_eq_true_eq, hkey]
  rw [List.getLast?_eq_head?_reverse] at hlast ⊢
  have hreverse := List.rel_reverse hsections
  generalize (sections patch key).reverse = items at hlast hreverse
  generalize (files.filter fun file => fileOf file.1 = key).reverse = texts at hreverse ⊢
  cases hreverse with
  | nil => cases hlast
  | cons hmade _ =>
    obtain rfl := Option.some.inj hlast
    exact ⟨_, rfl, hmade⟩

theorem sections_last {patch : List FilePatch} {item : FilePatch} (h : item ∈ patch) :
    ∃ last ∈ (sections patch (fileOf item.path)).getLast?, fileOf last.path = fileOf item.path := by
  have hmem : item ∈ sections patch (fileOf item.path) := List.mem_filter.2 ⟨h, decide_eq_true rfl⟩
  obtain ⟨last, hlast⟩ := Option.ne_none_iff_exists'.1 (mt List.getLast?_eq_none_iff.1 (List.ne_nil_of_mem hmem))
  exact ⟨last, hlast, of_decide_eq_true (List.mem_filter.1 (List.mem_of_getLast? hlast)).2⟩

theorem allPlaced_iff {root : SourceTree} {patch : List FilePatch} {originals : List (FilePatch × List Line)}
    {files : List (Line × List Line)} (hread : read_all root patch = .ok originals)
    (hfiles : (attempt originals).files = some files) :
    AllPlaced root (write root files) patch ↔ LastMakesAll root patch := by
  have hmade := attempt_forall₂ hread hfiles
  constructor
  · intro h key bytes hbytes item hlast result hwoven
    obtain ⟨hmem, hkey⟩ := List.mem_filter.1 (List.mem_of_getLast? hlast)
    obtain rfl : fileOf item.path = key := of_decide_eq_true hkey
    obtain ⟨file, hfile, -, bytes', hbytes', hwoven'⟩ := made_last hmade hlast
    obtain ⟨bytes'', all, hbytes'', hseries, hwritten⟩ := h item hmem
    obtain rfl : bytes' = bytes := Option.some.inj (hbytes'.symm.trans hbytes)
    obtain rfl : bytes'' = bytes' := Option.some.inj (hbytes''.symm.trans hbytes')
    rw [write_last hfile] at hwritten
    rw [hwoven.unique hwoven']
    exact ⟨all, hseries, (Option.some.inj hwritten).symm⟩
  · intro h item hmem
    obtain ⟨last, hlast, hkey⟩ := sections_last hmem
    obtain ⟨file, hfile, -, bytes, hbytes, hwoven⟩ := made_last hmade hlast
    rw [hkey] at hbytes
    obtain ⟨all, hseries, hall⟩ := h (fileOf item.path) bytes hbytes last hlast file.2 hwoven
    exact ⟨bytes, all, hbytes, hseries, by rw [write_last hfile, hall]⟩

/-- A file with one section needs no second one. -/
theorem lastMakesAll_of_nodup {root : SourceTree} {patch : List FilePatch}
    (h : (patch.map fun item => fileOf item.path).Nodup) : LastMakesAll root patch := by
  intro key bytes hbytes item hlast result hwoven
  have hnodup : ((sections patch key).map fun item => fileOf item.path).Nodup :=
    (List.filter_sublist.map _).nodup h
  have hkeys : ∀ item ∈ sections patch key, fileOf item.path = key :=
    fun item hmem => of_decide_eq_true (List.mem_filter.1 hmem).2
  generalize sections patch key = items at *
  match items with
  | [] => cases hlast
  | [only] =>
    obtain rfl : only = item := Option.some.inj hlast
    exact ⟨result, .single hwoven, rfl⟩
  | a :: b :: _ =>
    rw [List.map_cons, List.map_cons, List.nodup_cons, hkeys a List.mem_cons_self,
      hkeys b (List.mem_cons_of_mem _ List.mem_cons_self)] at hnodup
    exact absurd List.mem_cons_self hnodup.1

/-! ## No hunk is lost -/

theorem none_lost_conclude {root : SourceTree} {text : Line} {patch : List FilePatch}
    {originals : List (FilePatch × List Line)} (hparse : parse_patch text = .ok patch)
    (hread : read_all root patch = .ok originals) :
    NoneLost root text ↔
      ((attempt originals).wins (attempt_reversed originals) = true → LastMakesAll root patch) := by
  have happly : apply_patch root text = conclude root (attempt originals) (attempt_reversed originals) := by
    rw [apply_patch, hparse, except_ok_bind, hread]
  unfold NoneLost
  rw [happly]
  by_cases hwins : (attempt originals).wins (attempt_reversed originals) = true
  · obtain ⟨files, hfiles⟩ : ∃ files, (attempt originals).files = some files := by
      simp only [Attempt.wins, Bool.and_eq_true] at hwins
      exact Option.isSome_iff_exists.1 hwins.1.1
    have hwritten : (∃ patch, parse_patch text = .ok patch ∧ AllPlaced root (write root files) patch) ↔
        LastMakesAll root patch := by
      rw [← allPlaced_iff hread hfiles, hparse]
      simp
    rw [conclude, if_pos hwins, hfiles, Option.getD_some]
    simp only [hwins, true_imp_iff]
    cases (attempt originals).exact <;> exact hwritten
  · refine iff_of_true ?_ fun h => absurd h hwins
    rw [conclude, if_neg hwins]
    by_cases hback : (attempt_reversed originals).wins (attempt originals) = true
    · rw [if_pos hback]
      trivial
    · rw [if_neg hback]
      by_cases hfiles : (attempt originals).files.isSome = true
      · rw [if_pos hfiles]
        trivial
      · rw [if_neg hfiles]
        trivial

/-- What the sections of the sample make of the file, one after the other. -/
def sampleBoth : Bool :=
  match parse_patch samplePatch with
  | .ok [a, b] =>
    fileOf a.path = [[120]] && fileOf b.path = [[120]] &&
      apply_file (lines (decode [97, 10, 98, 10])) a = .ok ([ofString "A\n", ofString "b\n"], true) &&
      apply_file [ofString "A\n", ofString "b\n"] b = .ok ([ofString "A\n", ofString "B\n"], true)
  | _ => false

end SourcePatch
