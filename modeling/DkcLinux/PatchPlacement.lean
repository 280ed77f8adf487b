import Mathlib.Data.List.Dedup
import Mathlib.Data.List.Forall2
import Mathlib.Data.List.TakeWhile
import DkcLinux.SourcePatch

/-!
# Where a source patch lands (`dkc/sourcepatch.py:195-306`)

`Woven original hunks result` says what patching one text is to mean: the result is the original with the
core of each hunk replaced, in order, each at a place that nothing else in the text from there on could be.
`apply_hunks` finds such a result (`apply_hunks_woven`), and there is no other (`Woven.unique`).

| outcome of `apply_patch`               | the tree after it                        |
|----------------------------------------|------------------------------------------|
| raises, or `already_present`           | as before                                |
| `applied`, `context_moved`             | each file of the patch woven, if `Agree` |

The last line needs that the file patches of one file do not differ: `parse_patch` compares their paths as
text, so that `x` and `./x` pass as two files, and the last text written is the one that stays.
-/

namespace SourcePatch

open SurrogateEscape

/-! ## A hunk and its context -/

namespace Hunk

def isContext (line : Tag × Line) : Bool := line.1 = .context

theorem isContext_iff {line : Tag × Line} : isContext line = true ↔ line.1 = .context := decide_eq_true_iff

/-- The context above the changes. -/
def above (hunk : Hunk) : List Line := (hunk.lines.takeWhile isContext).map (·.2)

/-- The context below the changes. -/
def below (hunk : Hunk) : List Line := (hunk.lines.reverse.takeWhile isContext).reverse.map (·.2)

theorem above_length (hunk : Hunk) : hunk.above.length = hunk.leading := List.length_map ..

theorem below_length (hunk : Hunk) : hunk.below.length = hunk.trailing := by
  rw [below, List.length_map, List.length_reverse]
  rfl

/-- The lines from the first change to the last one. -/
def core (hunk : Hunk) : List (Tag × Line) :=
  ((hunk.lines.dropWhile isContext).reverse.dropWhile isContext).reverse

theorem mem_dropWhile {line : Tag × Line} {xs : List (Tag × Line)} (h : line ∈ xs) (htag : line.1 ≠ .context) :
    line ∈ xs.dropWhile isContext := by
  rw [← List.takeWhile_append_dropWhile (p := isContext) (l := xs), List.mem_append] at h
  exact h.resolve_left fun h => htag (isContext_iff.1 (List.mem_takeWhile_imp h))

theorem mem_core (hunk : Hunk) : ∃ line ∈ hunk.core, line.1 ≠ .context := by
  obtain ⟨line, hmem, htag⟩ := hunk.changes
  refine ⟨line, ?_, htag⟩
  have hdrop := List.mem_reverse.2 (mem_dropWhile hmem htag)
  exact List.mem_reverse.2 (mem_dropWhile hdrop htag)

/-- Context, changes, context. -/
theorem lines_eq (hunk : Hunk) : hunk.lines =
    hunk.lines.takeWhile isContext ++ hunk.core ++ (hunk.lines.reverse.takeWhile isContext).reverse := by
  obtain ⟨line, hmem, htag⟩ := hunk.changes
  have hrest := List.mem_reverse.2 (mem_dropWhile hmem htag)
  generalize hhead : hunk.lines.takeWhile isContext = head at *
  generalize htail : hunk.lines.dropWhile isContext = tail at *
  have hlines : hunk.lines = head ++ tail := by
    rw [← hhead, ← htail, List.takeWhile_append_dropWhile]
  -- the context below ends before the context above begins
  have hbelow : hunk.lines.reverse.takeWhile isContext = tail.reverse.takeWhile isContext := by
    rw [hlines, List.reverse_append, List.takeWhile_append, if_neg]
    intro hlen
    have hall : tail.reverse.takeWhile isContext = tail.reverse :=
      (List.takeWhile_prefix isContext).eq_of_length hlen
    exact htag (isContext_iff.1 (List.takeWhile_eq_self_iff.1 hall line hrest))
  have hcore : hunk.core = (tail.reverse.dropWhile isContext).reverse := by rw [core, htail]
  rw [hbelow, hcore, List.append_assoc, ← List.reverse_append, List.takeWhile_append_dropWhile,
    List.reverse_reverse, hlines]

/-- The texts of the lines with some tags. -/
def side (keep : Tag → Bool) (lines : List (Tag × Line)) : List Line :=
  (lines.filter fun line => keep line.1).map (·.2)

theorem side_append (keep : Tag → Bool) (a b : List (Tag × Line)) : side keep (a ++ b) = side keep a ++ side keep b := by
  rw [side, List.filter_append, List.map_append, side, side]

theorem side_context {keep : Tag → Bool} (hkeep : keep .context = true) {lines : List (Tag × Line)}
    (h : ∀ line ∈ lines, isContext line = true) : side keep lines = lines.map (·.2) := by
  rw [side, List.filter_eq_self.2]
  intro line hmem
  rw [isContext_iff.1 (h line hmem), hkeep]

/-- Both sides have the whole context. -/
theorem side_lines (hunk : Hunk) {keep : Tag → Bool} (hkeep : keep .context = true) :
    side keep hunk.lines = hunk.above ++ side keep hunk.core ++ hunk.below := by
  conv_lhs => rw [lines_eq]
  rw [side_append, side_append, above, below]
  congr 2
  · exact side_context hkeep fun line h => List.mem_takeWhile_imp h
  · exact side_context hkeep fun line h => List.mem_takeWhile_imp (List.mem_reverse.1 h)

/-- What `core_old` and `core_new` cut out. -/
theorem slice_side (hunk : Hunk) {keep : Tag → Bool} (hkeep : keep .context = true) :
    (side keep hunk.lines).slice hunk.leading ((side keep hunk.lines).length - hunk.trailing) =
      side keep hunk.core := by
  rw [hunk.side_lines hkeep, ← above_length, ← below_length, List.length_append, Nat.add_sub_cancel,
    List.length_append]
  exact List.slice_append rfl rfl

theorem core_old_eq (hunk : Hunk) : hunk.core_old = side (fun tag => tag ≠ .added) hunk.core :=
  @slice_side hunk (fun tag => tag ≠ .added) rfl

theorem core_new_eq (hunk : Hunk) : hunk.core_new = side (fun tag => tag ≠ .removed) hunk.core :=
  @slice_side hunk (fun tag => tag ≠ .removed) rfl

theorem old_eq (hunk : Hunk) : hunk.old = hunk.above ++ hunk.core_old ++ hunk.below := by
  rw [core_old_eq]
  exact @side_lines hunk (fun tag => tag ≠ .added) rfl

/-- A hunk removes a line or adds one. -/
theorem core_pos (hunk : Hunk) : 0 < hunk.core_old.length + hunk.core_new.length := by
  obtain ⟨⟨tag, text⟩, hmem, htag⟩ := hunk.mem_core
  rw [core_old_eq, core_new_eq]
  cases tag with
  | context => exact absurd rfl htag
  | removed =>
    have h : text ∈ side (fun tag => tag ≠ .added) hunk.core :=
      List.mem_map.2 ⟨(.removed, text), List.mem_filter.2 ⟨hmem, rfl⟩, rfl⟩
    exact Nat.add_pos_left (List.length_pos_of_mem h) _
  | added =>
    have h : text ∈ side (fun tag => tag ≠ .removed) hunk.core :=
      List.mem_map.2 ⟨(.added, text), List.mem_filter.2 ⟨hmem, rfl⟩, rfl⟩
    exact Nat.add_pos_right _ (List.length_pos_of_mem h)

end Hunk

/-! ## What patching one text means -/

/-- A value that has a property, and no other has it. -/
def Only (P : Nat → Prop) (p : Nat) : Prop := P p ∧ ∀ q, P q → q = p

/-- The removed lines begin at `p`, with the whole context around them. -/
def Surrounded (lines : List Line) (start : Nat) (hunk : Hunk) (p : Nat) : Prop :=
  ∃ q, start ≤ q ∧ lines.Occurs (hunk.above ++ hunk.core_old ++ hunk.below) q ∧ p = q + hunk.above.length

/-- The removed lines begin at `p`, with one complete side of context. -/
def Beside (lines : List Line) (start : Nat) (hunk : Hunk) (p : Nat) : Prop :=
  (hunk.above ≠ [] ∧ ∃ q, start ≤ q ∧ lines.Occurs (hunk.above ++ hunk.core_old) q ∧ p = q + hunk.above.length) ∨
    (hunk.below ≠ [] ∧ start ≤ p ∧ lines.Occurs (hunk.core_old ++ hunk.below) p)

/-- The one place of a hunk from `start` on. -/
def Places (lines : List Line) (start : Nat) (hunk : Hunk) (p : Nat) : Prop :=
  Only (Surrounded lines start hunk) p ∨
    ((∀ q, ¬ Surrounded lines start hunk q) ∧ Only (Beside lines start hunk) p)

/-- One replacement: what is kept before it, and the hunk. -/
structure Edit where
  gap : List Line
  hunk : Hunk

/-- What the edits find. -/
def original : List Edit → List Line
  | [] => []
  | edit :: edits => edit.gap ++ edit.hunk.core_old ++ original edits

/-- What the edits leave. -/
def patched : List Edit → List Line
  | [] => []
  | edit :: edits => edit.gap ++ edit.hunk.core_new ++ patched edits

/-- Where each replacement begins, in the original and in the patched text. -/
def positions : Nat → Nat → List Edit → List (Nat × Nat)
  | _, _, [] => []
  | a, b, edit :: edits =>
    (a + edit.gap.length, b + edit.gap.length) ::
      positions (a + edit.gap.length + edit.hunk.core_old.length)
        (b + edit.gap.length + edit.hunk.core_new.length) edits

/-- Each edit is at its hunk's one place after what is done, in the text that is patched up to there. -/
def Placed : List Line → List Edit → List Line → Prop
  | _, [], _ => True
  | done, edit :: edits, last =>
    Places (done ++ (edit.gap ++ edit.hunk.core_old ++ original edits ++ last)) done.length edit.hunk
        (done.length + edit.gap.length) ∧
      Placed (done ++ edit.gap ++ edit.hunk.core_new) edits last

/-- The text with the hunks' cores replaced. -/
def Woven (text : List Line) (hunks : List Hunk) (result : List Line) : Prop :=
  ∃ edits last, edits.map (·.hunk) = hunks ∧ text = original edits ++ last ∧ result = patched edits ++ last ∧
    (positions 0 0 edits).Pairwise (· < ·) ∧ Placed [] edits last

theorem positions_le : ∀ {a b : Nat} {edits : List Edit} {p : Nat × Nat}, p ∈ positions a b edits → a ≤ p.1 ∧ b ≤ p.2
  | a, b, edit :: edits, p, h => by
    rcases List.mem_cons.1 h with rfl | h
    · exact ⟨Nat.le_add_right a _, Nat.le_add_right b _⟩
    · have hle := positions_le h
      omega

theorem positions_increase : ∀ (a b : Nat) (edits : List Edit), (positions a b edits).Pairwise (· < ·)
  | _, _, [] => .nil
  | a, b, edit :: edits => by
    refine .cons (fun p hp => ?_) (positions_increase _ _ edits)
    have hle := positions_le hp
    have hpos := edit.hunk.core_pos
    rw [Prod.lt_iff]
    simp only
    omega

/-! ## One place -/

theorem Only.unique {P : Nat → Prop} {p q : Nat} (hp : Only P p) (hq : Only P q) : p = q := hq.2 p hp.1

theorem Places.unique {lines : List Line} {start : Nat} {hunk : Hunk} {p q : Nat}
    (hp : Places lines start hunk p) (hq : Places lines start hunk q) : p = q := by
  rcases hp with hp | ⟨hnone, hp⟩ <;> rcases hq with hq | ⟨hnone', hq⟩
  · exact hp.unique hq
  · exact absurd hp.1 (hnone' p)
  · exact absurd hq.1 (hnone q)
  · exact hp.unique hq

/-- The removed lines are there. -/
theorem Places.occurs {lines : List Line} {start : Nat} {hunk : Hunk} {p : Nat} (h : Places lines start hunk p) :
    start ≤ p ∧ lines.Occurs hunk.core_old p := by
  rcases h with ⟨⟨q, hstart, hocc, rfl⟩, -⟩ | ⟨-, ⟨-, q, hstart, hocc, rfl⟩ | ⟨-, hstart, hocc⟩, -⟩
  · exact ⟨by omega, hocc.part⟩
  · refine ⟨by omega, ?_⟩
    rw [← List.append_nil (hunk.above ++ hunk.core_old)] at hocc
    exact hocc.part
  · refine ⟨hstart, ?_⟩
    rw [← List.nil_append hunk.core_old] at hocc
    exact hocc.part

theorem surrounded_iff {lines : List Line} {start : Nat} {hunk : Hunk} (hold : hunk.old ≠ []) {p : Nat} :
    Surrounded lines start hunk p ↔ ∃ q ∈ lines.find hunk.old start, p = q + hunk.leading := by
  rw [Surrounded, ← hunk.old_eq, hunk.above_length]
  constructor
  · rintro ⟨q, hstart, hocc, rfl⟩
    exact ⟨q, (List.mem_find hold).2 ⟨hstart, hocc⟩, rfl⟩
  · rintro ⟨q, hmem, rfl⟩
    obtain ⟨hstart, hocc⟩ := (List.mem_find hold).1 hmem
    exact ⟨q, hstart, hocc, rfl⟩

theorem old_above (hunk : Hunk) : hunk.old.take (hunk.old.length - hunk.trailing) = hunk.above ++ hunk.core_old := by
  conv_lhs => rw [hunk.old_eq]
  rw [List.length_append, ← hunk.below_length, Nat.add_sub_cancel, List.take_left]

theorem old_below (hunk : Hunk) : hunk.old.drop hunk.leading = hunk.core_old ++ hunk.below := by
  rw [hunk.old_eq, List.append_assoc, ← hunk.above_length, List.drop_left]

theorem mem_moved {lines : List Line} {start : Nat} {hunk : Hunk} {p : Nat} :
    p ∈ moved lines hunk start ↔ Beside lines start hunk p := by
  have habove : hunk.leading ≠ 0 ↔ hunk.above ≠ [] := by
    rw [← hunk.above_length, ne_eq, List.length_eq_zero_iff]
  have hbelow : hunk.trailing ≠ 0 ↔ hunk.below ≠ [] := by
    rw [← hunk.below_length, ne_eq, List.length_eq_zero_iff]
  simp only [moved]
  rw [List.mem_dedup, List.mem_append, old_above, old_below, Beside]
  refine or_congr ?_ ?_
  · by_cases h : hunk.above = []
    · simp [habove, h]
    · rw [if_pos (habove.2 h), List.mem_map, hunk.above_length]
      simp only [ne_eq, h, not_false_eq_true, true_and]
      refine exists_congr fun q => ?_
      rw [List.mem_find (by simp [h]), and_assoc]
      exact and_congr_right fun _ => and_congr_right fun _ => eq_comm
  · by_cases h : hunk.below = []
    · simp [hbelow, h]
    · rw [if_pos (hbelow.2 h), List.mem_find (by simp [h])]
      simp [h]

/-- What `place` answers is the hunk's one place. -/
theorem place_places {lines : List Line} {hunk : Hunk} {start : Nat} {label : String × List String}
    {placement : Placement} (h : place lines hunk start label = .ok placement) :
    Places lines start hunk placement.start ∧ placement.length = hunk.core_old.length ∧
      placement.replacement = hunk.core_new := by
  unfold place at h
  obtain ⟨hold, h⟩ := except_check_eq_ok.1 h
  split at h
  · next position hfind =>
    cases h
    refine ⟨.inl ⟨?_, fun q hq => ?_⟩, rfl, rfl⟩
    · exact (surrounded_iff hold).2 ⟨position, by rw [hfind]; exact List.mem_singleton_self _, rfl⟩
    · obtain ⟨q, hmem, rfl⟩ := (surrounded_iff hold).1 hq
      rw [hfind, List.mem_singleton] at hmem
      rw [hmem]
  · next hfind =>
    have hnone (q : Nat) : ¬ Surrounded lines start hunk q := by
      rw [surrounded_iff hold, hfind]
      simp
    split at h
    · next position hmoved =>
      cases h
      refine ⟨.inr ⟨hnone, ?_, fun q hq => ?_⟩, rfl, rfl⟩
      · exact mem_moved.1 (by rw [hmoved]; exact List.mem_singleton_self _)
      · rw [← mem_moved, hmoved, List.mem_singleton] at hq
        exact hq
    · cases h
    · cases h
  · cases h

/-! ## The hunks of one file -/

/-- **What is found is woven**, after what is done. -/
theorem apply_hunks_placed {path : Line} : ∀ {hunks : List Hunk} {done rest result : List Line} {exact exact' : Bool}
    {number : Nat}, apply_hunks path (done ++ rest) done.length exact number hunks = .ok (result, exact') →
      ∃ edits last, edits.map (·.hunk) = hunks ∧ rest = original edits ++ last ∧
        result = done ++ (patched edits ++ last) ∧ Placed done edits last
  | [], done, rest, result, exact, exact', number, h => by
    cases h
    exact ⟨[], rest, rfl, rfl, rfl, trivial⟩
  | hunk :: hunks, done, rest, result, exact, exact', number, h => by
    obtain ⟨placement, hplace, h⟩ := except_bind_eq_ok.1 h
    obtain ⟨hplaces, hlength, hreplacement⟩ := place_places hplace
    obtain ⟨hstart, pre, post, heq, hpre⟩ := hplaces.occurs
    -- the place is after what is done
    obtain ⟨gap, rfl⟩ : ∃ gap, pre = done ++ gap := by
      have hprefix : done <+: pre := by
        refine List.prefix_of_prefix_length_le (List.prefix_append done rest) ?_ (by omega)
        rw [heq, List.append_assoc]
        exact List.prefix_append _ _
      obtain ⟨gap, hgap⟩ := hprefix
      exact ⟨gap, hgap.symm⟩
    have hrest : rest = gap ++ hunk.core_old ++ post := by
      simpa only [List.append_assoc, List.append_cancel_left_eq] using heq
    have hlen : placement.start = done.length + gap.length := by rw [← hpre, List.length_append]
    have hsplice : (done ++ rest).splice placement.start placement.length placement.replacement =
        (done ++ gap ++ hunk.core_new) ++ post := by
      rw [heq, hlength, hreplacement, List.splice_append hpre]
    have hcursor : placement.start + placement.replacement.length = (done ++ gap ++ hunk.core_new).length := by
      rw [← hpre, hreplacement]
      exact List.length_append.symm
    rw [hsplice, hcursor] at h
    obtain ⟨edits, last, hhunks, hpost, hresult, hplaced⟩ := apply_hunks_placed h
    refine ⟨⟨gap, hunk⟩ :: edits, last, by rw [List.map_cons, hhunks], ?_, ?_, ?_, hplaced⟩
    · rw [hrest, hpost, original, List.append_assoc (gap ++ _)]
    · rw [hresult, patched]
      simp only [List.append_assoc]
    · rw [hlen, hrest, hpost, ← List.append_assoc (gap ++ _)] at hplaces
      exact hplaces

theorem apply_file_woven {lines result : List Line} {item : FilePatch} {exact : Bool}
    (h : apply_file lines item = .ok (result, exact)) : Woven lines item.hunks result := by
  have h : apply_hunks item.path ([] ++ lines) 0 true 1 item.hunks = .ok (result, exact) := h
  obtain ⟨edits, last, hhunks, hlines, hresult, hplaced⟩ := apply_hunks_placed h
  exact ⟨edits, last, hhunks, hlines, hresult, positions_increase 0 0 edits, hplaced⟩

theorem Placed.unique : ∀ {edits edits' : List Edit} {done last last' : List Line},
    Placed done edits last → Placed done edits' last' → edits.map (·.hunk) = edits'.map (·.hunk) →
      original edits ++ last = original edits' ++ last' → patched edits ++ last = patched edits' ++ last'
  | [], [], _, _, _, _, _, _, heq => heq
  | ⟨gap, hunk⟩ :: edits, ⟨gap', hunk'⟩ :: edits', done, last, last', ⟨hplaces, h⟩, ⟨hplaces', h'⟩, hhunks, heq => by
    rw [List.map_cons, List.map_cons, List.cons_eq_cons] at hhunks
    obtain ⟨hhunk, hrest⟩ := hhunks
    obtain rfl : hunk = hunk' := hhunk
    simp only [original, patched] at *
    rw [heq] at hplaces
    have hlen : gap.length = gap'.length := Nat.add_left_cancel (hplaces.unique hplaces')
    rw [List.append_assoc, List.append_assoc, List.append_assoc, List.append_assoc] at heq
    obtain ⟨hgap, hrest'⟩ := List.append_inj heq hlen
    subst hgap
    rw [List.append_assoc, List.append_assoc (gap ++ _), h.unique h' hrest (List.append_cancel_left hrest')]

/-- A text is patched in one way. -/
theorem Woven.unique {text : List Line} {hunks : List Hunk} {result result' : List Line}
    (h : Woven text hunks result) (h' : Woven text hunks result') : result = result' := by
  obtain ⟨edits, last, hhunks, rfl, rfl, -, hplaced⟩ := h
  obtain ⟨edits', last', hhunks', htext, rfl, -, hplaced'⟩ := h'
  exact hplaced.unique hplaced' (hhunks.trans hhunks'.symm) htext

/-! ## The tree -/

theorem flatten_parts : ∀ parts : List Line,
    (parts.dropLast.map (· ++ [newline]) ++ (parts.getLast?.filter (· ≠ [])).toList).flatten =
      [newline].intercalate parts
  | [] => rfl
  | [part] => by
    by_cases h : part = []
    · subst h
      rfl
    · simp [Option.filter, h]
  | part :: part' :: parts => by
    have ih := flatten_parts (part' :: parts)
    rw [List.dropLast_cons_cons, List.map_cons, List.cons_append, List.flatten_cons, List.getLast?_cons_cons, ih,
      List.intercalate_cons_cons]

/-- The lines are the whole text. -/
theorem flatten_lines (text : Line) : (lines text).flatten = text := by
  rw [lines, flatten_parts, List.intercalate_splitOn]

/-- A file patch makes of its file what `Woven` says. -/
def Patched (root root' : SourceTree) (item : FilePatch) : Prop :=
  ∃ bytes result, root (fileOf item.path) = some bytes ∧ bytes = bytesOf (lines (decode bytes)) ∧
    Woven (lines (decode bytes)) item.hunks result ∧ root' (fileOf item.path) = some (bytesOf result)

/-- The files of the patch are patched, and every other file is as before. -/
def Framed (root root' : SourceTree) (patch : List FilePatch) : Prop :=
  (∀ item ∈ patch, Patched root root' item) ∧
    ∀ file, (∀ item ∈ patch, fileOf item.path ≠ file) → root' file = root file

/-- What an answer promises of the tree with it. -/
def Promise (root : SourceTree) (text : Line) : Except PyErr Status × SourceTree → Prop
  | (.ok .applied, root') | (.ok .context_moved, root') =>
    ∃ patch, parse_patch text = .ok patch ∧ Framed root root' patch
  | (_, root') => root' = root

/-- The patch is placed without a second choice, completely, and nothing else changes. -/
def Sound (root : SourceTree) (text : Line) : Prop := Promise root text (apply_patch root text)

/-- File patches of one file do not differ in what they make of it. -/
def Agree (root : SourceTree) (patch : List FilePatch) : Prop :=
  ∀ a ∈ patch, ∀ b ∈ patch, fileOf a.path = fileOf b.path → ∀ bytes ∈ root (fileOf a.path), ∀ result result',
    Woven (lines (decode bytes)) a.hunks result → Woven (lines (decode bytes)) b.hunks result' →
      bytesOf result = bytesOf result'

/-- Where the patch is written, its file patches agree. -/
def Fits (root : SourceTree) (text : Line) : Prop :=
  ∀ patch originals, parse_patch text = .ok patch → read_all root patch = .ok originals →
    (attempt originals).wins (attempt_reversed originals) = true → Agree root patch

theorem agree_of_nodup {root : SourceTree} {patch : List FilePatch}
    (h : (patch.map fun item => fileOf item.path).Nodup) : Agree root patch := by
  intro a ha b hb heq bytes hbytes result result' hwoven hwoven'
  obtain rfl := List.inj_on_of_nodup_map h ha hb heq
  rw [hwoven.unique hwoven']

theorem bytes_eq (bytes : List UInt8) : bytes = bytesOf (lines (decode bytes)) := by
  rw [bytesOf, flatten_lines, encode_decode]

theorem write_cons (root : SourceTree) (file : Line × List Line) (files : List (Line × List Line)) :
    write root (file :: files) = write (Function.update root (fileOf file.1) (some (bytesOf file.2))) files := rfl

theorem write_frame {key : List (List UInt8)} : ∀ {files : List (Line × List Line)} {root : SourceTree},
    (∀ file ∈ files, fileOf file.1 ≠ key) → write root files key = root key
  | [], _, _ => rfl
  | file :: files, root, h => by
    rw [write_cons, write_frame fun other hmem => h other (List.mem_cons_of_mem _ hmem)]
    exact Function.update_of_ne (h file List.mem_cons_self).symm _ _

/-- What is written to a file by those that agree on it. -/
theorem write_agreed {key : List (List UInt8)} {bytes : List UInt8} : ∀ {files : List (Line × List Line)} {root : SourceTree},
    (∀ file ∈ files, fileOf file.1 = key → bytesOf file.2 = bytes) → (∃ file ∈ files, fileOf file.1 = key) →
      write root files key = some bytes
  | [], _, _, ⟨_, hmem, _⟩ => absurd hmem List.not_mem_nil
  | file :: files, root, hagree, hsome => by
    have hagree' (other) (hmem : other ∈ files) := hagree other (List.mem_cons_of_mem _ hmem)
    rw [write_cons]
    by_cases hlater : ∃ other ∈ files, fileOf other.1 = key
    · exact write_agreed hagree' hlater
    · have hnone (other) (hmem : other ∈ files) : fileOf other.1 ≠ key := fun h => hlater ⟨other, hmem, h⟩
      obtain ⟨other, hmem, hkey⟩ := hsome
      rcases List.mem_cons.1 hmem with rfl | hmem
      · rw [write_frame hnone, ← hkey, Function.update_self, hagree other List.mem_cons_self hkey]
      · exact absurd hkey (hnone other hmem)

/-- The text that an attempt has made for a file patch. -/
def Made (root : SourceTree) (item : FilePatch) (file : Line × List Line) : Prop :=
  file.1 = item.path ∧ ∃ bytes, root (fileOf item.path) = some bytes ∧ Woven (lines (decode bytes)) item.hunks file.2

theorem read_eq_ok {root : SourceTree} {path : Line} {text : List Line} (h : read root path = .ok text) :
    ∃ bytes, root (fileOf path) = some bytes ∧ text = lines (decode bytes) := by
  unfold read at h
  split at h
  · cases h
  · next bytes hbytes =>
    cases h
    exact ⟨bytes, hbytes, rfl⟩

/-- The text of one file patch in an attempt. -/
theorem attempt_one {original : FilePatch × List Line} {y : (Line × List Line) × Bool}
    (h : (do
      let (result, exact) ← apply_file original.2 original.1
      pure ((original.1.path, result), exact) : Except PyErr _) = .ok y) :
    y.1.1 = original.1.path ∧ ∃ exact, apply_file original.2 original.1 = .ok (y.1.2, exact) := by
  obtain ⟨⟨result, exact⟩, happly, hy⟩ := except_bind_eq_ok.1 h
  cases hy
  exact ⟨rfl, exact, happly⟩

/-- A file patch that was read and attempted has its text. -/
theorem made_of_read {root : SourceTree} {item : FilePatch} {original : FilePatch × List Line}
    {file : Line × List Line} (h : (do pure (item, ← read root item.path) : Except PyErr _) = .ok original)
    (hpath : file.1 = original.1.path) (hfile : ∃ exact, apply_file original.2 original.1 = .ok (file.2, exact)) :
    Made root item file := by
  obtain ⟨text, hread, hpair⟩ := except_bind_eq_ok.1 h
  cases hpair
  obtain ⟨bytes, hbytes, rfl⟩ := read_eq_ok hread
  obtain ⟨exact, happly⟩ := hfile
  exact ⟨hpath, bytes, hbytes, apply_file_woven happly⟩

/-- The texts of an attempt, in the order of the patch. -/
theorem attempt_forall₂ {root : SourceTree} {patch : List FilePatch} {originals : List (FilePatch × List Line)}
    {files : List (Line × List Line)} (hread : read_all root patch = .ok originals)
    (hfiles : (attempt originals).files = some files) : List.Forall₂ (Made root) patch files := by
  unfold attempt at hfiles
  split at hfiles
  · next ys hys =>
    cases hfiles
    rw [List.forall₂_map_right_iff]
    refine forall₂_trans (fun item original y hitem hy => ?_) (except_mapM_forall₂ hread) (except_mapM_forall₂ hys)
    obtain ⟨hpath, happly⟩ := attempt_one hy
    exact made_of_read hitem hpath happly
  · cases hfiles
  · cases hfiles

/-- Every file patch has its text, and every text its file patch. -/
theorem attempt_made {root : SourceTree} {patch : List FilePatch} {originals : List (FilePatch × List Line)}
    {files : List (Line × List Line)} (hread : read_all root patch = .ok originals)
    (hfiles : (attempt originals).files = some files) :
    (∀ item ∈ patch, ∃ file ∈ files, Made root item file) ∧ ∀ file ∈ files, ∃ item ∈ patch, Made root item file := by
  have hall := attempt_forall₂ hread hfiles
  exact ⟨fun item hmem => forall₂_left hall hmem, fun file hmem => forall₂_right hall hmem⟩

theorem framed_write_iff {root : SourceTree} {patch : List FilePatch} {originals : List (FilePatch × List Line)}
    {files : List (Line × List Line)} (hread : read_all root patch = .ok originals)
    (hfiles : (attempt originals).files = some files) :
    Framed root (write root files) patch ↔ Agree root patch := by
  obtain ⟨hitems, hmade⟩ := attempt_made hread hfiles
  constructor
  · rintro ⟨hpatched, -⟩ a ha b hb hkey bytes hbytes result result' hwoven hwoven'
    obtain ⟨bytesa, ra, hra, -, hwa, hroota⟩ := hpatched a ha
    obtain ⟨bytesb, rb, hrb, -, hwb, hrootb⟩ := hpatched b hb
    obtain rfl : bytesa = bytes := Option.some.inj (hra.symm.trans hbytes)
    obtain rfl : bytesb = bytesa := Option.some.inj (hrb.symm.trans (hkey ▸ hra))
    rw [hwoven.unique hwa, hwoven'.unique hwb]
    exact Option.some.inj (hroota.symm.trans (hkey ▸ hrootb))
  · intro hagree
    constructor
    · intro item hitem
      obtain ⟨file, hfile, hpath, bytes, hbytes, hwoven⟩ := hitems item hitem
      refine ⟨bytes, file.2, hbytes, bytes_eq bytes, hwoven, write_agreed ?_ ⟨file, hfile, by rw [hpath]⟩⟩
      intro other hother hkey
      obtain ⟨item', hitem', hpath', bytes', hbytes', hwoven'⟩ := hmade other hother
      rw [hpath'] at hkey
      obtain rfl : bytes = bytes' := by
        rw [hkey, hbytes] at hbytes'
        exact Option.some.inj hbytes'
      exact hagree item' hitem' item hitem hkey bytes hbytes' other.2 file.2 hwoven' hwoven
    · intro key hother
      refine write_frame fun file hfile hkey => ?_
      obtain ⟨item, hitem, hpath, -⟩ := hmade file hfile
      exact hother item hitem (hpath ▸ hkey)

theorem fits_iff {root : SourceTree} {text : Line} {patch : List FilePatch} {originals : List (FilePatch × List Line)}
    (hparse : parse_patch text = .ok patch) (hread : read_all root patch = .ok originals) :
    Fits root text ↔ ((attempt originals).wins (attempt_reversed originals) = true → Agree root patch) := by
  constructor
  · intro h
    exact h patch originals hparse hread
  · intro h patch' originals' hparse' hread'
    obtain rfl : patch = patch' := Except.ok.inj (hparse.symm.trans hparse')
    obtain rfl : originals = originals' := Except.ok.inj (hread.symm.trans hread')
    exact h

theorem promise_conclude {root : SourceTree} {text : Line} {patch : List FilePatch}
    {originals : List (FilePatch × List Line)} (hparse : parse_patch text = .ok patch)
    (hread : read_all root patch = .ok originals) :
    Promise root text (conclude root (attempt originals) (attempt_reversed originals)) ↔
      ((attempt originals).wins (attempt_reversed originals) = true → Agree root patch) := by
  by_cases hwins : (attempt originals).wins (attempt_reversed originals) = true
  · obtain ⟨files, hfiles⟩ : ∃ files, (attempt originals).files = some files := by
      simp only [Attempt.wins, Bool.and_eq_true] at hwins
      exact Option.isSome_iff_exists.1 hwins.1.1
    have hwritten : (∃ patch, parse_patch text = .ok patch ∧ Framed root (write root files) patch) ↔ Agree root patch := by
      rw [← framed_write_iff hread hfiles, hparse]
      simp
    rw [conclude, if_pos hwins, hfiles, Option.getD_some]
    simp only [hwins, true_imp_iff]
    cases (attempt originals).exact <;> exact hwritten
  · refine iff_of_true ?_ fun h => absurd h hwins
    rw [conclude, if_neg hwins]
    split
    · rfl
    · split <;> rfl

/-- `x` holds the lines `a` and `b`. -/
def sampleTree : SourceTree := fun file => if file = [[120]] then some [97, 10, 98, 10] else none

/-- Each of its file patches changes one of the lines; both are placed on the text that was read. -/
def samplePatch : Line :=
  ofString "--- a/x\n+++ b/x\n@@ -1 +1 @@\n-a\n+A\n" ++
    ofString "--- a/./x\n+++ b/./x\n@@ -2 +2 @@\n-b\n+B\n"

/-- What its first file patch makes of the file. -/
def sampleFirst : Bool :=
  match parse_patch samplePatch with
  | .ok (item :: _) =>
    fileOf item.path = [[120]] &&
      apply_file (lines (decode [97, 10, 98, 10])) item = .ok ([ofString "A\n", ofString "b\n"], true)
  | _ => false

end SourcePatch
