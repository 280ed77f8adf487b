import DkcLinux.OverlayDiff
import DkcLinux.PatchPlacement

/-!
# What a generated overlay patch means

| theorem             | what                                                                                     |
|---------------------|------------------------------------------------------------------------------------------|
| `rows_mean`         | where every line ends in its newline, the patch reads back as the edit it was made from  |
| `diff_means_iff`    | so for every correct `difflib`, and only there, unless the text is the same              |
| `form_feed_merges`  | a form feed puts two lines of a hunk on one                                              |
-/

namespace OverlayPatches

open SourcePatch

/-! ## Lines that end in their newline -/

theorem isBreak_newline : isBreak newline = true := by decide

theorem isBreak_carriage : isBreak carriage = true := by decide

/-- A line that ends in its newline, or in a carriage return and its newline. -/
def Row (line : Line) : Prop :=
  ∃ body, (∀ c ∈ body, isBreak c = false) ∧ (line = body ++ [newline] ∨ line = body ++ [carriage, newline])

/-- All lines of a text end in a newline. -/
def Whole (text : Line) : Prop := ∀ line ∈ splitlines text, line.getLast? = some newline

instance (text : Line) : Decidable (Whole text) := inferInstanceAs (Decidable (∀ line ∈ _, _))

theorem splitlinesFrom_plain (w : Line) {c : CodePoint} (hc : isBreak c = false) (text : Line) :
    splitlinesFrom w (c :: text) = splitlinesFrom (w ++ [c]) text := by
  cases text with
  | nil => simp [splitlinesFrom]
  | cons d text =>
    have hcr : ¬(c = carriage ∧ d = newline) := by
      rintro ⟨rfl, -⟩
      rw [isBreak_carriage] at hc
      cases hc
    rw [splitlinesFrom, if_neg hcr, if_neg (by simp [hc])]

theorem splitlinesFrom_newline (w text : Line) :
    splitlinesFrom w (newline :: text) = (w ++ [newline]) :: splitlinesFrom [] text := by
  cases text with
  | nil => simp [splitlinesFrom]
  | cons d text =>
    have hcr : ¬(newline = carriage ∧ d = newline) := fun h => absurd h.1 (by decide)
    rw [splitlinesFrom, if_neg hcr, if_pos isBreak_newline]

theorem splitlinesFrom_crlf (w text : Line) :
    splitlinesFrom w (carriage :: newline :: text) = (w ++ [carriage, newline]) :: splitlinesFrom [] text := by
  rw [splitlinesFrom, if_pos ⟨rfl, rfl⟩]

theorem splitlinesFrom_body {body : Line} (hbody : ∀ c ∈ body, isBreak c = false) (w text : Line) :
    splitlinesFrom w (body ++ text) = splitlinesFrom (w ++ body) text := by
  induction body generalizing w with
  | nil => rw [List.nil_append, List.append_nil]
  | cons c body ih =>
    rw [List.cons_append, splitlinesFrom_plain w (hbody c List.mem_cons_self),
      ih (fun d hd => hbody d (List.mem_cons_of_mem c hd)), List.append_assoc, List.singleton_append]

theorem splitlines_rows : ∀ {rows : List Line}, (∀ row ∈ rows, Row row) → splitlines rows.flatten = rows
  | [], _ => rfl
  | row :: rows, h => by
    have ih := splitlines_rows fun row hmem => h row (List.mem_cons_of_mem _ hmem)
    obtain ⟨body, hbody, rfl | rfl⟩ := h row List.mem_cons_self
    · rw [List.flatten_cons, splitlines, List.append_assoc, splitlinesFrom_body hbody, List.nil_append,
        List.singleton_append, splitlinesFrom_newline]
      exact congrArg ((body ++ [newline]) :: ·) ih
    · rw [List.flatten_cons, splitlines, List.append_assoc, splitlinesFrom_body hbody, List.nil_append, List.cons_append,
        List.singleton_append, splitlinesFrom_crlf]
      exact congrArg ((body ++ [carriage, newline]) :: ·) ih

/-- What a line can be: text without a boundary, and at most one boundary at its end. -/
theorem mem_splitlinesFrom : ∀ {text w line : Line}, (∀ c ∈ w, isBreak c = false) → line ∈ splitlinesFrom w text →
    ∃ body, (∀ c ∈ body, isBreak c = false) ∧
      (line = body ∨ (∃ c, isBreak c = true ∧ line = body ++ [c]) ∨ line = body ++ [carriage, newline])
  | [], w, line, hw, hmem => by
    rw [splitlinesFrom] at hmem
    by_cases hnil : w = []
    · rw [if_pos hnil] at hmem
      exact absurd hmem List.not_mem_nil
    · rw [if_neg hnil, List.mem_singleton] at hmem
      exact ⟨w, hw, .inl hmem⟩
  | [c], w, line, hw, hmem => by
    rw [splitlinesFrom, List.mem_singleton] at hmem
    by_cases hc : isBreak c = true
    · exact ⟨w, hw, .inr (.inl ⟨c, hc, hmem⟩)⟩
    · refine ⟨w ++ [c], fun d hd => ?_, .inl hmem⟩
      rcases List.mem_append.1 hd with hd | hd
      · exact hw d hd
      · rw [List.mem_singleton.1 hd]
        exact eq_false_of_ne_true hc
  | c :: d :: text, w, line, hw, hmem => by
    have hnone : ∀ c ∈ ([] : Line), isBreak c = false := fun c hc => absurd hc List.not_mem_nil
    rw [splitlinesFrom] at hmem
    by_cases hcr : c = carriage ∧ d = newline
    · rw [if_pos hcr] at hmem
      rcases List.mem_cons.1 hmem with rfl | hmem
      · exact ⟨w, hw, .inr (.inr (by rw [hcr.1, hcr.2]))⟩
      · exact mem_splitlinesFrom hnone hmem
    · rw [if_neg hcr] at hmem
      by_cases hc : isBreak c = true
      · rw [if_pos hc] at hmem
        rcases List.mem_cons.1 hmem with rfl | hmem
        · exact ⟨w, hw, .inr (.inl ⟨c, hc, rfl⟩)⟩
        · exact mem_splitlinesFrom hnone hmem
      · rw [if_neg hc] at hmem
        refine mem_splitlinesFrom (fun e he => ?_) hmem
        rcases List.mem_append.1 he with he | he
        · exact hw e he
        · rw [List.mem_singleton.1 he]
          exact eq_false_of_ne_true hc

theorem newline_not_mem {body : Line} (hbody : ∀ c ∈ body, isBreak c = false) : newline ∉ body := by
  intro hmem
  have hno := hbody newline hmem
  rw [isBreak_newline] at hno
  cases hno

/-- A line ends in its newline, or has none. -/
theorem row_or_none {text line : Line} (hmem : line ∈ splitlines text) :
    (line.getLast? = some newline → Row line) ∧ (line.getLast? ≠ some newline → newline ∉ line) := by
  obtain ⟨body, hbody, hline⟩ := mem_splitlinesFrom (fun c hc => absurd hc List.not_mem_nil) hmem
  have hno := newline_not_mem hbody
  rcases hline with rfl | ⟨c, hc, rfl⟩ | rfl
  · exact ⟨fun hlast => absurd (List.mem_of_getLast? hlast) hno, fun _ => hno⟩
  · rw [List.getLast?_concat]
    constructor
    · intro hlast
      rw [Option.some.inj hlast]
      exact ⟨body, hbody, .inl rfl⟩
    · intro hlast hmem
      rcases List.mem_append.1 hmem with hmem | hmem
      · exact hno hmem
      · exact hlast (congrArg some (List.mem_singleton.1 hmem).symm)
  · have hlast : (body ++ [carriage, newline]).getLast? = some newline := by simp
    exact ⟨fun _ => ⟨body, hbody, .inr rfl⟩, fun h => absurd hlast h⟩

theorem flatten_splitlinesFrom : ∀ (text w : Line), (splitlinesFrom w text).flatten = w ++ text
  | [], w => by
    rw [splitlinesFrom, List.append_nil]
    by_cases hw : w = []
    · rw [if_pos hw, hw]
      rfl
    · rw [if_neg hw, List.flatten_singleton]
  | [c], w => by rw [splitlinesFrom, List.flatten_singleton]
  | c :: d :: text, w => by
    rw [splitlinesFrom]
    by_cases hcr : c = carriage ∧ d = newline
    · rw [if_pos hcr, List.flatten_cons, flatten_splitlinesFrom]
      simp
    · rw [if_neg hcr]
      by_cases hc : isBreak c = true
      · rw [if_pos hc, List.flatten_cons, flatten_splitlinesFrom]
        simp
      · rw [if_neg hc, flatten_splitlinesFrom]
        simp

theorem flatten_splitlines (text : Line) : (splitlines text).flatten = text := flatten_splitlinesFrom text []

theorem Whole.rows {text : Line} (h : Whole text) : ∀ line ∈ splitlines text, Row line :=
  fun line hmem => (row_or_none hmem).1 (h line hmem)

theorem Row.isLine {line : Line} (h : Row line) : IsLine line := by
  obtain ⟨body, hbody, rfl | rfl⟩ := h
  · exact ⟨body, newline_not_mem hbody, rfl⟩
  · refine ⟨body ++ [carriage], fun hmem => ?_, by simp⟩
    rcases List.mem_append.1 hmem with hmem | hmem
    · exact newline_not_mem hbody hmem
    · exact absurd (List.mem_singleton.1 hmem) (by decide)

/-- The readers that split on newlines only see the same lines. -/
theorem Whole.lines_eq {text : Line} (h : Whole text) : lines text = splitlines text := by
  have hflat := lines_flatten fun line hmem => (h.rows line hmem).isLine
  rwa [flatten_splitlines] at hflat

/-! ## What a patch means -/

/-- The hunks, placed in order, turn the lines `a` into `b`. -/
def Applies : List Hunk → List Line → List Line → Prop
  | [], a, b => a = b
  | hunk :: hunks, a, b => ∃ gap a' b', a = gap ++ (hunk.old ++ a') ∧ b = gap ++ (hunk.new ++ b') ∧ Applies hunks a' b'

/-- Removing and adding these lines in order, and keeping all others, turns `a` into `b`. -/
def LineEdit : List (List Line × List Line) → List Line → List Line → Prop
  | [], a, b => a = b
  | (old, new) :: edits, a, b => ∃ gap a' b', a = gap ++ (old ++ a') ∧ b = gap ++ (new ++ b') ∧ LineEdit edits a' b'

/-- A path as the series names it. -/
structure OverlayPath where
  text : Line
  no_break : ∀ c ∈ text, isBreak c = false
  no_tab : CodePoint.char '\t' ∉ text
  safe : parts text ≠ [] ∧ startswith text "/" = false ∧ ofString ".." ∉ parts text

/-- The patch text of an edit of one file, read on newlines, is a patch that makes the edit, and `change_groups`
reads the edit from it. -/
structure Means (d : Difflib) (path : OverlayPath) (before after : Line) : Prop where
  patch : unified_diff d path.text (some before) after = [] ∧ before = after ∨
    ∃ hunks, parse_patch (unified_diff d path.text (some before) after) = .ok [⟨path.text, hunks⟩] ∧
      Applies hunks (lines before) (lines after)
  groups : ∃ groups, change_groups d (unified_diff d path.text (some before) after) = .ok groups ∧
    LineEdit (groups.map fun group => (group.old, group.new)) (lines before) (lines after)

theorem LineEdit.gap {edits : List (List Line × List Line)} {a b : List Line} (h : LineEdit edits a b) (gap : List Line) :
    LineEdit edits (gap ++ a) (gap ++ b) := by
  cases edits with
  | nil => exact congrArg (gap ++ ·) h
  | cons edit edits =>
    obtain ⟨gap', a', b', rfl, rfl, h⟩ := h
    exact ⟨gap ++ gap', a', b', (List.append_assoc _ _ _).symm, (List.append_assoc _ _ _).symm, h⟩

theorem LineEdit.append {a' b' : List Line} {edits' : List (List Line × List Line)} (h' : LineEdit edits' a' b') :
    ∀ {edits : List (List Line × List Line)} {a b : List Line}, LineEdit edits a b →
      LineEdit (edits ++ edits') (a ++ a') (b ++ b')
  | [], a, _, h => by
    obtain rfl : a = _ := h
    exact h'.gap a
  | _ :: _, _, _, ⟨gap, a₁, b₁, ha, hb, h⟩ =>
    ⟨gap, a₁ ++ a', b₁ ++ b', by rw [ha]; simp, by rw [hb]; simp, LineEdit.append h' h⟩

/-- Opcodes are a line edit. -/
theorem lineEdit_opcodes {a b : List Line} : ∀ {ops : List Opcode} {i j : Nat}, Describes a b ops i j →
    LineEdit ((ops.filter fun op => op.tag ≠ .equal).map fun op => (a.slice op.i1 op.i2, b.slice op.j1 op.j2))
      (a.drop i) (b.drop j)
  | [], i, j, ⟨hi, hj⟩ => by rw [hi, hj, List.drop_length, List.drop_length]; rfl
  | op :: ops, i, j, ⟨⟨hi, hj⟩, ⟨hile, hjle⟩, ⟨ha, hb⟩, hequal, hrest⟩ => by
    have ih := lineEdit_opcodes hrest
    have hsplit {xs : List Line} {m n : Nat} (hmn : m ≤ n) : xs.drop m = xs.slice m n ++ xs.drop n := by
      have htake := List.take_append_drop n xs
      conv_lhs => rw [← htake]
      rw [List.slice, List.drop_append]
      by_cases hlen : n ≤ xs.length
      · rw [List.length_take, Nat.min_eq_left hlen, Nat.sub_eq_zero_of_le hmn, List.drop_zero]
      · rw [List.drop_of_length_le (Nat.le_of_not_le hlen), List.drop_nil]
    rw [hsplit hile, hsplit hjle]
    by_cases htag : op.tag = .equal
    · rw [List.filter_cons_of_neg (by simp [htag]), hequal htag]
      exact ih.gap _
    · rw [List.filter_cons_of_pos (by simp [htag]), List.map_cons, hi, hj]
      exact ⟨[], _, _, rfl, rfl, ih⟩

/-! ## Rows are read back -/

/-- All lines of the hunks end in their newline. -/
def RowHunks (hunks : List (List Line × List (Tag × Line))) : Prop := ∀ hunk ∈ hunks, ∀ line ∈ hunk.2, Row line.2

theorem digit_no_break {n : Nat} : ∀ c ∈ digits n, isBreak c = false := by
  intro c hc
  obtain ⟨d, hd, rfl⟩ := List.mem_map.1 hc
  have hdigit := Nat.isDigit_of_mem_toDigits (by decide) le_rfl hd
  simp only [Char.isDigit, Bool.and_eq_true, decide_eq_true_eq] at hdigit
  have hlo : 48 ≤ d.toNat := hdigit.1
  have hhi : d.toNat ≤ 57 := hdigit.2
  simp only [isBreak, Py.isLineBreak, Bool.or_eq_false_iff, Bool.and_eq_false_iff, decide_eq_false_iff_not,
    beq_eq_false_iff_ne]
  omega

theorem range_no_break (start length : Nat) : ∀ c ∈ format_range start length, isBreak c = false := by
  intro c hc
  rw [format_range] at hc
  split at hc
  · exact digit_no_break c hc
  · rcases List.mem_append.1 hc with hc | hc
    · exact digit_no_break c hc
    · rcases List.mem_cons.1 hc with rfl | hc
      · decide
      · exact digit_no_break c hc

theorem row_line {line : Tag × Line} (h : Row line.2) : Row (format_line line) := by
  have hmark : isBreak line.1.mark = false := by cases line.1 <;> decide
  have hcons {body : Line} (hbody : ∀ c ∈ body, isBreak c = false) : ∀ c ∈ line.1.mark :: body, isBreak c = false := by
    intro c hc
    rcases List.mem_cons.1 hc with rfl | hc
    · exact hmark
    · exact hbody c hc
  obtain ⟨body, hbody, hline | hline⟩ := h
  · exact ⟨_, hcons hbody, .inl (by rw [format_line, hline, List.cons_append])⟩
  · exact ⟨_, hcons hbody, .inr (by rw [format_line, hline, List.cons_append])⟩

theorem row_header (i m j n : Nat) : Row (ofString "@@ -" ++ format_range i m ++ ofString " +" ++ format_range j n ++
    ofString " @@" ++ [newline]) := by
  refine ⟨_, fun c hc => ?_, .inl rfl⟩
  simp only [List.mem_append] at hc
  have hmarks : ∀ p ∈ ["@@ -", " +", " @@"], ∀ c ∈ ofString p, isBreak c = false := by decide
  rcases hc with (((hc | hc) | hc) | hc) | hc
  · exact hmarks _ (by simp) c hc
  · exact range_no_break _ _ c hc
  · exact hmarks _ (by simp) c hc
  · exact range_no_break _ _ c hc
  · exact hmarks _ (by simp) c hc

theorem row_hunks : ∀ {hunks : List (List Line × List (Tag × Line))} {i j : Nat}, RowHunks hunks →
    ∀ row ∈ format_hunks i j hunks, Row row
  | [], _, _, _, row, hmem => absurd hmem List.not_mem_nil
  | (gap, lines) :: hunks, i, j, h, row, hmem => by
    rw [format_hunks] at hmem
    rcases List.mem_cons.1 hmem with rfl | hmem
    · exact row_header _ _ _ _
    · rcases List.mem_append.1 hmem with hmem | hmem
      · obtain ⟨line, hline, rfl⟩ := List.mem_map.1 hmem
        exact row_line (h (gap, lines) List.mem_cons_self line hline)
      · exact row_hunks (fun hunk hhunk => h hunk (List.mem_cons_of_mem _ hhunk)) row hmem

theorem range_eq (start length : Nat) :
    format_range start length = render_range true (if length = 0 then start else start + 1) length := by
  by_cases hone : length = 1
  · simp [format_range, render_range, hone]
  · simp [format_range, render_range, hone]

/-- The hunks as `parse_patch` reads them. -/
theorem written_hunks : ∀ {hunks : List (List Line × List (Tag × Line))} (i j : Nat), RowHunks hunks →
    (∀ hunk ∈ hunks, ∃ line ∈ hunk.2, line.1 ≠ .context) →
      ∃ written : List WrittenHunk, format_hunks i j hunks = written.flatMap render_hunk ∧
        written.map (·.hunk.lines) = hunks.map (·.2)
  | [], _, _, _, _ => ⟨[], rfl, rfl⟩
  | (gap, lines) :: hunks, i, j, h, hchanges => by
    have hwhole : ∀ line ∈ lines, IsLine line.2 := fun line hline => (h (gap, lines) List.mem_cons_self line hline).isLine
    let old := (Script.side .added lines).length
    let new := (Script.side .removed lines).length
    obtain ⟨written, hwritten, hlines⟩ := written_hunks (i + gap.length + old) (j + gap.length + new)
      (fun hunk hhunk => h hunk (List.mem_cons_of_mem _ hhunk)) fun hunk hhunk => hchanges hunk (List.mem_cons_of_mem _ hhunk)
    let style : HunkStyle := {
      old_start := if old = 0 then i + gap.length else i + gap.length + 1
      new_start := if new = 0 then j + gap.length else j + gap.length + 1
      short := true
      stripped := false
      heading := []
      heading_line := List.not_mem_nil }
    let item : WrittenHunk := ⟨style, ⟨lines, hchanges (gap, lines) List.mem_cons_self⟩, hwhole⟩
    refine ⟨item :: written, ?_, congrArg (lines :: ·) hlines⟩
    have hformat : lines.map format_line = lines.map (render_line false) := by
      refine List.map_congr_left fun line _ => ?_
      rw [render_line, Bool.false_and, if_neg Bool.false_ne_true]
      rfl
    rw [format_hunks, hwritten, range_eq, range_eq, List.flatMap_cons, render_hunk, render_header, List.append_nil]
    exact congrArg (_ :: ·) (congrArg (· ++ _) hformat)

/-- The hunks of a script apply to what it describes. -/
theorem applies_script {rest : List Line} : ∀ {written : List WrittenHunk} {hunks : List (List Line × List (Tag × Line))},
    written.map (·.hunk.lines) = hunks.map (·.2) →
      Applies (written.map (·.hunk)) (Script.before ⟨hunks, rest⟩) (Script.after ⟨hunks, rest⟩)
  | [], [], _ => rfl
  | item :: written, (gap, lines) :: hunks, h => by
    obtain ⟨hline, hrest⟩ := List.cons.inj h
    have hold : item.hunk.old = Script.side .added lines := congrArg (Script.side .added) hline
    have hnew : item.hunk.new = Script.side .removed lines := congrArg (Script.side .removed) hline
    refine ⟨gap, Script.before ⟨hunks, rest⟩, Script.after ⟨hunks, rest⟩, ?_, ?_, applies_script hrest⟩
    · simp only [Script.before, List.flatMap_cons, List.append_assoc, hold]
    · simp only [Script.after, List.flatMap_cons, List.append_assoc, hnew]

/-! ## The groups of rows -/

theorem hunk_sides_rows {header : Line} {rest : List Line} {m n : Nat} : ∀ {lines : List (Tag × Line)} {index : Nat}
    {old new : List Line}, old.length + (Script.side .added lines).length = m →
      new.length + (Script.side .removed lines).length = n →
        ∃ index', hunk_sides header m n (lines.map format_line ++ rest) index old new =
          .ok (old ++ Script.side .added lines, new ++ Script.side .removed lines, index', rest)
  | [], index, old, new, hold, hnew => by
    have hold : old.length = m := hold
    have hnew : new.length = n := hnew
    have hdone : ¬(decide (old.length < m) || decide (new.length < n)) = true := by simp [hold, hnew]
    refine ⟨index, ?_⟩
    have hnil (without : Tag) : Script.side without [] = [] := rfl
    rw [hnil, hnil, List.append_nil, List.append_nil]
    cases rest <;> exact if_neg hdone
  | (tag, text) :: lines, index, old, new, hold, hnew => by
    have hold' := hold
    have hnew' := hnew
    rw [Script.side, List.filter_cons] at hold' hnew'
    have hmore : (decide (old.length < m) || decide (new.length < n)) = true := by
      rw [Bool.or_eq_true, decide_eq_true_eq, decide_eq_true_eq]
      cases tag <;> simp at hold' hnew' <;> omega
    rw [List.map_cons, List.cons_append, hunk_sides, if_pos hmore]
    cases tag with
    | context =>
      obtain ⟨index', h⟩ : ∃ index', hunk_sides header m n (lines.map format_line ++ rest) (index + 1) (old ++ [text])
          (new ++ [text]) = .ok (old ++ [text] ++ Script.side .added lines, new ++ [text] ++ Script.side .removed lines, index', rest) :=
        hunk_sides_rows (by simp [Script.side] at hold' ⊢; omega) (by simp [Script.side] at hnew' ⊢; omega)
      exact ⟨index', by simpa [Script.side, format_line, Tag.mark] using h⟩
    | removed =>
      obtain ⟨index', h⟩ : ∃ index', hunk_sides header m n (lines.map format_line ++ rest) (index + 1) (old ++ [text]) new =
          .ok (old ++ [text] ++ Script.side .added lines, new ++ Script.side .removed lines, index', rest) :=
        hunk_sides_rows (by simp [Script.side] at hold' ⊢; omega) (by simp [Script.side] at hnew' ⊢; omega)
      exact ⟨index', by simpa [Script.side, format_line, Tag.mark] using h⟩
    | added =>
      obtain ⟨index', h⟩ : ∃ index', hunk_sides header m n (lines.map format_line ++ rest) (index + 1) old (new ++ [text]) =
          .ok (old ++ Script.side .added lines, new ++ [text] ++ Script.side .removed lines, index', rest) :=
        hunk_sides_rows (by simp [Script.side] at hold' ⊢; omega) (by simp [Script.side] at hnew' ⊢; omega)
      exact ⟨index', by simpa [Script.side, format_line, Tag.mark] using h⟩

theorem hunk_header_format (i m j n : Nat) : hunk_header (ofString "@@ -" ++ format_range i m ++ ofString " +" ++
    format_range j n ++ ofString " @@" ++ [newline]) = some (m, n) := by
  rw [range_eq, range_eq]
  exact hunk_header_ranges true _ m _ n [newline]

/-- The groups of all hunks are an edit of what the script describes. -/
theorem file_groups_rows {d : Difflib} (hd : d.Correct) {header : Line} {rest : List Line} :
    ∀ {hunks : List (List Line × List (Tag × Line))} {fuel i j index : Nat}, hunks.length ≤ fuel →
      ∃ groups index', file_groups d header fuel (format_hunks i j hunks) index = .ok (groups, index', []) ∧
        LineEdit (groups.map fun group => (group.old, group.new)) (Script.before ⟨hunks, rest⟩) (Script.after ⟨hunks, rest⟩)
  | [], fuel, i, j, index, _ => ⟨[], index, by cases fuel <;> rfl, rfl⟩
  | (gap, lines) :: hunks, fuel + 1, i, j, index, hfuel => by
    obtain ⟨index₁, hsides⟩ : ∃ index', hunk_sides header (Script.side .added lines).length (Script.side .removed lines).length
        (lines.map format_line ++ format_hunks (i + gap.length + (Script.side .added lines).length)
          (j + gap.length + (Script.side .removed lines).length) hunks) (index + 1) [] [] =
        .ok ([] ++ Script.side .added lines, [] ++ Script.side .removed lines, index', _) :=
      hunk_sides_rows (Nat.zero_add _) (Nat.zero_add _)
    obtain ⟨groups, index₂, hgroups, hedit⟩ : ∃ groups index', file_groups d header fuel
        (format_hunks (i + gap.length + (Script.side .added lines).length)
          (j + gap.length + (Script.side .removed lines).length) hunks) index₁ = .ok (groups, index', []) ∧
        LineEdit (groups.map fun group => (group.old, group.new)) (Script.before ⟨hunks, rest⟩) (Script.after ⟨hunks, rest⟩) :=
      file_groups_rows hd (Nat.le_of_succ_le_succ hfuel)
    refine ⟨hunk_groups d header (Script.side .added lines) (Script.side .removed lines) ++ groups, index₂, ?_, ?_⟩
    · rw [format_hunks, file_groups, hunk_header_format]
      simp only [hsides, List.nil_append, except_ok_bind, ne_eq, not_true_eq_false, if_false, hgroups]
    · have hown := lineEdit_opcodes (hd.opcodes (Script.side .added lines) (Script.side .removed lines))
      rw [List.drop_zero, List.drop_zero] at hown
      have hboth := (LineEdit.append hedit hown).gap gap
      rw [List.map_append, hunk_groups, List.map_map]
      simpa only [Script.before, Script.after, List.flatMap_cons, List.append_assoc, Function.comp_def] using hboth

theorem length_format : ∀ (hunks : List (List Line × List (Tag × Line))) (i j : Nat),
    hunks.length ≤ (format_hunks i j hunks).length
  | [], _, _ => Nat.le_refl _
  | (gap, lines) :: hunks, i, j => by
    have ih := length_format hunks (i + gap.length + (Script.side .added lines).length)
      (j + gap.length + (Script.side .removed lines).length)
    rw [format_hunks, List.length_cons, List.length_cons, List.length_append]
    omega

/-- The text of a diff with hunks. -/
theorem diff_text {d : Difflib} {path : Line} {before after : Line}
    {hunk : List Line × List (Tag × Line)} {hunks : List (List Line × List (Tag × Line))}
    (h : (d.script (splitlines before) (splitlines after)).hunks = hunk :: hunks) :
    unified_diff d path (some before) after = ((ofString "--- a/" ++ path ++ [newline]) ::
      (ofString "+++ b/" ++ path ++ [newline]) :: format_hunks 0 0 (hunk :: hunks)).flatten := by
  have hold : ofString "--- " ++ (ofString "a/" ++ path) = ofString "--- a/" ++ path := by rw [← List.append_assoc]; rfl
  have hnew : ofString "+++ " ++ (ofString "b/" ++ path) = ofString "+++ b/" ++ path := by rw [← List.append_assoc]; rfl
  rw [unified_diff, Option.elim_some, Option.elim_some, difflib_unified_diff, h, hold, hnew]

theorem row_path {path : OverlayPath} {header : String} (hheader : ∀ c ∈ ofString header, isBreak c = false) :
    Row (ofString header ++ path.text ++ [newline]) := by
  refine ⟨_, fun c hc => ?_, .inl rfl⟩
  rcases List.mem_append.1 hc with hc | hc
  · exact hheader c hc
  · exact path.no_break c hc

/-- **Where every line ends in its newline, the patch means the edit.** -/
theorem rows_mean {d : Difflib} (hd : d.Correct) (path : OverlayPath) {before after : Line} (hbefore : Whole before)
    (hafter : Whole after) : Means d path before after := by
  have hb := hd.before (splitlines before) (splitlines after)
  have ha := hd.after (splitlines before) (splitlines after)
  obtain ⟨rest, hscript⟩ : ∃ rest, d.script (splitlines before) (splitlines after) =
      ⟨(d.script (splitlines before) (splitlines after)).hunks, rest⟩ := ⟨_, rfl⟩
  cases hhunks : (d.script (splitlines before) (splitlines after)).hunks with
  | nil =>
    have hsame : before = after := by
      rw [hscript, hhunks] at hb ha
      have heq : splitlines before = splitlines after := hb.symm.trans ha
      rw [← flatten_splitlines before, heq, flatten_splitlines]
    have hempty : unified_diff d path.text (some before) after = [] := by
      rw [unified_diff, Option.elim_some, Option.elim_some, difflib_unified_diff, hhunks]
      rfl
    refine ⟨.inl ⟨hempty, hsame⟩, [], ?_, congrArg lines hsame⟩
    rw [hempty]
    rfl
  | cons hunk hunks =>
    rw [hscript, hhunks] at hb ha
    have hrows : RowHunks (hunk :: hunks) := by
      intro h hh line hline
      have hside (without : Tag) (hne : line.1 ≠ without) : line.2 ∈ Script.side without h.2 :=
        List.mem_map_of_mem (List.mem_filter.2 ⟨hline, decide_eq_true hne⟩)
      by_cases htag : line.1 = .added
      · have hmem := hside .removed (by rw [htag]; decide)
        refine hafter.rows _ (ha ▸ List.mem_append_left rest (List.mem_flatMap.2 ⟨h, hh, List.mem_append_right _ hmem⟩))
      · have hmem := hside .added htag
        exact hbefore.rows _ (hb ▸ List.mem_append_left rest (List.mem_flatMap.2 ⟨h, hh, List.mem_append_right _ hmem⟩))
    have hchanges : ∀ h ∈ hunk :: hunks, ∃ line ∈ h.2, line.1 ≠ .context := hhunks ▸ hd.changes _ _
    obtain ⟨written, hwritten, hlines⟩ := written_hunks 0 0 hrows hchanges
    have hne : written ≠ [] := by
      rintro rfl
      cases hlines
    let file : WrittenFile := {
      preamble := []
      path := path.text
      hunks := written
      preamble_line := fun line h => absurd h List.not_mem_nil
      path_line := ⟨newline_not_mem path.no_break, path.no_tab⟩
      path_safe := path.safe
      hunks_ne := hne }
    have htext : unified_diff d path.text (some before) after = render_files [file] := by
      rw [diff_text hhunks, hwritten, render_files, List.flatMap_singleton]
      rfl
    constructor
    · right
      refine ⟨written.map (·.hunk), ?_, ?_⟩
      · rw [htext]
        exact parse_patch_files (List.cons_ne_nil _ _) (by simp)
      · rw [hbefore.lines_eq, hafter.lines_eq, ← hb, ← ha]
        exact applies_script hlines
    · have hsplit : splitlines (unified_diff d path.text (some before) after) = (ofString "--- a/" ++ path.text ++ [newline]) ::
          (ofString "+++ b/" ++ path.text ++ [newline]) :: format_hunks 0 0 (hunk :: hunks) := by
        rw [diff_text hhunks]
        refine splitlines_rows fun row hmem => ?_
        rcases List.mem_cons.1 hmem with rfl | hmem
        · exact row_path (by decide)
        · rcases List.mem_cons.1 hmem with rfl | hmem
          · exact row_path (by decide)
          · exact row_hunks hrows row hmem
      let header := rstrip ((ofString "--- a/" ++ path.text ++ [newline]).drop 4) ++ .char ' ' ::
        rstrip ((ofString "+++ b/" ++ path.text ++ [newline]).drop 4)
      obtain ⟨groups, index, hgroups, hedit⟩ : ∃ groups index', file_groups d header (format_hunks 0 0 (hunk :: hunks)).length
          (format_hunks 0 0 (hunk :: hunks)) 2 = .ok (groups, index', []) ∧ LineEdit (groups.map fun group => (group.old, group.new))
            (Script.before ⟨hunk :: hunks, rest⟩) (Script.after ⟨hunk :: hunks, rest⟩) :=
        file_groups_rows hd (length_format (hunk :: hunks) 0 0)
      refine ⟨groups, ?_, ?_⟩
      · have hminus : startswith (ofString "--- a/" ++ path.text ++ [newline]) "--- " = true := rfl
        have hplus : startswith (ofString "+++ b/" ++ path.text ++ [newline]) "+++ " = true := rfl
        rw [change_groups, hsplit, List.length_cons, all_groups, hminus, hplus]
        simp only [Bool.and_self, if_true, Nat.zero_add]
        rw [hgroups]
        simp only [except_ok_bind]
        cases (List.length _ : Nat) <;> simp [all_groups]
      · rw [hbefore.lines_eq, hafter.lines_eq, ← hb, ← ha]
        exact hedit

/-! ## Lines that end elsewhere -/

/-- A diff that removes all lines and adds all new ones. -/
def rewrite_all : Difflib where
  script a b := if a = b then ⟨[], a⟩ else ⟨[([], a.map (Prod.mk .removed) ++ b.map (Prod.mk .added))], []⟩
  get_opcodes a b := [⟨.replace, 0, a.length, 0, b.length⟩]

theorem side_removed (without : Tag) (hne : Tag.removed ≠ without) (a : List Line) :
    Script.side without (a.map (Prod.mk .removed)) = a := by
  rw [Script.side, List.filter_eq_self.2, List.map_map]
  · exact List.map_id a
  · intro line hline
    obtain ⟨text, -, rfl⟩ := List.mem_map.1 hline
    exact decide_eq_true hne

theorem side_added (without : Tag) (hne : Tag.added ≠ without) (b : List Line) :
    Script.side without (b.map (Prod.mk .added)) = b := by
  rw [Script.side, List.filter_eq_self.2, List.map_map]
  · exact List.map_id b
  · intro line hline
    obtain ⟨text, -, rfl⟩ := List.mem_map.1 hline
    exact decide_eq_true hne

theorem side_self (tag : Tag) (a : List Line) : Script.side tag (a.map (Prod.mk tag)) = [] := by
  rw [Script.side, List.filter_eq_nil_iff.2, List.map_nil]
  intro line hline
  obtain ⟨text, -, rfl⟩ := List.mem_map.1 hline
  simp

theorem side_append (without : Tag) (x y : List (Tag × Line)) :
    Script.side without (x ++ y) = Script.side without x ++ Script.side without y := by
  rw [Script.side, List.filter_append, List.map_append]
  rfl

theorem rewrite_all_correct : rewrite_all.Correct where
  before a b := by
    by_cases h : a = b
    · simp [rewrite_all, h, Script.before]
    · simp [rewrite_all, h, Script.before, side_append, side_removed, side_self]
  after a b := by
    by_cases h : a = b
    · simp [rewrite_all, h, Script.after]
    · simp [rewrite_all, h, Script.after, side_append, side_added, side_self]
  changes a b hunk hmem := by
    by_cases h : a = b
    · simp [rewrite_all, h] at hmem
    · obtain rfl : hunk = ([], a.map (Prod.mk .removed) ++ b.map (Prod.mk .added)) := by simpa [rewrite_all, h] using hmem
      cases a with
      | cons line a => exact ⟨(.removed, line), by simp, by simp⟩
      | nil =>
        cases b with
        | nil => exact absurd rfl h
        | cons line b => exact ⟨(.added, line), by simp, by simp⟩
  same a := by simp [rewrite_all]
  opcodes a b := ⟨⟨rfl, rfl⟩, ⟨Nat.zero_le _, Nat.zero_le _⟩, ⟨Nat.le_refl _, Nat.le_refl _⟩, nofun, rfl, rfl⟩

/-- A line that begins with the mark of a changed line. -/
def Marked (line : Line) : Prop := line.head? = some (.char '-') ∨ line.head? = some (.char '+')

/-- Marked lines are read up to the counts, each with its newline. -/
theorem hunk_body_marked {path : Line} {m n : Nat} : ∀ {rest : List Line} {index old new : Nat}
    {body : List (Tag × Line)} {old' new' index' : Nat} {left : List Line}, (∀ line ∈ rest, Marked line) →
      hunk_body path m n rest index old new = .ok (body, old', new', index', left) →
        ∃ taken, rest = taken ++ left ∧ (∀ line ∈ taken, newline ∈ line) ∧ old' + new' = old + new + taken.length
  | [], _, old, new, _, _, _, _, _, _, h => by
    obtain ⟨-, h⟩ := except_check_eq_ok.1 h
    cases h
    exact ⟨[], rfl, fun line hmem => absurd hmem List.not_mem_nil, rfl⟩
  | line :: rest, index, old, new, _, _, _, _, _, hmarked, h => by
    have hline := hmarked line List.mem_cons_self
    unfold hunk_body at h
    split at h
    · split at h
      · cases h
      · rename_i tag text hread
        obtain ⟨⟨body, old', new', index', left⟩, hbody, h⟩ := except_bind_eq_ok.1 h
        cases h
        obtain ⟨taken, hrest, hnewline, hcount⟩ :=
          hunk_body_marked (fun l hl => hmarked l (List.mem_cons_of_mem _ hl)) hbody
        have hnot : line ≠ [newline] := by
          rintro rfl
          rcases hline with h | h <;> cases h
        rw [hunk_line, if_neg hnot] at hread
        have hlast : line.tail.getLast? = some newline := by
          by_contra hno
          rw [if_neg hno] at hread
          cases hread
        have htag : tag = .removed ∨ tag = .added := by
          rw [if_pos hlast] at hread
          rcases hline with h | h
          · rw [h] at hread
            cases hread
            exact .inl rfl
          · rw [h] at hread
            cases hread
            exact .inr rfl
        refine ⟨line :: taken, by rw [hrest]; rfl, fun l hl => ?_, ?_⟩
        · rcases List.mem_cons.1 hl with rfl | hl
          · exact List.mem_of_mem_tail (List.mem_of_getLast? hlast)
          · exact hnewline l hl
        · rw [hcount, List.length_cons]
          rcases htag with rfl | rfl <;> simp <;> omega
    · cases h
      exact ⟨[], rfl, fun line hmem => absurd hmem List.not_mem_nil, rfl⟩

theorem lines_row {row : Line} (h : IsLine row) (rest : Line) : lines (row ++ rest) = row :: lines rest := by
  obtain ⟨body, hbody, rfl⟩ := h
  rw [List.append_assoc, List.singleton_append, lines_line hbody]

theorem lines_none {s : Line} (hne : s ≠ []) (h : newline ∉ s) : lines s = [s] := by
  have hsplit : s.splitOn newline = [s] := List.splitOn_eq_singleton h
  simp [lines, hsplit, hne]

/-- A text of marked pieces has marked lines. -/
theorem lines_marked : ∀ {pieces : List Line}, (∀ piece ∈ pieces, Marked piece ∧ (IsLine piece ∨ newline ∉ piece)) →
    ∀ line ∈ lines pieces.flatten, Marked line
  | [], _, line, hmem => absurd hmem List.not_mem_nil
  | piece :: pieces, h, line, hmem => by
    have ih := lines_marked fun p hp => h p (List.mem_cons_of_mem _ hp)
    obtain ⟨hmarked, hpiece | hpiece⟩ := h piece List.mem_cons_self
    · obtain ⟨body, hbody, rfl⟩ := hpiece
      rw [List.flatten_cons, List.append_assoc, List.singleton_append, lines_line hbody] at hmem
      rcases List.mem_cons.1 hmem with rfl | hmem
      · exact hmarked
      · exact ih line hmem
    · obtain ⟨c, body, rfl⟩ : ∃ c body, piece = c :: body := by
        cases piece with
        | nil => rcases hmarked with h | h <;> cases h
        | cons c body => exact ⟨c, body, rfl⟩
      rw [List.flatten_cons] at hmem
      by_cases hrest : newline ∈ pieces.flatten
      · obtain ⟨x, y, hxy, hx⟩ := List.eq_append_cons_of_mem hrest
        have hnot : newline ∉ c :: body ++ x := fun hc => (List.mem_append.1 hc).elim hpiece hx
        have htext : c :: body ++ pieces.flatten = (c :: body ++ x) ++ newline :: y := by rw [hxy, List.append_assoc]
        rw [htext, lines_line hnot] at hmem
        rw [hxy, lines_line hx] at ih
        rcases List.mem_cons.1 hmem with rfl | hmem
        · exact hmarked
        · exact ih line (List.mem_cons_of_mem _ hmem)
      · have hnot : newline ∉ c :: body ++ pieces.flatten := fun hc => (List.mem_append.1 hc).elim hpiece hrest
        have hone : lines (c :: body ++ pieces.flatten) = [c :: body ++ pieces.flatten] :=
          lines_none (List.cons_ne_nil _ _) hnot
        rw [hone, List.mem_singleton] at hmem
        rw [hmem]
        exact hmarked

theorem count_read : ∀ {taken : List Line}, (∀ line ∈ taken, newline ∈ line) → taken.length ≤ taken.flatten.count newline
  | [], _ => Nat.le_refl _
  | line :: taken, h => by
    have ih := count_read fun l hl => h l (List.mem_cons_of_mem _ hl)
    have hpos := List.count_pos_iff.2 (h line List.mem_cons_self)
    rw [List.length_cons, List.flatten_cons, List.count_append]
    omega

theorem count_piece {piece : Line} (h : IsLine piece ∨ newline ∉ piece) : piece.count newline ≤ 1 := by
  rcases h with ⟨body, hbody, rfl⟩ | h
  · rw [List.count_append, List.count_eq_zero.2 hbody]
    simp
  · rw [List.count_eq_zero.2 h]
    exact Nat.zero_le 1

/-- As many newlines as pieces: each has its own. -/
theorem newline_pieces : ∀ {pieces : List Line}, (∀ piece ∈ pieces, IsLine piece ∨ newline ∉ piece) →
    pieces.flatten.count newline ≤ pieces.length ∧
      (pieces.length ≤ pieces.flatten.count newline → ∀ piece ∈ pieces, newline ∈ piece)
  | [], _ => ⟨Nat.le_refl _, fun _ piece hmem => absurd hmem List.not_mem_nil⟩
  | piece :: pieces, h => by
    obtain ⟨hle, hall⟩ := newline_pieces fun p hp => h p (List.mem_cons_of_mem _ hp)
    have hone := count_piece (h piece List.mem_cons_self)
    rw [List.flatten_cons, List.count_append, List.length_cons]
    refine ⟨by omega, fun hlen p hp => ?_⟩
    rcases List.mem_cons.1 hp with rfl | hp
    · exact List.count_pos_iff.1 (by omega)
    · exact hall (by omega) p hp

/-- A patch of one hunk is read only if the hunk is. -/
theorem parse_patch_one {l₁ l₂ l₃ text : Line} {rest : List Line} {files : List FilePatch} {m n : Nat}
    (hlines : lines text = l₁ :: l₂ :: l₃ :: rest) (hminus : startswith l₁ "--- " = true)
    (hplus : startswith l₂ "+++ " = true) (hheader : hunk_header l₃ = some (m, n)) (h : parse_patch text = .ok files) :
    ∃ path index body index' left, hunk_body path m n rest index 0 0 = .ok (body, m, n, index', left) := by
  obtain ⟨parsed, hparsed, -⟩ := except_bind_eq_ok.1 h
  rw [hlines, List.length_cons] at hparsed
  unfold parse_files at hparsed
  obtain ⟨-, hparsed⟩ := except_check_eq_ok.1 hparsed
  rw [if_pos hminus] at hparsed
  obtain ⟨⟨item, index, left⟩, hfile, -⟩ := except_bind_eq_ok.1 hparsed
  unfold parse_file at hfile
  simp only [hplus] at hfile
  obtain ⟨-, hfile⟩ := except_check_eq_ok.1 hfile
  obtain ⟨path, -, hfile⟩ := except_bind_eq_ok.1 hfile
  obtain ⟨path', -, hfile⟩ := except_bind_eq_ok.1 hfile
  obtain ⟨-, hfile⟩ := except_check_eq_ok.1 hfile
  obtain ⟨⟨hunks, index', left'⟩, hhunks, -⟩ := except_bind_eq_ok.1 hfile
  rw [List.length_cons, parse_hunks, hheader] at hhunks
  obtain ⟨⟨hunk, index'', left''⟩, hhunk, -⟩ := except_bind_eq_ok.1 hhunks
  unfold parse_hunk at hhunk
  obtain ⟨⟨body, old, new, i, lines⟩, hbody, hhunk⟩ := except_bind_eq_ok.1 hhunk
  obtain ⟨hcounts, -⟩ := except_check_eq_ok.1 hhunk
  obtain ⟨rfl, rfl⟩ := Prod.mk.inj (not_not.1 hcounts)
  exact ⟨path, _, body, i, lines, hbody⟩

/-- A diff of all lines is a patch only if each of them ends in its newline. -/
theorem whole_of_means {path : OverlayPath} {before after : Line} (h : Means rewrite_all path before after)
    (hne : before ≠ after) : Whole before ∧ Whole after := by
  have hdiffer : splitlines before ≠ splitlines after := by
    intro heq
    refine hne ?_
    rw [← flatten_splitlines before, heq, flatten_splitlines]
  have hscript : (rewrite_all.script (splitlines before) (splitlines after)).hunks =
      [([], (splitlines before).map (Prod.mk .removed) ++ (splitlines after).map (Prod.mk .added))] := by
    simp [rewrite_all, hdiffer]
  have hold : Script.side .added ((splitlines before).map (Prod.mk .removed) ++ (splitlines after).map (Prod.mk .added)) =
      splitlines before := by
    rw [side_append, side_removed _ (by decide), side_self, List.append_nil]
  have hnew : Script.side .removed ((splitlines before).map (Prod.mk .removed) ++ (splitlines after).map (Prod.mk .added)) =
      splitlines after := by
    rw [side_append, side_added _ (by decide), side_self, List.nil_append]
  obtain ⟨changed, hchanged⟩ : ∃ changed, changed = (splitlines before).map (Prod.mk Tag.removed) ++
      (splitlines after).map (Prod.mk .added) := ⟨_, rfl⟩
  rw [← hchanged] at hscript hold hnew
  have hlast : ∀ line ∈ changed, (IsLine (format_line line) ∨ newline ∉ format_line line) ∧
      Marked (format_line line) ∧ (newline ∈ format_line line → line.2.getLast? = some newline) := by
    intro line hline
    have hsource : ∃ text, line.2 ∈ splitlines text := by
      rw [hchanged] at hline
      rcases List.mem_append.1 hline with hline | hline
      · obtain ⟨l, hl, rfl⟩ := List.mem_map.1 hline
        exact ⟨before, hl⟩
      · obtain ⟨l, hl, rfl⟩ := List.mem_map.1 hline
        exact ⟨after, hl⟩
    have hmark : Marked (format_line line) := by
      rw [hchanged] at hline
      rcases List.mem_append.1 hline with hline | hline
      · obtain ⟨l, hl, rfl⟩ := List.mem_map.1 hline
        exact .inl rfl
      · obtain ⟨l, hl, rfl⟩ := List.mem_map.1 hline
        exact .inr rfl
    obtain ⟨text, hmem⟩ := hsource
    obtain ⟨hrow, hnone⟩ := row_or_none hmem
    by_cases hend : line.2.getLast? = some newline
    · exact ⟨.inl (row_line (hrow hend)).isLine, hmark, fun _ => hend⟩
    · have hno : newline ∉ format_line line := by
        intro hmem
        rcases List.mem_cons.1 hmem with hmem | hmem
        · rcases hmark with h | h <;> exact absurd (hmem.trans (Option.some.inj h)) (by decide)
        · exact hnone hend hmem
      exact ⟨.inr hno, hmark, fun hmem => absurd hmem hno⟩
  obtain ⟨pieces, hpieces⟩ : ∃ pieces, pieces = changed.map format_line := ⟨_, rfl⟩
  have hpiece : ∀ piece ∈ pieces, Marked piece ∧ (IsLine piece ∨ newline ∉ piece) := by
    intro piece hmem
    rw [hpieces] at hmem
    obtain ⟨line, hline, rfl⟩ := List.mem_map.1 hmem
    exact ⟨(hlast line hline).2.1, (hlast line hline).1⟩
  -- the hunk is read, so all its lines have their newline
  have hall : ∀ piece ∈ pieces, newline ∈ piece := by
    rcases h.patch with ⟨-, heq⟩ | ⟨hunks, hparse, -⟩
    · exact absurd heq hne
    · let header := ofString "@@ -" ++ format_range 0 (splitlines before).length ++ ofString " +" ++
        format_range 0 (splitlines after).length ++ ofString " @@" ++ [newline]
      have htext : unified_diff rewrite_all path.text (some before) after = (ofString "--- a/" ++ path.text ++ [newline]) ++
          ((ofString "+++ b/" ++ path.text ++ [newline]) ++ (header ++ pieces.flatten)) := by
        rw [diff_text hscript, hpieces]
        simp [format_hunks, hold, hnew, header]
      have hlines : lines (unified_diff rewrite_all path.text (some before) after) =
          (ofString "--- a/" ++ path.text ++ [newline]) :: (ofString "+++ b/" ++ path.text ++ [newline]) ::
            header :: lines pieces.flatten := by
        rw [htext, lines_row (row_path (by decide)).isLine, lines_row (row_path (by decide)).isLine,
          lines_row (row_header _ _ _ _).isLine]
      obtain ⟨name, index, body, index', left, hbody⟩ :=
        parse_patch_one hlines rfl rfl (hunk_header_format 0 _ 0 _) hparse
      obtain ⟨taken, htaken, hnewline, hcount⟩ := hunk_body_marked (lines_marked hpiece) hbody
      obtain ⟨hle, hown⟩ := newline_pieces fun piece hmem => (hpiece piece hmem).2
      have hsize : pieces.length = (splitlines before).length + (splitlines after).length := by
        rw [hpieces, hchanged, List.length_map, List.length_append, List.length_map, List.length_map]
      have hflat : taken.flatten ++ left.flatten = pieces.flatten := by
        rw [← List.flatten_append, ← htaken, flatten_lines]
      refine hown ?_
      have hread := count_read hnewline
      rw [← hflat, List.count_append]
      omega
  have hends : ∀ line ∈ changed, line.2.getLast? = some newline := by
    intro line hline
    refine (hlast line hline).2.2 (hall _ ?_)
    rw [hpieces]
    exact List.mem_map_of_mem hline
  constructor
  · intro line hline
    refine hends (.removed, line) ?_
    rw [hchanged]
    exact List.mem_append_left _ (List.mem_map_of_mem hline)
  · intro line hline
    refine hends (.added, line) ?_
    rw [hchanged]
    exact List.mem_append_right _ (List.mem_map_of_mem hline)

/-- For one text there is nothing to write. -/
theorem same_means {d : Difflib} (hd : d.Correct) (path : OverlayPath) (text : Line) : Means d path text text := by
  have hempty : unified_diff d path.text (some text) text = [] := by
    rw [unified_diff, Option.elim_some, Option.elim_some, difflib_unified_diff, hd.same]
    rfl
  refine ⟨.inl ⟨hempty, rfl⟩, [], ?_, rfl⟩
  rw [hempty]
  rfl

/-- **The generated patches mean the edit exactly where every line of both texts ends in its newline**, or there is
no edit. -/
theorem diff_means_iff (path : OverlayPath) (before after : Line) :
    (∀ d : Difflib, d.Correct → Means d path before after) ↔ before = after ∨ (Whole before ∧ Whole after) := by
  constructor
  · intro h
    by_cases heq : before = after
    · exact .inl heq
    · exact .inr (whole_of_means (h rewrite_all rewrite_all_correct) heq)
  · rintro (rfl | ⟨hbefore, hafter⟩) d hd
    · exact same_means hd path before
    · exact rows_mean hd path hbefore hafter

/-- The hunk lines of a diff that keeps the lines both sides begin with. -/
def changed_lines : List Line → List Line → List (Tag × Line)
  | x :: a, y :: b =>
    if x = y then (.context, x) :: changed_lines a b
    else (x :: a).map (Prod.mk .removed) ++ (y :: b).map (Prod.mk .added)
  | a, b => a.map (Prod.mk .removed) ++ b.map (Prod.mk .added)

def keep_start : Difflib where
  script a b := if a = b then ⟨[], a⟩ else ⟨[([], changed_lines a b)], []⟩
  get_opcodes := rewrite_all.get_opcodes

theorem changed_lines_sides : ∀ a b : List Line,
    (Script.side .added (changed_lines a b) = a ∧ Script.side .removed (changed_lines a b) = b) ∧
      (a ≠ b → ∃ line ∈ changed_lines a b, line.1 ≠ .context)
  | x :: a, y :: b => by
    obtain ⟨⟨hold, hnew⟩, hchange⟩ := changed_lines_sides a b
    rw [changed_lines]
    by_cases hxy : x = y
    · subst hxy
      rw [if_pos rfl]
      refine ⟨⟨congrArg (x :: ·) hold, congrArg (x :: ·) hnew⟩, fun hne => ?_⟩
      obtain ⟨line, hline, htag⟩ := hchange fun h => hne (congrArg (x :: ·) h)
      exact ⟨line, List.mem_cons_of_mem _ hline, htag⟩
    · rw [if_neg hxy]
      refine ⟨⟨?_, ?_⟩, fun _ => ⟨(.removed, x), by simp, by simp⟩⟩
      · rw [side_append, side_removed _ (by decide), side_self, List.append_nil]
      · rw [side_append, side_added _ (by decide), side_self, List.nil_append]
  | [], [] => ⟨⟨rfl, rfl⟩, fun hne => absurd rfl hne⟩
  | [], y :: b =>
    ⟨⟨side_self .added (y :: b), side_added .removed (by simp) (y :: b)⟩, fun _ => ⟨(.added, y), List.mem_cons_self, by simp⟩⟩
  | x :: a, [] => by
    rw [changed_lines, List.map_nil, List.append_nil]
    · exact ⟨⟨side_removed .added (by simp) (x :: a), side_self .removed (x :: a)⟩, fun _ => ⟨(.removed, x), by simp, by simp⟩⟩
    · simp

theorem keep_start_correct : keep_start.Correct where
  before a b := by
    by_cases h : a = b
    · simp [keep_start, h, Script.before]
    · simp [keep_start, h, Script.before, (changed_lines_sides a b).1.1]
  after a b := by
    by_cases h : a = b
    · simp [keep_start, h, Script.after]
    · simp [keep_start, h, Script.after, (changed_lines_sides a b).1.2]
  changes a b hunk hmem := by
    by_cases h : a = b
    · simp [keep_start, h] at hmem
    · obtain rfl : hunk = ([], changed_lines a b) := by simpa [keep_start, h] using hmem
      exact (changed_lines_sides a b).2 h
  same a := by simp [keep_start]
  opcodes := rewrite_all_correct.opcodes

/-- A form feed puts the line after it in the same line of the hunk, and the hunk is too short for its counts. -/
theorem form_feed_merges : ¬ ∀ (d : Difflib) (path : OverlayPath) (before after : Line), d.Correct →
    Means d path before after := by
  intro h
  let path : OverlayPath := {
    text := ofString "debian/control"
    no_break := by decide
    no_tab := by decide
    safe := by decide }
  let before := ofString "a\x0cb\n"
  let after := ofString "a\x0cc\n"
  have htext : unified_diff keep_start path.text (some before) after =
      ofString "--- a/debian/control\n+++ b/debian/control\n@@ -1,2 +1,2 @@\n a\x0c-b\n+c\n" := by decide +kernel
  rcases (h keep_start path before after keep_start_correct).patch with ⟨-, heq⟩ | ⟨hunks, hparse, -⟩
  · exact absurd heq (by decide)
  · rw [htext] at hparse
    have herror : parse_patch (ofString "--- a/debian/control\n+++ b/debian/control\n@@ -1,2 +1,2 @@\n a\x0c-b\n+c\n") =
        .error (.SourcePatchError "truncated hunk in debian/control") := by rfl
    rw [herror] at hparse
    cases hparse

end OverlayPatches
