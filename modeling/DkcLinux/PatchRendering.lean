import DkcLinux.Text.Calendar
import DkcLinux.SourcePatch

/-!
# Written patches read back (`dkc/sourcepatch.py:105-192`)

`render_files` writes a unified diff: preamble lines, the two headers of a file, and for each hunk its
range line with the true counts and its lines under their tags. `parse_patch` gives back what was written
(`parse_patch_render`). Inside a hunk only the counts decide what is read, so that a changed line may look
like a header.
-/

namespace SourcePatch

/-! ## Rendering -/

/-- A text that ends in its only newline. -/
def IsLine (line : Line) : Prop := ∃ body, newline ∉ body ∧ line = body ++ [newline]

theorem isLine_iff {line : Line} : IsLine line ↔ line.getLast? = some newline ∧ newline ∉ line.dropLast := by
  constructor
  · rintro ⟨body, hbody, rfl⟩
    rw [List.getLast?_concat, List.dropLast_concat]
    exact ⟨rfl, hbody⟩
  · rintro ⟨hlast, hbody⟩
    exact ⟨line.dropLast, hbody, (List.dropLast_append_getLast? newline hlast).symm⟩

instance (line : Line) : Decidable (IsLine line) := decidable_of_iff _ isLine_iff.symm

/-- What the reader of a patch looks for outside hunks. -/
def RESERVED : List String := UNSUPPORTED ++ ["--- ", "+++ ", "@@ ", "\\"]

/-- How a hunk is written: its start lines, whether a count of 1 is left out, whether blank context keeps its
space, and what follows the range. -/
structure HunkStyle where
  old_start : Nat
  new_start : Nat
  short : Bool
  stripped : Bool
  heading : Line
  heading_line : newline ∉ heading

/-- A hunk of whole lines and how it is written. -/
structure WrittenHunk where
  style : HunkStyle
  hunk : Hunk
  whole : ∀ line ∈ hunk.lines, IsLine line.2

/-- A file patch with a safe path, and what is written before it. -/
structure WrittenFile where
  preamble : List Line
  path : Line
  hunks : List WrittenHunk
  preamble_line : ∀ line ∈ preamble, IsLine line ∧ RESERVED.any (startswith line) = false
  path_line : newline ∉ path ∧ CodePoint.char '\t' ∉ path
  path_safe : parts path ≠ [] ∧ startswith path "/" = false ∧ ofString ".." ∉ parts path
  hunks_ne : hunks ≠ []

def WrittenFile.patch (file : WrittenFile) : FilePatch := ⟨file.path, file.hunks.map (·.hunk)⟩

def digits (n : Nat) : Line := (Nat.toDigits 10 n).map .char

def render_range (short : Bool) (start count : Nat) : Line :=
  digits start ++ if short && count = 1 then [] else .char ',' :: digits count

def render_header (style : HunkStyle) (hunk : Hunk) : Line :=
  ofString "@@ -" ++ render_range style.short style.old_start hunk.old.length ++ ofString " +" ++
    render_range style.short style.new_start hunk.new.length ++ ofString " @@" ++ style.heading ++ [newline]

def Tag.mark : Tag → CodePoint
  | .context => .char ' '
  | .removed => .char '-'
  | .added => .char '+'

def render_line (stripped : Bool) (line : Tag × Line) : Line :=
  if stripped && line = (.context, [newline]) then [newline] else line.1.mark :: line.2

def render_hunk (item : WrittenHunk) : List Line :=
  render_header item.style item.hunk :: item.hunk.lines.map (render_line item.style.stripped)

def render_file (file : WrittenFile) : List Line :=
  file.preamble ++ (ofString "--- a/" ++ file.path ++ [newline]) :: (ofString "+++ b/" ++ file.path ++ [newline]) ::
    file.hunks.flatMap render_hunk

def render_files (files : List WrittenFile) : Line := (files.flatMap render_file).flatten

/-! ## Lines -/

/-- A line is split off. -/
theorem lines_line {body : Line} (h : newline ∉ body) (rest : Line) :
    lines (body ++ newline :: rest) = (body ++ [newline]) :: lines rest := by
  have hsplit : (body ++ newline :: rest).splitOn newline = body :: rest.splitOn newline :=
    List.splitOn_append_cons_self_of_not_mem h rest
  obtain ⟨part, parts, hparts⟩ := List.exists_cons_of_ne_nil (List.splitOn_ne_nil newline rest)
  simp only [lines, hsplit, hparts, List.dropLast_cons_cons, List.map_cons, List.cons_append, List.getLast?_cons_cons]

/-- Whole lines are found again. -/
theorem lines_flatten : ∀ {ls : List Line}, (∀ line ∈ ls, IsLine line) → lines ls.flatten = ls
  | [], _ => rfl
  | line :: ls, h => by
    obtain ⟨body, hbody, rfl⟩ := h line List.mem_cons_self
    have ih := lines_flatten fun line hmem => h line (List.mem_cons_of_mem _ hmem)
    rw [List.flatten_cons, List.append_assoc, List.singleton_append, lines_line hbody, ih]

/-! ## The range line -/

theorem digit_digits {n : Nat} {p : CodePoint} (h : p ∈ digits n) : (digit p).isSome = true := by
  obtain ⟨c, hmem, rfl⟩ := List.mem_map.1 h
  have hdigit := Nat.isDigit_of_mem_toDigits (by decide) le_rfl hmem
  simp only [Char.isDigit, Bool.and_eq_true, decide_eq_true_eq] at hdigit
  rw [digit, Calendar.decimal_ascii hdigit.1 hdigit.2]
  rfl

/-- No digit follows. -/
def Ends (line : Line) : Prop := ∀ p ∈ line.head?, digit p = none

theorem number_digits (n : Nat) {line : Line} (h : Ends line) : number (digits n ++ line) = some (n, line) := by
  have htake : (digits n ++ line).takeWhile (fun p => (digit p).isSome) = digits n := by
    rw [List.takeWhile_append_of_pos fun p => digit_digits]
    cases line with
    | nil => rw [List.takeWhile_nil, List.append_nil]
    | cons p line => rw [List.takeWhile_cons_of_neg (by rw [h p rfl]; simp), List.append_nil]
  have hvalue : (digits n).foldl (fun n c => 10 * n + (digit c).getD 0) 0 = n := by
    conv_rhs => rw [← Nat.ofDigitChars_ten_toDigits (n := n), Nat.ofDigitChars_eq_foldl]
    rw [digits, List.foldl_map]
    refine List.foldl_ext _ _ _ fun a c hmem => ?_
    have hdigit := Nat.isDigit_of_mem_toDigits (by decide) le_rfl hmem
    simp only [Char.isDigit, Bool.and_eq_true, decide_eq_true_eq] at hdigit
    rw [digit, Calendar.decimal_ascii hdigit.1 hdigit.2]
    rfl
  unfold number
  rw [htake]
  cases hdigits : digits n with
  | nil => exact absurd (List.map_eq_nil_iff.1 hdigits) Nat.toDigits_ne_nil
  | cons p ps =>
    rw [hdigits] at hvalue
    simp only [hvalue, List.drop_left]

theorem ends_char {c : Char} {line : Line} (h : Py.decimal c = none) : Ends (.char c :: line) := by
  rintro p hp
  obtain rfl : CodePoint.char c = p := Option.some.inj hp
  exact h

theorem range_render (short : Bool) (start count : Nat) {line : Line} :
    range (render_range short start count ++ .char ' ' :: line) = some (count, .char ' ' :: line) := by
  have hspace : Ends (.char ' ' :: line) := ends_char (by decide +kernel)
  by_cases h : (short && decide (count = 1)) = true
  · have hone : count = 1 := of_decide_eq_true (Bool.and_eq_true_iff.1 h).2
    rw [render_range, if_pos h, List.append_nil, range, number_digits start hspace, hone]
    rfl
  · have hcomma : Ends (.char ',' :: (digits count ++ .char ' ' :: line)) := ends_char (by decide +kernel)
    rw [render_range, if_neg h, List.append_assoc, List.cons_append, range, number_digits start hcomma]
    exact number_digits count hspace

theorem after_append (p : String) (line : Line) : after p (ofString p ++ line) = some line := by
  have hlength : p.length = (ofString p).length := by rw [ofString, List.length_map, String.length_toList]
  rw [after, startswith, if_pos (List.isPrefixOf_iff_prefix.2 (List.prefix_append _ _)), hlength, List.drop_left]

/-- The counts are read back. -/
theorem hunk_header_ranges (short : Bool) (i m j n : Nat) (tail : Line) :
    hunk_header (ofString "@@ -" ++ render_range short i m ++ ofString " +" ++ render_range short j n ++
      ofString " @@" ++ tail) = some (m, n) := by
  have hold (line : Line) : ofString " +" ++ line = .char ' ' :: (ofString "+" ++ line) := rfl
  have hnew (line : Line) : ofString " @@" ++ line = .char ' ' :: (ofString "@@" ++ line) := rfl
  simp only [hunk_header, List.append_assoc]
  rw [after_append]
  simp only [Option.bind_eq_bind, Option.bind_some]
  rw [hold, range_render]
  simp only [Option.bind_some]
  rw [← hold, after_append]
  simp only [Option.bind_some]
  rw [hnew, range_render]
  simp only [Option.bind_some]
  rw [← hnew, after_append]
  rfl

theorem hunk_header_render (style : HunkStyle) (hunk : Hunk) :
    hunk_header (render_header style hunk) = some (hunk.old.length, hunk.new.length) := by
  have h := hunk_header_ranges style.short style.old_start hunk.old.length style.new_start hunk.new.length
    (style.heading ++ [newline])
  rwa [← List.append_assoc] at h

/-! ## Hunks -/

/-- A line is read back, whatever it looks like. -/
theorem hunk_line_render (stripped : Bool) {line : Tag × Line} (h : IsLine line.2) :
    hunk_line (render_line stripped line) = some line := by
  obtain ⟨tag, text⟩ := line
  obtain ⟨body, hbody, rfl⟩ := h
  by_cases hblank : (stripped && decide ((tag, body ++ [newline]) = (Tag.context, [newline]))) = true
  · have hline := of_decide_eq_true (Bool.and_eq_true_iff.1 hblank).2
    rw [render_line, if_pos hblank, hline]
    rfl
  · have hmark : tag.mark :: (body ++ [newline]) ≠ [newline] := by
      rw [ne_eq, List.cons.injEq, not_and]
      intro _
      simp
    have hlast : (body ++ [newline]).getLast? = some newline := List.getLast?_concat
    rw [render_line, if_neg hblank, hunk_line, if_neg hmark, List.tail_cons, if_pos hlast]
    cases tag <;> rfl

/-- The lines are read up to the counts. -/
theorem hunk_body_render {path : Line} {stripped : Bool} {rest : List Line} {old_count new_count : Nat} :
    ∀ {body : List (Tag × Line)} {index old new : Nat}, (∀ line ∈ body, IsLine line.2) →
      old + (body.filter fun line => line.1 ≠ .added).length = old_count →
      new + (body.filter fun line => line.1 ≠ .removed).length = new_count →
        hunk_body path old_count new_count (body.map (render_line stripped) ++ rest) index old new =
          .ok (body, old_count, new_count, index + body.length, rest)
  | [], index, old, new, _, hold, hnew => by
    obtain rfl : old = old_count := hold
    obtain rfl : new = new_count := hnew
    have hdone : ¬(decide (old < old) || decide (new < new)) = true := by simp
    cases rest <;> exact if_neg hdone
  | (tag, text) :: body, index, old, new, h, hold, hnew => by
    have hwhole : IsLine (tag, text).2 := h _ List.mem_cons_self
    have hbody : ∀ line ∈ body, IsLine line.2 := fun line hmem => h line (List.mem_cons_of_mem _ hmem)
    have hold' : (if tag ≠ .added then old + 1 else old) + (body.filter fun line => line.1 ≠ .added).length = old_count := by
      rw [List.filter_cons] at hold
      cases tag <;> simp at hold ⊢ <;> omega
    have hnew' : (if tag ≠ .removed then new + 1 else new) + (body.filter fun line => line.1 ≠ .removed).length =
        new_count := by
      rw [List.filter_cons] at hnew
      cases tag <;> simp at hnew ⊢ <;> omega
    -- a line counts on one side at least
    have hmore : (decide (old < old_count) || decide (new < new_count)) = true := by
      rw [Bool.or_eq_true, decide_eq_true_eq, decide_eq_true_eq]
      cases tag <;> simp at hold' hnew' <;> omega
    rw [List.map_cons, List.cons_append, hunk_body, if_pos hmore, hunk_line_render stripped hwhole]
    simp only
    rw [hunk_body_render hbody hold' hnew', except_ok_bind, List.length_cons, Nat.add_right_comm index 1, Nat.add_assoc]

/-- What follows a hunk does not belong to it. -/
def Apart (rest : List Line) : Prop := ∀ line ∈ rest.head?, startswith line "\\" = false ∧ hunk_header line = none

theorem parse_hunk_render {path : Line} (item : WrittenHunk) {rest : List Line} (index : Nat)
    (hrest : rest.head?.any (startswith · "\\") = false) :
    parse_hunk path (item.hunk.old.length, item.hunk.new.length)
        (item.hunk.lines.map (render_line item.style.stripped) ++ rest) index =
      .ok (item.hunk, index + item.hunk.lines.length, rest) := by
  have hold : 0 + (item.hunk.lines.filter fun line => line.1 ≠ .added).length = item.hunk.old.length := by
    rw [Nat.zero_add, Hunk.old, List.length_map]
  have hnew : 0 + (item.hunk.lines.filter fun line => line.1 ≠ .removed).length = item.hunk.new.length := by
    rw [Nat.zero_add, Hunk.new, List.length_map]
  rw [parse_hunk, hunk_body_render item.whole hold hnew, except_ok_bind]
  simp only [ne_eq, not_true_eq_false, if_false]
  rw [if_neg (by simp [hrest]), dif_pos item.hunk.changes]

theorem render_header_start (style : HunkStyle) (hunk : Hunk) :
    ∃ line, render_header style hunk = ofString "@@ -" ++ line := by
  simp only [render_header, List.append_assoc]
  exact ⟨_, rfl⟩

theorem apart_hunks {hunks : List WrittenHunk} {rest : List Line} (h : Apart rest) :
    (hunks.flatMap render_hunk ++ rest).head?.any (startswith · "\\") = false := by
  cases hunks with
  | nil =>
    cases rest with
    | nil => rfl
    | cons line rest => exact (h line rfl).1
  | cons item hunks =>
    obtain ⟨line, hline⟩ := render_header_start item.style item.hunk
    rw [List.flatMap_cons, render_hunk, hline]
    rfl

theorem parse_hunks_render {path : Line} {rest : List Line} (h : Apart rest) :
    ∀ {hunks : List WrittenHunk} {n index : Nat}, hunks.length ≤ n →
      ∃ index', parse_hunks path n (hunks.flatMap render_hunk ++ rest) index =
        .ok (hunks.map (·.hunk), index', rest)
  | [], n, index, _ => by
    refine ⟨index, ?_⟩
    rw [List.flatMap_nil, List.nil_append]
    cases n with
    | zero => rfl
    | succ n =>
      cases rest with
      | nil => rfl
      | cons line rest => rw [parse_hunks, (h line rfl).2]; rfl
  | item :: hunks, n + 1, index, hn => by
    obtain ⟨index', hrest⟩ : ∃ index', parse_hunks path n (hunks.flatMap render_hunk ++ rest)
        (index + 1 + item.hunk.lines.length) = .ok (hunks.map (·.hunk), index', rest) :=
      parse_hunks_render h (Nat.le_of_succ_le_succ hn)
    refine ⟨index', ?_⟩
    rw [List.flatMap_cons, render_hunk, List.cons_append, List.cons_append, List.append_assoc, parse_hunks,
      hunk_header_render]
    simp only
    rw [parse_hunk_render item (index + 1) (apart_hunks h), except_ok_bind]
    simp only
    rw [hrest]
    rfl

/-! ## Files -/

theorem patch_path_render (file : WrittenFile) {header : Line} {pre : String} (hpre : pre = "a/" ∨ pre = "b/")
    (hheader : header.drop 4 = ofString pre ++ file.path ++ [newline]) : patch_path header pre = .ok file.path := by
  have hplain : ∀ p ∈ ofString pre ++ file.path, (decide (p ≠ newline) && decide (p ≠ .char '\t')) = true := by
    have hmarks : ∀ p ∈ ofString pre, (decide (p ≠ newline) && decide (p ≠ .char '\t')) = true := by
      rcases hpre with rfl | rfl <;> decide
    intro p hmem
    rcases List.mem_append.1 hmem with hmem | hmem
    · exact hmarks p hmem
    · have hne : p ≠ newline := fun heq => file.path_line.1 (heq ▸ hmem)
      have htab : p ≠ .char '\t' := fun heq => file.path_line.2 (heq ▸ hmem)
      rw [decide_eq_true hne, decide_eq_true htab]
      rfl
  have hname : (header.drop 4).takeWhile (fun c => c ≠ newline && c ≠ .char '\t') = ofString pre ++ file.path := by
    rw [hheader, List.takeWhile_append_of_pos hplain, List.takeWhile_cons_of_neg (by simp), List.append_nil]
  have hdev : ofString pre ++ file.path ≠ ofString "/dev/null" := by
    intro heq
    have hhead := congrArg List.head? heq
    rcases hpre with rfl | rfl <;> exact absurd hhead (by rintro ⟨⟩)
  have hstart : startswith (ofString pre ++ file.path) pre = true :=
    List.isPrefixOf_iff_prefix.2 (List.prefix_append _ _)
  have hdrop : (ofString pre ++ file.path).drop pre.length = file.path := by
    rw [← String.length_toList, ← List.length_map (f := CodePoint.char)]
    exact List.drop_left
  obtain ⟨hparts, hroot, hup⟩ := file.path_safe
  simp only [patch_path, hname, hdrop]
  rw [if_neg hdev, if_neg (by simp [hstart]), if_neg (by simp [hparts, hroot, hup])]

theorem length_hunks (hunks : List WrittenHunk) : hunks.length ≤ (hunks.flatMap render_hunk).length := by
  induction hunks with
  | nil => exact Nat.le_refl _
  | cons item hunks ih =>
    rw [List.flatMap_cons, List.length_append, List.length_cons, render_hunk, List.length_cons]
    omega

theorem parse_file_render (file : WrittenFile) {rest : List Line} (h : Apart rest) (index : Nat) :
    ∃ index', parse_file (ofString "--- a/" ++ file.path ++ [newline])
        ((ofString "+++ b/" ++ file.path ++ [newline]) :: (file.hunks.flatMap render_hunk ++ rest)) index =
      .ok (file.patch, index', rest) := by
  have hold : patch_path (ofString "--- a/" ++ file.path ++ [newline]) "a/" = .ok file.path :=
    patch_path_render file (.inl rfl) rfl
  have hnew : patch_path (ofString "+++ b/" ++ file.path ++ [newline]) "b/" = .ok file.path :=
    patch_path_render file (.inr rfl) rfl
  have henough : file.hunks.length ≤ (file.hunks.flatMap render_hunk ++ rest).length := by
    rw [List.length_append]
    exact (length_hunks file.hunks).trans (Nat.le_add_right _ _)
  obtain ⟨index', hhunks⟩ : ∃ index', parse_hunks file.path _ (file.hunks.flatMap render_hunk ++ rest) (index + 2) =
      .ok (file.hunks.map (·.hunk), index', rest) := parse_hunks_render h henough
  have hstart : startswith (ofString "+++ b/" ++ file.path ++ [newline]) "+++ " = true := rfl
  have hne : (file.hunks.map (·.hunk)).isEmpty = false := by
    rw [List.isEmpty_eq_false_iff, ne_eq, List.map_eq_nil_iff]
    exact file.hunks_ne
  refine ⟨index', ?_⟩
  rw [parse_file, hstart, hold, hnew]
  simp only [Bool.not_true, except_ok_bind, ne_eq, not_true_eq_false, if_false, Bool.false_eq_true]
  rw [hhunks]
  simp only [except_ok_bind, hne, Bool.false_eq_true, if_false]
  rfl

theorem not_reserved {line : Line} (h : RESERVED.any (startswith line) = false) :
    UNSUPPORTED.any (startswith line) = false ∧ startswith line "--- " = false ∧
      ["+++ ", "@@ ", "\\"].any (startswith line) = false := by
  rw [RESERVED, List.any_append, Bool.or_eq_false_iff] at h
  obtain ⟨hunsupported, h⟩ := h
  rw [List.any_cons, Bool.or_eq_false_iff] at h
  exact ⟨hunsupported, h⟩

theorem apart_line {line : Line} (h : RESERVED.any (startswith line) = false) :
    startswith line "\\" = false ∧ hunk_header line = none := by
  obtain ⟨-, -, h⟩ := not_reserved h
  simp only [List.any_cons, List.any_nil, Bool.or_eq_false_iff] at h
  refine ⟨h.2.2.1, ?_⟩
  have hrange : startswith line "@@ -" = false := by
    rw [Bool.eq_false_iff]
    intro hstart
    have hpre : ofString "@@ " <+: line :=
      (List.prefix_append (ofString "@@ ") (ofString "-")).trans (List.isPrefixOf_iff_prefix.1 hstart)
    have hat : startswith line "@@ " = true := List.isPrefixOf_iff_prefix.2 hpre
    rw [hat] at h
    exact Bool.noConfusion h.2.1
  rw [hunk_header, after, hrange]
  rfl

theorem apart_files : ∀ files : List WrittenFile, Apart (files.flatMap render_file)
  | [] => fun line h => nomatch h
  | file :: files => by
    intro line hline
    rw [List.flatMap_cons, render_file] at hline
    cases hpre : file.preamble with
    | nil =>
      rw [hpre] at hline
      obtain rfl := Option.some.inj hline
      exact ⟨rfl, rfl⟩
    | cons first preamble =>
      rw [hpre] at hline
      obtain rfl := Option.some.inj hline
      exact apart_line (file.preamble_line first (by rw [hpre]; exact List.mem_cons_self)).2

theorem preamble_skipped {rest : List Line} {n : Nat} : ∀ {preamble : List Line} {index : Nat},
    (∀ line ∈ preamble, RESERVED.any (startswith line) = false) →
      ∃ index', parse_files (preamble.length + n) (preamble ++ rest) index = parse_files n rest index'
  | [], index, _ => ⟨index, by rw [List.length_nil, Nat.zero_add, List.nil_append]⟩
  | line :: preamble, index, h => by
    obtain ⟨hunsupported, hfile, houtside⟩ := not_reserved (h line List.mem_cons_self)
    obtain ⟨index', hskip⟩ : ∃ index', parse_files (preamble.length + n) (preamble ++ rest) (index + 1) =
        parse_files n rest index' := preamble_skipped fun line hmem => h line (List.mem_cons_of_mem _ hmem)
    refine ⟨index', ?_⟩
    rw [List.length_cons, Nat.add_right_comm, List.cons_append, parse_files, hunsupported, hfile, houtside]
    exact hskip

theorem parse_files_render : ∀ {files : List WrittenFile} {n index : Nat},
    (files.flatMap render_file).length ≤ n →
      parse_files n (files.flatMap render_file) index = .ok (files.map WrittenFile.patch)
  | [], n, index, _ => by cases n <;> rfl
  | file :: files, n, index, hn => by
    have hpreamble : ∀ line ∈ file.preamble, RESERVED.any (startswith line) = false :=
      fun line hmem => (file.preamble_line line hmem).2
    rw [List.flatMap_cons, render_file, List.append_assoc, List.cons_append, List.cons_append] at hn ⊢
    -- as many rounds as lines
    rw [parse_files_enough hn (Nat.le_refl _), List.length_append]
    obtain ⟨index', hskip⟩ : ∃ index', parse_files (file.preamble.length + _) (file.preamble ++ _) index =
        parse_files _ _ index' := preamble_skipped hpreamble
    obtain ⟨index'', hfile⟩ := parse_file_render file (apart_files files) index'
    have hsupported : UNSUPPORTED.any (startswith (ofString "--- a/" ++ file.path ++ [newline])) = false := rfl
    have hstart : startswith (ofString "--- a/" ++ file.path ++ [newline]) "--- " = true := rfl
    rw [hskip, List.length_cons, parse_files, hsupported, if_neg Bool.false_ne_true, if_pos hstart, hfile, except_ok_bind]
    simp only
    rw [parse_files_render]
    · rfl
    · rw [List.length_cons, List.length_append]
      omega

theorem isLine_snoc {body : Line} (h : newline ∉ body) : IsLine (body ++ [newline]) := ⟨body, h, rfl⟩

theorem isLine_render {line : Tag × Line} (stripped : Bool) (h : IsLine line.2) : IsLine (render_line stripped line) := by
  obtain ⟨tag, text⟩ := line
  obtain ⟨body, hbody, rfl⟩ := h
  rw [render_line]
  split
  · exact isLine_snoc (List.not_mem_nil)
  · have hmark : newline ∉ tag.mark :: body := by
      rw [List.mem_cons, not_or]
      exact ⟨by cases tag <;> decide, hbody⟩
    exact isLine_snoc hmark

theorem newline_not_mem_digits (n : Nat) : newline ∉ digits n := by
  intro h
  have hdigit : (digit newline).isSome = true := digit_digits h
  revert hdigit
  decide +kernel

theorem newline_not_mem_range (short : Bool) (start count : Nat) : newline ∉ render_range short start count := by
  rw [render_range, List.mem_append, not_or]
  refine ⟨newline_not_mem_digits start, ?_⟩
  split
  · exact List.not_mem_nil
  · rw [List.mem_cons, not_or]
    exact ⟨by decide, newline_not_mem_digits count⟩

theorem isLine_header (style : HunkStyle) (hunk : Hunk) : IsLine (render_header style hunk) := by
  refine isLine_snoc ?_
  simp only [List.mem_append, not_or]
  exact ⟨⟨⟨⟨⟨by decide, newline_not_mem_range _ _ _⟩, by decide⟩, newline_not_mem_range _ _ _⟩, by decide⟩,
    style.heading_line⟩

theorem isLine_files (files : List WrittenFile) : ∀ line ∈ files.flatMap render_file, IsLine line := by
  intro line hmem
  obtain ⟨file, -, hmem⟩ := List.mem_flatMap.1 hmem
  have hpath {header : String} (hheader : newline ∉ ofString header) :
      IsLine (ofString header ++ file.path ++ [newline]) := by
    refine isLine_snoc ?_
    rw [List.mem_append, not_or]
    exact ⟨hheader, file.path_line.1⟩
  simp only [render_file, List.mem_append, List.mem_cons] at hmem
  rcases hmem with hmem | rfl | rfl | hmem
  · exact (file.preamble_line line hmem).1
  · exact hpath (by decide)
  · exact hpath (by decide)
  · obtain ⟨item, -, hmem⟩ := List.mem_flatMap.1 hmem
    rcases List.mem_cons.1 hmem with rfl | hmem
    · exact isLine_header item.style item.hunk
    · obtain ⟨changed, hchanged, rfl⟩ := List.mem_map.1 hmem
      exact isLine_render _ (item.whole changed hchanged)

/-- All files are read if no path is named twice. -/
theorem parse_patch_files {files : List WrittenFile} (hne : files ≠ []) (hdistinct : (files.map (·.path)).Nodup) :
    parse_patch (render_files files) = .ok (files.map WrittenFile.patch) := by
  have hpaths : (files.map WrittenFile.patch).map (·.path) = files.map (·.path) := List.map_map
  have hsome : (files.map WrittenFile.patch).isEmpty = false := by
    rw [List.isEmpty_eq_false_iff, ne_eq, List.map_eq_nil_iff]
    exact hne
  rw [parse_patch, render_files, lines_flatten (isLine_files files), parse_files_render (Nat.le_refl _), except_ok_bind,
    hsome, if_neg Bool.false_ne_true, hpaths, if_neg (not_not.2 hdistinct)]

/-- **What is written is read back.** -/
theorem parse_patch_render (files : List WrittenFile) (hne : files ≠ []) (hdistinct : (files.map (·.path)).Nodup) :
    parse_patch (render_files files) = .ok (files.map WrittenFile.patch) := parse_patch_files hne hdistinct

/-- Blank context without its space, and changed lines that look like headers. -/
def sampleHunk : WrittenHunk where
  style := ⟨7, 9, true, true, ofString " main", by decide⟩
  hunk := ⟨[(.context, ofString "\n"), (.removed, ofString "-- a/x\n"), (.added, ofString "++ b/x\n"),
    (.added, ofString "@@ -1 +1 @@\n")], by decide⟩
  whole := by decide

def sampleFiles : List WrittenFile :=
  [{ preamble := [ofString "diff --git a/x b/x\n", ofString "---\n"]
     path := ofString "x"
     hunks := [sampleHunk, sampleHunk]
     preamble_line := by decide
     path_line := by decide
     path_safe := by decide
     hunks_ne := by decide },
   { preamble := []
     path := ofString "y z"
     hunks := [sampleHunk]
     preamble_line := by decide
     path_line := by decide
     path_safe := by decide
     hunks_ne := by decide }]

theorem parse_patch_render_sample : sampleFiles ≠ [] ∧ (sampleFiles.map (·.path)).Nodup ∧
    parse_patch (render_files sampleFiles) = .ok (sampleFiles.map WrittenFile.patch) :=
  ⟨List.cons_ne_nil _ _, by decide, parse_patch_render sampleFiles (List.cons_ne_nil _ _) (by decide)⟩

end SourcePatch
