import Mathlib.Data.List.TakeWhile
import DkcLinux.StorageOutput

/-!
# Workflow commands in the released output (`dkc/storage_output.py:86-102`)

The runner splits its input at newlines and ignores the white space that a line starts with. The redactor rewrites
`::` only where a line starts with it.

| theorem              | what                                                                           |
|----------------------|--------------------------------------------------------------------------------|
| `no_command_iff`     | exactly when no line is a command: none is indented once the values are gone    |
| `no_command_of_text` | values that are not just deleted make no indented line                          |
| `return_indents`     | a carriage return before `::` becomes a blank, and the command stays            |
-/

namespace StorageOutput.StorageRedactor

open Py

/-! ## Lines -/

abbrev lines (text : Text) : List Text := text.splitOn '\n'

/-- What the runner takes for a command. -/
def is_command (line : Text) : Bool := ("::".toList).isPrefixOf (line.dropWhile isSpace)

/-- White space within a line that the passes leave or make. -/
def is_blank (c : Char) : Bool := c = '\r' || c = '\t' || (isSpace c && !isControl c)

/-- White space, then `::`. -/
def indented (line : Text) : Bool := line.head?.any is_blank && ("::".toList).isPrefixOf (line.dropWhile is_blank)

/-- The text without its values. -/
def replaced (r : StorageRedactor) (text : Text) : Text := List.replaceEach r.markers r.replacement text

@[simp] theorem lines_single {text : Text} (h : '\n' ∉ text) : lines text = [text] := List.splitOn_eq_singleton h

@[simp] theorem lines_more {line : Text} (h : '\n' ∉ line) (rest : Text) : lines (line ++ '\n' :: rest) = line :: lines rest :=
  List.splitOn_append_cons_self_of_not_mem h rest

/-- Line by line. -/
theorem lines_induction {P : Text → Prop} (last : ∀ line, '\n' ∉ line → P line)
    (more : ∀ line rest, '\n' ∉ line → P rest → P (line ++ '\n' :: rest)) (text : Text) : P text := by
  by_cases h : '\n' ∈ text
  · obtain ⟨line, rest, hline, htext⟩ := partition_mem h
    have hlt : rest.length < text.length := by
      rw [htext, List.length_append, List.length_cons]
      omega
    rw [htext]
    exact more line rest hline (lines_induction last more rest)
  · exact last text h
termination_by text.length

theorem newline_not_mem {text : Text} : ∀ line ∈ lines text, '\n' ∉ line := by
  refine lines_induction (P := fun text => ∀ line ∈ lines text, '\n' ∉ line) (fun line hline => ?_)
    (fun line rest hline ih => ?_) text
  · rw [lines_single hline]
    exact List.forall_mem_singleton.2 hline
  · rw [lines_more hline]
    exact List.forall_mem_cons.2 ⟨hline, ih⟩

theorem lines_map {f : Char → Char} (hf : ∀ c, f c = '\n' ↔ c = '\n') (text : Text) :
    lines (text.map f) = (lines text).map (List.map f) := by
  have hnot : ∀ {line : Text}, '\n' ∉ line → '\n' ∉ line.map f := by
    intro line hline hmem
    obtain ⟨c, hc, hfc⟩ := List.mem_map.1 hmem
    exact hline ((hf c).1 hfc ▸ hc)
  induction text using lines_induction with
  | last line hline => rw [lines_single hline, lines_single (hnot hline), List.map_singleton]
  | more line rest hline ih =>
    rw [lines_more hline, List.map_append, List.map_cons, (hf '\n').2 rfl, lines_more (hnot hline), ih, List.map_cons]

/-- A start without a newline is within the first line. -/
theorem prefix_first {s line rest : Text} (hs : '\n' ∉ s) : s <+: line ++ '\n' :: rest ↔ s <+: line := by
  refine ⟨fun h => ?_, fun h => h.trans (List.prefix_append _ _)⟩
  rcases List.prefix_or_prefix_of_prefix h (List.prefix_append line ('\n' :: rest)) with h' | ⟨t, rfl⟩
  · exact h'
  · cases t with
    | nil => rw [List.append_nil]
    | cons c t =>
      obtain ⟨rfl, -⟩ := List.cons_prefix_cons.1 ((List.prefix_append_right_inj line).1 h)
      exact absurd (List.mem_append_right _ List.mem_cons_self) hs

theorem infix_rest {s line rest : Text} (h : '\n' ∉ line) :
    '\n' :: s <:+: line ++ '\n' :: rest ↔ '\n' :: s <:+: '\n' :: rest := by
  induction line with
  | nil => rfl
  | cons c line ih =>
    rw [List.mem_cons, not_or] at h
    rw [List.cons_append, List.infix_cons_iff, List.cons_prefix_cons, ih h.2]
    exact or_iff_right fun hpre => h.1 hpre.1

/-- Some line starts with `s`: the text does, or `s` stands after a newline. -/
theorem starts_line {s : Text} (hs : '\n' ∉ s) (text : Text) :
    (∃ line ∈ lines text, s <+: line) ↔ s <+: text ∨ '\n' :: s <:+: text := by
  induction text using lines_induction with
  | last line hline =>
    have hno : ¬ '\n' :: s <:+: line := fun h => hline (h.subset List.mem_cons_self)
    simp [hline, hno]
  | more line rest hline ih =>
    rw [lines_more hline, prefix_first hs, infix_rest hline, List.infix_cons_iff, List.cons_prefix_cons]
    simp [ih]

/-! ## The passes, line by line -/

/-- What `commands` makes of one line. -/
def neutral : Text → Text
  | ':' :: ':' :: cs => ' ' :: ':' :: ' ' :: ':' :: cs
  | cs => cs

theorem neutral_other {line : Text} (h : ¬ "::".toList <+: line) : neutral line = line := by
  unfold neutral
  split
  · next cs => exact absurd ⟨cs, rfl⟩ h
  · rfl

theorem commands_within : ∀ {line : Text}, '\n' ∉ line → ∀ rest, commands false (line ++ rest) = line ++ commands false rest
  | [], _, _ => rfl
  | c :: line, h, rest => by
    rw [List.mem_cons, not_or] at h
    have hc : decide (c = '\n') = false := decide_eq_false (Ne.symm h.1)
    rw [List.cons_append, commands, hc, commands_within h.2]
    · rfl
    · intro cs hb
      cases hb

/-- The first line is rewritten on its own. -/
theorem commands_first {line : Text} (h : '\n' ∉ line) {rest : Text} (hrest : rest.head? ≠ some ':') :
    commands true (line ++ rest) = if line = [] then commands true rest else neutral line ++ commands false rest := by
  match line, h with
  | [], _ => rfl
  | c :: line, h =>
    rw [if_neg (List.cons_ne_nil c line)]
    rw [List.mem_cons, not_or] at h
    have hc : decide (c = '\n') = false := decide_eq_false (Ne.symm h.1)
    by_cases hcommand : "::".toList <+: c :: line
    · obtain ⟨cs, hcs⟩ := hcommand
      have hcs : ':' :: ':' :: cs = c :: line := hcs
      cases hcs
      have hmem : '\n' ∉ cs := fun hmem => h.2 (List.mem_cons_of_mem _ hmem)
      rw [neutral, List.cons_append, List.cons_append, commands, commands_within hmem]
      rfl
    · rw [neutral_other hcommand, List.cons_append, commands, hc, commands_within h.2]
      · rfl
      · rintro cs - rfl hcs
        cases line with
        | nil =>
          rw [List.nil_append] at hcs
          exact hrest (by rw [hcs]; rfl)
        | cons d line =>
          cases hcs
          exact hcommand ⟨line, rfl⟩

theorem lines_commands (text : Text) : lines (commands true text) = (lines text).map neutral := by
  have hnot : ∀ {line : Text}, '\n' ∉ line → '\n' ∉ neutral line := by
    intro line hline
    unfold neutral
    split
    · simpa using hline
    · exact hline
  induction text using lines_induction with
  | last line hline =>
    have hone : commands true line = neutral line := by
      rw [← List.append_nil line, commands_first hline (by simp), List.append_nil]
      split
      · next hnil => rw [hnil]; rfl
      · rw [commands, List.append_nil]
    rw [lines_single hline, hone, lines_single (hnot hline), List.map_singleton]
  | more line rest hline ih =>
    have hmore : ∀ b, commands b ('\n' :: rest) = '\n' :: commands true rest := by
      intro b
      rw [commands]
      · rfl
      · rintro cs - h
        cases h
    have hone : commands true (line ++ '\n' :: rest) = neutral line ++ '\n' :: commands true rest := by
      rw [commands_first hline (by simp), hmore, hmore]
      split
      · next hnil => rw [hnil]; rfl
      · rfl
    rw [lines_more hline, hone, lines_more (hnot hline), ih, List.map_cons]

theorem printable_eq {d : Char} (hd : d ≠ ' ') (hd' : d ≠ '?') (hfix : printable d = d) (c : Char) :
    printable c = d ↔ c = d := by
  constructor
  · intro h
    rw [← h]
    exact (printable_same (h ▸ hd) (h ▸ hd')).symm
  · rintro rfl
    exact hfix

theorem lines_redact (r : StorageRedactor) (text : Text) :
    lines (r.redact text) = (lines (r.replaced text)).map fun line => neutral (line.map printable) := by
  rw [redact, lines_commands, ← replaced,
    lines_map (printable_eq (by decide) (by decide) (by decide)), List.map_map]
  rfl

theorem isSpace_printable {c : Char} (h : c ≠ '\n') : isSpace (printable c) = is_blank c := by
  unfold printable is_blank
  by_cases hcr : c = '\r'
  · subst hcr
    decide
  · by_cases htab : c = '\t'
    · subst htab
      decide
    · cases isControl c
      · simp [hcr, htab]
      · simp [hcr, htab, h]
        decide

theorem dropWhile_printable : ∀ {line : Text}, '\n' ∉ line →
    (line.map printable).dropWhile isSpace = (line.dropWhile is_blank).map printable
  | [], _ => rfl
  | c :: line, h => by
    rw [List.mem_cons, not_or] at h
    rw [List.map_cons, List.dropWhile_cons, List.dropWhile_cons, isSpace_printable (Ne.symm h.1), dropWhile_printable h.2]
    split <;> rfl

theorem command_printable (line : Text) : "::".toList <+: line.map printable ↔ "::".toList <+: line := by
  have hcolon := printable_eq (d := ':') (by decide) (by decide) (by decide)
  match line with
  | [] => simp
  | [c] => simp
  | c :: d :: line =>
    have hstart : ∀ {a b : Char} {cs : Text}, "::".toList <+: a :: b :: cs ↔ a = ':' ∧ b = ':' := by
      simp [List.cons_prefix_cons, eq_comm]
    rw [List.map_cons, List.map_cons, hstart, hstart, hcolon, hcolon]

/-- A line is a command after the passes iff it is indented before them. -/
theorem is_command_neutral {line : Text} (h : '\n' ∉ line) : is_command (neutral (line.map printable)) = indented line := by
  by_cases hcommand : "::".toList <+: line
  · have hleft : is_command (neutral (line.map printable)) = false := by
      obtain ⟨cs, hcs⟩ := (command_printable line).2 hcommand
      have hcs : ':' :: ':' :: cs = line.map printable := hcs
      rw [← hcs]
      simp [neutral, is_command, isSpace, List.isPrefixOf]
    obtain ⟨cs, rfl⟩ := hcommand
    rw [hleft, indented]
    simp [is_blank, isSpace]
  · have hstart : ¬ "::".toList <+: line.map printable := fun hpre => hcommand ((command_printable line).1 hpre)
    rw [neutral_other hstart, is_command, dropWhile_printable h, Bool.eq_iff_iff, indented, Bool.and_eq_true,
      List.isPrefixOf_iff_prefix, List.isPrefixOf_iff_prefix, command_printable]
    refine ⟨fun hpre => ⟨?_, hpre⟩, fun hpre => hpre.2⟩
    cases line with
    | nil => simp at hpre
    | cons c line =>
      by_cases hc : is_blank c = true
      · exact hc
      · rw [List.dropWhile_cons_of_neg hc] at hpre
        exact absurd hpre hcommand

/-! ## The output -/

/-- **A command is in the output iff an indented one is left when the values are gone.** -/
theorem no_command_iff (r : StorageRedactor) (text : Text) :
    (∀ line ∈ lines (r.redact text), is_command line = false) ↔
      ∀ line ∈ lines (r.replaced text), indented line = false := by
  rw [lines_redact]
  constructor
  · intro h line hmem
    rw [← is_command_neutral (newline_not_mem line hmem)]
    exact h _ (List.mem_map_of_mem hmem)
  · intro h out hout
    obtain ⟨line, hmem, rfl⟩ := List.mem_map.1 hout
    rw [is_command_neutral (newline_not_mem line hmem)]
    exact h line hmem

/-- Not with any text, for the redactor of no values. -/
theorem return_indents : ¬ ∀ (r : StorageRedactor) (text : Text),
    ∀ line ∈ lines (r.redact text), is_command line = false := by
  intro h
  let none : StorageRedactor := {
    markers := []
    filled := by decide
    distinct := by decide
    longest_first := by decide }
  have hline := h none "\r::warning::x".toList " ::warning::x".toList (by decide)
  exact absurd hline (by decide)

/-! ## The input -/

theorem indented_iff {line : Text} : indented line = true ↔
    ∃ blanks, blanks ≠ [] ∧ (∀ c ∈ blanks, is_blank c = true) ∧ blanks ++ "::".toList <+: line := by
  rw [indented, Bool.and_eq_true, List.isPrefixOf_iff_prefix]
  constructor
  · rintro ⟨hhead, rest, hrest⟩
    refine ⟨line.takeWhile is_blank, ?_, fun c hc => List.mem_takeWhile_imp hc, rest, ?_⟩
    · cases line with
      | nil => cases hhead
      | cons c line =>
        have hc : is_blank c = true := hhead
        rw [List.takeWhile_cons_of_pos hc]
        exact List.cons_ne_nil _ _
    · rw [List.append_assoc, hrest, List.takeWhile_append_dropWhile]
  · rintro ⟨blanks, hne, hblanks, rest, rfl⟩
    obtain ⟨c, blanks, rfl⟩ := List.exists_cons_of_ne_nil hne
    refine ⟨hblanks c List.mem_cons_self, rest, ?_⟩
    rw [List.append_assoc, List.dropWhile_append_of_pos hblanks]
    rfl

theorem mem_replacement {r : StorageRedactor} {c : Char} (h : c ∈ r.replacement) : is_blank c = false ∧ c ≠ ':' ∧ c ≠ '\n' := by
  have hall : ∀ candidate ∈ candidates, ∀ c ∈ candidate, is_blank c = false ∧ c ≠ ':' ∧ c ≠ '\n' := by decide
  rw [replacement] at h
  cases hfind : candidates.find? fun candidate => r.markers.all fun marker => ¬ marker <:+: candidate with
  | none =>
    rw [hfind] at h
    cases h
  | some candidate =>
    rw [hfind] at h
    exact hall candidate (List.mem_of_find?_eq_some hfind) c h

theorem separate_of_disjoint {s t : Text} (hs : s ≠ []) (ht : t ≠ []) (h : ∀ c ∈ s, c ∉ t) : List.Separate s t where
  left u hu hpre hsuf := by
    obtain ⟨c, u, rfl⟩ := List.exists_cons_of_ne_nil hu
    exact h c (hpre.subset List.mem_cons_self) (hsuf.subset List.mem_cons_self)
  right u hu hsuf hpre := by
    obtain ⟨c, u, rfl⟩ := List.exists_cons_of_ne_nil hu
    exact h c (hsuf.subset List.mem_cons_self) (hpre.subset List.mem_cons_self)
  inside hin := by
    obtain ⟨c, t, rfl⟩ := List.exists_cons_of_ne_nil ht
    exact h c (hin.subset List.mem_cons_self) List.mem_cons_self
  around hin := by
    obtain ⟨c, s, rfl⟩ := List.exists_cons_of_ne_nil hs
    exact h c List.mem_cons_self (hin.subset List.mem_cons_self)

/-- What stands apart from the replacement was in the text. -/
theorem infix_replaceEach {m r : Text} (h : List.Separate r m) {needles : List Text} (hneedles : [] ∉ needles) (text : Text) :
    m <:+: List.replaceEach needles r text → m <:+: text := by
  induction needles generalizing text with
  | nil => exact fun hin => hin
  | cons needle needles ih =>
    rw [List.mem_cons, not_or] at hneedles
    intro hin
    obtain ⟨p, ps, heq, hpieces⟩ := List.replaceAll_pieces (Ne.symm hneedles.1) r text
    have hfirst : m <:+: List.replaceAll needle r text := ih hneedles.2 _ hin
    rw [heq] at hfirst
    obtain ⟨q, hq, hin⟩ := List.infix_weave h hfirst
    exact hin.trans (hpieces q hq).1

theorem prefix_replaceEach {m r : Text} (h : List.Separate r m) {needles : List Text} (hneedles : [] ∉ needles) (text : Text) :
    m <+: List.replaceEach needles r text → m <+: text := by
  induction needles generalizing text with
  | nil => exact fun hpre => hpre
  | cons needle needles ih =>
    rw [List.mem_cons, not_or] at hneedles
    intro hpre
    have hupto := List.upto_replaceAll needle r text (Ne.symm hneedles.1)
    exact hupto.start (w := []) h (ih hneedles.2 _ hpre)

/-- No line of the text is indented before `::`, and a replacement is left for its values. -/
theorem no_command_of_text (r : StorageRedactor) (text : Text) (hr : r.replacement ≠ [])
    (h : ∀ line ∈ lines text, indented line = false) : ∀ line ∈ lines (r.redact text), is_command line = false := by
  rw [no_command_iff]
  intro line hline
  by_contra hindented
  obtain ⟨blanks, hne, hblanks, hpre⟩ := indented_iff.1 (Bool.eq_true_of_not_eq_false hindented)
  have hapart : ∀ c ∈ r.replacement, c ∉ '\n' :: (blanks ++ "::".toList) := by
    intro c hc hmem
    obtain ⟨hblank, hcolon, hnewline⟩ := mem_replacement hc
    rcases List.mem_cons.1 hmem with rfl | hmem
    · exact hnewline rfl
    · rcases List.mem_append.1 hmem with hmem | hmem
      · rw [hblanks c hmem] at hblank
        cases hblank
      · exact hcolon (by simpa using hmem)
  have hnewline : '\n' ∉ blanks ++ "::".toList := fun hmem =>
    newline_not_mem line hline (hpre.subset hmem)
  have hstart : blanks ++ "::".toList <+: text ∨ '\n' :: (blanks ++ "::".toList) <:+: text := by
    rcases (starts_line hnewline _).1 ⟨line, hline, hpre⟩ with hstart | hstart
    · refine .inl (prefix_replaceEach (separate_of_disjoint hr ?_ fun c hc hmem => ?_) r.filled text hstart)
      · exact List.append_ne_nil_of_left_ne_nil hne _
      · exact hapart c hc (List.mem_cons_of_mem _ hmem)
    · exact .inr (infix_replaceEach (separate_of_disjoint hr (List.cons_ne_nil _ _) hapart) r.filled text hstart)
  obtain ⟨before, hbefore, hpre⟩ := (starts_line hnewline text).2 hstart
  have hbad := indented_iff.2 ⟨blanks, hne, hblanks, hpre⟩
  rw [h before hbefore] at hbad
  cases hbad

end StorageOutput.StorageRedactor
