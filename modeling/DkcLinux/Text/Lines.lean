import Mathlib.Data.List.Induction
import DkcLinux.Text.PyStr

/-!
# The lines of a text file

A text file is read with universal newlines, and `str.splitlines` splits at more characters than the newline. Text
that is appended after a line boundary adds its own lines (`file_lines_append`); elsewhere it continues the last
line (`file_lines_continue`).
-/

namespace Py

/-- `path.read_text().splitlines()`. -/
def file_lines (text : List Char) : List (List Char) := splitlines (universalNewlines text)

/-- Empty, or its last line is ended. -/
def Ended (text : List Char) : Prop := ∀ c ∈ text.getLast?, isLineBreak c = true

/-- A single line. -/
def Unbroken (text : List Char) : Prop := ∀ c ∈ text, isLineBreak c = false

instance (text : List Char) : Decidable (Ended text) :=
  inferInstanceAs (Decidable (∀ c ∈ text.getLast?, isLineBreak c = true))

instance (text : List Char) : Decidable (Unbroken text) :=
  inferInstanceAs (Decidable (∀ c ∈ text, isLineBreak c = false))

/-- The parts between the separators have none. -/
theorem not_mem_of_mem_splitOn {α : Type} [BEq α] [LawfulBEq α] {a : α} {l part : List α} (h : part ∈ l.splitOn a) :
    a ∉ part := by
  induction l generalizing part with
  | nil =>
    rw [List.splitOn_nil, List.mem_singleton] at h
    rw [h]
    exact List.not_mem_nil
  | cons x l ih =>
    rw [List.splitOn_cons_eq_if_modifyHead] at h
    split at h
    · rcases List.mem_cons.1 h with rfl | h
      · exact List.not_mem_nil
      · exact ih h
    · next hx =>
      cases hparts : l.splitOn a with
      | nil => exact absurd hparts (List.splitOn_ne_nil a l)
      | cons first parts =>
        rw [hparts, List.modifyHead_cons] at h
        rcases List.mem_cons.1 h with rfl | h
        · intro ha
          rcases List.mem_cons.1 ha with rfl | ha
          · exact hx BEq.rfl
          · exact ih (hparts ▸ List.mem_cons_self) ha
        · exact ih (hparts ▸ List.mem_cons_of_mem _ h)

theorem ended_nil : Ended [] := by
  intro c hc
  cases hc

theorem ended_cons {c : Char} {text : List Char} :
    Ended (c :: text) ↔ (text = [] → isLineBreak c = true) ∧ Ended text := by
  cases text with
  | nil => simp [Ended]
  | cons d text => simp [Ended, List.getLast?_cons_cons]

theorem Unbroken.no_return {text : List Char} (h : Unbroken text) : '\r' ∉ text := by
  intro hmem
  exact absurd (h _ hmem) (by decide)

theorem Unbroken.no_newline {text : List Char} (h : Unbroken text) : '\n' ∉ text := by
  intro hmem
  exact absurd (h _ hmem) (by decide)

/-- The end of a text that is not ended. -/
theorem exists_last_line (text : List Char) : ∃ a b, text = a ++ b ∧ Ended a ∧ Unbroken b := by
  induction text using List.reverseRecOn with
  | nil => exact ⟨[], [], rfl, ended_nil, by simp [Unbroken]⟩
  | append_singleton text c ih =>
    cases hc : isLineBreak c
    · obtain ⟨a, b, rfl, ha, hb⟩ := ih
      refine ⟨a, b ++ [c], List.append_assoc a b [c], ha, fun d hd => ?_⟩
      rcases List.mem_append.1 hd with hd | hd
      · exact hb d hd
      · rwa [List.mem_singleton.1 hd]
    · refine ⟨text ++ [c], [], (List.append_nil _).symm, fun d hd => ?_, by simp [Unbroken]⟩
      rw [List.getLast?_concat, Option.mem_some_iff] at hd
      rwa [← hd]

/-! ## Universal newlines -/

theorem universalNewlines_eq_nil {s : List Char} : universalNewlines s = [] ↔ s = [] := by
  fun_cases universalNewlines s <;> simp

theorem universalNewlines_append {t : List Char} (h : t.head? ≠ some '\n') (s : List Char) :
    universalNewlines (s ++ t) = universalNewlines s ++ universalNewlines t := by
  fun_induction universalNewlines s with
  | case1 => rfl
  | case2 rest ih => simpa [universalNewlines] using ih
  | case3 rest hrest ih =>
    rw [List.cons_append, universalNewlines, ih, List.cons_append]
    intro rest' heq
    cases rest with
    | nil => exact h (by rw [← List.nil_append t, heq]; rfl)
    | cons c rest =>
      cases heq
      exact hrest _ rfl
  | case4 c rest hc hc' ih =>
    rw [List.cons_append, universalNewlines, ih, List.cons_append]
    · rintro rest' rfl heq
      exact hc' rfl
    · exact hc'

theorem universalNewlines_line {a : List Char} (h : '\r' ∉ a) (rest : List Char) :
    universalNewlines (a ++ '\n' :: rest) = a ++ '\n' :: universalNewlines rest := by
  induction a with
  | nil => simp [universalNewlines]
  | cons c a ih =>
    rw [List.mem_cons, not_or] at h
    rw [List.cons_append, universalNewlines, ih h.2, List.cons_append]
    · rintro rest' rfl
      exact absurd rfl h.1
    · rintro rfl
      exact absurd rfl h.1

theorem ended_universalNewlines (s : List Char) : Ended (universalNewlines s) ↔ Ended s := by
  have hnewline : isLineBreak '\n' = true := by decide
  have hreturn : isLineBreak '\r' = true := by decide
  fun_induction universalNewlines s with
  | case1 => rfl
  | case2 rest ih => simp [ended_cons, ih, hnewline]
  | case3 rest _ ih => simp [ended_cons, ih, hnewline, hreturn]
  | case4 c rest _ _ ih => simp [ended_cons, ih, universalNewlines_eq_nil]

/-! ## Splitting -/

theorem splitlinesFrom_cons {c : Char} (hc : c ≠ '\r') (w rest : List Char) : splitlinesFrom w (c :: rest) =
    if isLineBreak c then w :: splitlinesFrom [] rest else splitlinesFrom (w ++ [c]) rest := by
  rw [splitlinesFrom]
  rintro rest' rfl
  exact absurd rfl hc

theorem unbroken_of_mem {s w line : List Char} (hw : Unbroken w) (h : line ∈ splitlinesFrom w s) : Unbroken line := by
  have hnil : Unbroken [] := by simp [Unbroken]
  fun_induction splitlinesFrom w s with
  | case1 => cases h
  | case2 w hne => rwa [List.mem_singleton.1 h]
  | case3 w rest ih =>
    rcases List.mem_cons.1 h with rfl | h
    · exact hw
    · exact ih hnil h
  | case4 w c rest _ hc ih =>
    rcases List.mem_cons.1 h with rfl | h
    · exact hw
    · exact ih hnil h
  | case5 w c rest _ hc ih =>
    refine ih (fun d hd => ?_) h
    rcases List.mem_append.1 hd with hd | hd
    · exact hw d hd
    · rw [List.mem_singleton.1 hd]
      exact Bool.eq_false_of_not_eq_true hc

theorem file_lines_unbroken {text line : List Char} (h : line ∈ file_lines text) : Unbroken line :=
  unbroken_of_mem (by simp [Unbroken]) h

theorem splitlinesFrom_unbroken {b : List Char} (h : Unbroken b) (w : List Char) :
    splitlinesFrom w b = if w ++ b = [] then [] else [w ++ b] := by
  induction b generalizing w with
  | nil => rw [splitlinesFrom, List.append_nil]
  | cons c b ih =>
    have hc : isLineBreak c = false := h c List.mem_cons_self
    have hne : c ≠ '\r' := by
      rintro rfl
      exact absurd hc (by decide)
    rw [splitlinesFrom_cons hne, if_neg (by rw [hc]; decide), ih fun d hd => h d (List.mem_cons_of_mem c hd)]
    simp

theorem splitlinesFrom_append {s : List Char} (hcr : '\r' ∉ s) (hs : s ≠ []) (hended : Ended s) (w t : List Char) :
    splitlinesFrom w (s ++ t) = splitlinesFrom w s ++ splitlinesFrom [] t := by
  induction s generalizing w with
  | nil => exact absurd rfl hs
  | cons c s ih =>
    rw [List.mem_cons, not_or] at hcr
    rw [List.cons_append, splitlinesFrom_cons (Ne.symm hcr.1), splitlinesFrom_cons (Ne.symm hcr.1)]
    rw [ended_cons] at hended
    by_cases hnil : s = []
    · have hc := hended.1 hnil
      subst hnil
      rw [if_pos hc, if_pos hc]
      rfl
    · have ih := ih hcr.2 hnil hended.2
      split
      · rw [ih, List.cons_append]
      · exact ih _

theorem splitlines_append {s : List Char} (hcr : '\r' ∉ s) (hended : Ended s) (t : List Char) :
    splitlines (s ++ t) = splitlines s ++ splitlines t := by
  by_cases hs : s = []
  · subst hs
    rfl
  · exact splitlinesFrom_append hcr hs hended [] t

/-! ## Appending to a file -/

theorem file_lines_append {text block : List Char} (hended : Ended text) (hblock : block.head? ≠ some '\n') :
    file_lines (text ++ block) = file_lines text ++ file_lines block := by
  rw [file_lines, universalNewlines_append hblock, splitlines_append (not_mem_universalNewlines text)
    ((ended_universalNewlines text).2 hended)]
  rfl

/-- The rows of a block that ends each. -/
theorem file_lines_rows {rows : List (List Char)} (h : ∀ row ∈ rows, Unbroken row) :
    file_lines (rows.flatMap fun row => row ++ ['\n']) = rows := by
  have hcr : '\r' ∉ rows.flatMap fun row => row ++ ['\n'] := by
    intro hmem
    obtain ⟨row, hrow, hmem⟩ := List.mem_flatMap.1 hmem
    rcases List.mem_append.1 hmem with hmem | hmem
    · exact (h row hrow).no_return hmem
    · exact absurd (List.mem_singleton.1 hmem) (by decide)
  rw [file_lines, universalNewlines_plain hcr, splitlines_lines h]

/-- **What is appended without a boundary before it is part of the last line.** -/
theorem file_lines_continue {text : List Char} (h : ¬ Ended text) : ∃ init last, last ≠ [] ∧
    file_lines text = init ++ [last] ∧ ∀ row rest, row ≠ [] → Unbroken row →
      file_lines (text ++ (row ++ '\n' :: rest)) = init ++ (last ++ row) :: file_lines rest := by
  obtain ⟨a, b, hab, ha, hb⟩ := exists_last_line (universalNewlines text)
  have hcr : '\r' ∉ a := fun hmem => not_mem_universalNewlines text (hab ▸ List.mem_append_left b hmem)
  have hne : b ≠ [] := by
    rintro rfl
    rw [List.append_nil] at hab
    exact h ((ended_universalNewlines text).1 (hab ▸ ha))
  refine ⟨splitlines a, b, hne, ?_, fun row rest hrow hunbroken => ?_⟩
  · rw [file_lines, hab, splitlines_append hcr ha, splitlines, splitlines, splitlinesFrom_unbroken hb, List.nil_append,
      if_neg hne]
  · have hhead : (row ++ '\n' :: rest).head? ≠ some '\n' := by
      cases row with
      | nil => exact absurd rfl hrow
      | cons c row =>
        intro hc
        cases hc
        exact hunbroken.no_newline List.mem_cons_self
    have hboth : Unbroken (b ++ row) := fun c hc => (List.mem_append.1 hc).elim (hb c) (hunbroken c)
    rw [file_lines, universalNewlines_append hhead, universalNewlines_line hunbroken.no_return, hab, List.append_assoc,
      splitlines_append hcr ha, ← List.append_assoc b, splitlines, splitlines, splitlinesFrom_line hboth, List.nil_append]
    rfl

end Py
