import Mathlib.Data.List.DropRight
import Mathlib.Data.List.TakeWhile
import DkcLinux.Text.PyStr

/-!
# Words and brackets in a text

`words` is `s.split()` and `squeeze` joins the words with one blank each. `scan` finds what stands between a
bracket and the next closing one, without nesting. Neither the words in brackets nor the beginning of a text tell
whether it has been squeezed (`enclosed_squeeze`, `takeWhile_squeeze`).
-/

namespace Py

/-! ## Words -/

/-- After the characters `w` of a word. -/
def wordsFrom : List Char → List Char → List (List Char)
  | w, [] => if w = [] then [] else [w]
  | w, c :: cs =>
    if isSpace c then (if w = [] then wordsFrom [] cs else w :: wordsFrom [] cs) else wordsFrom (w ++ [c]) cs

/-- `s.split()`. -/
def words (s : List Char) : List (List Char) := wordsFrom [] s

/-- `" ".join(s.split())`. -/
def squeeze (s : List Char) : List Char := [' '].intercalate (words s)

def lstrip (s : List Char) : List Char := s.dropWhile isSpace

/-- `s.strip()`. -/
def strip (s : List Char) : List Char := (lstrip s).rdropWhile isSpace

theorem isSpace_blank : isSpace ' ' = true := by decide

theorem wordsFrom_space (w : List Char) {c : Char} (hc : isSpace c = true) (cs : List Char) :
    wordsFrom w (c :: cs) = wordsFrom w [] ++ wordsFrom [] cs := by
  by_cases hw : w = []
  · simp [wordsFrom, hc, hw]
  · simp [wordsFrom, hc, hw]

theorem wordsFrom_char (w : List Char) {c : Char} (hc : ¬ isSpace c = true) (cs : List Char) :
    wordsFrom w (c :: cs) = wordsFrom (w ++ [c]) cs := by
  rw [wordsFrom, if_neg hc]

theorem wordsFrom_append {v : List Char} (hv : ∀ c ∈ v, isSpace c = false) (w s : List Char) :
    wordsFrom w (v ++ s) = wordsFrom (w ++ v) s := by
  induction v generalizing w with
  | nil => rw [List.nil_append, List.append_nil]
  | cons c v ih =>
    have hc := hv c List.mem_cons_self
    rw [List.cons_append, wordsFrom_char w (by simp [hc]), ih (fun d hd => hv d (List.mem_cons_of_mem c hd)),
      List.append_assoc, List.singleton_append]

theorem words_gap {gap : List Char} (hgap : ∀ c ∈ gap, isSpace c = true) (s : List Char) : words (gap ++ s) = words s := by
  induction gap with
  | nil => rfl
  | cons c gap ih =>
    rw [List.cons_append, words, wordsFrom_space [] (hgap c List.mem_cons_self)]
    exact ih fun d hd => hgap d (List.mem_cons_of_mem c hd)

/-- A word, and a blank after it. -/
theorem words_word {v : List Char} (hne : v ≠ []) (hv : ∀ c ∈ v, isSpace c = false) {gap : List Char} (hgap : gap ≠ [])
    (hspace : ∀ c ∈ gap, isSpace c = true) (s : List Char) : words (v ++ (gap ++ s)) = v :: words s := by
  obtain ⟨c, gap, rfl⟩ := List.exists_cons_of_ne_nil hgap
  rw [words, wordsFrom_append hv, List.nil_append, List.cons_append, wordsFrom_space v (hspace c List.mem_cons_self)]
  have htail := words_gap (fun d hd => hspace d (List.mem_cons_of_mem c hd)) s
  rw [show wordsFrom [] (gap ++ s) = words s from htail]
  simp [wordsFrom, hne]

/-- The last word. -/
theorem words_last {v : List Char} (hne : v ≠ []) (hv : ∀ c ∈ v, isSpace c = false) {gap : List Char}
    (hspace : ∀ c ∈ gap, isSpace c = true) : words (v ++ gap) = [v] := by
  by_cases hgap : gap = []
  · rw [hgap, words, wordsFrom_append hv]
    simp [wordsFrom, hne]
  · have h := words_word hne hv hgap hspace []
    rwa [List.append_nil] at h

theorem wordsFrom_ne_nil {w : List Char} (hw : w ≠ []) (s : List Char) : ∃ v vs, wordsFrom w s = (w ++ v) :: vs := by
  induction s generalizing w with
  | nil => exact ⟨[], [], by simp [wordsFrom, hw]⟩
  | cons c s ih =>
    by_cases hc : isSpace c = true
    · exact ⟨[], wordsFrom [] s, by simp [wordsFrom, hc, hw]⟩
    · obtain ⟨v, vs, h⟩ := ih (w := w ++ [c]) (by simp)
      exact ⟨c :: v, vs, by rw [wordsFrom_char w hc, h, List.append_assoc, List.singleton_append]⟩

/-- The first word begins with the first character that is no blank. -/
theorem words_cons {c : Char} (hc : isSpace c = false) (s : List Char) : ∃ v vs, words (c :: s) = (c :: v) :: vs := by
  rw [words, wordsFrom_char [] (by simp [hc])]
  exact wordsFrom_ne_nil (List.cons_ne_nil c []) s

/-! ## Squeezing -/

/-- Within a text, where a blank may be due. -/
def squeezeFrom : Bool → List Char → List Char
  | _, [] => []
  | due, c :: cs =>
    if isSpace c then squeezeFrom true cs
    else (if due then [' '] else []) ++ c :: squeezeFrom false cs

theorem intercalate_cons_words (w : List Char) (ws : List (List Char)) :
    [' '].intercalate (w :: ws) = w ++ if ws = [] then [] else ' ' :: [' '].intercalate ws := by
  cases ws with
  | nil => simp [List.intercalate]
  | cons v ws => simp [List.intercalate]

theorem intercalate_wordsFrom : ∀ (s : List Char),
    (∀ w, w ≠ [] → [' '].intercalate (wordsFrom w s) = w ++ squeezeFrom false s) ∧
      squeezeFrom true s = if words s = [] then [] else ' ' :: [' '].intercalate (words s)
  | [] => ⟨fun w hw => by simp [wordsFrom, hw, squeezeFrom, List.intercalate], rfl⟩
  | c :: cs => by
    obtain ⟨hword, hdue⟩ := intercalate_wordsFrom cs
    by_cases hc : isSpace c = true
    · constructor
      · intro w hw
        rw [wordsFrom, if_pos hc, if_neg hw, intercalate_cons_words, squeezeFrom, if_pos hc, hdue]
        rfl
      · rw [squeezeFrom, if_pos hc, hdue, words, words, wordsFrom, if_pos hc, if_pos rfl]
    · constructor
      · intro w hw
        rw [wordsFrom_char w hc, hword _ (by simp), squeezeFrom, if_neg hc]
        simp
      · obtain ⟨v, vs, hwords⟩ := wordsFrom_ne_nil (List.cons_ne_nil c []) cs
        have hne : words (c :: cs) ≠ [] := by
          rw [words, wordsFrom_char [] hc, List.nil_append, hwords]
          exact List.cons_ne_nil _ _
        rw [if_neg hne, squeezeFrom, if_neg hc, words, wordsFrom_char [] hc, List.nil_append,
          hword [c] (List.cons_ne_nil c [])]
        rfl

theorem squeeze_eq (s : List Char) : squeeze s = squeezeFrom false (lstrip s) := by
  induction s with
  | nil => rfl
  | cons c s ih =>
    by_cases hc : isSpace c = true
    · rw [squeeze, words, wordsFrom, if_pos hc, if_pos rfl, lstrip, List.dropWhile_cons, if_pos hc]
      exact ih
    · rw [squeeze, words, wordsFrom_char [] hc, List.nil_append,
        (intercalate_wordsFrom s).1 [c] (List.cons_ne_nil c []), lstrip, List.dropWhile_cons, if_neg hc, squeezeFrom,
        if_neg hc]
      rfl

theorem wordsFrom_squeezeFrom : ∀ (s w : List Char), wordsFrom w (squeezeFrom false s) = wordsFrom w s ∧
    wordsFrom w (squeezeFrom true s) = wordsFrom w [] ++ wordsFrom [] s
  | [], w => ⟨rfl, (List.append_nil _).symm⟩
  | c :: cs, w => by
    by_cases hc : isSpace c = true
    · rw [squeezeFrom, if_pos hc, squeezeFrom, if_pos hc, (wordsFrom_squeezeFrom cs w).2, wordsFrom_space w hc,
        wordsFrom_space [] hc]
      exact ⟨rfl, rfl⟩
    · rw [squeezeFrom, if_neg hc, squeezeFrom, if_neg hc]
      constructor
      · rw [if_neg Bool.false_ne_true, List.nil_append, wordsFrom_char w hc, wordsFrom_char w hc,
          (wordsFrom_squeezeFrom cs _).1]
      · rw [if_pos rfl, List.singleton_append, wordsFrom_space w isSpace_blank, wordsFrom_char [] hc, wordsFrom_char [] hc,
          (wordsFrom_squeezeFrom cs _).1]

theorem words_append_blank (w : List Char) : words (w ++ [' ']) = words w := by
  have h : ∀ (w v : List Char), wordsFrom v (w ++ [' ']) = wordsFrom v w := by
    intro w
    induction w with
    | nil => exact fun v => by rw [List.nil_append, wordsFrom_space v isSpace_blank]; exact List.append_nil _
    | cons c w ih =>
      intro v
      by_cases hc : isSpace c = true
      · rw [List.cons_append, wordsFrom_space v hc, wordsFrom_space v hc, ih]
      · rw [List.cons_append, wordsFrom_char v hc, wordsFrom_char v hc, ih]
  exact h w []

/-! ## Brackets -/

/-- What stands in brackets, and what is open at the end; `some w` within a bracket after `w`. -/
def scan (l r : Char) : Option (List Char) → List Char → List (List Char) × Option (List Char)
  | st, [] => ([], st)
  | none, c :: cs => if c = l then scan l r (some []) cs else scan l r none cs
  | some w, c :: cs =>
    if c = r then
      let (found, st) := scan l r none cs
      (w :: found, st)
    else scan l r (some (w ++ [c])) cs

/-- `re.findall(r"\l([^\r]*)\r", s)`. -/
def enclosed (l r : Char) (s : List Char) : List (List Char) := (scan l r none s).1

variable {l r : Char}

theorem scan_append : ∀ (st : Option (List Char)) (a b : List Char),
    scan l r st (a ++ b) = ((scan l r st a).1 ++ (scan l r (scan l r st a).2 b).1, (scan l r (scan l r st a).2 b).2)
  | st, [], b => by cases st <;> rfl
  | none, c :: a, b => by
    by_cases hc : c = l
    · rw [List.cons_append, scan, scan, if_pos hc, if_pos hc, scan_append (some []) a b]
    · rw [List.cons_append, scan, scan, if_neg hc, if_neg hc, scan_append none a b]
  | some w, c :: a, b => by
    by_cases hc : c = r
    · rw [List.cons_append, scan, scan, if_pos hc, if_pos hc, scan_append none a b]
      rfl
    · rw [List.cons_append, scan, scan, if_neg hc, if_neg hc, scan_append (some (w ++ [c])) a b]

theorem scan_outside {a : List Char} (ha : l ∉ a) : scan l r none a = ([], none) := by
  induction a with
  | nil => rfl
  | cons c a ih =>
    have hc : c ≠ l := fun h => ha (h ▸ List.mem_cons_self)
    rw [scan, if_neg hc, ih fun h => ha (List.mem_cons_of_mem c h)]

theorem scan_skip {a : List Char} (ha : l ∉ a) (b : List Char) : scan l r none (a ++ b) = scan l r none b := by
  rw [scan_append, scan_outside ha, List.nil_append]

theorem scan_inside {a : List Char} (ha : r ∉ a) (w : List Char) : scan l r (some w) a = ([], some (w ++ a)) := by
  induction a generalizing w with
  | nil => rw [List.append_nil]; rfl
  | cons c a ih =>
    have hc : c ≠ r := fun h => ha (h ▸ List.mem_cons_self)
    rw [scan, if_neg hc, ih fun h => ha (List.mem_cons_of_mem c h), List.append_assoc, List.singleton_append]

/-- A pair of brackets. -/
theorem scan_pair {a : List Char} (ha : r ∉ a) : scan l r none (l :: (a ++ [r])) = ([a], none) := by
  rw [scan, if_pos rfl, scan_append, scan_inside ha, List.nil_append, List.nil_append, scan, if_pos rfl]
  rfl

/-- The two texts have the same words, whatever follows. -/
def SameWords (due : Bool) (w w' : List Char) : Prop := ∀ x, words (w ++ x) = words (w' ++ squeezeFrom due x)

theorem SameWords.words_eq {due : Bool} {w w' : List Char} (h : SameWords due w w') : words w = words w' := by
  have hnil := h []
  rwa [List.append_nil, squeezeFrom, List.append_nil] at hnil

theorem sameWords_nil : SameWords false [] [] := fun x => (wordsFrom_squeezeFrom x []).1.symm

theorem SameWords.space {due : Bool} {w w' : List Char} (h : SameWords due w w') {c : Char} (hc : isSpace c = true) :
    SameWords true (w ++ [c]) w' := by
  intro x
  rw [List.append_assoc, h, List.singleton_append, squeezeFrom, if_pos hc]

theorem SameWords.char {due : Bool} {w w' : List Char} (h : SameWords due w w') {c : Char} (hc : ¬ isSpace c = true) :
    SameWords false (w ++ [c]) (w' ++ (if due then [' '] else []) ++ [c]) := by
  intro x
  rw [List.append_assoc, h, List.singleton_append, squeezeFrom, if_neg hc]
  simp only [List.append_assoc, List.singleton_append]

theorem scan_squeezeFrom (hl : ¬ isSpace l = true) (hr : ¬ isSpace r = true) (s : List Char) : ∀ (due : Bool),
    ((scan l r none (squeezeFrom due s)).1.map words = (scan l r none s).1.map words) ∧
      ∀ w w', SameWords due w w' →
        (scan l r (some w') (squeezeFrom due s)).1.map words = (scan l r (some w) s).1.map words := by
  have hblank {d : Char} (hd : ¬ isSpace d = true) : d ∉ [' '] := by
    rw [List.mem_singleton]
    rintro rfl
    exact hd isSpace_blank
  induction s with
  | nil => exact fun _ => ⟨rfl, fun _ _ _ => rfl⟩
  | cons c s ih =>
    intro due
    by_cases hc : isSpace c = true
    · have hcl : c ≠ l := fun h => hl (h ▸ hc)
      have hcr : c ≠ r := fun h => hr (h ▸ hc)
      rw [squeezeFrom, if_pos hc]
      constructor
      · rw [(ih true).1, scan, if_neg hcl]
      · intro w w' h
        rw [(ih true).2 _ _ (h.space hc), scan, if_neg hcr]
    · have hpre : l ∉ (if due then [' '] else [] : List Char) := by
        cases due
        · exact List.not_mem_nil
        · exact hblank hl
      have hpre' : r ∉ (if due then [' '] else [] : List Char) := by
        cases due
        · exact List.not_mem_nil
        · exact hblank hr
      rw [squeezeFrom, if_neg hc]
      constructor
      · rw [scan_append, scan_outside hpre, List.nil_append]
        by_cases hcl : c = l
        · rw [scan, scan, if_pos hcl, if_pos hcl, (ih false).2 [] [] sameWords_nil]
        · rw [scan, scan, if_neg hcl, if_neg hcl, (ih false).1]
      · intro w w' h
        rw [scan_append, scan_inside hpre', List.nil_append]
        by_cases hcr : c = r
        · have hw : words (w' ++ (if due then [' '] else [])) = words w := by
            rw [h.words_eq]
            cases due
            · exact congrArg words (List.append_nil w')
            · exact words_append_blank w'
          rw [scan, scan, if_pos hcr, if_pos hcr, List.map_cons, List.map_cons, (ih false).1, hw]
        · rw [scan, scan, if_neg hcr, if_neg hcr, (ih false).2 _ _ (h.char hc)]

/-- The words in brackets are the same after squeezing. -/
theorem enclosed_squeeze (hl : ¬ isSpace l = true) (hr : ¬ isSpace r = true) (s : List Char) :
    (enclosed l r (squeeze s)).map words = (enclosed l r s).map words := by
  have hstrip : ∀ s : List Char, enclosed l r (lstrip s) = enclosed l r s := by
    intro s
    induction s with
    | nil => rfl
    | cons c s ih =>
      by_cases hc : isSpace c = true
      · have hcl : c ≠ l := fun h => hl (h ▸ hc)
        rw [lstrip, List.dropWhile_cons, if_pos hc, enclosed, enclosed, scan, if_neg hcl]
        exact ih
      · rw [lstrip, List.dropWhile_cons, if_neg hc]
  rw [squeeze_eq, enclosed, (scan_squeezeFrom hl hr _ false).1]
  exact congrArg (List.map words) (hstrip s)

/-! ## The beginning -/

theorem takeWhile_squeezeFrom {p : Char → Bool} (hp : ∀ c, isSpace c = true → p c = false) (s : List Char) :
    (squeezeFrom false s).takeWhile p = s.takeWhile p ∧ (squeezeFrom true s).takeWhile p = [] := by
  induction s with
  | nil => exact ⟨rfl, rfl⟩
  | cons c s ih =>
    by_cases hc : isSpace c = true
    · rw [squeezeFrom, if_pos hc, squeezeFrom, if_pos hc, List.takeWhile_cons, hp c hc, ih.2]
      exact ⟨rfl, rfl⟩
    · rw [squeezeFrom, if_neg hc, squeezeFrom, if_neg hc]
      constructor
      · rw [if_neg Bool.false_ne_true, List.nil_append, List.takeWhile_cons, List.takeWhile_cons, ih.1]
      · rw [if_pos rfl, List.singleton_append, List.takeWhile_cons, hp ' ' isSpace_blank]
        rfl

theorem takeWhile_rdropWhile {p : Char → Bool} (hp : ∀ c, isSpace c = true → p c = false) (s : List Char) :
    (s.rdropWhile isSpace).takeWhile p = s.takeWhile p := by
  induction s using List.reverseRecOn with
  | nil => rfl
  | append_singleton s c ih =>
    rw [List.rdropWhile_concat]
    by_cases hc : isSpace c = true
    · rw [if_pos hc, ih, List.takeWhile_append]
      by_cases hall : (s.takeWhile p).length = s.length
      · have hsame : s.takeWhile p = s := (List.takeWhile_prefix p).eq_of_length hall
        rw [if_pos hall, List.takeWhile_cons, hp c hc, hsame]
        exact (List.append_nil s).symm
      · rw [if_neg hall]
    · rw [if_neg hc]

/-- The first characters of the first piece, up to a blank or another end of a name. -/
theorem takeWhile_squeeze {p q : Char → Bool} (hp : ∀ c, isSpace c = true → p c = false) (hq : ∀ c, p c = true → q c = true)
    (s : List Char) : (strip ((squeeze s).takeWhile q)).takeWhile p = (lstrip s).takeWhile p := by
  have hfirst : lstrip ((squeeze s).takeWhile q) = (squeeze s).takeWhile q := by
    rw [squeeze_eq]
    cases hs : lstrip s with
    | nil => rfl
    | cons c cs =>
      have hc : ¬ isSpace c = true := by
        have hhead := List.head?_dropWhile_not isSpace s
        rw [show s.dropWhile isSpace = c :: cs from hs] at hhead
        simpa using hhead
      rw [squeezeFrom, if_neg hc, if_neg Bool.false_ne_true, List.nil_append, List.takeWhile_cons]
      by_cases hqc : q c = true
      · rw [if_pos hqc, lstrip, List.dropWhile_cons, if_neg hc]
      · rw [if_neg hqc]
        rfl
  have hboth : ((squeeze s).takeWhile q).takeWhile p = (squeeze s).takeWhile p := by
    rw [List.takeWhile_takeWhile]
    congr 1
    funext c
    by_cases hpc : p c = true
    · simp [hpc, hq c hpc]
    · simp [hpc]
  rw [strip, takeWhile_rdropWhile hp, hfirst, hboth, squeeze_eq, (takeWhile_squeezeFrom hp _).1]

end Py
