import DkcLinux.DependencySelection
import DkcLinux.MatrixPayloads

/-!
# Relations between the product's packages (`scripts/in-container/audit-package-matrix.py:362-380`)

`internal_relations` searches a relation field for one pattern. `find` is the search: at every position behind the last
match, `begins` decides with the character before it, and `match_at` takes as much as it can.

The grammar of a field is that of `BuildDeps`, with the characters that a control file allows (`Alternative.Legal`).
`find_field`: of a plain field the pattern finds the relations that stand in it. A field is not plain where a blank stands
inside the parentheses of a version, or where the product's name stands behind another character than those of a package name.
-/

namespace PackageMatrix

open Py BuildDeps

/-! ## The pattern -/

/-- `[A-Za-z0-9+.-]`. -/
def is_near (c : Char) : Bool := isAsciiAlnum c || c == '+' || c == '.' || c == '-'

/-- `[a-z0-9+.-]`. -/
def is_tail (c : Char) : Bool := isAsciiDigit c || isAsciiLower c || c == '+' || c == '.' || c == '-'

/-- `[a-z0-9-]`. -/
def is_qualifier (c : Char) : Bool := isAsciiDigit c || isAsciiLower c || c == '-'

/-- `[<>=]`. -/
def is_operator (c : Char) : Bool := c == '<' || c == '>' || c == '='

/-- `[^)\s]`. -/
def is_version (c : Char) : Bool := c ≠ ')' && !isSpace c

/-- `dkc-linux-`. -/
def PRODUCT : Text := ['d', 'k', 'c', '-', 'l', 'i', 'n', 'u', 'x', '-']

structure Relation where
  name : Text
  operator : Option Text
  version : Option Text
deriving DecidableEq

/-- A match begins here: `(?<![A-Za-z0-9+.-])dkc-linux-[a-z0-9+.-]`. -/
def begins (before : Option Char) (text : Text) : Bool :=
  !before.any is_near && PRODUCT.isPrefixOf text && (text.drop PRODUCT.length).head?.any is_tail

/-- The length of `(?::[a-z0-9-]+)?`. -/
def read_qualifier : Text → Nat
  | ':' :: rest => if rest.takeWhile is_qualifier = [] then 0 else 1 + (rest.takeWhile is_qualifier).length
  | _ => 0

/-- `(?:\s*\(([<>=]+)\s*([^)\s]+)\))?`: operator, version and length. -/
def read_version (text : Text) : Option (Text × Text × Nat) :=
  let gap := text.takeWhile isSpace
  match text.drop gap.length with
  | '(' :: inner =>
    let operator := inner.takeWhile is_operator
    let blank := (inner.drop operator.length).takeWhile isSpace
    let rest := (inner.drop operator.length).drop blank.length
    let version := rest.takeWhile is_version
    match rest.drop version.length with
    | ')' :: _ =>
      if operator = [] then none
      else if version ≠ [] then
        some (operator, version, gap.length + 1 + operator.length + blank.length + version.length + 1)
      -- with nothing else before the parenthesis, the version is the last character of the operator
      else if blank = [] ∧ 2 ≤ operator.length then
        some (operator.dropLast, operator.drop (operator.length - 1), gap.length + 1 + operator.length + 1)
      else none
    | _ => none
  | _ => none

/-- A match at the start of the text, and its length. -/
def match_at (before : Option Char) (text : Text) : Option (Relation × Nat) :=
  if begins before text then
    let name := text.takeWhile is_tail
    let length := name.length + read_qualifier (text.drop name.length)
    match read_version (text.drop length) with
    | some (operator, version, n) => some (⟨name, some operator, some version⟩, length + n)
    | none => some (⟨name, none, none⟩, length)
  else none

/-- `pattern.finditer`; the second argument counts what is left of the last match. -/
def find : Option Char → Nat → Text → List Relation
  | _, _, [] => []
  | _, left + 1, c :: rest => find (some c) left rest
  | before, 0, c :: rest =>
    match match_at before (c :: rest) with
    | some (relation, length) => relation :: find (some c) (length - 1) rest
    | none => find (some c) 0 rest

def internal_relations (value : Text) : List Relation := find none 0 value

def has_alternative_internal_relation (value : Text) : Bool :=
  (value.splitOn ',').any fun group => isInfix PRODUCT group && group.contains '|'

/-! ## What the field says -/

def is_product (name : Text) : Bool := PRODUCT.isPrefixOf name && name ≠ PRODUCT

/-- The characters of a control file: names, architectures, and versions that are not empty. -/
structure Legal (a : Alternative) : Prop where
  name : ∀ c ∈ a.name.text, is_tail c = true
  qualifier : ∀ q ∈ a.qualifier, ∀ c ∈ q.text, is_qualifier c = true
  version : ∀ v ∈ a.version, v.version ≠ [] ∧ ∀ c ∈ v.version, is_operator c = false

def alternatives (e : BuildDeps.Entry) : List Alternative := e.first :: e.others

/-- A relation field of a control file. -/
structure RelationText where
  field : Field
  legal : ∀ e ∈ field.entries, ∀ a ∈ alternatives e, Legal a

/-- What an alternative says of a package of the product. -/
def relation (a : Alternative) : Relation := ⟨a.name.text, a.version.map (·.op.text), a.version.map (·.version)⟩

/-- The alternatives that name a package of the product. -/
def products (field : Field) : List Alternative := (field.entries.flatMap alternatives).filter fun a => is_product a.name.text

/-! ## Plain texts -/

/-- A match begins somewhere in the text. -/
def hidden : Option Char → Text → Bool
  | _, [] => false
  | before, c :: rest => begins before (c :: rest) || hidden (some c) rest

/-- What stands behind the name. -/
def behind_name (a : Alternative) : Text := (a.qualifier.elim [] fun q => ':' :: q.text) ++ a.restrictions

structure PlainAlternative (a : Alternative) : Prop where
  /-- No blank stands behind `(` or before `)` of a relation to the product. -/
  tight : is_product a.name.text = true → ∀ v ∈ a.version, v.op_lead.text = [] ∧ v.trail.text = []
  /-- Behind the name, the pattern begins nowhere. -/
  quiet : hidden none (behind_name a) = false

structure PlainEntry (e : BuildDeps.Entry) : Prop where
  plain : ∀ a ∈ alternatives e, PlainAlternative a
  /-- The product's name stands in an entry with alternatives only if one of them is such a package. -/
  named : e.others ≠ [] → isInfix PRODUCT e.render = true → ∃ a ∈ alternatives e, is_product a.name.text = true

/-! ## The search -/

/-- The character before what follows the text. -/
def last_of (before : Option Char) (t : Text) : Option Char := t.getLast?.or before

theorem last_of_nil (before : Option Char) : last_of before [] = before := rfl

theorem last_of_cons (before : Option Char) (c : Char) (t : Text) : last_of before (c :: t) = last_of (some c) t := by
  cases t with
  | nil => rfl
  | cons d t =>
    rw [last_of, last_of, List.getLast?_cons_cons]
    cases hlast : (d :: t).getLast? with
    | none => simp at hlast
    | some e => rfl

/-- What follows does not continue a name. -/
def Clear (rest : Text) : Prop := ∀ c ∈ rest.head?, is_tail c = false

theorem begins_iff {before : Option Char} {text : Text} : begins before text = true ↔
    before.any is_near = false ∧ ∃ c rest, text = PRODUCT ++ c :: rest ∧ is_tail c = true := by
  rw [begins, Bool.and_eq_true, Bool.and_eq_true, Bool.not_eq_true', List.isPrefixOf_iff_prefix, and_assoc]
  refine and_congr_right fun _ => ⟨?_, ?_⟩
  · rintro ⟨⟨rest, rfl⟩, htail⟩
    rw [List.drop_left] at htail
    cases rest with
    | nil => cases htail
    | cons c rest => exact ⟨c, rest, rfl, htail⟩
  · rintro ⟨c, rest, rfl, hc⟩
    refine ⟨⟨_, rfl⟩, ?_⟩
    rw [List.drop_left]
    exact hc

theorem product_tail : ∀ c ∈ PRODUCT, is_tail c = true := by decide

/-- Whether a match begins in a text does not depend on what follows it. -/
theorem begins_append {before : Option Char} {s rest : Text} (hrest : Clear rest) :
    begins before (s ++ rest) = true ↔ begins before s = true := by
  rw [begins_iff, begins_iff]
  refine and_congr_right fun _ => ⟨?_, ?_⟩
  · rintro ⟨c, after, htext, hc⟩
    rw [← List.singleton_append, ← List.append_assoc] at htext
    rcases List.append_eq_append_iff.1 htext with ⟨more, hs, hmore⟩ | ⟨more, hs, hmore⟩
    · cases more with
      | nil => exact ⟨c, [], by simpa using hs.symm, hc⟩
      | cons d more =>
        -- the text ends within the name, and `rest` goes on with it
        have hd : d ∈ PRODUCT ++ [c] := hs ▸ List.mem_append_right _ List.mem_cons_self
        have htail : is_tail d = true := by
          rcases List.mem_append.1 hd with hd | hd
          · exact product_tail d hd
          · exact List.mem_singleton.1 hd ▸ hc
        rw [hrest d (by rw [hmore]; rfl)] at htail
        cases htail
    · exact ⟨c, more, by rw [hs, List.append_assoc, List.singleton_append], hc⟩
  · rintro ⟨c, after, rfl, hc⟩
    exact ⟨c, after ++ rest, by simp, hc⟩

/-- Behind the start of a text, a match may begin as well as behind any character. -/
theorem hidden_none {t : Text} (h : hidden none t = false) (before : Option Char) : hidden before t = false := by
  cases t with
  | nil => rfl
  | cons c t =>
    rw [hidden, Bool.or_eq_false_iff] at h ⊢
    refine ⟨?_, h.2⟩
    rw [Bool.eq_false_iff] at h ⊢
    exact fun hbegins => h.1 (begins_iff.2 ⟨rfl, (begins_iff.1 hbegins).2⟩)

theorem hidden_append {before : Option Char} {s t : Text} (h : hidden before (s ++ t) = false) :
    hidden (last_of before s) t = false := by
  induction s generalizing before with
  | nil => exact h
  | cons c s ih =>
    rw [List.cons_append, hidden, Bool.or_eq_false_iff] at h
    rw [last_of_cons]
    exact ih h.2

/-- A text in which no match begins is passed. -/
theorem find_quiet {before : Option Char} {t rest : Text} (h : hidden before t = false) (hrest : Clear rest) :
    find before 0 (t ++ rest) = find (last_of before t) 0 rest := by
  induction t generalizing before with
  | nil => rfl
  | cons c t ih =>
    rw [hidden, Bool.or_eq_false_iff] at h
    have hnot : begins before (c :: (t ++ rest)) = false :=
      Bool.eq_false_iff.2 fun hbegins => Bool.eq_false_iff.1 h.1 ((begins_append hrest).1 hbegins)
    rw [List.cons_append, find, match_at, if_neg (Bool.eq_false_iff.1 hnot), last_of_cons]
    exact ih h.2

/-- So is a text without the first letter of the name. -/
theorem find_other {before : Option Char} {t : Text} (h : 'd' ∉ t) (rest : Text) :
    find before 0 (t ++ rest) = find (last_of before t) 0 rest := by
  induction t generalizing before with
  | nil => rfl
  | cons c t ih =>
    have hnot : ¬begins before (c :: (t ++ rest)) = true := by
      rw [begins_iff]
      rintro ⟨-, d, after, htext, -⟩
      exact h ((List.cons.inj htext).1 ▸ List.mem_cons_self)
    rw [List.cons_append, find, match_at, if_neg hnot, last_of_cons]
    exact ih fun hmem => h (List.mem_cons_of_mem c hmem)

theorem find_skip {before : Option Char} {t : Text} (rest : Text) :
    find before t.length (t ++ rest) = find (last_of before t) 0 rest := by
  induction t generalizing before with
  | nil => rfl
  | cons c t ih =>
    rw [List.length_cons, List.cons_append, find, last_of_cons]
    exact ih

/-- A match is passed as a whole. -/
theorem find_match {before : Option Char} {matched rest : Text} {relation : Relation} (hne : matched ≠ [])
    (h : match_at before (matched ++ rest) = some (relation, matched.length)) :
    find before 0 (matched ++ rest) = relation :: find (last_of before matched) 0 rest := by
  obtain ⟨c, t, rfl⟩ := List.exists_cons_of_ne_nil hne
  rw [List.cons_append] at h ⊢
  rw [find, h]
  simp only [List.length_cons, Nat.add_sub_cancel]
  rw [last_of_cons, find_skip]

/-! ## The parts of a relation -/

theorem takeWhile_exact {p : Char → Bool} {w rest : Text} (hw : ∀ c ∈ w, p c = true) (hrest : ∀ c ∈ rest.head?, p c = false) :
    (w ++ rest).takeWhile p = w := by
  rw [List.takeWhile_append_of_pos hw]
  cases rest with
  | nil => simp
  | cons c rest => rw [List.takeWhile_cons_of_neg (by simp [hrest c rfl]), List.append_nil]

theorem tail_near {c : Char} (h : is_tail c = true) : is_near c = true := by
  simp only [is_tail, is_near, isAsciiAlnum, Bool.or_eq_true] at h ⊢
  tauto

theorem qualifier_tail {c : Char} (h : is_qualifier c = true) : is_tail c = true := by
  simp only [is_tail, is_qualifier, Bool.or_eq_true] at h ⊢
  tauto

theorem version_char {c : Char} (h : isVersionChar c = true) : isSpace c = false ∧ c ≠ ')' := by
  rw [isVersionChar, Bool.and_eq_true, Bool.not_eq_true', decide_eq_true_eq] at h
  exact ⟨h.1, fun hc => h.2 (hc ▸ by decide)⟩

theorem op_operator (op : BuildDeps.Op) : ∀ c ∈ op.text, is_operator c = true := by
  cases op <;> decide

theorem op_filled (op : BuildDeps.Op) : op.text ≠ [] := by
  cases op <;> decide

/-- A version without blanks inside the parentheses is read. -/
theorem read_version_tight {v : Constraint} (hlead : v.op_lead.text = []) (htrail : v.trail.text = [])
    (hlegal : v.version ≠ [] ∧ ∀ c ∈ v.version, is_operator c = false) (rest : Text) :
    read_version (v.render ++ rest) = some (v.op.text, v.version, v.render.length) := by
  obtain ⟨hne, hoperator⟩ := hlegal
  have hversion : ∀ c ∈ v.version, is_version c = true := by
    intro c hc
    obtain ⟨hspace, hclose⟩ := version_char (v.clean c hc)
    rw [is_version, Bool.and_eq_true, decide_eq_true_eq, Bool.not_eq_true']
    exact ⟨hclose, hspace⟩
  have hrender : v.render ++ rest =
      v.before.text ++ '(' :: (v.op.text ++ (v.version_lead.text ++ (v.version ++ ')' :: rest))) := by
    rw [Constraint.render, hlead, htrail]
    simp only [List.nil_append, List.append_assoc, List.cons_append]
  have hlength : v.render.length =
      v.before.text.length + 1 + v.op.text.length + v.version_lead.text.length + v.version.length + 1 := by
    have h := congrArg List.length hrender
    simp only [List.length_append, List.length_cons] at h
    omega
  have hgap : (v.before.text ++ '(' :: (v.op.text ++ (v.version_lead.text ++ (v.version ++ ')' :: rest)))).takeWhile isSpace =
      v.before.text := takeWhile_exact v.before.spaces (by simp; decide)
  have hop : (v.op.text ++ (v.version_lead.text ++ (v.version ++ ')' :: rest))).takeWhile is_operator = v.op.text := by
    refine takeWhile_exact (op_operator v.op) ?_
    intro c hc
    cases hblank : v.version_lead.text with
    | nil =>
      obtain ⟨d, version, hcons⟩ := List.exists_cons_of_ne_nil hne
      rw [hblank, hcons] at hc
      cases hc
      exact hoperator _ (hcons ▸ List.mem_cons_self)
    | cons d blank =>
      rw [hblank] at hc
      cases hc
      have hspace := v.version_lead.spaces _ (hblank ▸ List.mem_cons_self)
      by_contra hoperator
      rw [Bool.not_eq_false, is_operator, Bool.or_eq_true, Bool.or_eq_true, beq_iff_eq, beq_iff_eq, beq_iff_eq] at hoperator
      rcases hoperator with (rfl | rfl) | rfl <;> cases hspace
  have hblank : (v.version_lead.text ++ (v.version ++ ')' :: rest)).takeWhile isSpace = v.version_lead.text := by
    refine takeWhile_exact v.version_lead.spaces ?_
    intro c hc
    obtain ⟨d, version, hcons⟩ := List.exists_cons_of_ne_nil hne
    rw [hcons] at hc
    cases hc
    exact (version_char (v.clean _ (hcons ▸ List.mem_cons_self))).1
  have htake : (v.version ++ ')' :: rest).takeWhile is_version = v.version :=
    takeWhile_exact hversion (by simp; decide)
  rw [hrender, read_version, hgap, List.drop_left]
  simp only [hop, List.drop_left, hblank, htake, if_neg (op_filled v.op), if_pos hne, hlength]

theorem dropWhile_take {p : Char → Bool} (t : Text) : t.drop (t.takeWhile p).length = t.dropWhile p := by
  have h : (t.takeWhile p ++ t.dropWhile p).drop (t.takeWhile p).length = t.dropWhile p := List.drop_left
  rwa [List.takeWhile_append_dropWhile] at h

/-- Without an opening parenthesis, no version is read. -/
theorem read_version_none {t rest : Text} (ht : '(' ∉ t) (hrest : ∀ c ∈ rest.head?, c = ',' ∨ c = '|') :
    read_version (t ++ rest) = none := by
  have hdrop : ∀ inner, (t ++ rest).drop ((t ++ rest).takeWhile isSpace).length ≠ '(' :: inner := by
    intro inner
    rw [dropWhile_take, List.dropWhile_append]
    split
    · intro hopen
      cases rest with
      | nil => cases hopen
      | cons c rest =>
        have hspace : isSpace c = false := by
          rcases hrest c rfl with rfl | rfl <;> decide
        rw [List.dropWhile_cons_of_neg (by simp [hspace])] at hopen
        rcases hrest c rfl with rfl | rfl <;> cases hopen
    · next hne =>
      intro hopen
      have hmem : '(' ∈ t.dropWhile isSpace := by
        cases hcons : t.dropWhile isSpace with
        | nil => simp [hcons] at hne
        | cons c more =>
          rw [hcons] at hopen
          exact (List.cons.inj hopen).1 ▸ List.mem_cons_self
      exact ht ((List.dropWhile_sublist isSpace).subset hmem)
  unfold read_version
  cases hcons : (t ++ rest).drop ((t ++ rest).takeWhile isSpace).length with
  | nil => simp only [hcons]
  | cons c inner =>
    have hc : c ≠ '(' := fun hopen => hdrop inner (by rw [hcons, hopen])
    simp only [hcons]
    split
    · next hopen => exact absurd (List.cons.inj hopen).1 hc
    · rfl

theorem near_not_space {c : Char} (h : is_near c = true) : isSpace c = false := by
  have hrange : 43 ≤ c.toNat ∧ c.toNat ≤ 122 := by
    simp only [is_near, isAsciiAlnum, isAsciiDigit, isAsciiLower, isAsciiUpper, Bool.or_eq_true, Bool.and_eq_true,
      decide_eq_true_eq, beq_iff_eq, Char.le_def, UInt32.le_iff_toNat_le] at h
    rcases h with (((((⟨hlow, hhigh⟩ | ⟨hlow, hhigh⟩) | ⟨hlow, hhigh⟩) | rfl) | rfl) | rfl)
    · exact ⟨hlow.trans' (by decide), hhigh.trans (by decide)⟩
    · exact ⟨hlow.trans' (by decide), hhigh.trans (by decide)⟩
    · exact ⟨hlow.trans' (by decide), hhigh.trans (by decide)⟩
    all_goals decide
  rw [isSpace, Bool.eq_false_iff]
  simp only [ne_eq, Bool.or_eq_true, Bool.and_eq_true, decide_eq_true_eq, beq_iff_eq]
  omega

/-- What may follow a name or its qualifier. -/
def Follows (rest : Text) : Prop := ∀ c ∈ rest.head?, isSpace c = true ∨ c ∈ ['(', '[', '<', '|', ',']

theorem Follows.not_tail {rest : Text} (h : Follows rest) : Clear rest := by
  intro c hc
  rcases h c hc with hspace | hmem
  · by_contra htail
    rw [near_not_space (tail_near (Bool.not_eq_false _ ▸ htail))] at hspace
    cases hspace
  · have hnone : ∀ c ∈ ['(', '[', '<', '|', ','], is_tail c = false := by decide
    exact hnone c hmem

/-- What may follow an alternative. -/
def Separated (rest : Text) : Prop := ∀ c ∈ rest.head?, c = ',' ∨ c = '|'

theorem follows_restrictions (a : Alternative) {rest : Text} (hrest : Separated rest) : Follows (a.restrictions ++ rest) := by
  intro c hc
  cases hcons : a.restrictions with
  | nil =>
    rw [hcons] at hc
    rcases hrest c hc with rfl | rfl <;> exact .inr (by decide)
  | cons d more =>
    rw [hcons] at hc
    cases hc
    have hends := ends_restrictions a c (by rw [hcons]; rfl)
    by_cases hspace : isSpace c = true
    · exact .inl hspace
    · refine .inr ?_
      simp only [isNameChar, Bool.and_eq_false_iff, Bool.not_eq_false', decide_eq_false_iff_not, not_not] at hends
      rcases hends with (((hends | rfl) | rfl) | rfl) | rfl
      · exact absurd hends hspace
      all_goals decide

/-- What stands behind a name, and what follows the alternative. -/
theorem clear_behind (a : Alternative) {rest : Text} (hrest : Separated rest) : Clear (behind_name a ++ rest) := by
  rw [behind_name, List.append_assoc]
  cases a.qualifier with
  | none => exact (follows_restrictions a hrest).not_tail
  | some q =>
    intro d hd
    cases hd
    decide

theorem read_qualifier_append {a : Alternative} (h : Legal a) {rest : Text} (hrest : Follows rest) :
    read_qualifier ((a.qualifier.elim [] fun q => ':' :: q.text) ++ rest) =
      (a.qualifier.elim [] fun q => ':' :: q.text).length := by
  cases hq : a.qualifier with
  | none =>
    simp only [Option.elim_none, List.nil_append, List.length_nil]
    unfold read_qualifier
    split
    · next inner =>
      rcases hrest ':' rfl with hspace | hmem
      · cases hspace
      · exact absurd hmem (by decide)
    · rfl
  | some q =>
    have htake : (q.text ++ rest).takeWhile is_qualifier = q.text := by
      refine takeWhile_exact (h.qualifier q hq) fun c hc => ?_
      by_contra hqualifier
      have htail := qualifier_tail (Bool.not_eq_false _ ▸ hqualifier)
      rw [hrest.not_tail c hc] at htail
      cases htail
    simp only [Option.elim_some, List.cons_append, read_qualifier, htake, if_neg q.filled, List.length_cons]
    omega

/-! ## Alternatives -/

/-- What the pattern finds of a plain alternative. -/
def found (a : Alternative) : List Relation := if is_product a.name.text then [relation a] else []

theorem find_separated (before : Option Char) {rest : Text} (hrest : Separated rest) :
    find before 0 rest = find none 0 rest := by
  cases rest with
  | nil => rfl
  | cons c rest =>
    have hd : 'd' ∉ [c] := by
      rw [List.mem_singleton]
      rcases hrest c rfl with rfl | rfl <;> decide
    have h (before : Option Char) : find before 0 ([c] ++ rest) = find (some c) 0 rest := find_other hd rest
    exact (h before).trans (h none).symm

theorem gap_other (gap : Gap) : 'd' ∉ gap.text := fun hd => absurd (gap.spaces _ hd) (by decide)

/-- Within a name, no match begins. -/
theorem hidden_name {before : Char} {t : Text} (hbefore : is_near before = true) (h : ∀ c ∈ t, is_tail c = true) :
    hidden (some before) t = false := by
  induction t generalizing before with
  | nil => rfl
  | cons c t ih =>
    rw [hidden, Bool.or_eq_false_iff]
    constructor
    · simp [begins, hbefore]
    · exact ih (tail_near (h c List.mem_cons_self)) fun d hd => h d (List.mem_cons_of_mem c hd)

theorem is_product_iff {name : Text} : is_product name = true ↔ ∃ c rest, name = PRODUCT ++ c :: rest := by
  rw [is_product, Bool.and_eq_true, List.isPrefixOf_iff_prefix, decide_eq_true_eq]
  constructor
  · rintro ⟨⟨rest, rfl⟩, hne⟩
    cases rest with
    | nil => exact absurd (List.append_nil _) hne
    | cons c rest => exact ⟨c, rest, rfl⟩
  · rintro ⟨c, rest, rfl⟩
    exact ⟨⟨_, rfl⟩, by simp⟩

/-- Another package's name is passed. -/
theorem hidden_other {before : Option Char} {name : Text} (hname : ∀ c ∈ name, is_tail c = true)
    (hother : is_product name = false) : hidden before name = false := by
  cases name with
  | nil => rfl
  | cons c name =>
    rw [hidden, Bool.or_eq_false_iff]
    constructor
    · rw [Bool.eq_false_iff]
      intro hbegins
      obtain ⟨-, d, rest, hsplit, -⟩ := begins_iff.1 hbegins
      rw [is_product_iff.2 ⟨d, rest, hsplit⟩] at hother
      cases hother
    · exact hidden_name (tail_near (hname c List.mem_cons_self)) fun d hd => hname d (List.mem_cons_of_mem c hd)

/-- `(a.restrictions ++ rest)` without the version. -/
theorem restrictions_paren {a : Alternative} (h : a.version = none) : '(' ∉ a.restrictions := by
  rw [Alternative.restrictions, h, Option.elim_none, List.nil_append]
  have hlist : Only ['[', ']', '<', '>'] (a.architectures.elim [] ArchList.render) :=
    only_option (fun list => (only_list list).mono (by decide)) a.architectures
  have hrest : Only ['[', ']', '<', '>'] (a.groups.flatMap Group.render ++ a.trail.text) :=
    ((only_groups a.groups).mono (by decide)).append ((only_gap a.trail).mono (List.nil_subset _))
  exact (hlist.append hrest).not_mem (by decide) (by decide)

/-- What a match takes. -/
def matched (a : Alternative) : Text := a.head ++ a.version.elim [] Constraint.render

/-- What it leaves. -/
def unmatched (a : Alternative) : Text :=
  a.architectures.elim [] ArchList.render ++ (a.groups.flatMap Group.render ++ a.trail.text)

theorem match_product {a : Alternative} (hlegal : Legal a) (hplain : PlainAlternative a)
    (hproduct : is_product a.name.text = true) {before : Option Char} (hbefore : before.any is_near = false) {rest : Text}
    (hrest : Separated rest) :
    match_at before (matched a ++ (unmatched a ++ rest)) = some (relation a, (matched a).length) := by
  have hfollows := follows_restrictions a hrest
  have hhead : a.head = a.name.text ++ a.qualifier.elim [] fun q => ':' :: q.text := rfl
  have htext : matched a ++ (unmatched a ++ rest) =
      a.name.text ++ ((a.qualifier.elim [] fun q => ':' :: q.text) ++ (a.restrictions ++ rest)) := by
    rw [matched, unmatched, hhead, Alternative.restrictions]
    simp only [List.append_assoc]
  obtain ⟨c, more, hname⟩ := is_product_iff.1 hproduct
  have hbegins : begins before (matched a ++ (unmatched a ++ rest)) = true := by
    refine begins_iff.2 ⟨hbefore, c, more ++ ((a.qualifier.elim [] fun q => ':' :: q.text) ++ (a.restrictions ++ rest)), ?_, ?_⟩
    · rw [htext, hname, List.append_assoc, List.cons_append]
    · exact hlegal.name c (hname ▸ List.mem_append_right _ List.mem_cons_self)
  have hclear := clear_behind a hrest
  rw [behind_name, List.append_assoc] at hclear
  have htake := takeWhile_exact hlegal.name hclear
  have hdrop : (matched a ++ (unmatched a ++ rest)).drop a.head.length = a.restrictions ++ rest := by
    rw [htext, hhead, ← List.append_assoc, List.drop_left]
  have hlength : a.head.length = a.name.text.length + (a.qualifier.elim [] fun q => ':' :: q.text).length := by
    rw [hhead, List.length_append]
  rw [match_at, if_pos hbegins]
  simp only [htext, htake, List.drop_left, read_qualifier_append hlegal hfollows, ← hlength]
  rw [← htext, hdrop]
  cases hversion : a.version with
  | none =>
    rw [read_version_none (restrictions_paren hversion) hrest]
    simp [relation, matched, hversion]
  | some v =>
    obtain ⟨hlead, htrail⟩ := hplain.tight hproduct v hversion
    have hsplit : a.restrictions ++ rest = v.render ++ (unmatched a ++ rest) := by
      rw [Alternative.restrictions, hversion, unmatched]
      simp only [Option.elim_some, List.append_assoc]
    rw [hsplit, read_version_tight hlead htrail (hlegal.version v hversion)]
    simp [relation, matched, hversion]

theorem last_of_append (before : Option Char) (s t : Text) : last_of before (s ++ t) = last_of (last_of before s) t := by
  rw [last_of, last_of, last_of, List.getLast?_append]
  cases t.getLast? <;> rfl

theorem hidden_last {s t : Text} (h : hidden (last_of none s) t = false) (before : Option Char) :
    hidden (last_of before s) t = false := by
  cases hlast : s.getLast? with
  | none =>
    rw [last_of, hlast] at h ⊢
    exact hidden_none h before
  | some c =>
    rw [last_of, hlast] at h ⊢
    exact h

/-- **The pattern finds in an alternative what it says of the product.** -/
theorem find_alternative {a : Alternative} (hlegal : Legal a) (hplain : PlainAlternative a) {before : Option Char}
    (hbefore : before.any is_near = false) {rest : Text} (hrest : Separated rest) :
    find before 0 (a.render ++ rest) = found a ++ find none 0 rest := by
  have hlead : (last_of before a.lead.text).any is_near = false := by
    rw [last_of]
    cases hlast : a.lead.text.getLast? with
    | none => exact hbefore
    | some c =>
      have hspace := a.lead.spaces c (List.mem_of_getLast? hlast)
      rw [Option.some_or, Option.any_some, Bool.eq_false_iff]
      intro hnear
      rw [near_not_space hnear] at hspace
      cases hspace
  have hrest' : Clear rest := by
    intro c hc
    rcases hrest c hc with rfl | rfl <;> decide
  by_cases hproduct : is_product a.name.text = true
  · have htext : a.render ++ rest = a.lead.text ++ (matched a ++ (unmatched a ++ rest)) := by
      rw [Alternative.render, Alternative.restrictions, matched, unmatched]
      simp only [List.append_assoc]
    have hne : matched a ≠ [] := List.append_ne_nil_of_left_ne_nil (head_ne_nil a) _
    have hquiet : hidden (last_of (last_of before a.lead.text) (matched a)) (unmatched a) = false := by
      have hsplit : behind_name a =
          ((a.qualifier.elim [] fun q => ':' :: q.text) ++ a.version.elim [] Constraint.render) ++ unmatched a := by
        rw [behind_name, Alternative.restrictions, unmatched]
        simp only [List.append_assoc]
      have hhidden := hidden_append (hsplit ▸ hplain.quiet)
      rw [matched, Alternative.head, List.append_assoc, last_of_append]
      exact hidden_last hhidden _
    rw [htext, find_other (gap_other a.lead), find_match hne (match_product hlegal hplain hproduct hlead hrest),
      find_quiet hquiet hrest', find_separated _ hrest, found, if_pos hproduct]
    rfl
  · have htext : a.render ++ rest = a.lead.text ++ (a.name.text ++ (behind_name a ++ rest)) := by
      rw [Alternative.render, behind_name, Alternative.head]
      simp only [List.append_assoc]
    rw [htext, find_other (gap_other a.lead), find_quiet (hidden_other hlegal.name (Bool.eq_false_iff.2 hproduct))
      (clear_behind a hrest), find_quiet (hidden_none hplain.quiet _) hrest', find_separated _ hrest, found,
      if_neg hproduct]
    rfl

/-! ## Fields -/

theorem find_char {c : Char} (hc : c ≠ 'd') (before : Option Char) (rest : Text) :
    find before 0 (c :: rest) = find (some c) 0 rest := by
  have hd : 'd' ∉ [c] := fun h => hc (List.mem_singleton.1 h).symm
  exact find_other hd rest

theorem find_others : ∀ {others : List Alternative}, (∀ a ∈ others, Legal a ∧ PlainAlternative a) → ∀ {rest : Text},
    Separated rest → find none 0 ((others.flatMap fun a => '|' :: a.render) ++ rest) = others.flatMap found ++ find none 0 rest
  | [], _, rest, _ => rfl
  | a :: others, h, rest, hrest => by
    have hnext : Separated ((others.flatMap fun a => '|' :: a.render) ++ rest) := by
      cases others with
      | nil => exact hrest
      | cons b others =>
        intro c hc
        cases hc
        exact .inr rfl
    obtain ⟨hlegal, hplain⟩ := h a List.mem_cons_self
    have ih := find_others (fun b hb => h b (List.mem_cons_of_mem a hb)) hrest
    rw [List.flatMap_cons, List.append_assoc, List.cons_append, find_char (by decide),
      find_alternative hlegal hplain (by decide) hnext, ih, List.flatMap_cons, List.append_assoc]

theorem find_entry {e : BuildDeps.Entry} (hlegal : ∀ a ∈ alternatives e, Legal a) (hplain : ∀ a ∈ alternatives e, PlainAlternative a)
    {before : Option Char} (hbefore : before.any is_near = false) {rest : Text} (hrest : Separated rest) :
    find before 0 (e.render ++ rest) = (alternatives e).flatMap found ++ find none 0 rest := by
  have hfirst : e.first ∈ alternatives e := List.mem_cons_self
  have hothers : ∀ a ∈ e.others, Legal a ∧ PlainAlternative a := fun a ha =>
    ⟨hlegal a (List.mem_cons_of_mem _ ha), hplain a (List.mem_cons_of_mem _ ha)⟩
  have hnext : Separated ((e.others.flatMap fun a => '|' :: a.render) ++ rest) := by
    cases e.others with
    | nil => exact hrest
    | cons b others =>
      intro c hc
      cases hc
      exact .inr rfl
  rw [BuildDeps.Entry.render, List.append_assoc, find_alternative (hlegal _ hfirst) (hplain _ hfirst) hbefore hnext,
    find_others hothers hrest, alternatives, List.flatMap_cons, List.append_assoc]

/-- What the pattern finds of a piece. -/
def found_piece : Piece → List Relation
  | .entry e => (alternatives e).flatMap found
  | .blank _ => []

theorem find_piece {piece : Piece} (h : ∀ e, piece = .entry e → ∀ a ∈ alternatives e, Legal a ∧ PlainAlternative a)
    {before : Option Char} (hbefore : before.any is_near = false) {rest : Text} (hrest : Separated rest) :
    find before 0 (piece.render ++ rest) = found_piece piece ++ find none 0 rest := by
  cases piece with
  | entry e => exact find_entry (fun a ha => (h e rfl a ha).1) (fun a ha => (h e rfl a ha).2) hbefore hrest
  | blank gap =>
    rw [Piece.render, find_other (gap_other gap), find_separated _ hrest]
    rfl

theorem intercalate_cons (s t : Text) (ts : List Text) : [','].intercalate (s :: t :: ts) = s ++ ',' :: [','].intercalate (t :: ts) := by
  simp [List.intercalate]

theorem find_pieces : ∀ {field : Field}, (∀ e ∈ field.entries, ∀ a ∈ alternatives e, Legal a ∧ PlainAlternative a) →
    ∀ {before : Option Char}, before.any is_near = false → find before 0 field.render = field.flatMap found_piece
  | [], _, _, _ => rfl
  | [piece], h, before, hbefore => by
    have hpiece : ∀ e, piece = .entry e → ∀ a ∈ alternatives e, Legal a ∧ PlainAlternative a := by
      rintro e rfl
      exact h e (by simp [Field.entries])
    have hone : Field.render [piece] = piece.render ++ [] := by simp [Field.render, List.intercalate]
    rw [hone, find_piece hpiece hbefore (by intro c hc; cases hc), List.flatMap_cons, List.flatMap_nil]
    rfl
  | piece :: next :: field, h, before, hbefore => by
    have hpiece : ∀ e, piece = .entry e → ∀ a ∈ alternatives e, Legal a ∧ PlainAlternative a := by
      rintro e rfl
      exact h e (by simp [Field.entries])
    have hrest : ∀ e ∈ Field.entries (next :: field), ∀ a ∈ alternatives e, Legal a ∧ PlainAlternative a := by
      intro e he
      refine h e ?_
      rw [Field.entries, List.filterMap_cons]
      split
      · exact he
      · exact List.mem_cons_of_mem _ he
    have hsplit : Field.render (piece :: next :: field) = piece.render ++ ',' :: Field.render (next :: field) := by
      rw [Field.render, List.map_cons, List.map_cons, intercalate_cons]
      rfl
    have hcomma : Separated (',' :: Field.render (next :: field)) := by
      intro c hc
      cases hc
      exact .inl rfl
    rw [hsplit, find_piece hpiece hbefore hcomma, find_char (by decide), find_pieces hrest (by decide)]
    exact List.flatMap_cons.symm

theorem found_products (field : Field) : field.flatMap found_piece = (products field).map relation := by
  have halternatives : ∀ as : List Alternative,
      as.flatMap found = (as.filter fun a => is_product a.name.text).map relation := by
    intro as
    induction as with
    | nil => rfl
    | cons a as ih =>
      rw [List.flatMap_cons, ih, found, List.filter_cons]
      split <;> rfl
  induction field with
  | nil => rfl
  | cons piece field ih =>
    cases piece with
    | entry e =>
      have hentries : Field.entries (.entry e :: field) = e :: Field.entries field := rfl
      rw [List.flatMap_cons, ih, products, products, hentries, List.flatMap_cons, List.filter_append, List.map_append,
        found_piece, halternatives]
    | blank gap => exact ih

/-- Every entry of the field is plain. -/
def RelationText.Plain (text : RelationText) : Prop := ∀ e ∈ text.field.entries, PlainEntry e

/-- **Of a plain field, the pattern finds what the field says of the product.** -/
theorem internal_relations_render {text : RelationText} (h : text.Plain) :
    internal_relations text.field.render = (products text.field).map relation := by
  rw [internal_relations, ← found_products]
  exact find_pieces (fun e he a ha => ⟨text.legal e he a ha, (h e he).plain a ha⟩) rfl

/-! ## Alternatives of the product -/

theorem isInfix_iff : ∀ {p s : Text}, isInfix p s = true ↔ p <:+: s
  | p, [] => by rw [isInfix, List.isEmpty_iff, List.infix_nil]
  | p, c :: s => by rw [isInfix, Bool.or_eq_true, List.isPrefixOf_iff_prefix, isInfix_iff, List.infix_cons_iff]

theorem bar_entry (e : BuildDeps.Entry) : '|' ∈ e.render ↔ e.others ≠ [] := by
  have halt (a : Alternative) : '|' ∉ a.render := (only_alternative a).not_mem (by decide) (by decide)
  rw [BuildDeps.Entry.render, List.mem_append, or_iff_right (halt _)]
  cases e.others with
  | nil => simp
  | cons a others => simp

theorem has_alternative_iff (field : Field) : has_alternative_internal_relation field.render = true ↔
    ∃ e ∈ field.entries, isInfix PRODUCT e.render = true ∧ e.others ≠ [] := by
  have hparts : field ≠ [] → field.render.splitOn ',' = field.map Piece.render := by
    intro hne
    refine List.splitOn_intercalate ',' ?_ (by simpa using hne)
    intro part hpart
    obtain ⟨piece, -, rfl⟩ := List.mem_map.1 hpart
    exact comma_piece piece
  cases hfield : field with
  | nil =>
    refine iff_of_false (by decide) ?_
    rintro ⟨e, he, -⟩
    cases he
  | cons piece pieces =>
    rw [has_alternative_internal_relation, ← hfield, hparts (by simp [hfield]), List.any_map, List.any_eq_true]
    constructor
    · rintro ⟨piece, hpiece, hboth⟩
      simp only [Function.comp_apply, Bool.and_eq_true, List.contains_iff_mem] at hboth
      cases piece with
      | entry e => exact ⟨e, List.mem_filterMap.2 ⟨_, hpiece, rfl⟩, hboth.1, (bar_entry e).1 hboth.2⟩
      | blank gap => exact absurd hboth.2 ((only_gap gap).not_mem (by decide) (by decide))
    · rintro ⟨e, he, hnamed, hothers⟩
      obtain ⟨piece, hpiece, hentry⟩ := List.mem_filterMap.1 he
      cases piece with
      | entry e' =>
        cases hentry
        refine ⟨_, hpiece, ?_⟩
        simp only [Function.comp_apply, Bool.and_eq_true, List.contains_iff_mem]
        exact ⟨hnamed, (bar_entry _).2 hothers⟩
      | blank gap => cases hentry

/-- A package of the product stands in the entry's text. -/
theorem infix_product {e : BuildDeps.Entry} {a : Alternative} (ha : a ∈ alternatives e) (hproduct : is_product a.name.text = true) :
    isInfix PRODUCT e.render = true := by
  rw [isInfix_iff]
  obtain ⟨c, more, hname⟩ := is_product_iff.1 hproduct
  have hinner : PRODUCT <:+: a.render := by
    rw [Alternative.render, Alternative.head, hname]
    exact ⟨a.lead.text, c :: more ++ ((a.qualifier.elim [] fun q => ':' :: q.text) ++ a.restrictions), by simp⟩
  refine hinner.trans ?_
  rw [BuildDeps.Entry.render]
  rcases List.mem_cons.1 ha with rfl | ha
  · exact (List.prefix_append _ _).isInfix
  · obtain ⟨front, back, hsplit⟩ := List.append_of_mem ha
    refine ⟨e.first.render ++ ((front.flatMap fun a => '|' :: a.render) ++ ['|']), back.flatMap fun a => '|' :: a.render, ?_⟩
    simp [hsplit]

/-- **In a plain field, an alternative of the product is one that stands there.** -/
theorem has_alternative_render {text : RelationText} (h : text.Plain) :
    has_alternative_internal_relation text.field.render = true ↔
      ∃ e ∈ text.field.entries, e.others ≠ [] ∧ ∃ a ∈ alternatives e, is_product a.name.text = true := by
  rw [has_alternative_iff]
  constructor
  · rintro ⟨e, he, hnamed, hothers⟩
    exact ⟨e, he, hothers, (h e he).named hothers hnamed⟩
  · rintro ⟨e, he, hothers, a, ha, hproduct⟩
    exact ⟨e, he, infix_product ha hproduct, hothers⟩

end PackageMatrix
