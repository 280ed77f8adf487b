import Mathlib.Data.String.Basic
import Mathlib.Data.List.Sort
import Mathlib.Data.List.Basic

/-!
# Python text

A `str` is a `String` (no lone surrogates) and is scanned as its list of characters. The character
classes are those of `str.isdecimal`, `str.isspace` and `re`'s `\d`, which are Unicode classes
(version 15), not ASCII ones.
-/

namespace Py

-- before the decision over all characters that the condition on the members of a text would get
instance (priority := 1100) decidableForallMem {α : Type} (p : α → Prop) [DecidablePred p] (l : List α) :
    Decidable (∀ x ∈ l, p x) := List.decidableBAll p l

/-- The digit zeros of Unicode category `Nd`; the ten digits of a script are consecutive. -/
def decimalZeros : List Nat :=
  [0x30, 0x660, 0x6f0, 0x7c0, 0x966, 0x9e6, 0xa66, 0xae6, 0xb66, 0xbe6, 0xc66, 0xce6, 0xd66, 0xde6,
    0xe50, 0xed0, 0xf20, 0x1040, 0x1090, 0x17e0, 0x1810, 0x1946, 0x19d0, 0x1a80, 0x1a90, 0x1b50,
    0x1bb0, 0x1c40, 0x1c50, 0xa620, 0xa8d0, 0xa900, 0xa9d0, 0xa9f0, 0xaa50, 0xabf0, 0xff10, 0x104a0,
    0x10d30, 0x11066, 0x110f0, 0x11136, 0x111d0, 0x112f0, 0x11450, 0x114d0, 0x11650, 0x116c0,
    0x11730, 0x118e0, 0x11950, 0x11c50, 0x11d50, 0x11da0, 0x11f50, 0x16a60, 0x16ac0, 0x16b50,
    0x1d7ce, 0x1d7d8, 0x1d7e2, 0x1d7ec, 0x1d7f6, 0x1e140, 0x1e2f0, 0x1e4f0, 0x1e950, 0x1fbf0]

/-- Membership in a list of texts is decided by comparing characters. -/
instance lawful_text : LawfulBEq (List Char) := inferInstance

/-- `unicodedata.decimal`: the value of a decimal digit. -/
def decimal (c : Char) : Option Nat :=
  (decimalZeros.find? fun z => z ≤ c.toNat && c.toNat < z + 10).map fun z => c.toNat - z

/-- The digits of `str.isdigit` that are no decimal digits: superscripts, subscripts, circled digits. -/
def digitRanges : List (Nat × Nat) :=
  [(0xb2, 0xb3), (0xb9, 0xb9), (0x1369, 0x1371), (0x19da, 0x19da), (0x2070, 0x2070),
    (0x2074, 0x2079), (0x2080, 0x2089), (0x2460, 0x2468), (0x2474, 0x247c), (0x2488, 0x2490),
    (0x24ea, 0x24ea), (0x24f5, 0x24fd), (0x24ff, 0x24ff), (0x2776, 0x277e), (0x2780, 0x2788),
    (0x278a, 0x2792), (0x10a40, 0x10a43), (0x10e60, 0x10e68), (0x11052, 0x1105a),
    (0x1f100, 0x1f10a)]

/-- `str.isdigit` of one character. -/
def isDigit (c : Char) : Bool :=
  (decimal c).isSome || digitRanges.any fun r => r.1 ≤ c.toNat && c.toNat ≤ r.2

/-- `str.isspace` of one character. -/
def isSpace (c : Char) : Bool :=
  let n := c.toNat
  (9 ≤ n && n ≤ 13) || (0x1c ≤ n && n ≤ 0x20) || n == 0x85 || n == 0xa0 || n == 0x1680 ||
    (0x2000 ≤ n && n ≤ 0x200a) || n == 0x2028 || n == 0x2029 || n == 0x202f || n == 0x205f ||
    n == 0x3000

/-- `[\x00-\x1f\x7f]`. -/
def isControl (c : Char) : Bool := c.toNat ≤ 0x1f || c.toNat == 0x7f

def isAsciiDigit (c : Char) : Bool := '0' ≤ c && c ≤ '9'
def isAsciiLower (c : Char) : Bool := 'a' ≤ c && c ≤ 'z'
def isAsciiUpper (c : Char) : Bool := 'A' ≤ c && c ≤ 'Z'
def isAsciiAlnum (c : Char) : Bool := isAsciiDigit c || isAsciiLower c || isAsciiUpper c
def isAsciiAlpha (c : Char) : Bool := isAsciiLower c || isAsciiUpper c
def isLowerHex (c : Char) : Bool := isAsciiDigit c || ('a' ≤ c && c ≤ 'f')

theorem isAsciiDigit_iff {c : Char} : isAsciiDigit c = true ↔ 48 ≤ c.toNat ∧ c.toNat ≤ 57 := by
  simp [isAsciiDigit, Char.le_def, UInt32.le_iff_toNat_le]

theorem isAsciiAlpha_iff {c : Char} : isAsciiAlpha c = true ↔
    (97 ≤ c.toNat ∧ c.toNat ≤ 122) ∨ (65 ≤ c.toNat ∧ c.toNat ≤ 90) := by
  simp [isAsciiAlpha, isAsciiLower, isAsciiUpper, Char.le_def, UInt32.le_iff_toNat_le]

/-- `str.isdecimal`. -/
def isdecimal (s : String) : Bool := s.toList ≠ [] && s.toList.all fun c => (decimal c).isSome

/-- `str.isdigit`. -/
def isdigit (s : String) : Bool := s.toList ≠ [] && s.toList.all isDigit

/-- `int(s)` of a decimal string. -/
def intOf (s : String) : Nat := s.toList.foldl (fun n c => 10 * n + (decimal c).getD 0) 0

/-- `re.fullmatch` of a character class repeated between `lo` and `hi` times. -/
def fullmatchClass (cls : Char → Bool) (lo : Nat) (hi : Option Nat) (s : List Char) : Bool :=
  s.all cls && lo ≤ s.length && (hi.all fun h => s.length ≤ h)

/-- `s.startswith(p)`. -/
def startswith (s p : String) : Bool := p.toList.isPrefixOf s.toList

/-- `s.endswith(p)`. -/
def endswith (s p : String) : Bool := p.toList.isSuffixOf s.toList

/-- `p in s`. -/
def isInfix : List Char → List Char → Bool
  | p, [] => p.isEmpty
  | p, c :: cs => p.isPrefixOf (c :: cs) || isInfix p cs

def contains (s p : String) : Bool := isInfix p.toList s.toList

/-- `s.partition(sep)`, where `sep` occurs: what is before and after its first occurrence. -/
def partition (sep : Char) (s : List Char) : List Char × List Char :=
  (s.takeWhile (· ≠ sep), (s.dropWhile (· ≠ sep)).tail)

/-- `s.rpartition(sep)`, where `sep` occurs: what is before and after its last occurrence. -/
def rpartition (sep : Char) (s : List Char) : List Char × List Char :=
  let p := partition sep s.reverse
  (p.2.reverse, p.1.reverse)

/-- `s.strip()` differs from `s`. -/
def padded (s : String) : Bool :=
  (s.toList.head?.any isSpace) || (s.toList.getLast?.any isSpace)

/-- `sorted(d.items())` of a dict: the keys are distinct, so only they are compared. -/
def sortedItems {V : Type} (d : List (String × V)) : List (String × V) :=
  d.insertionSort fun a b => a.1 ≤ b.1

/-- `s.removesuffix(p)`. -/
def removesuffix (s p : String) : String :=
  if endswith s p then String.ofList (s.toList.take (s.toList.length - p.toList.length)) else s

/-- Universal newlines: what a text file gives for its line ends. -/
def universalNewlines : List Char → List Char
  | [] => []
  | '\r' :: '\n' :: rest => '\n' :: universalNewlines rest
  | '\r' :: rest => '\n' :: universalNewlines rest
  | c :: rest => c :: universalNewlines rest

/-- The line boundaries of `str.splitlines`. -/
def isLineBreak (c : Char) : Bool :=
  let n := c.toNat
  (10 ≤ n && n ≤ 13) || (0x1c ≤ n && n ≤ 0x1e) || n == 0x85 || n == 0x2028 || n == 0x2029

def splitlinesFrom (line : List Char) : List Char → List (List Char)
  | [] => if line = [] then [] else [line]
  | '\r' :: '\n' :: rest => line :: splitlinesFrom [] rest
  | c :: rest => if isLineBreak c then line :: splitlinesFrom [] rest else splitlinesFrom (line ++ [c]) rest

/-- `s.splitlines()`. -/
def splitlines (s : List Char) : List (List Char) := splitlinesFrom [] s

/-- `s.partition(sep)` of a longer separator, if it occurs. -/
def partitionOn (sep : List Char) : List Char → Option (List Char × List Char)
  | [] => none
  | c :: cs =>
    if sep.isPrefixOf (c :: cs) then some ([], (c :: cs).drop sep.length)
    else (partitionOn sep cs).map fun p => (c :: p.1, p.2)

theorem startswith_iff {s p : String} : startswith s p = true ↔ ∃ t, s = p ++ t := by
  simp only [startswith, List.isPrefixOf_iff_prefix]
  constructor
  · rintro ⟨t, ht⟩
    exact ⟨String.ofList t, String.toList_inj.1 (by simp [← ht])⟩
  · rintro ⟨t, rfl⟩
    exact ⟨t.toList, by simp⟩

/-- A common beginning shares its first character. -/
theorem startswith_head {s p : String} {c : Char} (h : startswith s p = true)
    (hp : p.toList.head? = some c) : s.toList.head? = some c := by
  obtain ⟨t, rfl⟩ := startswith_iff.1 h
  rw [String.toList_append, List.head?_append, hp]
  rfl

theorem endswith_iff {s p : String} : endswith s p = true ↔ ∃ t, s = t ++ p := by
  simp only [endswith, List.isSuffixOf_iff_suffix]
  constructor
  · rintro ⟨t, ht⟩
    exact ⟨String.ofList t, String.toList_inj.1 (by simp [← ht])⟩
  · rintro ⟨t, rfl⟩
    exact ⟨t.toList, by simp⟩

theorem removesuffix_append (s p : String) : removesuffix (s ++ p) p = s := by
  rw [removesuffix, if_pos (endswith_iff.2 ⟨s, rfl⟩), String.toList_append, List.length_append,
    Nat.add_sub_cancel, List.take_left, String.ofList_toList]

/-- The end of a text decides which suffixes it has. -/
theorem endswith_append {a b p : String} (h : p.toList.length ≤ b.toList.length) :
    endswith (a ++ b) p = endswith b p := by
  rw [Bool.eq_iff_iff, endswith, endswith, List.isSuffixOf_iff_suffix, List.isSuffixOf_iff_suffix,
    String.toList_append]
  constructor
  · intro hp
    exact List.suffix_of_suffix_length_le hp (List.suffix_append _ _) h
  · rintro ⟨t, ht⟩
    exact ⟨a.toList ++ t, by rw [List.append_assoc, ht]⟩

theorem universalNewlines_plain : ∀ {s : List Char}, '\r' ∉ s → universalNewlines s = s
  | [], _ => rfl
  | c :: rest, h => by
    rw [List.mem_cons, not_or] at h
    have hrest := universalNewlines_plain h.2
    rw [universalNewlines, hrest]
    · rintro rest' rfl
      exact absurd rfl h.1
    · rintro rfl
      exact absurd rfl h.1

theorem not_mem_universalNewlines (s : List Char) : '\r' ∉ universalNewlines s := by
  fun_induction universalNewlines s with
  | case1 => simp
  | case2 rest ih => simpa using ih
  | case3 rest _ ih => simpa using ih
  | case4 c rest hc hc' ih =>
    rw [List.mem_cons, not_or]
    refine ⟨?_, ih⟩
    rintro rfl
    exact hc' rfl

/-- Universal newlines change a text iff it has a carriage return. -/
theorem universalNewlines_eq_iff {s : List Char} : universalNewlines s = s ↔ '\r' ∉ s := by
  constructor
  · intro h hmem
    rw [← h] at hmem
    exact not_mem_universalNewlines s hmem
  · exact universalNewlines_plain

theorem splitlinesFrom_line {a : List Char} (h : ∀ c ∈ a, isLineBreak c = false) (line rest : List Char) :
    splitlinesFrom line (a ++ '\n' :: rest) = (line ++ a) :: splitlinesFrom [] rest := by
  induction a generalizing line with
  | nil =>
    rw [List.nil_append, splitlinesFrom, if_pos (by decide), List.append_nil]
    simp
  | cons c a ih =>
    have hc : isLineBreak c = false := h c List.mem_cons_self
    rw [List.cons_append, splitlinesFrom, if_neg (by rw [hc]; decide),
      ih fun d hd => h d (List.mem_cons_of_mem _ hd)]
    · simp
    · rintro rest' rfl
      exact absurd hc (by decide)

/-- The lines of a text that ends every line. -/
theorem splitlines_lines {lines : List (List Char)} (h : ∀ l ∈ lines, ∀ c ∈ l, isLineBreak c = false) :
    splitlines (lines.flatMap fun l => l ++ ['\n']) = lines := by
  induction lines with
  | nil => rfl
  | cons l lines ih =>
    rw [splitlines, List.flatMap_cons, List.append_assoc, List.singleton_append,
      splitlinesFrom_line (h l List.mem_cons_self), List.nil_append]
    exact congrArg _ (ih fun l' hl' => h l' (List.mem_cons_of_mem _ hl'))

theorem partitionOn_append {sep : Char} {a : List Char} (h : sep ∉ a) (rest : List Char) :
    partitionOn [sep, sep] (a ++ sep :: sep :: rest) = some (a, rest) := by
  induction a with
  | nil => simp [partitionOn]
  | cons c a ih =>
    rw [List.mem_cons, not_or] at h
    rw [List.cons_append, partitionOn, if_neg (by simp [h.1]), ih h.2]
    rfl

theorem perm_sortedItems {V : Type} (d : List (String × V)) : (sortedItems d).Perm d :=
  List.perm_insertionSort _ _

@[simp] theorem mem_sortedItems {V : Type} {d : List (String × V)} {x : String × V} :
    x ∈ sortedItems d ↔ x ∈ d := (perm_sortedItems d).mem_iff

theorem partition_append {sep : Char} {a : List Char} (h : sep ∉ a) (b : List Char) :
    partition sep (a ++ sep :: b) = (a, b) := by
  have ha : ∀ c ∈ a, decide (c ≠ sep) = true := fun c hc => by
    simpa using fun h0 => h (by rw [← h0]; exact hc)
  rw [partition, List.takeWhile_append_of_pos ha, List.dropWhile_append_of_pos ha]
  simp

/-- The first occurrence splits. -/
theorem partition_mem {sep : Char} {s : List Char} (h : sep ∈ s) :
    ∃ a b, sep ∉ a ∧ s = a ++ sep :: b := by
  obtain ⟨a, b, hs, ha⟩ := List.eq_append_cons_of_mem h
  exact ⟨a, b, ha, hs⟩

theorem rpartition_append {sep : Char} {b : List Char} (h : sep ∉ b) (a : List Char) :
    rpartition sep (a ++ sep :: b) = (a, b) := by
  have hrev : (a ++ sep :: b).reverse = b.reverse ++ sep :: a.reverse := by simp
  rw [rpartition, hrev, partition_append (by simpa using h)]
  simp

/-- The last occurrence splits. -/
theorem rpartition_mem {sep : Char} {s : List Char} (h : sep ∈ s) :
    ∃ a b, sep ∉ b ∧ s = a ++ sep :: b := by
  obtain ⟨a, b, ha, hs⟩ := partition_mem (List.mem_reverse.2 h)
  refine ⟨b.reverse, a.reverse, by simpa using ha, ?_⟩
  rw [← List.reverse_reverse s, hs]
  simp

/-- A padded text has a space. -/
theorem padded_space {s : String} (h : padded s = true) : s.toList.any isSpace = true := by
  rw [padded, Bool.or_eq_true, Option.any_eq_true, Option.any_eq_true] at h
  rw [List.any_eq_true]
  rcases h with ⟨c, hc, hsp⟩ | ⟨c, hc, hsp⟩
  · exact ⟨c, List.mem_of_head? hc, hsp⟩
  · exact ⟨c, List.mem_of_getLast? hc, hsp⟩

end Py
