import Mathlib.Data.List.DropRight
import Mathlib.Data.List.Infix
import DkcLinux.Text.Lines

/-!
# POSIX paths (`posixpath`)

A path is a text, its parts are what stands between the slashes. `Covers p q` is the order of the tree: `q` is `p` or lies
below it. Two paths that cover a third one are comparable (`covers_or_covers`), so trees whose roots are not comparable have
no path in common.
-/

namespace Py

namespace Path

abbrev Text := List Char

def parts (p : Text) : List Text := p.splitOn '/'

/-- `q.startswith(p + "/")`. -/
def inside (p q : Text) : Bool := (p ++ ['/']).isPrefixOf q

/-- `q` is `p` or lies below it. -/
def Covers (p q : Text) : Prop := p = q ∨ inside p q = true

/-! ## `normpath`, `join`, `dirname` -/

/-- The loop of `normpath`, over the parts taken so far in reverse. -/
def normalize (absolute : Bool) : List Text → List Text → List Text
  | taken, [] => taken.reverse
  | taken, part :: rest =>
    if part = [] ∨ part = ['.'] then normalize absolute taken rest
    else if part ≠ ['.', '.'] ∨ (absolute = false ∧ taken = []) ∨ taken.head? = some ['.', '.'] then
      normalize absolute (part :: taken) rest
    else normalize absolute taken.tail rest

/-- POSIX leaves two leading slashes as they are, and makes one of three. -/
def initial_slashes : Text → Nat
  | '/' :: '/' :: '/' :: _ => 1
  | '/' :: '/' :: _ => 2
  | '/' :: _ => 1
  | _ => 0

def normpath (p : Text) : Text :=
  let path := List.replicate (initial_slashes p) '/' ++
    List.intercalate ['/'] (normalize (initial_slashes p ≠ 0) [] (parts p))
  if path = [] then ['.'] else path

def join (a b : Text) : Text :=
  if b.head? = some '/' then b else if a = [] ∨ a.getLast? = some '/' then a ++ b else a ++ '/' :: b

/-- `p.rstrip("/")`. -/
def rstrip (p : Text) : Text := p.rdropWhile (· = '/')

/-- What stands up to the last slash, without slashes at its end unless there is nothing else. -/
def dirname (p : Text) : Text :=
  let head := p.rdropWhile (· ≠ '/')
  if rstrip head = [] then head else rstrip head

/-! ## The order of the tree -/

theorem parts_append (p q : Text) : parts (p ++ '/' :: q) = parts p ++ parts q := List.splitOn_append_cons_self p q

theorem parts_single {p : Text} (h : '/' ∉ p) : parts p = [p] := List.splitOn_eq_singleton h

theorem parts_inj {p q : Text} (h : parts p = parts q) : p = q := by
  have hjoin : List.intercalate ['/'] (parts p) = List.intercalate ['/'] (parts q) := by rw [h]
  rwa [parts, parts, List.intercalate_splitOn, List.intercalate_splitOn] at hjoin

theorem inside_iff {p q : Text} : inside p q = true ↔ ∃ rest, q = p ++ '/' :: rest := by
  rw [inside, List.isPrefixOf_iff_prefix]
  constructor
  · rintro ⟨rest, rfl⟩
    exact ⟨rest, by simp⟩
  · rintro ⟨rest, rfl⟩
    exact ⟨rest, by simp⟩

theorem covers_iff {p q : Text} : Covers p q ↔ parts p <+: parts q := by
  constructor
  · rintro (rfl | h)
    · exact List.prefix_rfl
    · obtain ⟨rest, rfl⟩ := inside_iff.1 h
      rw [parts_append]
      exact List.prefix_append _ _
  · rintro ⟨rest, h⟩
    cases rest with
    | nil =>
      rw [List.append_nil] at h
      exact .inl (parts_inj h)
    | cons part rest =>
      refine .inr (inside_iff.2 ⟨List.intercalate ['/'] (part :: rest), ?_⟩)
      have hslash : ∀ x ∈ part :: rest, '/' ∉ x := by
        intro x hx
        exact not_mem_of_mem_splitOn (h ▸ List.mem_append_right _ hx)
      refine parts_inj ?_
      rw [parts_append, ← h]
      exact congrArg _ (List.splitOn_intercalate '/' hslash (by simp)).symm

theorem Covers.refl (p : Text) : Covers p p := .inl rfl

theorem Covers.trans {p q r : Text} (hpq : Covers p q) (hqr : Covers q r) : Covers p r :=
  covers_iff.2 ((covers_iff.1 hpq).trans (covers_iff.1 hqr))

theorem covers_or_covers {p q r : Text} (hp : Covers p r) (hq : Covers q r) : Covers p q ∨ Covers q p := by
  rw [covers_iff, covers_iff]
  exact List.prefix_or_prefix_of_prefix (covers_iff.1 hp) (covers_iff.1 hq)

/-- A path is a text prefix of what it covers. -/
theorem Covers.text_le {p q : Text} (h : Covers p q) : p <+: q := by
  rcases h with rfl | h
  · exact List.prefix_rfl
  · obtain ⟨rest, rfl⟩ := inside_iff.1 h
    exact List.prefix_append _ _

/-- Two paths of one depth are not above each other. -/
theorem Covers.eq_of_depth {p q : Text} (h : Covers p q) (hdepth : (parts p).length = (parts q).length) : p = q :=
  parts_inj ((covers_iff.1 h).eq_of_length hdepth)

/-! ## Normal paths -/

/-- A relative path with nothing for `normpath` to do. -/
def Normal (p : Text) : Prop := ∀ part ∈ parts p, part ≠ [] ∧ part ≠ ['.'] ∧ part ≠ ['.', '.']

theorem normalize_down {absolute : Bool} {taken rest : List Text} (h : ['.', '.'] ∉ rest) :
    normalize absolute taken rest = taken.reverse ++ rest.filter fun part => part ≠ [] ∧ part ≠ ['.'] := by
  induction rest generalizing taken with
  | nil => simp [normalize]
  | cons part rest ih =>
    have hrest : ['.', '.'] ∉ rest := fun hmem => h (List.mem_cons_of_mem _ hmem)
    have hpart : part ≠ ['.', '.'] := fun hup => h (hup ▸ List.mem_cons_self)
    by_cases hskip : part = [] ∨ part = ['.']
    · have hdrop : ¬(part ≠ [] ∧ part ≠ ['.']) := fun hkeep => hskip.elim hkeep.1 hkeep.2
      rw [normalize, if_pos hskip, ih hrest, List.filter_cons_of_neg (by simpa using hdrop)]
    · have hkeep : part ≠ [] ∧ part ≠ ['.'] := not_or.1 hskip
      rw [normalize, if_neg hskip, if_pos (.inl hpart), ih hrest, List.filter_cons_of_pos (by simpa using hkeep)]
      simp

/-- `normpath` of a relative path that never goes up. -/
theorem normpath_normal {p : Text} (habsolute : p.head? ≠ some '/') (hup : ['.', '.'] ∉ parts p) (hdot : normpath p ≠ ['.']) :
    Normal (normpath p) := by
  have hslashes : initial_slashes p = 0 := by
    unfold initial_slashes
    split <;> simp_all
  have hnormal : normpath p = List.intercalate ['/'] ((parts p).filter fun part => part ≠ [] ∧ part ≠ ['.']) := by
    unfold normpath at hdot ⊢
    simp only [hslashes, normalize_down hup, List.replicate_zero, List.nil_append, List.reverse_nil] at hdot ⊢
    split at hdot
    · exact absurd rfl hdot
    · next hne => rw [if_neg hne]
  have hkept : (parts p).filter (fun part => part ≠ [] ∧ part ≠ ['.']) ≠ [] := by
    intro hnil
    rw [hnil] at hnormal
    have hzero : normpath p ≠ [] := by
      unfold normpath
      simp only
      split <;> simp_all
    exact hzero hnormal
  have hparts : parts (normpath p) = (parts p).filter fun part => part ≠ [] ∧ part ≠ ['.'] := by
    rw [hnormal]
    exact List.splitOn_intercalate '/' (fun part hpart => not_mem_of_mem_splitOn (List.mem_filter.1 hpart).1) hkept
  intro part hpart
  rw [hparts] at hpart
  obtain ⟨hmem, hkeep⟩ := List.mem_filter.1 hpart
  have hkeep : part ≠ [] ∧ part ≠ ['.'] := by simpa using hkeep
  exact ⟨hkeep.1, hkeep.2, fun h => hup (h ▸ hmem)⟩

end Path

end Py
