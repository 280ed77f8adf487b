import Mathlib.Data.List.Dedup
import Mathlib.Data.List.Sort
import Mathlib.Data.String.Basic
import DkcLinux.Text.Words
import DkcLinux.Records

/-!
# Build-dependency fields (`dkc/builddeps.py:40-137`)

`parse_field` reads a field with regular expressions, `filter_dependencies` picks the names that apply. Below them
stand the grammar of a field (entries of alternatives, with blanks wherever they may stand) and which names it
selects.
-/

namespace BuildDeps

open Py

abbrev Text := List Char

structure Dependency where
  name : Text
  architectures : List Text
  profile_groups : List (List Text)
  raw : Text
deriving DecidableEq

namespace Dependency

def architecture_matches (d : Dependency) (architecture : Text) : Except PyErr Bool :=
  if d.architectures = [] then .ok true
  else
    let negated := d.architectures.filter fun a => a.head? = some '!'
    if negated ≠ [] then
      if negated.length ≠ d.architectures.length then
        .error (.ValueError "mixed negated architecture list in " [String.ofList d.raw])
      else .ok (¬ negated.any fun a => a.tail = architecture)
    else .ok (architecture ∈ d.architectures ∨ "linux-any".toList ∈ d.architectures ∨ "any".toList ∈ d.architectures)

def term_matches (profiles : List Text) (term : Text) : Bool :=
  if term.head? = some '!' then term.tail ∉ profiles else term ∈ profiles

def profiles_match (d : Dependency) (profiles : List Text) : Bool :=
  d.profile_groups = [] || d.profile_groups.any fun group => group.all (term_matches profiles)

def applies_to (d : Dependency) (architecture : Text) (profiles : List Text) : Except PyErr Bool := do
  if ← d.architecture_matches architecture then return d.profiles_match profiles else return false

end Dependency

/-! ## Parsing -/

/-- `[^\[]*\]`: the next bracket closes. -/
def closes (rest : Text) : Bool := rest.find? (fun c => c = '[' ∨ c = ']') = some ']'

/-- `_TOP_LEVEL_COMMA.split`, after the characters `w` of an item. -/
def splitFrom : Text → Text → List Text
  | w, [] => [w]
  | w, c :: cs => if c = ',' ∧ ¬ closes cs then w :: splitFrom [] cs else splitFrom (w ++ [c]) cs

def top_level_split (text : Text) : List Text := splitFrom [] text

/-- `[^\s(\[<|]`. -/
def isNameChar (c : Char) : Bool := !isSpace c && c ≠ '(' && c ≠ '[' && c ≠ '<' && c ≠ '|'

def removesuffix (name suffix : Text) : Text :=
  if suffix <:+ name then name.take (name.length - suffix.length) else name

def parse_item (item : Text) : Except PyErr Dependency :=
  let architectures := match (enclosed '[' ']' item).head? with
    | none => []
    | some group => words group
  let profile_groups := (enclosed '<' '>' item).map words
  let first_alternative := strip (item.takeWhile (· ≠ '|'))
  let name := first_alternative.takeWhile isNameChar
  if name = [] then .error (.ValueError "cannot parse a package name from " [String.ofList item])
  else .ok {
    name := removesuffix (removesuffix name ":native".toList) ":any".toList
    architectures := architectures
    profile_groups := profile_groups
    raw := item }

def parse_field (text : Text) : Except PyErr (List Dependency) :=
  (((top_level_split text).map squeeze).filter (· ≠ [])).mapM parse_item

/-- The names of the dependencies that apply, in order. -/
def applied (architecture : Text) (profiles : List Text) : List Dependency → Except PyErr (List Text)
  | [] => .ok []
  | d :: ds => do
    let applies ← d.applies_to architecture profiles
    let names ← applied architecture profiles ds
    return if applies then d.name :: names else names

def sorted (names : List Text) : List Text := names.dedup.insertionSort (· ≤ ·)

def filter_dependencies (dependencies : List Dependency) (architecture : Text) (profiles : List Text) :
    Except PyErr (List Text) := do
  return sorted (← applied architecture profiles dependencies)

/-! ## The grammar -/

def isWordChar (c : Char) : Bool := !isSpace c && c ∉ "()[]<>|,:!=".toList

structure Word where
  text : Text
  filled : text ≠ []
  clean : ∀ c ∈ text, isWordChar c = true

structure Gap where
  text : Text
  spaces : ∀ c ∈ text, isSpace c = true

/-- A gap that is not empty. -/
structure Blank extends Gap where
  filled : text ≠ []

/-- Words in brackets. -/
structure Phrase (α : Type) where
  lead : Gap
  first : α
  more : List (Blank × α)
  trail : Gap

namespace Phrase

variable {α : Type}

def all (phrase : Phrase α) : List α := phrase.first :: phrase.more.map (·.2)

def spellMore (f : α → Text) (trail : Gap) : List (Blank × α) → Text
  | [] => trail.text
  | (blank, x) :: more => blank.text ++ (f x ++ spellMore f trail more)

def spell (f : α → Text) (phrase : Phrase α) : Text :=
  phrase.lead.text ++ (f phrase.first ++ spellMore f phrase.trail phrase.more)

end Phrase

inductive Op where
  | lt_lt
  | lt_eq
  | eq
  | gt_eq
  | gt_gt
deriving DecidableEq

def Op.text : Op → Text
  | .lt_lt => ['<', '<']
  | .lt_eq => ['<', '=']
  | .eq => ['=']
  | .gt_eq => ['>', '=']
  | .gt_gt => ['>', '>']

def isVersionChar (c : Char) : Bool := !isSpace c && c ∉ "()[]<>|,".toList

/-- A version constraint in parentheses. -/
structure Constraint where
  before : Gap
  op_lead : Gap
  op : Op
  version_lead : Gap
  version : Text
  trail : Gap
  clean : ∀ c ∈ version, isVersionChar c = true

def Constraint.render (v : Constraint) : Text :=
  v.before.text ++ '(' :: (v.op_lead.text ++ (v.op.text ++ (v.version_lead.text ++ (v.version ++ (v.trail.text ++ [')'])))))

/-- An architecture list, all of it negated or none. -/
structure ArchList where
  before : Gap
  negated : Bool
  names : Phrase Word

def ArchList.term (list : ArchList) (name : Word) : Text := if list.negated then '!' :: name.text else name.text

def ArchList.render (list : ArchList) : Text := list.before.text ++ '[' :: (list.names.spell list.term ++ [']'])

/-- A profile name in a group, negated or not. -/
structure Term where
  negated : Bool
  name : Word

def Term.text (term : Term) : Text := if term.negated then '!' :: term.name.text else term.name.text

structure Group where
  before : Gap
  terms : Phrase Term

def Group.render (group : Group) : Text := group.before.text ++ '<' :: (group.terms.spell Term.text ++ ['>'])

structure Alternative where
  lead : Gap
  name : Word
  qualifier : Option Word
  version : Option Constraint
  architectures : Option ArchList
  groups : List Group
  trail : Gap

namespace Alternative

/-- The name and its multiarch qualifier. -/
def head (a : Alternative) : Text := a.name.text ++ (a.qualifier.elim [] fun q => ':' :: q.text)

def restrictions (a : Alternative) : Text :=
  a.version.elim [] Constraint.render ++ (a.architectures.elim [] ArchList.render ++
    (a.groups.flatMap Group.render ++ a.trail.text))

def render (a : Alternative) : Text := a.lead.text ++ (a.head ++ a.restrictions)

end Alternative

structure Entry where
  first : Alternative
  others : List Alternative

def Entry.render (e : Entry) : Text := e.first.render ++ e.others.flatMap fun a => '|' :: a.render

/-- What stands between commas: an entry, or blanks. -/
inductive Piece where
  | entry (e : Entry)
  | blank (gap : Gap)

def Piece.render : Piece → Text
  | .entry e => e.render
  | .blank gap => gap.text

abbrev Field := List Piece

def Field.render (field : Field) : Text := [','].intercalate (field.map Piece.render)

def Field.entries (field : Field) : List Entry := field.filterMap fun
  | .entry e => some e
  | .blank _ => none

/-! ## What the field says -/

/-- A name in a list stands for the architecture. -/
def covers (architecture : Text) (name : Word) : Prop :=
  name.text = architecture ∨ name.text = "any".toList ∨ name.text = "linux-any".toList

instance (architecture : Text) (name : Word) : Decidable (covers architecture name) := inferInstanceAs (Decidable (_ ∨ _))

def ArchList.Holds (list : ArchList) (architecture : Text) : Prop :=
  if list.negated then ∀ name ∈ list.names.all, ¬ covers architecture name
  else ∃ name ∈ list.names.all, covers architecture name

instance (list : ArchList) (architecture : Text) : Decidable (list.Holds architecture) :=
  inferInstanceAs (Decidable (if list.negated then ∀ name ∈ list.names.all, ¬ covers architecture name
    else ∃ name ∈ list.names.all, covers architecture name))

/-- A profile set. -/
abbrev Profiles := List Word

def Profiles.texts (profiles : Profiles) : List Text := profiles.map (·.text)

def Term.Holds (term : Term) (profiles : Profiles) : Prop :=
  if term.negated then term.name.text ∉ profiles.texts else term.name.text ∈ profiles.texts

instance (term : Term) (profiles : Profiles) : Decidable (term.Holds profiles) :=
  inferInstanceAs (Decidable (if term.negated then term.name.text ∉ profiles.texts else term.name.text ∈ profiles.texts))

def Group.Holds (group : Group) (profiles : Profiles) : Prop := ∀ term ∈ group.terms.all, term.Holds profiles

instance (group : Group) (profiles : Profiles) : Decidable (group.Holds profiles) :=
  inferInstanceAs (Decidable (∀ _ ∈ _, _))

/-- The alternative's own restrictions hold. -/
def Alternative.Holds (a : Alternative) (architecture : Text) (profiles : Profiles) : Prop :=
  (∀ list ∈ a.architectures, list.Holds architecture) ∧
    (a.groups = [] ∨ ∃ group ∈ a.groups, group.Holds profiles)

instance (a : Alternative) (architecture : Text) (profiles : Profiles) : Decidable (a.Holds architecture profiles) :=
  inferInstanceAs (Decidable (_ ∧ (_ ∨ _)))

/-- The names of the first alternatives that hold. -/
def Field.selected (field : Field) (architecture : Text) (profiles : Profiles) : List Text :=
  sorted ((field.entries.filter fun e => e.first.Holds architecture profiles).map fun e => e.first.name.text)

end BuildDeps
