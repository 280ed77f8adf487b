import DkcLinux.VersionOrder
import DkcLinux.Text.Dict
import DkcLinux.Text.Words
import DkcLinux.Text.JsonSchema
import DkcLinux.Order.Grouping

/-!
# The newest source (`dkc/sources.py`)

`parse_sources` reads every stanza of a package from a `Sources` index, and `select_newest` goes through
them with `compare`. The loop keeps the stanza it has until a newer one comes: it is `Grouping.maxBy`, so
its result is the first of the newest stanzas (`select_newest_eq_ok`).

| what a file states | where it is checked |
|---|---|
| a plain member name, a positive size, a SHA-256 | `SourceFile.make` |
| one `.dsc` member | `SourceStanza.make` |
| distinct members, a directory inside the archive | `parse_checksums`, `read_stanza` |
-/

open Py

namespace Sources

/-- `MalformedIndex`, or the exception of another module. -/
inductive SourcesError where
  | MalformedIndex (msg : String) (shown : List String := [])
  | raised (e : PyErr)
deriving Repr, DecidableEq

/-! ## The members -/

/-- `_MEMBER_RE`: `^[A-Za-z0-9][A-Za-z0-9._+~-]*$`. -/
def isMember (s : List Char) : Bool :=
  s.head?.any isAsciiAlnum && s.all fun c => isAsciiAlnum c || ['.', '_', '+', '~', '-'].contains c

/-- `_DIRECTORY_RE`: slashes as well. -/
def isDirectory (s : List Char) : Bool :=
  s.head?.any isAsciiAlnum && s.all fun c => isAsciiAlnum c || ['.', '_', '+', '~', '/', '-'].contains c

/-- `_SHA256_RE`: `^[0-9a-f]{64}$`. -/
def isHash (s : List Char) : Bool := fullmatchClass isLowerHex 64 (some 64) s

end Sources

open Sources

/-- One member of a source package, with the hash the index declares. -/
structure SourceFile where
  name : String
  size : Int
  sha256 : String
  plain_name : Json.searches isMember name.toList = true
  size_pos : 0 < size
  declared_hash : Json.searches isHash sha256.toList = true
deriving DecidableEq

namespace SourceFile

/-- `SourceFile(name, size, sha256)`. -/
def make (name : String) (size : Int) (sha256 : String) : Except SourcesError SourceFile :=
  if hname : Json.searches isMember name.toList = true then
    if hsize : 0 < size then
      if hsha : Json.searches isHash sha256.toList = true then .ok ⟨name, size, sha256, hname, hsize, hsha⟩
      else .error (.MalformedIndex ("malformed SHA-256 for " ++ name) [sha256])
    else .error (.MalformedIndex ("non-positive size for " ++ name ++ ": " ++ toString size))
  else .error (.MalformedIndex "unsafe source member name" [name])

theorem make_eq_ok {name : String} {size : Int} {sha256 : String} {file : SourceFile} :
    make name size sha256 = .ok file ↔ file.name = name ∧ file.size = size ∧ file.sha256 = sha256 := by
  constructor
  · intro h
    unfold make at h
    split_ifs at h
    cases h
    exact ⟨rfl, rfl, rfl⟩
  · rintro ⟨rfl, rfl, rfl⟩
    rw [make, dif_pos file.plain_name, dif_pos file.size_pos, dif_pos file.declared_hash]

def is_dsc (file : SourceFile) : Bool := endswith file.name ".dsc"

end SourceFile

/-! ## The stanzas -/

/-- One `Package`/`Version` stanza of a `Sources` index. -/
structure SourceStanza where
  package : String
  version : DebianVersion
  directory : String
  files : List SourceFile
  one_dsc : files.countP SourceFile.is_dsc = 1
deriving DecidableEq

namespace SourceStanza

/-- `SourceStanza(package, version, directory, files)`. -/
def make (package : String) (version : DebianVersion) (directory : String) (files : List SourceFile) :
    Except SourcesError SourceStanza :=
  if h : files.countP SourceFile.is_dsc = 1 then .ok ⟨package, version, directory, files, h⟩
  else .error (.MalformedIndex ("expected exactly one .dsc member for " ++ package ++ " " ++ version.raw ++
    ", found " ++ toString (files.countP SourceFile.is_dsc)))

theorem dsc_found (s : SourceStanza) : (s.files.find? SourceFile.is_dsc).isSome = true := by
  have hpos : 0 < s.files.countP SourceFile.is_dsc := by rw [s.one_dsc]; exact Nat.one_pos
  rw [List.find?_isSome]
  exact List.countP_pos_iff.1 hpos

/-- The `.dsc` member: there is one. -/
def dsc (s : SourceStanza) : SourceFile := (s.files.find? SourceFile.is_dsc).get s.dsc_found

/-- The first `.dsc` member is the only one. -/
theorem mem_dsc {s : SourceStanza} {file : SourceFile} (hmem : file ∈ s.files) (hdsc : file.is_dsc = true) :
    s.dsc = file := by
  have hone := s.one_dsc
  rw [List.countP_eq_length_filter, List.length_eq_one_iff] at hone
  obtain ⟨only, honly⟩ := hone
  have hsingle : ∀ f ∈ s.files, f.is_dsc = true → f = only := fun f hf hd =>
    List.mem_singleton.1 (honly ▸ List.mem_filter.2 ⟨hf, hd⟩)
  have hfound : s.files.find? SourceFile.is_dsc = some s.dsc := (Option.some_get s.dsc_found).symm
  rw [hsingle file hmem hdsc]
  exact hsingle _ (List.mem_of_find?_eq_some hfound) (List.find?_some hfound)

/-- `uri`: where a member is below the base. -/
def uri (s : SourceStanza) (base_url : String) (member : SourceFile) : String :=
  String.ofList (base_url.toList.rdropWhile (· = '/') ++ '/' ::
    (s.directory.toList.dropWhile (· = '/')).rdropWhile (· = '/') ++ '/' :: member.name.toList)

end SourceStanza

namespace Sources

/-! ## Paragraphs -/

/-- The paragraphs that have ended, the fields of the next one, and the last of them. -/
structure Folding where
  paragraphs : List (Dict (List Char))
  current : Dict (List Char)
  last_key : Option String

/-- `current[last_key] += "\n" + raw_line.strip()`. -/
def continued (s : Folding) (key : String) (raw_line : List Char) : Except SourcesError Folding :=
  match s.current.get? key with
  | none => .error (.raised (.KeyError key))
  | some value => .ok { s with current := s.current.set key (value ++ '\n' :: strip raw_line) }

def new_field (s : Folding) (key : String) (value raw_line : List Char) : Except SourcesError Folding :=
  if key = "" then .error (.MalformedIndex "empty field name in" [String.ofList raw_line])
  else if key ∈ s.current.keys then .error (.MalformedIndex "duplicate field" [key])
  else .ok { s with current := s.current.set key value, last_key := some key }

def read_line (s : Folding) (raw_line : List Char) : Except SourcesError Folding :=
  if strip raw_line = [] then
    .ok (if s.current.items = [] then s else ⟨s.paragraphs ++ [s.current], .empty, none⟩)
  else if raw_line.head?.any fun c => c = ' ' || c = '\t' then
    match s.last_key with
    | none => .error (.MalformedIndex "continuation line without a field" [String.ofList raw_line])
    | some key => continued s key raw_line
  else if ':' ∉ raw_line then .error (.MalformedIndex "line is not a field" [String.ofList raw_line])
  else
    new_field s (String.ofList (strip (partition ':' raw_line).1)) (strip (partition ':' raw_line).2) raw_line

/-- `_parse_paragraphs`: fields that may be folded over several lines. -/
def parse_paragraphs (text : List Char) : Except SourcesError (List (Dict (List Char))) := do
  let s ← (splitlines text).foldlM read_line ⟨[], .empty, none⟩
  return if s.current.items = [] then s.paragraphs else s.paragraphs ++ [s.current]

/-! ## Checksums -/

/-- The digits of a number after `n`; an underscore stands between two digits. -/
def digits (n : Nat) : Bool → List Char → Option Nat
  | after_digit, [] => if after_digit then some n else none
  | after_digit, c :: cs =>
    if c = '_' then if after_digit then digits n false cs else none
    else match decimal c with
      | none => none
      | some d => digits (10 * n + d) true cs

/-- `int(text)` of a text without blanks. -/
def int : List Char → Option Int
  | '-' :: cs => (digits 0 false cs).map fun n => -(n : Int)
  | '+' :: cs => (digits 0 false cs).map Int.ofNat
  | cs => (digits 0 false cs).map Int.ofNat

/-- One line of the field: `<sha256> <size> <name>`. -/
def read_member (members : Dict SourceFile) (line : List Char) : Except SourcesError (Dict SourceFile) :=
  if strip line = [] then .ok members
  else match words (strip line) with
    | [sha256, size, name] =>
      match int size with
      | none => .error (.MalformedIndex "non-integer size in" [String.ofList (strip line)])
      | some size_int =>
        if String.ofList name ∈ members.keys then
          .error (.MalformedIndex "duplicate source member" [String.ofList name])
        else do
          let file ← SourceFile.make (String.ofList name) size_int (String.ofList sha256)
          return members.set (String.ofList name) file
    | _ => .error (.MalformedIndex "malformed checksum line" [String.ofList (strip line)])

/-- `_parse_checksums`. -/
def parse_checksums (block : List Char) : Except SourcesError (Dict SourceFile) := do
  let members ← (splitlines block).foldlM read_member .empty
  if members.items = [] then throw (.MalformedIndex "empty Checksums-Sha256 field")
  return members

/-! ## The index -/

def required_field (paragraph : Dict (List Char)) (package required : String) : Except SourcesError (List Char) :=
  match paragraph.get? required with
  | some value => .ok value
  | none => .error (.MalformedIndex ("stanza for " ++ package ++ " is missing " ++ required ++ ": " ++
      String.ofList ((paragraph.get? "Version").getD "<no version>".toList)))

/-- A path below the archive, without empty segments and steps. -/
def safe_directory (directory : List Char) : Bool :=
  isDirectory directory && (directory.splitOn '/').all fun segment => !([[], ['.'], ['.', '.']].contains segment)

def parse_version (text : List Char) : Except SourcesError DebianVersion :=
  match Debver.parse (String.ofList text) with
  | .ok version => .ok version
  | .error e => .error (.raised e)

/-- The stanza of one paragraph. -/
def read_stanza (package : String) (paragraph : Dict (List Char)) : Except SourcesError SourceStanza := do
  let version ← required_field paragraph package "Version"
  let directory ← required_field paragraph package "Directory"
  let checksums ← required_field paragraph package "Checksums-Sha256"
  let members ← parse_checksums checksums
  if !safe_directory directory then throw (.MalformedIndex "unsafe Directory" [String.ofList directory])
  let version ← parse_version version
  SourceStanza.make package version (String.ofList directory) ((sortedItems members.items).map (·.2))

/-- `parse_sources`. -/
def parse_sources (text : List Char) (package : String) : Except SourcesError (List SourceStanza) := do
  let paragraphs ← parse_paragraphs text
  (paragraphs.filter fun p => p.get? "Package" = some package.toList).mapM (read_stanza package)

/-- The loop of `select_newest`, from the stanza `best` on. -/
def newest (best : SourceStanza) : List SourceStanza → SourceStanza
  | [] => best
  | candidate :: rest => newest (if 0 < Debver.compare candidate.version best.version then candidate else best) rest

/-- `select_newest`. -/
def select_newest : List SourceStanza → Except SourcesError SourceStanza
  | [] => .error (.MalformedIndex "no stanzas to choose from")
  | first :: rest => .ok (newest first rest)

/-! ## What is read -/

/-- Only the version of a stanza raises an exception of another module. -/
def SourcesError.Refused : SourcesError → Prop
  | .MalformedIndex _ _ => True
  | .raised e => ∃ text : String, Debver.parse text = .error e

section Answers
variable {α β : Type} {P Q : α → Prop} {R : β → Prop}

/-- A refusal, or a result with `Q`. -/
def Answers (Q : α → Prop) : Except SourcesError α → Prop
  | .ok a => Q a
  | .error e => e.Refused

theorem Answers.bind {x : Except SourcesError α} {f : α → Except SourcesError β} (hx : Answers Q x)
    (hf : ∀ a, Q a → Answers R (f a)) : Answers R (x >>= f) := by
  cases x with
  | error e => exact hx
  | ok a => exact hf a hx

theorem Answers.foldlM {f : α → β → Except SourcesError α} (hf : ∀ a b, Q a → Answers Q (f a b)) :
    ∀ (bs : List β) {a : α}, Q a → Answers Q (bs.foldlM f a)
  | [], _, ha => ha
  | b :: bs, a, ha => by
    rw [List.foldlM_cons]
    exact (hf a b ha).bind fun a' ha' => Answers.foldlM hf bs ha'

theorem Answers.mapM {f : α → Except SourcesError β} (hf : ∀ a, Answers R (f a)) :
    ∀ as : List α, Answers (fun bs => ∀ b ∈ bs, R b) (as.mapM f)
  | [] => by
    intro b hb
    cases hb
  | a :: as => by
    rw [List.mapM_cons]
    refine (hf a).bind fun b hb => (Answers.mapM hf as).bind fun bs hbs => ?_
    exact List.forall_mem_cons.2 ⟨hb, hbs⟩

end Answers

/-- The last field is a field of the paragraph. -/
def Folding.Open (s : Folding) : Prop := ∀ key ∈ s.last_key, key ∈ s.current.keys

theorem keys_set_self {V : Type} (d : Dict V) (key : String) (value : V) : key ∈ (d.set key value).keys := by
  rw [Dict.mem_keys]
  exact ⟨value, Dict.get?_set.2 (by rw [if_pos rfl])⟩

theorem continued_open {s : Folding} (hs : s.Open) {key : String} (hlast : s.last_key = some key) (raw_line : List Char) :
    Answers Folding.Open (continued s key raw_line) := by
  obtain ⟨value, hvalue⟩ := Dict.mem_keys.1 (hs key hlast)
  unfold continued
  rw [hvalue]
  intro key' hkey'
  obtain rfl : key = key' := Option.some.inj (hlast.symm.trans hkey')
  exact keys_set_self _ _ _

theorem new_field_open (s : Folding) (key : String) (value raw_line : List Char) :
    Answers Folding.Open (new_field s key value raw_line) := by
  unfold new_field
  split
  · trivial
  · split
    · trivial
    · intro key' hkey'
      obtain rfl : key = key' := Option.some.inj hkey'
      exact keys_set_self _ _ _

theorem read_line_open (s : Folding) (raw_line : List Char) (hs : s.Open) :
    Answers Folding.Open (read_line s raw_line) := by
  unfold read_line
  split
  · split
    · exact hs
    · intro key hkey
      cases hkey
  · split
    · split
      · trivial
      · next key hlast => exact continued_open hs hlast raw_line
    · split
      · trivial
      · exact new_field_open s _ _ _

theorem parse_paragraphs_answers (text : List Char) : Answers (fun _ => True) (parse_paragraphs text) := by
  refine (Answers.foldlM read_line_open (splitlines text) ?_).bind fun s _ => trivial
  intro key hkey
  cases hkey

/-- Every member stands under its own name. -/
def Named (members : Dict SourceFile) : Prop := ∀ name file, members.get? name = some file → file.name = name

theorem make_answers (name : String) (size : Int) (sha256 : String) :
    Answers (fun file => file.name = name) (SourceFile.make name size sha256) := by
  unfold SourceFile.make
  split_ifs
  · rfl
  · trivial
  · trivial
  · trivial

theorem read_member_named (members : Dict SourceFile) (line : List Char) (hnamed : Named members) :
    Answers Named (read_member members line) := by
  unfold read_member
  split
  · exact hnamed
  · split
    · split
      · trivial
      · split
        · trivial
        · refine (make_answers _ _ _).bind fun file hname => ?_
          intro name' file' hget
          rw [Dict.get?_set] at hget
          split at hget
          · next hsame => rw [hget, hsame, hname]
          · exact hnamed name' file' hget
    · trivial

theorem parse_checksums_named (block : List Char) : Answers Named (parse_checksums block) := by
  have hempty : Named .empty := by
    intro name file hget
    cases hget
  refine (Answers.foldlM read_member_named (splitlines block) hempty).bind fun members hmembers => ?_
  by_cases hitems : members.items = []
  · rw [if_pos hitems]
    trivial
  · rw [if_neg hitems]
    exact hmembers

theorem required_field_answers (paragraph : Dict (List Char)) (package required : String) :
    Answers (fun value => paragraph.get? required = some value) (required_field paragraph package required) := by
  unfold required_field
  split
  · next value hvalue => exact hvalue
  · trivial

theorem parse_version_answers (text : List Char) :
    Answers (fun version => Debver.parse (String.ofList text) = .ok version) (parse_version text) := by
  unfold parse_version
  split
  · next version hparse => exact hparse
  · next e hparse => exact ⟨_, hparse⟩

/-- The members in the order of their names, each once. -/
theorem files_sorted {members : Dict SourceFile} (hnamed : Named members) :
    (((sortedItems members.items).map (·.2)).map (·.name)).Pairwise (· < ·) := by
  have hnames : ((sortedItems members.items).map (·.2)).map (·.name) = (sortedItems members.items).map (·.1) := by
    rw [List.map_map]
    refine List.map_congr_left fun x hx => ?_
    exact hnamed x.1 x.2 (Dict.mem_items.1 (mem_sortedItems.1 hx))
  have hsorted : (sortedItems members.items).Pairwise fun a b => a.1 ≤ b.1 := List.pairwise_insertionSort _ _
  have hnodup : ((sortedItems members.items).map (·.1)).Nodup :=
    (((perm_sortedItems members.items).map (·.1)).nodup_iff).2 members.nodup
  rw [hnames]
  refine (List.pairwise_map.2 hsorted).imp₂ (fun a b hle hne => ?_) hnodup
  exact lt_of_le_of_ne hle hne

/-- What `parse_sources` returns. -/
structure Stanza (package : String) (s : SourceStanza) : Prop where
  package_eq : s.package = package
  directory_safe : safe_directory s.directory.toList = true
  version_parsed : ∃ text : String, Debver.parse text = .ok s.version
  names_sorted : (s.files.map (·.name)).Pairwise (· < ·)

theorem read_stanza_answers (package : String) (paragraph : Dict (List Char)) :
    Answers (Stanza package) (read_stanza package paragraph) := by
  unfold read_stanza
  refine (required_field_answers paragraph package _).bind fun version _ => ?_
  refine (required_field_answers paragraph package _).bind fun directory _ => ?_
  refine (required_field_answers paragraph package _).bind fun checksums _ => ?_
  refine (parse_checksums_named checksums).bind fun members hnamed => ?_
  cases hsafe : safe_directory directory with
  | false => trivial
  | true =>
    refine (parse_version_answers version).bind fun version hversion => ?_
    unfold SourceStanza.make
    split
    · exact ⟨rfl, by rwa [String.toList_ofList], ⟨_, hversion⟩, files_sorted hnamed⟩
    · trivial

/-- **An index is read whole or refused**: every stanza of the package, each with its safe directory and its
distinct members, or one of the two exceptions of a malformed index. -/
theorem parse_sources_answers (text : List Char) (package : String) :
    Answers (fun stanzas => ∀ s ∈ stanzas, Stanza package s) (parse_sources text package) :=
  (parse_paragraphs_answers text).bind fun _ _ => Answers.mapM (read_stanza_answers package) _

/-! ## The newest of them -/

/-- `candidate` replaces `best`. -/
def newer (best candidate : SourceStanza) : Bool := decide (0 < Debver.compare candidate.version best.version)

theorem newer_iff (a b : SourceStanza) : newer a b = true ↔ Debver.key a.version < Debver.key b.version := by
  rw [newer, decide_eq_true_iff, ← not_le, Debver.compare_nonpos, not_le]

theorem newest_eq (best : SourceStanza) (rest : List SourceStanza) :
    Grouping.maxBy newer (best :: rest) = some (newest best rest) := by
  induction rest generalizing best with
  | nil => rfl
  | cons candidate rest ih =>
    have hstep : Grouping.maxBy newer (best :: candidate :: rest) =
        Grouping.maxBy newer ((if newer best candidate then candidate else best) :: rest) := rfl
    rw [hstep, ih, newest]
    simp only [newer, decide_eq_true_iff]

/-- The first of the newest stanzas. -/
theorem select_newest_eq_ok {stanzas : List SourceStanza} {best : SourceStanza} :
    select_newest stanzas = .ok best ↔ ∃ older others, stanzas = older ++ best :: others ∧
      (∀ s ∈ older, Debver.key s.version < Debver.key best.version) ∧
        ∀ s ∈ others, Debver.key s.version ≤ Debver.key best.version := by
  rw [← Grouping.maxBy_eq_some newer_iff]
  cases stanzas with
  | nil => simp [select_newest, Grouping.maxBy]
  | cons first rest => rw [select_newest, newest_eq, Except.ok.injEq, Option.some.injEq]

theorem select_newest_nonempty {stanzas : List SourceStanza} (h : stanzas ≠ []) :
    ∃ best, select_newest stanzas = .ok best := by
  cases stanzas with
  | nil => exact absurd rfl h
  | cons first rest => exact ⟨_, rfl⟩

theorem select_newest_greatest {stanzas : List SourceStanza} {best : SourceStanza}
    (h : select_newest stanzas = .ok best) :
    best ∈ stanzas ∧ ∀ s ∈ stanzas, Debver.key s.version ≤ Debver.key best.version := by
  obtain ⟨older, others, rfl, holder, hothers⟩ := select_newest_eq_ok.1 h
  refine ⟨by simp, fun s hs => ?_⟩
  rcases List.mem_append.1 hs with hs | hs
  · exact (holder s hs).le
  · rcases List.mem_cons.1 hs with rfl | hs
    · exact le_rfl
    · exact hothers s hs

namespace Sample

def dsc : SourceFile :=
  ⟨"linux.dsc", 100, "aaaaaaaaaaaaaaaaaaaaaaaaaaaaaaaaaaaaaaaaaaaaaaaaaaaaaaaaaaaaaaaa", by decide +kernel,
    by decide, by decide +kernel⟩

def stanza (version : DebianVersion) : SourceStanza := ⟨"linux", version, "pool/main/l/linux", [dsc], by decide +kernel⟩

theorem revision_valid : Debver.isRevision "1".toList = true := by decide +kernel

theorem upstream_valid : Debver.isUpstream "7.1.7".toList = true := by decide +kernel

def old : SourceStanza :=
  stanza ⟨0, "6.12.94", "1", "6.12.94-1", by decide +kernel, revision_valid, by decide +kernel⟩

def new : SourceStanza :=
  stanza ⟨0, "7.1.7", "1", "7.1.7-1", upstream_valid, revision_valid, by decide +kernel⟩

end Sample

end Sources
