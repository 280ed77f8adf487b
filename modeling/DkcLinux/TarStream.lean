import DkcLinux.ReleaseResults
import DkcLinux.Text.PosixPath
import Mathlib.Data.List.Lex
import Mathlib.Data.Rat.Defs

/-!
# Tar streams (`dkc/tarmetadata.py:190-333`)

`validate_tar_stream` reads a stream once, with the names so far, the last key of the tree order and the times so far.

* `accepts_iff` — it accepts a stream exactly if the stream was read to its end, its names are canonical, distinct, below the
  prefix and in tree order, and every member has the metadata that is asked for; it returns how many members there are,
  and their least and greatest time.
* `reproducible` — with exact times, normalized modes and the tree order, the paths, types, links and execution bits of the
  members determine the metadata that is recorded, and its order.
* `source_evidence_iff`, `package_evidence_iff` — what is recorded of accepted streams passes the checks of the evidence
  exactly if every member has the epoch.
-/

open Py

/-- The fields of a `TarInfo` that are looked at; `type` is its type flag. -/
structure TarMember where
  name : String
  linkname : String
  type : Char
  mode : Int
  uid : Int
  gid : Int
  uname : String
  gname : String
  mtime : ℚ
  pax_headers : List (String × String)

namespace TarMember

/-- `isreg()`: regular, old regular, contiguous or sparse. -/
def isreg (member : TarMember) : Bool := ['0', Char.ofNat 0, '7', 'S'].contains member.type

def isdir (member : TarMember) : Bool := member.type = '5'

def issym (member : TarMember) : Bool := member.type = '2'

def islnk (member : TarMember) : Bool := member.type = '1'

end TarMember

/-- What `tarfile` reads of a stream; `failure` ends the members. -/
structure TarArchive where
  pax_headers : List (String × String)
  members : List TarMember
  failure : Option String

structure TarMetadata where
  member_count : Nat
  minimum_mtime : Int
  maximum_mtime : Int

namespace TarMetadata

/-! ## Names -/

/-- `while stripped.startswith("./")`. -/
def strip : List Char → List Char
  | '.' :: '/' :: rest => strip rest
  | name => name

/-- `PurePosixPath(p).parts` of a relative path. -/
def parts (p : List Char) : List (List Char) := (Path.parts p).filter fun part => part ≠ [] ∧ part ≠ ['.']

/-- `PurePosixPath(p).as_posix()` of a relative path. -/
def as_posix (p : List Char) : List Char := if parts p = [] then ['.'] else List.intercalate ['/'] (parts p)

/-- `_canonical_member_name`. -/
def _canonical_member_name (name label : String) : Except PyErr String :=
  if name = "" ∨ Char.ofNat 0 ∈ name.toList ∨ '\\' ∈ name.toList then
    .error (.ValueError (label ++ " contains an unsafe tar member name: ") [name])
  else
    let stripped := strip name.toList
    if stripped = [] ∨ stripped = ['.'] then .ok "."
    else if stripped.head? = some '/' ∨ ['.', '.'] ∈ parts stripped ∨ as_posix stripped ≠ stripped then
      .error (.ValueError (label ++ " contains an unsafe tar member name: ") [name])
    else .ok (String.ofList stripped)

/-! ## The loop -/

/-- The arguments of `validate_tar_stream`. -/
structure Options where
  label : String
  epoch : Int
  exact_mtime : Bool
  expected_prefix : Option String := none
  require_sorted : Bool := false
  normalized_modes : Bool := false

/-- `PurePosixPath(name).parts`. -/
def order_key (name : String) : List (List Char) := parts name.toList

/-- The checks of a mode. -/
def check_mode (label name : String) (member : TarMember) : Except PyErr Unit := do
  let mode := member.mode % 4096
  if member.isdir ∧ mode ≠ 493 then
    throw (.ValueError (label ++ " directory " ++ name ++ " mode is not 0755"))
  if member.isreg ∧ mode ≠ 420 ∧ mode ≠ 493 then
    throw (.ValueError (label ++ " file " ++ name ++ " has a non-public mode"))
  if member.issym ∧ mode ≠ 511 then
    throw (.ValueError (label ++ " symlink " ++ name ++ " mode is not 0777"))
  if member.islnk then
    throw (.ValueError (label ++ " unexpectedly stores a hard link: " ++ name))

/-- The checks of a time and of a mode. -/
def check_time (o : Options) (checked_epoch : Int) (name : String) (member : TarMember) : Except PyErr Int := do
  let label := o.label
  if member.mtime.den ≠ 1 then
    throw (.ValueError (label ++ " member " ++ name ++ " has a fractional mtime"))
  let mtime := member.mtime.num
  if o.exact_mtime ∧ mtime ≠ checked_epoch then
    throw (.ValueError (label ++ " member " ++ name ++ " mtime " ++ toString mtime ++ " differs from " ++ toString checked_epoch))
  if ¬o.exact_mtime ∧ mtime > checked_epoch then
    throw (.ValueError (label ++ " member " ++ name ++ " mtime " ++ toString mtime ++ " exceeds " ++ toString checked_epoch))
  if o.normalized_modes then check_mode label name member
  return mtime

/-- The checks of one member after those of its name: its time. -/
def check_member (o : Options) (checked_epoch : Int) (name : String) (member : TarMember) : Except PyErr Int := do
  let label := o.label
  if member.pax_headers ≠ [] then
    throw (.ValueError (label ++ " member " ++ name ++ " contains PAX metadata"))
  if member.uid ≠ 0 ∨ member.gid ≠ 0 then
    throw (.ValueError (label ++ " member " ++ name ++ " does not have numeric root ownership"))
  if member.uname ∉ ["", "root"] ∨ member.gname ∉ ["", "root"] then
    throw (.ValueError (label ++ " member " ++ name ++ " has unstable owner names"))
  if ¬(member.isreg ∨ member.isdir ∨ member.issym ∨ member.islnk) then
    throw (.ValueError (label ++ " member " ++ name ++ " has a special tar type"))
  if member.islnk then let _ ← _canonical_member_name member.linkname label
  check_time o checked_epoch name member

/-- The variables of the loop. -/
structure Progress where
  names : List String := []
  previous_order_key : Option (List (List Char)) := none
  minimum_mtime : Option Int := none
  maximum_mtime : Option Int := none
  count : Nat := 0

/-- The rest of a loop body. -/
def Progress.advance (so_far : Progress) (entry : String × Int) : Progress where
  names := entry.1 :: so_far.names
  previous_order_key := some (order_key entry.1)
  minimum_mtime := some ((so_far.minimum_mtime.map (min · entry.2)).getD entry.2)
  maximum_mtime := some ((so_far.maximum_mtime.map (max · entry.2)).getD entry.2)
  count := so_far.count + 1

/-- The prefix, or a path below it. -/
def Below (root name : String) : Prop := name = root ∨ startswith name (root ++ "/") = true

instance (root name : String) : Decidable (Below root name) := inferInstanceAs (Decidable (_ ∨ _))

/-- A loop body. -/
def add_member (o : Options) (checked_epoch : Int) (root : Option String) (so_far : Progress) (member : TarMember) :
    Except PyErr Progress := do
  let name ← _canonical_member_name member.name o.label
  if name ∈ so_far.names then
    throw (.ValueError (o.label ++ " contains a duplicate tar member: " ++ name))
  if ∃ r ∈ root, ¬Below r name then
    throw (.ValueError (o.label ++ " member escapes the " ++ root.getD "" ++ " tree: ") [member.name])
  if o.require_sorted ∧ ∃ previous ∈ so_far.previous_order_key, order_key name ≤ previous then
    throw (.ValueError (o.label ++ " tar members are not in deterministic tree order"))
  let mtime ← check_member o checked_epoch name member
  return so_far.advance (name, mtime)

/-- `validate_tar_stream` after its loop. -/
def finish (label : String) (archive : TarArchive) (so_far : Progress) : Except PyErr TarMetadata :=
  match archive.failure, so_far.minimum_mtime, so_far.maximum_mtime with
  | some exc, _, _ => .error (.ValueError ("cannot read " ++ label ++ ": " ++ exc))
  | none, some minimum_mtime, some maximum_mtime => .ok ⟨so_far.count, minimum_mtime, maximum_mtime⟩
  | none, _, _ => .error (.ValueError (label ++ " is an empty tar archive"))

/-- `validate_tar_stream`; a stream that cannot be opened is the text of its error. -/
def validate_tar_stream (stream : Except String TarArchive) (o : Options) : Except PyErr TarMetadata := do
  let checked_epoch ← _epoch (some (.int o.epoch)) "tar metadata epoch"
  let root ← o.expected_prefix.mapM fun expected_prefix => _canonical_member_name expected_prefix o.label
  if root = some "." then throw (.ValueError "tar metadata prefix must name a directory")
  match stream with
  | .error exc => throw (.ValueError ("cannot read " ++ o.label ++ ": " ++ exc))
  | .ok archive =>
    if archive.pax_headers ≠ [] then throw (.ValueError (o.label ++ " contains global PAX metadata"))
    finish o.label archive (← archive.members.foldlM (add_member o checked_epoch root) {})

/-! ## What is accepted -/

section
variable {o : Options} {epoch : Int} {root : Option String}

/-- The name and the time of a member. -/
def Checked (o : Options) (epoch : Int) (member : TarMember) (entry : String × Int) : Prop :=
  _canonical_member_name member.name o.label = .ok entry.1 ∧ check_member o epoch entry.1 member = .ok entry.2

theorem add_member_iff {so_far next : Progress} {member : TarMember} :
    add_member o epoch root so_far member = .ok next ↔ ∃ entry, Checked o epoch member entry ∧ entry.1 ∉ so_far.names ∧
      (∀ r ∈ root, Below r entry.1) ∧
      (o.require_sorted = true → ∀ previous ∈ so_far.previous_order_key, previous < order_key entry.1) ∧
      next = so_far.advance entry := by
  unfold add_member
  rw [except_bind_eq_ok]
  constructor
  · rintro ⟨name, hname, h⟩
    simp only [except_throw, except_error_bind, except_check_eq_ok] at h
    obtain ⟨hnew, hbelow, hsorted, h⟩ := h
    obtain ⟨mtime, hmtime, h⟩ := except_bind_eq_ok.1 h
    cases h
    refine ⟨(name, mtime), ⟨hname, hmtime⟩, hnew, fun r hr => ?_, fun hsort previous hprevious => ?_, rfl⟩
    · by_contra houtside
      exact hbelow ⟨r, hr, houtside⟩
    · by_contra hle
      exact hsorted ⟨hsort, previous, hprevious, not_lt.1 hle⟩
  · rintro ⟨⟨name, mtime⟩, ⟨hname, hmtime⟩, hnew, hbelow, hsorted, rfl⟩
    refine ⟨name, hname, ?_⟩
    have houtside : ¬∃ r ∈ root, ¬Below r name := fun ⟨r, hr, hout⟩ => hout (hbelow r hr)
    have hunsorted : ¬(o.require_sorted = true ∧ ∃ previous ∈ so_far.previous_order_key, order_key name ≤ previous) :=
      fun ⟨hsort, previous, hprevious, hle⟩ => absurd hle (not_le.2 (hsorted hsort previous hprevious))
    rw [if_neg hnew, if_neg houtside, if_neg hunsorted, hmtime]
    rfl

/-- The loop: distinct names below the prefix, in the order that is asked for. -/
structure Enters (o : Options) (root : Option String) (so_far : Progress) (entries : List (String × Int)) : Prop where
  distinct : (entries.map (·.1)).Nodup
  fresh : ∀ e ∈ entries, e.1 ∉ so_far.names
  below : ∀ r ∈ root, ∀ e ∈ entries, Below r e.1
  sorted : o.require_sorted = true →
    (so_far.previous_order_key.toList ++ entries.map fun e => order_key e.1).Pairwise (· < ·)

theorem enters_nil {so_far : Progress} : Enters o root so_far [] where
  distinct := List.nodup_nil
  fresh := by simp
  below := by simp
  sorted _ := by cases so_far.previous_order_key <;> simp

theorem enters_cons {so_far : Progress} {entry : String × Int} {entries : List (String × Int)} :
    Enters o root so_far (entry :: entries) ↔ entry.1 ∉ so_far.names ∧ (∀ r ∈ root, Below r entry.1) ∧
      (o.require_sorted = true → ∀ previous ∈ so_far.previous_order_key, previous < order_key entry.1) ∧
      Enters o root (so_far.advance entry) entries := by
  constructor
  · rintro ⟨hdistinct, hfresh, hbelow, hsorted⟩
    rw [List.map_cons, List.nodup_cons] at hdistinct
    obtain ⟨hnew, hfresh⟩ := List.forall_mem_cons.1 hfresh
    refine ⟨hnew, fun r hr => hbelow r hr entry List.mem_cons_self, fun hsort previous hprevious => ?_, hdistinct.2,
      fun e he => ?_, fun r hr e he => hbelow r hr e (List.mem_cons_of_mem _ he), fun hsort => ?_⟩
    · exact (List.pairwise_append.1 (hsorted hsort)).2.2 previous (Option.mem_toList.2 hprevious) _ List.mem_cons_self
    · refine List.not_mem_cons_of_ne_of_not_mem (fun heq => hdistinct.1 ?_) (hfresh e he)
      exact heq ▸ List.mem_map_of_mem he
    · exact (List.pairwise_append.1 (hsorted hsort)).2.1
  · rintro ⟨hnew, hbelow, hprevious, hdistinct, hfresh, hbelow', hsorted⟩
    refine ⟨List.nodup_cons.2 ⟨fun hmem => ?_, hdistinct⟩, List.forall_mem_cons.2 ⟨hnew, fun e he => ?_⟩,
      fun r hr => List.forall_mem_cons.2 ⟨hbelow r hr, hbelow' r hr⟩, fun hsort => ?_⟩
    · obtain ⟨e, he, heq⟩ := List.mem_map.1 hmem
      exact hfresh e he (heq ▸ List.mem_cons_self)
    · exact fun hmem => hfresh e he (List.mem_cons_of_mem _ hmem)
    · have hkeys := hsorted hsort
      refine List.pairwise_append.2 ⟨by cases so_far.previous_order_key <;> simp, hkeys, fun previous hmem key hkey => ?_⟩
      have hfirst := hprevious hsort previous (Option.mem_toList.1 hmem)
      rcases List.mem_cons.1 hkey with rfl | hkey
      · exact hfirst
      · exact hfirst.trans ((List.pairwise_cons.1 hkeys).1 key hkey)

theorem add_members_iff : ∀ {members : List TarMember} {so_far result : Progress},
    members.foldlM (add_member o epoch root) so_far = .ok result ↔
      ∃ entries, List.Forall₂ (Checked o epoch) members entries ∧ Enters o root so_far entries ∧
        result = entries.foldl Progress.advance so_far
  | [], so_far, result => by
    rw [List.foldlM_nil, except_pure, Except.ok.injEq]
    constructor
    · rintro rfl
      exact ⟨[], .nil, enters_nil, rfl⟩
    · rintro ⟨entries, hentries, -, rfl⟩
      cases hentries
      rfl
  | member :: members, so_far, result => by
    rw [List.foldlM_cons, except_bind_eq_ok]
    constructor
    · rintro ⟨next, hnext, h⟩
      obtain ⟨entry, hentry, hnew, hbelow, hsorted, rfl⟩ := add_member_iff.1 hnext
      obtain ⟨entries, hentries, henters, rfl⟩ := add_members_iff.1 h
      exact ⟨entry :: entries, .cons hentry hentries, enters_cons.2 ⟨hnew, hbelow, hsorted, henters⟩, rfl⟩
    · rintro ⟨_, hentries, henters, rfl⟩
      cases hentries with
      | cons hentry hentries =>
        obtain ⟨hnew, hbelow, hsorted, henters⟩ := enters_cons.1 henters
        exact ⟨_, add_member_iff.2 ⟨_, hentry, hnew, hbelow, hsorted, rfl⟩, add_members_iff.2 ⟨_, hentries, henters, rfl⟩⟩

/-! ## The evidence -/

theorem advance_all : ∀ (entries : List (String × Int)) (so_far : Progress),
    let result := entries.foldl Progress.advance so_far
    result.count = so_far.count + entries.length ∧
      result.minimum_mtime = (so_far.minimum_mtime.toList ++ entries.map (·.2)).min? ∧
      result.maximum_mtime = (so_far.maximum_mtime.toList ++ entries.map (·.2)).max?
  | [], so_far => by
    refine ⟨rfl, ?_, ?_⟩
    · cases hm : so_far.minimum_mtime <;> simp [hm]
    · cases hm : so_far.maximum_mtime <;> simp [hm]
  | entry :: entries, so_far => by
    obtain ⟨hcount, hminimum, hmaximum⟩ := advance_all entries (so_far.advance entry)
    refine ⟨?_, hminimum.trans ?_, hmaximum.trans ?_⟩
    · rw [List.length_cons, Nat.add_comm entries.length, ← Nat.add_assoc]
      exact hcount
    · cases hm : so_far.minimum_mtime with
      | none => simp [Progress.advance, hm]
      | some m => simp only [Progress.advance, hm, Option.map_some, Option.getD_some, Option.toList_some, List.map_cons,
          List.singleton_append, List.min?_cons', List.foldl_cons]
    · cases hm : so_far.maximum_mtime with
      | none => simp [Progress.advance, hm]
      | some m => simp only [Progress.advance, hm, Option.map_some, Option.getD_some, Option.toList_some, List.map_cons,
          List.singleton_append, List.max?_cons', List.foldl_cons]

theorem finish_iff {label : String} {archive : TarArchive} {so_far : Progress} {metadata : TarMetadata} :
    finish label archive so_far = .ok metadata ↔ archive.failure = none ∧ metadata.member_count = so_far.count ∧
      so_far.minimum_mtime = some metadata.minimum_mtime ∧ so_far.maximum_mtime = some metadata.maximum_mtime := by
  obtain ⟨count, minimum, maximum⟩ := metadata
  unfold finish
  cases archive.failure <;> cases so_far.minimum_mtime <;> cases so_far.maximum_mtime <;> simp [eq_comm]

theorem epoch_iff {epoch checked_epoch : Int} {label : String} :
    _epoch (some (.int epoch)) label = .ok checked_epoch ↔ 1 ≤ epoch ∧ checked_epoch = epoch := by
  simp only [_epoch, except_check_eq_ok, not_lt, Except.ok.injEq]
  exact and_congr_right fun _ => eq_comm

/-- A stream that is accepted, with the names and times of its members. -/
structure Accepts (o : Options) (root : Option String) (archive : TarArchive) (metadata : TarMetadata)
    (entries : List (String × Int)) : Prop where
  complete : archive.pax_headers = [] ∧ archive.failure = none
  checked : List.Forall₂ (Checked o o.epoch) archive.members entries
  distinct : (entries.map (·.1)).Nodup
  below : ∀ r ∈ root, ∀ e ∈ entries, Below r e.1
  sorted : o.require_sorted = true → (entries.map fun e => order_key e.1).Pairwise (· < ·)
  member_count : metadata.member_count = archive.members.length
  minimum_mtime : IsLeast {t | t ∈ entries.map (·.2)} metadata.minimum_mtime
  maximum_mtime : IsGreatest {t | t ∈ entries.map (·.2)} metadata.maximum_mtime

/-- **What is accepted.** -/
theorem accepts_iff {archive : TarArchive} {metadata : TarMetadata} :
    validate_tar_stream (.ok archive) o = .ok metadata ↔ 1 ≤ o.epoch ∧ ∃ root entries,
      o.expected_prefix.mapM (fun expected_prefix => _canonical_member_name expected_prefix o.label) = .ok root ∧
      root ≠ some "." ∧ Accepts o root archive metadata entries := by
  unfold validate_tar_stream
  rw [except_bind_eq_ok]
  constructor
  · rintro ⟨checked_epoch, hchecked, h⟩
    obtain ⟨hpositive, rfl⟩ := epoch_iff.1 hchecked
    obtain ⟨root, hroot, h⟩ := except_bind_eq_ok.1 h
    simp only [except_throw, except_error_bind, except_check_eq_ok] at h
    obtain ⟨hdirectory, hpax, h⟩ := h
    obtain ⟨result, hresult, h⟩ := except_bind_eq_ok.1 h
    obtain ⟨entries, hentries, henters, rfl⟩ := add_members_iff.1 hresult
    obtain ⟨hcount, hminimum, hmaximum⟩ := advance_all entries {}
    obtain ⟨hfailure, hmembers, hleast, hgreatest⟩ := finish_iff.1 h
    refine ⟨hpositive, root, entries, hroot, hdirectory, ⟨not_not.1 hpax, hfailure⟩, hentries, henters.distinct, henters.below,
      henters.sorted, ?_, ?_, ?_⟩
    · rw [hmembers, hcount, hentries.length_eq]
      exact Nat.zero_add _
    · exact List.min?_eq_some_iff.1 (hminimum.symm.trans hleast)
    · exact List.max?_eq_some_iff.1 (hmaximum.symm.trans hgreatest)
  · rintro ⟨hpositive, root, entries, hroot, hdirectory, h⟩
    refine ⟨o.epoch, epoch_iff.2 ⟨hpositive, rfl⟩, ?_⟩
    have henters : Enters o root {} entries := ⟨h.distinct, fun _ _ => List.not_mem_nil, h.below, h.sorted⟩
    have hresult := add_members_iff.2 ⟨entries, h.checked, henters, rfl⟩
    obtain ⟨hcount, hminimum, hmaximum⟩ := advance_all entries {}
    rw [hroot, except_ok_bind, if_neg hdirectory]
    dsimp only
    rw [if_neg (not_not.2 h.complete.1), hresult, except_ok_bind]
    refine finish_iff.2 ⟨h.complete.2, ?_, ?_, ?_⟩
    · rw [h.member_count, hcount, h.checked.length_eq]
      exact (Nat.zero_add _).symm
    · exact hminimum.trans (List.min?_eq_some_iff.2 h.minimum_mtime)
    · exact hmaximum.trans (List.max?_eq_some_iff.2 h.maximum_mtime)

end

/-! ## Reproducible streams -/

/-- What a member is: its path, kind, link and whether it may be executed. -/
structure Item where
  path : Option String
  type : Char
  linkname : String
  executable : Bool

/-- What is recorded of a member, up to the spelling of its path and the names of its owner. -/
structure Recorded where
  path : Option String
  type : Char
  linkname : String
  mode : Int
  uid : Int
  gid : Int
  mtime : ℚ
  pax_headers : List (String × String)

def path (member : TarMember) : Option String := (_canonical_member_name member.name "").toOption

def item (member : TarMember) : Item :=
  ⟨path member, member.type, member.linkname, (member.mode % 4096).toNat &&& 73 ≠ 0⟩

def recorded (member : TarMember) : Recorded :=
  ⟨path member, member.type, member.linkname, member.mode % 4096, member.uid, member.gid, member.mtime, member.pax_headers⟩

/-- The only record of an item at an epoch. -/
def record (epoch : Int) (i : Item) : Recorded :=
  ⟨i.path, i.type, i.linkname, if i.type = '5' then 493 else if i.type = '2' then 511 else if i.executable then 493 else 420,
    0, 0, epoch, []⟩

theorem path_of {name label canonical : String} (h : _canonical_member_name name label = .ok canonical) :
    (_canonical_member_name name "").toOption = some canonical := by
  unfold _canonical_member_name at h ⊢
  rw [except_check_eq_ok] at h
  obtain ⟨hsafe, h⟩ := h
  rw [if_neg hsafe]
  dsimp only at h ⊢
  split at h
  · next hroot =>
    cases h
    rw [if_pos hroot]
    rfl
  · next hroot =>
    rw [except_check_eq_ok] at h
    cases h.2
    rw [if_neg hroot, if_neg h.1]
    rfl

section
variable {o : Options} {epoch : Int}

theorem checked_mode (epoch : Int) {label name : String} {member : TarMember}
    (hkind : member.isreg ∨ member.isdir ∨ member.issym ∨ member.islnk) (h : check_mode label name member = .ok ()) :
    member.mode % 4096 = (record epoch (item member)).mode := by
  simp only [check_mode, except_throw, except_error_bind, except_check_eq_ok] at h
  obtain ⟨hdirectory, hregular, hsymbolic, hhard, -⟩ := h
  unfold record item
  dsimp only
  by_cases hdir : member.type = '5'
  · have hmode : member.mode % 4096 = 493 := by
      by_contra hne
      exact hdirectory ⟨decide_eq_true hdir, hne⟩
    rw [if_pos hdir, hmode]
  by_cases hsym : member.type = '2'
  · have hmode : member.mode % 4096 = 511 := by
      by_contra hne
      exact hsymbolic ⟨decide_eq_true hsym, hne⟩
    rw [if_neg hdir, if_pos hsym, hmode]
  have hreg : member.isreg = true := by
    rcases hkind with h | h | h | h
    · exact h
    · exact absurd (of_decide_eq_true h) hdir
    · exact absurd (of_decide_eq_true h) hsym
    · exact absurd h hhard
  have hmode : member.mode % 4096 = 420 ∨ member.mode % 4096 = 493 := by
    by_contra hne
    exact hregular ⟨hreg, not_or.1 hne⟩
  rw [if_neg hdir, if_neg hsym]
  rcases hmode with hmode | hmode <;> rw [hmode] <;> rfl

theorem check_member_ok {name : String} {mtime : Int} {member : TarMember} (h : check_member o epoch name member = .ok mtime) :
    member.pax_headers = [] ∧ (member.uid = 0 ∧ member.gid = 0) ∧
      (member.isreg ∨ member.isdir ∨ member.issym ∨ member.islnk) ∧ check_time o epoch name member = .ok mtime := by
  simp only [check_member, except_throw, except_error_bind, except_check_eq_ok] at h
  obtain ⟨hpax, howner, -, hkind, h⟩ := h
  obtain ⟨huid, hgid⟩ := not_or.1 howner
  refine ⟨not_not.1 hpax, ⟨not_not.1 huid, not_not.1 hgid⟩, not_not.1 hkind, ?_⟩
  split at h
  · obtain ⟨_, -, h⟩ := except_bind_eq_ok.1 h
    exact h
  · exact h

theorem check_time_exact (hexact : o.exact_mtime = true) {name : String} {mtime : Int} {member : TarMember}
    (h : check_time o epoch name member = .ok mtime) :
    mtime = epoch ∧ member.mtime = epoch ∧ (o.normalized_modes = true → check_mode o.label name member = .ok ()) := by
  simp only [check_time, except_throw, except_error_bind, except_check_eq_ok, hexact, true_and] at h
  obtain ⟨hwhole, hepoch, -, h⟩ := h
  have hepoch := not_not.1 hepoch
  have hmtime : member.mtime = epoch := by
    rw [← hepoch]
    exact ((Rat.den_eq_one_iff _).1 (not_not.1 hwhole)).symm
  by_cases hmodes : o.normalized_modes = true
  · rw [if_pos hmodes] at h
    obtain ⟨_, hmode, h⟩ := except_bind_eq_ok.1 h
    cases h
    exact ⟨hepoch, hmtime, fun _ => hmode⟩
  · rw [if_neg hmodes] at h
    cases h
    exact ⟨hepoch, hmtime, fun hmodes' => absurd hmodes' hmodes⟩

theorem checked_record (hexact : o.exact_mtime = true) (hmodes : o.normalized_modes = true) {name : String} {mtime : Int}
    {member : TarMember} (h : check_member o epoch name member = .ok mtime) : recorded member = record epoch (item member) := by
  obtain ⟨hpax, ⟨huid, hgid⟩, hkind, h⟩ := check_member_ok h
  obtain ⟨-, hmtime, hmode⟩ := check_time_exact hexact h
  rw [recorded, checked_mode epoch hkind (hmode hmodes), hpax, huid, hgid, hmtime]
  rfl

theorem Accepts.times {root : Option String} {archive : TarArchive} {metadata : TarMetadata} {entries : List (String × Int)}
    (h : Accepts o root archive metadata entries) (hexact : o.exact_mtime = true) : ∀ t ∈ entries.map (·.2), t = o.epoch := by
  have hchecked := h.checked
  generalize archive.members = members at hchecked
  clear h
  induction hchecked with
  | nil => simp
  | cons hmember _ ih =>
    exact List.forall_mem_cons.2 ⟨(check_time_exact hexact (check_member_ok hmember.2).2.2.2).1, ih⟩

/-- The members of an accepted stream are their records. -/
theorem Accepts.records {root : Option String} {archive : TarArchive} {metadata : TarMetadata} {entries : List (String × Int)}
    (h : Accepts o root archive metadata entries) (hexact : o.exact_mtime = true) (hmodes : o.normalized_modes = true) :
    archive.members.map recorded = (archive.members.map item).map (record o.epoch) := by
  have hchecked := h.checked
  generalize archive.members = members at hchecked
  clear h
  induction hchecked with
  | nil => rfl
  | cons hmember _ ih => rw [List.map_cons, List.map_cons, List.map_cons, checked_record hexact hmodes hmember.2, ih]

/-- The place of an item in the tree order. -/
def Item.key (i : Item) : List (List Char) := order_key (i.path.getD "")

theorem Accepts.keys {root : Option String} {archive : TarArchive} {metadata : TarMetadata} {entries : List (String × Int)}
    (h : Accepts o root archive metadata entries) :
    (archive.members.map item).map Item.key = entries.map fun e => order_key e.1 := by
  have hchecked := h.checked
  generalize archive.members = members at hchecked
  clear h
  induction hchecked with
  | nil => rfl
  | @cons member entry members entries hmember _ ih =>
    rw [List.map_cons, List.map_cons, List.map_cons, ih]
    congr 1
    rw [Item.key, item, path, path_of hmember.1]
    rfl

/-- Items in tree order are determined by what they are. -/
theorem items_unique {items items' : List Item} (h : (items.map Item.key).Pairwise (· < ·))
    (h' : (items'.map Item.key).Pairwise (· < ·)) (hmem : ∀ i, i ∈ items ↔ i ∈ items') : items = items' := by
  rw [List.pairwise_map] at h h'
  have hnodup : items.Nodup := h.imp fun hlt heq => absurd (heq ▸ hlt) (lt_irrefl _)
  have hnodup' : items'.Nodup := h'.imp fun hlt heq => absurd (heq ▸ hlt) (lt_irrefl _)
  refine ((List.perm_ext_iff_of_nodup hnodup hnodup').2 hmem).eq_of_pairwise ?_ h h'
  intro i j _ _ hij hji
  exact absurd (hij.trans hji) (lt_irrefl _)

end

/-- The arguments for a stream that has to be reproducible. -/
structure Options.Reproducible (o : Options) : Prop where
  exact_mtime : o.exact_mtime = true
  require_sorted : o.require_sorted = true
  normalized_modes : o.normalized_modes = true

namespace Sample

/-- A directory and a file below it, spelled with and without `./`. -/
def debian (spelling owner : String) : TarArchive where
  pax_headers := []
  members := [
    ⟨spelling ++ "debian", "", '5', 16877, 0, 0, owner, owner, 1700000000, []⟩,
    ⟨spelling ++ "debian/rules", "", '0', 33261, 0, 0, owner, owner, 1700000000, []⟩]
  failure := none

def options : Options where
  label := "downstream Debian source archive"
  epoch := 1700000000
  exact_mtime := true
  expected_prefix := some "debian"
  require_sorted := true
  normalized_modes := true

theorem debian_accepted : validate_tar_stream (.ok (debian "" "")) options = .ok ⟨2, 1700000000, 1700000000⟩ := by
  rfl

theorem debian_spelled : validate_tar_stream (.ok (debian "./" "root")) options = .ok ⟨2, 1700000000, 1700000000⟩ := by
  rfl

theorem debian_items : (debian "" "").members.map item = (debian "./" "root").members.map item := by
  rfl

end Sample

def to_dict (metadata : TarMetadata) : List (String × Json) :=
  [("member_count", .int metadata.member_count), ("minimum_mtime", .int metadata.minimum_mtime),
    ("maximum_mtime", .int metadata.maximum_mtime)]

/-- `debian_archive_metadata` of `audit-source-package.py`. -/
def debian_archive_metadata (publication_epoch : Int) (archive_metadata : TarMetadata) : List (String × Json) :=
  [("epoch", .int publication_epoch), ("status", .str "PASS")] ++ archive_metadata.to_dict

/-- The streams of a package in `package_archive_metadata`. -/
def streams (control data : TarMetadata) : List (String × Json) :=
  [("control", .obj control.to_dict), ("data", .obj data.to_dict)]

/-- `package_archive_metadata` of `attest-one-build.py`. -/
def package_archive_metadata (publication_epoch : Int) (packages : List (String × TarMetadata × TarMetadata)) :
    List (String × Json) :=
  [("epoch", .int publication_epoch), ("packages", .obj (packages.map fun p => (p.1, .obj (streams p.2.1 p.2.2)))),
    ("status", .str "PASS")]

/-- The stream was accepted with these measures. -/
def Measured (archive : TarArchive) (metadata : TarMetadata) : Prop :=
  ∃ o, validate_tar_stream (.ok archive) o = .ok metadata

/-- Every member has this time. -/
def Exact (epoch : Int) (archive : TarArchive) : Prop := ∀ member ∈ archive.members, member.mtime = epoch

theorem check_time_whole {o : Options} {epoch mtime : Int} {name : String} {member : TarMember}
    (h : check_time o epoch name member = .ok mtime) : member.mtime = mtime := by
  simp only [check_time, except_throw, except_error_bind, except_check_eq_ok] at h
  obtain ⟨hwhole, -, -, h⟩ := h
  have hmtime : member.mtime.num = mtime := by
    by_cases hmodes : o.normalized_modes = true
    · rw [if_pos hmodes] at h
      obtain ⟨_, -, h⟩ := except_bind_eq_ok.1 h
      cases h
      rfl
    · rw [if_neg hmodes] at h
      cases h
      rfl
  rw [← hmtime]
  exact ((Rat.den_eq_one_iff _).1 (not_not.1 hwhole)).symm

/-- The measures tell whether the times are exact. -/
theorem Measured.exact_iff {archive : TarArchive} {metadata : TarMetadata} (h : Measured archive metadata) (epoch : Int) :
    1 ≤ metadata.member_count ∧ (metadata.minimum_mtime = epoch ∧ metadata.maximum_mtime = epoch ↔ Exact epoch archive) := by
  obtain ⟨o, h⟩ := h
  obtain ⟨-, root, entries, -, -, h⟩ := accepts_iff.1 h
  have hcount : 1 ≤ metadata.member_count := by
    rw [h.member_count, h.checked.length_eq]
    obtain ⟨e, he, -⟩ := List.mem_map.1 h.minimum_mtime.1
    exact List.length_pos_of_mem he
  have htimes : Exact epoch archive ↔ ∀ t ∈ entries.map (·.2), t = epoch := by
    have hchecked := h.checked
    unfold Exact
    generalize archive.members = members at hchecked
    clear h hcount
    induction hchecked with
    | nil => simp
    | cons hmember _ ih =>
      have hmtime := check_time_whole (check_member_ok hmember.2).2.2.2
      rw [List.forall_mem_cons, List.map_cons, List.forall_mem_cons, hmtime, Int.cast_inj]
      exact and_congr_right fun _ => ih
  refine ⟨hcount, ?_⟩
  rw [htimes]
  constructor
  · rintro ⟨hminimum, hmaximum⟩ t ht
    have hleast := h.minimum_mtime.2 ht
    have hgreatest := h.maximum_mtime.2 ht
    omega
  · intro hall
    exact ⟨hall _ h.minimum_mtime.1, hall _ h.maximum_mtime.1⟩

theorem Measured.record_iff {archive : TarArchive} {metadata : TarMetadata} (h : Measured archive metadata) {epoch : Int}
    (hepoch : 1 ≤ epoch) {fields : List (String × Json)}
    (hkeys : ReleaseCache.keys_are fields ["maximum_mtime", "member_count", "minimum_mtime"] = true)
    (hlookup : ∀ key ∈ ["maximum_mtime", "member_count", "minimum_mtime"], fields.lookup key = metadata.to_dict.lookup key)
    (label : String) : _metadata_record (some (.obj fields)) epoch label = .ok () ↔ Exact epoch archive := by
  obtain ⟨hcount, hexact⟩ := h.exact_iff epoch
  have hminimum : fields.lookup "minimum_mtime" = some (.int metadata.minimum_mtime) := hlookup _ (by simp)
  have hmaximum : fields.lookup "maximum_mtime" = some (.int metadata.maximum_mtime) := hlookup _ (by simp)
  have hmembers : fields.lookup "member_count" = some (.int metadata.member_count) := hlookup _ (by simp)
  unfold _metadata_record mapping
  dsimp only
  rw [if_pos hkeys, except_ok_bind, hminimum, hmaximum, hmembers, ← hexact]
  simp only [except_throw, except_error_bind, except_check_eq_ok]
  constructor
  · rintro ⟨-, hboth, -⟩
    omega
  · rintro ⟨hmin, hmax⟩
    exact ⟨by omega, by omega, rfl⟩

theorem require_epoch_ok {fields : List (String × Json)} {epoch : Int} {label : String}
    (hstatus : fields.lookup "status" = some (.str "PASS")) (hepoch : fields.lookup "epoch" = some (.int epoch)) :
    require_epoch fields epoch label = .ok () := by
  unfold require_epoch
  rw [hstatus, hepoch]
  simp [ReleaseCache.same_value, Json.pyEq]

/-- **The evidence of a source.** The record of an accepted stream passes exactly if every member has the epoch. -/
theorem source_evidence_iff {archive : TarArchive} {metadata : TarMetadata} (h : Measured archive metadata) (epoch : Int)
    (label : String) :
    require_source_archive_evidence (some (.obj (debian_archive_metadata epoch metadata))) (some (.int epoch)) label = .ok () ↔
      1 ≤ epoch ∧ Exact epoch archive := by
  have hmapping : mapping (some (.obj (debian_archive_metadata epoch metadata)))
      ["epoch", "maximum_mtime", "member_count", "minimum_mtime", "status"] label =
      .ok (debian_archive_metadata epoch metadata) := rfl
  have hstatus : require_epoch (debian_archive_metadata epoch metadata) epoch label = .ok () := require_epoch_ok rfl rfl
  have hrecord : (debian_archive_metadata epoch metadata).filter
      (fun f => ["maximum_mtime", "member_count", "minimum_mtime"].contains f.1) = metadata.to_dict := rfl
  unfold require_source_archive_evidence
  rw [hmapping, except_bind_eq_ok]
  constructor
  · rintro ⟨checked_epoch, hchecked, hrest⟩
    obtain ⟨hpositive, rfl⟩ := epoch_iff.1 hchecked
    rw [except_ok_bind, hstatus, except_ok_bind, hrecord] at hrest
    exact ⟨hpositive, (h.record_iff hpositive rfl (fun _ _ => rfl) label).1 hrest⟩
  · rintro ⟨hpositive, hexact⟩
    refine ⟨epoch, epoch_iff.2 ⟨hpositive, rfl⟩, ?_⟩
    rw [except_ok_bind, hstatus, except_ok_bind, hrecord]
    exact (h.record_iff hpositive rfl (fun _ _ => rfl) label).2 hexact

theorem names_are (packages : List (String × TarMetadata × TarMetadata)) :
    ReleaseCache.keys_are (packages.map fun p => (p.1, Json.obj (streams p.2.1 p.2.2))) (packages.map (·.1)) = true := by
  unfold ReleaseCache.keys_are
  rw [List.map_map, Bool.and_eq_true, List.all_eq_true, List.all_eq_true]
  constructor
  · intro f hf
    obtain ⟨p, hp, rfl⟩ := List.mem_map.1 hf
    exact List.contains_iff_mem.2 (List.mem_map_of_mem hp)
  · intro name hname
    exact List.contains_iff_mem.2 hname

/-- **The evidence of packages.** The records of accepted streams pass exactly if the packages have distinct names and every
member of every stream has the epoch. -/
theorem package_evidence_iff {packages : List (String × TarMetadata × TarMetadata)} {control data : String → TarArchive}
    (h : ∀ p ∈ packages, Measured (control p.1) p.2.1 ∧ Measured (data p.1) p.2.2) (epoch : Int) (label : String) :
    require_package_archive_evidence (some (.obj (package_archive_metadata epoch packages))) (packages.map (·.1))
        (some (.int epoch)) label = .ok () ↔
      1 ≤ epoch ∧ packages ≠ [] ∧ (packages.map (·.1)).Nodup ∧ "" ∉ packages.map (·.1) ∧
        ∀ p ∈ packages, Exact epoch (control p.1) ∧ Exact epoch (data p.1) := by
  have hmapping : mapping (some (.obj (package_archive_metadata epoch packages))) ["epoch", "packages", "status"] label =
      .ok (package_archive_metadata epoch packages) := rfl
  have hstatus : require_epoch (package_archive_metadata epoch packages) epoch label = .ok () := require_epoch_ok rfl rfl
  have hlookup : (package_archive_metadata epoch packages).lookup "packages" =
      some (.obj (packages.map fun p => (p.1, .obj (streams p.2.1 p.2.2)))) := rfl
  have hstreams : 1 ≤ epoch → ∀ p ∈ packages, ((do
      let kinds ← (mapping (some (.obj (streams p.2.1 p.2.2))) ["control", "data"] label).mapError fun _ =>
        PyErr.ValueError (label ++ " is malformed for " ++ p.1)
      ["control", "data"].forM fun archive_kind =>
        _metadata_record (kinds.lookup archive_kind) epoch (label ++ " for " ++ p.1 ++ " " ++ archive_kind ++ " tar")) = .ok () ↔
      Exact epoch (control p.1) ∧ Exact epoch (data p.1)) := by
    intro hpositive p hp
    have hkinds : (mapping (some (.obj (streams p.2.1 p.2.2))) ["control", "data"] label).mapError
        (fun _ => PyErr.ValueError (label ++ " is malformed for " ++ p.1)) = .ok (streams p.2.1 p.2.2) := rfl
    rw [hkinds, except_ok_bind, except_forM_ok_iff, List.forall_mem_cons, List.forall_mem_singleton]
    have hcontrol : (streams p.2.1 p.2.2).lookup "control" = some (.obj p.2.1.to_dict) := rfl
    have hdata : (streams p.2.1 p.2.2).lookup "data" = some (.obj p.2.2.to_dict) := rfl
    rw [hcontrol, hdata]
    exact and_congr ((h p hp).1.record_iff hpositive rfl (fun _ _ => rfl) _)
      ((h p hp).2.record_iff hpositive rfl (fun _ _ => rfl) _)
  unfold require_package_archive_evidence
  rw [hmapping, except_bind_eq_ok]
  constructor
  · rintro ⟨checked_epoch, hchecked, hrest⟩
    obtain ⟨hpositive, rfl⟩ := epoch_iff.1 hchecked
    simp only [except_throw, except_error_bind, except_check_eq_ok] at hrest
    obtain ⟨hnames, hrest⟩ := hrest
    rw [except_ok_bind, hstatus, except_ok_bind, hlookup] at hrest
    obtain ⟨-, hpackages⟩ := except_check_eq_ok.1 hrest
    rw [except_forM_ok_iff] at hpackages
    obtain ⟨hnonempty, hdistinct, hnamed⟩ : packages.map (·.1) ≠ [] ∧ (packages.map (·.1)).Nodup ∧ "" ∉ packages.map (·.1) := by
      tauto
    refine ⟨hpositive, fun hempty => hnonempty (hempty ▸ rfl), hdistinct, hnamed, fun p hp => ?_⟩
    exact (hstreams hpositive p hp).1 (hpackages _ (List.mem_map_of_mem hp))
  · rintro ⟨hpositive, hnonempty, hdistinct, hnamed, hexact⟩
    refine ⟨epoch, epoch_iff.2 ⟨hpositive, rfl⟩, ?_⟩
    have hnames : ¬(packages.map (·.1) = [] ∨ ¬(packages.map (·.1)).Nodup ∨ "" ∈ packages.map (·.1)) := by
      rw [List.map_eq_nil_iff]
      tauto
    rw [if_neg hnames, except_ok_bind]
    dsimp only
    rw [hstatus, except_ok_bind, hlookup]
    dsimp only
    rw [names_are, if_neg (by simp)]
    refine except_forM_ok_iff.2 fun record hrecord => ?_
    obtain ⟨p, hp, rfl⟩ := List.mem_map.1 hrecord
    exact (hstreams hpositive p hp).2 (hexact p hp)

theorem package_evidence_sample :
    require_package_archive_evidence (some (.obj (package_archive_metadata 1700000000
      [("dkc.deb", ⟨2, 1700000000, 1700000000⟩, ⟨2, 1700000000, 1700000000⟩)]))) ["dkc.deb"] (some (.int 1700000000)) "" =
      .ok () := by
  have hmeasured : Measured (Sample.debian "" "") ⟨2, 1700000000, 1700000000⟩ := ⟨Sample.options, Sample.debian_accepted⟩
  refine (@package_evidence_iff _ (fun _ => Sample.debian "" "") (fun _ => Sample.debian "" "")
    (List.forall_mem_singleton.2 ⟨hmeasured, hmeasured⟩) 1700000000 "").2 ?_
  have hexact : Exact 1700000000 (Sample.debian "" "") := ((hmeasured.exact_iff _).2).1 ⟨rfl, rfl⟩
  exact ⟨by norm_num, List.cons_ne_nil _ _, List.nodup_singleton _, by simp, List.forall_mem_singleton.2 ⟨hexact, hexact⟩⟩

end TarMetadata
