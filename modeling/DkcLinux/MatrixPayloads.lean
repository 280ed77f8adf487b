import Mathlib.Data.List.Dedup
import Mathlib.Data.List.Lex
import Mathlib.Data.List.Sort
import Mathlib.Data.Char
import DkcLinux.Records
import DkcLinux.Text.PosixPath

/-!
# Payloads of the package matrix (`scripts/in-container/audit-package-matrix.py:312-335, 628-893, 1210-1297`)

| here | there |
| --- | --- |
| `normalized_payload_member`, `payload_records` | the members of one package, as records |
| `collect_deb`                                  | the loop over the packages of the exports: a record list for every package, an owner for every file and link |
| `validate_payload_layout`                      | the required files, and the trees in which every package may own a path |
| `validate_copyright_documentation`             | the chain of documentation links of every package |
| `audit_payloads`                               | the collection, the collision check and the two validations |

`fail` raises `SystemExit`; `shown` are the values that its text shows as lists or with `!r`. The documentation chain visits
no package twice, so its fuel is the number of packages (`documentation_chain_ends`).
-/

namespace PackageMatrix

open Py Path

inductive Stop where
  | SystemExit (message : String) (shown : List Text := [])
  | KeyError (key : Text)
  | Unending
deriving DecidableEq

/-- A text in a message. -/
def str (t : Text) : String := String.ofList t

def starts (t : Text) (p : String) : Bool := p.toList.isPrefixOf t

/-! ## Members of a package -/

inductive MemberType where
  | dir
  | file
  | sym
  | lnk
  | special
deriving DecidableEq

/-- What the audit reads of a `tarfile.TarInfo`. -/
structure TarInfo where
  name : Text
  type : MemberType
  mode : Nat
  size : Nat
  linkname : Text

inductive Kind where
  | directory
  | file
  | symlink
  | hardlink
deriving DecidableEq

structure Record where
  path : Text
  kind : Kind
  mode : Nat
  size : Nat
  target : Text
deriving DecidableEq

/-- `"\t\r\n\0"`. -/
def is_control (c : Char) : Bool := c = '\t' || c = '\r' || c = '\n' || c = '\x00'

/-- Not a path below the root. -/
def escapes (p : Text) : Bool := p = [] || p = ['.'] || p = ['.', '.'] || starts p "../"

def special_bits (member : TarInfo) : Bool := member.mode &&& 0o7000 ≠ 0

def normalized_payload_member (member : TarInfo) (package : Text) : Except Stop (Option Record) :=
  let raw := if starts member.name "./" then member.name.drop 2 else member.name
  let relative := normpath raw
  let mode := member.mode &&& 0o7777
  let link (kind : Kind) (base : Text) : Except Stop (Option Record) := do
    let target := member.linkname
    let what := if kind = .symlink then "symlink" else "hardlink"
    if target = [] ∨ target.head? = some '/' ∨ target.any is_control then
      throw (.SystemExit ("unsafe " ++ what ++ " target in " ++ str package ++ ": " ++ str relative ++ " -> ") [target])
    if escapes (normpath (join base target)) then
      throw (.SystemExit ("escaping " ++ what ++ " target in " ++ str package ++ ": " ++ str relative ++ " -> ") [target])
    return some ⟨relative, kind, mode, 0, target⟩
  if (raw = [] ∨ raw = ['.']) ∧ member.type = .dir then .ok none
  else if raw = [] ∨ raw.head? = some '/' ∨ ['.', '.'] ∈ parts raw ∨ raw.any is_control then
    .error (.SystemExit ("unsafe package payload path in " ++ str package ++ ": ") [member.name])
  else if escapes relative then
    .error (.SystemExit ("unsafe package payload path in " ++ str package ++ ": ") [member.name])
  else
    match member.type with
    | .dir =>
      if special_bits member then
        .error (.SystemExit ("special permission bits in " ++ str package ++ ": " ++ str relative))
      else .ok (some ⟨relative, .directory, mode, 0, []⟩)
    | .file =>
      if special_bits member then
        .error (.SystemExit ("special permission bits in " ++ str package ++ ": " ++ str relative))
      else .ok (some ⟨relative, .file, mode, member.size, []⟩)
    | .sym => link .symlink (dirname relative)
    | .lnk => link .hardlink []
    | .special =>
      .error (.SystemExit ("unsupported special payload entry in " ++ str package ++ ": " ++ str relative))

/-- One round of the loop; the paths of the records are the set `seen`. -/
def add_member (filename : Text) (records : List Record) (member : TarInfo) : Except Stop (List Record) := do
  match ← normalized_payload_member member filename with
  | none => return records
  | some record =>
    if records.any (·.path = record.path) then
      throw (.SystemExit ("duplicate payload path inside " ++ str filename ++ ": " ++ str record.path))
    return records ++ [record]

/-- A hard link to a file that the package does not own. -/
def dangling (records : List Record) (record : Record) : Bool :=
  record.kind = .hardlink && !records.any (·.path = normpath record.target)

def payload_records (filename : Text) (members : List TarInfo) : Except Stop (List Record) := do
  let result ← members.foldlM (add_member filename) []
  match result.find? (dangling result) with
  | some record =>
    throw (.SystemExit ("hardlink target is not owned by " ++ str filename ++ ": " ++ str record.path ++ " -> " ++
      str record.target))
  | none => return result.insertionSort fun r s => r.path ≤ s.path

/-! ## Packages of the exports -/

def RELEASE_FLAVORS : List String := ["v2", "v3"]

/-- `[A-Za-z0-9][A-Za-z0-9.+~-]*`. -/
def is_abi : Text → Bool
  | [] => false
  | c :: rest => isAsciiAlnum c && rest.all fun c => isAsciiAlnum c || c == '.' || c == '+' || c == '~' || c == '-'

/-- What the payload audit reads of an accepted publication identity. -/
structure Identity where
  abi : Text
  valid : is_abi abi = true

/-- `release_releases`: the identity has this release for every flavor. -/
def Identity.releases (identity : Identity) : List (Text × Text) :=
  RELEASE_FLAVORS.map fun flavor => (flavor.toList, identity.abi ++ '-' :: flavor.toList ++ "-amd64".toList)

def headers_common (abi : Text) : Text := "dkc-linux-headers-".toList ++ abi ++ "-common".toList

def kbuild (abi : Text) : Text := "dkc-linux-kbuild-".toList ++ abi

def common_packages (abi : Text) : List Text := [headers_common abi, kbuild abi]

/-- `dkc-linux-{role}-{krel}`. -/
def versioned (role : String) (krel : Text) : Text := "dkc-linux-".toList ++ role.toList ++ '-' :: krel

/-- `dkc-linux-{role}-{flavor}-amd64`. -/
def meta_package (role : String) (flavor : Text) : Text := versioned role (flavor ++ "-amd64".toList)

/-- What the loop reads of a `.deb`; `fields` are the other fields of its control record. -/
structure Deb where
  filename : Text
  size : Nat
  sha256 : Text
  package : Text
  fields : List (Text × Text)
  members : List TarInfo

/-- `payload_owners` as the pairs that were appended, a path and its package. -/
structure Collected where
  all_packages : List Deb
  package_payloads : List (Text × List Record)
  payload_owners : List (Text × Text)

def Collected.empty : Collected := ⟨[], [], []⟩

def same_bytes (deb canonical : Deb) : Bool :=
  deb.filename = canonical.filename && deb.size = canonical.size && deb.sha256 = canonical.sha256 &&
    deb.fields = canonical.fields

def collect_deb (abi : Text) (flavor : Text) (c : Collected) (deb : Deb) : Except Stop Collected :=
  match c.all_packages.find? (·.package = deb.package) with
  | some canonical =>
    if deb.package ∉ common_packages abi then
      .error (.SystemExit ("flavor-specific package is duplicated across jobs: " ++ str deb.package))
    else if flavor = "v2".toList then
      .error (.SystemExit ("canonical common package is duplicated inside v2: " ++ str deb.package))
    else if !same_bytes deb canonical then
      .error (.SystemExit ("common package copy differs from canonical v2 bytes: " ++ str deb.package ++ " in " ++ str flavor))
    else .ok c
  | none => do
    let records ← payload_records deb.filename deb.members
    if deb.package ∈ common_packages abi ∧ flavor ≠ "v2".toList then
      throw (.SystemExit ("common package lacks its canonical v2 copy: " ++ str deb.package))
    return { all_packages := c.all_packages ++ [deb]
             package_payloads := c.package_payloads ++ [(deb.package, records)]
             payload_owners := c.payload_owners ++
               (records.filter (·.kind ≠ .directory)).map fun record => (record.path, deb.package) }

/-- The exports of the flavors, one after the other. -/
def collect (abi : Text) (exports : List (Text × List Deb)) : Except Stop Collected :=
  exports.foldlM (fun c flavor => flavor.2.foldlM (collect_deb abi flavor.1) c) .empty

/-- `payload_owners[path]`. -/
def owners (owned : List (Text × Text)) (path : Text) : List Text := (owned.filter (·.1 = path)).map (·.2)

def collisions (owned : List (Text × Text)) : List Text :=
  (owned.map (·.1)).dedup.filter fun path => 1 < (owners owned path).length

theorem mem_of_lookup {V : Type} {d : List (Text × V)} {key : Text} {v : V} (h : d.lookup key = some v) : (key, v) ∈ d := by
  obtain ⟨front, back, rfl, -⟩ := List.lookup_eq_some_iff.1 h
  exact List.mem_append_right _ List.mem_cons_self

/-! ## The layout -/

section Layout

variable (payloads : List (Text × List Record)) (owned : List (Text × Text))

/-- `package_payloads.get(package, {}).get(path)`. -/
def record_at (package path : Text) : Option Record :=
  (payloads.lookup package).bind fun records => records.find? (·.path = path)

/-- `package_payloads[package]`. -/
def payload (package : Text) : Except Stop (List Record) :=
  match payloads.lookup package with
  | some records => .ok records
  | none => .error (.KeyError package)

def kind_name : Kind → String
  | .directory => "directory"
  | .file => "file"
  | .symlink => "symlink"
  | .hardlink => "hardlink"

def require (package path : Text) (kind : Kind) : Except Stop Record :=
  match record_at payloads package path with
  | some record =>
    if record.kind ≠ kind then
      .error (.SystemExit (str package ++ " does not own required " ++ kind_name kind ++ " payload " ++ str path))
    else if owners owned path ≠ [package] then
      .error (.SystemExit ("required payload has an ambiguous owner: " ++ str path))
    else .ok record
  | none => .error (.SystemExit (str package ++ " does not own required " ++ kind_name kind ++ " payload " ++ str path))

def resolved_link (path target : Text) : Text := normpath (join (dirname path) target)

/-- The links of the common headers into the Kbuild tree. -/
def common_leaf (abi : Text) (leaf : String) : Except Stop Unit := do
  let path := "usr/src/linux-headers-".toList ++ abi ++ "-common/".toList ++ leaf.toList
  let record ← require payloads owned (headers_common abi) path .symlink
  let expected := "usr/lib/linux-kbuild-".toList ++ abi ++ '/' :: leaf.toList
  if resolved_link path record.target ≠ expected then
    throw (.SystemExit ("common header " ++ leaf ++ " link does not resolve to " ++ str expected))
  let records ← payload payloads (kbuild abi)
  if !records.any fun r => inside expected r.path then
    throw (.SystemExit (str (kbuild abi) ++ " has no payload below " ++ str expected))

def validate_common (abi : Text) : Except Stop Unit := do
  if owned.any fun x => starts x.1 "usr/src/dkc-linux-headers-" then
    throw (.SystemExit "renamed package name leaked into the conventional /usr/src header ABI")
  if owned.any fun x => starts x.1 "usr/lib/dkc-linux-kbuild-" || starts x.1 "usr/src/dkc-linux-kbuild-" then
    throw (.SystemExit "renamed package name leaked into the conventional Kbuild filesystem ABI")
  let _ ← require payloads owned (headers_common abi)
    ("usr/src/linux-headers-".toList ++ abi ++ "-common/Makefile".toList) .file
  common_leaf payloads owned abi "scripts"
  common_leaf payloads owned abi "tools"
  let kbuild_source := "usr/src/linux-kbuild-".toList ++ abi
  let record ← require payloads owned (kbuild abi) kbuild_source .symlink
  if resolved_link kbuild_source record.target ≠ "usr/lib/linux-kbuild-".toList ++ abi then
    throw (.SystemExit (str (kbuild abi) ++ " compatibility link does not resolve to its conventional payload"))

/-- `re.match(r"usr/lib/modules/([^/]+)/", path)`. -/
def module_root (path : Text) : Option Text :=
  if starts path "usr/lib/modules/" then
    match parts (path.drop 16) with
    | root :: _ :: _ => if root = [] then none else some root
    | _ => none
  else none

def same_set (a b : List Text) : Bool := a.all (b.contains ·) && b.all (a.contains ·)

theorem same_set_iff {a b : List Text} : same_set a b = true ↔ ∀ x, x ∈ a ↔ x ∈ b := by
  rw [same_set, Bool.and_eq_true, List.all_eq_true, List.all_eq_true]
  simp only [List.contains_iff_mem]
  constructor
  · rintro ⟨hab, hba⟩ x
    exact ⟨hab x, hba x⟩
  · intro h
    exact ⟨fun x => (h x).1, fun x => (h x).2⟩

/-- `re.search(r"[.]ko(?:[.](?:xz|zst))?$", path)`. -/
def is_module (path : Text) : Bool :=
  let line := if path.getLast? = some '\n' then path.dropLast else path
  [".ko", ".ko.xz", ".ko.zst"].any fun ending => ending.toList.isSuffixOf line || ending.toList.isSuffixOf path

/-- The links of the module tree into the headers. -/
def release_leaf (headers krel expected : Text) (leaf : String) : Except Stop Unit := do
  let path := "usr/lib/modules/".toList ++ krel ++ '/' :: leaf.toList
  let record ← require payloads owned headers path .symlink
  if resolved_link path record.target ≠ expected then
    throw (.SystemExit (str headers ++ " " ++ leaf ++ " link does not resolve to " ++ str expected))

def validate_release (abi krel : Text) (btf_required : Bool) : Except Stop Unit := do
  let headers := versioned "headers" krel
  let modules := versioned "modules" krel
  let _ ← require payloads owned (versioned "base" krel) ("boot/config-".toList ++ krel) .file
  let _ ← require payloads owned (versioned "base" krel) ("boot/System.map-".toList ++ krel) .file
  let _ ← require payloads owned (versioned "binary" krel) ("boot/vmlinuz-".toList ++ krel) .file
  let module_tree := "usr/lib/modules/".toList ++ krel ++ "/kernel".toList
  let records ← payload payloads modules
  if !records.any fun r => inside module_tree r.path && is_module r.path then
    throw (.SystemExit (str modules ++ " contains no module below " ++ str module_tree ++ "/"))
  let header_root := "usr/src/linux-headers-".toList ++ krel
  let _ ← require payloads owned headers (header_root ++ "/.kernelvariables".toList) .file
  let _ ← require payloads owned headers (header_root ++ "/Makefile".toList) .file
  let _ ← require payloads owned headers (header_root ++ "/Module.symvers".toList) .file
  let header_vmlinux := header_root ++ "/vmlinux".toList
  if btf_required then
    let _ ← require payloads owned headers header_vmlinux .file
  else
    let records ← payload payloads headers
    if records.any (·.path = header_vmlinux) then
      throw (.SystemExit (str headers ++ " contains a vmlinux payload while BTF is disabled"))
  release_leaf payloads owned headers krel header_root "build"
  release_leaf payloads owned headers krel ("usr/src/linux-headers-".toList ++ abi ++ "-common".toList) "source"

/-- The rows of a flavor in `allowed`. -/
def release_areas (flavor krel : Text) : List (Text × List Text) :=
  let share := "usr/share/".toList
  let modules (leaf : String) := "usr/lib/modules/".toList ++ krel ++ '/' :: leaf.toList
  [(versioned "base" krel, [share, "boot/config-".toList ++ krel, "boot/System.map-".toList ++ krel,
      modules "modules.builtin", modules "modules.builtin.modinfo", modules "modules.order"]),
    (versioned "binary" krel, [share, "boot/vmlinuz-".toList ++ krel]),
    (versioned "modules" krel, [share, modules "kernel/"]),
    (versioned "image" krel, [share]),
    (versioned "headers" krel, [share, "usr/src/linux-headers-".toList ++ krel ++ ['/'], modules "build", modules "source"]),
    (meta_package "base" flavor, [share]),
    (meta_package "image" flavor, [share]),
    (meta_package "headers" flavor, [share])]

/-- The rows of `allowed` in the order in which they are set. -/
def areas (abi : Text) (releases : List (Text × Text)) : List (Text × List Text) :=
  (headers_common abi, ["usr/share/".toList, "usr/src/linux-headers-".toList ++ abi ++ "-common/".toList]) ::
    (kbuild abi, ["usr/share/".toList, "usr/lib/linux-kbuild-".toList ++ abi ++ ['/'],
      "usr/src/linux-kbuild-".toList ++ abi]) ::
    releases.flatMap fun release => release_areas release.1 release.2

/-- `allowed[package]`: a row that is set again has its last value. -/
def allowed (abi : Text) (releases : List (Text × Text)) (package : Text) : Option (List Text) :=
  (areas abi releases).reverse.lookup package

/-- `area` ends with a slash, and the path starts with it. -/
def in_tree (area path : Text) : Bool := area.getLast? = some '/' && area.isPrefixOf path

def accepts (record : Record) (area : Text) : Bool :=
  if record.kind = .directory then
    rstrip area = record.path || inside record.path (rstrip area) || in_tree area record.path
  else record.path = area || in_tree area record.path

def validate_ownership (abi : Text) (releases : List (Text × Text)) : Except Stop Unit :=
  payloads.forM fun (package, records) =>
    records.forM fun record =>
      if ((allowed abi releases package).getD []).any (accepts record) then .ok ()
      else .error (.SystemExit (str package ++ " owns an unreviewed payload path: " ++ str record.path))

def validate_payload_layout (abi : Text) (releases : List (Text × Text)) (btf_required : Bool) : Except Stop Unit := do
  validate_common payloads owned abi
  let module_roots := owned.filterMap fun x => module_root x.1
  if !same_set module_roots (releases.map (·.2)) then
    throw (.SystemExit "package payload module roots differ from the release KRELs: "
      (module_roots.dedup.insertionSort fun a b => a ≤ b))
  releases.forM fun release => validate_release payloads owned abi release.2 btf_required
  if !same_set ((areas abi releases).map (·.1)) (payloads.map (·.1)) then
    throw (.SystemExit "cannot validate payload ownership for an incomplete package graph")
  validate_ownership payloads abi releases

/-! ## Documentation -/

/-- The links from one package; `visited` are the packages before `current`. -/
def documentation_chain (package : Text) : Nat → Text → List Text → Except Stop Unit
  | 0, _, _ => .error .Unending
  | fuel + 1, current, visited =>
    if current ∈ visited then
      .error (.SystemExit ("documentation symlink cycle for " ++ str package ++ ": ")
        (visited.insertionSort fun a b => a ≤ b))
    else
      let root := "usr/share/doc/".toList ++ current
      match record_at payloads current root with
      | none => .error (.SystemExit (str current ++ " does not own its documentation root " ++ str root))
      | some record =>
        match record.kind with
        | .directory =>
          match record_at payloads current (root ++ "/copyright".toList) with
          | some ⟨_, .file, _, _, _⟩ => .ok ()
          | _ =>
            .error (.SystemExit ("documentation chain for " ++ str package ++ " does not end in a regular copyright file"))
        | .symlink =>
          if record.target ∉ payloads.map (·.1) ∨ '/' ∈ record.target ∨ record.target = ['.'] ∨
              record.target = ['.', '.'] then
            .error (.SystemExit (str current ++ " documentation link does not name a packaged documentation root: " ++
              str record.target))
          else documentation_chain package fuel record.target (current :: visited)
        | kind =>
          .error (.SystemExit (str current ++ " documentation root has unexpected type " ++ kind_name kind))

def validate_copyright_documentation : Except Stop Unit :=
  ((payloads.map (·.1)).insertionSort fun a b => a ≤ b).forM fun package =>
    documentation_chain payloads package (payloads.length + 1) package []

end Layout

/-- The payload part of `main`. -/
def audit_payloads (identity : Identity) (btf_required : Bool) (exports : List (Text × List Deb)) :
    Except Stop (List (Text × List Record)) := do
  let c ← collect identity.abi exports
  if collisions c.payload_owners ≠ [] then
    throw (.SystemExit "package payload paths collide across the matrix: "
      (((collisions c.payload_owners).insertionSort fun a b => a ≤ b).take 10))
  validate_payload_layout c.package_payloads c.payload_owners identity.abi identity.releases btf_required
  validate_copyright_documentation c.package_payloads
  return c.package_payloads

end PackageMatrix
