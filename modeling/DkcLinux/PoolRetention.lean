import DkcLinux.Retention
import DkcLinux.PackageOrder
import DkcLinux.Text.Dict

/-!
# Retention of a pool directory (`scripts/in-container/build-signed-repository.py:163-210`)

A pool object's version is read from its contents or from its name, by the kind of the file:

| file | version text |
|---|---|
| `*.deb` | the `Version` field, as `dpkg-deb` shows it |
| `*.dsc` | the first `Version:` line |
| `*.orig.tar.xz` | what the name has after the underscore |
| `*.debian.tar.xz` | the same |
-/

namespace PoolRetention

open Py

/-- `\s*(\S+)\s*$` after a `Version:`. -/
def matchVersion (rest : List Char) : Option (List Char) :=
  let body := rest.dropWhile isSpace
  let version := body.takeWhile fun c => !isSpace c
  let after := body.dropWhile fun c => !isSpace c
  if version ≠ [] ∧ (after.dropWhile isSpace = [] ∨ '\n' ∈ after.takeWhile isSpace) then some version
  else none

def VERSION : List Char := ['V', 'e', 'r', 's', 'i', 'o', 'n', ':']

/-- `re.search(r"^Version:\s*(\S+)\s*$", text, re.MULTILINE)`; `start` says that a line starts here. -/
def searchVersion (start : Bool) : List Char → Option (List Char)
  | [] => none
  | c :: rest =>
    match (if start && VERSION.isPrefixOf (c :: rest) then matchVersion ((c :: rest).drop VERSION.length)
      else none) with
    | some version => some version
    | none => searchVersion (c == '\n') rest

/-- `name.split("_", 1)[1].removesuffix(suffix)`. -/
def nameVersion (name suffix : String) : Except PyErr String :=
  if '_' ∈ name.toList then .ok (removesuffix (String.ofList (partition '_' name.toList).2) suffix)
  else .error .IndexError

section
variable (dpkg_deb : ByteArray → Except PyErr String)

/-- The version text of a pool object. -/
def versionText (name : String) (content : ByteArray) : Except PyErr String :=
  if endswith name ".deb" then dpkg_deb content
  else if endswith name ".dsc" then do
    let text ← Serialize.read_text content
    match searchVersion true text.toList with
    | some version => .ok (String.ofList version)
    | none => .error (.ValueError ("source descriptor lacks a Version: " ++ name))
  else if endswith name ".orig.tar.xz" then nameVersion name ".orig.tar.xz"
  else if endswith name ".debian.tar.xz" then nameVersion name ".debian.tar.xz"
  else .error (.ValueError ("unclassified kernel pool object: " ++ name))

/-- `pool_version`. -/
def pool_version (name : String) (content : ByteArray) : Except PyErr DebianVersion := do
  let version ← versionText dpkg_deb name content
  Debver.parse version

def poolObject (path : String × ByteArray) : Except PyErr PoolObject := do
  let version ← pool_version dpkg_deb path.1 path.2
  PoolObject.make ⟨path.1, version, path.2.size⟩

/-- `apply_retention`: the decision, and the files it leaves. -/
def apply_retention (binary_pool : Dict ByteArray) (mode : Retention.RetentionMode) (max_bytes : Option Int)
    (fixed_bytes : Int) : Except PyErr (RetentionDecision × Dict ByteArray) := do
  let paths := sortedItems binary_pool.items
  let objects ← paths.mapM (poolObject dpkg_deb)
  let decision ← Retention.select_retained_objects objects mode max_bytes fixed_bytes
  return (decision, binary_pool.filter fun name _ => name ∈ decision.retained_keys)

end

/-! ## What Debian's tools produce -/

inductive Kind where
  | binary
  | source
  | orig
  | debian
deriving DecidableEq

/-- The text that says the version of a file. -/
def Kind.text (kind : Kind) (version : DebianVersion) : String :=
  match kind with
  | .binary => version.raw
  | .source => version.raw
  | .orig => version.upstream
  | .debian => version.upstream ++ ("-" ++ version.revision)

/-- The lines before the version, the version, and what follows. -/
def descriptor (lines : List String) (version : String) (post : String) : String :=
  String.ofList (lines.flatMap fun line => line.toList ++ ['\n']) ++
    ("Version: " ++ (version ++ ("\n" ++ post)))

/-- A file of a package version: a control field or a descriptor line has the full version, a tarball
is named with the version without its epoch (and, for the original source, without its revision). -/
def Made (dpkg_deb : ByteArray → Except PyErr String) (kind : Kind) (version : DebianVersion)
    (name : String) (content : ByteArray) : Prop :=
  match kind with
  | .binary => (∃ stem, name = stem ++ ".deb") ∧ dpkg_deb content = .ok version.raw
  | .source => (∃ stem, name = stem ++ ".dsc") ∧ ∃ lines post,
      (∀ line ∈ lines, '\n' ∉ line.toList ∧ ¬ VERSION.isPrefixOf line.toList) ∧
      '\r' ∉ (descriptor lines version.raw post).toList ∧ content = (descriptor lines version.raw post).toUTF8
  | .orig => Debver.hyphened version ∧ ∃ package : String, '_' ∉ package.toList ∧
      name = package ++ ("_" ++ (version.upstream ++ ".orig.tar.xz"))
  | .debian => Debver.hyphened version ∧ ∃ package : String, '_' ∉ package.toList ∧
      name = package ++ ("_" ++ (version.upstream ++ ("-" ++ version.revision) ++ ".debian.tar.xz"))

/-- A pool file and the package version it belongs to. Archives and descriptors are not empty. -/
structure PoolFile (dpkg_deb : ByteArray → Except PyErr String) where
  name : String
  content : ByteArray
  kind : Kind
  version : DebianVersion
  parsed : Debver.parse version.raw = .ok version
  made : Made dpkg_deb kind version name content
  in_directory : '/' ∉ name.toList
  nonempty : 0 < content.size

/-- The upstream release a file belongs to. -/
def PoolFile.release {dpkg_deb : ByteArray → Except PyErr String} (f : PoolFile dpkg_deb) : PatchRelease :=
  f.version.patch_release

def PoolFile.text {dpkg_deb : ByteArray → Except PyErr String} (f : PoolFile dpkg_deb) : String :=
  f.kind.text f.version

/-! ## Reading a version back -/

/-- A line that is no version line is passed. -/
theorem searchVersion_chars : ∀ (line rest : List Char), '\n' ∉ line →
    searchVersion false (line ++ '\n' :: rest) = searchVersion true rest
  | [], rest, _ => by simp [searchVersion]
  | c :: line, rest, h => by
    rw [List.mem_cons, not_or] at h
    have hc : (c == '\n') = false := by simpa using Ne.symm h.1
    rw [List.cons_append, searchVersion, hc]
    exact searchVersion_chars line rest h.2

/-- `Version:` does not go over the end of a line. -/
theorem prefixed_version {line rest : List Char} (h : VERSION.isPrefixOf (line ++ '\n' :: rest) = true) :
    VERSION.isPrefixOf line = true := by
  rw [List.isPrefixOf_iff_prefix] at h ⊢
  rcases List.prefix_or_prefix_of_prefix h (List.prefix_append line ('\n' :: rest)) with h' | ⟨t, ht⟩
  · exact h'
  · rw [← ht, List.prefix_append_right_inj] at h
    cases t with
    | nil => exact ⟨[], by rw [List.append_nil, ← ht, List.append_nil]⟩
    | cons c t =>
      rw [List.cons_prefix_cons] at h
      have hmem : '\n' ∈ VERSION := by
        rw [← ht, h.1]
        simp
      exact absurd hmem (by decide)

theorem searchVersion_line {line : List Char} (rest : List Char) (hn : '\n' ∉ line)
    (hv : ¬ VERSION.isPrefixOf line = true) :
    searchVersion true (line ++ '\n' :: rest) = searchVersion true rest := by
  have hprefix : ∀ r, VERSION.isPrefixOf (line ++ '\n' :: r) = false := fun r => by
    rw [← Bool.not_eq_true]
    exact fun h => hv (prefixed_version h)
  cases line with
  | nil =>
    have h := hprefix rest
    rw [List.nil_append] at h
    rw [List.nil_append, searchVersion, h]
    rfl
  | cons c line =>
    rw [List.mem_cons, not_or] at hn
    have hc : (c == '\n') = false := by simpa using Ne.symm hn.1
    have h := hprefix rest
    rw [List.cons_append] at h
    rw [List.cons_append, searchVersion, h, hc]
    exact searchVersion_chars line rest hn.2

theorem searchVersion_lines : ∀ (lines : List String) (rest : List Char),
    (∀ line ∈ lines, '\n' ∉ line.toList ∧ ¬ VERSION.isPrefixOf line.toList = true) →
    searchVersion true ((lines.flatMap fun line => line.toList ++ ['\n']) ++ rest) = searchVersion true rest
  | [], rest, _ => rfl
  | line :: lines, rest, h => by
    obtain ⟨hn, hv⟩ := h line List.mem_cons_self
    rw [List.flatMap_cons, List.append_assoc, List.append_assoc, List.singleton_append,
      searchVersion_line _ hn hv]
    exact searchVersion_lines lines rest fun l hl => h l (List.mem_cons_of_mem _ hl)

/-- A version without spaces is the match. -/
theorem matchVersion_eq {version : List Char} (hne : version ≠ []) (hsp : ∀ c ∈ version, isSpace c = false)
    (post : List Char) : matchVersion (' ' :: (version ++ '\n' :: post)) = some version := by
  have hall : ∀ c ∈ version, (!isSpace c) = true := fun c hc => by rw [hsp c hc]; rfl
  have hspace : isSpace ' ' = true := by decide +kernel
  have hnl : isSpace '\n' = true := by decide +kernel
  have hbody : (' ' :: (version ++ '\n' :: post)).dropWhile isSpace = version ++ '\n' :: post := by
    rw [List.dropWhile_cons_of_pos hspace]
    cases version with
    | nil => exact absurd rfl hne
    | cons c version => rw [List.cons_append, List.dropWhile_cons_of_neg (by simp [hsp c List.mem_cons_self])]
  have htake : (version ++ '\n' :: post).takeWhile (fun c => !isSpace c) = version := by
    rw [List.takeWhile_append_of_pos hall, List.takeWhile_cons_of_neg (by simp [hnl]), List.append_nil]
  have hdrop : (version ++ '\n' :: post).dropWhile (fun c => !isSpace c) = '\n' :: post := by
    rw [List.dropWhile_append_of_pos hall, List.dropWhile_cons_of_neg (by simp [hnl])]
  have hmem : '\n' ∈ ('\n' :: post).takeWhile isSpace := by
    rw [List.takeWhile_cons_of_pos hnl]
    exact List.mem_cons_self
  rw [matchVersion]
  simp only [hbody, htake, hdrop]
  rw [if_pos ⟨hne, .inr hmem⟩]

/-- A descriptor's version is read back. -/
theorem searchVersion_descriptor {lines : List String} {version : String} (post : String)
    (hlines : ∀ line ∈ lines, '\n' ∉ line.toList ∧ ¬ VERSION.isPrefixOf line.toList = true)
    (hne : version ≠ "") (hsp : version.toList.any isSpace = false) :
    searchVersion true (descriptor lines version post).toList = some version.toList := by
  have htext : (descriptor lines version post).toList =
      (lines.flatMap fun line => line.toList ++ ['\n']) ++
        (VERSION ++ ' ' :: (version.toList ++ '\n' :: post.toList)) := by
    simp [descriptor, VERSION]
  have hmatch := matchVersion_eq (mt (fun h => String.toList_inj.1 h) hne)
    (fun c hc => by
      rw [List.any_eq_false] at hsp
      simpa using hsp c hc) post.toList
  rw [htext, searchVersion_lines lines _ hlines, VERSION, List.cons_append, searchVersion]
  simp only [VERSION, Bool.true_and]
  rw [if_pos (by simp)]
  simp only [List.cons_append, List.nil_append, List.length_cons, List.length_nil, List.drop_succ_cons,
    List.drop_zero]
  rw [hmatch]

theorem nameVersion_eq {package : String} (hp : '_' ∉ package.toList) (version suffix : String) :
    nameVersion (package ++ ("_" ++ (version ++ suffix))) suffix = .ok version := by
  have htext : (package ++ ("_" ++ (version ++ suffix))).toList =
      package.toList ++ '_' :: (version ++ suffix).toList := by simp
  rw [nameVersion, htext, if_pos (by simp), partition_append hp, String.ofList_toList, removesuffix_append]

/-- **The version text of a produced file.** -/
theorem versionText_made {dpkg_deb : ByteArray → Except PyErr String} (f : PoolFile dpkg_deb) :
    versionText dpkg_deb f.name f.content = .ok f.text := by
  have hmade := f.made
  rw [PoolFile.text, versionText]
  cases hk : f.kind with
  | binary =>
    rw [hk] at hmade
    obtain ⟨⟨stem, hname⟩, hshow⟩ := hmade
    rw [if_pos (endswith_iff.2 ⟨stem, hname⟩), hshow]
    rfl
  | source =>
    rw [hk] at hmade
    obtain ⟨⟨stem, hname⟩, lines, post, hlines, hcr, hcontent⟩ := hmade
    obtain ⟨hne, hsp, -⟩ := Debver.parse_ok f.parsed
    have hdeb : endswith f.name ".deb" = false := by
      rw [hname, endswith_append (by decide)]
      decide +kernel
    rw [hdeb, if_neg Bool.false_ne_true, if_pos (endswith_iff.2 ⟨stem, hname⟩), hcontent,
      Serialize.read_text_toUTF8 hcr, except_ok_bind]
    simp only [searchVersion_descriptor post hlines hne hsp, String.ofList_toList]
    rfl
  | orig =>
    rw [hk] at hmade
    obtain ⟨-, package, hp, hname⟩ := hmade
    have hends : ∀ p : String, p.toList.length ≤ 12 → endswith f.name p = endswith ".orig.tar.xz" p :=
      fun p hp => by
        rw [hname, ← String.append_assoc, ← String.append_assoc, endswith_append (by simpa using hp)]
    rw [hends _ (by decide), hends _ (by decide), if_neg (by decide +kernel), if_neg (by decide +kernel),
      hends _ (by decide), if_pos (by decide +kernel), hname, nameVersion_eq hp]
    rfl
  | debian =>
    rw [hk] at hmade
    obtain ⟨-, package, hp, hname⟩ := hmade
    have hends : ∀ p : String, p.toList.length ≤ 14 → endswith f.name p = endswith ".debian.tar.xz" p :=
      fun p hp => by
        rw [hname, ← String.append_assoc, ← String.append_assoc, endswith_append (by simpa using hp)]
    rw [hends _ (by decide), hends _ (by decide), if_neg (by decide +kernel), if_neg (by decide +kernel),
      hends _ (by decide), if_neg (by decide +kernel), hends _ (by decide), if_pos (by decide +kernel),
      hname, nameVersion_eq hp]
    rfl

/-! ## What a version text loses -/

theorem patch_release_eq {v w : DebianVersion} :
    v.patch_release = w.patch_release ↔ v.epoch = w.epoch ∧ v.upstream.toList = w.upstream.toList := by
  rw [DebianVersion.patch_release, DebianVersion.patch_release, PatchRelease.mk.injEq, String.toList_inj]

/-- What stands behind the first colon, if there is one. -/
def afterColon (s : List Char) : List Char := if ':' ∈ s then (partition ':' s).2 else s

/-- The number before the first colon, if there is one. -/
def beforeColon (s : List Char) : Nat := if ':' ∈ s then intOf (String.ofList (partition ':' s).1) else 0

theorem splitEpoch_colon {text : String} {epoch : Nat} {rest : List Char}
    (h : Debver.splitEpoch text = .ok (epoch, rest)) :
    epoch = beforeColon text.toList ∧ rest = afterColon text.toList := by
  rw [Debver.splitEpoch] at h
  rw [afterColon, beforeColon]
  by_cases hc : ':' ∈ text.toList
  · rw [if_pos hc] at h
    rw [if_pos hc, if_pos hc]
    dsimp only at h
    split at h
    · obtain ⟨e, he, h⟩ := except_bind_eq_ok.1 h
      cases h
      rw [Debver.int] at he
      split at he
      · cases he
        exact ⟨rfl, rfl⟩
      · cases he
    · cases h
  · rw [if_neg hc] at h
    rw [if_neg hc, if_neg hc]
    cases h
    exact ⟨rfl, rfl⟩

section
variable {s t : List Char} (ht : ':' ∉ t)
include ht

theorem afterColon_append : afterColon (s ++ t) = afterColon s ++ t := by
  rw [afterColon, afterColon]
  by_cases hc : ':' ∈ s
  · obtain ⟨a, b, ha, rfl⟩ := partition_mem hc
    rw [if_pos (List.mem_append_left _ hc), if_pos hc, partition_append ha, List.append_assoc,
      List.cons_append, partition_append ha]
  · rw [if_neg hc, if_neg (by simp [hc, ht])]

theorem beforeColon_append : beforeColon (s ++ t) = beforeColon s := by
  rw [beforeColon, beforeColon]
  by_cases hc : ':' ∈ s
  · obtain ⟨a, b, ha, rfl⟩ := partition_mem hc
    rw [if_pos (List.mem_append_left _ hc), if_pos hc, partition_append ha, List.append_assoc,
      List.cons_append, partition_append ha]
  · rw [if_neg hc, if_neg (by simp [hc, ht])]

end

/-- A text with a colon is longer than what is behind it. -/
theorem afterColon_eq {s : List Char} : afterColon s = s ↔ ':' ∉ s := by
  rw [afterColon]
  by_cases hc : ':' ∈ s
  · obtain ⟨a, b, ha, rfl⟩ := partition_mem hc
    rw [if_pos hc, partition_append ha]
    refine iff_of_false (fun h => ?_) (not_not.2 hc)
    have := congrArg List.length h
    simp at this
    omega
  · rw [if_neg hc]
    exact iff_of_true rfl hc

theorem splitRevision_le (rest : List Char) : (Debver.splitRevision rest).1.length ≤ rest.length := by
  by_cases h : '-' ∈ rest
  · obtain ⟨u, r, hr, rfl⟩ := rpartition_mem h
    rw [Debver.splitRevision_hyphen hr]
    simp
  · rw [Debver.splitRevision, if_neg h]

theorem splitRevision_eq {rest : List Char} : (Debver.splitRevision rest).1 = rest ↔ '-' ∉ rest := by
  by_cases h : '-' ∈ rest
  · obtain ⟨u, r, hr, rfl⟩ := rpartition_mem h
    rw [Debver.splitRevision_hyphen hr]
    refine iff_of_false (fun h => ?_) (not_not.2 h)
    have := congrArg List.length h
    simp at this
  · rw [Debver.splitRevision, if_neg h]
    exact iff_of_true rfl h

/-- The epoch and the upstream version that a kind of file gives back. -/
def Kind.readsEpoch (kind : Kind) (v : DebianVersion) : Nat :=
  match kind with
  | .binary => v.epoch
  | .source => v.epoch
  | .orig => beforeColon v.upstream.toList
  | .debian => beforeColon v.upstream.toList

def Kind.readsUpstream (kind : Kind) (v : DebianVersion) : List Char :=
  match kind with
  | .binary => v.upstream.toList
  | .source => v.upstream.toList
  | .orig => (Debver.splitRevision (afterColon v.upstream.toList)).1
  | .debian => afterColon v.upstream.toList

theorem reads {kind : Kind} {v w : DebianVersion} (hv : Debver.parse v.raw = .ok v)
    (h : Debver.parse (kind.text v) = .ok w) :
    w.epoch = kind.readsEpoch v ∧ w.upstream.toList = kind.readsUpstream v ∧
      (kind = .orig → ('-' ∈ v.upstream.toList ↔ '-' ∈ afterColon v.upstream.toList)) := by
  cases kind with
  | binary =>
    cases hv.symm.trans h
    exact ⟨rfl, rfl, fun h => by cases h⟩
  | source =>
    cases hv.symm.trans h
    exact ⟨rfl, rfl, fun h => by cases h⟩
  | orig =>
    obtain ⟨-, -, -, rest, hsplit, hup, -⟩ := Debver.parse_ok h
    obtain ⟨hepoch, rfl⟩ := splitEpoch_colon hsplit
    have hnil : ':' ∉ ("" : String).toList := by simp
    exact ⟨hepoch, hup, fun _ => (Debver.splitEpoch_append hnil hsplit).2⟩
  | debian =>
    obtain ⟨-, -, -, rest, hsplit, hup, -⟩ := Debver.parse_ok h
    obtain ⟨hepoch, rfl⟩ := splitEpoch_colon hsplit
    have htext : (Kind.debian.text v).toList = v.upstream.toList ++ '-' :: v.revision.toList := by
      simp [Kind.text]
    have hcolon : ':' ∉ '-' :: v.revision.toList := by simp [Debver.not_colon v.revision_valid]
    rw [htext, afterColon_append hcolon, Debver.splitRevision_hyphen (Debver.not_hyphen v.revision_valid)] at hup
    rw [htext, beforeColon_append hcolon] at hepoch
    exact ⟨hepoch, hup, fun h => by cases h⟩

section
variable {v : DebianVersion}

/-- **A tarball name loses the epoch.** -/
theorem debian_agrees : (beforeColon v.upstream.toList = v.epoch ∧ afterColon v.upstream.toList = v.upstream.toList) ↔
    v.epoch = 0 := by
  rw [afterColon_eq]
  constructor
  · rintro ⟨he, hc⟩
    rw [← he, beforeColon, if_neg hc]
  · intro he
    have hc : ':' ∉ v.upstream.toList := fun hc => v.colon_epoch hc he
    exact ⟨by rw [beforeColon, if_neg hc, he], hc⟩

/-- **An original tarball's name is also cut at a hyphen.** -/
theorem orig_agrees (hh : '-' ∈ v.upstream.toList ↔ '-' ∈ afterColon v.upstream.toList) :
    (beforeColon v.upstream.toList = v.epoch ∧
      (Debver.splitRevision (afterColon v.upstream.toList)).1 = v.upstream.toList) ↔
    v.epoch = 0 ∧ '-' ∉ v.upstream.toList := by
  rw [← debian_agrees, hh, ← splitRevision_eq]
  constructor
  · rintro ⟨he, hu⟩
    have hafter : afterColon v.upstream.toList = v.upstream.toList := by
      rw [afterColon_eq]
      intro hc
      obtain ⟨a, b, ha, hs⟩ := partition_mem hc
      have hlen := splitRevision_le (afterColon v.upstream.toList)
      rw [hu, afterColon, if_pos hc, hs, partition_append ha] at hlen
      simp at hlen
      omega
    exact ⟨⟨he, hafter⟩, hu.trans hafter.symm⟩
  · rintro ⟨⟨he, hafter⟩, hu⟩
    exact ⟨he, hu.trans hafter⟩

end

/-! ## One pool -/

/-- Files of different names. -/
structure Pool (dpkg_deb : ByteArray → Except PyErr String) where
  files : List (PoolFile dpkg_deb)
  nodup : (files.map (·.name)).Nodup

namespace Pool

variable {dpkg_deb : ByteArray → Except PyErr String}

/-- The directory that holds the files. -/
def directory (pool : Pool dpkg_deb) : Dict ByteArray where
  items := pool.files.map fun f => (f.name, f.content)
  nodup := by
    rw [List.map_map]
    exact pool.nodup

/-- The files in the order of their names. -/
def sorted (pool : Pool dpkg_deb) : List (PoolFile dpkg_deb) :=
  pool.files.insertionSort fun f g => f.name ≤ g.name

/-- The release that the version text of a file says. -/
def recovered (f : PoolFile dpkg_deb) : Option PatchRelease :=
  match Debver.parse f.text with
  | .ok v => some v.patch_release
  | .error _ => none

def releases (pool : Pool dpkg_deb) : List PatchRelease := pool.sorted.filterMap recovered

/-- Three series of the pool are newer. -/
def Outdated (pool : Pool dpkg_deb) (r : PatchRelease) : Prop :=
  3 ≤ ((pool.releases.map fun q => q.release_version.series).dedup.filter
    fun s => decide (r.release_version.series < s)).length

/-- The newest of its series; of two that compare equal, the one whose file comes first. -/
def Leading (pool : Pool dpkg_deb) (r : PatchRelease) : Prop :=
  Grouping.maxBy Retention.older
    (pool.releases.filter fun q => q.release_version.series = r.release_version.series) = some r

/-- Two files of one release say the same one. -/
def Agree (f g : PoolFile dpkg_deb) : Prop :=
  ((f.kind = .orig ↔ g.kind = .orig) ∨ '-' ∉ f.version.upstream.toList) ∧
    ((f.kind = .orig ∨ f.kind = .debian ↔ g.kind = .orig ∨ g.kind = .debian) ∨ f.version.epoch = 0)

/-- The files of one release are kept or removed together, whatever the limit. -/
def Indivisible (pool : Pool dpkg_deb) : Prop :=
  ∀ mode max_bytes fixed_bytes decision left,
    apply_retention dpkg_deb pool.directory mode max_bytes fixed_bytes = .ok (decision, left) →
    ∀ f ∈ pool.files, ∀ g ∈ pool.files, f.release = g.release → (f.name ∈ left.keys ↔ g.name ∈ left.keys)

/-- A file has no version, or the files of one release say the same one, or all go with their series,
or each is the newest of its series. -/
def Grouped (pool : Pool dpkg_deb) : Prop :=
  (∃ f ∈ pool.files, recovered f = none) ∨
    ∀ f ∈ pool.files, ∀ g ∈ pool.files, f.release = g.release → Agree f g ∨
      ∃ r q, recovered f = some r ∧ recovered g = some q ∧
        ((pool.Outdated r ∧ pool.Outdated q) ∨
          (¬ pool.Outdated r ∧ ¬ pool.Outdated q ∧ pool.Leading r ∧ pool.Leading q))

theorem recovered_some {f : PoolFile dpkg_deb} {r : PatchRelease} (h : recovered f = some r) :
    ∃ v, Debver.parse f.text = .ok v ∧ v.patch_release = r := by
  unfold recovered at h
  split at h
  · next v hv => exact ⟨v, hv, Option.some.inj h⟩
  · cases h

/-- **When two files of one release say the same one.** -/
theorem agree_iff {f g : PoolFile dpkg_deb} {r q : PatchRelease} (hr : recovered f = some r)
    (hq : recovered g = some q) (h : f.release = g.release) : r = q ↔ Agree f g := by
  obtain ⟨v, hv, rfl⟩ := recovered_some hr
  obtain ⟨w, hw, rfl⟩ := recovered_some hq
  obtain ⟨hve, hvu, hvh⟩ := reads f.parsed hv
  obtain ⟨hwe, hwu, hwh⟩ := reads g.parsed hw
  obtain ⟨he, hu⟩ := patch_release_eq.1 h
  rw [patch_release_eq, hve, hvu, hwe, hwu, Agree]
  rw [← hu] at hwh
  cases hk : f.kind <;> cases hk' : g.kind <;>
    simp only [Kind.readsEpoch, Kind.readsUpstream, ← he, ← hu, reduceCtorEq, true_or, or_true, or_false,
      false_or, true_and, and_self, iff_self, iff_true, iff_false, not_true_eq_false]
  case binary.orig => exact (and_congr eq_comm eq_comm).trans ((orig_agrees (hwh hk')).trans and_comm)
  case source.orig => exact (and_congr eq_comm eq_comm).trans ((orig_agrees (hwh hk')).trans and_comm)
  case binary.debian => exact (and_congr eq_comm eq_comm).trans debian_agrees
  case source.debian => exact (and_congr eq_comm eq_comm).trans debian_agrees
  case orig.binary => exact (orig_agrees (hvh hk)).trans and_comm
  case orig.source => exact (orig_agrees (hvh hk)).trans and_comm
  case debian.binary => exact debian_agrees
  case debian.source => exact debian_agrees
  case orig.debian => rw [splitRevision_eq, hvh hk, and_true]
  case debian.orig => rw [eq_comm, splitRevision_eq, hwh hk', and_true]

/-! ### The objects of a pool -/

/-- The object the selector gets for a file. -/
structure Represents (f : PoolFile dpkg_deb) (o : PoolObject) : Prop where
  key : o.key = f.name
  size : o.size = f.content.size
  release : recovered f = some o.patch_release

theorem poolObject_ok {f : PoolFile dpkg_deb} {o : PoolObject}
    (h : poolObject dpkg_deb (f.name, f.content) = .ok o) : Represents f o := by
  rw [poolObject, pool_version, versionText_made, except_ok_bind] at h
  obtain ⟨v, hv, h⟩ := except_bind_eq_ok.1 h
  unfold PoolObject.make at h
  split at h
  · cases h
    refine ⟨rfl, rfl, ?_⟩
    simp only [recovered, hv]
    rfl
  · cases h

theorem name_ne (f : PoolFile dpkg_deb) : f.name ≠ "" := by
  intro h
  have hmade := versionText_made f
  rw [h, versionText] at hmade
  simp only [show endswith "" ".deb" = false by decide +kernel, show endswith "" ".dsc" = false by decide +kernel,
    show endswith "" ".orig.tar.xz" = false by decide +kernel,
    show endswith "" ".debian.tar.xz" = false by decide +kernel, Bool.false_eq_true, if_false] at hmade
  cases hmade

theorem poolObject_exists {f : PoolFile dpkg_deb} (h : recovered f ≠ none) :
    ∃ o, poolObject dpkg_deb (f.name, f.content) = .ok o := by
  obtain ⟨r, hr⟩ := Option.ne_none_iff_exists'.1 h
  obtain ⟨v, hv, -⟩ := recovered_some hr
  have hstart : startswith f.name "/" = false := by
    rw [← Bool.not_eq_true]
    intro h
    obtain ⟨t, ht⟩ := startswith_iff.1 h
    exact f.in_directory (by rw [ht]; simp)
  have hend : endswith f.name "/" = false := by
    rw [← Bool.not_eq_true]
    intro h
    obtain ⟨t, ht⟩ := endswith_iff.1 h
    exact f.in_directory (by rw [ht]; simp)
  have hvalid : PoolObjectFields.post_init ⟨f.name, v, f.content.size⟩ = .ok () := by
    simp [PoolObjectFields.post_init, name_ne f, hstart, hend]
  rw [poolObject, pool_version, versionText_made, except_ok_bind, hv, except_ok_bind]
  unfold PoolObject.make
  split
  · exact ⟨_, rfl⟩
  · next e he => rw [hvalid] at he; cases he

/-- The directory is read in the order of the names. -/
theorem sortedItems_directory (pool : Pool dpkg_deb) :
    sortedItems pool.directory.items = pool.sorted.map fun f => (f.name, f.content) := by
  rw [sortedItems, sorted, directory]
  symm
  apply List.map_insertionSort
  intro f _ g _
  exact Iff.rfl

theorem mem_sorted {pool : Pool dpkg_deb} {f : PoolFile dpkg_deb} : f ∈ pool.sorted ↔ f ∈ pool.files :=
  (List.perm_insertionSort _ _).mem_iff

/-- The objects of all files, in the order of their names. -/
theorem objects_ok {pool : Pool dpkg_deb} {objects : List PoolObject}
    (h : (sortedItems pool.directory.items).mapM (poolObject dpkg_deb) = .ok objects) :
    List.Forall₂ Represents pool.sorted objects := by
  rw [sortedItems_directory] at h
  have hall := except_mapM_forall₂ h
  rw [List.forall₂_map_left_iff] at hall
  exact hall.imp fun f o => poolObject_ok

theorem objects_exist {pool : Pool dpkg_deb} (h : ∀ f ∈ pool.files, recovered f ≠ none) :
    ∃ objects, (sortedItems pool.directory.items).mapM (poolObject dpkg_deb) = .ok objects := by
  rw [sortedItems_directory]
  apply except_mapM_exists
  intro x hx
  obtain ⟨f, hf, rfl⟩ := List.mem_map.1 hx
  exact poolObject_exists (h f (mem_sorted.1 hf))

section
variable {pool : Pool dpkg_deb} {objects : List PoolObject}
  (h : List.Forall₂ Represents pool.sorted objects)
include h

theorem keys_eq : objects.map (·.key) = pool.sorted.map (·.name) := by
  generalize pool.sorted = files at h
  induction h with
  | nil => rfl
  | cons ho _ ih => rw [List.map_cons, List.map_cons, ho.key, ih]

theorem releases_eq : objects.map PoolObject.patch_release = pool.releases := by
  rw [releases]
  generalize pool.sorted = files at h ⊢
  induction h with
  | nil => rfl
  | cons ho _ ih => rw [List.map_cons, List.filterMap_cons, ho.release, ih]

theorem nodup_keys : (objects.map (·.key)).Nodup := by
  rw [keys_eq h, sorted, ((List.perm_insertionSort _ pool.files).map _).nodup_iff]
  exact pool.nodup

theorem object_of {f : PoolFile dpkg_deb} (hf : f ∈ pool.files) : ∃ o ∈ objects, Represents f o := by
  obtain ⟨i, hi, rfl⟩ := List.mem_iff_getElem.1 (mem_sorted.2 hf)
  have hlen := h.length_eq
  exact ⟨objects[i], List.getElem_mem _, h.get hi (by omega)⟩

theorem sizes_pos : ∀ o ∈ objects, 0 < o.size := by
  intro o ho
  obtain ⟨i, hi, rfl⟩ := List.mem_iff_getElem.1 ho
  have hlen := h.length_eq
  have hrep := h.get (show i < pool.sorted.length by omega) hi
  rw [List.get_eq_getElem, List.get_eq_getElem] at hrep
  rw [hrep.size, Int.natCast_pos]
  exact PoolFile.nonempty _

/-- A series is dropped if three of the pool are newer. -/
theorem selected_iff {o : PoolObject} (ho : o ∈ objects) :
    o ∈ Retention.selected objects 3 ↔ ¬ pool.Outdated o.patch_release := by
  have hseries : objects.map PoolObject.series = pool.releases.map fun q => q.release_version.series := by
    rw [← releases_eq h, List.map_map]
    rfl
  rw [Retention.selected, List.mem_filter, decide_eq_true_eq, Retention.retainedSeries,
    Grouping.mem_take_sorted (List.nodup_dedup _), hseries, Outdated, not_le, and_iff_right ho]
  refine and_iff_right ?_
  rw [List.mem_dedup, ← hseries]
  exact List.mem_map_of_mem ho

/-- In a series that stays, the selector protects the newest release. -/
theorem newest_iff {o : PoolObject} (ho : o ∈ Retention.selected objects 3) :
    Retention.Newest (Retention.selected objects 3) o.patch_release ↔ pool.Leading o.patch_release := by
  have hfilter : (Retention.selected objects 3).filter (fun p => p.series = o.patch_release.release_version.series) =
      objects.filter fun p => p.series = o.patch_release.release_version.series := by
    rw [Retention.selected, List.filter_filter]
    refine List.filter_congr fun p _ => ?_
    have hin := (List.mem_filter.1 ho).2
    by_cases hp : p.series = o.series
    · rw [← hp] at hin
      simp [hin]
    · have : ¬ p.series = o.patch_release.release_version.series := hp
      simp [this]
  have hmap : (objects.filter fun p => p.series = o.patch_release.release_version.series).map
        PoolObject.patch_release =
      pool.releases.filter fun q => q.release_version.series = o.patch_release.release_version.series := by
    rw [← releases_eq h, List.filter_map]
    rfl
  rw [Retention.Newest, hfilter, hmap, Leading]

/-- A file is left exactly if its object is kept. -/
theorem left_iff {f : PoolFile dpkg_deb} {o : PoolObject} {d : RetentionDecision} {n : Nat}
    (hf : f ∈ pool.files) (ho : o ∈ objects) (hrep : Represents f o)
    (hkeys : d.retained_keys = (Retention.kept (Retention.selected objects 3) n).map (·.key)) :
    f.name ∈ (pool.directory.filter fun name _ => name ∈ d.retained_keys).keys ↔
      ¬ pool.Outdated o.patch_release ∧
        o.patch_release ∉ Grouping.keys ((Retention.cuts (Retention.selected objects 3)).take n) := by
  have hname : f.name ∈ (pool.directory.filter fun name _ => name ∈ d.retained_keys).keys ↔
      f.name ∈ d.retained_keys := by
    rw [Dict.mem_keys]
    constructor
    · rintro ⟨content, h⟩
      exact of_decide_eq_true (Dict.get?_filter.1 h).2
    · intro hmem
      have hitem : pool.directory.get? f.name = some f.content :=
        Dict.mem_items.1 (List.mem_map.2 ⟨f, hf, rfl⟩)
      exact ⟨f.content, Dict.get?_filter.2 ⟨hitem, decide_eq_true hmem⟩⟩
  have hobject : f.name ∈ (Retention.kept (Retention.selected objects 3) n).map (·.key) ↔
      o ∈ Retention.kept (Retention.selected objects 3) n := by
    rw [List.mem_map]
    constructor
    · rintro ⟨p, hp, hpf⟩
      have hpo : p ∈ objects := (List.mem_filter.1 (Retention.mem_kept.1 hp).1).1
      rwa [← Retention.key_inj (nodup_keys h) hpo ho (hpf.trans hrep.key.symm)]
    · exact fun hmem => ⟨o, hmem, hrep.key⟩
  rw [hname, hkeys, hobject, Retention.mem_kept, selected_iff h ho]

end

/-- What a successful run did. -/
theorem apply_ok {pool : Pool dpkg_deb} {mode : Retention.RetentionMode} {max_bytes : Option Int} {fixed_bytes : Int}
    {d : RetentionDecision} {left : Dict ByteArray}
    (h : apply_retention dpkg_deb pool.directory mode max_bytes fixed_bytes = .ok (d, left)) :
    ∃ objects, List.Forall₂ Represents pool.sorted objects ∧
      Retention.select_retained_objects objects mode max_bytes fixed_bytes = .ok d ∧
      left = pool.directory.filter fun name _ => name ∈ d.retained_keys := by
  rw [apply_retention] at h
  obtain ⟨objects, hobjects, h⟩ := except_bind_eq_ok.1 h
  obtain ⟨d', hd, h⟩ := except_bind_eq_ok.1 h
  cases h
  exact ⟨objects, objects_ok hobjects, hd, rfl⟩

/-- Under an indivisible release, an answer of the selector keeps two files of it or neither. -/
theorem together {pool : Pool dpkg_deb} (hind : pool.Indivisible) {objects : List PoolObject}
    (hobjects : (sortedItems pool.directory.items).mapM (poolObject dpkg_deb) = .ok objects)
    {mode : Retention.RetentionMode} {max_bytes : Option Int} {fixed_bytes : Int} {d : RetentionDecision} {n : Nat}
    (hd : Retention.select_retained_objects objects mode max_bytes fixed_bytes = .ok d)
    (hkeys : d.retained_keys = (Retention.kept (Retention.selected objects 3) n).map (·.key))
    {f g : PoolFile dpkg_deb} (hf : f ∈ pool.files) (hg : g ∈ pool.files) (hsame : f.release = g.release)
    {o p : PoolObject} (ho : o ∈ objects) (hp : p ∈ objects) (hfo : Represents f o) (hgp : Represents g p) :
    (¬ pool.Outdated o.patch_release ∧
        o.patch_release ∉ Grouping.keys ((Retention.cuts (Retention.selected objects 3)).take n)) ↔
      (¬ pool.Outdated p.patch_release ∧
        p.patch_release ∉ Grouping.keys ((Retention.cuts (Retention.selected objects 3)).take n)) := by
  have h := objects_ok hobjects
  rw [← left_iff h hf ho hfo hkeys, ← left_iff h hg hp hgp hkeys]
  refine hind mode max_bytes fixed_bytes d _ ?_ f hf g hg hsame
  rw [apply_retention, hobjects, except_ok_bind, hd]
  rfl

/-- **A release is indivisible exactly if its files say the same release, or it makes no difference.** -/
theorem indivisible_iff (pool : Pool dpkg_deb) : pool.Indivisible ↔ pool.Grouped := by
  constructor
  · intro hind
    by_cases hall : ∃ f ∈ pool.files, recovered f = none
    · exact .inl hall
    have hsome : ∀ f ∈ pool.files, recovered f ≠ none := fun f hf h0 => hall ⟨f, hf, h0⟩
    refine .inr fun f hf g hg hsame => ?_
    obtain ⟨objects, hobjects⟩ := objects_exist hsome
    have h := objects_ok hobjects
    obtain ⟨o, ho, hfo⟩ := object_of h hf
    obtain ⟨p, hp, hgp⟩ := object_of h hg
    by_cases hagree : Agree f g
    · exact .inl hagree
    have hne : o.patch_release ≠ p.patch_release := mt (agree_iff hfo.release hgp.release hsame).1 hagree
    refine .inr ⟨_, _, hfo.release, hgp.release, ?_⟩
    have hproper : ∀ fixed_bytes : Int, 0 ≤ fixed_bytes → Retention.Proper objects fixed_bytes 3 :=
      fun fixed_bytes hfixed => ⟨by decide, hfixed, nodup_keys h, List.ne_nil_of_mem ho⟩
    -- without a limit only the series decides
    obtain ⟨d, hd, hkeys⟩ := Retention.select_series (hproper 0 le_rfl)
    rw [← Retention.kept_zero (Retention.selected objects (3 : Int).toNat)] at hkeys
    have hseries := together hind hobjects hd hkeys hf hg hsame ho hp hfo hgp
    simp only [List.take_zero, Grouping.keys_nil, List.not_mem_nil, not_false_eq_true, and_true,
      not_iff_not] at hseries
    by_cases hout : pool.Outdated o.patch_release
    · exact .inl ⟨hout, hseries.1 hout⟩
    have hout' : ¬ pool.Outdated p.patch_release := fun h' => hout (hseries.2 h')
    refine .inr ⟨hout, hout', ?_⟩
    have hosel := (selected_iff h ho).2 hout
    have hpsel := (selected_iff h hp).2 hout'
    by_contra hlead
    -- one of the two may go: some prefix of the older releases tells them apart
    have hcut : o.patch_release ∈ Grouping.keys (Retention.cuts (Retention.selected objects 3)) ∨
        p.patch_release ∈ Grouping.keys (Retention.cuts (Retention.selected objects 3)) := by
      rw [Retention.mem_keys_cuts, Retention.mem_keys_cuts, newest_iff h hosel, newest_iff h hpsel]
      rcases not_and_or.1 hlead with hl | hl
      · exact .inl ⟨⟨o, hosel, rfl⟩, hl⟩
      · exact .inr ⟨⟨p, hpsel, rfl⟩, hl⟩
    obtain ⟨n, hn, hsep⟩ := Grouping.take_separates hne hcut
    rw [Grouping.keys, List.length_map] at hn
    have hlimit := Retention.totalSize_nonneg (Retention.kept (Retention.selected objects (3 : Int).toNat) n)
    obtain ⟨limit, d', hd', hkeys'⟩ := Retention.select_size (hproper 1 (by decide)) (sizes_pos h) hn (by omega)
    have hsize := together hind hobjects hd' hkeys' hf hg hsame ho hp hfo hgp
    rw [and_iff_right hout, and_iff_right hout', not_iff_not, Retention.keys_take] at hsize
    exact hsep hsize
  · rintro (⟨f, hf, hnone⟩ | hgrouped) mode max_bytes fixed_bytes d left hrun f' hf' g hg hsame
    · obtain ⟨objects, h, -⟩ := apply_ok hrun
      obtain ⟨o, -, hfo⟩ := object_of h hf
      rw [hfo.release] at hnone
      cases hnone
    · obtain ⟨objects, h, hd, rfl⟩ := apply_ok hrun
      obtain ⟨-, n, hkeys, -⟩ := Retention.select_ok hd
      obtain ⟨o, ho, hfo⟩ := object_of h hf'
      obtain ⟨p, hp, hgp⟩ := object_of h hg
      rw [left_iff h hf' ho hfo hkeys, left_iff h hg hp hgp hkeys]
      rcases hgrouped f' hf' g hg hsame with hagree | ⟨r, q, hr, hq, hrest⟩
      · rw [(agree_iff hfo.release hgp.release hsame).2 hagree]
      · cases hfo.release.symm.trans hr
        cases hgp.release.symm.trans hq
        rcases hrest with ⟨hout, hout'⟩ | ⟨hin, hin', hlead, hlead'⟩
        · exact iff_of_false (fun h' => h'.1 hout) fun h' => h'.1 hout'
        · have hkept : ∀ {x : PoolObject}, x ∈ objects → ¬ pool.Outdated x.patch_release →
              pool.Leading x.patch_release →
              x.patch_release ∉ Grouping.keys ((Retention.cuts (Retention.selected objects 3)).take n) := by
            intro x hx hxin hxlead hmem
            have hxsel := (selected_iff h hx).2 hxin
            exact (Retention.mem_keys_cuts.1 (Retention.keys_take_subset hmem)).2 ((newest_iff h hxsel).2 hxlead)
          exact iff_of_true ⟨hin, hkept ho hin hlead⟩ ⟨hin', hkept hp hin' hlead'⟩

end Pool

/-! ## An epoch divides a release -/

namespace Sample

def dpkg_deb (_ : ByteArray) : Except PyErr String := .ok "1:7.1.7-1+dkc13.1"

def version : DebianVersion where
  epoch := 1
  upstream := "7.1.7"
  revision := "1+dkc13.1"
  raw := "1:7.1.7-1+dkc13.1"
  upstream_valid := by decide +kernel
  revision_valid := by decide +kernel
  colon_epoch := fun _ => one_ne_zero

theorem version_parsed : Debver.parse version.raw = .ok version := by decide +kernel

def deb : PoolFile dpkg_deb where
  name := "dkc-linux-base_7.1.7-1+dkc13.1_amd64.deb"
  content := ⟨#[33]⟩
  kind := .binary
  version := version
  parsed := version_parsed
  made := ⟨⟨"dkc-linux-base_7.1.7-1+dkc13.1_amd64", by decide +kernel⟩, rfl⟩
  in_directory := by decide +kernel
  nonempty := by decide +kernel

def orig : PoolFile dpkg_deb where
  name := "dkc-linux_7.1.7.orig.tar.xz"
  content := ⟨#[253]⟩
  kind := .orig
  version := version
  parsed := version_parsed
  made := ⟨by decide +kernel, "dkc-linux", by decide +kernel, by decide +kernel⟩
  in_directory := by decide +kernel
  nonempty := by decide +kernel

def pool : Pool dpkg_deb := ⟨[deb, orig], by decide +kernel⟩

end Sample

/-- The newest release of the pool loses its source under a limit that leaves room for its binary. -/
theorem epoch_divides :
    (∃ i, Identity.create "1:7.1.7-1" 1 "a1b2c3d4e5f6" = .ok i ∧
      i.package_version = .ok Sample.version.raw) ∧
    Sample.deb.release = Sample.orig.release ∧
    (apply_retention Sample.dpkg_deb Sample.pool.directory .series_size (some 1) 0).map (fun r => r.2.keys) =
      .ok [Sample.deb.name] ∧
    ¬ Sample.pool.Indivisible := by
  have hrun : (apply_retention Sample.dpkg_deb Sample.pool.directory .series_size (some 1) 0).map
      (fun r => r.2.keys) = .ok [Sample.deb.name] := by decide +kernel
  refine ⟨?_, rfl, hrun, ?_⟩
  · obtain ⟨i, hi⟩ : ∃ i, Identity.create "1:7.1.7-1" 1 "a1b2c3d4e5f6" = .ok i :=
      Debver.create_exists (by decide +kernel)
    obtain ⟨hv, hr⟩ := Identity.create_ok hi
    refine ⟨i, hi, Debver.package_version_ok ?_ (by decide +kernel)⟩
    rw [(Debver.parse_ok hv).2.2.1, hr]
    decide +kernel
  · intro hind
    cases h : apply_retention Sample.dpkg_deb Sample.pool.directory .series_size (some 1) 0 with
    | error e =>
      rw [h] at hrun
      cases hrun
    | ok result =>
      rw [h] at hrun
      have hkeys : result.2.keys = [Sample.deb.name] := Except.ok.inj hrun
      have hiff := hind .series_size (some 1) 0 result.1 result.2 h Sample.deb (by simp [Sample.pool])
        Sample.orig (by simp [Sample.pool]) rfl
      rw [hkeys] at hiff
      exact absurd (List.mem_singleton.1 (hiff.1 List.mem_cons_self)) (by decide +kernel)

end PoolRetention
