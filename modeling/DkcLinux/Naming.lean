import DkcLinux.VersionGrammar
import DkcLinux.VersionOrder

/-!
# DKC identity and package versions (`dkc/naming.py:36-97`)

`package_version` appends `+dkc13.N` to the text of the Debian version: to its revision where it
has one, else to its upstream part.
-/

open Py

/-- `_BUILD_ID_RE.match`: `$` also matches before a final newline. -/
def Naming.isBuildId (s : String) : Bool :=
  fullmatchClass isLowerHex 12 none s.toList ||
    (s.toList.getLast? = some '\n' && fullmatchClass isLowerHex 12 none s.toList.dropLast)

structure IdentityFields where
  debian_source_version : DebianVersion
  dkc_revision : Int
  build_id : String

/-- `Identity.__post_init__`. -/
def IdentityFields.post_init (i : IdentityFields) : Except PyErr Unit := do
  if i.dkc_revision < 1 then
    throw (.InvalidIdentity "DKC revision must be a positive integer" [toString i.dkc_revision])
  if !Naming.isBuildId i.build_id then
    throw (.InvalidIdentity "build id must be at least 12 lowercase hex characters" [i.build_id])

/-- Everything derived from one Debian source version and one DKC revision. -/
structure Identity extends IdentityFields where
  valid : toIdentityFields.post_init = .ok ()

namespace Identity

def make (i : IdentityFields) : Except PyErr Identity :=
  match h : i.post_init with
  | .ok () => .ok ⟨i, h⟩
  | .error e => .error e

/-- `Identity.create`. -/
def create (debian_source_version : String) (dkc_revision : Int) (build_id : String) :
    Except PyErr Identity := do
  let version ← Debver.parse debian_source_version
  make ⟨version, dkc_revision, build_id⟩

/-- `+dkc13.N`. -/
def suffix (dkc_revision : Int) : String := "+dkc13." ++ String.ofList (Json.renderInt dkc_revision)

/-- `package_version`: the result is parsed again before it is returned. -/
def package_version (i : Identity) : Except PyErr String := do
  let version := i.debian_source_version.raw ++ suffix i.dkc_revision
  let _ ← Debver.parse version
  return version

theorem create_ok {text build_id : String} {r : Int} {i : Identity} (h : create text r build_id = .ok i) :
    Debver.parse text = .ok i.debian_source_version ∧ i.dkc_revision = r := by
  obtain ⟨v, hv, h⟩ := except_bind_eq_ok.1 h
  unfold make at h
  split at h
  · cases h
    exact ⟨hv, rfl⟩
  · cases h

theorem revision_pos (i : Identity) : 1 ≤ i.dkc_revision := by
  have h := i.valid
  simp only [IdentityFields.post_init, except_throw, except_error_bind, except_check_eq_ok] at h
  omega

end Identity
