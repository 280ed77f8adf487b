import DkcLinux.Evidence
import DkcLinux.Storage
import Mathlib.Data.List.Dedup

/-!
# A site build (`dkc/site.py:63-89, 401-493`, `dkc/site_publication.py:64-123`)

| here | there |
| --- | --- |
| `SiteObject`, `SiteManifest` | the records, less the URL and the revision that no publisher reads |
| `load_tree` | `load_site_build` from the tree on: every object of the manifest has its bytes |
| `SiteBuild` | what that leaves: a manifest, and a body for each of its objects |
-/

open Py Records

namespace Site

def SITE_CACHE_CONTROL : String := "public, max-age=0, must-revalidate"

def CONTENT_TYPES : List (String × String) := [
  (".css", "text/css; charset=utf-8"),
  (".html", "text/html; charset=utf-8"),
  (".js", "text/javascript; charset=utf-8"),
  (".json", "application/json"),
  (".png", "image/png"),
  (".svg", "image/svg+xml"),
  (".txt", "text/plain; charset=utf-8"),
  (".xml", "application/xml")]

def MAX_OBJECTS : Nat := 400
def MAX_OBJECT_BYTES : Int := 4 * 1024 * 1024
def MAX_TOTAL_BYTES : Int := 16 * 1024 * 1024
def MAX_KEY_LENGTH : Nat := 160

def RESERVED_PREFIXES : List String := ["dists/", "pool/"]

def RESERVED_KEYS : List String := [
  "keys/archive-primary.fingerprint",
  "keys/archive-signing-subkeys.fingerprints",
  "keys/dkc-archive-keyring.gpg"]

/-- `_SEGMENT_RE`. -/
def isSegment : List Char → Bool
  | c :: cs => isAsciiAlnum c && cs.all fun c => isAsciiAlnum c || c == '.' || c == '_' || c == '-'
  | [] => false

/-- `posixpath.splitext(key)[1]`: what follows the last dot of the last segment, unless only dots
stand before it. -/
def suffix (key : String) : String :=
  let name := key.toList.reverse.takeWhile (· ≠ '/')
  let ext := name.takeWhile (· ≠ '.')
  if (name.drop (ext.length + 1)).all (· == '.') then ""
  else String.ofList ('.' :: ext.reverse)

def validate_key (key : String) : Except PyErr Unit := do
  if key.toList.length > MAX_KEY_LENGTH then
    throw (.SiteError ("site object key is too long: " ++ key))
  if !(key.toList.splitOn '/').all isSegment then
    throw (.SiteError "site object key is unsafe: " [key])
  if RESERVED_PREFIXES.any (startswith key) || RESERVED_KEYS.contains key then
    throw (.SiteError ("site object key shadows a repository path: " ++ key))
  if (CONTENT_TYPES.lookup (suffix key)).isNone then
    throw (.SiteError ("site object type is not allowed: " ++ key))

end Site

structure SiteObjectFields where
  key : String
  sha256 : String
  size : Int
  content_type : String
  cache_control : String := Site.SITE_CACHE_CONTROL
deriving Repr, DecidableEq

/-- `SiteObject.__post_init__`. -/
def SiteObjectFields.post_init (item : SiteObjectFields) : Except PyErr Unit := do
  Site.validate_key item.key
  if !isSha256 item.sha256 then
    throw (.SiteError ("site object digest is malformed: " ++ item.key))
  if !(0 < item.size && item.size ≤ Site.MAX_OBJECT_BYTES) then
    throw (.SiteError ("site object size is out of bounds: " ++ item.key))
  if some item.content_type ≠ Site.CONTENT_TYPES.lookup (Site.suffix item.key) then
    throw (.SiteError ("site object media type is inconsistent: " ++ item.key))
  if item.cache_control ≠ Site.SITE_CACHE_CONTROL then
    throw (.SiteError ("site object cache policy is inconsistent: " ++ item.key))

structure SiteObject extends SiteObjectFields where
  valid : toSiteObjectFields.post_init = .ok ()
deriving DecidableEq

namespace Site

/-- Every media type of the table is a content type that storage takes. -/
theorem content_type_ok {ext content_type : String} (h : CONTENT_TYPES.lookup ext = some content_type) :
    ObjectMetadata.check content_type SITE_CACHE_CONTROL = .ok () := by
  have hall : ∀ x ∈ CONTENT_TYPES, ObjectMetadata.check x.2 SITE_CACHE_CONTROL = .ok () := by decide
  obtain ⟨l₁, l₂, hx, -⟩ := List.lookup_eq_some_iff.1 h
  exact hall (ext, content_type) (by rw [hx]; simp)

theorem metadata_valid (item : SiteObject) :
    ObjectMetadata.check item.content_type item.cache_control = .ok () := by
  have h := item.valid
  unfold SiteObjectFields.post_init at h
  obtain ⟨-, -, h⟩ := except_bind_eq_ok.1 h
  simp only [except_throw, except_error_bind, except_check_eq_ok, not_not] at h
  obtain ⟨-, -, htype, hcache, -⟩ := h
  rw [hcache]
  exact content_type_ok htype.symm

/-- `_metadata`. -/
def metadata (item : SiteObject) : ObjectMetadata :=
  ⟨item.content_type, item.cache_control, metadata_valid item⟩

/-- `_check_totals`. -/
def check_totals (objects : List SiteObject) : Except PyErr Unit := do
  if objects = [] ∨ objects.length > MAX_OBJECTS then
    throw (.SiteError "site object count is out of bounds")
  if (objects.map (·.size)).sum > MAX_TOTAL_BYTES then
    throw (.SiteError "site size exceeds its bound")
  if objects.map (·.key) ≠ (objects.map (·.key)).dedup.insertionSort (· ≤ ·) then
    throw (.SiteError "site objects must be unique and sorted by key")
  if "index.html" ∉ objects.map (·.key) then
    throw (.SiteError "site has no root page")

end Site

/-- `SiteManifest`, its objects. -/
structure SiteManifest where
  objects : List SiteObject
  valid : Site.check_totals objects = .ok ()

theorem SiteManifest.nodup (m : SiteManifest) : (m.objects.map (·.key)).Nodup := by
  have h := m.valid
  simp only [Site.check_totals, except_throw, except_error_bind, except_check_eq_ok, not_not] at h
  rw [h.2.2.1]
  exact (List.perm_insertionSort _ _).nodup_iff.2 (List.nodup_dedup _)

structure SiteBuild where
  manifest : SiteManifest
  bodies : Dict ByteArray
  complete : ∀ item ∈ manifest.objects, item.key ∈ bodies.keys

namespace Site

/-- The files of a site tree. -/
def treeFiles : List (String × Entry) → Except PyErr (List (String × ByteArray))
  | [] => .ok []
  | (name, .file content) :: rest => do
    let files ← treeFiles rest
    return (name, content) :: files
  | (_, .directory) :: rest => treeFiles rest
  | (_, .symlink) :: _ => .error (.SiteError "site build tree contains a symlink")
  | (_, .special) :: _ => .error (.SiteError "site build tree contains a special file")

section
-- `hashlib.sha256(...).hexdigest()`
variable (hexdigest : ByteArray → String)

/-- The body of one object, if it is as the manifest says. -/
def readBody (below : Dict Entry) (item : SiteObject) : Except PyErr ByteArray :=
  match below.get? item.key with
  | some (.file body) =>
    if (body.size : Int) ≠ item.size ∨ hexdigest body ≠ item.sha256 then
      .error (.SiteError ("site object differs from its manifest: " ++ item.key))
    else .ok body
  | _ => .error .OSError

/-- The bodies of some objects, by key. -/
def readBodies (below : Dict Entry) : (items : List SiteObject) →
    Except PyErr { bodies : List (String × ByteArray) // bodies.map (·.1) = items.map (·.key) }
  | [] => .ok ⟨[], rfl⟩
  | item :: items => do
    let body ← readBody hexdigest below item
    let rest ← readBodies below items
    return ⟨(item.key, body) :: rest.1, by simp [rest.2]⟩

/-- `load_site_build`, once the manifest is read. -/
def load_tree (manifest : SiteManifest) (root : Root) : Except PyErr SiteBuild :=
  match root with
  | .directory below => do
    let actual ← treeFiles below.items
    if !(actual.all fun x => (manifest.objects.map (·.key)).contains x.1) ||
        !(manifest.objects.all fun item => (actual.map (·.1)).contains item.key) then
      throw (.SiteError "site build tree differs from its manifest")
    let bodies ← readBodies hexdigest below manifest.objects
    return {
      manifest := manifest
      bodies := ⟨bodies.1, by rw [bodies.2]; exact manifest.nodup⟩
      complete := fun item hitem => by
        rw [Dict.keys, bodies.2]
        exact List.mem_map_of_mem hitem }
  | _ => .error (.SiteError "site build tree is missing")

end

end Site
