import DkcLinux.Text.PyStr
import DkcLinux.Text.Calendar
import DkcLinux.Text.Json

/-!
# Field checks and serialization (`dkc/records.py:30-118`, `dkc/serialize.py`)

A record is the data of a dataclass and a proof that `__post_init__` accepts it. A check raises
one exception; `shown` are the values its message interpolates with `!r`.
-/

/-- The exceptions the modelled functions raise. -/
inductive PyErr where
  | ValueError (msg : String) (shown : List String := [])
  | InvalidVersion (msg : String) (shown : List String := [])
  | InvalidIdentity (msg : String) (shown : List String := [])
  | SiteError (msg : String) (shown : List String := [])
  | SourceProfileError (msg : String) (shown : List String := [])
  | SourcePatchError (msg : String) (shown : List String := [])
  | TypeError (msg : String)
  | KeyError (key : String)
  | IndexError
  | AssertionError
  | OverflowError
  | OSError
  | ValidationError
  | RuntimeError (msg : String)
  | InjectedFailure (phase : Nat)
  | LeaseBusy (msg : String)
  | LeaseLost (msg : String)
  | RemoteStoreError (status : Nat) (msg : String)
  | PreconditionFailed (msg : String)
deriving Repr, DecidableEq

instance {α : Type} [DecidableEq α] : DecidableEq (Except PyErr α)
  | .ok a, .ok b => decidable_of_iff (a = b) (by simp)
  | .error e, .error f => decidable_of_iff (e = f) (by simp)
  | .ok _, .error _ => isFalse (by simp)
  | .error _, .ok _ => isFalse (by simp)

@[simp] theorem except_ok_bind {ε α β : Type} (a : α) (f : α → Except ε β) :
    ((Except.ok a : Except ε α) >>= f) = f a := rfl

@[simp] theorem except_error_bind {ε α β : Type} (e : ε) (f : α → Except ε β) :
    ((Except.error e : Except ε α) >>= f) = .error e := rfl

@[simp] theorem except_throw {ε α : Type} (e : ε) : (throw e : Except ε α) = .error e := rfl

@[simp] theorem except_pure {ε α : Type} (a : α) : (pure a : Except ε α) = .ok a := rfl

/-- A check that raises unless its condition fails. -/
@[simp] theorem except_guard_eq_ok {ε : Type} {c : Prop} [Decidable c] {e : ε} {u : Unit} :
    (if c then (.error e : Except ε Unit) else .ok ()) = .ok u ↔ ¬ c := by
  split <;> simp_all

/-- A check that raises, and what follows it. -/
theorem except_check_eq_ok {ε α : Type} {c : Prop} [Decidable c] {e : ε} {x : Except ε α} {a : α} :
    (if c then .error e else x) = .ok a ↔ ¬ c ∧ x = .ok a := by
  by_cases hc : c <;> simp [hc]

theorem except_bind_eq_ok {ε α β : Type} {x : Except ε α} {f : α → Except ε β} {b : β} :
    (x >>= f) = .ok b ↔ ∃ a, x = .ok a ∧ f a = .ok b := by
  cases x <;> simp

/-- A loop that returns a list: an answer for every element, and no other. -/
theorem except_mapM_mem {ε α β : Type} {f : α → Except ε β} :
    ∀ {xs : List α} {ys : List β}, xs.mapM f = .ok ys →
      (∀ x ∈ xs, ∃ y ∈ ys, f x = .ok y) ∧ ∀ y ∈ ys, ∃ x ∈ xs, f x = .ok y
  | [], ys, h => by
    cases h
    simp
  | x :: xs, ys, h => by
    rw [List.mapM_cons] at h
    obtain ⟨y, hy, h⟩ := except_bind_eq_ok.1 h
    obtain ⟨ys', hys, h⟩ := except_bind_eq_ok.1 h
    cases h
    obtain ⟨hleft, hright⟩ := except_mapM_mem hys
    constructor
    · intro x' hx'
      rcases List.mem_cons.1 hx' with rfl | hx'
      · exact ⟨y, List.mem_cons_self, hy⟩
      · obtain ⟨y', hy', hfx⟩ := hleft x' hx'
        exact ⟨y', List.mem_cons_of_mem _ hy', hfx⟩
    · intro y' hy'
      rcases List.mem_cons.1 hy' with rfl | hy'
      · exact ⟨x, List.mem_cons_self, hy⟩
      · obtain ⟨x', hx', hfx⟩ := hright y' hy'
        exact ⟨x', List.mem_cons_of_mem _ hx', hfx⟩

theorem except_mapM_forall₂ {ε α β : Type} {f : α → Except ε β} :
    ∀ {xs : List α} {ys : List β}, xs.mapM f = .ok ys → List.Forall₂ (fun x y => f x = .ok y) xs ys
  | [], ys, h => by
    cases h
    exact .nil
  | x :: xs, ys, h => by
    rw [List.mapM_cons] at h
    obtain ⟨y, hy, h⟩ := except_bind_eq_ok.1 h
    obtain ⟨ys', hys, h⟩ := except_bind_eq_ok.1 h
    cases h
    exact .cons hy (except_mapM_forall₂ hys)

theorem forall₂_trans {α β γ : Type} {P : α → β → Prop} {Q : β → γ → Prop} {R : α → γ → Prop}
    (h : ∀ a b c, P a b → Q b c → R a c) : ∀ {xs : List α} {ys : List β} {zs : List γ},
      List.Forall₂ P xs ys → List.Forall₂ Q ys zs → List.Forall₂ R xs zs
  | _, _, _, .nil, .nil => .nil
  | _, _, _, .cons hp hps, .cons hq hqs => .cons (h _ _ _ hp hq) (forall₂_trans h hps hqs)

theorem forall₂_left {α β : Type} {R : α → β → Prop} : ∀ {xs : List α} {ys : List β}, List.Forall₂ R xs ys →
    ∀ {x}, x ∈ xs → ∃ y ∈ ys, R x y
  | _, _, .cons hr hrs, x, hmem => by
    rcases List.mem_cons.1 hmem with rfl | hmem
    · exact ⟨_, List.mem_cons_self, hr⟩
    · obtain ⟨y, hy, hxy⟩ := forall₂_left hrs hmem
      exact ⟨y, List.mem_cons_of_mem _ hy, hxy⟩

theorem forall₂_right {α β : Type} {R : α → β → Prop} {xs : List α} {ys : List β} (h : List.Forall₂ R xs ys)
    {y : β} (hmem : y ∈ ys) : ∃ x ∈ xs, R x y := forall₂_left h.flip hmem

theorem except_mapM_exists {ε α β : Type} {f : α → Except ε β} :
    ∀ {xs : List α}, (∀ x ∈ xs, ∃ y, f x = .ok y) → ∃ ys, xs.mapM f = .ok ys
  | [], _ => ⟨[], rfl⟩
  | x :: xs, h => by
    obtain ⟨y, hy⟩ := h x List.mem_cons_self
    obtain ⟨ys, hys⟩ := except_mapM_exists fun z hz => h z (List.mem_cons_of_mem _ hz)
    exact ⟨y :: ys, by rw [List.mapM_cons, hy, hys]; rfl⟩

theorem except_mapM_ne_error {ε α β : Type} {f : α → Except ε β} {xs : List α} (h : ∀ x ∈ xs, ∃ y, f x = .ok y) (e : ε) :
    xs.mapM f ≠ .error e := by
  obtain ⟨ys, hys⟩ := except_mapM_exists h
  rw [hys]
  exact fun herr => by cases herr

/-- A check of a block that raises. -/
theorem except_raise_eq_ok {ε α β : Type} {c : Prop} [Decidable c] {e : ε} {f : β → Except ε α} {x : Except ε α} {a : α} :
    (if c then throw e >>= f else x) = .ok a ↔ ¬c ∧ x = .ok a := except_check_eq_ok

theorem except_mapM_ok_iff {ε α β : Type} {f : α → Except ε β} : ∀ {xs : List α} {ys : List β},
    xs.mapM f = .ok ys ↔ List.Forall₂ (fun x y => f x = .ok y) xs ys
  | [], ys => by
    rw [List.mapM_nil, List.forall₂_nil_left_iff, except_pure, Except.ok.injEq, eq_comm]
  | x :: xs, ys => by
    constructor
    · exact except_mapM_forall₂
    · rintro (_ | ⟨hy, hys⟩)
      rw [List.mapM_cons, hy, except_ok_bind, except_mapM_ok_iff.2 hys]
      rfl

/-- A loop of checks. -/
theorem except_forM_ok {ε α : Type} {f : α → Except ε Unit} : ∀ {xs : List α}, xs.forM f = .ok () → ∀ x ∈ xs, f x = .ok ()
  | [], _ => by simp
  | x :: xs, h => by
    obtain ⟨u, hx, hxs⟩ := except_bind_eq_ok.1 h
    exact List.forall_mem_cons.2 ⟨hx, except_forM_ok hxs⟩

theorem except_forM_ok_iff {ε α : Type} {f : α → Except ε Unit} {xs : List α} :
    xs.forM f = .ok () ↔ ∀ x ∈ xs, f x = .ok () := by
  refine ⟨except_forM_ok, ?_⟩
  intro h
  induction xs with
  | nil => rfl
  | cons x xs ih =>
    exact except_bind_eq_ok.2 ⟨(), h x List.mem_cons_self, ih fun y hy => h y (List.mem_cons_of_mem x hy)⟩

/-- What every round of a loop keeps, the loop keeps. -/
theorem except_foldlM_keeps {ε α β : Type} {f : β → α → Except ε β} {P : β → Prop}
    (h : ∀ b a b', P b → f b a = .ok b' → P b') : ∀ {xs : List α} {b b' : β}, P b → xs.foldlM f b = .ok b' → P b'
  | [], b, b', hb, hrun => by
    cases hrun
    exact hb
  | a :: xs, b, b', hb, hrun => by
    obtain ⟨next, hstep, hrest⟩ := except_bind_eq_ok.1 hrun
    exact except_foldlM_keeps h (h b a next hb hstep) hrest

namespace Records

open Py

/-! ## Patterns -/

/-- `^[0-9a-f]{64}$`. -/
def isSha256 (s : String) : Bool := fullmatchClass isLowerHex 64 (some 64) s.toList

/-- `^[0-9a-z-]{8,64}$`. -/
def isId (s : String) : Bool :=
  fullmatchClass (fun c => isAsciiDigit c || isAsciiLower c || c == '-') 8 (some 64) s.toList

def isRepositoryChar (c : Char) : Bool := isAsciiAlnum c || c == '.' || c == '_' || c == '-'

/-- `^[A-Za-z0-9._-]+/[A-Za-z0-9._-]+$`. -/
def isRepository (s : String) : Bool :=
  match s.toList.splitOn '/' with
  | [owner, name] => fullmatchClass isRepositoryChar 1 none owner && fullmatchClass isRepositoryChar 1 none name
  | _ => false

/-- `_CONTROL_RE.search`. -/
def hasControl (s : String) : Bool := s.toList.any isControl

/-! ## Checks -/

/-- `_utc`: the time a canonical timestamp names. -/
def utc (value field_name : String) : Except PyErr Nat :=
  if Calendar.isUtcShape value then
    match Calendar.strptime value with
    | some t => .ok t
    | none => .error (.ValueError (field_name ++ " is not a real UTC date") [value])
  else .error (.ValueError (field_name ++ " must use canonical UTC YYYY-MM-DDTHH:MM:SSZ"))

theorem utc_strftime {t : Nat} (ht : t < Calendar.maxSeconds) (field_name : String) :
    utc (Calendar.strftime t) field_name = .ok t := by
  rw [utc, Calendar.isUtcShape_strftime, if_pos rfl, Calendar.strptime_strftime ht]

theorem strptime_of_utc {value field_name : String} {t : Nat} (h : utc value field_name = .ok t) :
    Calendar.strptime value = some t := by
  unfold utc at h
  split at h
  · split at h
    · cases h; assumption
    · cases h
  · cases h

/-- `_sha256`. -/
def sha256 (value field_name : String) : Except PyErr Unit :=
  if isSha256 value then .ok () else .error (.ValueError (field_name ++ " must be a lowercase SHA-256 digest"))

theorem sha256_ok {value field_name : String} (h : sha256 value field_name = .ok ()) : isSha256 value = true := by
  unfold sha256 at h
  split at h
  · assumption
  · cases h

/-- The condition of `_object_key`. -/
def isObjectKey (key : String) : Bool :=
  !(key == "" || padded key || startswith key "/" || endswith key "/" || contains key "*" ||
    contains key "\\" || hasControl key ||
    (key.toList.splitOn '/').any fun segment => [[], ['.'], ['.', '.']].contains segment)

/-- `_object_key`. -/
def object_key (key : String) (field_name : String := "object key") : Except PyErr Unit :=
  if isObjectKey key then .ok () else .error (.ValueError ("unsafe " ++ field_name) [key])

def IMMUTABLE_GC_PREFIXES : List String := ["pool/", "state/publications/", "state/transactions/"]

/-- The keys that deletion may touch. -/
def isGcKey (key : String) : Bool :=
  (startswith key "dists/" && contains key "/by-hash/SHA256/") ||
    IMMUTABLE_GC_PREFIXES.any (startswith key)

/-- `_gc_key`. -/
def gc_key (key : String) : Except PyErr Unit := do
  object_key key "deletion key"
  if isGcKey key then .ok () else .error (.ValueError "deletion key is outside the immutable prefixes" [key])

end Records

/-! ## Serialization -/

namespace Serialize

open Py

/-- `canonical_bytes`. -/
def canonical_bytes (v : Json) : Except PyErr ByteArray :=
  match v.dumps with
  | some t => .ok t.toUTF8
  | none => .error (.TypeError "float is not allowed in a canonical record")

/-- `json.loads` of bytes: UTF-8, with or without a byte order mark. -/
def loads (body : ByteArray) : Except PyErr Json :=
  match String.fromUTF8? body with
  | none => .error (.ValueError "invalid UTF-8")
  | some t =>
    let t := if t.toList.head? = some (Char.ofNat 0xfeff) then String.ofList t.toList.tail else t
    match Json.loads t with
    | some v => .ok v
    | none => .error (.ValueError "invalid JSON")

/-- `read_text(encoding="utf-8")`. -/
def read_text (content : ByteArray) : Except PyErr String :=
  match String.fromUTF8? content with
  | none => .error (.ValueError "invalid UTF-8")
  | some t => .ok (String.ofList (universalNewlines t.toList))

theorem fromUTF8?_toUTF8 (t : String) : String.fromUTF8? t.toUTF8 = some t :=
  dif_pos t.isValidUTF8

/-- A text without carriage returns reads back. -/
theorem read_text_toUTF8 {t : String} (h : '\r' ∉ t.toList) : read_text t.toUTF8 = .ok t := by
  rw [read_text, fromUTF8?_toUTF8]
  simp only [universalNewlines_plain h, String.ofList_toList]

theorem canonical_bytes_ok {v : Json} (h : v.Clean) : ∃ b, canonical_bytes v = .ok b := by
  rw [canonical_bytes, Json.dumps, Json.rejectFloats_clean v h]
  exact ⟨_, rfl⟩

/-- A record reads back from its canonical bytes. -/
theorem loads_canonical_bytes {v : Json} (h : v.Clean) {b : ByteArray}
    (hb : canonical_bytes v = .ok b) : loads b = .ok v.sortKeys := by
  have hl := Json.loads_dumps h
  unfold canonical_bytes at hb
  split at hb
  · next t ht =>
    cases hb
    rw [ht, Option.bind_some] at hl
    have hbom : t.toList.head? ≠ some (Char.ofNat 0xfeff) := by
      intro hhead
      rw [Json.loads_bom hhead] at hl
      cases hl
    simp only [loads, fromUTF8?_toUTF8, if_neg hbom, hl]
  · cases hb

end Serialize
