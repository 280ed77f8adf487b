import DkcLinux.Text.PyStr
import Mathlib.Tactic.IntervalCases
import Mathlib.Tactic.FinCases

/-!
# JSON text

The values `json` reads and writes, its reader, and the canonical writer of `dumps`: sorted keys,
no blanks, only the escapes JSON needs, a newline at the end.

| writer                    | reader          |
|---------------------------|-----------------|
| `escape`, `quote`         | `scanString`    |
| `render`, `renderItems`, `renderFields` | `scanValue`, `scanItems`, `scanFields` |
| `dumps`                   | `loads`         |

`loads_dumps`: the reader gives back what the writer was given, with its keys sorted. A `float`
keeps its lexeme (the writer refuses one). The reader refuses an escape that is half a surrogate
pair, which is no character of a `String`.
-/

inductive Json where
  | null
  | bool (b : Bool)
  | int (n : Int)
  | float (lexeme : String)
  | str (s : String)
  | arr (items : List Json)
  | obj (fields : List (String × Json))
deriving Repr

namespace Json

/-! ## Writer -/

def hexDigit (n : Nat) : Char := (Nat.digitChar (n % 16))

/-- `ESCAPE_DCT`. -/
def escape (c : Char) : List Char :=
  if c = '\\' then ['\\', '\\']
  else if c = '"' then ['\\', '"']
  else if c = '\n' then ['\\', 'n']
  else if c = '\r' then ['\\', 'r']
  else if c = '\t' then ['\\', 't']
  else if c.toNat = 8 then ['\\', 'b']
  else if c.toNat = 12 then ['\\', 'f']
  else if c.toNat < 32 then ['\\', 'u', '0', '0', hexDigit (c.toNat / 16), hexDigit c.toNat]
  else [c]

def quote (s : String) : List Char := '"' :: s.toList.flatMap escape ++ ['"']

/-- `int.__repr__`. -/
def renderInt : Int → List Char
  | .ofNat n => Nat.toDigits 10 n
  | .negSucc n => '-' :: Nat.toDigits 10 (n + 1)

mutual

def render : Json → List Char
  | .null => "null".toList
  | .bool true => "true".toList
  | .bool false => "false".toList
  | .int n => renderInt n
  | .float l => l.toList
  | .str s => quote s
  | .arr [] => ['[', ']']
  | .arr (v :: vs) => '[' :: (render v ++ renderItems vs)
  | .obj [] => ['{', '}']
  | .obj (f :: fs) => '{' :: (quote f.1 ++ ':' :: (render f.2 ++ renderFields fs))

/-- The items after the first, and the bracket. -/
def renderItems : List Json → List Char
  | [] => [']']
  | v :: vs => ',' :: (render v ++ renderItems vs)

def renderFields : List (String × Json) → List Char
  | [] => ['}']
  | f :: fs => ',' :: (quote f.1 ++ ':' :: (render f.2 ++ renderFields fs))

end

mutual

/-- `sort_keys=True`, at every level. -/
def sortKeys : Json → Json
  | .arr vs => .arr (sortItems vs)
  | .obj fs => .obj (Py.sortedItems (sortFields fs))
  | .null => .null
  | .bool b => .bool b
  | .int n => .int n
  | .float l => .float l
  | .str s => .str s

def sortItems : List Json → List Json
  | [] => []
  | v :: vs => sortKeys v :: sortItems vs

def sortFields : List (String × Json) → List (String × Json)
  | [] => []
  | f :: fs => (f.1, sortKeys f.2) :: sortFields fs

end

mutual

/-- `_reject_floats`. -/
def rejectFloats : Json → Bool
  | .float _ => true
  | .arr vs => rejectFloatsItems vs
  | .obj fs => rejectFloatsFields fs
  | _ => false

def rejectFloatsItems : List Json → Bool
  | [] => false
  | v :: vs => rejectFloats v || rejectFloatsItems vs

def rejectFloatsFields : List (String × Json) → Bool
  | [] => false
  | f :: fs => rejectFloats f.2 || rejectFloatsFields fs

end

/-- The canonical text: `None` where `dumps` raises `TypeError`. -/
def dumps (v : Json) : Option String :=
  if v.rejectFloats then none else some (String.ofList (render v.sortKeys ++ ['\n']))

/-! ## Reader -/

/-- `d[k] = v`: the value of a key that is there is replaced in place. -/
def setItem (d : List (String × Json)) (k : String) (v : Json) : List (String × Json) :=
  if d.any (·.1 == k) then d.map fun f => if f.1 = k then (k, v) else f else d ++ [(k, v)]

/-- `dict(pairs)`. -/
def dict (pairs : List (String × Json)) : List (String × Json) :=
  pairs.foldl (fun d f => setItem d f.1 f.2) []

def isWs (c : Char) : Bool := c == ' ' || c == '\t' || c == '\n' || c == '\r'

def skipWs (cs : List Char) : List Char := cs.dropWhile isWs

def hexVal (c : Char) : Option Nat :=
  if '0' ≤ c ∧ c ≤ '9' then some (c.toNat - 48)
  else if 'a' ≤ c ∧ c ≤ 'f' then some (c.toNat - 87)
  else if 'A' ≤ c ∧ c ≤ 'F' then some (c.toNat - 55)
  else none

def hex4 (a b c d : Char) : Option Nat := do
  return 4096 * (← hexVal a) + 256 * (← hexVal b) + 16 * (← hexVal c) + (← hexVal d)

/-- A code unit that is a character by itself. -/
def scalar (n : Nat) : Option Char := if n < 0xd800 ∨ 0xdfff < n then some (Char.ofNat n) else none

/-- What stands between the quotes: a character (`inl`) or an escaped code unit (`inr`). -/
def scanUnits : List Char → Option (List (Char ⊕ Nat) × List Char)
  | [] => none
  | '"' :: cs => some ([], cs)
  | '\\' :: 'u' :: a :: b :: c :: d :: cs => do
    let n ← hex4 a b c d
    let (us, rest) ← scanUnits cs
    return (.inr n :: us, rest)
  | '\\' :: e :: cs => do
    let c ← match e with
      | '"' => some '"'
      | '\\' => some '\\'
      | '/' => some '/'
      | 'b' => some (Char.ofNat 8)
      | 'f' => some (Char.ofNat 12)
      | 'n' => some '\n'
      | 'r' => some '\r'
      | 't' => some '\t'
      | _ => none
    let (us, rest) ← scanUnits cs
    return (.inl c :: us, rest)
  | c :: cs => do
    if c.toNat < 32 ∨ c = '\\' then none
    let (us, rest) ← scanUnits cs
    return (.inl c :: us, rest)

/-- Two code units of a surrogate pair are one character. -/
def joinUnits : List (Char ⊕ Nat) → Option (List Char)
  | [] => some []
  | .inl c :: us => (joinUnits us).map (c :: ·)
  | .inr n :: .inr m :: us =>
    if 0xd800 ≤ n ∧ n ≤ 0xdbff ∧ 0xdc00 ≤ m ∧ m ≤ 0xdfff then
      (joinUnits us).map (Char.ofNat (0x10000 + 0x400 * (n - 0xd800) + (m - 0xdc00)) :: ·)
    else (scalar n).bind fun c => (joinUnits (.inr m :: us)).map (c :: ·)
  | .inr n :: us => (scalar n).bind fun c => (joinUnits us).map (c :: ·)

/-- `scanstring` after the opening quote, strict. -/
def scanString (cs : List Char) : Option (String × List Char) := do
  let (us, rest) ← scanUnits cs
  return (String.ofList (← joinUnits us), rest)

/-- The fraction and exponent of a number, if it has them. -/
def scanFloatTail (cs : List Char) : List Char × List Char :=
  let (frac, cs) := match cs with
    | '.' :: cs' =>
      let ds := cs'.takeWhile Char.isDigit
      if ds = [] then ([], cs) else ('.' :: ds, cs'.dropWhile Char.isDigit)
    | _ => ([], cs)
  match cs with
  | e :: cs' =>
    if e = 'e' ∨ e = 'E' then
      let (sign, cs'') := match cs' with
        | '+' :: r => (['+'], r)
        | '-' :: r => (['-'], r)
        | r => ([], r)
      let ds := cs''.takeWhile Char.isDigit
      if ds = [] then (frac, cs) else (frac ++ e :: sign ++ ds, cs''.dropWhile Char.isDigit)
    else (frac, cs)
  | [] => (frac, cs)

/-- `0|[1-9][0-9]*`. -/
def scanDigits : List Char → List Char
  | '0' :: _ => ['0']
  | cs => cs.takeWhile Char.isDigit

/-- A number, its sign already read, and what follows. -/
def scanNumber (sign : Bool) (cs : List Char) : Option (Json × List Char) :=
  let ds := scanDigits cs
  if ds = [] then none
  else
    let n : Int := Nat.ofDigitChars 10 ds 0
    match scanFloatTail (cs.drop ds.length) with
    | ([], rest) => some (.int (if sign then -n else n), rest)
    | (tail, rest) => some (.float (String.ofList ((if sign then ['-'] else []) ++ ds ++ tail)), rest)

/-- A literal, if the text starts with it. -/
def scanLiteral (l : String) (v : Json) (cs : List Char) : Option (Json × List Char) :=
  if l.toList.isPrefixOf cs then some (v, cs.drop l.toList.length) else none

mutual

/-- `scan_once`, and the rest of the text; the fuel bounds the nesting and the number of items. -/
def scanValue : Nat → List Char → Option (Json × List Char)
  | 0, _ => none
  | fuel + 1, cs =>
    match cs with
    | '"' :: cs' => (scanString cs').map fun p => (.str p.1, p.2)
    | '{' :: cs' =>
      match skipWs cs' with
      | '}' :: rest => some (.obj [], rest)
      | '"' :: rest => (scanFields fuel rest).map fun p => (.obj (dict p.1), p.2)
      | _ => none
    | '[' :: cs' =>
      match skipWs cs' with
      | ']' :: rest => some (.arr [], rest)
      | rest => (scanItems fuel rest).map fun p => (.arr p.1, p.2)
    | 'n' :: _ => scanLiteral "null" .null cs
    | 't' :: _ => scanLiteral "true" (.bool true) cs
    | 'f' :: _ => scanLiteral "false" (.bool false) cs
    | 'N' :: _ => scanLiteral "NaN" (.float "NaN") cs
    | 'I' :: _ => scanLiteral "Infinity" (.float "Infinity") cs
    | '-' :: 'I' :: _ => scanLiteral "-Infinity" (.float "-Infinity") cs
    | '-' :: cs' => scanNumber true cs'
    | _ => scanNumber false cs

/-- A value, and the items after it up to the bracket. -/
def scanItems : Nat → List Char → Option (List Json × List Char)
  | 0, _ => none
  | fuel + 1, cs => do
    let (v, cs) ← scanValue fuel cs
    match skipWs cs with
    | ']' :: rest => return ([v], rest)
    | ',' :: rest =>
      let (vs, rest) ← scanItems fuel (skipWs rest)
      return (v :: vs, rest)
    | _ => none

/-- The rest of a key, its value, and the fields after it up to the brace. -/
def scanFields : Nat → List Char → Option (List (String × Json) × List Char)
  | 0, _ => none
  | fuel + 1, cs => do
    let (k, cs) ← scanString cs
    match skipWs cs with
    | ':' :: rest =>
      let (v, cs) ← scanValue fuel (skipWs rest)
      match skipWs cs with
      | '}' :: rest => return ([(k, v)], rest)
      | ',' :: rest =>
        match skipWs rest with
        | '"' :: rest =>
          let (fs, rest) ← scanFields fuel rest
          return ((k, v) :: fs, rest)
        | _ => none
      | _ => none
    | _ => none

end

/-- `json.loads` of a text: `None` where it raises `ValueError`. -/
def loads (s : String) : Option Json :=
  let cs := s.toList
  match scanValue (cs.length + 1) (skipWs cs) with
  | some (v, rest) => if skipWs rest = [] then some v else none
  | none => none

/-! ## Round trip: strings -/

/-- The unit that `escape c` is read as. -/
def unitOf (c : Char) : Char ⊕ Nat :=
  if c.toNat < 32 ∧ c ≠ '\n' ∧ c ≠ '\r' ∧ c ≠ '\t' ∧ c.toNat ≠ 8 ∧ c.toNat ≠ 12 then .inr c.toNat
  else .inl c

theorem hex4_control {n : Nat} (h : n < 32) :
    hex4 '0' '0' (hexDigit (n / 16)) (hexDigit n) = some n := by
  have key : ∀ k : Fin 32, hex4 '0' '0' (hexDigit (k.val / 16)) (hexDigit k.val) = some k.val := by
    decide +kernel
  exact key ⟨n, h⟩

theorem ofNat_of_toNat {c : Char} {n : Nat} (h : c.toNat = n) : Char.ofNat n = c := by
  rw [← h, Char.ofNat_toNat]

theorem scanUnits_escape (c : Char) (cs : List Char) :
    scanUnits (escape c ++ cs) = (scanUnits cs).map fun p => (unitOf c :: p.1, p.2) := by
  unfold escape
  split_ifs with h1 h2 h3 h4 h5 h6 h7 h8
  · subst h1; cases h : scanUnits cs <;> simp [scanUnits, unitOf, h]
  · subst h2; cases h : scanUnits cs <;> simp [scanUnits, unitOf, h]
  · subst h3; cases h : scanUnits cs <;> simp [scanUnits, unitOf, h]
  · subst h4; cases h : scanUnits cs <;> simp [scanUnits, unitOf, h]
  · subst h5; cases h : scanUnits cs <;> simp [scanUnits, unitOf, h]
  · obtain rfl := ofNat_of_toNat h6
    cases h : scanUnits cs <;> simp [scanUnits, unitOf, h]
  · obtain rfl := ofNat_of_toNat h7
    cases h : scanUnits cs <;> simp [scanUnits, unitOf, h]
  · cases h : scanUnits cs <;>
      simp [scanUnits, unitOf, h, h3, h4, h5, h6, h7, h8, hex4_control h8]
  · cases h : scanUnits cs <;> simp [scanUnits, unitOf, h, h1, h8]

theorem scanUnits_flatMap (s cs : List Char) :
    scanUnits (s.flatMap escape ++ '"' :: cs) = some (s.map unitOf, cs) := by
  induction s with
  | nil => simp [scanUnits]
  | cons c s ih => simp only [List.flatMap_cons, List.append_assoc, scanUnits_escape, ih,
      Option.map_some, List.map_cons]

/-- A code unit below the surrogates never pairs up. -/
theorem joinUnits_low {n : Nat} (hn : n < 0xd800) (us : List (Char ⊕ Nat)) :
    joinUnits (.inr n :: us) = (joinUnits us).map (Char.ofNat n :: ·) := by
  have hscalar : scalar n = some (Char.ofNat n) := if_pos (.inl hn)
  have hhigh : ¬ 0xd800 ≤ n := Nat.not_le.2 hn
  rcases us with _ | ⟨c | m, us⟩
  · simp [joinUnits, hscalar]
  · simp [joinUnits, hscalar]
  · rw [joinUnits, if_neg (fun h => hhigh h.1), hscalar]
    rfl

theorem joinUnits_unitOf (s : List Char) : joinUnits (s.map unitOf) = some s := by
  induction s with
  | nil => rfl
  | cons c s ih =>
    rw [List.map_cons, unitOf]
    split
    · next hc => rw [joinUnits_low (by omega), ih, Option.map_some, Char.ofNat_toNat]
    · simp [joinUnits, ih]

theorem scanString_quote (s : String) (cs : List Char) :
    scanString (s.toList.flatMap escape ++ '"' :: cs) = some (s, cs) := by
  simp [scanString, scanUnits_flatMap, joinUnits_unitOf]

/-! ## Round trip: numbers -/

/-- A text that ends a value: nothing, a separator, a bracket or the last newline. -/
def Delim (cs : List Char) : Prop := ∀ c ∈ cs.head?, c ∈ [',', ']', '}', '\n']

theorem Delim.not_digit {cs : List Char} (h : Delim cs) : ∀ c ∈ cs.head?, c.isDigit = false := by
  intro c hc
  have := h c hc
  fin_cases this <;> rfl

theorem takeWhile_digits {ds rest : List Char} (hds : ∀ c ∈ ds, c.isDigit = true) (h : Delim rest) :
    (ds ++ rest).takeWhile Char.isDigit = ds := by
  rw [List.takeWhile_append_of_pos hds]
  cases rest with
  | nil => simp
  | cons c cs => simp [h.not_digit c rfl]

theorem toDigits_head {n : Nat} (hn : n ≠ 0) : (Nat.toDigits 10 n).head? ≠ some '0' := by
  induction n using Nat.strongRecOn with
  | _ n ih =>
    rcases Nat.lt_or_ge n 10 with h | h
    · rw [Nat.toDigits_of_lt_base h]
      interval_cases n <;> simp_all [Nat.digitChar]
    · rw [Nat.toDigits_of_base_le (by omega) h, List.head?_append]
      have := ih (n / 10) (by omega) (by omega)
      cases hd : (Nat.toDigits 10 (n / 10)).head? <;> simp_all [Nat.toDigits_ne_nil]

theorem scanFloatTail_delim {rest : List Char} (h : Delim rest) : scanFloatTail rest = ([], rest) := by
  cases rest with
  | nil => rfl
  | cons c cs =>
    have := h c rfl
    fin_cases this <;> rfl

theorem scanDigits_toDigits (n : Nat) {rest : List Char} (h : Delim rest) :
    scanDigits (Nat.toDigits 10 n ++ rest) = Nat.toDigits 10 n := by
  unfold scanDigits
  split
  · next cs hcs =>
    by_cases hn : n = 0
    · subst hn; rfl
    · have := toDigits_head hn
      cases hd : Nat.toDigits 10 n with
      | nil => exact absurd hd Nat.toDigits_ne_nil
      | cons c ds => rw [hd] at hcs this; simp_all
  · exact takeWhile_digits (fun c hc => Nat.isDigit_of_mem_toDigits (by omega) le_rfl hc) h

theorem scanNumber_toDigits (sign : Bool) (n : Nat) {rest : List Char} (h : Delim rest) :
    scanNumber sign (Nat.toDigits 10 n ++ rest) =
      some (.int (if sign then -(n : Int) else n), rest) := by
  simp only [scanNumber]
  rw [scanDigits_toDigits n h, if_neg Nat.toDigits_ne_nil, List.drop_left, scanFloatTail_delim h,
    Nat.ofDigitChars_ten_toDigits]

/-! ## Round trip: values -/

mutual

/-- No floats, and no key twice in one object. -/
def Clean : Json → Prop
  | .float _ => False
  | .arr vs => CleanItems vs
  | .obj fs => (fs.map (·.1)).Nodup ∧ CleanFields fs
  | _ => True

def CleanItems : List Json → Prop
  | [] => True
  | v :: vs => v.Clean ∧ CleanItems vs

def CleanFields : List (String × Json) → Prop
  | [] => True
  | f :: fs => f.2.Clean ∧ CleanFields fs

end

/-- `dict` keeps fields whose keys are distinct. -/
theorem dict_nodup {fs : List (String × Json)} (h : (fs.map (·.1)).Nodup) : dict fs = fs := by
  suffices key : ∀ (fs acc : List (String × Json)), ((acc ++ fs).map (·.1)).Nodup →
      fs.foldl (fun d f => setItem d f.1 f.2) acc = acc ++ fs from key fs [] h
  intro fs
  induction fs with
  | nil => simp
  | cons f fs ih =>
    intro acc hacc
    have hnew : acc.any (·.1 == f.1) = false := by
      simp only [List.map_append, List.map_cons, List.nodup_append] at hacc
      rw [List.any_eq_false]
      intro x hx hxf
      exact hacc.2.2 _ (List.mem_map_of_mem hx) _ (List.mem_cons_self ..) (by simpa using hxf)
    rw [List.foldl_cons, setItem, hnew, if_neg (by simp), ih _ (by simpa using hacc)]
    simp

theorem skipWs_of {c : Char} {cs : List Char} (h : isWs c = false) : skipWs (c :: cs) = c :: cs := by
  simp [skipWs, h]

/-- The first character of a rendered value: no blank, no bracket that closes. -/
theorem render_head : ∀ (v : Json), v.Clean → ∃ c cs, v.render = c :: cs ∧ isWs c = false ∧
    c ≠ ']' ∧ c ≠ '}'
  | .null, _ => ⟨'n', _, rfl, rfl, by decide, by decide⟩
  | .bool true, _ => ⟨'t', _, rfl, rfl, by decide, by decide⟩
  | .bool false, _ => ⟨'f', _, rfl, rfl, by decide, by decide⟩
  | .int (.negSucc n), _ => ⟨'-', _, rfl, rfl, by decide, by decide⟩
  | .int (.ofNat n), _ => by
    have hne := Nat.toDigits_ne_nil (n := n) (b := 10)
    rcases hd : Nat.toDigits 10 n with _ | ⟨c, cs⟩
    · exact absurd hd hne
    · have hc : c.isDigit = true :=
        Nat.isDigit_of_mem_toDigits (n := n) (by omega : 0 < 10) le_rfl (by simp [hd])
      refine ⟨c, cs, by simp [render, renderInt, hd], ?_, ?_, ?_⟩
      · by_contra hws
        simp only [isWs, Bool.not_eq_false, Bool.or_eq_true, beq_iff_eq] at hws
        rcases hws with ((rfl | rfl) | rfl) | rfl <;> simp at hc
      · rintro rfl; simp at hc
      · rintro rfl; simp at hc
  | .str s, _ => ⟨'"', _, rfl, rfl, by decide, by decide⟩
  | .arr [], _ => ⟨'[', _, rfl, rfl, by decide, by decide⟩
  | .arr (_ :: _), _ => ⟨'[', _, by rw [render], rfl, by decide, by decide⟩
  | .obj [], _ => ⟨'{', _, rfl, rfl, by decide, by decide⟩
  | .obj (_ :: _), _ => ⟨'{', _, by rw [render], rfl, by decide, by decide⟩

theorem scanValue_digit {c : Char} (hc : c.isDigit = true) (fuel : Nat) (cs : List Char) :
    scanValue (fuel + 1) (c :: cs) = scanNumber false (c :: cs) := by
  rw [scanValue] <;> intros <;> simp_all

theorem scanValue_neg {c : Char} (hc : c.isDigit = true) (fuel : Nat) (cs : List Char) :
    scanValue (fuel + 1) ('-' :: c :: cs) = scanNumber true (c :: cs) := by
  rw [scanValue]
  rintro tail ⟨rfl, -⟩
  simp at hc

theorem scanValue_int (n : Int) (fuel : Nat) {rest : List Char} (h : Delim rest) :
    scanValue (fuel + 1) (renderInt n ++ rest) = some (.int n, rest) := by
  cases n with
  | ofNat n =>
    have hnum := scanNumber_toDigits false n h
    rcases hd : Nat.toDigits 10 n with _ | ⟨c, cs⟩
    · exact absurd hd Nat.toDigits_ne_nil
    · have hc : c.isDigit = true :=
        Nat.isDigit_of_mem_toDigits (n := n) (by omega : 0 < 10) le_rfl (by simp [hd])
      rw [hd] at hnum
      rw [renderInt, hd, List.cons_append, scanValue_digit hc]
      simpa using hnum
  | negSucc n =>
    have hnum := scanNumber_toDigits true (n + 1) h
    rcases hd : Nat.toDigits 10 (n + 1) with _ | ⟨c, cs⟩
    · exact absurd hd Nat.toDigits_ne_nil
    · have hc : c.isDigit = true :=
        Nat.isDigit_of_mem_toDigits (n := n + 1) (by omega : 0 < 10) le_rfl (by simp [hd])
      rw [hd] at hnum
      rw [renderInt, hd, List.cons_append, List.cons_append, scanValue_neg hc]
      simpa [Int.negSucc_eq] using hnum

theorem renderItems_head (vs : List Json) (rest : List Char) : Delim (renderItems vs ++ rest) := by
  cases vs <;> simp [renderItems, Delim]

theorem renderFields_head (fs : List (String × Json)) (rest : List Char) :
    Delim (renderFields fs ++ rest) := by
  cases fs <;> simp [renderFields, Delim]

mutual

theorem scanValue_render : ∀ (v : Json) {fuel : Nat} {rest : List Char}, v.Clean → Delim rest →
    v.render.length ≤ fuel → scanValue fuel (v.render ++ rest) = some (v, rest)
  | v, 0, _, hv, _, hf => by
    obtain ⟨c, cs, hr, -⟩ := render_head v hv
    simp [hr] at hf
  | .null, _ + 1, _, _, _, _ => by simp [render, scanValue, scanLiteral]
  | .bool true, _ + 1, _, _, _, _ => by simp [render, scanValue, scanLiteral]
  | .bool false, _ + 1, _, _, _, _ => by simp [render, scanValue, scanLiteral]
  | .int n, fuel + 1, _, _, hd, _ => by rw [render]; exact scanValue_int n fuel hd
  | .float _, _ + 1, _, hv, _, _ => hv.elim
  | .str s, _ + 1, _, _, _, _ => by simp [render, quote, scanValue, scanString_quote]
  | .arr [], _ + 1, _, _, _, _ => by simp [render, scanValue, skipWs, isWs]
  | .obj [], _ + 1, _, _, _, _ => by simp [render, scanValue, skipWs, isWs]
  | .arr (v :: vs), fuel + 1, rest, hv, _, hf => by
    obtain ⟨c, cs, hr, hws, hne, -⟩ := render_head v hv.1
    have hlen : v.render.length + (renderItems vs).length ≤ fuel := by
      simpa [render] using hf
    have hi : scanItems fuel (v.render ++ (renderItems vs ++ rest)) = some (v :: vs, rest) :=
      scanItems_render v vs hv.1 hv.2 hlen
    rw [hr] at hi
    simp only [render, hr, List.cons_append, List.append_assoc] at hi ⊢
    rw [scanValue, skipWs_of hws]
    split
    · simp_all
    · rw [hi]; rfl
  | .obj (f :: fs), fuel + 1, rest, hv, _, hf => by
    have hlen : (quote f.1).length + f.2.render.length + (renderFields fs).length ≤ fuel := by
      simp [render] at hf; omega
    have hi : scanFields fuel (f.1.toList.flatMap escape ++
        '"' :: ':' :: (f.2.render ++ (renderFields fs ++ rest))) = some (f :: fs, rest) :=
      scanFields_render f fs hv.2.1 hv.2.2 hlen
    simp only [render, quote, List.cons_append, List.append_assoc, List.nil_append] at hi ⊢
    rw [scanValue, skipWs_of (by decide)]
    simp only [hi, Option.map_some, dict_nodup hv.1]

theorem scanItems_render : ∀ (v : Json) (vs : List Json) {fuel : Nat} {rest : List Char}, v.Clean →
    CleanItems vs → v.render.length + (renderItems vs).length ≤ fuel →
    scanItems fuel (v.render ++ (renderItems vs ++ rest)) = some (v :: vs, rest)
  | v, vs, 0, _, hv, _, hf => by
    obtain ⟨c, cs, hr, -⟩ := render_head v hv
    simp [hr] at hf
  | v, [], fuel + 1, rest, hv, _, hf => by
    have hlen : v.render.length ≤ fuel := by simp [renderItems] at hf; omega
    have h := scanValue_render v hv (renderItems_head [] rest) hlen
    rw [scanItems, h]
    simp [renderItems, skipWs, isWs]
  | v, w :: vs, fuel + 1, rest, hv, hvs, hf => by
    have hlen : v.render.length ≤ fuel ∧ w.render.length + (renderItems vs).length ≤ fuel := by
      simp [renderItems] at hf; omega
    have h := scanValue_render v hv (renderItems_head (w :: vs) rest) hlen.1
    have hi : scanItems fuel (w.render ++ (renderItems vs ++ rest)) = some (w :: vs, rest) :=
      scanItems_render w vs hvs.1 hvs.2 hlen.2
    obtain ⟨c, cs, hr, hws, -⟩ := render_head w hvs.1
    rw [scanItems, h]
    simp only [renderItems, hr, List.cons_append, List.append_assoc] at hi ⊢
    simp [skipWs_of (show isWs ',' = false by decide), skipWs_of hws, hi]

theorem scanFields_render : ∀ (f : String × Json) (fs : List (String × Json)) {fuel : Nat}
    {rest : List Char}, f.2.Clean → CleanFields fs →
    (quote f.1).length + f.2.render.length + (renderFields fs).length ≤ fuel →
    scanFields fuel (f.1.toList.flatMap escape ++
      '"' :: ':' :: (f.2.render ++ (renderFields fs ++ rest))) = some (f :: fs, rest)
  | f, _, 0, _, _, _, hf => by simp [quote] at hf
  | f, [], fuel + 1, rest, hv, _, hf => by
    have hlen : f.2.render.length ≤ fuel := by simp [quote] at hf; omega
    have h := scanValue_render f.2 hv (renderFields_head [] rest) hlen
    obtain ⟨c, cs, hr, hws, -⟩ := render_head f.2 hv
    rw [scanFields, scanString_quote]
    simp only [hr, List.cons_append] at h ⊢
    simp [skipWs_of (show isWs ':' = false by decide), skipWs_of hws, h]
    simp [renderFields, skipWs, isWs]
  | f, g :: fs, fuel + 1, rest, hv, hfs, hf => by
    have hlen : f.2.render.length ≤ fuel ∧
        (quote g.1).length + g.2.render.length + (renderFields fs).length ≤ fuel := by
      simp [renderFields, quote] at hf ⊢; omega
    have h := scanValue_render f.2 hv (renderFields_head (g :: fs) rest) hlen.1
    have hi : scanFields fuel (g.1.toList.flatMap escape ++
        '"' :: ':' :: (g.2.render ++ (renderFields fs ++ rest))) = some (g :: fs, rest) :=
      scanFields_render g fs hfs.1 hfs.2 hlen.2
    obtain ⟨c, cs, hr, hws, -⟩ := render_head f.2 hv
    rw [scanFields, scanString_quote]
    simp only [hr, List.cons_append] at h ⊢
    simp [skipWs_of (show isWs ':' = false by decide), skipWs_of hws, h]
    simp only [renderFields, quote, List.cons_append, List.append_assoc, List.nil_append] at hi ⊢
    simp [skipWs_of (show isWs ',' = false by decide), skipWs_of (show isWs '"' = false by decide), hi]

end

/-! ## Round trip: texts -/

theorem cleanFields_iff {fs : List (String × Json)} : CleanFields fs ↔ ∀ f ∈ fs, f.2.Clean := by
  induction fs with
  | nil => simp [CleanFields]
  | cons f fs ih => simp [CleanFields, ih]

theorem sortFields_keys (fs : List (String × Json)) : (sortFields fs).map (·.1) = fs.map (·.1) := by
  induction fs with
  | nil => rfl
  | cons f fs ih => simp [sortFields, ih]

mutual

theorem clean_sortKeys : ∀ (v : Json), v.Clean → v.sortKeys.Clean
  | .null, h | .bool _, h | .int _, h | .float _, h | .str _, h => h
  | .arr vs, h => clean_sortItems vs h
  | .obj fs, h => by
    have hp := Py.perm_sortedItems (sortFields fs)
    refine ⟨?_, cleanFields_iff.2 fun f hf => ?_⟩
    · rw [(hp.map (·.1)).nodup_iff, sortFields_keys]; exact h.1
    · exact cleanFields_iff.1 (clean_sortFields fs h.2) f (hp.mem_iff.1 hf)

theorem clean_sortItems : ∀ (vs : List Json), CleanItems vs → CleanItems (sortItems vs)
  | [], _ => trivial
  | v :: vs, h => ⟨clean_sortKeys v h.1, clean_sortItems vs h.2⟩

theorem clean_sortFields : ∀ (fs : List (String × Json)), CleanFields fs → CleanFields (sortFields fs)
  | [], _ => trivial
  | f :: fs, h => ⟨clean_sortKeys f.2 h.1, clean_sortFields fs h.2⟩

end

mutual

theorem rejectFloats_clean : ∀ (v : Json), v.Clean → v.rejectFloats = false
  | .null, _ | .bool _, _ | .int _, _ | .str _, _ => rfl
  | .float _, h => h.elim
  | .arr vs, h => rejectFloatsItems_clean vs h
  | .obj fs, h => rejectFloatsFields_clean fs h.2

theorem rejectFloatsItems_clean : ∀ (vs : List Json), CleanItems vs → rejectFloatsItems vs = false
  | [], _ => rfl
  | v :: vs, h => by
    rw [rejectFloatsItems, rejectFloats_clean v h.1, rejectFloatsItems_clean vs h.2]; rfl

theorem rejectFloatsFields_clean :
    ∀ (fs : List (String × Json)), CleanFields fs → rejectFloatsFields fs = false
  | [], _ => rfl
  | f :: fs, h => by
    rw [rejectFloatsFields, rejectFloats_clean f.2 h.1, rejectFloatsFields_clean fs h.2]; rfl

end

/-- **The reader undoes the canonical writer**, up to the order of the keys. -/
theorem loads_dumps {v : Json} (h : v.Clean) : (dumps v).bind loads = some v.sortKeys := by
  have hc := clean_sortKeys v h
  have hd : Delim ['\n'] := by simp [Delim]
  obtain ⟨c, cs, hr, hws, -⟩ := render_head v.sortKeys hc
  have hs : scanValue ((v.sortKeys.render ++ ['\n']).length + 1) (v.sortKeys.render ++ ['\n']) =
      some (v.sortKeys, ['\n']) := scanValue_render v.sortKeys hc hd (by simp; omega)
  rw [dumps, rejectFloats_clean v h, if_neg (by simp), Option.bind_some, loads]
  simp only [String.toList_ofList]
  rw [hr, List.cons_append, skipWs_of hws, ← List.cons_append, ← hr, hs]
  simp [skipWs, isWs]

/-! ## The text has no control characters, but the newline at its end -/

theorem hexDigit_printable (n : Nat) : 32 ≤ (hexDigit n).toNat := by
  have h : n % 16 < 16 := Nat.mod_lt n (by decide)
  rw [hexDigit]
  interval_cases n % 16 <;> decide

theorem escape_printable (c d : Char) (h : d ∈ escape c) : 32 ≤ d.toNat := by
  unfold escape at h
  split_ifs at h with _ _ _ _ _ _ _ h32
  all_goals simp only [List.mem_cons, List.not_mem_nil, or_false] at h
  all_goals try (rcases h with rfl | rfl <;> decide)
  · rcases h with rfl | rfl | rfl | rfl | rfl | rfl
    · decide
    · decide
    · decide
    · decide
    · exact hexDigit_printable _
    · exact hexDigit_printable _
  · rw [h]
    omega

theorem quote_printable (s : String) (d : Char) (h : d ∈ quote s) : 32 ≤ d.toNat := by
  simp only [quote, List.cons_append, List.mem_cons, List.mem_append, List.mem_flatMap, List.not_mem_nil,
    or_false] at h
  rcases h with rfl | ⟨c, -, h⟩ | rfl
  · decide
  · exact escape_printable c d h
  · decide

theorem renderInt_printable (n : Int) (d : Char) (h : d ∈ renderInt n) : 32 ≤ d.toNat := by
  have hdigit : ∀ m : Nat, d ∈ Nat.toDigits 10 m → 32 ≤ d.toNat := by
    intro m hm
    have hd := Nat.isDigit_of_mem_toDigits (by decide) le_rfl hm
    simp only [Char.isDigit, Bool.and_eq_true, decide_eq_true_eq] at hd
    have hlow : (48 : UInt32).toNat ≤ d.val.toNat := UInt32.le_iff_toNat_le.1 hd.1
    have : (48 : UInt32).toNat = 48 := rfl
    show 32 ≤ d.val.toNat
    omega
  cases n with
  | ofNat m => exact hdigit m h
  | negSucc m =>
    rcases List.mem_cons.1 h with rfl | h
    · decide
    · exact hdigit _ h

theorem word_printable {word : List Char} (h : (word.all fun d => 32 ≤ d.toNat) = true) :
    ∀ d ∈ word, 32 ≤ d.toNat := fun d hd => by
  simpa using List.all_eq_true.1 h d hd

mutual

theorem render_printable : ∀ (v : Json), v.Clean → ∀ d ∈ render v, 32 ≤ d.toNat
  | .null, _, d, h => @word_printable ("null".toList) (by decide) d h
  | .bool true, _, d, h => @word_printable ("true".toList) (by decide) d h
  | .bool false, _, d, h => @word_printable ("false".toList) (by decide) d h
  | .int n, _, d, h => renderInt_printable n d h
  | .str s, _, d, h => quote_printable s d h
  | .arr [], _, d, h => @word_printable ['[', ']'] (by decide) d h
  | .arr (v :: vs), hc, d, h => by
    rw [render, List.mem_cons, List.mem_append] at h
    rcases h with rfl | h | h
    · decide
    · exact render_printable v hc.1 d h
    · exact renderItems_printable vs hc.2 d h
  | .obj [], _, d, h => @word_printable ['{', '}'] (by decide) d h
  | .obj (f :: fs), hc, d, h => by
    rw [render, List.mem_cons, List.mem_append, List.mem_cons, List.mem_append] at h
    rcases h with rfl | h | rfl | h | h
    · decide
    · exact quote_printable f.1 d h
    · decide
    · exact render_printable f.2 hc.2.1 d h
    · exact renderFields_printable fs hc.2.2 d h

theorem renderItems_printable : ∀ (vs : List Json), CleanItems vs → ∀ d ∈ renderItems vs, 32 ≤ d.toNat
  | [], _, d, h => @word_printable [']'] (by decide) d h
  | v :: vs, hc, d, h => by
    rw [renderItems, List.mem_cons, List.mem_append] at h
    rcases h with rfl | h | h
    · decide
    · exact render_printable v hc.1 d h
    · exact renderItems_printable vs hc.2 d h

theorem renderFields_printable : ∀ (fs : List (String × Json)), CleanFields fs →
    ∀ d ∈ renderFields fs, 32 ≤ d.toNat
  | [], _, d, h => @word_printable ['}'] (by decide) d h
  | f :: fs, hc, d, h => by
    rw [renderFields, List.mem_cons, List.mem_append, List.mem_cons, List.mem_append] at h
    rcases h with rfl | h | rfl | h | h
    · decide
    · exact quote_printable f.1 d h
    · decide
    · exact render_printable f.2 hc.1 d h
    · exact renderFields_printable fs hc.2 d h

end

/-- The canonical text of a record, read back after a text file. -/
theorem dumps_clean {v : Json} (h : v.Clean) :
    ∃ t, dumps v = some t ∧ '\r' ∉ t.toList ∧ loads t = some v.sortKeys := by
  have hl := loads_dumps h
  rw [dumps, rejectFloats_clean v h, if_neg (by simp)] at hl ⊢
  refine ⟨_, rfl, ?_, hl⟩
  rw [String.toList_ofList, List.mem_append, not_or]
  refine ⟨fun hmem => ?_, by decide⟩
  exact absurd (render_printable _ (clean_sortKeys v h) _ hmem) (by decide)

/-- A byte order mark starts no JSON text. -/
theorem loads_bom {s : String} (h : s.toList.head? = some (Char.ofNat 0xfeff)) : loads s = none := by
  rcases hs : s.toList with _ | ⟨c, cs⟩
  · simp [hs] at h
  · simp only [hs, List.head?_cons, Option.some.injEq] at h
    subst h
    have hscan : scanValue ((Char.ofNat 0xfeff :: cs).length + 1) (Char.ofNat 0xfeff :: cs) = none := by
      simp [scanValue, scanNumber, scanDigits]
    rw [loads, hs, skipWs_of (by decide), hscan]

end Json
