import DkcLinux.Text.Json

/-!
# Indented JSON text

The writer `json.dumps(value, indent=2, sort_keys=True)`: a line for every item, and an escape for every character
that is not printable ASCII; above the BMP it is a pair of code units. The reader is that of `Text.Json`
(`loads_dumpsIndent`).
-/

namespace Json

/-! ## Writer -/

/-- `\uXXXX`. -/
def escapeUnit (n : Nat) : List Char :=
  ['\\', 'u', hexDigit (n / 4096), hexDigit (n / 256), hexDigit (n / 16), hexDigit n]

/-- The code units of a character above the BMP. -/
def highUnit (n : Nat) : Nat := 0xd800 + (n - 0x10000) / 0x400

def lowUnit (n : Nat) : Nat := 0xdc00 + (n - 0x10000) % 0x400

/-- `py_encode_basestring_ascii` of a character. -/
def escapeAscii (c : Char) : List Char :=
  if c = '\\' then ['\\', '\\']
  else if c = '"' then ['\\', '"']
  else if c = '\n' then ['\\', 'n']
  else if c = '\r' then ['\\', 'r']
  else if c = '\t' then ['\\', 't']
  else if c.toNat = 8 then ['\\', 'b']
  else if c.toNat = 12 then ['\\', 'f']
  else if 32 ≤ c.toNat ∧ c.toNat ≤ 126 then [c]
  else if c.toNat < 0x10000 then escapeUnit c.toNat
  else escapeUnit (highUnit c.toNat) ++ escapeUnit (lowUnit c.toNat)

def quoteAscii (s : String) : List Char := '"' :: s.toList.flatMap escapeAscii ++ ['"']

def newLine (depth : Nat) : List Char := '\n' :: List.replicate (2 * depth) ' '

mutual

def renderIndent (depth : Nat) : Json → List Char
  | .null => "null".toList
  | .bool true => "true".toList
  | .bool false => "false".toList
  | .int n => renderInt n
  | .float l => l.toList
  | .str s => quoteAscii s
  | .arr [] => ['[', ']']
  | .arr (v :: vs) => '[' :: (newLine (depth + 1) ++ (renderIndent (depth + 1) v ++ renderIndentItems depth vs))
  | .obj [] => ['{', '}']
  | .obj (f :: fs) => '{' :: (newLine (depth + 1) ++
      (quoteAscii f.1 ++ ':' :: ' ' :: (renderIndent (depth + 1) f.2 ++ renderIndentFields depth fs)))

/-- The items after the first, and the bracket. -/
def renderIndentItems (depth : Nat) : List Json → List Char
  | [] => newLine depth ++ [']']
  | v :: vs => ',' :: (newLine (depth + 1) ++ (renderIndent (depth + 1) v ++ renderIndentItems depth vs))

def renderIndentFields (depth : Nat) : List (String × Json) → List Char
  | [] => newLine depth ++ ['}']
  | f :: fs => ',' :: (newLine (depth + 1) ++
      (quoteAscii f.1 ++ ':' :: ' ' :: (renderIndent (depth + 1) f.2 ++ renderIndentFields depth fs)))

end

def dumpsIndent (v : Json) : List Char := renderIndent 0 v.sortKeys

/-! ## Round trip: strings -/

/-- The units that `escapeAscii c` is read as. -/
def unitsOf (c : Char) : List (Char ⊕ Nat) :=
  if (32 ≤ c.toNat ∧ c.toNat ≤ 126) ∨ c = '\n' ∨ c = '\r' ∨ c = '\t' ∨ c.toNat = 8 ∨ c.toNat = 12 then [.inl c]
  else if c.toNat < 0x10000 then [.inr c.toNat]
  else [.inr (highUnit c.toNat), .inr (lowUnit c.toNat)]

theorem hexVal_hexDigit (n : Nat) : hexVal (hexDigit n) = some (n % 16) := by
  have key : ∀ k : Fin 16, hexVal (Nat.digitChar k.val) = some k.val := by decide +kernel
  exact key ⟨n % 16, Nat.mod_lt n (by decide)⟩

theorem hex4_hexDigits {n : Nat} (h : n < 0x10000) :
    hex4 (hexDigit (n / 4096)) (hexDigit (n / 256)) (hexDigit (n / 16)) (hexDigit n) = some n := by
  simp only [hex4, hexVal_hexDigit, Option.bind_eq_bind, Option.bind_some, Option.pure_def, Option.some_inj]
  omega

theorem scanUnits_escapeUnit {n : Nat} (h : n < 0x10000) (cs : List Char) :
    scanUnits (escapeUnit n ++ cs) = (scanUnits cs).map fun p => (.inr n :: p.1, p.2) := by
  simp only [escapeUnit, List.cons_append, List.nil_append, scanUnits, hex4_hexDigits h]
  cases scanUnits cs <;> rfl

theorem toNat_lt (c : Char) : c.toNat < 0x110000 := by
  rcases c.valid with h | h
  · exact Nat.lt_trans h (by decide)
  · exact h.2

theorem scanUnits_escapeAscii (c : Char) (cs : List Char) :
    scanUnits (escapeAscii c ++ cs) = (scanUnits cs).map fun p => (unitsOf c ++ p.1, p.2) := by
  unfold escapeAscii
  split_ifs with h1 h2 h3 h4 h5 h6 h7 h8 h9
  · subst h1; cases h : scanUnits cs <;> simp [scanUnits, unitsOf, h]
  · subst h2; cases h : scanUnits cs <;> simp [scanUnits, unitsOf, h]
  · subst h3; cases h : scanUnits cs <;> simp [scanUnits, unitsOf, h]
  · subst h4; cases h : scanUnits cs <;> simp [scanUnits, unitsOf, h]
  · subst h5; cases h : scanUnits cs <;> simp [scanUnits, unitsOf, h]
  · obtain rfl := ofNat_of_toNat h6
    cases h : scanUnits cs <;> simp [scanUnits, unitsOf, h]
  · obtain rfl := ofNat_of_toNat h7
    cases h : scanUnits cs <;> simp [scanUnits, unitsOf, h]
  · have hlow : ¬ c.toNat < 32 := Nat.not_lt.2 h8.1
    cases h : scanUnits cs <;> simp [scanUnits, unitsOf, h, h1, h8, hlow]
  · have hunits : unitsOf c = [.inr c.toNat] := by simp [unitsOf, h3, h4, h5, h6, h7, h8, h9]
    rw [scanUnits_escapeUnit h9, hunits]
    rfl
  · have hunits : unitsOf c = [.inr (highUnit c.toNat), .inr (lowUnit c.toNat)] := by
      simp [unitsOf, h3, h4, h5, h6, h7, h8, h9]
    have hlt := toNat_lt c
    have hhigh : highUnit c.toNat < 0x10000 := by
      unfold highUnit
      omega
    have hlow : lowUnit c.toNat < 0x10000 := by
      unfold lowUnit
      omega
    rw [List.append_assoc, scanUnits_escapeUnit hhigh, scanUnits_escapeUnit hlow, Option.map_map, hunits]
    rfl

theorem scanUnits_flatMap_ascii (s cs : List Char) :
    scanUnits (s.flatMap escapeAscii ++ '"' :: cs) = some (s.flatMap unitsOf, cs) := by
  induction s with
  | nil => simp [scanUnits]
  | cons c s ih =>
    rw [List.flatMap_cons, List.append_assoc, scanUnits_escapeAscii, ih, Option.map_some, List.flatMap_cons]

/-- A code unit that is no surrogate never pairs up. -/
theorem joinUnits_scalar {n : Nat} (hn : n < 0xd800 ∨ 0xdfff < n) (us : List (Char ⊕ Nat)) :
    joinUnits (.inr n :: us) = (joinUnits us).map (Char.ofNat n :: ·) := by
  have hscalar : scalar n = some (Char.ofNat n) := if_pos hn
  have hhigh : ¬ (0xd800 ≤ n ∧ n ≤ 0xdbff) := by omega
  rcases us with _ | ⟨c | m, us⟩
  · simp [joinUnits, hscalar]
  · simp [joinUnits, hscalar]
  · rw [joinUnits, if_neg (fun h => hhigh ⟨h.1, h.2.1⟩), hscalar]
    rfl

theorem joinUnits_pair {c : Char} (h : 0x10000 ≤ c.toNat) (us : List (Char ⊕ Nat)) :
    joinUnits (.inr (highUnit c.toNat) :: .inr (lowUnit c.toNat) :: us) = (joinUnits us).map (c :: ·) := by
  have hlt := toNat_lt c
  have hpair : 0xd800 ≤ highUnit c.toNat ∧ highUnit c.toNat ≤ 0xdbff ∧ 0xdc00 ≤ lowUnit c.toNat ∧
      lowUnit c.toNat ≤ 0xdfff := by
    unfold highUnit lowUnit
    omega
  have hsum : 0x10000 + 0x400 * (highUnit c.toNat - 0xd800) + (lowUnit c.toNat - 0xdc00) = c.toNat := by
    unfold highUnit lowUnit
    omega
  rw [joinUnits, if_pos hpair, hsum, Char.ofNat_toNat]

theorem joinUnits_unitsOf (s : List Char) : joinUnits (s.flatMap unitsOf) = some s := by
  induction s with
  | nil => rfl
  | cons c s ih =>
    rw [List.flatMap_cons, unitsOf]
    split_ifs with hplain hlow
    · simp [joinUnits, ih]
    · have hscalar : c.toNat < 0xd800 ∨ 0xdfff < c.toNat := by
        rcases c.valid with h | h
        · exact .inl h
        · exact .inr h.1
      rw [List.singleton_append, joinUnits_scalar hscalar, ih, Option.map_some, Char.ofNat_toNat]
    · rw [List.cons_append, List.singleton_append, joinUnits_pair (Nat.not_lt.1 hlow), ih, Option.map_some]

theorem scanString_quoteAscii (s : String) (cs : List Char) :
    scanString (s.toList.flatMap escapeAscii ++ '"' :: cs) = some (s, cs) := by
  simp [scanString, scanUnits_flatMap_ascii, joinUnits_unitsOf]

/-! ## Round trip: values -/

theorem skipWs_newLine (depth : Nat) {c : Char} (h : isWs c = false) (cs : List Char) :
    skipWs (newLine depth ++ c :: cs) = c :: cs := by
  have hblank : ∀ d ∈ newLine depth, isWs d = true := by
    intro d hd
    rcases List.mem_cons.1 hd with rfl | hd
    · rfl
    · rw [List.eq_of_mem_replicate hd]
      rfl
  rw [skipWs, List.dropWhile_append_of_pos hblank]
  simp [h]

theorem renderIndent_head (depth : Nat) : ∀ (v : Json), v.Clean → ∃ c cs, renderIndent depth v = c :: cs ∧
    isWs c = false ∧ c ≠ ']' ∧ c ≠ '}'
  | .null, _ => ⟨'n', _, rfl, rfl, by decide, by decide⟩
  | .bool true, _ => ⟨'t', _, rfl, rfl, by decide, by decide⟩
  | .bool false, _ => ⟨'f', _, rfl, rfl, by decide, by decide⟩
  | .int n, _ => render_head (.int n) trivial
  | .str s, _ => ⟨'"', _, rfl, rfl, by decide, by decide⟩
  | .arr [], _ => ⟨'[', _, rfl, rfl, by decide, by decide⟩
  | .arr (_ :: _), _ => ⟨'[', _, by rw [renderIndent], rfl, by decide, by decide⟩
  | .obj [], _ => ⟨'{', _, rfl, rfl, by decide, by decide⟩
  | .obj (_ :: _), _ => ⟨'{', _, by rw [renderIndent], rfl, by decide, by decide⟩

theorem renderIndentItems_head (depth : Nat) (vs : List Json) (rest : List Char) :
    Delim (renderIndentItems depth vs ++ rest) := by
  cases vs <;> simp [renderIndentItems, newLine, Delim]

theorem renderIndentFields_head (depth : Nat) (fs : List (String × Json)) (rest : List Char) :
    Delim (renderIndentFields depth fs ++ rest) := by
  cases fs <;> simp [renderIndentFields, newLine, Delim]

mutual

theorem scanValue_renderIndent (depth : Nat) : ∀ (v : Json) {fuel : Nat} {rest : List Char}, v.Clean → Delim rest →
    (renderIndent depth v).length ≤ fuel → scanValue fuel (renderIndent depth v ++ rest) = some (v, rest)
  | v, 0, _, hv, _, hf => by
    obtain ⟨c, cs, hr, -⟩ := renderIndent_head depth v hv
    simp [hr] at hf
  | .null, _ + 1, _, _, _, _ => by simp [renderIndent, scanValue, scanLiteral]
  | .bool true, _ + 1, _, _, _, _ => by simp [renderIndent, scanValue, scanLiteral]
  | .bool false, _ + 1, _, _, _, _ => by simp [renderIndent, scanValue, scanLiteral]
  | .int n, fuel + 1, _, _, hd, _ => by rw [renderIndent]; exact scanValue_int n fuel hd
  | .float _, _ + 1, _, hv, _, _ => hv.elim
  | .str s, _ + 1, _, _, _, _ => by simp [renderIndent, quoteAscii, scanValue, scanString_quoteAscii]
  | .arr [], _ + 1, _, _, _, _ => by simp [renderIndent, scanValue, skipWs, isWs]
  | .obj [], _ + 1, _, _, _, _ => by simp [renderIndent, scanValue, skipWs, isWs]
  | .arr (v :: vs), fuel + 1, rest, hv, _, hf => by
    obtain ⟨c, cs, hr, hws, hne, -⟩ := renderIndent_head (depth + 1) v hv.1
    have hlen : (renderIndent (depth + 1) v).length + (renderIndentItems depth vs).length ≤ fuel := by
      simp [renderIndent] at hf
      omega
    have hi : scanItems fuel (renderIndent (depth + 1) v ++ (renderIndentItems depth vs ++ rest)) = some (v :: vs, rest) :=
      scanItems_renderIndent depth v vs hv.1 hv.2 hlen
    rw [hr] at hi
    simp only [renderIndent, hr, List.cons_append, List.append_assoc] at hi ⊢
    rw [scanValue, skipWs_newLine _ hws]
    split
    · simp_all
    · rw [hi]; rfl
  | .obj (f :: fs), fuel + 1, rest, hv, _, hf => by
    have hlen : (quoteAscii f.1).length + (renderIndent (depth + 1) f.2).length + (renderIndentFields depth fs).length ≤
        fuel := by
      simp [renderIndent] at hf
      omega
    have hi : scanFields fuel (f.1.toList.flatMap escapeAscii ++
        '"' :: ':' :: ' ' :: (renderIndent (depth + 1) f.2 ++ (renderIndentFields depth fs ++ rest))) = some (f :: fs, rest) :=
      scanFields_renderIndent depth f fs hv.2.1 hv.2.2 hlen
    simp only [renderIndent, quoteAscii, List.cons_append, List.append_assoc, List.nil_append] at hi ⊢
    rw [scanValue, skipWs_newLine _ (by decide)]
    simp only [hi, Option.map_some, dict_nodup hv.1]

theorem scanItems_renderIndent (depth : Nat) : ∀ (v : Json) (vs : List Json) {fuel : Nat} {rest : List Char}, v.Clean →
    CleanItems vs → (renderIndent (depth + 1) v).length + (renderIndentItems depth vs).length ≤ fuel →
    scanItems fuel (renderIndent (depth + 1) v ++ (renderIndentItems depth vs ++ rest)) = some (v :: vs, rest)
  | v, vs, 0, _, hv, _, hf => by
    obtain ⟨c, cs, hr, -⟩ := renderIndent_head (depth + 1) v hv
    simp [hr] at hf
  | v, [], fuel + 1, rest, hv, _, hf => by
    have hlen : (renderIndent (depth + 1) v).length ≤ fuel := by
      simp [renderIndentItems] at hf
      omega
    have h := scanValue_renderIndent (depth + 1) v hv (renderIndentItems_head depth [] rest) hlen
    rw [scanItems, h]
    simp [renderIndentItems, skipWs_newLine _ (show isWs ']' = false by decide)]
  | v, w :: vs, fuel + 1, rest, hv, hvs, hf => by
    have hlen : (renderIndent (depth + 1) v).length ≤ fuel ∧
        (renderIndent (depth + 1) w).length + (renderIndentItems depth vs).length ≤ fuel := by
      simp [renderIndentItems] at hf
      omega
    have h := scanValue_renderIndent (depth + 1) v hv (renderIndentItems_head depth (w :: vs) rest) hlen.1
    have hi : scanItems fuel (renderIndent (depth + 1) w ++ (renderIndentItems depth vs ++ rest)) = some (w :: vs, rest) :=
      scanItems_renderIndent depth w vs hvs.1 hvs.2 hlen.2
    obtain ⟨c, cs, hr, hws, -⟩ := renderIndent_head (depth + 1) w hvs.1
    rw [scanItems, h]
    simp only [renderIndentItems, hr, List.cons_append, List.append_assoc] at hi ⊢
    simp [skipWs_of (show isWs ',' = false by decide), skipWs_newLine _ hws, hi]

theorem scanFields_renderIndent (depth : Nat) : ∀ (f : String × Json) (fs : List (String × Json)) {fuel : Nat}
    {rest : List Char}, f.2.Clean → CleanFields fs →
    (quoteAscii f.1).length + (renderIndent (depth + 1) f.2).length + (renderIndentFields depth fs).length ≤ fuel →
    scanFields fuel (f.1.toList.flatMap escapeAscii ++
      '"' :: ':' :: ' ' :: (renderIndent (depth + 1) f.2 ++ (renderIndentFields depth fs ++ rest))) = some (f :: fs, rest)
  | f, _, 0, _, _, _, hf => by simp [quoteAscii] at hf
  | f, [], fuel + 1, rest, hv, _, hf => by
    have hlen : (renderIndent (depth + 1) f.2).length ≤ fuel := by
      simp [quoteAscii] at hf
      omega
    have h := scanValue_renderIndent (depth + 1) f.2 hv (renderIndentFields_head depth [] rest) hlen
    obtain ⟨c, cs, hr, hws, -⟩ := renderIndent_head (depth + 1) f.2 hv
    have hblank : skipWs (' ' :: c :: (cs ++ (renderIndentFields depth [] ++ rest))) =
        c :: (cs ++ (renderIndentFields depth [] ++ rest)) := by
      rw [skipWs, List.dropWhile_cons_of_pos (by decide)]
      exact skipWs_of hws
    rw [scanFields, scanString_quoteAscii]
    simp only [hr, List.cons_append] at h ⊢
    simp only [skipWs_of (show isWs ':' = false by decide), hblank, h, Option.bind_eq_bind, Option.bind_some]
    simp [renderIndentFields, skipWs_newLine _ (show isWs '}' = false by decide)]
  | f, g :: fs, fuel + 1, rest, hv, hfs, hf => by
    have hlen : (renderIndent (depth + 1) f.2).length ≤ fuel ∧
        (quoteAscii g.1).length + (renderIndent (depth + 1) g.2).length + (renderIndentFields depth fs).length ≤ fuel := by
      simp [renderIndentFields, quoteAscii] at hf ⊢
      omega
    have h := scanValue_renderIndent (depth + 1) f.2 hv (renderIndentFields_head depth (g :: fs) rest) hlen.1
    have hi : scanFields fuel (g.1.toList.flatMap escapeAscii ++
        '"' :: ':' :: ' ' :: (renderIndent (depth + 1) g.2 ++ (renderIndentFields depth fs ++ rest))) = some (g :: fs, rest) :=
      scanFields_renderIndent depth g fs hfs.1 hfs.2 hlen.2
    obtain ⟨c, cs, hr, hws, -⟩ := renderIndent_head (depth + 1) f.2 hv
    have hblank : skipWs (' ' :: c :: (cs ++ (renderIndentFields depth (g :: fs) ++ rest))) =
        c :: (cs ++ (renderIndentFields depth (g :: fs) ++ rest)) := by
      rw [skipWs, List.dropWhile_cons_of_pos (by decide)]
      exact skipWs_of hws
    rw [scanFields, scanString_quoteAscii]
    simp only [hr, List.cons_append] at h ⊢
    simp only [skipWs_of (show isWs ':' = false by decide), hblank, h, Option.bind_eq_bind, Option.bind_some]
    simp only [renderIndentFields, quoteAscii, List.cons_append, List.append_assoc, List.nil_append] at hi ⊢
    simp [skipWs_of (show isWs ',' = false by decide), skipWs_newLine _ (show isWs '"' = false by decide), hi]

end

/-- **The reader undoes the indented writer**, up to the order of the keys, also with a newline after it. -/
theorem loads_dumpsIndent {v : Json} (h : v.Clean) :
    loads (String.ofList (dumpsIndent v ++ ['\n'])) = some v.sortKeys := by
  have hc := clean_sortKeys v h
  have hd : Delim ['\n'] := by simp [Delim]
  obtain ⟨c, cs, hr, hws, -⟩ := renderIndent_head 0 v.sortKeys hc
  have hs : scanValue ((renderIndent 0 v.sortKeys ++ ['\n']).length + 1) (renderIndent 0 v.sortKeys ++ ['\n']) =
      some (v.sortKeys, ['\n']) := scanValue_renderIndent 0 v.sortKeys hc hd (by simp; omega)
  rw [loads, dumpsIndent]
  simp only [String.toList_ofList]
  rw [hr, List.cons_append, skipWs_of hws, ← List.cons_append, ← hr, hs]
  simp [skipWs, isWs]

end Json
