import Mathlib.Init

/-!
# Bytes read as text (`bytes.decode("utf-8", "surrogateescape")`)

A byte that is not part of a character is escaped on its own, so that encoding gives the bytes back
(`encode_decode`).
-/

/-- A character, or the escape of a byte that is not part of one. -/
inductive CodePoint where
  | char (c : Char)
  | escape (b : UInt8)
deriving DecidableEq, Repr

namespace SurrogateEscape

def encodePoint : CodePoint → List UInt8
  | .char c => String.utf8EncodeChar c
  | .escape b => [b]

/-- `text.encode("utf-8", "surrogateescape")`. -/
def encode (text : List CodePoint) : List UInt8 := text.flatMap encodePoint

/-- The character that some bytes start with. -/
def first (bytes : List UInt8) : Option Char := bytes.toByteArray.utf8DecodeChar? 0

/-- At most `n` code points, and escapes; every code point takes a byte. -/
def decodeN : Nat → List UInt8 → List CodePoint
  | 0, bytes => bytes.map .escape
  | _ + 1, [] => []
  | n + 1, b :: bytes =>
    match first (b :: bytes) with
    | some c => .char c :: decodeN n ((b :: bytes).drop c.utf8Size)
    | none => .escape b :: decodeN n bytes

def decode (bytes : List UInt8) : List CodePoint := decodeN bytes.length bytes

@[simp] theorem encode_nil : encode [] = [] := rfl

@[simp] theorem encode_cons (p : CodePoint) (text : List CodePoint) :
    encode (p :: text) = encodePoint p ++ encode text := List.flatMap_cons

@[simp] theorem encode_append (a b : List CodePoint) : encode (a ++ b) = encode a ++ encode b :=
  List.flatMap_append

theorem encode_escapes : ∀ bytes : List UInt8, encode (bytes.map .escape) = bytes
  | [] => rfl
  | b :: bytes => by rw [List.map_cons, encode_cons, encode_escapes bytes, encodePoint, List.singleton_append]

/-- A character is read where its encoding stands. -/
theorem first_eq_some {bytes : List UInt8} {c : Char} (h : first bytes = some c) :
    String.utf8EncodeChar c ++ bytes.drop c.utf8Size = bytes := by
  obtain ⟨rest, heq⟩ := ByteArray.exists_of_utf8DecodeChar?_eq_some h
  have hlist : bytes = String.utf8EncodeChar c ++ rest.data.toList := by
    simpa using congrArg (·.data.toList) heq
  rw [hlist, ← String.length_utf8EncodeChar, List.drop_left]

theorem encode_decodeN : ∀ (n : Nat) (bytes : List UInt8), encode (decodeN n bytes) = bytes
  | 0, bytes => encode_escapes bytes
  | _ + 1, [] => rfl
  | n + 1, b :: bytes => by
    rw [decodeN]
    split
    · next c hc => rw [encode_cons, encode_decodeN n, encodePoint, first_eq_some hc]
    · rw [encode_cons, encode_decodeN n, encodePoint, List.singleton_append]

/-- **Nothing is lost.** -/
theorem encode_decode (bytes : List UInt8) : encode (decode bytes) = bytes := encode_decodeN _ bytes

/-! ## Decoding piece by piece -/

theorem first_encode (c : Char) (rest : List UInt8) : first (String.utf8EncodeChar c ++ rest) = some c := by
  rw [first, List.toByteArray_append]
  exact ByteArray.utf8DecodeChar?_utf8EncodeChar_append

theorem decodeN_enough : ∀ {n m : Nat} {bytes : List UInt8}, bytes.length ≤ n → bytes.length ≤ m →
    decodeN n bytes = decodeN m bytes
  | n, m, [], _, _ => by cases n <;> cases m <;> rfl
  | n + 1, m + 1, b :: bytes, hn, hm => by
    rw [decodeN, decodeN]
    rw [List.length_cons] at hn hm
    split
    · next c hc =>
      have hpos := c.utf8Size_pos
      have hlen : ((b :: bytes).drop c.utf8Size).length ≤ bytes.length := by
        rw [List.length_drop, List.length_cons]
        omega
      rw [decodeN_enough (n := n) (m := m) (by omega) (by omega)]
    · rw [decodeN_enough (n := n) (m := m) (by omega) (by omega)]

/-- The code point a text starts with. -/
theorem decode_cons (b : UInt8) (bytes : List UInt8) :
    decode (b :: bytes) = match first (b :: bytes) with
      | some c => .char c :: decode ((b :: bytes).drop c.utf8Size)
      | none => .escape b :: decode bytes := by
  rw [decode, List.length_cons, decodeN]
  split
  · next c hc =>
    have hpos := c.utf8Size_pos
    rw [decode, decodeN_enough (Nat.le_refl _)]
    rw [List.length_drop, List.length_cons]
    omega
  · rfl

/-- A character is read as such. -/
theorem decode_char (c : Char) (rest : List UInt8) :
    decode (String.utf8EncodeChar c ++ rest) = .char c :: decode rest := by
  have hfirst := first_encode c rest
  have hdrop : (String.utf8EncodeChar c ++ rest).drop c.utf8Size = rest := by
    rw [← String.length_utf8EncodeChar, List.drop_left]
  cases hbytes : String.utf8EncodeChar c ++ rest with
  | nil =>
    have hlen := congrArg List.length hbytes
    have hpos := c.utf8Size_pos
    rw [List.length_append, String.length_utf8EncodeChar, List.length_nil] at hlen
    omega
  | cons b bytes =>
    rw [hbytes] at hfirst hdrop
    rw [decode_cons, hfirst]
    simp only [hdrop]

/-- A newline is not part of a longer character. -/
theorem first_newline {b : UInt8} {xs ys : List UInt8} : first (b :: xs ++ 10 :: ys) = first (b :: xs) := by
  cases hfirst : first (b :: xs) with
  | some c =>
    rw [first, List.toByteArray_append]
    exact ByteArray.utf8DecodeChar?_append_eq_some hfirst _
  | none =>
    rw [Option.eq_none_iff_forall_ne_some]
    intro c hc
    have heq := first_eq_some hc
    by_cases hlen : c.utf8Size ≤ (b :: xs).length
    · have hpre : String.utf8EncodeChar c <+: b :: xs := by
        have hencoded : String.utf8EncodeChar c <+: b :: xs ++ 10 :: ys := ⟨_, heq⟩
        have hle : (String.utf8EncodeChar c).length ≤ (b :: xs).length := by
          rw [String.length_utf8EncodeChar]
          exact hlen
        exact List.prefix_of_prefix_length_le hencoded (List.prefix_append _ _) hle
      obtain ⟨rest, hrest⟩ := hpre
      rw [← hrest, first_encode] at hfirst
      cases hfirst
    · -- the newline would be a byte that continues the character
      have hlt : (b :: xs).length < (String.utf8EncodeChar c).length := by
        rw [String.length_utf8EncodeChar]
        omega
      have hbyte : (String.utf8EncodeChar c)[(b :: xs).length] = 10 := by
        have hget := congrArg (·[(b :: xs).length]?) heq
        rw [List.getElem?_append_left hlt, List.getElem?_append_right (Nat.le_refl _), Nat.sub_self,
          List.getElem?_eq_getElem hlt] at hget
        exact Option.some.inj hget
      have hcontinues : (String.utf8EncodeChar c)[(b :: xs).length].IsUTF8FirstByte ↔ (b :: xs).length = 0 :=
        UInt8.isUTF8FirstByte_getElem_utf8EncodeChar
      rw [hbyte] at hcontinues
      cases hcontinues.1 (by decide)

theorem decode_newline : ∀ (xs ys : List UInt8), decode (xs ++ 10 :: ys) = decode xs ++ .char '\n' :: decode ys
  | [], ys => decode_char '\n' ys
  | b :: xs, ys => by
    rw [List.cons_append, decode_cons, decode_cons, ← List.cons_append, first_newline]
    cases hfirst : first (b :: xs) with
    | none =>
      simp only
      rw [decode_newline xs ys, List.cons_append]
    | some c =>
      have hlen : c.utf8Size ≤ (b :: xs).length := by
        have hsize := congrArg List.length (first_eq_some hfirst)
        rw [List.length_append, String.length_utf8EncodeChar] at hsize
        omega
      have hpos := c.utf8Size_pos
      simp only [List.drop_append_of_le_length hlen]
      rw [decode_newline ((b :: xs).drop c.utf8Size) ys, List.cons_append]
termination_by xs => xs.length
decreasing_by
  · exact Nat.lt_succ_self xs.length
  · rw [List.length_drop, List.length_cons]
    omega

/-- A text that bytes are read as. -/
def Readable (text : List CodePoint) : Prop := decode (encode text) = text

theorem readable_decode (bytes : List UInt8) : Readable (decode bytes) := by
  rw [Readable, encode_decode]

theorem readable_cons {c : Char} {text : List CodePoint} (h : Readable (.char c :: text)) : Readable text := by
  rw [Readable, encode_cons, encodePoint, decode_char] at h
  exact (List.cons.inj h).2

end SurrogateEscape
