import Mathlib.Init

/-!
# Splitting a command (`shlex.split`)

The reader of `shlex` in POSIX mode with `whitespace_split` and without comments. The characters of a word are those
of the command (`split_subset`).
-/

namespace Shlex

/-- Where the reader stands; a quoted part and an escape are within a word. -/
inductive State where
  | gap
  | word (token : List Char)
  | quoted (quote : Char) (token : List Char)
  | escaped (quote : Option Char) (token : List Char)

def isBlank (c : Char) : Bool := c = ' ' || c = '\t' || c = '\r' || c = '\n'

def isQuote (c : Char) : Bool := c = '\'' || c = '"'

inductive ShlexError where
  | noClosingQuotation
  | noEscapedCharacter
deriving DecidableEq

def ShlexError.text : ShlexError → String
  | .noClosingQuotation => "No closing quotation"
  | .noEscapedCharacter => "No escaped character"

def read : State → List Char → Except ShlexError (List (List Char))
  | .gap, [] => .ok []
  | .gap, c :: cs =>
    if isBlank c then read .gap cs
    else if c = '\\' then read (.escaped none []) cs
    else if isQuote c then read (.quoted c []) cs
    else read (.word [c]) cs
  | .word token, [] => .ok [token]
  | .word token, c :: cs =>
    if isBlank c then (read .gap cs).map (token :: ·)
    else if isQuote c then read (.quoted c token) cs
    else if c = '\\' then read (.escaped none token) cs
    else read (.word (token ++ [c])) cs
  | .quoted _ _, [] => .error .noClosingQuotation
  | .quoted quote token, c :: cs =>
    if c = quote then read (.word token) cs
    else if c = '\\' ∧ quote = '"' then read (.escaped (some quote) token) cs
    else read (.quoted quote (token ++ [c])) cs
  | .escaped _ _, [] => .error .noEscapedCharacter
  | .escaped none token, c :: cs => read (.word (token ++ [c])) cs
  | .escaped (some quote) token, c :: cs =>
    read (.quoted quote (if c = '\\' ∨ c = quote then token ++ [c] else token ++ ['\\', c])) cs

/-- `shlex.split(s)`. -/
def split (s : List Char) : Except ShlexError (List (List Char)) := read .gap s

/-- What is read of the word so far. -/
def State.token : State → List Char
  | .gap => []
  | .word token => token
  | .quoted _ token => token
  | .escaped _ token => token

/-- An escape within quotes has a backslash behind it. -/
def State.Within (allowed : List Char) : State → Prop
  | .escaped _ token => token ⊆ allowed ∧ '\\' ∈ allowed
  | s => s.token ⊆ allowed

theorem read_subset {allowed : List Char} : ∀ {cs : List Char} {s : State} {words : List (List Char)}, s.Within allowed →
    cs ⊆ allowed → read s cs = .ok words → ∀ word ∈ words, word ⊆ allowed := by
  intro cs
  induction cs with
  | nil =>
    intro s words hs _ h word hword
    cases s with
    | gap =>
      cases h
      cases hword
    | word token =>
      cases h
      rw [List.mem_singleton.1 hword]
      exact hs
    | quoted quote token => cases h
    | escaped quote token => cases h
  | cons c cs ih =>
    intro s words hs hcs h word hword
    have hc : c ∈ allowed := hcs List.mem_cons_self
    have hrest : cs ⊆ allowed := fun d hd => hcs (List.mem_cons_of_mem c hd)
    have hone : ∀ {token : List Char}, token ⊆ allowed → token ++ [c] ⊆ allowed := by
      intro token htoken d hd
      rcases List.mem_append.1 hd with hd | hd
      · exact htoken hd
      · rwa [List.mem_singleton.1 hd]
    have hnil : ([] : List Char) ⊆ allowed := List.nil_subset _
    cases s with
    | gap =>
      rw [read] at h
      split at h
      · exact ih (s := .gap) hnil hrest h word hword
      · split at h
        · next hbackslash => exact ih (s := .escaped none []) ⟨hnil, hbackslash ▸ hc⟩ hrest h word hword
        · split at h
          · exact ih (s := .quoted c []) hnil hrest h word hword
          · exact ih (s := .word [c]) (by simpa [State.Within, State.token] using hc) hrest h word hword
    | word token =>
      rw [read] at h
      split at h
      · cases hread : read .gap cs with
        | error e =>
          rw [hread] at h
          cases h
        | ok rest =>
          rw [hread] at h
          cases h
          rcases List.mem_cons.1 hword with rfl | hword
          · exact hs
          · exact ih (s := .gap) hnil hrest hread word hword
      · split at h
        · exact ih (s := .quoted c token) hs hrest h word hword
        · split at h
          · next hbackslash => exact ih (s := .escaped none token) ⟨hs, hbackslash ▸ hc⟩ hrest h word hword
          · exact ih (s := .word (token ++ [c])) (hone hs) hrest h word hword
    | quoted quote token =>
      rw [read] at h
      split at h
      · exact ih (s := .word token) hs hrest h word hword
      · split at h
        · next hbackslash => exact ih (s := .escaped (some quote) token) ⟨hs, hbackslash.1 ▸ hc⟩ hrest h word hword
        · exact ih (s := .quoted quote (token ++ [c])) (hone hs) hrest h word hword
    | escaped quote token =>
      cases quote with
      | none => exact ih (s := .word (token ++ [c])) (hone hs.1) hrest h word hword
      | some quote =>
        rw [read] at h
        refine ih (s := .quoted quote _) ?_ hrest h word hword
        show (if c = '\\' ∨ c = quote then token ++ [c] else token ++ ['\\', c]) ⊆ allowed
        split
        · exact hone hs.1
        · intro d hd
          simp only [List.mem_append, List.mem_cons, List.not_mem_nil, or_false] at hd
          rcases hd with hd | rfl | rfl
          · exact hs.1 hd
          · exact hs.2
          · exact hc

/-- **A word has characters of the command only.** -/
theorem split_subset {s : List Char} {words : List (List Char)} (h : split s = .ok words) : ∀ word ∈ words, word ⊆ s :=
  read_subset (s := .gap) (List.nil_subset s) (fun _ hc => hc) h

end Shlex
