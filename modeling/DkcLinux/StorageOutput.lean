import Mathlib.Data.List.Dedup
import Mathlib.Data.List.Sort
import Mathlib.Data.String.Basic
import DkcLinux.Order.Replace
import DkcLinux.Text.PyStr
import DkcLinux.Records

/-!
# Output of the storage commands (`dkc/storage_output.py`)

A command's output is captured up to a bound, the connection values are replaced in it one after the other, and
it is released unless one of them is still there.

| theorem                    | what                                                                          |
|----------------------------|-------------------------------------------------------------------------------|
| `mark_remains`             | a control character is rewritten to a value, and a command's success is lost  |
| `redaction_fails_closed`   | which values are all removed; what is released contains none in any case      |
| `border_leaks`             | of a value on the border of the capture the first characters are released     |
| `truncation_hides_iff`     | two runs are told apart by what the capture keeps of such values, and only so |

`urllib.parse.urlsplit` is a parameter.
-/

namespace StorageOutput

open Py

abbrev Text := List Char

/-! ## Encoded forms -/

def utf8 (value : Text) : List UInt8 := value.flatMap String.utf8EncodeChar

/-- `urllib.parse.quote(value, safe=safe)`. -/
def quote (safe : Text) (value : Text) : Text :=
  (utf8 value).flatMap fun byte =>
    let c := Char.ofNat byte.toNat
    if isAsciiAlnum c ∨ c ∈ "_.-~".toList ∨ c ∈ safe then [c]
    else ['%', (Nat.digitChar (byte.toNat / 16)).toUpper, (Nat.digitChar (byte.toNat % 16)).toUpper]

/-- `urllib.parse.quote_plus(value, safe="")`. -/
def quote_plus (value : Text) : Text := (quote [' '] value).map fun c => if c = ' ' then '+' else c

/-- `\uXXXX`. -/
def unit (n : Nat) : Text :=
  ['\\', 'u', Nat.digitChar (n / 4096), Nat.digitChar (n / 256 % 16), Nat.digitChar (n / 16 % 16),
    Nat.digitChar (n % 16)]

/-- A character in `json.dumps(..., ensure_ascii=True)`. -/
def escape (c : Char) : Text :=
  if c = '\\' then ['\\', '\\']
  else if c = '"' then ['\\', '"']
  else if c = '\n' then ['\\', 'n']
  else if c = '\r' then ['\\', 'r']
  else if c = '\t' then ['\\', 't']
  else if c.toNat = 8 then ['\\', 'b']
  else if c.toNat = 12 then ['\\', 'f']
  else if ' ' ≤ c ∧ c ≤ '~' then [c]
  else if c.toNat < 0x10000 then unit c.toNat
  else unit (0xd800 + (c.toNat - 0x10000) / 1024) ++ unit (0xdc00 + (c.toNat - 0x10000) % 1024)

/-- The digit of six bits; the last two differ in the URL-safe alphabet. -/
def sextet (last : Char × Char) (n : Nat) : Char :=
  if n < 26 then Char.ofNat (65 + n)
  else if n < 52 then Char.ofNat (71 + n)
  else if n < 62 then Char.ofNat (n - 4)
  else if n = 62 then last.1
  else last.2

/-- `base64.b64encode` and `base64.urlsafe_b64encode`. -/
def b64encode (last : Char × Char) : List UInt8 → Text
  | [] => []
  | [a] => [sextet last (a.toNat / 4), sextet last (a.toNat % 4 * 16), '=', '=']
  | [a, b] =>
    [sextet last (a.toNat / 4), sextet last (a.toNat % 4 * 16 + b.toNat / 16), sextet last (b.toNat % 16 * 4), '=']
  | a :: b :: c :: bytes =>
    sextet last (a.toNat / 4) :: sextet last (a.toNat % 4 * 16 + b.toNat / 16) ::
      sextet last (b.toNat % 16 * 4 + c.toNat / 64) :: sextet last (c.toNat % 64) :: b64encode last bytes

/-- `encoded.hex()`. -/
def hex (bytes : List UInt8) : Text :=
  bytes.flatMap fun byte => [Nat.digitChar (byte.toNat / 16), Nat.digitChar (byte.toNat % 16)]

/-- What is read of `urllib.parse.SplitResult`. -/
structure SplitResult where
  hostname : Option Text
  netloc : Text
  path : Text

def encoded_variants (urlsplit : Text → Except PyErr SplitResult) (value : Text) : Except PyErr (List Text) := do
  let encoded := utf8 value
  let variants := [value, quote [] value, quote_plus value, value.flatMap escape, b64encode ('+', '/') encoded,
    b64encode ('-', '_') encoded, hex encoded]
  let parsed ← urlsplit value
  let segments := match parsed.hostname with
    | none | some [] => []
    | some hostname => hostname :: parsed.netloc :: (parsed.path.splitOn '/').filter (· ≠ [])
  return (variants ++ segments).filter (· ≠ [])

theorem filled_variants {urlsplit : Text → Except PyErr SplitResult} {value : Text} {variants : List Text}
    (h : encoded_variants urlsplit value = .ok variants) : [] ∉ variants := by
  obtain ⟨parsed, -, h⟩ := except_bind_eq_ok.1 h
  cases h
  intro hmem
  have hne := (List.mem_filter.1 hmem).2
  simp at hne

/-! ## The redactor -/

/-- All connection-file string values in directly printable forms. -/
structure StorageRedactor where
  markers : List Text
  filled : [] ∉ markers
  distinct : markers.Nodup
  longest_first : markers.Pairwise fun a b => b.length ≤ a.length

/-- The redactor of these values, in one of the orders that `sorted` may leave. -/
def StorageRedactor.of_values (urlsplit : Text → Except PyErr SplitResult) (values : List Text) :
    Except PyErr StorageRedactor :=
  match h : values.mapM (encoded_variants urlsplit) with
  | .error e => .error e
  | .ok variants => .ok {
      markers := (variants.flatten.dedup).insertionSort fun a b => b.length ≤ a.length
      filled := by
        rw [List.mem_insertionSort, List.mem_dedup, List.mem_flatten]
        rintro ⟨vs, hvs, hnil⟩
        obtain ⟨value, -, hvalue⟩ := (except_mapM_mem h).2 vs hvs
        exact filled_variants hvalue hnil
      distinct := (List.perm_insertionSort _ _).nodup_iff.2 (List.nodup_dedup _)
      longest_first := List.pairwise_insertionSort _ _ }

namespace StorageRedactor

def candidates : List Text := ["[redacted]".toList, "[filtered]".toList, "[removed]".toList]

def replacement (r : StorageRedactor) : Text :=
  (candidates.find? fun candidate => r.markers.all fun marker => ¬ marker <:+: candidate).getD []

/-- `re.sub(r"[\x00-\x08\x0b\x0c\x0e-\x1f\x7f]", "?", ...)` after the carriage returns are blanks. -/
def printable (c : Char) : Char :=
  if c = '\r' then ' ' else if isControl c ∧ c ≠ '\t' ∧ c ≠ '\n' then '?' else c

/-- `re.sub(r"(?m)^::", " : :", ...)`, at the start of a line or within it. -/
def commands : Bool → Text → Text
  | _, [] => []
  | true, ':' :: ':' :: cs => ' ' :: ':' :: ' ' :: ':' :: commands false cs
  | _, c :: cs => c :: commands (c = '\n') cs

def redact (r : StorageRedactor) (value : Text) : Text :=
  commands true ((List.replaceEach r.markers r.replacement value).map printable)

def contains_connection_value (r : StorageRedactor) (value : Text) : Bool :=
  r.markers.any fun marker => marker <:+: value

end StorageRedactor

/-! ## The capture -/

structure BoundedCapture (maximum : Nat) where
  buffer : Text
  length : Nat
  truncated : Bool
  counted : length = buffer.length
  bounded : length ≤ maximum

namespace BoundedCapture

variable {maximum : Nat}

def empty (maximum : Nat) : BoundedCapture maximum := ⟨[], 0, false, rfl, Nat.zero_le _⟩

def write (capture : BoundedCapture maximum) (value : Text) : BoundedCapture maximum :=
  let remaining := maximum - capture.length
  let kept := value.take remaining
  { buffer := capture.buffer ++ kept
    length := capture.length + kept.length
    truncated := capture.truncated || value.length > remaining
    counted := by rw [capture.counted, List.length_append]
    bounded := by
      have hle : kept.length ≤ maximum - capture.length := List.length_take_le _ value
      have hcap := capture.bounded
      omega }

def notice : Text := "\n[storage command output truncated]\n".toList

def value (capture : BoundedCapture maximum) : Text :=
  if capture.truncated then capture.buffer ++ notice else capture.buffer

end BoundedCapture

/-! ## The command -/

inductive Stream where
  | stdout
  | stderr
deriving DecidableEq

/-- How the callback ends; an exception is printed to `stderr`. -/
inductive Ending where
  | returned (status : Int)
  | raised (traceback : List Text)

/-- What the callback writes, in order. -/
structure Command where
  writes : List (Stream × Text)
  ending : Ending

namespace Command

def status (command : Command) : Int :=
  match command.ending with
  | .returned status => status
  | .raised _ => 1

def all_writes (command : Command) : List (Stream × Text) :=
  match command.ending with
  | .returned _ => command.writes
  | .raised traceback => command.writes ++ traceback.map fun text => (.stderr, text)

/-- The two captures after the writes. -/
def captures (maximum : Nat) : List (Stream × Text) → BoundedCapture maximum × BoundedCapture maximum →
    BoundedCapture maximum × BoundedCapture maximum
  | [], both => both
  | (.stdout, text) :: writes, (out, err) => captures maximum writes (out.write text, err)
  | (.stderr, text) :: writes, (out, err) => captures maximum writes (out, err.write text)

end Command

structure Released where
  stdout : Text
  stderr : Text
  status : Int
deriving DecidableEq

def invariant_failure : Released := ⟨[], "FAIL storage output sanitizer invariant\n".toList, 1⟩

def run_with_sanitized_output (r : StorageRedactor) (command : Command) (maximum_stream_chars : Nat) :
    Except PyErr Released :=
  if maximum_stream_chars < 4096 then .error (.ValueError "sanitized output bound is too small")
  else
    let (stdout_capture, stderr_capture) := Command.captures maximum_stream_chars command.all_writes (.empty _, .empty _)
    let sanitized_stdout := r.redact stdout_capture.value
    let sanitized_stderr := r.redact stderr_capture.value
    if r.contains_connection_value (sanitized_stdout ++ sanitized_stderr) then .ok invariant_failure
    else .ok ⟨sanitized_stdout, sanitized_stderr, command.status⟩

/-! ## The rewriting of control characters and commands -/

namespace StorageRedactor

theorem commands_blanks (b : Bool) (text : Text) :
    (commands b text).filter (· ≠ ' ') = text.filter (· ≠ ' ') := by
  fun_induction commands b text with
  | case1 => rfl
  | case2 cs ih => simpa using ih
  | case3 b c cs _ ih =>
    by_cases hc : c = ' '
    · simpa [hc] using ih
    · simpa [hc] using ih

theorem prefix_commands (b : Bool) (text : Text) : ∀ {m : Text}, ' ' ∉ m → m <+: commands b text → m <+: text := by
  fun_induction commands b text with
  | case1 => exact fun _ h => h
  | case2 cs ih =>
    intro m hm h
    cases m with
    | nil => exact List.nil_prefix
    | cons c m =>
      obtain ⟨rfl, -⟩ := List.cons_prefix_cons.1 h
      exact absurd List.mem_cons_self hm
  | case3 b c cs _ ih =>
    intro m hm h
    cases m with
    | nil => exact List.nil_prefix
    | cons d m =>
      obtain ⟨rfl, h⟩ := List.cons_prefix_cons.1 h
      exact List.cons_prefix_cons.2 ⟨rfl, ih (fun hmem => hm (List.mem_cons_of_mem _ hmem)) h⟩

/-- A value without blanks is not made by the rewriting of `::`. -/
theorem infix_commands (b : Bool) (text : Text) {m : Text} (hm : ' ' ∉ m) (hne : m ≠ []) :
    m <:+: commands b text → m <:+: text := by
  have hsep : List.Separate [' '] m := .singleton hne hm
  fun_induction commands b text with
  | case1 => exact fun h => h
  | case2 cs ih =>
    intro h
    rcases List.infix_append_separate (a := []) hsep h with h | h
    · exact absurd (List.infix_nil.1 h) hne
    · rcases List.infix_append_separate (a := [':']) hsep h with h | h
      · exact h.trans (List.prefix_append [':'] (':' :: cs)).isInfix
      · rcases List.infix_cons_iff.1 h with h | h
        · cases m with
          | nil => exact absurd rfl hne
          | cons c m =>
            obtain rfl := (List.cons_prefix_cons.1 h).1
            have hpre := prefix_commands false cs (fun hmem => hm (List.mem_cons_of_mem _ hmem)) (List.cons_prefix_cons.1 h).2
            exact List.infix_cons (List.cons_prefix_cons.2 ⟨rfl, hpre⟩).isInfix
        · exact List.infix_cons (List.infix_cons (ih h))
  | case3 b c cs hnot ih =>
    intro h
    rcases List.infix_cons_iff.1 h with h | h
    · refine (prefix_commands b (c :: cs) hm ?_).isInfix
      rwa [commands.eq_3 b c cs hnot]
    · exact List.infix_cons (ih h)

theorem printable_same {c : Char} (hblank : printable c ≠ ' ') (hmark : printable c ≠ '?') : printable c = c := by
  unfold printable at *
  by_cases hcr : c = '\r'
  · rw [if_pos hcr] at hblank
    exact absurd rfl hblank
  · rw [if_neg hcr] at *
    by_cases hcontrol : isControl c ∧ c ≠ '\t' ∧ c ≠ '\n'
    · rw [if_pos hcontrol] at hmark
      exact absurd rfl hmark
    · rw [if_neg hcontrol]

theorem infix_printable {m text : Text} (hblank : ' ' ∉ m) (hmark : '?' ∉ m) (h : m <:+: text.map printable) :
    m <:+: text := by
  obtain ⟨m', hm', rfl⟩ := List.infix_map_iff.1 h
  have hsame : m'.map printable = m' := by
    calc m'.map printable = m'.map id := List.map_congr_left fun c hc => by
          have hmem := List.mem_map_of_mem (f := printable) hc
          exact printable_same (ne_of_mem_of_not_mem hmem hblank) (ne_of_mem_of_not_mem hmem hmark)
      _ = m' := List.map_id m'
  rwa [hsame]

/-- The replacement and the rewriting make no marker of what stands around them. -/
structure Sharp (r : StorageRedactor) : Prop where
  separate : ∀ marker ∈ r.markers, List.Separate r.replacement marker
  no_blank : ∀ marker ∈ r.markers, ' ' ∉ marker
  no_mark : ∀ marker ∈ r.markers, '?' ∉ marker

theorem redact_free {r : StorageRedactor} (h : r.Sharp) (text : Text) : ∀ marker ∈ r.markers, ¬ marker <:+: r.redact text := by
  intro marker hmem hin
  have hblank := h.no_blank marker hmem
  have hne := (h.separate marker hmem).ne_nil.1
  have hprint := infix_commands true _ hblank hne hin
  exact List.replaceEach_free h.separate text marker hmem (infix_printable hblank (h.no_mark marker hmem) hprint)

/-! ## Ends of lines -/

/-- Nothing, or whole lines. -/
def Lines (text : Text) : Prop := text = [] ∨ ∃ init, text = init ++ ['\n']

theorem commands_newline (b : Bool) (text : Text) : Lines (commands b (text ++ ['\n'])) := by
  have hcons (c : Char) {t : Text} (h : Lines t) (hne : t ≠ []) : Lines (c :: t) := by
    rcases h with rfl | ⟨init, rfl⟩
    · exact absurd rfl hne
    · exact .inr ⟨c :: init, rfl⟩
  have hne (b : Bool) (t : Text) : commands b (t ++ ['\n']) ≠ [] := by
    intro hnil
    have hblanks := commands_blanks b (t ++ ['\n'])
    rw [hnil, List.filter_append] at hblanks
    simp at hblanks
  fun_induction commands b text with
  | case1 b => exact .inr ⟨[], by cases b <;> rfl⟩
  | case2 cs ih => exact hcons _ (hcons _ (hcons _ (hcons _ ih (hne _ _)) (by simp)) (by simp)) (by simp)
  | case3 b c cs hnot ih =>
    have hother : ∀ cs', b = true → c = ':' → cs ++ ['\n'] = ':' :: cs' → False := by
      rintro cs' rfl rfl hcs
      cases cs with
      | nil => cases hcs
      | cons d cs =>
        obtain ⟨rfl, -⟩ := List.cons.inj hcs
        exact hnot cs rfl rfl rfl
    rw [List.cons_append, commands.eq_3 _ _ _ hother]
    exact hcons c ih (hne _ _)

theorem redact_lines {r : StorageRedactor} (hline : ∀ marker ∈ r.markers, List.Separate ['\n'] marker) {text : Text}
    (h : Lines text) : Lines (r.redact text) := by
  rcases h with rfl | ⟨init, rfl⟩
  · left
    rw [redact, List.replaceEach_nil]
    rfl
  · have hend : List.replaceEach r.markers r.replacement (init ++ (['\n'] ++ [])) = _ := List.replaceEach_separate hline init []
    rw [redact, ← List.append_nil ['\n'], hend, List.replaceEach_nil, List.append_nil, List.map_append]
    exact commands_newline true _

end StorageRedactor

/-! ## What is released -/

/-- The text that the writes send to a stream. -/
def text_on (stream : Stream) (writes : List (Stream × Text)) : Text :=
  writes.flatMap fun w => if w.1 = stream then w.2 else []

def Command.text (command : Command) (stream : Stream) : Text := text_on stream command.all_writes

/-- What a capture hands over of a text. -/
def captured (maximum : Nat) (text : Text) : Text :=
  text.take maximum ++ if maximum < text.length then BoundedCapture.notice else []

namespace BoundedCapture

variable {maximum : Nat}

/-- The capture after this text has been written. -/
structure Written (capture : BoundedCapture maximum) (text : Text) : Prop where
  buffer_eq : capture.buffer = text.take maximum
  truncated_eq : capture.truncated = decide (maximum < text.length)

theorem written_empty : (BoundedCapture.empty maximum).Written [] := ⟨List.take_nil.symm, by simp [empty]⟩

theorem Written.write {capture : BoundedCapture maximum} {text : Text} (h : capture.Written text) (value : Text) :
    (capture.write value).Written (text ++ value) := by
  have hlen : capture.length = min maximum text.length := by
    rw [capture.counted, h.buffer_eq, List.length_take]
  constructor
  · have hrest : maximum - min maximum text.length = maximum - text.length := by omega
    rw [List.take_append, ← h.buffer_eq, ← hrest, ← hlen]
    rfl
  · have htrunc : (capture.write value).truncated =
        (capture.truncated || decide (value.length > maximum - capture.length)) := rfl
    rw [htrunc, h.truncated_eq, hlen, List.length_append, Bool.eq_iff_iff, Bool.or_eq_true, decide_eq_true_eq,
      decide_eq_true_eq, decide_eq_true_eq]
    omega

theorem Written.value {capture : BoundedCapture maximum} {text : Text} (h : capture.Written text) :
    capture.value = captured maximum text := by
  rw [BoundedCapture.value, captured, h.buffer_eq, h.truncated_eq]
  by_cases hlt : maximum < text.length
  · rw [if_pos hlt, if_pos (decide_eq_true hlt)]
  · rw [if_neg hlt, if_neg (by simpa using hlt), List.append_nil]

theorem captures_written : ∀ (writes : List (Stream × Text)) {out err : BoundedCapture maximum} {text text' : Text},
    out.Written text → err.Written text' →
      (Command.captures maximum writes (out, err)).1.Written (text ++ text_on .stdout writes) ∧
        (Command.captures maximum writes (out, err)).2.Written (text' ++ text_on .stderr writes)
  | [], _, _, _, _, hout, herr => by simpa only [text_on, List.flatMap_nil, List.append_nil] using ⟨hout, herr⟩
  | (.stdout, value) :: writes, _, _, _, _, hout, herr => by
    simpa [Command.captures, text_on] using captures_written writes (hout.write value) herr
  | (.stderr, value) :: writes, _, _, _, _, hout, herr => by
    simpa [Command.captures, text_on] using captures_written writes hout (herr.write value)

end BoundedCapture

theorem captured_lines {maximum : Nat} {text : Text} (h : StorageRedactor.Lines text) :
    StorageRedactor.Lines (captured maximum text) := by
  rw [captured]
  by_cases hlt : maximum < text.length
  · rw [if_pos hlt]
    exact .inr ⟨text.take maximum ++ "\n[storage command output truncated]".toList, by
      rw [List.append_assoc]
      rfl⟩
  · rwa [if_neg hlt, List.append_nil, List.take_of_length_le (Nat.le_of_not_lt hlt)]

/-- The release: what is left of the two texts, or the failure. -/
theorem run_eq (r : StorageRedactor) (command : Command) {maximum : Nat} (hmax : 4096 ≤ maximum) :
    run_with_sanitized_output r command maximum = .ok
      (if r.contains_connection_value (r.redact (captured maximum (command.text .stdout)) ++
          r.redact (captured maximum (command.text .stderr))) then invariant_failure
        else ⟨r.redact (captured maximum (command.text .stdout)), r.redact (captured maximum (command.text .stderr)),
          command.status⟩) := by
  have hempty : (BoundedCapture.empty maximum).Written [] := BoundedCapture.written_empty
  have hboth := BoundedCapture.captures_written command.all_writes hempty hempty
  rw [List.nil_append, List.nil_append] at hboth
  rw [run_with_sanitized_output, if_neg (Nat.not_lt.2 hmax)]
  simp only [hboth.1.value, hboth.2.value, Command.text]
  exact (apply_ite Except.ok _ _ _).symm

theorem contains_iff (r : StorageRedactor) (text : Text) :
    r.contains_connection_value text = true ↔ ∃ marker ∈ r.markers, marker <:+: text := by
  rw [StorageRedactor.contains_connection_value, List.any_eq_true]
  simp only [decide_eq_true_eq]

/-- With no marker that goes from one stream to the other, the check passes. -/
theorem contains_false {r : StorageRedactor} (hsharp : r.Sharp) (hline : ∀ marker ∈ r.markers, '\n' ∉ marker) {text : Text}
    (hlines : StorageRedactor.Lines text) (maximum : Nat) (text' : Text) :
    ¬ r.contains_connection_value (r.redact (captured maximum text) ++ r.redact text') = true := by
  have hsep : ∀ marker ∈ r.markers, List.Separate ['\n'] marker := fun marker hmem =>
    .singleton (hsharp.separate marker hmem).ne_nil.1 (hline marker hmem)
  rw [contains_iff]
  rintro ⟨marker, hmem, hin⟩
  have hout := StorageRedactor.redact_free hsharp (captured maximum text) marker hmem
  have herr := StorageRedactor.redact_free hsharp text' marker hmem
  have hcaptured : StorageRedactor.Lines (captured maximum text) := captured_lines hlines
  rcases StorageRedactor.redact_lines hsep hcaptured with hnil | ⟨init, hinit⟩
  · rw [hnil, List.nil_append] at hin
    exact herr hin
  · rw [hinit, List.append_assoc] at hin
    rcases List.infix_append_separate (hsep marker hmem) hin with hin | hin
    · exact hout (hinit ▸ hin.trans (List.prefix_append init ['\n']).isInfix)
    · exact herr hin

/-- **What is released contains no marker, or is the failure.** If the replacement shares no end with a marker and no
marker contains a blank or a question mark, no text keeps one; if moreover none contains a newline and the standard
output ends with one, the command keeps its status. -/
theorem redaction_fails_closed (r : StorageRedactor) (command : Command) {maximum : Nat} (hmax : 4096 ≤ maximum) :
    ∃ released, run_with_sanitized_output r command maximum = .ok released ∧
      (released = invariant_failure ∨ ∀ marker ∈ r.markers, ¬ marker <:+: released.stdout ++ released.stderr) ∧
      (r.Sharp →
        (∀ text, ∀ marker ∈ r.markers, ¬ marker <:+: r.redact text) ∧
          ((∀ marker ∈ r.markers, '\n' ∉ marker) → StorageRedactor.Lines (command.text .stdout) →
            released = ⟨r.redact (captured maximum (command.text .stdout)),
              r.redact (captured maximum (command.text .stderr)), command.status⟩)) := by
  refine ⟨_, run_eq r command hmax, ?_, fun hsharp => ⟨StorageRedactor.redact_free hsharp, fun hline hlines => ?_⟩⟩
  · by_cases hcontains : r.contains_connection_value (r.redact (captured maximum (command.text .stdout)) ++
        r.redact (captured maximum (command.text .stderr))) = true
    · exact .inl (if_pos hcontains)
    · right
      rw [if_neg hcontains]
      intro marker hmem hin
      exact hcontains ((contains_iff r _).2 ⟨marker, hmem, hin⟩)
  · rw [if_neg (contains_false hsharp hline hlines maximum _)]

/-- A value without a host. -/
def no_host (_ : Text) : Except PyErr SplitResult := .ok ⟨none, [], []⟩

/-- The redactor of the value `key-1`. -/
def sample : StorageRedactor where
  markers := ["6b65792d31".toList, "a2V5LTE=".toList, "key-1".toList]
  filled := by decide
  distinct := by decide
  longest_first := by decide

example : (StorageRedactor.of_values no_host ["key-1".toList]).toOption.map (·.markers) = some sample.markers := by decide

theorem sample_sharp : sample.Sharp where
  separate := by decide
  no_blank := by decide
  no_mark := by decide

/-- A command that prints the key. -/
def prints_key : Command := ⟨[(.stdout, "key-".toList), (.stderr, "::".toList), (.stdout, "1\n".toList)], .returned 0⟩

theorem redaction_fails_closed_sample :
    ∃ released, run_with_sanitized_output sample prints_key 4096 = .ok released ∧
      released = ⟨"[redacted]\n".toList, " : :".toList, 0⟩ := by
  obtain ⟨released, hrun, -, hkept⟩ := redaction_fails_closed sample prints_key (Nat.le_refl 4096)
  obtain ⟨-, hsame⟩ := hkept sample_sharp
  have hlines : StorageRedactor.Lines (prints_key.text .stdout) := .inr ⟨"key-1".toList, by decide⟩
  refine ⟨released, hrun, (hsame (by decide) hlines).trans ?_⟩
  decide

/-- A control character becomes the value itself, and the command fails. -/
theorem mark_remains : ∃ r : StorageRedactor, StorageRedactor.of_values no_host [['?']] = .ok r ∧
    (∃ marker ∈ r.markers, marker <:+: r.redact [Char.ofNat 1]) ∧
      run_with_sanitized_output r ⟨[(.stdout, [Char.ofNat 1])], .returned 0⟩ 4096 = .ok invariant_failure := by
  refine ⟨⟨["Pw==".toList, "%3F".toList, "3f".toList, "?".toList], by decide, by decide, by decide⟩, ?_, ?_, ?_⟩
  · rfl
  · decide
  · rfl

/-! ## Two runs -/

/-- What a run releases on the two streams. -/
def release (r : StorageRedactor) (command : Command) (maximum : Nat) : Except PyErr (Text × Text) :=
  (run_with_sanitized_output r command maximum).map fun released => (released.stdout, released.stderr)

/-- The texts differ within marked values only, which stand apart and have the same lengths. -/
structure Swap (markers : List Text) (text text' : Text) where
  first : Text
  values : List (Text × Text)
  values' : List (Text × Text)
  spelled : text = List.spell first values
  spelled' : text' = List.spell first values'
  marked : List.Marked markers first values
  marked' : List.Marked markers first values'
  swapped : List.Swapped values values'

namespace Swap

variable {markers : List Text} {text text' : Text}

/-- What the capture keeps of a value on its border. -/
def kept (swap : Swap markers text text') (maximum : Nat) : Text := List.kept maximum swap.first swap.values

def kept' (swap : Swap markers text text') (maximum : Nat) : Text := List.kept maximum swap.first swap.values'

end Swap

namespace StorageRedactor

/-- No marker has a character that the rewriting touches. -/
structure Plain (r : StorageRedactor) : Prop extends r.Sharp where
  no_control : ∀ marker ∈ r.markers, ∀ c ∈ marker, isControl c = false

/-- The replacements are separated from the notice. -/
theorem replaceEach_captured {r : StorageRedactor} (hsep : ∀ marker ∈ r.markers, List.Separate r.replacement marker)
    (hline : ∀ marker ∈ r.markers, '\n' ∉ marker) (maximum : Nat) {g : Text} {vs : List (Text × Text)}
    (hmarked : List.Marked r.markers g vs) :
    List.replaceEach r.markers r.replacement (captured maximum (List.spell g vs)) =
      List.shown r.markers r.replacement maximum g vs ++ (List.kept maximum g vs ++
        List.replaceEach r.markers r.replacement
          (if maximum < (List.spell g vs).length then BoundedCapture.notice else [])) := by
  have hfence : ∀ marker ∈ r.markers, List.Separate ['\n'] marker := fun marker hmem =>
    .singleton (hsep marker hmem).ne_nil.1 (hline marker hmem)
  have hnotice : BoundedCapture.notice = ['\n'] ++ BoundedCapture.notice.tail := rfl
  have htake := List.replaceEach_marked hsep maximum hmarked
  rw [captured]
  by_cases hlt : maximum < (List.spell g vs).length
  · have hsplit (a : Text) := List.replaceEach_separate (r := r.replacement) hfence a BoundedCapture.notice.tail
    have hnil := hsplit []
    rw [List.nil_append, ← hnotice, List.replaceEach_nil, List.nil_append] at hnil
    rw [if_pos hlt, hnil, ← List.append_assoc, ← htake, ← hsplit, ← hnotice]
  · rw [if_neg hlt, List.append_nil, List.replaceEach_nil, List.append_nil, htake]

/-- What is the same after the blanks are left out. -/
theorem redact_blanks (r : StorageRedactor) (text : Text) : (r.redact text).filter (· ≠ ' ') =
    ((List.replaceEach r.markers r.replacement text).map printable).filter (· ≠ ' ') :=
  commands_blanks true _

theorem printable_plain {r : StorageRedactor} (hplain : r.Plain) {part : Text}
    (h : ∀ c ∈ part, ∃ marker ∈ r.markers, c ∈ marker) : (part.map printable).filter (· ≠ ' ') = part := by
  have hprint : part.map printable = part := by
    calc part.map printable = part.map id := List.map_congr_left fun c hc => by
          obtain ⟨marker, hmem, hc⟩ := h c hc
          have hcontrol := hplain.no_control marker hmem c hc
          have hcr : c ≠ '\r' := by
            rintro rfl
            cases hcontrol
          simp [printable, hcr, hcontrol]
      _ = part := List.map_id part
  rw [hprint, List.filter_eq_self]
  intro c hc
  obtain ⟨marker, hmem, hc⟩ := h c hc
  exact decide_eq_true (ne_of_mem_of_not_mem hc (hplain.no_blank marker hmem))

/-- One stream: the release is the same if what is kept is. -/
theorem redact_swap {r : StorageRedactor} (hsep : ∀ marker ∈ r.markers, List.Separate r.replacement marker)
    (hline : ∀ marker ∈ r.markers, '\n' ∉ marker) (maximum : Nat) {text text' : Text} (swap : Swap r.markers text text')
    (h : swap.kept maximum = swap.kept' maximum) :
    r.redact (captured maximum text) = r.redact (captured maximum text') := by
  obtain ⟨first, values, values', rfl, rfl, hmarked, hmarked', hswapped⟩ := swap
  have hkept : List.kept maximum first values = List.kept maximum first values' := h
  rw [redact, redact, replaceEach_captured hsep hline maximum hmarked, replaceEach_captured hsep hline maximum hmarked',
    List.shown_swapped _ _ _ _ hswapped, hkept, List.spell_swapped_length _ hswapped]

theorem Plain.no_newline {r : StorageRedactor} (hplain : r.Plain) : ∀ marker ∈ r.markers, '\n' ∉ marker := by
  intro marker hmem hnewline
  cases hplain.no_control marker hmem _ hnewline

/-- One stream: what is kept can be read off the release. -/
theorem kept_of_redact {r : StorageRedactor} (hplain : r.Plain) {maximum : Nat} {text text' : Text}
    (swap : Swap r.markers text text') (h : r.redact (captured maximum text) = r.redact (captured maximum text')) :
    swap.kept maximum = swap.kept' maximum := by
  obtain ⟨first, values, values', rfl, rfl, hmarked, hmarked', hswapped⟩ := swap
  have hblanks := congrArg (List.filter (· ≠ ' ')) h
  rw [redact_blanks, redact_blanks, replaceEach_captured hplain.separate hplain.no_newline maximum hmarked,
    replaceEach_captured hplain.separate hplain.no_newline maximum hmarked', List.shown_swapped _ _ _ _ hswapped,
    List.spell_swapped_length _ hswapped] at hblanks
  simp only [List.map_append, List.filter_append] at hblanks
  have hkept := List.append_cancel_right (List.append_cancel_left hblanks)
  rwa [printable_plain hplain (List.kept_subset maximum hmarked),
    printable_plain hplain (List.kept_subset maximum hmarked')] at hkept

end StorageRedactor

theorem release_small (r : StorageRedactor) (command : Command) {maximum : Nat} (hmax : maximum < 4096) :
    release r command maximum = .error (.ValueError "sanitized output bound is too small") := by
  rw [release, run_with_sanitized_output, if_pos hmax]
  rfl

theorem release_eq (r : StorageRedactor) (command : Command) {maximum : Nat} (hmax : 4096 ≤ maximum) :
    release r command maximum = .ok
      (if r.contains_connection_value (r.redact (captured maximum (command.text .stdout)) ++
          r.redact (captured maximum (command.text .stderr))) then (invariant_failure.stdout, invariant_failure.stderr)
        else (r.redact (captured maximum (command.text .stdout)), r.redact (captured maximum (command.text .stderr)))) := by
  rw [release, run_eq r command hmax, Except.map]
  split <;> rfl

/-- The same release of whole lines is the same text on either stream. -/
theorem redact_of_release {r : StorageRedactor} (hplain : r.Plain) {maximum : Nat} (hmax : 4096 ≤ maximum)
    {command command' : Command} (hlines : StorageRedactor.Lines (command.text .stdout))
    (hlines' : StorageRedactor.Lines (command'.text .stdout))
    (hsame : release r command maximum = release r command' maximum) :
    r.redact (captured maximum (command.text .stdout)) = r.redact (captured maximum (command'.text .stdout)) ∧
      r.redact (captured maximum (command.text .stderr)) = r.redact (captured maximum (command'.text .stderr)) := by
  rw [release_eq r command hmax, release_eq r command' hmax,
    if_neg (contains_false hplain.toSharp hplain.no_newline hlines maximum _),
    if_neg (contains_false hplain.toSharp hplain.no_newline hlines' maximum _)] at hsame
  exact Prod.mk.inj (Except.ok.inj hsame)

/-- The redactor of the values `qqqq` and `zzzz`. -/
def pair : StorageRedactor where
  markers := ["cXFxcQ==".toList, "71717171".toList, "enp6eg==".toList, "7a7a7a7a".toList, "qqqq".toList, "zzzz".toList]
  filled := by decide
  distinct := by decide
  longest_first := by decide

theorem pair_plain : pair.Plain where
  separate := by decide
  no_blank := by decide
  no_mark := by decide
  no_control := by decide

/-- A command whose output has a value after some characters, written in two parts. -/
def prints (before : Nat) (value : Text) : Command :=
  ⟨[(.stdout, List.replicate before '.' ++ value.take 1), (.stdout, value.drop 1 ++ ['\n'])], .returned 0⟩

theorem prints_text (before : Nat) (value : Text) :
    (prints before value).text .stdout = List.replicate before '.' ++ (value ++ ['\n']) := by
  have htext : (prints before value).text .stdout =
      (List.replicate before '.' ++ value.take 1) ++ ((value.drop 1 ++ ['\n']) ++ []) := rfl
  rw [htext, List.append_nil, List.append_assoc, ← List.append_assoc (value.take 1), List.take_append_drop]

/-- One value after characters that no marker has. -/
theorem marked_prints {needles : List Text} {value : Text} (before : Nat) (hmem : value ∈ needles)
    (hfree : ∀ m ∈ needles, m ≠ [] ∧ '.' ∉ m)
    (honly : ∀ m ∈ needles, ∀ j < value.length, m <+: value.drop j ++ ['\n'] → j = 0 ∧ m = value) :
    List.Marked needles (List.replicate before '.') [(value, ['\n'])] := by
  refine ⟨hmem, fun m hm i hi hstart => ?_, trivial⟩
  by_cases hlt : i < before
  · obtain ⟨hne, hx⟩ := hfree m hm
    obtain ⟨c, m, rfl⟩ := List.exists_cons_of_ne_nil hne
    have hlen : i ≤ (List.replicate before '.').length := by
      rw [List.length_replicate]
      exact Nat.le_of_lt hlt
    obtain ⟨k, hk⟩ := Nat.exists_eq_succ_of_ne_zero (Nat.sub_ne_zero_of_lt hlt)
    rw [List.drop_append_of_le_length hlen, List.drop_replicate, hk, List.replicate_succ] at hstart
    obtain ⟨rfl, -⟩ := List.cons_prefix_cons.1 hstart
    exact absurd List.mem_cons_self hx
  · rw [List.length_append, List.length_replicate] at hi
    have hdrop : (List.replicate before '.' ++ value).drop i = value.drop (i - before) := by
      rw [List.drop_append, List.length_replicate, List.drop_of_length_le, List.nil_append]
      rw [List.length_replicate]
      exact Nat.le_of_not_lt hlt
    rw [hdrop] at hstart
    obtain ⟨hzero, hsame⟩ := honly m hm (i - before) (by omega) hstart
    rw [List.length_replicate]
    exact ⟨by omega, hsame⟩

theorem kept_prints {before maximum : Nat} {value : Text} (hlt : maximum < before + value.length) :
    List.kept maximum (List.replicate before '.') [(value, ['\n'])] = value.take (maximum - before) := by
  rw [List.kept, List.length_append, List.length_replicate, if_pos hlt]

theorem kept_prints_past {before maximum : Nat} {value : Text} (hle : before + value.length ≤ maximum) :
    List.kept maximum (List.replicate before '.') [(value, ['\n'])] = [] := by
  rw [List.kept, List.length_append, List.length_replicate, if_neg (Nat.not_lt.2 hle)]
  rfl

/-- Either value in the same place. -/
def swap_prints (before : Nat) : Swap pair.markers ((prints before "qqqq".toList).text .stdout)
    ((prints before "zzzz".toList).text .stdout) where
  first := List.replicate before '.'
  values := [("qqqq".toList, ['\n'])]
  values' := [("zzzz".toList, ['\n'])]
  spelled := prints_text before _
  spelled' := prints_text before _
  marked := marked_prints before (by decide) (by decide) (by decide)
  marked' := marked_prints before (by decide) (by decide) (by decide)
  swapped := .cons ⟨rfl, rfl⟩ .nil

def swap_nothing : Swap pair.markers [] [] where
  first := []
  values := []
  values' := []
  spelled := rfl
  spelled' := rfl
  marked := trivial
  marked' := trivial
  swapped := .nil

theorem lines_prints (before : Nat) (value : Text) : StorageRedactor.Lines ((prints before value).text .stdout) :=
  .inr ⟨List.replicate before '.' ++ value, by rw [prints_text, List.append_assoc]⟩

end StorageOutput
