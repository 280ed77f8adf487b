import Mathlib.Data.Finset.Sort
import Mathlib.Data.Prod.Lex
import Mathlib.Data.String.Basic
import DkcLinux.Order.Counter
import DkcLinux.Text.JsonIndent

/-!
# SIMD observations (`scripts/in-container/audit-kernel-simd.py:293-529`)

A scan counts instructions for each artifact and symbol, the counts are written to an inventory, and a replay reads
them back instead of disassembling again. The counts are compared with the reviewed entries.

`scan_binary` gets the lines of the disassembler and its return code; which instructions use vector state is a
parameter. The allowlist is the set of its keys.
-/

namespace SimdAudit

open Py

/-! ## Keys -/

inductive SelectorKind where
  | sect
  | symbol
deriving DecidableEq

def SelectorKind.text : SelectorKind → String
  | .sect => "section"
  | .symbol => "symbol"

def SelectorKind.of_text (text : String) : Option SelectorKind :=
  if text = "section" then some .sect else if text = "symbol" then some .symbol else none

@[simp] theorem SelectorKind.of_text_text (kind : SelectorKind) : of_text kind.text = some kind := by
  cases kind <;> rfl

theorem SelectorKind.text_injective : Function.Injective SelectorKind.text := by
  intro a b h
  have hkind := congrArg of_text h
  simpa using hkind

/-- `(artifact, selector_kind, selector)`. -/
structure Key where
  artifact : String
  kind : SelectorKind
  selector : String
deriving DecidableEq

def Key.tuple (key : Key) : Lex (String × Lex (String × String)) :=
  toLex (key.artifact, toLex (key.kind.text, key.selector))

theorem Key.tuple_injective : Function.Injective Key.tuple := by
  rintro ⟨a, k, s⟩ ⟨a', k', s'⟩ h
  have hpair := Prod.mk.inj (toLex_inj.1 h)
  have hrest := Prod.mk.inj (toLex_inj.1 hpair.2)
  rw [Key.mk.injEq]
  exact ⟨hpair.1, SelectorKind.text_injective hrest.1, hrest.2⟩

/-- Keys are compared as tuples. -/
instance : LinearOrder Key := LinearOrder.lift' Key.tuple Key.tuple_injective

/-! ## The scan -/

/-- The sorted addresses of `System.map`, or nothing. -/
structure SymbolMap where
  symbols : List (Nat × String)
  sorted : symbols.Pairwise fun a b => a.1 < b.1
  named : ∀ s ∈ symbols, s.2 ≠ ""

/-- `bisect.bisect_right(addresses, address) - 1`. -/
def SymbolMap.lookup (map : SymbolMap) (address : Nat) : Option String :=
  (map.symbols.takeWhile fun s => s.1 ≤ address).getLast?.map (·.2)

def isHex (c : Char) : Bool := isAsciiDigit c || ('a' ≤ c && c ≤ 'f') || ('A' ≤ c && c ≤ 'F')

/-- `int(text, 16)`. -/
def hexOf (digits : List Char) : Nat := digits.foldl (fun n c => 16 * n + (Json.hexVal c).getD 0) 0

/-- `^Disassembly of section ([^:]+):$`. -/
def section_line (line : List Char) : Option String :=
  let start := "Disassembly of section ".toList
  let name := (line.drop start.length).takeWhile (· ≠ ':')
  if start.isPrefixOf line ∧ name ≠ [] ∧ line = start ++ name ++ [':'] then some (String.ofList name) else none

/-- `^([0-9a-fA-F]+) <([^>]+)>:$`. -/
def symbol_line (line : List Char) : Option String :=
  let address := line.takeWhile isHex
  let name := (line.drop (address.length + 2)).takeWhile (· ≠ '>')
  if address ≠ [] ∧ name ≠ [] ∧ line = address ++ ' ' :: '<' :: name ++ ['>', ':'] then some (String.ofList name)
  else none

structure Instruction where
  address : Nat
  mnemonic : List Char
  operands : List Char

/-- `^\s*([0-9a-fA-F]+):\s+([^\s]+)(?:\s+(.*))?$`. -/
def instruction_line (line : List Char) : Option Instruction :=
  let line := line.dropWhile isSpace
  let address := line.takeWhile isHex
  match line.drop address.length with
  | ':' :: rest =>
    let body := rest.dropWhile isSpace
    let mnemonic := body.takeWhile (!isSpace ·)
    let operands := (body.drop mnemonic.length).dropWhile isSpace
    if address = [] ∨ body.length = rest.length ∨ mnemonic = [] ∨ '\n' ∈ operands then none
    else some ⟨hexOf address, mnemonic, operands⟩
  | _ => none

structure ScanState where
  section_name : String
  symbol : Option String
  instructions : Int
  matched : Int
  observed : Counter Key

def alternative_sections : List String := [".altinstr_aux", ".altinstr_replacement"]

/-- The key of a matching instruction. -/
def observed_key (artifact : String) (symbol_map : SymbolMap) (s : ScanState) (address : Nat) : Key :=
  if artifact = "vmlinux" ∧ s.section_name ∈ alternative_sections then ⟨artifact, .sect, s.section_name⟩
  else ⟨artifact, .symbol, (symbol_map.lookup address).getD (s.symbol.getD "<unknown-symbol>")⟩

def scan_line (uses_vector_state : Instruction → Bool) (artifact : String) (symbol_map : SymbolMap) (s : ScanState)
    (line : List Char) : ScanState :=
  match section_line line with
  | some name => { s with section_name := name, symbol := none }
  | none =>
    match symbol_line line with
    | some name => { s with symbol := if symbol_map.symbols = [] then some name else none }
    | none =>
      match instruction_line line with
      | none => s
      | some instruction =>
        if artifact = "vmlinux" ∧ s.section_name = ".data" then s
        else if uses_vector_state instruction then
          { s with
            instructions := s.instructions + 1
            matched := s.matched + 1
            observed := s.observed.add (observed_key artifact symbol_map s instruction.address) 1 }
        else { s with instructions := s.instructions + 1 }

inductive AuditError where
  | SystemExit (msg : String) (shown : Option Key := none)
  | ValueError
  | TypeError
deriving DecidableEq

/-- The instructions, the matches and the counter after them. -/
def scan_binary (uses_vector_state : Instruction → Bool) (artifact : String) (symbol_map : SymbolMap)
    (observed : Counter Key) (lines : List (List Char)) (returncode : Int) : Except AuditError (Int × Int × Counter Key) :=
  let s := lines.foldl (scan_line uses_vector_state artifact symbol_map) ⟨"<unknown-section>", none, 0, 0, observed⟩
  if returncode ≠ 0 then .error (.SystemExit "disassembler failed") else .ok (s.instructions, s.matched, s.observed)

/-! ## The evaluation -/

/-- `^(?P<base>.+)\.[0-9]+$`. -/
def full_lto_base (selector : List Char) : Option (List Char) :=
  let (base, digits) := rpartition '.' selector
  if '.' ∉ selector ∨ digits = [] ∨ !digits.all isAsciiDigit ∨ base = [] ∨ '\n' ∈ base then none else some base

/-- `^(?P<base>.+)\.llvm\.[0-9]+$`. -/
def thin_lto_base (selector : List Char) : Option (List Char) :=
  (full_lto_base selector).bind fun named =>
    let base := named.take (named.length - 5)
    if base = [] ∨ named ≠ base ++ ".llvm".toList then none else some base

def Key.respell (key : Key) (base : List Char) : Key := { key with selector := String.ofList base }

def reviewed_key (key : Key) (allowlist full_lto_alias_keys : Finset Key) : Option Key :=
  if key ∈ allowlist then some key
  else if key.kind ≠ .symbol then none
  else
    match thin_lto_base key.selector.toList with
    | some base => if key.respell base ∈ allowlist then some (key.respell base) else none
    | none =>
      match full_lto_base key.selector.toList with
      | some base => if key.respell base ∈ full_lto_alias_keys then some (key.respell base) else none
      | none => none

structure Alias where
  artifact : String
  observed_symbol : String
  reviewed_symbol : String
deriving DecidableEq

structure Evaluation where
  used : Counter Key
  unexpected : Counter Key
  unused : List Key
  aliases : List Alias

def evaluate_one (allowlist derived_keys : Finset Key) (s : Counter Key × Counter Key × List Alias) (x : Key × Int) :
    Counter Key × Counter Key × List Alias :=
  match reviewed_key x.1 allowlist derived_keys with
  | none => (s.1, s.2.1.add x.1 x.2, s.2.2)
  | some reviewed =>
    (s.1.add reviewed x.2, s.2.1,
      if reviewed = x.1 then s.2.2 else s.2.2 ++ [⟨x.1.artifact, x.1.selector, reviewed.selector⟩])

def evaluate_observations (observed : Counter Key) (allowlist derived_keys : Finset Key) : Evaluation :=
  let (used, unexpected, aliases) := observed.items.foldl (evaluate_one allowlist derived_keys) (.empty, .empty, [])
  { used
    unexpected
    unused := ((allowlist \ derived_keys) \ used.keys.toFinset).sort
    aliases := aliases.insertionSort fun a b => toLex (a.artifact, a.observed_symbol) ≤ toLex (b.artifact, b.observed_symbol) }

/-! ## The inventory -/

def observation_record (x : Key × Int) : Json :=
  .obj [("artifact", .str x.1.artifact), ("selector_kind", .str x.1.kind.text), ("selector", .str x.1.selector),
    ("instruction_count", .int x.2)]

def observation_document (observed : Counter Key) (llvm_major module_count total_instructions total_matches : Int) : Json :=
  .obj [("schema_version", .int 1), ("status", .str "COMPLETE"), ("llvm_major", .int llvm_major), ("vmlinux_files", .int 1),
    ("module_files", .int module_count), ("decoded_instructions", .int total_instructions),
    ("simd_fpu_instructions", .int total_matches),
    ("observed", .arr ((observed.items.insertionSort fun a b => a.1 ≤ b.1).map observation_record))]

/-- What is written to the path. -/
def write_json (value : Json) : String := String.ofList (Json.dumpsIndent value ++ ['\n'])

def read_json (text : String) : Except AuditError Json :=
  match Json.loads text with
  | some value => .ok value
  | none => .error .ValueError

/-- `set(d) == names`. -/
def has_fields (fields : List (String × Json)) (names : List String) : Bool :=
  (fields.all fun f => names.contains f.1) && names.all fun name => fields.any fun f => f.1 = name

/-- The value where `isinstance(value, int)`, which a `bool` is too. -/
def as_int : Json → Option Int
  | .int n => some n
  | .bool b => some (if b then 1 else 0)
  | _ => none

def malformed_record : AuditError := .SystemExit "SIMD observation inventory contains a malformed record"

def invalid_values : AuditError := .SystemExit "SIMD observation inventory contains invalid values"

def record_names : List String := ["artifact", "selector_kind", "selector", "instruction_count"]

def load_record (observed : Counter Key) (record : Json) : Except AuditError (Counter Key) :=
  match record with
  | .obj fields =>
    if has_fields fields record_names then
      match fields.lookup "artifact", fields.lookup "selector_kind", fields.lookup "selector",
        (fields.lookup "instruction_count").bind as_int with
      -- a list or dict is not hashable
      | some (.str _), some (.arr _), _, _ => .error .TypeError
      | some (.str _), some (.obj _), _, _ => .error .TypeError
      | some (.str artifact), some (.str kind), some (.str selector), some count =>
        match SelectorKind.of_text kind with
        | some kind =>
          if selector = "" ∨ count < 1 then .error invalid_values
          else
            let key : Key := ⟨artifact, kind, selector⟩
            if key ∈ observed.keys then .error (.SystemExit "duplicate SIMD observation" (some key))
            else .ok (observed.add key count)
        | none => .error invalid_values
      | _, _, _, _ => .error invalid_values
    else .error malformed_record
  | _ => .error malformed_record

structure Observations where
  observed : Counter Key
  module_files : Int
  decoded_instructions : Int
  simd_fpu_instructions : Int

def inventory_names : List String :=
  ["schema_version", "status", "llvm_major", "vmlinux_files", "module_files", "decoded_instructions",
    "simd_fpu_instructions", "observed"]

def invalid_identity : AuditError := .SystemExit "SIMD observation inventory identity is invalid"

def load_observations (text : String) (llvm_major : Int) : Except AuditError Observations := do
  match ← read_json text with
  | .obj fields =>
    if has_fields fields inventory_names then
      if (fields.lookup "schema_version").bind as_int ≠ some 1 ∨ (fields.lookup "llvm_major").bind as_int ≠ some llvm_major ∨
          (fields.lookup "vmlinux_files").bind as_int ≠ some 1 then .error invalid_identity
      else
        match fields.lookup "status", (fields.lookup "module_files").bind as_int,
          (fields.lookup "decoded_instructions").bind as_int, (fields.lookup "simd_fpu_instructions").bind as_int,
          fields.lookup "observed" with
        | some (.str status), some module_files, some decoded_instructions, some simd_fpu_instructions, some (.arr records) =>
          if status ≠ "COMPLETE" ∨ module_files < 1000 then .error invalid_identity
          else do
            let observed ← records.foldlM load_record .empty
            if observed.total ≠ simd_fpu_instructions then
              .error (.SystemExit "SIMD observation counts do not match their total")
            else .ok ⟨observed, module_files, decoded_instructions, simd_fpu_instructions⟩
        | _, _, _, _, _ => .error invalid_identity
    else .error (.SystemExit "SIMD observation inventory has unexpected fields")
  | _ => .error (.SystemExit "SIMD observation inventory has unexpected fields")

end SimdAudit
