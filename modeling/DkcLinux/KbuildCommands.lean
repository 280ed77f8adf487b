import Mathlib.Data.List.Dedup
import Mathlib.Data.List.Lex
import Mathlib.Data.List.Sort
import Mathlib.Data.Char
import DkcLinux.Order.Counter
import DkcLinux.Text.PyStr
import DkcLinux.Text.Shlex
import DkcLinux.SourceProfile

/-!
# The Kbuild command audit (`scripts/in-container/audit-kbuild-commands.py`)

A record is a target, its command file and the command. `audit_record` is the body of the loop: the Rust part, then the
ladder of early exits for Clang compiles (`audit_clang`), down to the ordinary kernel C compiles (`audit_normal_c`).

A violation has the values that its text shows.
-/

namespace KbuildAudit

open Py SourceProfile

abbrev Text := List Char

/-! ## The policy -/

def C_NO_SIMD_FLAGS : List String := ["-mno-sse", "-mno-mmx", "-mno-sse2", "-mno-3dnow", "-mno-avx", "-mno-sse4a"]

def RUST_NO_SIMD_FEATURES : List String := ["sse", "sse2", "sse3", "ssse3", "sse4.1", "sse4.2", "avx", "avx2"]

/-- What the audit reads of a loaded `FlavorPolicy`. -/
structure FlavorPolicy where
  flavor : String
  compiler_march : String
  intentional_fpu_objects : List String

namespace FlavorPolicy

/-- The loader accepts no other CPU, and no other flags and features. -/
def rust_target_cpu (policy : FlavorPolicy) : String := policy.compiler_march

def c_no_simd_flags (_ : FlavorPolicy) : List String := C_NO_SIMD_FLAGS

def rust_no_simd_features (_ : FlavorPolicy) : List String := RUST_NO_SIMD_FEATURES

/-- `rust_target_feature_flag`, without `-Ctarget-feature=`. -/
def expected_features (policy : FlavorPolicy) : Text :=
  List.intercalate [','] (policy.rust_no_simd_features.map fun feature => '-' :: feature.toList)

end FlavorPolicy

/-! ## Tokens -/

def starts (token : Text) (p : String) : Bool := p.toList.isPrefixOf token

def ends (token : Text) (s : String) : Bool := s.toList.isSuffixOf token

/-- `token in tokens`. -/
def has (tokens : List Text) (token : String) : Bool := tokens.contains token.toList

def _is_special_c (target : Text) : Bool :=
  (starts target "arch/x86/boot/" && !starts target "arch/x86/boot/startup/") || starts target "arch/x86/realmode/rm/" ||
    starts target "drivers/firmware/efi/libstub/"

/-- The last of the tokens with the suffix. -/
def _source (tokens : List Text) (suffix : String) : Option Text := tokens.reverse.find? fun token => ends token suffix

/-- `pathlib.PurePosixPath(token).name`. -/
def path_name (token : Text) : Text :=
  ((token.splitOn '/').filter fun part => part ≠ [] && part ≠ ['.']).getLast?.getD []

/-- `clang(?:-[0-9]+)?`. -/
def is_clang (name : Text) : Bool :=
  name = "clang".toList || (starts name "clang-" && fullmatchClass isAsciiDigit 1 none (name.drop 6))

def _is_clang_compile (tokens : List Text) : Bool := has tokens "-c" && tokens.any fun token => is_clang (path_name token)

def is_kernel_target (target : Text) : Bool := target = "./scripts/target.json".toList || ends target "/scripts/target.json"

def _is_kernel_rust : List Text → Bool
  | [] => false
  | [token] => starts token "--target=" && is_kernel_target (token.drop 9)
  | token :: next :: tokens =>
    (if starts token "--target=" then is_kernel_target (token.drop 9)
      else token = "--target".toList && is_kernel_target next) || _is_kernel_rust (next :: tokens)

/-- `sse.*|avx.*|...|mmx|...` of the lists. -/
def matches_family (open_ended exact : List String) (name : Text) : Bool :=
  exact.any (fun e => name = e.toList) || (!name.contains '\n' && open_ended.any (starts name))

/-- `-m(?:sse.*|avx.*|mmx|3dnow.*|fma.*|f16c|amx.*|sha|aes|pclmul|gfni|vaes|vpclmulqdq)`. -/
def vector_flag (token : Text) : Bool :=
  starts token "-m" && matches_family ["sse", "avx", "3dnow", "fma", "amx"]
    ["mmx", "f16c", "sha", "aes", "pclmul", "gfni", "vaes", "vpclmulqdq"] (token.drop 2)

/-- `sorted` of a set of tokens. -/
def sorted_set (tokens : List Text) : List Text := tokens.dedup.insertionSort fun a b => a ≤ b

def _positive_simd_flags (tokens : List Text) : List Text :=
  sorted_set (tokens.filter fun token => vector_flag token && !starts token "-mno-")

/-- The tokens with their positions. -/
def _flag_positions (tokens : List Text) (flag : String) : List Nat :=
  (tokens.zipIdx.filter fun x => x.1 = flag.toList).map (·.2)

/-! ## Rust options -/

def rust_options_from (name : String) : Nat → List Text → List (Text × Nat)
  | _, [] => []
  | index, token :: tokens =>
    (if starts token ("-C" ++ name ++ "=") then [(token.drop (name.length + 3), index)]
      else if token = "-C".toList then
        match tokens with
        | next :: _ => if starts next (name ++ "=") then [(next.drop (name.length + 1), index + 1)] else []
        | [] => []
      else []) ++ rust_options_from name (index + 1) tokens

def _rust_codegen_options (tokens : List Text) (name : String) : List (Text × Nat) := rust_options_from name 0 tokens

structure Feature where
  name : Text
  state : Char
  position : Nat

/-- `[+-][A-Za-z0-9_.-]+`. -/
def read_feature (position : Nat) : Text → Option Feature
  | sign :: name =>
    if (sign = '+' ∨ sign = '-') ∧
        fullmatchClass (fun c => isAsciiAlnum c || c == '_' || c == '.' || c == '-') 1 none name then
      some ⟨name, sign, position⟩
    else none
  | [] => none

/-- The features in the order in which they are set; the last state of a name is final. -/
def _rust_feature_states (options : List (Text × Nat)) : List Feature :=
  options.flatMap fun option => (option.1.splitOn ',').filterMap (read_feature option.2)

def final_state (features : List Feature) (name : Text) : Option Feature := features.reverse.find? fun f => f.name = name

def enabled_vector (features : List Feature) : List Text :=
  sorted_set ((features.map (·.name)).filter fun name => (final_state features name).any (·.state = '+') &&
    matches_family ["sse", "avx", "fma", "amx"]
      ["f16c", "mmx", "x87", "sha", "aes", "pclmulqdq", "gfni", "vaes", "vpclmulqdq"] name)

/-! ## The state of the audit -/

structure Violation where
  target : Text
  kind : String
  detail : String
  shown : List Text := []
  numbers : List Nat := []

structure State where
  counts : Counter String
  errors : List Violation
  seen_fpu : List Text
  seen_lto_exclusions : List Text

namespace State

def start : State := ⟨.empty, [], [], []⟩

def count (s : State) (name : String) : State := { s with counts := s.counts.add name 1 }

/-- At most 200 are kept. -/
def reject (s : State) (violation : Violation) : State :=
  if s.errors.length < 200 then { s with errors := s.errors ++ [violation] } else s

def rejectIf (s : State) (condition : Bool) (violation : Violation) : State :=
  if condition then s.reject violation else s

def rejectAll (s : State) (violations : List Violation) : State := violations.foldl reject s

end State

/-! ## Rust -/

def rust_feature_violation (target : Text) (features : List Feature) (cpu_positions : List Nat) (required : String) :
    List Violation :=
  match final_state features required.toList with
  | none => [⟨target, "rust-effective-no-simd", "final state is None", [required.toList], []⟩]
  | some f =>
    if f.state ≠ '-' then [⟨target, "rust-effective-no-simd", "final state is", [required.toList, [f.state]], [f.position]⟩]
    else if cpu_positions.getLast?.any (f.position < ·) then
      [⟨target, "rust-effective-order", "occurs before target CPU", [required.toList], []⟩]
    else []

def audit_kernel_rust (policy : FlavorPolicy) (target : Text) (tokens : List Text) (s : State) : State :=
  let cpu_options := _rust_codegen_options tokens "target-cpu"
  let feature_options := _rust_codegen_options tokens "target-feature"
  let cpu_positions := (cpu_options.filter fun o => o.1 = policy.rust_target_cpu.toList).map (·.2)
  let feature_positions := (feature_options.filter fun o => o.1 = policy.expected_features).map (·.2)
  let conflicting :=
    ((cpu_options.filter fun o => o.1 ≠ policy.rust_target_cpu.toList).map (·.1)).insertionSort fun a b => a ≤ b
  let features := _rust_feature_states feature_options
  let enabled := enabled_vector features
  let s := s.rejectIf (cpu_positions.length ≠ 1 || conflicting ≠ [])
    ⟨target, "rust-baseline", "cpu, conflicting", conflicting, cpu_positions⟩
  let s := match feature_positions.getLast? with
    | none => s.reject ⟨target, "rust-no-simd", "reviewed target-feature disablement is absent", [], []⟩
    | some position => s.rejectIf (cpu_positions.getLast?.any (position < ·))
        ⟨target, "rust-order", "no-SIMD target features are not final after target CPU", [], []⟩
  let s := s.rejectAll (policy.rust_no_simd_features.flatMap (rust_feature_violation target features cpu_positions))
  s.rejectIf (enabled ≠ []) ⟨target, "rust-vector-reenable", "final enabled features", enabled, []⟩

def audit_rust (policy : FlavorPolicy) (target : Text) (tokens : List Text) (s : State) : State :=
  if tokens.any fun token => path_name token = "rustc".toList then
    if _is_kernel_rust tokens then audit_kernel_rust policy target tokens (s.count "kernel_rust")
    else
      (s.count "host_rust").rejectIf ((_rust_codegen_options tokens "target-cpu").any fun o => starts o.1 "x86-64-v")
        ⟨target, "host-rust", "flavor baseline leaked into a host Rust tool", [], []⟩
  else s

/-! ## C -/

def marches (tokens : List Text) : List Text := tokens.filter fun token => starts token "-march="

def flavor_marches (tokens : List Text) : List Text := (marches tokens).filter fun token => starts token "-march=x86-64-v"

def lto_flags (tokens : List Text) : List Text :=
  tokens.filter fun token => token = "-flto".toList || starts token "-flto="

def expected_lto_flags : String → List Text
  | "thin" => ["-flto=thin".toList]
  | "full" => ["-flto".toList]
  | _ => []

def expected_companions (lto_mode : String) : List String :=
  if lto_mode = "thin" then ["-fsplit-lto-unit", "-fvisibility=hidden"] else ["-fvisibility=hidden"]

def audit_assembly (target : Text) (tokens : List Text) (s : State) : State :=
  if (_source tokens ".S").isSome then
    let s := s.count "assembly"
    if _is_special_c target && flavor_marches tokens ≠ [] then
      s.reject ⟨target, "special-assembly-baseline", "special assembly target received", flavor_marches tokens, []⟩
    else s.rejectIf (!has tokens "-D__KERNEL__" && flavor_marches tokens ≠ [])
      ⟨target, "host-assembly", "flavor baseline leaked into host assembly", flavor_marches tokens, []⟩
  else s

def audit_special_c (target : Text) (tokens : List Text) (s : State) : State :=
  let s := s.rejectIf (flavor_marches tokens ≠ []) ⟨target, "special-baseline", "special target received", flavor_marches tokens, []⟩
  let s := s.rejectIf (!has tokens "-mno-mmx") ⟨target, "special-no-simd", "missing -mno-mmx", [], []⟩
  let s := s.rejectIf (!has tokens "-mno-sse") ⟨target, "special-no-simd", "missing -mno-sse", [], []⟩
  let positive := _positive_simd_flags tokens
  s.rejectIf (positive ≠ []) ⟨target, "special-simd", "special target enables SIMD", positive, []⟩

def audit_lto (kbuild : KbuildAuditPolicy) (lto_mode : String) (target : Text) (tokens : List Text) (s : State) : State :=
  let flags := lto_flags tokens
  let excluded := lto_mode ≠ "none" && kbuild.lto_excluded_c_targets.contains (String.ofList target)
  if flags ≠ (if excluded then [] else expected_lto_flags lto_mode) then
    s.reject ⟨target, "c-lto", "LTO flags, expected", flags, []⟩
  else if excluded then
    let s := { s with seen_lto_exclusions := s.seen_lto_exclusions ++ [target] }.count "lto_excluded_c"
    s.rejectIf (tokens.count "-fno-lto".toList ≠ 1) ⟨target, "c-lto-exclusion", "reviewed target lacks exactly one -fno-lto", [], []⟩
  else match flags with
    | [] => s
    | flag :: _ =>
      let s := s.count "lto_c"
      let s := s.rejectIf (tokens.count "-fno-lto".toList ≠ 1 || tokens.idxOf flag < tokens.idxOf "-fno-lto".toList)
        ⟨target, "c-lto-order", "positive LTO is not final after exactly one -fno-lto", [], []⟩
      let missing := (expected_companions lto_mode).filter fun companion => !has tokens companion
      let s := s.rejectIf (missing ≠ []) ⟨target, "c-lto-companion", "missing", missing.map String.toList, []⟩
      s.rejectIf (lto_mode = "full" && has tokens "-fsplit-lto-unit")
        ⟨target, "c-lto-companion", "full LTO unexpectedly uses -fsplit-lto-unit", [], []⟩

def no_simd_violation (target : Text) (tokens : List Text) (expected_march : Text) (required : String) : List Violation :=
  match (_flag_positions tokens required).getLast? with
  | none => [⟨target, "c-no-simd", "missing", [required.toList], []⟩]
  | some position =>
    if position < tokens.idxOf expected_march then [⟨target, "c-order", "occurs before", [required.toList, expected_march], []⟩]
    else []

def audit_fpu (policy : FlavorPolicy) (target : Text) (tokens : List Text) (s : State) : State :=
  let positive := _positive_simd_flags tokens
  let fpu_marker := has tokens "-D_LINUX_FPU_COMPILATION_UNIT"
  if positive ≠ [] || fpu_marker then
    let s := { s with seen_fpu := s.seen_fpu ++ [target] }.count "intentional_fpu_c"
    let s := s.rejectIf (!fpu_marker) ⟨target, "fpu-marker", "positive SIMD flags lack kernel marker", positive, []⟩
    let s := s.rejectIf (positive = []) ⟨target, "fpu-flags", "kernel FPU marker lacks explicit positive SIMD flags", [], []⟩
    s.rejectIf (!policy.intentional_fpu_objects.contains (String.ofList target))
      ⟨target, "fpu-allowlist", "object is not in the exact reviewed allowlist", [], []⟩
  else s

def expected_march (policy : FlavorPolicy) : Text := "-march=".toList ++ policy.compiler_march.toList

def audit_normal_c (policy : FlavorPolicy) (kbuild : KbuildAuditPolicy) (lto_mode : String) (target : Text) (tokens : List Text)
    (s : State) : State :=
  if marches tokens ≠ [expected_march policy] then
    s.reject ⟨target, "c-baseline", "march flags, expected", marches tokens, []⟩
  else
    let s := audit_lto kbuild lto_mode target tokens s
    let s := s.rejectAll (policy.c_no_simd_flags.flatMap (no_simd_violation target tokens (expected_march policy)))
    audit_fpu policy target tokens s

def audit_clang (policy : FlavorPolicy) (kbuild : KbuildAuditPolicy) (lto_mode : String) (target : Text) (tokens : List Text)
    (s : State) : State :=
  if !_is_clang_compile tokens then s
  else if (_source tokens ".c").isNone then audit_assembly target tokens s
  else
    let s := s.count "c_compile"
    if !has tokens "-D__KERNEL__" then
      (s.count "host_c").rejectIf (flavor_marches tokens ≠ [])
        ⟨target, "host-c", "flavor baseline leaked into host compilation", flavor_marches tokens, []⟩
    else if _is_special_c target then audit_special_c target tokens (s.count "special_c")
    else audit_normal_c policy kbuild lto_mode target tokens (s.count "normal_c")

/-! ## The log -/

/-- `line.rstrip("\n").split("\t", 2)` with three fields: the target and the command. -/
def record_fields (line : Text) : Option (Text × Text) :=
  match line.splitOn '\t' with
  | target :: _ :: command :: more => some (target, List.intercalate ['\t'] (command :: more))
  | _ => none

def audit_record (policy : FlavorPolicy) (kbuild : KbuildAuditPolicy) (lto_mode : String) (s : State) (record : Text × Nat) :
    State :=
  let s := s.count "records"
  match record_fields record.1 with
  | none => s.reject
      ⟨("line:" ++ toString (record.2 + 1)).toList, "malformed", "record does not have three TSV fields", [], []⟩
  | some (target, command) =>
    match Shlex.split command with
    | .error e => s.reject ⟨target, "shell-parse", e.text, [], []⟩
    | .ok tokens => audit_clang policy kbuild lto_mode target tokens (audit_rust policy target tokens s)

/-- The lines of a text file, without their ends. -/
def log_lines (log : Text) : List Text :=
  let parts := (universalNewlines log).splitOn '\n'
  if parts.getLast? = some [] then parts.dropLast else parts

def sorted_names (names : List String) : List String := names.insertionSort fun a b => a ≤ b

/-- What is checked after the loop. -/
def audit_coverage (policy : FlavorPolicy) (kbuild : KbuildAuditPolicy) (lto_mode : String) (s : State) : State :=
  let stale := sorted_names (policy.intentional_fpu_objects.filter fun target => !s.seen_fpu.contains target.toList)
  let s := s.rejectAll (stale.map fun target =>
    ⟨target.toList, "stale-fpu-allowlist", "allowlisted object was not compiled with CC_FLAGS_FPU", [], []⟩)
  let unseen := if lto_mode = "none" then [] else
    sorted_names (kbuild.lto_excluded_c_targets.filter fun target => !s.seen_lto_exclusions.contains target.toList)
  let s := s.rejectAll (unseen.map fun target =>
    ⟨target.toList, "stale-lto-exclusion", "reviewed LTO exclusion was not observed", [], []⟩)
  let minimum_counts := kbuild.minimum_counts ++ [("host_c", (kbuild.minimum_host_c.lookup lto_mode).getD 0)]
  s.rejectAll ((minimum_counts.filter fun minimum => s.counts.count minimum.1 < minimum.2).map fun minimum =>
    ⟨"inventory".toList, "coverage", "is below", [minimum.1.toList], [(s.counts.count minimum.1).toNat, minimum.2.toNat]⟩)

structure Report where
  status : String
  flavor : String
  compiler_march : String
  lto_mode : String
  lto_excluded_c_expected : Nat
  lto_excluded_c_seen : Nat
  counts : Counter String
  intentional_fpu_objects_expected : Nat
  intentional_fpu_objects_seen : Nat
  errors : List Violation
  errors_truncated : Bool

/-- The state after the log and the last checks. -/
def audit_state (log : Text) (policy : FlavorPolicy) (kbuild : KbuildAuditPolicy) (lto_mode : String) : State :=
  audit_coverage policy kbuild lto_mode ((log_lines log).zipIdx.foldl (audit_record policy kbuild lto_mode) .start)

def audit (log : Text) (policy : FlavorPolicy) (kbuild : KbuildAuditPolicy) (lto_mode : String) : Except PyErr Report :=
  if lto_mode ∉ LTO_MODES then .error (.ValueError "unknown LTO mode" [lto_mode])
  else
    let s := audit_state log policy kbuild lto_mode
    .ok {
      status := if s.errors = [] then "PASS" else "FAIL"
      flavor := policy.flavor
      compiler_march := policy.compiler_march
      lto_mode := lto_mode
      lto_excluded_c_expected := if lto_mode = "none" then 0 else kbuild.lto_excluded_c_targets.length
      lto_excluded_c_seen := s.seen_lto_exclusions.dedup.length
      counts := s.counts
      intentional_fpu_objects_expected := policy.intentional_fpu_objects.length
      intentional_fpu_objects_seen := s.seen_fpu.dedup.length
      errors := s.errors
      errors_truncated := s.errors.length = 200 }

end KbuildAudit
