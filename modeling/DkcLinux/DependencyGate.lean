import DkcLinux.InternalRelations

/-!
# The internal dependency gate (`scripts/in-container/audit-package-matrix.py:383-491`)

| here | there |
| --- | --- |
| `expected_internal_dependencies`, `expected_internal_provides` | the packages of a release, what each depends on, and what the image meta packages provide |
| `read_field`, `add_relation` | the loop over the relation fields of a package |
| `validate_package` | the body of the loop over the packages |
| `validate_internal_dependency_graph` | the gate |

`Meets` says what the fields of a package have to say. `validate_exact`: of plain fields the gate accepts those and no others.
-/

namespace PackageMatrix

open Py BuildDeps

/-! ## Expected relations -/

/-- `d[key] = value`. -/
def put {V : Type} (d : List (Text × V)) (key : Text) (value : V) : List (Text × V) :=
  if d.any (·.1 = key) then d.map fun x => if x.1 = key then (key, value) else x else d ++ [(key, value)]

/-- A dict of items, some of them perhaps with one key. -/
def dict {V : Type} (items : List (Text × V)) : List (Text × V) := items.foldl (fun d x => put d x.1 x.2) []

def flavor_dependencies (abi flavor krel : Text) : List (Text × List (Text × Bool)) :=
  let base := versioned "base" krel
  let binary := versioned "binary" krel
  let modules := versioned "modules" krel
  let image := versioned "image" krel
  let headers := versioned "headers" krel
  let base_meta := meta_package "base" flavor
  [(base, []),
    (binary, [(base, true)]),
    (modules, [(base, true)]),
    (image, dict [(base, true), (binary, true), (modules, true)]),
    -- the name of the Kbuild package has the ABI with its build id, so its version says nothing more
    (headers, dict [(base, true), (headers_common abi, true), (kbuild abi, false)]),
    (base_meta, [(base, true)]),
    (meta_package "image" flavor, dict [(base_meta, true), (image, true)]),
    (meta_package "headers" flavor, dict [(base_meta, true), (headers, true)])]

/-- For every package, what it depends on, and whether in this exact version. -/
def expected_internal_dependencies (abi : Text) (releases : List (Text × Text)) : List (Text × List (Text × Bool)) :=
  dict ((headers_common abi, []) :: (kbuild abi, []) ::
    releases.flatMap fun release => flavor_dependencies abi release.1 release.2)

def expected_internal_provides (releases : List (Text × Text)) : List (Text × List Text) :=
  dict (releases.map fun release =>
    (meta_package "image" release.1, ["dkc-linux-latest-modules-".toList ++ release.2]))

/-! ## The gate -/

inductive RelationField where
  | depends
  | pre_depends
  | recommends
  | suggests
  | enhances
  | breaks
  | provides
  | conflicts
  | replaces
deriving DecidableEq

def RelationField.name : RelationField → String
  | depends => "depends"
  | pre_depends => "pre_depends"
  | recommends => "recommends"
  | suggests => "suggests"
  | enhances => "enhances"
  | breaks => "breaks"
  | provides => "provides"
  | conflicts => "conflicts"
  | replaces => "replaces"

def RELATION_FIELDS : List RelationField :=
  [.depends, .pre_depends, .recommends, .suggests, .enhances, .breaks, .provides, .conflicts, .replaces]

/-- The dicts of one package; the field of an `actual` relation is always `depends`. -/
structure Actual where
  actual : List Relation
  actual_provides : List Text

def add_relation (known : List Text) (package : Text) (field : RelationField) (read : Actual) (r : Relation) :
    Except Stop Actual :=
  if field = .provides then
    if r.operator ≠ none ∨ r.version ≠ none then
      .error (.SystemExit (str package ++ " has a versioned internal virtual Provides: " ++ str r.name))
    else if r.name ∈ read.actual_provides then
      .error (.SystemExit (str package ++ " has duplicate internal Provides: " ++ str r.name))
    else .ok { read with actual_provides := read.actual_provides ++ [r.name] }
  else if r.name ∉ known then
    .error (.SystemExit (str package ++ " " ++ field.name ++ " names unknown DKC package " ++ str r.name))
  else if field ≠ .depends then
    .error (.SystemExit (str package ++ " relates to product package " ++ str r.name ++ " via " ++ field.name ++
      ", not Depends"))
  else if r.name ∈ read.actual.map (·.name) then
    .error (.SystemExit (str package ++ " has duplicate internal dependency " ++ str r.name))
  else .ok { read with actual := read.actual ++ [r] }

/-- One round of the loop over the fields; a field that is missing is empty. -/
def read_field (known : List Text) (package : Text) (fields : RelationField → Text) (read : Actual) (field : RelationField) :
    Except Stop Actual :=
  if has_alternative_internal_relation (fields field) then
    .error (.SystemExit (str package ++ " has an alternative internal relation in " ++ field.name))
  else (internal_relations (fields field)).foldlM (add_relation known package field) read

def check_version (package_version package : Text) (actual : List Relation) (dependency : Text × Bool) : Except Stop Unit :=
  match actual.find? (·.name = dependency.1) with
  | none => .error (.KeyError dependency.1)
  | some r =>
    if dependency.2 = true ∧ ¬(r.operator = some ['='] ∧ r.version = some package_version) then
      .error (.SystemExit (str package ++ " dependency on " ++ str dependency.1 ++ " is not exactly " ++ str package_version ++
        ": ") (r.operator.toList ++ r.version.toList))
    else if dependency.2 = false ∧ (r.operator ≠ none ∨ r.version ≠ none) then
      .error (.SystemExit (str package ++ " ABI-unique dependency on " ++ str dependency.1 ++ " must be unversioned"))
    else .ok ()

def sorted_names (names : List Text) : List Text := names.insertionSort fun a b => a ≤ b

def validate_package (package_version : Text) (known : List Text) (dependencies : List (Text × Bool)) (provides : List Text)
    (package : Text) (fields : RelationField → Text) : Except Stop Unit := do
  let read ← RELATION_FIELDS.foldlM (read_field known package fields) ⟨[], []⟩
  if !same_set (read.actual.map (·.name)) (dependencies.map (·.1)) then
    throw (.SystemExit (str package ++ " internal dependency graph differs: expected, actual ")
      (sorted_names (dependencies.map (·.1)) ++ sorted_names (read.actual.map (·.name))))
  dependencies.forM (check_version package_version package read.actual)
  if !same_set read.actual_provides provides then
    throw (.SystemExit (str package ++ " internal Provides differs: expected, actual ")
      (sorted_names provides ++ sorted_names read.actual_provides))

/-- `expected` of the gate: the selected packages, or all. -/
def expected (abi : Text) (releases : List (Text × Text)) (selected_packages : Option (List Text)) :
    List (Text × List (Text × Bool)) :=
  match selected_packages with
  | none => expected_internal_dependencies abi releases
  | some selected => (expected_internal_dependencies abi releases).filter fun x => selected.contains x.1

def validate_internal_dependency_graph (abi package_version : Text) (releases : List (Text × Text))
    (package_rows : List (Text × (RelationField → Text))) (selected_packages : Option (List Text)) : Except Stop Unit := do
  let complete_expected := expected_internal_dependencies abi releases
  if !(selected_packages.getD []).all ((complete_expected.map (·.1)).contains ·) then
    throw (.SystemExit "selected relation audit names an unknown DKC package")
  let expected := expected abi releases selected_packages
  if !same_set (package_rows.map (·.1)) (expected.map (·.1)) then
    throw (.SystemExit "cannot validate relations for an incomplete DKC package graph")
  package_rows.forM fun row =>
    validate_package package_version (expected.map (·.1)) ((expected.lookup row.1).getD [])
      (((expected_internal_provides releases).lookup row.1).getD []) row.1 row.2

/-! ## What the fields have to say -/

/-- The alternatives name these packages, each of them once. -/
def Names (as : List Alternative) (names : List Text) : Prop :=
  (as.map (·.name.text)).Nodup ∧ ∀ name, name ∈ as.map (·.name.text) ↔ name ∈ names

/-- The relation is exactly to this version, or to no version. -/
def Versioned (package_version : Text) (exact : Bool) (a : Alternative) : Prop :=
  match exact with
  | true => ∃ v, a.version = some v ∧ v.op = .eq ∧ v.version = package_version
  | false => a.version = none

structure Meets (package_version : Text) (dependencies : List (Text × Bool)) (provides : List Text)
    (fields : RelationField → RelationText) : Prop where
  /-- A package of the product is no alternative. -/
  alone : ∀ f, ∀ e ∈ (fields f).field.entries, (∃ a ∈ alternatives e, is_product a.name.text = true) → e.others = []
  elsewhere : ∀ f, f ≠ .depends → f ≠ .provides → products (fields f).field = []
  depends : Names (products (fields .depends).field) (dependencies.map (·.1))
  versions : ∀ a ∈ products (fields .depends).field, ∀ exact, (a.name.text, exact) ∈ dependencies →
    Versioned package_version exact a
  provided : Names (products (fields .provides).field) provides
  unversioned : ∀ a ∈ products (fields .provides).field, a.version = none

/-- The relation fields of the packages. -/
abbrev Graph := List (Text × (RelationField → RelationText))

def Graph.rows (graph : Graph) : List (Text × (RelationField → Text)) :=
  graph.map fun x => (x.1, fun f => (x.2 f).field.render)

/-- The graph has the expected packages, with the expected relations. -/
structure Graph.Exact (graph : Graph) (abi package_version : Text) (releases : List (Text × Text))
    (selected_packages : Option (List Text)) : Prop where
  known : ∀ package ∈ selected_packages.getD [], package ∈ (expected_internal_dependencies abi releases).map (·.1)
  complete : ∀ package, package ∈ graph.map (·.1) ↔ package ∈ (expected abi releases selected_packages).map (·.1)
  meets : ∀ x ∈ graph, Meets package_version (((expected abi releases selected_packages).lookup x.1).getD [])
    (((expected_internal_provides releases).lookup x.1).getD []) x.2

/-- The selected packages depend on each other only. -/
def Closed (abi : Text) (releases : List (Text × Text)) (selected_packages : Option (List Text)) : Prop :=
  ∀ x ∈ expected abi releases selected_packages, ∀ d ∈ x.2, d.1 ∈ (expected abi releases selected_packages).map (·.1)

/-! ## What the gate reads -/

/-- A loop that takes good relations, no name twice. -/
theorem collect_once {σ : Type} {step : σ → Relation → Except Stop σ} {push : σ → Relation → σ} {Good : Relation → Prop}
    (names : σ → List Text) (hstep : ∀ s r s', step s r = .ok s' ↔ Good r ∧ r.name ∉ names s ∧ s' = push s r)
    (hnames : ∀ s r, names (push s r) = names s ++ [r.name]) :
    ∀ {rs : List Relation} {s s' : σ}, (names s).Nodup → (rs.foldlM step s = .ok s' ↔
      (∀ r ∈ rs, Good r) ∧ (names s ++ rs.map (·.name)).Nodup ∧ s' = rs.foldl push s)
  | [], s, s', hnodup => by
    simp only [List.foldlM_nil, except_pure, Except.ok.injEq, List.map_nil, List.append_nil, hnodup, true_and]
    exact ⟨fun h => ⟨by simp, h.symm⟩, fun h => h.2.symm⟩
  | r :: rs, s, s', hnodup => by
    have hsplit : names s ++ (r :: rs).map (·.name) = names (push s r) ++ rs.map (·.name) := by
      rw [hnames, List.map_cons, List.append_assoc, List.singleton_append]
    have hnew : (names (push s r)).Nodup ↔ r.name ∉ names s := by
      rw [hnames, ← List.concat_eq_append, List.nodup_concat]
      exact and_iff_left hnodup
    rw [List.foldlM_cons, except_bind_eq_ok, hsplit, List.foldl_cons]
    constructor
    · rintro ⟨next, hfirst, hrest⟩
      obtain ⟨hgood, hname, rfl⟩ := (hstep s r next).1 hfirst
      obtain ⟨hall, hnames, hs⟩ := (collect_once names hstep hnames (hnew.2 hname)).1 hrest
      exact ⟨List.forall_mem_cons.2 ⟨hgood, hall⟩, hnames, hs⟩
    · rintro ⟨hall, hrs, hs⟩
      obtain ⟨hgood, hall⟩ := List.forall_mem_cons.1 hall
      have hnext := (List.nodup_append.1 hrs).1
      exact ⟨_, (hstep s r _).2 ⟨hgood, hnew.1 hnext, rfl⟩, (collect_once names hstep hnames hnext).2 ⟨hall, hrs, hs⟩⟩

theorem read_provides {known : List Text} {package : Text} {rs : List Relation} {actual : List Relation} {read' : Actual} :
    rs.foldlM (add_relation known package .provides) ⟨actual, []⟩ = .ok read' ↔
      (∀ r ∈ rs, r.operator = none ∧ r.version = none) ∧ (rs.map (·.name)).Nodup ∧ read' = ⟨actual, rs.map (·.name)⟩ := by
  have hstep : ∀ (s : Actual) (r : Relation) (s' : Actual), add_relation known package .provides s r = .ok s' ↔
      (r.operator = none ∧ r.version = none) ∧ r.name ∉ s.actual_provides ∧
        s' = { s with actual_provides := s.actual_provides ++ [r.name] } := by
    intro s r s'
    rw [add_relation, if_pos rfl, except_check_eq_ok, except_check_eq_ok, Except.ok.injEq, not_or, not_not, not_not,
      eq_comm (a := s')]
  have hfold : ∀ (rs : List Relation) (s : Actual),
      rs.foldl (fun s r => { s with actual_provides := s.actual_provides ++ [r.name] }) s =
        { s with actual_provides := s.actual_provides ++ rs.map (·.name) } := by
    intro rs
    induction rs with
    | nil => simp
    | cons r rs ih => simp [ih]
  rw [collect_once Actual.actual_provides hstep (fun _ _ => rfl) List.nodup_nil, hfold]
  rfl

theorem read_depends {known : List Text} {package : Text} {rs : List Relation} {provides : List Text} {read' : Actual} :
    rs.foldlM (add_relation known package .depends) ⟨[], provides⟩ = .ok read' ↔
      (∀ r ∈ rs, r.name ∈ known) ∧ (rs.map (·.name)).Nodup ∧ read' = ⟨rs, provides⟩ := by
  have hstep : ∀ (s : Actual) (r : Relation) (s' : Actual), add_relation known package .depends s r = .ok s' ↔
      r.name ∈ known ∧ r.name ∉ s.actual.map (·.name) ∧ s' = { s with actual := s.actual ++ [r] } := by
    intro s r s'
    rw [add_relation, if_neg (by decide), except_check_eq_ok, except_check_eq_ok, except_check_eq_ok, not_not, Except.ok.injEq,
      eq_comm (a := s')]
    simp
  have hfold : ∀ (rs : List Relation) (s : Actual), rs.foldl (fun s r => { s with actual := s.actual ++ [r] }) s =
      { s with actual := s.actual ++ rs } := by
    intro rs
    induction rs with
    | nil => simp
    | cons r rs ih => simp [ih]
  have hnames : ∀ (s : Actual) (r : Relation),
      ({ s with actual := s.actual ++ [r] } : Actual).actual.map (·.name) = s.actual.map (·.name) ++ [r.name] := by simp
  have h : rs.foldlM (add_relation known package .depends) ⟨[], provides⟩ = .ok read' ↔ _ :=
    collect_once (fun s : Actual => s.actual.map (·.name)) hstep hnames List.nodup_nil
  rwa [hfold] at h

theorem read_elsewhere {known : List Text} {package : Text} {field : RelationField} (hdepends : field ≠ .depends)
    (hprovides : field ≠ .provides) {rs : List Relation} {read read' : Actual} :
    rs.foldlM (add_relation known package field) read = .ok read' ↔ rs = [] ∧ read' = read := by
  cases rs with
  | nil => simp [eq_comm]
  | cons r rs =>
    refine iff_of_false ?_ (by simp)
    intro h
    obtain ⟨next, hstep, -⟩ := except_bind_eq_ok.1 h
    rw [add_relation, if_neg hprovides, except_check_eq_ok, except_check_eq_ok] at hstep
    exact hstep.2.1 hdepends

/-- What the loop over the fields accepts. -/
structure Reads (known : List Text) (fields : RelationField → Text) : Prop where
  alone : ∀ f, has_alternative_internal_relation (fields f) = false
  elsewhere : ∀ f, f ≠ .depends → f ≠ .provides → internal_relations (fields f) = []
  known : ∀ r ∈ internal_relations (fields .depends), r.name ∈ known
  depends : ((internal_relations (fields .depends)).map (·.name)).Nodup
  unversioned : ∀ r ∈ internal_relations (fields .provides), r.operator = none ∧ r.version = none
  provides : ((internal_relations (fields .provides)).map (·.name)).Nodup

theorem read_field_ok {known : List Text} {package : Text} {fields : RelationField → Text} {read read' : Actual}
    {field : RelationField} : read_field known package fields read field = .ok read' ↔
      has_alternative_internal_relation (fields field) = false ∧
        (internal_relations (fields field)).foldlM (add_relation known package field) read = .ok read' := by
  rw [read_field, except_check_eq_ok, Bool.not_eq_true]

theorem read_fields {known : List Text} {package : Text} {fields : RelationField → Text} {read : Actual} :
    RELATION_FIELDS.foldlM (read_field known package fields) ⟨[], []⟩ = .ok read ↔ Reads known fields ∧
      read = ⟨internal_relations (fields .depends), (internal_relations (fields .provides)).map (·.name)⟩ := by
  simp only [RELATION_FIELDS, List.foldlM_cons, List.foldlM_nil, except_bind_eq_ok, except_pure, Except.ok.injEq,
    read_field_ok]
  constructor
  · rintro ⟨r1, ⟨a1, h1⟩, r2, ⟨a2, h2⟩, r3, ⟨a3, h3⟩, r4, ⟨a4, h4⟩, r5, ⟨a5, h5⟩, r6, ⟨a6, h6⟩, r7, ⟨a7, h7⟩, r8, ⟨a8, h8⟩,
      r9, ⟨a9, h9⟩, rfl⟩
    obtain ⟨hknown, hdepends, rfl⟩ := read_depends.1 h1
    obtain ⟨e2, rfl⟩ := (read_elsewhere (by decide) (by decide)).1 h2
    obtain ⟨e3, rfl⟩ := (read_elsewhere (by decide) (by decide)).1 h3
    obtain ⟨e4, rfl⟩ := (read_elsewhere (by decide) (by decide)).1 h4
    obtain ⟨e5, rfl⟩ := (read_elsewhere (by decide) (by decide)).1 h5
    obtain ⟨e6, rfl⟩ := (read_elsewhere (by decide) (by decide)).1 h6
    obtain ⟨hunversioned, hprovides, rfl⟩ := read_provides.1 h7
    obtain ⟨e8, rfl⟩ := (read_elsewhere (by decide) (by decide)).1 h8
    obtain ⟨e9, rfl⟩ := (read_elsewhere (by decide) (by decide)).1 h9
    refine ⟨⟨?_, ?_, hknown, hdepends, hunversioned, hprovides⟩, rfl⟩
    · intro f
      cases f <;> assumption
    · intro f hne hne'
      cases f
      case depends => exact absurd rfl hne
      case provides => exact absurd rfl hne'
      all_goals assumption
  · rintro ⟨h, rfl⟩
    have hother : ∀ (f : RelationField) (read : Actual), f ≠ .depends → f ≠ .provides →
        (internal_relations (fields f)).foldlM (add_relation known package f) read = .ok read := fun f read hne hne' =>
      (read_elsewhere hne hne').2 ⟨h.elsewhere f hne hne', rfl⟩
    refine ⟨_, ⟨h.alone _, read_depends.2 ⟨h.known, h.depends, rfl⟩⟩, ?_⟩
    refine ⟨_, ⟨h.alone _, hother _ _ (by decide) (by decide)⟩, ?_⟩
    refine ⟨_, ⟨h.alone _, hother _ _ (by decide) (by decide)⟩, ?_⟩
    refine ⟨_, ⟨h.alone _, hother _ _ (by decide) (by decide)⟩, ?_⟩
    refine ⟨_, ⟨h.alone _, hother _ _ (by decide) (by decide)⟩, ?_⟩
    refine ⟨_, ⟨h.alone _, hother _ _ (by decide) (by decide)⟩, ?_⟩
    refine ⟨_, ⟨h.alone _, read_provides.2 ⟨h.unversioned, h.provides, rfl⟩⟩, ?_⟩
    refine ⟨_, ⟨h.alone _, hother _ _ (by decide) (by decide)⟩, ?_⟩
    exact ⟨_, ⟨h.alone _, hother _ _ (by decide) (by decide)⟩, rfl⟩

/-! ## What the gate checks -/

def VersionOk (package_version : Text) (exact : Bool) (r : Relation) : Prop :=
  match exact with
  | true => r.operator = some ['='] ∧ r.version = some package_version
  | false => r.operator = none ∧ r.version = none

theorem check_version_ok {package_version package : Text} {actual : List Relation} {dependency : Text × Bool} :
    check_version package_version package actual dependency = .ok () ↔
      ∃ r, actual.find? (·.name = dependency.1) = some r ∧ VersionOk package_version dependency.2 r := by
  obtain ⟨name, exact⟩ := dependency
  unfold check_version
  cases actual.find? (·.name = name) with
  | none => simp
  | some r =>
    simp only [except_check_eq_ok, and_true, Option.some.injEq, exists_eq_left']
    cases exact <;> simp [VersionOk]

/-- The checks of one package, of what was read. -/
theorem validate_package_ok {package_version : Text} {known : List Text} {dependencies : List (Text × Bool)}
    {provides : List Text} {package : Text} {fields : RelationField → Text} :
    validate_package package_version known dependencies provides package fields = .ok () ↔ Reads known fields ∧
      (∀ name, name ∈ (internal_relations (fields .depends)).map (·.name) ↔ name ∈ dependencies.map (·.1)) ∧
      (∀ d ∈ dependencies, ∃ r, (internal_relations (fields .depends)).find? (·.name = d.1) = some r ∧
        VersionOk package_version d.2 r) ∧
      ∀ name, name ∈ (internal_relations (fields .provides)).map (·.name) ↔ name ∈ provides := by
  rw [validate_package, except_bind_eq_ok]
  simp only [read_fields, except_raise_eq_ok, except_bind_eq_ok, Bool.not_eq_true', Bool.not_eq_false, same_set_iff]
  simp only [except_throw, except_pure, except_guard_eq_ok, Bool.not_eq_false, same_set_iff]
  constructor
  · rintro ⟨read, ⟨hreads, rfl⟩, hnames, ⟨⟩, hversions, hprovides⟩
    exact ⟨hreads, hnames, fun d hd => check_version_ok.1 (except_forM_ok hversions d hd), hprovides⟩
  · rintro ⟨hreads, hnames, hversions, hprovides⟩
    exact ⟨_, ⟨hreads, rfl⟩, hnames, (), except_forM_ok_iff.2 fun d hd => check_version_ok.2 (hversions d hd), hprovides⟩

/-! ## Exactness -/

theorem op_eq_iff (op : BuildDeps.Op) : op.text = ['='] ↔ op = .eq := by
  cases op <;> decide

theorem version_relation (package_version : Text) (exact : Bool) (a : Alternative) :
    VersionOk package_version exact (relation a) ↔ Versioned package_version exact a := by
  cases exact <;> cases hversion : a.version <;> simp [VersionOk, Versioned, relation, hversion, op_eq_iff]

theorem relation_names (as : List Alternative) : (as.map relation).map (·.name) = as.map (·.name.text) := by
  rw [List.map_map]
  rfl

theorem find_relation {as : List Alternative} {name : Text} (h : name ∈ as.map (·.name.text)) :
    ∃ a ∈ as, a.name.text = name ∧ (as.map relation).find? (·.name = name) = some (relation a) := by
  induction as with
  | nil => cases h
  | cons a as ih =>
    rw [List.map_cons, List.find?_cons]
    by_cases ha : (relation a).name = name
    · exact ⟨a, List.mem_cons_self, ha, by simp only [ha, decide_true]⟩
    · obtain ⟨b, hb, hname, hfind⟩ := ih ((List.mem_cons.1 h).resolve_left fun h => ha h.symm)
      exact ⟨b, List.mem_cons_of_mem a hb, hname, by simp only [ha, decide_false, hfind]⟩

/-- What is read of plain fields meets the expectations exactly if the fields do. -/
theorem meets_iff {package_version : Text} {known : List Text} {dependencies : List (Text × Bool)} {provides : List Text}
    {package : Text} {fields : RelationField → RelationText} (hplain : ∀ f, (fields f).Plain)
    (hknown : ∀ d ∈ dependencies, d.1 ∈ known) :
    validate_package package_version known dependencies provides package (fun f => (fields f).field.render) = .ok () ↔
      Meets package_version dependencies provides fields := by
  have hread : ∀ f, internal_relations (fields f).field.render = (products (fields f).field).map relation :=
    fun f => internal_relations_render (hplain f)
  have hunversioned : ∀ a : Alternative, ((relation a).operator = none ∧ (relation a).version = none) ↔ a.version = none := by
    intro a
    simp [relation]
  rw [validate_package_ok]
  simp only [hread, relation_names]
  constructor
  · rintro ⟨hreads, hnames, hversions, hprovides⟩
    have hdepends := hreads.depends
    have hprovided := hreads.provides
    simp only [hread, relation_names] at hdepends hprovided
    refine ⟨?_, ?_, ⟨hdepends, hnames⟩, ?_, ⟨hprovided, hprovides⟩, ?_⟩
    · intro f e he hproduct
      by_contra hothers
      have halternative := (has_alternative_render (hplain f)).2 ⟨e, he, hothers, hproduct⟩
      rw [hreads.alone f] at halternative
      cases halternative
    · intro f hne hne'
      have hnil := hreads.elsewhere f hne hne'
      rw [hread] at hnil
      exact List.map_eq_nil_iff.1 hnil
    · intro a ha exact hexact
      obtain ⟨r, hfind, hversion⟩ := hversions _ hexact
      obtain ⟨b, hb, hname, hfind'⟩ := find_relation (List.mem_map.2 ⟨a, ha, rfl⟩)
      cases hfind.symm.trans hfind'
      -- the names are those of one alternative each
      obtain rfl : b = a := List.inj_on_of_nodup_map hdepends hb ha hname
      exact (version_relation _ _ _).1 hversion
    · intro a ha
      have hnone := hreads.unversioned (relation a)
      rw [hread] at hnone
      exact (hunversioned a).1 (hnone (List.mem_map.2 ⟨a, ha, rfl⟩))
  · intro h
    refine ⟨⟨?_, ?_, ?_, ?_, ?_, ?_⟩, h.depends.2, ?_, h.provided.2⟩
    · intro f
      rw [Bool.eq_false_iff]
      intro halternative
      obtain ⟨e, he, hothers, hproduct⟩ := (has_alternative_render (hplain f)).1 halternative
      exact hothers (h.alone f e he hproduct)
    · intro f hne hne'
      rw [hread, h.elsewhere f hne hne']
      rfl
    · intro r hr
      rw [hread] at hr
      obtain ⟨a, ha, rfl⟩ := List.mem_map.1 hr
      obtain ⟨d, hd, hname⟩ := List.mem_map.1 ((h.depends.2 _).1 (List.mem_map.2 ⟨a, ha, rfl⟩))
      have hmem := hknown d hd
      rw [hname] at hmem
      exact hmem
    · rw [hread, relation_names]
      exact h.depends.1
    · intro r hr
      rw [hread] at hr
      obtain ⟨a, ha, rfl⟩ := List.mem_map.1 hr
      exact (hunversioned a).2 (h.unversioned a ha)
    · rw [hread, relation_names]
      exact h.provided.1
    · intro d hd
      obtain ⟨a, ha, hname, hfind⟩ := find_relation ((h.depends.2 _).2 (List.mem_map.2 ⟨d, hd, rfl⟩))
      exact ⟨_, hfind, (version_relation _ _ _).2 (h.versions a ha d.2 (hname ▸ hd))⟩

theorem mem_put {V : Type} {d : List (Text × V)} {key : Text} {value : V} {x : Text × V} (h : x ∈ put d key value) :
    x ∈ d ∨ x = (key, value) := by
  unfold put at h
  split at h
  · obtain ⟨y, hy, rfl⟩ := List.mem_map.1 h
    split
    · exact .inr rfl
    · exact .inl hy
  · rcases List.mem_append.1 h with h | h
    · exact .inl h
    · exact .inr (List.mem_singleton.1 h)

theorem put_keys {V : Type} (d : List (Text × V)) (key : Text) (value : V) {k : Text} :
    k ∈ (put d key value).map (·.1) ↔ k ∈ d.map (·.1) ∨ k = key := by
  unfold put
  split
  · next hany =>
    obtain ⟨y, hy, hkey⟩ := List.any_eq_true.1 hany
    have hkeys : (d.map fun x => if x.1 = key then (key, value) else x).map (·.1) = d.map (·.1) := by
      rw [List.map_map]
      refine List.map_congr_left fun x _ => ?_
      by_cases hx : x.1 = key <;> simp [hx]
    rw [hkeys]
    refine ⟨.inl, fun h => h.elim id ?_⟩
    rintro rfl
    exact List.mem_map.2 ⟨y, hy, of_decide_eq_true hkey⟩
  · rw [List.map_append, List.mem_append, List.map_cons, List.map_nil, List.mem_singleton]

theorem mem_foldl_put {V : Type} (items : List (Text × V)) : ∀ {d : List (Text × V)} {x : Text × V},
    x ∈ items.foldl (fun d x => put d x.1 x.2) d → x ∈ d ∨ x ∈ items := by
  induction items with
  | nil => exact fun h => .inl h
  | cons y items ih =>
    intro d x h
    rcases ih h with h | h
    · rcases mem_put h with h | rfl
      · exact .inl h
      · exact .inr List.mem_cons_self
    · exact .inr (List.mem_cons_of_mem y h)

theorem foldl_put_keys {V : Type} (items : List (Text × V)) : ∀ {d : List (Text × V)} {k : Text},
    k ∈ (items.foldl (fun d x => put d x.1 x.2) d).map (·.1) ↔ k ∈ d.map (·.1) ∨ k ∈ items.map (·.1) := by
  induction items with
  | nil => simp
  | cons y items ih =>
    intro d k
    rw [List.foldl_cons, ih, put_keys, List.map_cons, List.mem_cons, or_assoc]

theorem mem_dict {V : Type} {items : List (Text × V)} {x : Text × V} (h : x ∈ dict items) : x ∈ items :=
  (mem_foldl_put items h).resolve_left List.not_mem_nil

theorem dict_keys {V : Type} {items : List (Text × V)} {k : Text} : k ∈ (dict items).map (·.1) ↔ k ∈ items.map (·.1) := by
  rw [dict, foldl_put_keys]
  exact or_iff_right List.not_mem_nil

/-- The packages of a flavor depend on each other and on the common ones. -/
theorem flavor_closed {abi flavor krel : Text} : ∀ x ∈ flavor_dependencies abi flavor krel, ∀ d ∈ x.2,
    d.1 ∈ (flavor_dependencies abi flavor krel).map (·.1) ∨ d.1 = headers_common abi ∨ d.1 = kbuild abi := by
  intro x hx d hd
  simp only [flavor_dependencies, List.map_cons, List.map_nil, List.mem_cons, List.not_mem_nil, or_false] at hx ⊢
  rcases hx with rfl | rfl | rfl | rfl | rfl | rfl | rfl | rfl
  · cases hd
  · simp only [List.mem_singleton] at hd
    simp [hd]
  · simp only [List.mem_singleton] at hd
    simp [hd]
  · have hmem := mem_dict hd
    simp only [List.mem_cons, List.not_mem_nil, or_false] at hmem
    rcases hmem with rfl | rfl | rfl <;> simp
  · have hmem := mem_dict hd
    simp only [List.mem_cons, List.not_mem_nil, or_false] at hmem
    rcases hmem with rfl | rfl | rfl <;> simp
  · simp only [List.mem_singleton] at hd
    simp [hd]
  · have hmem := mem_dict hd
    simp only [List.mem_cons, List.not_mem_nil, or_false] at hmem
    rcases hmem with rfl | rfl <;> simp
  · have hmem := mem_dict hd
    simp only [List.mem_cons, List.not_mem_nil, or_false] at hmem
    rcases hmem with rfl | rfl <;> simp

/-- Without a selection, the expected packages are closed. -/
theorem closed_all (abi : Text) (releases : List (Text × Text)) : Closed abi releases none := by
  intro x hx d hd
  have hkeys : ∀ k, k ∈ (expected abi releases none).map (·.1) ↔ k = headers_common abi ∨ k = kbuild abi ∨
      ∃ release ∈ releases, k ∈ (flavor_dependencies abi release.1 release.2).map (·.1) := by
    intro k
    simp only [expected, expected_internal_dependencies, dict_keys, List.map_cons, List.mem_cons, List.map_flatMap,
      List.mem_flatMap]
  rw [hkeys]
  have hitem := mem_dict hx
  simp only [List.mem_cons, List.mem_flatMap] at hitem
  rcases hitem with rfl | rfl | ⟨release, hrelease, hrow⟩
  · cases hd
  · cases hd
  · rcases flavor_closed x hrow d hd with hmem | hcommon | hkbuild
    · exact .inr (.inr ⟨release, hrelease, hmem⟩)
    · exact .inl hcommon
    · exact .inr (.inl hkbuild)

/-! ## One flavor, with a blank in a version -/

namespace FlavorGraph

/-- A text that is no word stands for another one. -/
def word (t : Text) : Word :=
  if h : t ≠ [] ∧ ∀ c ∈ t, isWordChar c = true then ⟨t, h.1, h.2⟩ else ⟨['x'], by decide, by decide⟩

/-- `(= 1)`, with a gap behind the parenthesis. -/
def version (lead : Gap) : Constraint := ⟨one_blank, lead, .eq, one_blank, ['1'], no_gap, by decide⟩

def entry (x : Text × Option Gap) : BuildDeps.Entry := ⟨⟨one_blank, word x.1, none, x.2.map version, none, [], no_gap⟩, []⟩

def field (xs : List (Text × Option Gap)) : Field := xs.map fun x => .entry (entry x)

theorem mem_entries {xs : List (Text × Option Gap)} {e : BuildDeps.Entry} (h : e ∈ (field xs).entries) : ∃ x ∈ xs, e = entry x := by
  obtain ⟨piece, hpiece, he⟩ := List.mem_filterMap.1 h
  obtain ⟨x, hx, rfl⟩ := List.mem_map.1 hpiece
  cases he
  exact ⟨x, hx, rfl⟩

theorem field_legal {xs : List (Text × Option Gap)} (h : ∀ x ∈ xs, ∀ c ∈ x.1, is_tail c = true) :
    ∀ e ∈ (field xs).entries, ∀ a ∈ alternatives e, Legal a := by
  intro e he a ha
  obtain ⟨x, hx, rfl⟩ := mem_entries he
  obtain rfl := List.mem_singleton.1 ha
  refine ⟨?_, ?_, ?_⟩
  · intro c hc
    simp only [entry, word] at hc
    split at hc
    · exact h x hx c hc
    · rw [List.mem_singleton.1 hc]
      decide
  · intro q hq
    cases hq
  · intro v hv
    obtain ⟨lead, -, rfl⟩ := Option.map_eq_some_iff.1 hv
    have hone : ∀ c ∈ ['1'], is_operator c = false := by decide
    exact ⟨List.cons_ne_nil _ _, hone⟩

def text (xs : List (Text × Option Gap)) : RelationText :=
  if h : ∀ x ∈ xs, ∀ c ∈ x.1, is_tail c = true then ⟨field xs, field_legal h⟩ else ⟨[], fun _ he => absurd he List.not_mem_nil⟩

theorem text_plain {xs : List (Text × Option Gap)} (h : ∀ x ∈ xs, x.2.all (·.text = []) = true) : (text xs).Plain := by
  intro e he
  unfold text at he
  split at he
  · obtain ⟨x, hx, rfl⟩ := mem_entries he
    refine ⟨?_, fun hne => absurd rfl hne⟩
    intro a ha
    obtain rfl := List.mem_singleton.1 ha
    have hlead := h x hx
    cases hgap : x.2 with
    | none =>
      refine ⟨fun _ v hv => ?_, ?_⟩
      · simp [entry, hgap] at hv
      · have hrender : behind_name (entry x).first = [] := by
          simp [behind_name, entry, hgap, Alternative.restrictions, no_gap]
        rw [hrender]
        decide
    | some lead =>
      rw [hgap, Option.all_some, decide_eq_true_eq] at hlead
      refine ⟨fun _ v hv => ?_, ?_⟩
      · simp only [entry, hgap, Option.map_some] at hv
        cases hv
        exact ⟨hlead, rfl⟩
      · have hrender : behind_name (entry x).first = [' ', '(', '=', ' ', '1', ')'] := by
          simp [behind_name, entry, hgap, Alternative.restrictions, Constraint.render, version, hlead, one_blank, no_gap, BuildDeps.Op.text]
        rw [hrender]
        decide
  · cases he

def abi : Text := ['6']

def releases : List (Text × Text) :=
  ["v2", "v3", "v4"].map fun flavor => (flavor.toList, abi ++ '-' :: flavor.toList ++ "-amd64".toList)

/-- What the packages of `v2` depend on and provide; `lead` is the gap in the version of the Kbuild package. -/
def rows (lead : Option Gap) : List (Text × List (Text × Option Gap) × List (Text × Option Gap)) :=
  let krel := "6-v2-amd64".toList
  let flavor := "v2".toList
  let exact (name : Text) : Text × Option Gap := (name, some no_gap)
  let base := versioned "base" krel
  [(headers_common abi, [], []),
    (kbuild abi, [], []),
    (base, [], []),
    (versioned "binary" krel, [exact base], []),
    (versioned "modules" krel, [exact base], []),
    (versioned "image" krel, [exact base, exact (versioned "binary" krel), exact (versioned "modules" krel)], []),
    (versioned "headers" krel, [exact base, exact (headers_common abi), (kbuild abi, lead)], []),
    (meta_package "base" flavor, [exact base], []),
    (meta_package "image" flavor, [exact (meta_package "base" flavor), exact (versioned "image" krel)],
      [("dkc-linux-latest-modules-".toList ++ krel, none)]),
    (meta_package "headers" flavor, [exact (meta_package "base" flavor), exact (versioned "headers" krel)], [])]

def selected : List Text := (rows none).map (·.1)

def fields (row : Text × List (Text × Option Gap) × List (Text × Option Gap)) : RelationField → RelationText
  | .depends => text row.2.1
  | .provides => text row.2.2
  | _ => text []

def graph (lead : Option Gap) : Graph := (rows lead).map fun row => (row.1, fields row)

theorem graph_plain {lead : Option Gap} (h : (rows lead).all (fun row => (row.2.1 ++ row.2.2).all fun x => x.2.all (·.text = [])) = true) :
    ∀ x ∈ graph lead, ∀ f, (x.2 f).Plain := by
  intro x hx f
  obtain ⟨row, hrow, rfl⟩ := List.mem_map.1 hx
  have hall := List.all_eq_true.1 (List.all_eq_true.1 h row hrow)
  have hempty : (text []).Plain := text_plain (by simp)
  cases f
  case depends => exact text_plain fun x hx => hall x (List.mem_append_left _ hx)
  case provides => exact text_plain fun x hx => hall x (List.mem_append_right _ hx)
  all_goals exact hempty

theorem selected_closed : Closed abi releases (some selected) := by
  unfold Closed
  decide +kernel

/-- The blank is not seen. -/
theorem blank_accepted :
    validate_internal_dependency_graph abi ['1'] releases (graph (some one_blank)).rows (some selected) = .ok () := by
  have hok : (validate_internal_dependency_graph abi ['1'] releases (graph (some one_blank)).rows (some selected)).isOk =
      true := by decide +kernel
  cases hresult : validate_internal_dependency_graph abi ['1'] releases (graph (some one_blank)).rows (some selected) with
  | ok u => rfl
  | error e =>
    rw [hresult] at hok
    cases hok

/-- But the Kbuild package has a version. -/
theorem blank_versioned : ¬(graph (some one_blank)).Exact abi ['1'] releases (some selected) := by
  intro h
  have hrow : ∃ x ∈ graph (some one_blank), x.1 = versioned "headers" "6-v2-amd64".toList ∧
      (products (x.2 .depends).field).any (fun a => a.name.text = kbuild abi && a.version.isSome) = true :=
    ⟨_, List.mem_map.2 ⟨_, List.mem_of_getElem? (i := 6) rfl, rfl⟩, rfl, by decide +kernel⟩
  obtain ⟨x, hx, hname, hany⟩ := hrow
  obtain ⟨a, ha, hversion⟩ := List.any_eq_true.1 hany
  rw [Bool.and_eq_true, decide_eq_true_eq] at hversion
  have hexact : (kbuild abi, false) ∈ ((expected abi releases (some selected)).lookup x.1).getD [] := by
    rw [hname]
    decide +kernel
  have hnone : a.version = none := (h.meets x hx).versions a ha false (hversion.1 ▸ hexact)
  rw [hnone] at hversion
  cases hversion.2

end FlavorGraph

end PackageMatrix
