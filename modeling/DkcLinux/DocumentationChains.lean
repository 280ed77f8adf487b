import DkcLinux.Order.Walk
import DkcLinux.MatrixConflicts

/-!
# Documentation chains (`scripts/in-container/audit-package-matrix.py:719-750`)

A package owns `usr/share/doc/<package>` as a directory, or as a link to the documentation of another package. The audit
follows these links from every package with the set of the packages it has visited: a walk in the sense of `Walk.Ends`.
It has a round for every package at most (`Visiting`), so it comes to an end, and it accepts a package exactly if there is
a route from there to a copyright file.

| the loop | the walk |
|---|---|
| `current in visited` | no repetition |
| a directory with a copyright file | a goal (`Documents`) |
| a symlink to a package | a link (`Links`) |
-/

namespace PackageMatrix

open Py Path

/-! ## Links -/

def documentation_root (package : Text) : Text := "usr/share/doc/".toList ++ package

/-- The documentation of a package is a link to what `target` names. -/
def Links (payloads : List (Text × List Record)) (package target : Text) : Prop :=
  ∃ r, record_at payloads package (documentation_root package) = some r ∧ r.kind = .symlink ∧ r.target = target

/-- The package owns its documentation as a directory with a regular copyright file. -/
def Documents (payloads : List (Text × List Record)) (package : Text) : Prop :=
  (∃ r, record_at payloads package (documentation_root package) = some r ∧ r.kind = .directory) ∧
    ∃ r, record_at payloads package (documentation_root package ++ "/copyright".toList) = some r ∧ r.kind = .file

/-- The chain of documentation links from a package: inside the set of packages, without repetition, to a copyright file. -/
structure Resolves (payloads : List (Text × List Record)) (package : Text) (chain : List Text) : Prop extends
    Walk.Route (Links payloads) (Documents payloads) [] package chain where
  inside : ∀ p ∈ chain, p ∈ payloads.map (·.1)

/-- One path component. -/
def Component (name : Text) : Prop := '/' ∉ name ∧ name ≠ ['.'] ∧ name ≠ ['.', '.']

/-- The payloads of packages, each with a name of its own. -/
structure PayloadGraph where
  payloads : List (Text × List Record)
  distinct : (payloads.map (·.1)).Nodup
  named : ∀ package ∈ payloads.map (·.1), Component package

/-! ## One round -/

section
variable {payloads : List (Text × List Record)} {package current : Text} {fuel : Nat} {visited : List Text}

/-- What a round reads of the package it has reached. -/
theorem documentation_chain_succ : documentation_chain payloads package (fuel + 1) current visited =
    if current ∈ visited then
      .error (.SystemExit ("documentation symlink cycle for " ++ str package ++ ": ") (visited.insertionSort fun a b => a ≤ b))
    else match record_at payloads current (documentation_root current) with
      | none => .error (.SystemExit (str current ++ " does not own its documentation root " ++ str (documentation_root current)))
      | some record => match record.kind with
        | .directory => match record_at payloads current (documentation_root current ++ "/copyright".toList) with
          | some ⟨_, .file, _, _, _⟩ => .ok ()
          | _ =>
            .error (.SystemExit ("documentation chain for " ++ str package ++ " does not end in a regular copyright file"))
        | .symlink =>
          if record.target ∉ payloads.map (·.1) ∨ '/' ∈ record.target ∨ record.target = ['.'] ∨
              record.target = ['.', '.'] then
            .error (.SystemExit (str current ++ " documentation link does not name a packaged documentation root: " ++
              str record.target))
          else documentation_chain payloads package fuel record.target (current :: visited)
        | kind => .error (.SystemExit (str current ++ " documentation root has unexpected type " ++ kind_name kind)) := rfl

/-- A link to a package of the set. -/
def LinksInside (payloads : List (Text × List Record)) (p q : Text) : Prop := Links payloads p q ∧ q ∈ payloads.map (·.1)

theorem documents_eq_ok {r : Record} {error : Stop} (hroot : record_at payloads current (documentation_root current) = some r)
    (hkind : r.kind = .directory) :
    (match record_at payloads current (documentation_root current ++ "/copyright".toList) with
      | some ⟨_, .file, _, _, _⟩ => .ok ()
      | _ => .error error) = (.ok () : Except Stop Unit) ↔ Documents payloads current := by
  unfold Documents
  constructor
  · intro h
    refine ⟨⟨r, hroot, hkind⟩, ?_⟩
    split at h
    · next hcopyright => exact ⟨_, hcopyright, rfl⟩
    · cases h
  · rintro ⟨-, ⟨path, kind, mode, size, target⟩, hcopyright, hfile⟩
    simp only at hfile
    subst hfile
    rw [hcopyright]

/-- A round ends at the copyright file, or goes on at the package that the link names. -/
theorem documentation_chain_round (hnamed : ∀ p ∈ payloads.map (·.1), Component p) :
    documentation_chain payloads package (fuel + 1) current visited = .ok () ↔
      current ∉ visited ∧ (Documents payloads current ∨ ∃ target, LinksInside payloads current target ∧
        documentation_chain payloads package fuel target (current :: visited) = .ok ()) := by
  rw [documentation_chain_succ, except_check_eq_ok]
  refine and_congr_right fun _ => ?_
  cases hroot : record_at payloads current (documentation_root current) with
  | none => simp [LinksInside, Links, Documents, hroot]
  | some r =>
    have hlinks : ∀ target, Links payloads current target ↔ r.kind = .symlink ∧ r.target = target := by
      intro target
      simp [Links, hroot]
    have hdocuments : Documents payloads current → r.kind = .directory := by
      rintro ⟨⟨r', hroot', hdirectory⟩, -⟩
      obtain rfl : r = r' := Option.some.inj (hroot.symm.trans hroot')
      exact hdirectory
    cases hkind : r.kind with
    | directory =>
      have hno : ∀ target, ¬ LinksInside payloads current target := by
        intro target h
        have hsymlink := ((hlinks target).1 h.1).1
        rw [hkind] at hsymlink
        cases hsymlink
      simp only [hkind, hno, false_and, exists_false, or_false]
      exact documents_eq_ok hroot hkind
    | symlink =>
      simp only [hkind, except_check_eq_ok]
      constructor
      · rintro ⟨hlegal, hrest⟩
        exact .inr ⟨r.target, ⟨(hlinks _).2 ⟨hkind, rfl⟩, not_not.1 (not_or.1 hlegal).1⟩, hrest⟩
      · rintro (hdoc | ⟨target, ⟨hlink, hmem⟩, hrest⟩)
        · rw [hdocuments hdoc] at hkind
          cases hkind
        · obtain ⟨-, rfl⟩ := (hlinks target).1 hlink
          obtain ⟨hslash, hdot, hdots⟩ := hnamed r.target hmem
          refine ⟨?_, hrest⟩
          simp [hmem, hslash, hdot, hdots]
    | file => simp [LinksInside, Links, Documents, hroot, hkind]
    | hardlink => simp [LinksInside, Links, Documents, hroot, hkind]

/-! ## The walk -/

/-- What the loop keeps: the packages it has visited, and rounds for the others. -/
structure Visiting (payloads : List (Text × List Record)) (fuel : Nat) (current : Text) (visited : List Text) : Prop where
  nodup : visited.Nodup
  inside : visited ⊆ payloads.map (·.1)
  current_inside : current ∈ payloads.map (·.1)
  rounds : payloads.length < fuel + visited.length

theorem Visiting.fuel_pos (h : Visiting payloads fuel current visited) : 0 < fuel := by
  have hle := (h.nodup.subperm h.inside).length_le
  rw [List.length_map] at hle
  have hrounds := h.rounds
  omega

theorem Visiting.next (h : Visiting payloads (fuel + 1) current visited) (hfresh : current ∉ visited) {target : Text}
    (htarget : target ∈ payloads.map (·.1)) : Visiting payloads fuel target (current :: visited) where
  nodup := List.nodup_cons.2 ⟨hfresh, h.nodup⟩
  inside := List.cons_subset.2 ⟨h.current_inside, h.inside⟩
  current_inside := htarget
  rounds := by
    have hrounds := h.rounds
    rw [List.length_cons]
    omega

/-- The rounds are enough: no package is visited twice. -/
theorem documentation_chain_ends (h : Visiting payloads fuel current visited) :
    documentation_chain payloads package fuel current visited ≠ .error .Unending := by
  induction fuel generalizing current visited with
  | zero => exact absurd h.fuel_pos (Nat.lt_irrefl 0)
  | succ fuel ih =>
    rw [documentation_chain_succ]
    by_cases hseen : current ∈ visited
    · rw [if_pos hseen]
      simp
    · rw [if_neg hseen]
      split
      · simp
      · split
        · split <;> simp
        · split
          · simp
          · next htarget => exact ih (h.next hseen (not_not.1 (not_or.1 htarget).1))
        · simp

/-- The loop is a walk along the links. -/
theorem documentation_chain_walk (hnamed : ∀ p ∈ payloads.map (·.1), Component p)
    (h : Visiting payloads fuel current visited) :
    documentation_chain payloads package fuel current visited = .ok () ↔
      Walk.Ends (LinksInside payloads) (Documents payloads) visited current := by
  induction fuel generalizing current visited with
  | zero => exact absurd h.fuel_pos (Nat.lt_irrefl 0)
  | succ fuel ih =>
    rw [documentation_chain_round hnamed]
    constructor
    · rintro ⟨hfresh, hdoc | ⟨target, hlink, hrest⟩⟩
      · exact .here hfresh hdoc
      · exact .step hfresh hlink ((ih (h.next hfresh hlink.2)).1 hrest)
    · intro hends
      cases hends with
      | here hfresh hdoc => exact ⟨hfresh, .inl hdoc⟩
      | step hfresh hlink hrest => exact ⟨hfresh, .inr ⟨_, hlink, (ih (h.next hfresh hlink.2)).2 hrest⟩⟩

theorem Visiting.start (hmem : package ∈ payloads.map (·.1)) : Visiting payloads (payloads.length + 1) package [] where
  nodup := List.nodup_nil
  inside := List.nil_subset _
  current_inside := hmem
  rounds := by simp

/-- A route along the links of the set is a chain that stays inside the set. -/
theorem route_iff_resolves (hmem : package ∈ payloads.map (·.1)) {chain : List Text} :
    Walk.Route (LinksInside payloads) (Documents payloads) [] package chain ↔ Resolves payloads package chain := by
  constructor
  · intro h
    obtain ⟨rest, rfl⟩ := h.eq_cons
    refine ⟨⟨rfl, h.linked.imp fun _ _ hlink => hlink.1, h.acyclic, h.fresh, h.arrives⟩, ?_⟩
    have htargets : (package :: rest).IsChain fun _ q => q ∈ payloads.map (·.1) := h.linked.imp fun _ _ hlink => hlink.2
    intro p hp
    rcases List.mem_cons.1 hp with rfl | hp
    · exact hmem
    · exact Walk.targets htargets p hp
  · intro h
    refine ⟨h.starts, ?_, h.acyclic, h.fresh, h.arrives⟩
    exact h.linked.imp_of_mem_imp fun p q _ hq hlink => ⟨hlink, h.inside q hq⟩

/-- A package has one chain at most. -/
theorem resolves_unique {chain chain' : List Text} (h : Resolves payloads package chain)
    (h' : Resolves payloads package chain') : chain = chain' := by
  refine Walk.Route.unique ?_ ?_ h.toRoute h'.toRoute
  · rintro p q q' ⟨r, hroot, -, rfl⟩ ⟨r', hroot', -, rfl⟩
    obtain rfl : r = r' := Option.some.inj (hroot.symm.trans hroot')
    rfl
  · rintro p q ⟨⟨r, hroot, hdirectory⟩, -⟩ ⟨r', hroot', hsymlink, -⟩
    obtain rfl : r = r' := Option.some.inj (hroot.symm.trans hroot')
    rw [hdirectory] at hsymlink
    cases hsymlink

end

theorem except_forM_error {ε α : Type} {f : α → Except ε Unit} {e : ε} :
    ∀ {xs : List α}, xs.forM f = .error e → ∃ x ∈ xs, f x = .error e
  | [], h => by cases h
  | x :: xs, h => by
    have hbind : (f x >>= fun _ => xs.forM f) = .error e := h
    cases hx : f x with
    | error e' =>
      rw [hx] at hbind
      exact ⟨x, List.mem_cons_self, hx.trans hbind⟩
    | ok u =>
      rw [hx] at hbind
      obtain ⟨y, hy, hf⟩ := except_forM_error hbind
      exact ⟨y, List.mem_cons_of_mem x hy, hf⟩

/-- **The audit follows every chain to its end**, and accepts exactly the graphs in which every package has a chain of
documentation links inside the set, without repetition, to a copyright file. -/
theorem validate_copyright_documentation_iff (graph : PayloadGraph) :
    validate_copyright_documentation graph.payloads ≠ .error .Unending ∧
      (validate_copyright_documentation graph.payloads = .ok () ↔
        ∀ package ∈ graph.payloads.map (·.1), ∃ chain, Resolves graph.payloads package chain) := by
  have hsorted : ∀ package, package ∈ (graph.payloads.map (·.1)).insertionSort (fun a b => a ≤ b) ↔
      package ∈ graph.payloads.map (·.1) := fun package => (List.perm_insertionSort _ _).mem_iff
  constructor
  · intro h
    obtain ⟨package, hmem, hloop⟩ := except_forM_error h
    exact documentation_chain_ends (.start ((hsorted package).1 hmem)) hloop
  · unfold validate_copyright_documentation
    rw [except_forM_ok_iff]
    refine forall_congr' fun package => ?_
    rw [hsorted]
    refine forall_congr' fun hmem => ?_
    rw [documentation_chain_walk graph.named (.start hmem), Walk.ends_iff]
    exact exists_congr fun chain => route_iff_resolves hmem

/-- A link of a package to itself. -/
example : validate_copyright_documentation [(['a'], [⟨documentation_root ['a'], .symlink, 0o777, 0, ['a']⟩])] =
    .error (.SystemExit "documentation symlink cycle for a: " [['a']]) := by decide +kernel

/-! ## The packages of the matrix -/

theorem component_versioned {role : String} {release : Text} (hrole : '/' ∉ role.toList) (h : '/' ∉ release) :
    Component (versioned role release) := by
  have hstart : '/' ∉ "dkc-linux-".toList := by decide +kernel
  have hletter : 'd' ∈ versioned role release := by
    have hd : 'd' ∈ "dkc-linux-".toList := by decide +kernel
    exact List.mem_append_left _ (List.mem_append_left _ hd)
  refine ⟨?_, ?_, ?_⟩
  · unfold versioned
    simp only [List.mem_append, List.mem_cons, not_or]
    exact ⟨⟨hstart, hrole⟩, by decide, h⟩
  · intro hname
    rw [hname] at hletter
    exact absurd hletter (by decide)
  · intro hname
    rw [hname] at hletter
    exact absurd hletter (by decide)

theorem release_areas_component {release : Text × Text} (hflavor : '/' ∉ release.1) (hkrel : '/' ∉ release.2) {package : Text}
    (h : package ∈ (release_areas release.1 release.2).map (·.1)) : Component package := by
  have hmeta : '/' ∉ release.1 ++ "-amd64".toList := by
    have hsuffix : '/' ∉ "-amd64".toList := by decide +kernel
    rw [List.mem_append, not_or]
    exact ⟨hflavor, hsuffix⟩
  simp only [release_areas, List.map_cons, List.map_nil, List.mem_cons, List.not_mem_nil, or_false] at h
  rcases h with rfl | rfl | rfl | rfl | rfl | rfl | rfl | rfl
  · exact component_versioned (by decide +kernel) hkrel
  · exact component_versioned (by decide +kernel) hkrel
  · exact component_versioned (by decide +kernel) hkrel
  · exact component_versioned (by decide +kernel) hkrel
  · exact component_versioned (by decide +kernel) hkrel
  · exact component_versioned (by decide +kernel) hmeta
  · exact component_versioned (by decide +kernel) hmeta
  · exact component_versioned (by decide +kernel) hmeta

theorem Identity.flavors_slash (identity : Identity) : ∀ release ∈ identity.releases, '/' ∉ release.1 := by
  intro release hrelease
  obtain ⟨flavor, hflavor, rfl⟩ := List.mem_map.1 hrelease
  have hplain : '/' ∉ flavor.toList := by
    rcases List.mem_pair.1 hflavor with rfl | rfl <;> decide +kernel
  exact hplain

theorem areas_component (identity : Identity) :
    ∀ package ∈ (areas identity.abi identity.releases).map (·.1), Component package := by
  have hcommon : '/' ∉ identity.abi ++ "-common".toList := by
    have hsuffix : '/' ∉ "-common".toList := by decide +kernel
    rw [List.mem_append, not_or]
    exact ⟨identity.slash, hsuffix⟩
  intro package hpackage
  simp only [areas, List.map_cons, List.mem_cons, List.map_flatMap, List.mem_flatMap] at hpackage
  rcases hpackage with rfl | rfl | ⟨release, hrelease, hpackage⟩
  · rw [headers_common_package]
    exact component_versioned (by decide +kernel) hcommon
  · rw [kbuild_package]
    exact component_versioned (by decide +kernel) identity.slash
  · exact release_areas_component (identity.flavors_slash release hrelease) (identity.releases_slash release hrelease) hpackage

/-- The layout check comes first: it only lets packages of the matrix through, and their names are path components. -/
theorem layout_graph {identity : Identity} {btf_required : Bool} {exports : List (Text × List Deb)} {c : Collected}
    (hcollect : collect identity.abi exports = .ok c)
    (hlayout : validate_payload_layout c.package_payloads c.payload_owners identity.abi identity.releases btf_required = .ok ()) :
    ∃ graph : PayloadGraph, graph.payloads = c.package_payloads := by
  refine ⟨⟨c.package_payloads, (collect_ok hcollect).nodup, ?_⟩, rfl⟩
  obtain ⟨_, _, h⟩ := except_bind_eq_ok.1 hlayout
  obtain ⟨_, h⟩ := except_raise_eq_ok.1 h
  obtain ⟨_, _, h⟩ := except_bind_eq_ok.1 h
  obtain ⟨hsame, _⟩ := except_raise_eq_ok.1 h
  rw [Bool.not_eq_true', Bool.not_eq_false, same_set_iff] at hsame
  exact fun package hmem => areas_component identity package ((hsame package).2 hmem)

/-- **Every package of an accepted matrix has a copyright file** at the end of its chain. -/
theorem audit_resolves {identity : Identity} {btf_required : Bool} {exports : List (Text × List Deb)}
    {payloads : List (Text × List Record)} (h : audit_payloads identity btf_required exports = .ok payloads) :
    ∀ package ∈ payloads.map (·.1), ∃ chain, Resolves payloads package chain := by
  obtain ⟨c, hcollect, h⟩ := except_bind_eq_ok.1 h
  obtain ⟨_, h⟩ := except_raise_eq_ok.1 h
  obtain ⟨_, hlayout, h⟩ := except_bind_eq_ok.1 h
  obtain ⟨_, hdocumentation, h⟩ := except_bind_eq_ok.1 h
  cases h
  obtain ⟨graph, hgraph⟩ := layout_graph hcollect hlayout
  rw [← hgraph] at hdocumentation ⊢
  exact (validate_copyright_documentation_iff graph).2.1 hdocumentation

end PackageMatrix
