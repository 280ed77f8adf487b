import Mathlib.Data.Fintype.Defs
import DkcLinux.MatrixPayloads

/-!
# Packages that cannot be installed together

The layout check gives every package trees of its own, and one tree to all of them: `usr/share/`. The own trees of two
packages are not above each other (`roots_apart`), so a conflict of two packages lies below `usr/share/`, where nothing but
the collision check looks at it. That check counts files and links, and compares whole paths:

| at one path, or below it | file or link | directory |
| --- | --- | --- |
| file or link, same path | collision, refused | accepted |
| something below a file or link | accepted | accepted |

`installable_iff`: accepted packages can be installed together exactly if the two accepted kinds do not occur.
-/

namespace Py.Path

/-- The texts differ at a position that both have. -/
def clash (a b : Text) : Bool := (a.zip b).any fun x => x.1 ≠ x.2

theorem not_prefix_of_clash : ∀ {a b : Text}, clash a b = true → ∀ x y, ¬a ++ x <+: b ++ y
  | [], _, h, _, _ => by simp [clash] at h
  | _ :: _, [], h, _, _ => by simp [clash] at h
  | c :: a, d :: b, h, x, y => by
    intro hle
    rw [List.cons_append, List.cons_append] at hle
    obtain ⟨rfl, hrest⟩ := List.cons_prefix_cons.1 hle
    have hclash : clash a b = true := by simpa [clash] using h
    exact not_prefix_of_clash hclash x y hrest

theorem not_covers_of_clash {a b : Text} (h : clash a b = true) (x y : Text) : ¬Covers (a ++ x) (b ++ y) :=
  fun hcovers => not_prefix_of_clash h x y hcovers.text_le

theorem length_parts (p : Text) : (parts p).length = p.count '/' + 1 := by
  induction p with
  | nil => rfl
  | cons c p ih =>
    rw [parts] at ih ⊢
    rw [List.splitOn_cons_eq_if_modifyHead]
    by_cases hc : c = '/'
    · simp [hc, ih]
    · simp [hc, ih]

/-- One path of the other's depth covers it only if it is the other. -/
theorem Covers.eq_of_count {p q : Text} (h : Covers p q) (hcount : p.count '/' = q.count '/') : p = q :=
  h.eq_of_depth (by rw [length_parts, length_parts, hcount])

theorem rstrip_of_last {p : Text} (h : p.getLast? ≠ some '/') : rstrip p = p := by
  rw [rstrip, List.rdropWhile_eq_self_iff]
  intro hne
  simpa [List.getLast?_eq_some_getLast hne] using h

theorem rstrip_append_slash {p : Text} (h : p.getLast? ≠ some '/') : rstrip (p ++ ['/']) = p := by
  rw [rstrip, List.rdropWhile_concat_pos _ _ _ (by simp)]
  exact rstrip_of_last h

end Py.Path

namespace PackageMatrix

open Py Path

/-! ## The trees of the packages -/

/-- The trees of one package: the release stands between two fixed texts. -/
inductive Tree where
  | headers
  | kbuild
  | kbuild_source
  | config
  | system_map
  | vmlinuz
  | builtin
  | modinfo
  | order
  | kernel
  | build
  | source
deriving DecidableEq

namespace Tree

instance : Fintype Tree where
  elems := ⟨[headers, kbuild, kbuild_source, config, system_map, vmlinuz, builtin, modinfo, order, kernel, build, source], by decide⟩
  complete := by
    intro t
    cases t <;> decide

def before : Tree → String
  | headers => "usr/src/linux-headers-"
  | kbuild => "usr/lib/linux-kbuild-"
  | kbuild_source => "usr/src/linux-kbuild-"
  | config => "boot/config-"
  | system_map => "boot/System.map-"
  | vmlinuz => "boot/vmlinuz-"
  | _ => "usr/lib/modules/"

def after : Tree → String
  | builtin => "/modules.builtin"
  | modinfo => "/modules.builtin.modinfo"
  | order => "/modules.order"
  | kernel => "/kernel"
  | build => "/build"
  | source => "/source"
  | _ => ""

/-- The role of the package in its name. -/
def role : Tree → String
  | headers => "headers"
  | kbuild => "kbuild"
  | kbuild_source => "kbuild"
  | config => "base"
  | system_map => "base"
  | vmlinuz => "binary"
  | builtin => "base"
  | modinfo => "base"
  | order => "base"
  | kernel => "modules"
  | build => "headers"
  | source => "headers"

def path (t : Tree) (release : Text) : Text := t.before.toList ++ (release ++ t.after.toList)

def package (t : Tree) (release : Text) : Text := versioned t.role release

theorem before_clash : ∀ t u : Tree, t.before = u.before ∨ clash t.before.toList u.before.toList = true := by decide +kernel

theorem after_count : ∀ t u : Tree, t.before = u.before → t.after.toList.count '/' = u.after.toList.count '/' := by
  decide +kernel

theorem role_eq : ∀ t u : Tree, t.before = u.before → t.after.toList = u.after.toList → t.role = u.role := by decide +kernel

theorem after_head : ∀ t : Tree, t.after.toList.takeWhile (· ≠ '/') = [] := by decide +kernel

theorem before_last : ∀ t : Tree, t.after.toList.getLast? = none → t.before.toList.getLast? ≠ some '/' := by decide +kernel

theorem after_last : ∀ t : Tree, t.after.toList.getLast? ≠ some '/' := by decide +kernel

theorem share_clash : ∀ t : Tree, clash "usr/share".toList t.before.toList = true ∧
    clash t.before.toList "usr/share".toList = true := by decide +kernel

theorem release_inj {t u : Tree} {x y : Text} (hx : '/' ∉ x) (hy : '/' ∉ y) (h : x ++ t.after.toList = y ++ u.after.toList) :
    x = y ∧ t.after.toList = u.after.toList := by
  have htake : ∀ (v : Tree) (z : Text), '/' ∉ z → (z ++ v.after.toList).takeWhile (· ≠ '/') = z := by
    intro v z hz
    have hplain : ∀ c ∈ z, decide (c ≠ '/') = true := by
      intro c hc
      simpa using fun hslash : c = '/' => hz (hslash ▸ hc)
    rw [List.takeWhile_append_of_pos hplain, after_head v, List.append_nil]
  have hxy : x = y := by rw [← htake t x hx, h, htake u y hy]
  subst hxy
  exact ⟨rfl, List.append_cancel_left h⟩

/-- **A tree is above no tree of another package.** -/
theorem package_of_covers {t u : Tree} {x y : Text} (hx : '/' ∉ x) (hy : '/' ∉ y) (h : Covers (t.path x) (u.path y)) :
    t.package x = u.package y := by
  rcases before_clash t u with hbefore | hclash
  · have hcount : (t.path x).count '/' = (u.path y).count '/' := by
      simp only [path, List.count_append, List.count_eq_zero_of_not_mem hx, List.count_eq_zero_of_not_mem hy, hbefore,
        after_count t u hbefore]
    have hpath := h.eq_of_count hcount
    rw [path, path, hbefore] at hpath
    obtain ⟨rfl, hafter⟩ := release_inj hx hy (List.append_cancel_left hpath)
    rw [package, package, role_eq t u hbefore hafter]
  · exact absurd h (not_covers_of_clash hclash _ _)

end Tree

/-! ## Roots of the areas -/

def share : Text := "usr/share".toList

/-- The roots of the areas of a package. -/
inductive Root : Text → Text → Prop where
  | share (package : Text) : Root package share
  | tree (t : Tree) {release : Text} (h : '/' ∉ release) : Root (t.package release) (t.path release)

theorem share_apart (t : Tree) (release : Text) : ¬Covers share (t.path release) ∧ ¬Covers (t.path release) share := by
  constructor
  · have hnot := not_covers_of_clash t.share_clash.1 [] (release ++ t.after.toList)
    rwa [List.append_nil] at hnot
  · have hnot := not_covers_of_clash t.share_clash.2 (release ++ t.after.toList) []
    rwa [List.append_nil] at hnot

/-- **Roots of two packages are apart, `usr/share` excepted.** -/
theorem roots_apart {a b x y : Text} (hx : Root a x) (hy : Root b y) (h : Covers x y ∨ Covers y x) :
    a = b ∨ x = share ∧ y = share := by
  cases hx with
  | share =>
    cases hy with
    | share => exact .inr ⟨rfl, rfl⟩
    | tree t => exact (h.elim (share_apart t _).1 (share_apart t _).2).elim
  | tree t ht =>
    cases hy with
    | share => exact (h.elim (share_apart t _).2 (share_apart t _).1).elim
    | tree u hu => exact .inl (h.elim (Tree.package_of_covers ht hu) fun h => (Tree.package_of_covers hu ht h).symm)

theorem Root.last {package root : Text} (h : Root package root) : root.getLast? ≠ some '/' := by
  cases h with
  | share => decide +kernel
  | @tree t release ht =>
    have hrelease : release.getLast? ≠ some '/' := fun hlast => ht (List.mem_of_getLast? hlast)
    rw [Tree.path, List.getLast?_append, List.getLast?_append]
    cases hafter : t.after.toList.getLast? with
    | some c =>
      have hlast := t.after_last
      rw [hafter] at hlast
      simpa using hlast
    | none =>
      cases hname : release.getLast? with
      | some c =>
        rw [hname] at hrelease
        simpa using hrelease
      | none => simpa using t.before_last hafter

/-! ## The areas -/

/-- A root, as it stands in `allowed`. -/
def IsArea (package area : Text) : Prop :=
  ∃ root, Root package root ∧ (area = root ++ ['/'] ∨ area = root ∧ root ≠ share)

theorem IsArea.share (package : Text) : IsArea package "usr/share/".toList :=
  ⟨_, .share package, .inl (by decide +kernel)⟩

theorem IsArea.tree (t : Tree) {release package area : Text} (h : '/' ∉ release) (hpackage : package = t.package release)
    (harea : area = t.path release ∨ area = t.path release ++ ['/']) : IsArea package area := by
  subst hpackage
  refine ⟨_, .tree t h, harea.symm.imp_right fun harea => ⟨harea, fun hshare => ?_⟩⟩
  exact (share_apart t release).1 (.inl hshare.symm)

theorem release_areas_roots {flavor krel package area : Text} {list : List Text} (hslash : '/' ∉ krel)
    (hrow : (package, list) ∈ release_areas flavor krel) (harea : area ∈ list) : IsArea package area := by
  simp only [release_areas, List.mem_cons, List.not_mem_nil, or_false, Prod.mk.injEq] at hrow
  rcases hrow with ⟨rfl, rfl⟩ | ⟨rfl, rfl⟩ | ⟨rfl, rfl⟩ | ⟨rfl, rfl⟩ | ⟨rfl, rfl⟩ | ⟨rfl, rfl⟩ | ⟨rfl, rfl⟩ | ⟨rfl, rfl⟩ <;>
    simp only [List.mem_cons, List.not_mem_nil, or_false] at harea
  · rcases harea with rfl | rfl | rfl | rfl | rfl | rfl
    · exact .share _
    · exact .tree .config hslash rfl (.inl (by simp [Tree.path, Tree.before, Tree.after]))
    · exact .tree .system_map hslash rfl (.inl (by simp [Tree.path, Tree.before, Tree.after]))
    · exact .tree .builtin hslash rfl (.inl (by simp [Tree.path, Tree.before, Tree.after]))
    · exact .tree .modinfo hslash rfl (.inl (by simp [Tree.path, Tree.before, Tree.after]))
    · exact .tree .order hslash rfl (.inl (by simp [Tree.path, Tree.before, Tree.after]))
  · rcases harea with rfl | rfl
    · exact .share _
    · exact .tree .vmlinuz hslash rfl (.inl (by simp [Tree.path, Tree.before, Tree.after]))
  · rcases harea with rfl | rfl
    · exact .share _
    · exact .tree .kernel hslash rfl (.inr (by simp [Tree.path, Tree.before, Tree.after]))
  · exact harea ▸ .share _
  · rcases harea with rfl | rfl | rfl | rfl
    · exact .share _
    · exact .tree .headers hslash rfl (.inr (by simp [Tree.path, Tree.before, Tree.after]))
    · exact .tree .build hslash rfl (.inl (by simp [Tree.path, Tree.before, Tree.after]))
    · exact .tree .source hslash rfl (.inl (by simp [Tree.path, Tree.before, Tree.after]))
  · exact harea ▸ .share _
  · exact harea ▸ .share _
  · exact harea ▸ .share _

theorem headers_common_package (abi : Text) : headers_common abi = versioned "headers" (abi ++ "-common".toList) := by
  have hname : "dkc-linux-headers-".toList = "dkc-linux-".toList ++ "headers".toList ++ ['-'] := by decide +kernel
  unfold headers_common versioned
  rw [hname]
  simp only [List.append_assoc, List.cons_append, List.nil_append]

theorem kbuild_package (abi : Text) : kbuild abi = versioned "kbuild" abi := by
  have hname : "dkc-linux-kbuild-".toList = "dkc-linux-".toList ++ "kbuild".toList ++ ['-'] := by decide +kernel
  unfold kbuild versioned
  rw [hname]
  simp only [List.append_assoc, List.cons_append, List.nil_append]

theorem areas_roots {abi package area : Text} {releases : List (Text × Text)} {list : List Text} (habi : '/' ∉ abi)
    (hreleases : ∀ release ∈ releases, '/' ∉ release.2) (hrow : (package, list) ∈ areas abi releases) (harea : area ∈ list) :
    IsArea package area := by
  simp only [areas, List.mem_cons, List.mem_flatMap, Prod.mk.injEq] at hrow
  rcases hrow with ⟨rfl, rfl⟩ | ⟨rfl, rfl⟩ | ⟨release, hrelease, hrow⟩
  · simp only [List.mem_cons, List.not_mem_nil, or_false] at harea
    have hslash : '/' ∉ abi ++ "-common".toList := by simpa using habi
    rcases harea with rfl | rfl
    · exact .share _
    · exact .tree .headers hslash (headers_common_package abi) (.inr (by simp [Tree.path, Tree.before, Tree.after]))
  · simp only [List.mem_cons, List.not_mem_nil, or_false] at harea
    rcases harea with rfl | rfl | rfl
    · exact .share _
    · exact .tree .kbuild habi (kbuild_package abi) (.inr (by simp [Tree.path, Tree.before, Tree.after]))
    · exact .tree .kbuild_source habi (kbuild_package abi) (.inl (by simp [Tree.path, Tree.before, Tree.after]))
  · exact release_areas_roots (hreleases release hrelease) hrow harea

theorem allowed_roots {abi package area : Text} {releases : List (Text × Text)} (habi : '/' ∉ abi)
    (hreleases : ∀ release ∈ releases, '/' ∉ release.2) (h : area ∈ (allowed abi releases package).getD []) :
    IsArea package area := by
  unfold allowed at h
  cases hrow : (areas abi releases).reverse.lookup package with
  | none =>
    rw [hrow] at h
    cases h
  | some list =>
    rw [hrow] at h
    exact areas_roots habi hreleases (List.mem_reverse.1 (mem_of_lookup hrow)) h

/-! ## What an area accepts -/

/-- The record lies in the area, or is a directory above it. -/
theorem covers_of_accepts {package area : Text} {record : Record} (harea : IsArea package area)
    (h : accepts record area = true) : ∃ root, Root package root ∧
      (record.kind ≠ .directory → Covers root record.path ∧ (root = share → inside share record.path = true)) ∧
      (Covers root record.path ∨ Covers record.path root) := by
  obtain ⟨root, hroot, hform⟩ := harea
  have hlast := hroot.last
  have htree : in_tree area record.path = true → inside root record.path = true := by
    intro hin
    rw [in_tree, Bool.and_eq_true, decide_eq_true_eq] at hin
    rcases hform with rfl | ⟨rfl, -⟩
    · exact hin.2
    · exact absurd hin.1 hlast
  have hstrip : rstrip area = root := by
    rcases hform with rfl | ⟨rfl, -⟩
    · exact rstrip_append_slash hlast
    · exact rstrip_of_last hlast
  refine ⟨root, hroot, ?_, ?_⟩
  · intro hkind
    rw [accepts, if_neg hkind, Bool.or_eq_true, decide_eq_true_eq] at h
    rcases h with hpath | hin
    · rcases hform with rfl | ⟨rfl, hshare⟩
      · have hin : inside root record.path = true := inside_iff.2 ⟨[], hpath⟩
        exact ⟨.inr hin, fun h => h ▸ hin⟩
      · exact ⟨.inl hpath.symm, fun h => absurd h hshare⟩
    · exact ⟨.inr (htree hin), fun h => h ▸ htree hin⟩
  · unfold accepts at h
    split at h
    · simp only [Bool.or_eq_true, decide_eq_true_eq, hstrip] at h
      rcases h with (hpath | habove) | hin
      · exact .inl (.inl hpath)
      · exact .inr (.inr habove)
      · exact .inl (.inr (htree hin))
    · simp only [Bool.or_eq_true, decide_eq_true_eq] at h
      rcases h with hpath | hin
      · rcases hform with rfl | ⟨rfl, -⟩
        · exact .inl (.inr (inside_iff.2 ⟨[], hpath⟩))
        · exact .inl (.inl hpath.symm)
      · exact .inl (.inr (htree hin))

/-! ## Records of a package -/

theorem member_normal {member : TarInfo} {package : Text} {record : Record}
    (h : normalized_payload_member member package = .ok (some record)) : Normal record.path := by
  unfold normalized_payload_member at h
  generalize (if starts member.name "./" = true then member.name.drop 2 else member.name) = raw at h
  by_cases hroot : (raw = [] ∨ raw = ['.']) ∧ member.type = .dir
  · simp only [hroot, and_self, if_true] at h
    cases h
  simp only [if_neg hroot, except_check_eq_ok] at h
  obtain ⟨hraw, hescapes, h⟩ := h
  have hpath : record.path = normpath raw := by
    cases htype : member.type with
    | dir =>
      simp only [htype, except_check_eq_ok, Except.ok.injEq, Option.some.injEq] at h
      exact h.2 ▸ rfl
    | file =>
      simp only [htype, except_check_eq_ok, Except.ok.injEq, Option.some.injEq] at h
      exact h.2 ▸ rfl
    | sym =>
      simp only [htype, except_raise_eq_ok, except_pure, Except.ok.injEq, Option.some.injEq] at h
      exact h.2.2 ▸ rfl
    | lnk =>
      simp only [htype, except_raise_eq_ok, except_pure, Except.ok.injEq, Option.some.injEq] at h
      exact h.2.2 ▸ rfl
    | special =>
      simp only [htype] at h
      cases h
  rw [hpath]
  refine normpath_normal (fun habsolute => hraw (.inr (.inl habsolute))) (fun hup => hraw (.inr (.inr (.inl hup)))) ?_
  intro hdot
  simp [escapes, hdot] at hescapes

theorem payload_records_normal {filename : Text} {members : List TarInfo} {records : List Record}
    (h : payload_records filename members = .ok records) : ∀ record ∈ records, Normal record.path := by
  obtain ⟨result, hfold, h⟩ := except_bind_eq_ok.1 h
  have hresult : ∀ record ∈ result, Normal record.path := by
    refine except_foldlM_keeps (P := fun records => ∀ record ∈ records, Normal record.path) ?_ (by simp) hfold
    intro records member records' hrecords hstep
    obtain ⟨found, hfound, hstep⟩ := except_bind_eq_ok.1 hstep
    cases found with
    | none =>
      cases hstep
      exact hrecords
    | some record =>
      obtain ⟨-, hstep⟩ := except_raise_eq_ok.1 hstep
      cases hstep
      intro r hr
      rcases List.mem_append.1 hr with hr | hr
      · exact hrecords r hr
      · exact List.mem_singleton.1 hr ▸ member_normal hfound
  cases hdangling : result.find? (dangling result) with
  | some record =>
    rw [hdangling] at h
    cases h
  | none =>
    rw [hdangling] at h
    cases h
    intro record hrecord
    exact hresult record ((List.perm_insertionSort _ result).mem_iff.1 hrecord)

/-! ## The collection -/

structure Collects (c : Collected) : Prop where
  /-- `package_payloads` has no package twice. -/
  nodup : (c.package_payloads.map (·.1)).Nodup
  packages : c.package_payloads.map (·.1) = c.all_packages.map (·.package)
  owned : ∀ x ∈ c.package_payloads, ∀ r ∈ x.2, r.kind ≠ .directory → (r.path, x.1) ∈ c.payload_owners
  normal : ∀ x ∈ c.package_payloads, ∀ r ∈ x.2, Normal r.path

theorem collect_deb_keeps {abi flavor : Text} {c c' : Collected} {deb : Deb} (hc : Collects c)
    (h : collect_deb abi flavor c deb = .ok c') : Collects c' := by
  unfold collect_deb at h
  cases hfind : c.all_packages.find? (·.package = deb.package) with
  | some canonical =>
    rw [hfind] at h
    simp only [except_check_eq_ok, Except.ok.injEq] at h
    exact h.2.2.2 ▸ hc
  | none =>
    rw [hfind] at h
    obtain ⟨records, hrecords, h⟩ := except_bind_eq_ok.1 h
    obtain ⟨-, h⟩ := except_raise_eq_ok.1 h
    cases h
    have hnew : deb.package ∉ c.package_payloads.map (·.1) := by
      rw [hc.packages, List.mem_map]
      rintro ⟨d, hd, hpackage⟩
      simpa [hpackage] using List.find?_eq_none.1 hfind d hd
    refine ⟨?_, ?_, ?_, ?_⟩
    · rw [List.map_append, List.nodup_append]
      refine ⟨hc.nodup, by simp, ?_⟩
      intro a ha b hb hab
      rw [List.map_cons, List.map_nil, List.mem_singleton] at hb
      rw [hab, hb] at ha
      exact hnew ha
    · rw [List.map_append, List.map_append, hc.packages]
      rfl
    · intro x hx r hr hkind
      rcases List.mem_append.1 hx with hx | hx
      · exact List.mem_append_left _ (hc.owned x hx r hr hkind)
      · cases List.mem_singleton.1 hx
        exact List.mem_append_right _ (List.mem_map.2 ⟨r, List.mem_filter.2 ⟨hr, by simpa using hkind⟩, rfl⟩)
    · intro x hx r hr
      rcases List.mem_append.1 hx with hx | hx
      · exact hc.normal x hx r hr
      · cases List.mem_singleton.1 hx
        exact payload_records_normal hrecords r hr

theorem collect_ok {abi : Text} {exports : List (Text × List Deb)} {c : Collected} (h : collect abi exports = .ok c) :
    Collects c := by
  have hempty : Collects .empty := ⟨List.nodup_nil, rfl, by simp [Collected.empty], by simp [Collected.empty]⟩
  refine except_foldlM_keeps (fun c flavor c' hc hrun => ?_) hempty h
  exact except_foldlM_keeps (fun c deb c' => collect_deb_keeps) hc hrun

/-- No path has two owners. -/
theorem owner_unique {owned : List (Text × Text)} (h : collisions owned = []) {path a b : Text} (ha : (path, a) ∈ owned)
    (hb : (path, b) ∈ owned) : a = b := by
  have hmem : path ∈ (owned.map (·.1)).dedup := List.mem_dedup.2 (List.mem_map.2 ⟨_, ha, rfl⟩)
  have hfew : (owners owned path).length ≤ 1 := by
    by_contra hmany
    have hcollision : path ∈ collisions owned := List.mem_filter.2 ⟨hmem, by simpa using hmany⟩
    rw [h] at hcollision
    cases hcollision
  have howner : ∀ {p}, (path, p) ∈ owned → p ∈ owners owned path := fun hp =>
    List.mem_map.2 ⟨_, List.mem_filter.2 ⟨hp, by simp⟩, rfl⟩
  have hsame : ∀ {l : List Text}, l.length ≤ 1 → a ∈ l → b ∈ l → a = b := by
    intro l hlength ha hb
    match l with
    | [] => cases ha
    | [x] => rw [List.mem_singleton.1 ha, List.mem_singleton.1 hb]
    | _ :: _ :: _ => simp at hlength
  exact hsame hfew (howner ha) (howner hb)

/-! ## Accepted packages -/

/-- Every record lies in an area of its package. -/
theorem accepted_record {payloads : List (Text × List Record)} {owned : List (Text × Text)} {abi : Text}
    {releases : List (Text × Text)} {btf_required : Bool}
    (h : validate_payload_layout payloads owned abi releases btf_required = .ok ()) {x : Text × List Record}
    (hx : x ∈ payloads) {r : Record} (hr : r ∈ x.2) :
    ∃ area ∈ (allowed abi releases x.1).getD [], accepts r area = true := by
  obtain ⟨-, -, h⟩ := except_bind_eq_ok.1 h
  obtain ⟨-, h⟩ := except_raise_eq_ok.1 h
  obtain ⟨-, -, h⟩ := except_bind_eq_ok.1 h
  obtain ⟨-, h⟩ := except_raise_eq_ok.1 h
  have hrecord := except_forM_ok (except_forM_ok h x hx) r hr
  simp only [List.any_eq_true] at hrecord
  split at hrecord
  · next hany => exact hany
  · cases hrecord

theorem Identity.slash (identity : Identity) : '/' ∉ identity.abi := by
  intro hmem
  have hvalid := identity.valid
  unfold is_abi at hvalid
  split at hvalid
  · cases hvalid
  · next c rest habi =>
    rw [habi] at hmem
    rw [Bool.and_eq_true, List.all_eq_true] at hvalid
    rcases List.mem_cons.1 hmem with rfl | hmem
    · exact absurd hvalid.1 (by decide)
    · exact absurd (hvalid.2 _ hmem) (by decide)

theorem Identity.releases_slash (identity : Identity) : ∀ release ∈ identity.releases, '/' ∉ release.2 := by
  intro release hrelease
  obtain ⟨flavor, hflavor, rfl⟩ := List.mem_map.1 hrelease
  have hplain : '/' ∉ flavor.toList := by
    rcases List.mem_pair.1 hflavor with rfl | rfl <;> decide +kernel
  have hmachine : '/' ∉ "-amd64".toList := by decide +kernel
  simp only [List.mem_append, List.mem_cons, not_or]
  exact ⟨⟨identity.slash, by decide, hplain⟩, hmachine⟩

/-- No two packages conflict on the file system. -/
structure Installable (payloads : List (Text × List Record)) : Prop where
  /-- A path of two packages is a directory of both. -/
  shared : ∀ x ∈ payloads, ∀ y ∈ payloads, x.1 ≠ y.1 → ∀ r ∈ x.2, ∀ s ∈ y.2, r.path = s.path →
    r.kind = .directory ∧ s.kind = .directory
  /-- A file or link is not at or above a path of another package. -/
  nested : ∀ x ∈ payloads, ∀ y ∈ payloads, x.1 ≠ y.1 → ∀ r ∈ x.2, ∀ s ∈ y.2, r.kind ≠ .directory → ¬Covers r.path s.path

/-- Below `usr/share/`, no file or link is a directory of another package, or above a path of another package. -/
def ShareClear (payloads : List (Text × List Record)) : Prop :=
  ∀ x ∈ payloads, ∀ y ∈ payloads, x.1 ≠ y.1 → ∀ r ∈ x.2, ∀ s ∈ y.2, r.kind ≠ .directory → inside share r.path = true →
    (s.kind = .directory → r.path ≠ s.path) ∧ inside r.path s.path = false

/-- What the audit accepted. -/
structure Audited (payloads : List (Text × List Record)) : Prop where
  nodup : (payloads.map (·.1)).Nodup
  normal : ∀ x ∈ payloads, ∀ r ∈ x.2, Normal r.path
  /-- Files and links of two packages are at different paths. -/
  apart : ∀ x ∈ payloads, ∀ y ∈ payloads, x.1 ≠ y.1 → ∀ r ∈ x.2, ∀ s ∈ y.2, r.kind ≠ .directory → s.kind ≠ .directory →
    r.path ≠ s.path
  /-- A file or link at or above a path of another package lies below `usr/share/`. -/
  own_trees : ∀ x ∈ payloads, ∀ y ∈ payloads, x.1 ≠ y.1 → ∀ r ∈ x.2, ∀ s ∈ y.2, r.kind ≠ .directory →
    Covers r.path s.path → inside share r.path = true

theorem audit_payloads_ok {identity : Identity} {btf_required : Bool} {exports : List (Text × List Deb)}
    {payloads : List (Text × List Record)} (h : audit_payloads identity btf_required exports = .ok payloads) :
    Audited payloads := by
  obtain ⟨c, hcollect, h⟩ := except_bind_eq_ok.1 h
  obtain ⟨hcollisions, h⟩ := except_raise_eq_ok.1 h
  obtain ⟨_, hlayout, h⟩ := except_bind_eq_ok.1 h
  obtain ⟨-, -, h⟩ := except_bind_eq_ok.1 h
  cases h
  have hc := collect_ok hcollect
  refine ⟨hc.nodup, hc.normal, ?_, ?_⟩
  · intro x hx y hy hne r hr s hs hrkind hskind hpath
    have howned := hc.owned y hy s hs hskind
    rw [← hpath] at howned
    exact hne (owner_unique (not_not.1 hcollisions) (hc.owned x hx r hr hrkind) howned)
  · intro x hx y hy hne r hr s hs hkind hcovers
    obtain ⟨area, harea, haccepts⟩ := accepted_record hlayout hx hr
    obtain ⟨area', harea', haccepts'⟩ := accepted_record hlayout hy hs
    obtain ⟨root, hroot, hfile, -⟩ :=
      covers_of_accepts (allowed_roots identity.slash identity.releases_slash harea) haccepts
    obtain ⟨root', hroot', -, hrelated⟩ :=
      covers_of_accepts (allowed_roots identity.slash identity.releases_slash harea') haccepts'
    obtain ⟨hbelow, hshare⟩ := hfile hkind
    have habove : Covers root s.path := hbelow.trans hcovers
    -- both roots are on the branch of `s`, or the other root is below `s`
    have hcomparable : Covers root root' ∨ Covers root' root :=
      hrelated.elim (covers_or_covers habove) fun hunder => .inl (habove.trans hunder)
    rcases roots_apart hroot hroot' hcomparable with hsame | ⟨heq, -⟩
    · exact absurd hsame hne
    · exact hshare heq

theorem installable_iff {identity : Identity} {btf_required : Bool} {exports : List (Text × List Deb)}
    {payloads : List (Text × List Record)} (h : audit_payloads identity btf_required exports = .ok payloads) :
    Installable payloads ↔ ShareClear payloads := by
  have haudited := audit_payloads_ok h
  constructor
  · intro hinstall x hx y hy hne r hr s hs hkind hshare
    have hnot := hinstall.nested x hx y hy hne r hr s hs hkind
    refine ⟨fun _ hpath => hnot (.inl hpath), ?_⟩
    rw [Bool.eq_false_iff]
    exact fun hinside => hnot (.inr hinside)
  · intro hclear
    have hnested : ∀ x ∈ payloads, ∀ y ∈ payloads, x.1 ≠ y.1 → ∀ r ∈ x.2, ∀ s ∈ y.2, r.kind ≠ .directory →
        ¬Covers r.path s.path := by
      intro x hx y hy hne r hr s hs hkind hcovers
      have hshare := haudited.own_trees x hx y hy hne r hr s hs hkind hcovers
      obtain ⟨hdirectory, hinside⟩ := hclear x hx y hy hne r hr s hs hkind hshare
      rcases hcovers with hpath | habove
      · by_cases hskind : s.kind = .directory
        · exact hdirectory hskind hpath
        · exact haudited.apart x hx y hy hne r hr s hs hkind hskind hpath
      · rw [hinside] at habove
        cases habove
    refine ⟨?_, hnested⟩
    intro x hx y hy hne r hr s hs hpath
    by_contra hkinds
    rcases not_and_or.1 hkinds with hkind | hkind
    · exact hnested x hx y hy hne r hr s hs hkind (.inl hpath)
    · exact hnested y hy x hx (Ne.symm hne) s hs r hr hkind (.inl hpath.symm)

/-! ## A matrix with a conflict -/

namespace Sample

def abi : Text := ['6']

def identity : Identity := ⟨abi, by decide⟩

def file (name : Text) : TarInfo := ⟨name, .file, 0o644, 1, []⟩

def link (name target : Text) : TarInfo := ⟨name, .sym, 0o777, 0, target⟩

def deb (package : Text) (members : List TarInfo) : Deb := ⟨package, 1, [], package, [], members⟩

def doc (package : Text) : Text := "usr/share/doc/".toList ++ package

/-- A package with the documentation of the common headers. -/
def linked (package : Text) (members : List TarInfo) : Deb := deb package (link (doc package) (headers_common abi) :: members)

def common : Deb := deb (headers_common abi)
  [⟨doc (headers_common abi), .dir, 0o755, 0, []⟩, file (doc (headers_common abi) ++ "/copyright".toList),
    file "usr/src/linux-headers-6-common/Makefile".toList,
    link "usr/src/linux-headers-6-common/scripts".toList "../../lib/linux-kbuild-6/scripts".toList,
    link "usr/src/linux-headers-6-common/tools".toList "../../lib/linux-kbuild-6/tools".toList]

def tools : Deb := linked (kbuild abi)
  [file "usr/lib/linux-kbuild-6/scripts/fixdep".toList, file "usr/lib/linux-kbuild-6/tools/objtool".toList,
    link "usr/src/linux-kbuild-6".toList "../lib/linux-kbuild-6".toList]

/-- The headers meta package has a file below the documentation link of the image meta package. -/
def flavor_debs (flavor krel : Text) : List Deb :=
  let modules := "usr/lib/modules/".toList ++ krel
  let headers := "usr/src/linux-headers-".toList ++ krel
  [linked (versioned "base" krel) [file ("boot/config-".toList ++ krel), file ("boot/System.map-".toList ++ krel)],
    linked (versioned "binary" krel) [file ("boot/vmlinuz-".toList ++ krel)],
    linked (versioned "modules" krel) [file (modules ++ "/kernel/loop.ko".toList)],
    linked (versioned "image" krel) [],
    linked (versioned "headers" krel) [file (headers ++ "/.kernelvariables".toList), file (headers ++ "/Makefile".toList),
      file (headers ++ "/Module.symvers".toList), link (modules ++ "/build".toList) ("../../../src/linux-headers-".toList ++ krel),
      link (modules ++ "/source".toList) "../../../src/linux-headers-6-common".toList],
    linked (meta_package "base" flavor) [],
    linked (meta_package "image" flavor) [],
    linked (meta_package "headers" flavor) [file (doc (meta_package "image" flavor) ++ "/changelog".toList)]]

def exports : List (Text × List Deb) :=
  [("v2".toList, common :: tools :: flavor_debs "v2".toList "6-v2-amd64".toList),
    ("v3".toList, common :: tools :: flavor_debs "v3".toList "6-v3-amd64".toList)]

/-- The image meta package has a file or link above a path of the headers meta package. -/
def conflict (payloads : List (Text × List Record)) : Bool :=
  match payloads.lookup (meta_package "image" "v2".toList), payloads.lookup (meta_package "headers" "v2".toList) with
  | some above, some below => above.any fun r => r.kind ≠ .directory && below.any fun s => inside r.path s.path
  | _, _ => false

theorem accepted_conflict :
    (audit_payloads identity false exports).toOption.any conflict = true := by decide +kernel

theorem accepted : ∃ payloads, audit_payloads identity false exports = .ok payloads ∧ conflict payloads = true := by
  have h := accepted_conflict
  cases haudit : audit_payloads identity false exports with
  | error e =>
    rw [haudit] at h
    cases h
  | ok payloads =>
    rw [haudit] at h
    exact ⟨payloads, rfl, h⟩

end Sample

theorem installable_sample : ∃ payloads, audit_payloads Sample.identity false Sample.exports = .ok payloads ∧
    (Installable payloads ↔ ShareClear payloads) := by
  obtain ⟨payloads, haudit, -⟩ := Sample.accepted
  exact ⟨payloads, haudit, installable_iff haudit⟩

/-- Eighteen packages are accepted, and two of them cannot be installed together. -/
theorem accepted_not_installable : ¬∀ (identity : Identity) (btf_required : Bool) (exports : List (Text × List Deb))
    (payloads : List (Text × List Record)), audit_payloads identity btf_required exports = .ok payloads →
      Installable payloads := by
  intro h
  obtain ⟨payloads, haudit, hconflict⟩ := Sample.accepted
  have hinstall := h Sample.identity false Sample.exports payloads haudit
  unfold Sample.conflict at hconflict
  split at hconflict
  · next above below hx hy =>
    simp only [List.any_eq_true, Bool.and_eq_true, decide_eq_true_eq] at hconflict
    obtain ⟨r, hr, hkind, s, hs, hinside⟩ := hconflict
    have hne : meta_package "image" "v2".toList ≠ meta_package "headers" "v2".toList := by decide +kernel
    exact hinstall.nested _ (mem_of_lookup hx) _ (mem_of_lookup hy) hne r hr s hs hkind (.inr hinside)
  · cases hconflict

end PackageMatrix
