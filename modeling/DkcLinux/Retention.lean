import DkcLinux.VersionOrder
import DkcLinux.Order.Grouping

/-!
# Package-pool retention (`dkc/retention.py`)

The newest `max_series` series are selected. Under a byte limit whole patch releases are then
removed, oldest first, but never the newest one of a series.
-/

open Py

namespace DebianVersion

/-- `series`: the match cannot fail, because an upstream version starts with a digit. -/
def series (v : DebianVersion) : ℕ ×ₗ ℕ :=
  let digits := v.upstream.toList.takeWhile isAsciiDigit
  let minor := match v.upstream.toList.dropWhile isAsciiDigit with
    | '.' :: rest => rest.takeWhile isAsciiDigit
    | _ => []
  toLex (Debver.number digits, Debver.number minor)

end DebianVersion

/-- An epoch and an upstream version. -/
structure PatchRelease where
  epoch : Nat
  upstream_release : String
  upstream_valid : Debver.isUpstream upstream_release.toList = true
  colon_epoch : ':' ∈ upstream_release.toList → epoch ≠ 0

instance : DecidableEq PatchRelease := fun a b =>
  decidable_of_iff (a.epoch = b.epoch ∧ a.upstream_release = b.upstream_release) (by rw [PatchRelease.mk.injEq])

/-- `patch_release` of a version. -/
def DebianVersion.patch_release (v : DebianVersion) : PatchRelease :=
  ⟨v.epoch, v.upstream, v.upstream_valid, v.colon_epoch⟩

/-- `_release_version`. -/
def PatchRelease.release_version (r : PatchRelease) : DebianVersion where
  epoch := r.epoch
  upstream := r.upstream_release
  revision := ""
  raw := if r.epoch ≠ 0 then toString r.epoch ++ ":" ++ r.upstream_release else r.upstream_release
  upstream_valid := r.upstream_valid
  revision_valid := rfl
  colon_epoch := r.colon_epoch

structure PoolObjectFields where
  key : String
  version : DebianVersion
  size : Int

/-- `PoolObject.__post_init__`. -/
def PoolObjectFields.post_init (o : PoolObjectFields) : Except PyErr Unit := do
  if o.key = "" || startswith o.key "/" || endswith o.key "/" then
    throw (.ValueError "retention object key is unsafe")
  if o.size < 0 then
    throw (.ValueError "retention object size must not be negative")

structure PoolObject extends PoolObjectFields where
  valid : toPoolObjectFields.post_init = .ok ()

namespace PoolObject

def make (o : PoolObjectFields) : Except PyErr PoolObject :=
  match h : o.post_init with
  | .ok () => .ok ⟨o, h⟩
  | .error e => .error e

def series (o : PoolObject) : ℕ ×ₗ ℕ := o.version.series

def patch_release (o : PoolObject) : PatchRelease := o.version.patch_release

end PoolObject

inductive Retention.RetentionMode where
  | series
  | series_size
  | other (mode : String)
deriving DecidableEq

structure RetentionFields where
  mode : Retention.RetentionMode
  retained_keys : List String
  retained_series : List (ℕ ×ₗ ℕ)
  retained_patch_releases : List PatchRelease
  retained_bytes : Int
  fixed_bytes : Int
  max_bytes : Option Int

/-- `RetentionDecision.__post_init__`. -/
def RetentionFields.post_init (d : RetentionFields) : Except PyErr Unit := do
  if d.retained_bytes < d.fixed_bytes || d.fixed_bytes < 0 then
    throw (.ValueError "retention byte accounting is inconsistent")
  match d.mode, d.max_bytes with
  | .series, none => return
  | .series, some _ => throw (.ValueError "series retention must not carry a byte limit")
  | .series_size, none => throw (.ValueError "series-size retention requires a positive byte limit")
  | .series_size, some limit =>
    if limit < 1 then
      throw (.ValueError "series-size retention requires a positive byte limit")
    if d.retained_bytes > limit then
      throw (.ValueError "retention decision exceeds its byte limit")
  | .other _, _ => throw (.ValueError "unknown retention mode")

structure RetentionDecision extends RetentionFields where
  valid : toRetentionFields.post_init = .ok ()

def RetentionDecision.make (d : RetentionFields) : Except PyErr RetentionDecision :=
  match h : d.post_init with
  | .ok () => .ok ⟨d, h⟩
  | .error e => .error e

namespace Retention

open Grouping

/-- `a < b` under `key=_release_version`. -/
def older (a b : PatchRelease) : Bool := Debver.compare a.release_version b.release_version < 0

/-- The limit fits the mode. -/
def checkLimit (mode : RetentionMode) (max_bytes : Option Int) : Except PyErr Unit :=
  match mode, max_bytes with
  | .series, none => .ok ()
  | .series, some _ => .error (.ValueError "series retention does not accept a byte limit")
  | .series_size, none => .error (.ValueError "series-size retention requires a positive byte limit")
  | .series_size, some limit =>
    if limit < 1 then .error (.ValueError "series-size retention requires a positive byte limit") else .ok ()
  | .other _, _ => .error (.ValueError "unknown retention mode")

/-- The checks of the arguments. -/
def checkArguments (values : List PoolObject) (mode : RetentionMode) (max_bytes : Option Int)
    (fixed_bytes max_series : Int) : Except PyErr Unit := do
  if max_series < 1 then
    throw (.ValueError "retention series limit must be positive")
  if fixed_bytes < 0 then
    throw (.ValueError "fixed retention bytes must not be negative")
  if ¬ (values.map (·.key)).Nodup then
    throw (.ValueError "retention inventory repeats an object key")
  checkLimit mode max_bytes
  if values = [] then
    throw (.ValueError "kernel package pool is empty")

/-- `retained_series`. -/
def retainedSeries (values : List PoolObject) (max_series : Nat) : List (ℕ ×ₗ ℕ) :=
  ((values.map (·.series)).dedup.insertionSort (· ≥ ·)).take max_series

/-- `selected`, before the byte limit. -/
def selected (values : List PoolObject) (max_series : Nat) : List PoolObject :=
  values.filter fun item => item.series ∈ retainedSeries values max_series

/-- `releases`, of the selected objects. -/
def releases (selected : List PoolObject) : List (PatchRelease × List PoolObject) :=
  groupBy PoolObject.patch_release selected

/-- `members[0].series`, if every member has it. -/
def seriesOf : List PoolObject → Except PyErr (ℕ ×ₗ ℕ)
  | [] => .error (.KeyError "0")
  | member :: rest =>
    if rest.any fun other => other.series ≠ member.series then
      .error (.ValueError "one patch release spans multiple upstream series")
    else .ok member.series

/-- `releases_by_series`. -/
def releasesBySeries (groups : List (PatchRelease × List PoolObject)) :
    Except PyErr (List ((ℕ ×ₗ ℕ) × List PatchRelease)) := do
  let pairs ← groups.mapM fun group => do
    let series ← seriesOf group.2
    return (series, group.1)
  return (groupBy (·.1) pairs).map fun group => (group.1, group.2.map (·.2))

/-- `protected`: the newest patch release of each series. -/
def newest (groups : List ((ℕ ×ₗ ℕ) × List PatchRelease)) : List PatchRelease :=
  groups.filterMap fun group => maxBy older group.2

/-- `candidates`: the patch releases that may go, oldest first. -/
def candidates (groups : List (PatchRelease × List PoolObject)) (protected_ : List PatchRelease) :
    List (PatchRelease × List PoolObject) :=
  (groups.filter fun group => group.1 ∉ protected_).insertionSort fun a b => ¬ older b.1 a.1

/-- `selected.pop(item.key)` and `total -= item.size`. -/
def pop (item : PoolObject) (state : List PoolObject × Int) : List PoolObject × Int :=
  (state.1.filter fun other => other.key ≠ item.key, state.2 - item.size)

/-- One patch release is removed. -/
def removeRelease (release : PatchRelease × List PoolObject) (state : List PoolObject × Int) :
    List PoolObject × Int :=
  release.2.foldl (fun state item => pop item state) state

def totalSize (items : List PoolObject) : Int := (items.map (·.size)).sum

/-- The byte limit of `series-size`. -/
def fit (limit : Int) (candidates : List (PatchRelease × List PoolObject))
    (state : List PoolObject × Int) : Except PyErr (List PoolObject × Int) :=
  if state.2 > limit then
    let state := trim removeRelease (·.2) limit candidates state
    if state.2 > limit then
      .error (.ValueError "the newest patch release of every retained series exceeds the configured byte limit")
    else .ok state
  else .ok state

def applyLimit (mode : RetentionMode) (max_bytes : Option Int)
    (candidates : List (PatchRelease × List PoolObject)) (state : List PoolObject × Int) :
    Except PyErr (List PoolObject × Int) :=
  match mode, max_bytes with
  | .series_size, some limit => fit limit candidates state
  | _, _ => .ok state

/-- Every retained series has an object left. -/
def checkSeries (retained_series : List (ℕ ×ₗ ℕ)) (items : List PoolObject) : Except PyErr Unit :=
  if retained_series.any fun series => items.all fun item => item.series ≠ series then
    .error .AssertionError
  else .ok ()

/-- The patch releases that are left, newest first. -/
def remaining (selected : List PoolObject) : List PatchRelease :=
  (selected.map (·.patch_release)).dedup.insertionSort fun a b => ¬ older a b

/-- `select_retained_objects`. -/
def select_retained_objects (values : List PoolObject) (mode : RetentionMode) (max_bytes : Option Int)
    (fixed_bytes : Int := 0) (max_series : Int := 3) : Except PyErr RetentionDecision := do
  checkArguments values mode max_bytes fixed_bytes max_series
  let items := selected values max_series.toNat
  let bySeries ← releasesBySeries (releases items)
  let (left, total) ← applyLimit mode max_bytes (candidates (releases items) (newest bySeries))
    (items, fixed_bytes + totalSize items)
  checkSeries (retainedSeries values max_series.toNat) left
  RetentionDecision.make
    { mode := mode
      retained_keys := left.map (·.key)
      retained_series := retainedSeries values max_series.toNat
      retained_patch_releases := remaining left
      retained_bytes := total
      fixed_bytes := fixed_bytes
      max_bytes := max_bytes }

/-! ## The groups -/

theorem series_release (v : DebianVersion) : v.patch_release.release_version.series = v.series := rfl

theorem series_of_release {a b : PoolObject} (h : a.patch_release = b.patch_release) : a.series = b.series := by
  rw [PoolObject.series, PoolObject.series, ← series_release, ← series_release]
  exact congrArg (fun r => r.release_version.series) h

/-- The patch releases of a series, in the order they occur. -/
def bySeries (items : List PoolObject) : List ((ℕ ×ₗ ℕ) × List PatchRelease) :=
  groupBy (fun r => r.release_version.series) (keys (releases items))

/-- The check of the members of a patch release never fails. -/
theorem seriesOf_group {items : List PoolObject} {group : PatchRelease × List PoolObject}
    (h : group ∈ releases items) : seriesOf group.2 = .ok group.1.release_version.series := by
  obtain ⟨r, members⟩ := group
  obtain ⟨⟨o, ho, hr⟩, hmembers⟩ := mem_groupBy.1 h
  have hseries : ∀ m ∈ members, m.series = r.release_version.series := fun m hm => by
    rw [hmembers, List.mem_filter, decide_eq_true_eq] at hm
    rw [← hm.2]
    exact (series_release m.version).symm
  cases hm : members with
  | nil =>
    have : o ∈ members := by
      rw [hmembers, List.mem_filter]
      exact ⟨ho, decide_eq_true hr⟩
    rw [hm] at this
    exact absurd this List.not_mem_nil
  | cons m rest =>
    rw [hm] at hseries
    have hm := hseries m List.mem_cons_self
    have hrest : (rest.any fun other => other.series ≠ m.series) = false := by
      rw [List.any_eq_false]
      intro other hother
      simp [hseries other (List.mem_cons_of_mem _ hother), hm]
    rw [seriesOf, hrest, hm]
    rfl

theorem mapM_ok {α β : Type} {f : α → Except PyErr β} {g : α → β} : ∀ {xs : List α},
    (∀ x ∈ xs, f x = .ok (g x)) → xs.mapM f = .ok (xs.map g)
  | [], _ => rfl
  | x :: xs, h => by
    rw [List.mapM_cons, h x List.mem_cons_self, mapM_ok fun y hy => h y (List.mem_cons_of_mem _ hy)]
    rfl

theorem releasesBySeries_ok (items : List PoolObject) :
    releasesBySeries (releases items) = .ok (bySeries items) := by
  have hmap : (releases items).mapM (fun group => do
      let series ← seriesOf group.2
      return (series, group.1)) =
      Except.ok ((releases items).map fun group => (group.1.release_version.series, group.1)) :=
    mapM_ok fun group hgroup => by rw [seriesOf_group hgroup]; rfl
  have hkeys : ((releases items).map fun group => (group.1.release_version.series, group.1)) =
      (keys (releases items)).map fun r => (r.release_version.series, r) := by
    rw [keys, List.map_map]
    rfl
  rw [releasesBySeries, hmap, hkeys, except_ok_bind, groupBy_map, bySeries]
  simp [Function.comp_def]

/-! ## The newest releases -/

/-- Age is a linear order. -/
theorem older_iff (a b : PatchRelease) :
    older a b = true ↔ Debver.key a.release_version < Debver.key b.release_version := by
  rw [older, decide_eq_true_eq, Debver.compare_neg]

/-- No release of the series is newer, and none before it is as new. -/
def Newest (items : List PoolObject) (r : PatchRelease) : Prop :=
  maxBy older ((items.filter fun o => o.series = r.release_version.series).map PoolObject.patch_release) =
    some r

theorem mem_newest {items : List PoolObject} {r : PatchRelease} :
    r ∈ newest (bySeries items) ↔ Newest items r := by
  have hgroup : ∀ s : ℕ ×ₗ ℕ, maxBy older ((keys (releases items)).filter fun r => r.release_version.series = s) =
      maxBy older ((items.filter fun o => o.series = s).map PoolObject.patch_release) := fun s => by
    rw [releases, filter_keys_groupBy, maxBy_groupBy older_iff]
    rfl
  rw [newest, List.mem_filterMap, Newest, ← hgroup]
  constructor
  · rintro ⟨⟨s, rs⟩, hmem, hmax⟩
    obtain ⟨-, rfl⟩ := mem_groupBy.1 hmem
    dsimp only at hmax
    rcases maxBy_spec older_iff ((keys (releases items)).filter fun r => r.release_version.series = s) with
      ⟨-, hnone⟩ | ⟨b, hb, hbmem, -⟩
    · rw [hnone] at hmax
      cases hmax
    · rw [hb] at hmax
      cases hmax
      rw [List.mem_filter, decide_eq_true_eq] at hbmem
      rw [hbmem.2, hb]
  · intro hmax
    refine ⟨(r.release_version.series, _), mem_groupBy.2 ⟨?_, rfl⟩, hmax⟩
    rcases maxBy_spec older_iff ((keys (releases items)).filter fun q =>
      q.release_version.series = r.release_version.series) with ⟨-, hnone⟩ | ⟨b, hb, hbmem, -⟩
    · rw [hnone] at hmax
      cases hmax
    · rw [hb] at hmax
      cases hmax
      exact ⟨r, (List.mem_filter.1 hbmem).1, rfl⟩

/-- Every series has a newest release. -/
theorem newest_exists {items : List PoolObject} {o : PoolObject} (ho : o ∈ items) :
    ∃ n ∈ items, n.series = o.series ∧ Newest items n.patch_release := by
  have hne : o.patch_release ∈
      (items.filter fun p => p.series = o.series).map PoolObject.patch_release :=
    List.mem_map_of_mem (List.mem_filter.2 ⟨ho, by simp⟩)
  rcases maxBy_spec older_iff ((items.filter fun p => p.series = o.series).map PoolObject.patch_release) with
    ⟨hnil, -⟩ | ⟨b, hb, hbmem, -⟩
  · rw [hnil] at hne
    exact absurd hne List.not_mem_nil
  · obtain ⟨n, hn, rfl⟩ := List.mem_map.1 hbmem
    rw [List.mem_filter, decide_eq_true_eq] at hn
    refine ⟨n, hn.1, hn.2, ?_⟩
    rw [Newest, PoolObject.patch_release, series_release, ← PoolObject.series, hn.2]
    exact hb

/-! ## Removing releases -/

/-- What is left without some releases. -/
def rest (items : List PoolObject) (removed : List PatchRelease) : List PoolObject :=
  items.filter fun o => o.patch_release ∉ removed

theorem pop_all : ∀ (gone : List PoolObject) (items : List PoolObject) (total : Int),
    gone.foldl (fun state item => pop item state) (items, total) =
      (items.filter fun o => o.key ∉ gone.map (·.key), total - totalSize gone)
  | [], items, total => by simp [totalSize]
  | o :: gone, items, total => by
    rw [List.foldl_cons, pop, pop_all gone]
    refine Prod.ext ?_ ?_
    · rw [List.filter_filter]
      refine List.filter_congr fun other _ => ?_
      by_cases hk : other.key = o.key <;> simp [hk]
    · simp only [totalSize, List.map_cons, List.sum_cons]
      omega

theorem totalSize_split (items : List PoolObject) (p : PoolObject → Bool) :
    totalSize items = totalSize (items.filter p) + totalSize (items.filter fun o => !p o) := by
  induction items with
  | nil => rfl
  | cons o items ih =>
    simp only [totalSize, List.map_cons, List.sum_cons] at ih ⊢
    cases hp : p o <;> simp [hp] <;> omega

/-- Keys identify objects. -/
theorem key_inj {items : List PoolObject} (hn : (items.map (·.key)).Nodup) {a b : PoolObject}
    (ha : a ∈ items) (hb : b ∈ items) (h : a.key = b.key) : a = b :=
  List.inj_on_of_nodup_map hn ha hb h

section
variable {items : List PoolObject} (hn : (items.map (·.key)).Nodup)
include hn

/-- One release is removed as a whole. -/
theorem removeRelease_eq {removed : List PatchRelease} {r : PatchRelease} {members : List PoolObject}
    (hmem : (r, members) ∈ releases items) (hr : r ∉ removed) (total : Int) :
    removeRelease (r, members) (rest items removed, total + totalSize (rest items removed)) =
      (rest items (removed ++ [r]), total + totalSize (rest items (removed ++ [r]))) := by
  obtain ⟨-, rfl⟩ := mem_groupBy.1 hmem
  have hgone : items.filter (fun o => o.patch_release = r) =
      (rest items removed).filter fun o => !decide (o.patch_release ≠ r) := by
    rw [rest, List.filter_filter]
    refine List.filter_congr fun o _ => ?_
    by_cases ho : o.patch_release = r <;> simp [ho, hr]
  have hleft : (rest items removed).filter (fun o =>
        o.key ∉ (items.filter fun o => o.patch_release = r).map (·.key)) =
      (rest items removed).filter fun o => o.patch_release ≠ r := by
    refine List.filter_congr fun o ho => ?_
    have hitem : o ∈ items := (List.mem_filter.1 ho).1
    rw [decide_eq_decide, not_iff_not]
    constructor
    · intro hk
      obtain ⟨p, hp, hpo⟩ := List.mem_map.1 hk
      rw [List.mem_filter, decide_eq_true_eq] at hp
      rw [← key_inj hn hp.1 hitem hpo, hp.2]
    · intro h
      exact List.mem_map.2 ⟨o, List.mem_filter.2 ⟨hitem, decide_eq_true h⟩, rfl⟩
  have hrest : (rest items removed).filter (fun o => o.patch_release ≠ r) =
      rest items (removed ++ [r]) := by
    rw [rest, rest, List.filter_filter]
    refine List.filter_congr fun o _ => ?_
    simp [and_comm]
  rw [removeRelease, pop_all, hleft, hrest]
  refine Prod.ext rfl ?_
  have hsplit := totalSize_split (rest items removed) fun o => o.patch_release ≠ r
  rw [hrest, ← hgone] at hsplit
  show total + totalSize (rest items removed) - totalSize (items.filter fun o => o.patch_release = r) =
    total + totalSize (rest items (removed ++ [r]))
  omega

/-- The first releases are removed. -/
theorem without_eq : ∀ {cs : List (PatchRelease × List PoolObject)} (removed : List PatchRelease) (n : Nat),
    (∀ c ∈ cs, c ∈ releases items) → (keys cs).Nodup → (∀ r ∈ keys cs, r ∉ removed) → ∀ total : Int,
    without removeRelease cs n (rest items removed, total + totalSize (rest items removed)) =
      (rest items (removed ++ keys (cs.take n)),
        total + totalSize (rest items (removed ++ keys (cs.take n))))
  | [], removed, n, _, _, _, total => by simp [without]
  | c :: cs, removed, 0, _, _, _, total => by simp [without]
  | (r, members) :: cs, removed, n + 1, hmem, hnd, hnot, total => by
    rw [keys_cons, List.nodup_cons] at hnd
    have hstep := removeRelease_eq hn (hmem _ List.mem_cons_self) (hnot r (by simp)) total
    have hih := without_eq (removed ++ [r]) n (fun c hc => hmem c (List.mem_cons_of_mem _ hc)) hnd.2
      (fun q hq => by
        rw [List.mem_append, List.mem_singleton, not_or]
        refine ⟨hnot q (by simp [hq]), ?_⟩
        rintro rfl
        exact hnd.1 hq) total
    rw [without, List.take_succ_cons, List.foldl_cons, hstep, ← without, hih]
    simp

end

/-! ## The order of removal -/

/-- The releases that may go, oldest first. -/
def cuts (items : List PoolObject) : List (PatchRelease × List PoolObject) :=
  candidates (releases items) (newest (bySeries items))

/-- The objects left without the first releases. -/
def kept (items : List PoolObject) (n : Nat) : List PoolObject := rest items (keys ((cuts items).take n))

theorem cuts_perm (items : List PoolObject) : (cuts items).Perm
    ((releases items).filter fun group => group.1 ∉ newest (bySeries items)) :=
  List.perm_insertionSort _ _

theorem cuts_mem {items : List PoolObject} {c : PatchRelease × List PoolObject} (h : c ∈ cuts items) :
    c ∈ releases items :=
  (List.mem_filter.1 ((cuts_perm items).mem_iff.1 h)).1

theorem nodup_cuts (items : List PoolObject) : (keys (cuts items)).Nodup := by
  rw [keys, ((cuts_perm items).map _).nodup_iff]
  exact (nodup_keys_groupBy PoolObject.patch_release items).sublist (List.filter_sublist.map _)

theorem mem_keys_cuts {items : List PoolObject} {r : PatchRelease} :
    r ∈ keys (cuts items) ↔ (∃ o ∈ items, o.patch_release = r) ∧ ¬ Newest items r := by
  rw [keys, ((cuts_perm items).map _).mem_iff, ← mem_keys_groupBy, ← mem_newest, keys, releases,
    List.mem_map, List.mem_map]
  constructor
  · rintro ⟨c, hc, rfl⟩
    rw [List.mem_filter, decide_eq_true_eq] at hc
    exact ⟨⟨c, hc.1, rfl⟩, hc.2⟩
  · rintro ⟨⟨c, hc, rfl⟩, hnot⟩
    exact ⟨c, List.mem_filter.2 ⟨hc, decide_eq_true hnot⟩, rfl⟩

theorem mem_kept {items : List PoolObject} {n : Nat} {o : PoolObject} :
    o ∈ kept items n ↔ o ∈ items ∧ o.patch_release ∉ keys ((cuts items).take n) := by
  rw [kept, rest, List.mem_filter, decide_eq_true_eq]

theorem kept_zero (items : List PoolObject) : kept items 0 = items := by simp [kept, rest]

theorem keys_take_subset {cs : List (PatchRelease × List PoolObject)} {n : Nat} {r : PatchRelease}
    (h : r ∈ keys (cs.take n)) : r ∈ keys cs :=
  ((List.take_sublist n cs).map _).subset h

/-- A newest release stays. -/
theorem newest_kept {items : List PoolObject} {o : PoolObject} (ho : o ∈ items)
    (h : Newest items o.patch_release) (n : Nat) : o ∈ kept items n :=
  mem_kept.2 ⟨ho, fun hmem => (mem_keys_cuts.1 (keys_take_subset hmem)).2 h⟩

theorem totalSize_pos : ∀ {items : List PoolObject}, (∀ o ∈ items, 0 < o.size) → items ≠ [] →
    0 < totalSize items
  | [o], hpos, _ => by simpa [totalSize] using hpos o (by simp)
  | o :: p :: items, hpos, _ => by
    have ho := hpos o List.mem_cons_self
    have ih := totalSize_pos (fun q hq => hpos q (List.mem_cons_of_mem _ hq)) (List.cons_ne_nil p items)
    simp only [totalSize, List.map_cons, List.sum_cons] at ih ⊢
    omega

theorem size_nonneg (o : PoolObject) : 0 ≤ o.size := by
  have h := o.valid
  simp only [PoolObjectFields.post_init, except_throw, except_error_bind, except_check_eq_ok] at h
  omega

theorem totalSize_nonneg : ∀ items : List PoolObject, 0 ≤ totalSize items
  | [] => le_rfl
  | o :: items => by
    have ho := size_nonneg o
    have ih := totalSize_nonneg items
    simp only [totalSize, List.map_cons, List.sum_cons] at ih ⊢
    omega

theorem keys_take (cs : List (PatchRelease × List PoolObject)) (n : Nat) :
    keys (cs.take n) = (keys cs).take n := by
  rw [keys, keys, List.map_take]

/-- A longer prefix removes from what a shorter one leaves. -/
theorem kept_kept {items : List PoolObject} {m n : Nat} (hmn : m ≤ n) :
    (kept items m).filter (fun o => o.patch_release ∉ keys ((cuts items).take n)) = kept items n := by
  rw [kept, kept, rest, rest, List.filter_filter]
  refine List.filter_congr fun p _ => ?_
  by_cases hp : p.patch_release ∈ keys ((cuts items).take m)
  · have hin : p.patch_release ∈ keys ((cuts items).take n) := by
      rw [keys_take] at hp ⊢
      exact (List.take_sublist_take_left hmn).subset hp
    simp [hp, hin]
  · simp [hp]

/-- A release that the longer prefix alone removes. -/
theorem removed_between {items : List PoolObject} {m n : Nat} (hmn : m < n) (hn : n ≤ (cuts items).length) :
    ∃ o ∈ kept items m, o.patch_release ∈ keys ((cuts items).take n) := by
  have hlen : m < (keys (cuts items)).length := by
    rw [keys, List.length_map]
    omega
  have hr : (keys (cuts items))[m] ∈ keys (cuts items) := List.getElem_mem hlen
  obtain ⟨⟨o, ho, hor⟩, -⟩ := mem_keys_cuts.1 hr
  refine ⟨o, mem_kept.2 ⟨ho, ?_⟩, ?_⟩
  · rw [hor, keys_take, List.mem_take_iff_getElem]
    rintro ⟨i, hi, him⟩
    have := (nodup_cuts items).getElem_inj_iff.1 him
    omega
  · rw [hor, keys_take, List.mem_take_iff_getElem]
    exact ⟨m, by omega, rfl⟩

/-- A shorter prefix leaves more. -/
theorem totalSize_kept_lt {items : List PoolObject} (hpos : ∀ o ∈ items, 0 < o.size) {m n : Nat} (hmn : m < n)
    (hn : n ≤ (cuts items).length) : totalSize (kept items n) < totalSize (kept items m) := by
  obtain ⟨o, ho, hor⟩ := removed_between hmn hn
  have hsplit := totalSize_split (kept items m) fun o => o.patch_release ∉ keys ((cuts items).take n)
  rw [kept_kept hmn.le] at hsplit
  have hgone : 0 < totalSize ((kept items m).filter fun o =>
      !decide (o.patch_release ∉ keys ((cuts items).take n))) := by
    apply totalSize_pos
    · intro p hp
      exact hpos p (mem_kept.1 (List.mem_filter.1 hp).1).1
    · exact List.ne_nil_of_mem (List.mem_filter.2 ⟨ho, by simpa using hor⟩)
  omega

/-! ## The selector -/

theorem make_ok {d : RetentionFields} (h : d.post_init = .ok ()) :
    ∃ r, RetentionDecision.make d = .ok r ∧ r.toRetentionFields = d := by
  unfold RetentionDecision.make
  split
  · exact ⟨_, rfl, rfl⟩
  · next hd => rw [h] at hd; cases hd

theorem make_eq_ok {d : RetentionFields} {r : RetentionDecision} (h : RetentionDecision.make d = .ok r) :
    r.toRetentionFields = d := by
  unfold RetentionDecision.make at h
  split at h
  · cases h
    rfl
  · cases h

/-- The decision that keeps the newest series, less the first `n` releases that may go. -/
def decision (values : List PoolObject) (mode : RetentionMode) (max_bytes : Option Int)
    (fixed_bytes max_series : Int) (n : Nat) : RetentionFields where
  mode := mode
  retained_keys := (kept (selected values max_series.toNat) n).map (·.key)
  retained_series := retainedSeries values max_series.toNat
  retained_patch_releases := remaining (kept (selected values max_series.toNat) n)
  retained_bytes := fixed_bytes + totalSize (kept (selected values max_series.toNat) n)
  fixed_bytes := fixed_bytes
  max_bytes := max_bytes

/-- The arguments that pass. -/
structure Proper (values : List PoolObject) (fixed_bytes max_series : Int) : Prop where
  series : 1 ≤ max_series
  fixed : 0 ≤ fixed_bytes
  keys : (values.map (·.key)).Nodup
  nonempty : values ≠ []

theorem proper_of_ok {values : List PoolObject} {mode : RetentionMode} {max_bytes : Option Int}
    {fixed_bytes max_series : Int} {u : Unit}
    (h : checkArguments values mode max_bytes fixed_bytes max_series = .ok u) :
    Proper values fixed_bytes max_series := by
  simp only [checkArguments, except_throw, except_error_bind, except_check_eq_ok] at h
  obtain ⟨hseries, hfixed, hkeys, h⟩ := h
  obtain ⟨_, -, h⟩ := except_bind_eq_ok.1 h
  have h := (except_check_eq_ok.1 h).1
  exact ⟨by omega, by omega, not_not.1 hkeys, h⟩

section
variable {values : List PoolObject} {fixed_bytes max_series : Int}

/-- The limit removes a prefix. -/
theorem applyLimit_ok {mode : RetentionMode} {max_bytes : Option Int}
    {cs : List (PatchRelease × List PoolObject)} {state left : List PoolObject × Int}
    (h : applyLimit mode max_bytes cs state = .ok left) :
    ∃ n, left = without removeRelease cs n state ∧ (mode = .series → n = 0) := by
  have hzero : state = without removeRelease cs 0 state := rfl
  unfold applyLimit at h
  split at h
  · next limit =>
    unfold fit at h
    split at h
    · obtain ⟨n, -, htrim, -⟩ := @trim_cut _ _ removeRelease (·.2) limit cs state
      obtain ⟨-, hleft⟩ := except_check_eq_ok.1 h
      exact ⟨n, (Except.ok.inj hleft).symm.trans htrim, fun h => by cases h⟩
    · cases h
      exact ⟨0, hzero, fun _ => rfl⟩
  · cases h
    exact ⟨0, hzero, fun _ => rfl⟩

/-- The objects of the newest series, less what a prefix of the releases holds. -/
theorem trim_kept (hn : (values.map (·.key)).Nodup) (n : Nat) :
    without removeRelease (cuts (selected values max_series.toNat)) n
        (selected values max_series.toNat, fixed_bytes + totalSize (selected values max_series.toNat)) =
      (kept (selected values max_series.toNat) n,
        fixed_bytes + totalSize (kept (selected values max_series.toNat) n)) := by
  have hnd : ((selected values max_series.toNat).map (·.key)).Nodup :=
    hn.sublist (List.filter_sublist.map _)
  have h := without_eq hnd [] n (fun c hc => cuts_mem hc) (nodup_cuts _)
    (fun r _ => List.not_mem_nil) fixed_bytes
  have hnil : rest (selected values max_series.toNat) [] = selected values max_series.toNat := by
    simp [rest]
  rw [hnil, List.nil_append] at h
  exact h

/-- **What the selector keeps**: the newest series, less a prefix of their older releases. -/
theorem select_ok {mode : RetentionMode} {max_bytes : Option Int} {d : RetentionDecision}
    (h : select_retained_objects values mode max_bytes fixed_bytes max_series = .ok d) :
    Proper values fixed_bytes max_series ∧
      ∃ n, d.retained_keys = (kept (selected values max_series.toNat) n).map (·.key) ∧
        d.retained_bytes = fixed_bytes + totalSize (kept (selected values max_series.toNat) n) ∧
        (mode = .series → n = 0) ∧ d.mode = mode ∧ d.max_bytes = max_bytes := by
  rw [select_retained_objects] at h
  obtain ⟨_, hcheck, h⟩ := except_bind_eq_ok.1 h
  have hproper := proper_of_ok hcheck
  dsimp only at h
  rw [releasesBySeries_ok, except_ok_bind] at h
  obtain ⟨state, hstate, h⟩ := except_bind_eq_ok.1 h
  obtain ⟨n, hleft, hn⟩ := applyLimit_ok hstate
  rw [← cuts, trim_kept hproper.keys] at hleft
  subst hleft
  obtain ⟨_, -, h⟩ := except_bind_eq_ok.1 h
  have hd := make_eq_ok h
  refine ⟨hproper, n, ?_, ?_, hn, ?_, ?_⟩ <;> rw [hd]

/-- No series loses its last object. -/
theorem checkSeries_kept (n : Nat) : checkSeries (retainedSeries values max_series.toNat)
    (kept (selected values max_series.toNat) n) = .ok () := by
  rw [checkSeries, if_neg]
  rw [Bool.not_eq_true, List.any_eq_false]
  intro s hs
  have hvalue : ∃ o ∈ values, o.series = s := by
    rw [retainedSeries] at hs
    have hmem := List.mem_of_mem_take hs
    rw [(List.perm_insertionSort _ _).mem_iff, List.mem_dedup] at hmem
    exact List.mem_map.1 hmem
  obtain ⟨o, ho, rfl⟩ := hvalue
  have hitem : o ∈ selected values max_series.toNat := List.mem_filter.2 ⟨ho, decide_eq_true hs⟩
  obtain ⟨p, hp, hseries, hnewest⟩ := newest_exists hitem
  intro hall
  have := List.all_eq_true.1 hall p (newest_kept hp hnewest n)
  simp [hseries] at this

section
variable (hp : Proper values fixed_bytes max_series)
include hp

theorem checkArguments_ok {mode : RetentionMode} {max_bytes : Option Int}
    (h : checkLimit mode max_bytes = .ok ()) :
    checkArguments values mode max_bytes fixed_bytes max_series = .ok () := by
  have hseries := hp.series
  have hfixed := hp.fixed
  simp [checkArguments, h, hp.keys, hp.nonempty, not_lt.2 hseries, not_lt.2 hfixed]

/-- What the selector answers once the limit is applied. -/
theorem select_answer {mode : RetentionMode} {max_bytes : Option Int} {n : Nat}
    (hlimit : checkLimit mode max_bytes = .ok ())
    (happly : applyLimit mode max_bytes (cuts (selected values max_series.toNat))
      (selected values max_series.toNat, fixed_bytes + totalSize (selected values max_series.toNat)) =
        .ok (kept (selected values max_series.toNat) n,
          fixed_bytes + totalSize (kept (selected values max_series.toNat) n)))
    (hfit : ∀ limit, mode = .series_size → max_bytes = some limit →
      fixed_bytes + totalSize (kept (selected values max_series.toNat) n) ≤ limit) :
    ∃ d, select_retained_objects values mode max_bytes fixed_bytes max_series = .ok d ∧
      d.toRetentionFields = decision values mode max_bytes fixed_bytes max_series n := by
  have hsize := totalSize_nonneg (kept (selected values max_series.toNat) n)
  rw [select_retained_objects, checkArguments_ok hp hlimit, except_ok_bind]
  dsimp only
  rw [releasesBySeries_ok, except_ok_bind, ← cuts, happly, except_ok_bind]
  dsimp only
  rw [checkSeries_kept, except_ok_bind]
  apply make_ok
  have hfixed := hp.fixed
  cases mode with
  | series =>
    cases max_bytes with
    | none => simp [RetentionFields.post_init]; omega
    | some limit => simp [checkLimit] at hlimit
  | series_size =>
    cases max_bytes with
    | none => simp [checkLimit] at hlimit
    | some limit =>
      have hle := hfit limit rfl rfl
      rw [checkLimit, except_guard_eq_ok] at hlimit
      simp [RetentionFields.post_init, hlimit, not_lt.2 hfixed]
      rw [if_neg (not_lt.2 hsize), if_neg (not_lt.2 hle)]
  | other m => simp [checkLimit] at hlimit

/-- **Series retention removes nothing of the newest series.** -/
theorem select_series : ∃ d, select_retained_objects values .series none fixed_bytes max_series = .ok d ∧
    d.retained_keys = (selected values max_series.toNat).map (·.key) := by
  have hzero := kept_zero (selected values max_series.toNat)
  obtain ⟨d, hd, hkeys⟩ := @select_answer values fixed_bytes max_series hp .series none 0 rfl
    (by rw [hzero]; rfl) (fun limit h => by cases h)
  exact ⟨d, hd, by rw [hkeys, decision, hzero]⟩

/-- **Every prefix of the older releases is removed under some limit.** -/
theorem select_size (hpos : ∀ o ∈ values, 0 < o.size) {n : Nat}
    (hn : n ≤ (cuts (selected values max_series.toNat)).length)
    (hlimit : 1 ≤ fixed_bytes + totalSize (kept (selected values max_series.toNat) n)) :
    ∃ limit d, select_retained_objects values .series_size (some limit) fixed_bytes max_series = .ok d ∧
      d.retained_keys = (kept (selected values max_series.toNat) n).map (·.key) := by
  have hitems : ∀ o ∈ selected values max_series.toNat, 0 < o.size := fun o ho =>
    hpos o (List.mem_filter.1 ho).1
  have hzero := kept_zero (selected values max_series.toNat)
  refine ⟨fixed_bytes + totalSize (kept (selected values max_series.toNat) n), ?_⟩
  suffices ∃ d, select_retained_objects values .series_size
      (some (fixed_bytes + totalSize (kept (selected values max_series.toNat) n))) fixed_bytes max_series = .ok d ∧
      d.toRetentionFields = decision values .series_size
        (some (fixed_bytes + totalSize (kept (selected values max_series.toNat) n))) fixed_bytes max_series n by
    obtain ⟨d, hd, hfields⟩ := this
    exact ⟨d, hd, by rw [hfields]; rfl⟩
  refine select_answer hp ?_ ?_ ?_
  · rw [checkLimit, if_neg (by omega)]
  · rw [applyLimit, fit]
    rcases Nat.eq_zero_or_pos n with rfl | hnpos
    · rw [hzero, if_neg (by omega)]
    · have hlt := totalSize_kept_lt hitems hnpos hn
      rw [hzero] at hlt
      have htrim : trim removeRelease (·.2) (fixed_bytes + totalSize (kept (selected values max_series.toNat) n))
          (cuts (selected values max_series.toNat))
          (selected values max_series.toNat, fixed_bytes + totalSize (selected values max_series.toNat)) =
          (kept (selected values max_series.toNat) n,
            fixed_bytes + totalSize (kept (selected values max_series.toNat) n)) := by
        rw [← trim_kept hp.keys]
        refine trim_eq (fun m hm => ?_) ?_
        · rw [trim_kept hp.keys]
          have := totalSize_kept_lt hitems hm hn
          show _ < fixed_bytes + totalSize (kept (selected values max_series.toNat) m)
          omega
        · rw [trim_kept hp.keys]
      rw [if_pos (by simp only; omega), htrim]
      dsimp only
      rw [if_neg (by simp)]
  · intro limit _ h
    cases h
    exact le_rfl

end

end

end Retention
