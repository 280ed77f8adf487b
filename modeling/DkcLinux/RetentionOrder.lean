import DkcLinux.RetentionRules
import DkcLinux.SeriesOrder
import Mathlib.Algebra.BigOperators.Group.List.Basic

/-!
# Retention, and the order of its input

Two spellings of one release (`7.1`, `7.01`) compare equal and are still two patch releases. The
newest of a series, and the order in which releases go, are then decided by the order of the
inventory: `select_order` says when they are not.
-/

open Py

namespace Retention

open Grouping

/-- Two failures, or two equal decisions. -/
def Same : Except PyErr RetentionDecision → Except PyErr RetentionDecision → Prop
  | .ok d, .ok d' => d.mode = d'.mode ∧ (∀ k, k ∈ d.retained_keys ↔ k ∈ d'.retained_keys) ∧
      d.retained_series = d'.retained_series ∧ d.retained_patch_releases = d'.retained_patch_releases ∧
      d.retained_bytes = d'.retained_bytes ∧ d.fixed_bytes = d'.fixed_bytes ∧ d.max_bytes = d'.max_bytes
  | .error _, .error _ => True
  | _, _ => False

/-- Fewer than `max_series` series of the inventory are greater. -/
def Recent (values : List PoolObject) (max_series : Int) (o : PoolObject) : Prop :=
  (((values.map (·.series)).dedup.filter fun t => decide (o.series < t)).length : Int) < max_series

/-- Releases that compare equal. -/
def Tied (a b : PatchRelease) : Prop := Debver.compare a.release_version b.release_version = 0

/-- The recent releases that compare equal are spelled alike. -/
def Spelled (values : List PoolObject) (max_series : Int) : Prop :=
  ∀ a ∈ values, ∀ b ∈ values, Recent values max_series a → Recent values max_series b →
    Tied a.patch_release b.patch_release → a.patch_release = b.patch_release

theorem tied_iff {a b : PatchRelease} : Tied a b ↔ Debver.key a.release_version = Debver.key b.release_version :=
  Debver.compare_eq_zero

theorem older_false {a b : PatchRelease} :
    older a b = false ↔ Debver.key b.release_version ≤ Debver.key a.release_version := by
  rw [← Bool.not_eq_true, older_iff, not_lt]

theorem tied_of_older {a b : PatchRelease} (h : older a b = false) (h' : older b a = false) : Tied a b :=
  tied_iff.2 (le_antisymm (older_false.1 h') (older_false.1 h))

theorem tied_series {a b : PoolObject} (h : Tied a.patch_release b.patch_release) : a.series = b.series := by
  show a.patch_release.release_version.series = b.patch_release.release_version.series
  exact DebianVersion.series_of_key (tied_iff.1 h)

instance : Std.Total fun a b : PatchRelease => ¬ older a b = true := ⟨fun a b => by
  rw [Bool.not_eq_true, Bool.not_eq_true, older_false, older_false]
  exact le_total _ _⟩

instance : IsTrans PatchRelease fun a b => ¬ older a b = true := ⟨fun a b c hab hbc => by
  rw [Bool.not_eq_true, older_false] at hab hbc ⊢
  exact hbc.trans hab⟩

section
variable {values values' : List PoolObject} {max_series : Int}

theorem mem_selected_iff (hs : 1 ≤ max_series) {o : PoolObject} :
    o ∈ selected values max_series.toNat ↔ o ∈ values ∧ Recent values max_series o := by
  rw [mem_selected, mem_retainedSeries, Recent]
  constructor
  · rintro ⟨ho, -, hlen⟩
    exact ⟨ho, by omega⟩
  · rintro ⟨ho, hlen⟩
    exact ⟨ho, ⟨o, ho, rfl⟩, by omega⟩

theorem spelled_iff (hs : 1 ≤ max_series) : Spelled values max_series ↔
    ∀ a ∈ selected values max_series.toNat, ∀ b ∈ selected values max_series.toNat,
      Tied a.patch_release b.patch_release → a.patch_release = b.patch_release := by
  simp only [mem_selected_iff hs, Spelled, and_imp]
  constructor
  · intro h a ha ha' b hb hb'
    exact h a ha b hb ha' hb'
  · intro h a ha b hb ha' hb'
    exact h a ha ha' b hb hb'

/-! ## A permutation of the inventory -/

variable (hp : values'.Perm values)
include hp

theorem retainedSeries_perm (n : Nat) : retainedSeries values' n = retainedSeries values n := by
  rw [retainedSeries, retainedSeries]
  have hsort := @insertionSort_perm _ (fun a b : ℕ ×ₗ ℕ => a ≥ b) _ _ _ _ _ (hp.map (·.series)).dedup
    fun a _ b _ hab hba => le_antisymm hba hab
  rw [hsort]

theorem selected_perm (n : Nat) : (selected values' n).Perm (selected values n) := by
  rw [selected, selected, retainedSeries_perm hp]
  exact hp.filter _

theorem checkArguments_perm (mode : RetentionMode) (max_bytes : Option Int) (fixed_bytes : Int) :
    checkArguments values' mode max_bytes fixed_bytes max_series =
      checkArguments values mode max_bytes fixed_bytes max_series := by
  have hkeys : (values'.map (·.key)).Nodup ↔ (values.map (·.key)).Nodup := (hp.map _).nodup_iff
  have hnil : values' = [] ↔ values = [] := by
    constructor
    · rintro rfl
      exact hp.nil_eq.symm
    · rintro rfl
      exact hp.eq_nil
  simp only [checkArguments, hkeys, hnil]

theorem totalSize_perm : totalSize values' = totalSize values := (hp.map _).sum_eq

section
variable (hs : 1 ≤ max_series) (hspelled : Spelled values max_series)
include hs hspelled

omit hp in
/-- Where spellings do not matter, a protected release is one that none exceeds. -/
theorem newest_iff_max {items : List PoolObject} (hi : items.Perm (selected values max_series.toNat))
    {r : PatchRelease} : Newest items r ↔ (∃ o ∈ items, o.patch_release = r) ∧
      ∀ p ∈ items, p.series = r.release_version.series → older r p.patch_release = false := by
  constructor
  · exact Newest.spec
  · rintro ⟨⟨o, ho, rfl⟩, hmax⟩
    obtain ⟨n, hn, hseries, hnewest⟩ := newest_exists ho
    have htied := tied_of_older (hmax n hn hseries) (hnewest.spec.2 o ho hseries.symm)
    have heq := (spelled_iff hs).1 hspelled o (hi.mem_iff.1 ho) n (hi.mem_iff.1 hn) htied
    rwa [heq]

theorem removable_perm : removable values' max_series = removable values max_series := by
  have hitems := selected_perm hp max_series.toNat
  have hmem : ∀ r, r ∈ removable values' max_series ↔ r ∈ removable values max_series := fun r => by
    rw [mem_removable, mem_removable, mem_newest, mem_newest, newest_iff_max hs hspelled hitems,
      newest_iff_max hs hspelled (List.Perm.refl _)]
    simp only [hitems.mem_iff]
  refine List.Perm.eq_of_pairwise (fun a b ha hb hab hba => ?_) sorted_removable sorted_removable
    ((List.perm_ext_iff_of_nodup (nodup_cuts _) (nodup_cuts _)).2 hmem)
  -- releases that may go one before the other, either way
  obtain ⟨⟨o, ho, rfl⟩, -⟩ := mem_removable.1 ((hmem a).1 ha)
  obtain ⟨⟨q, hq, rfl⟩, -⟩ := mem_removable.1 hb
  exact (spelled_iff hs).1 hspelled o ho q hq (tied_of_older hba hab)

theorem kept_perm (n : Nat) :
    (kept (selected values' max_series.toNat) n).Perm (kept (selected values max_series.toNat) n) := by
  have hr := removable_perm hp hs hspelled
  rw [removable, removable] at hr
  rw [kept, kept, keys_take, keys_take, hr, rest, rest]
  exact (selected_perm hp _).filter _

theorem sizeAfter_perm (fixed_bytes : Int) (n : Nat) :
    sizeAfter values' fixed_bytes max_series n = sizeAfter values fixed_bytes max_series n := by
  rw [sizeAfter, sizeAfter, totalSize_perm (kept_perm hp hs hspelled n)]

theorem least_perm {fixed_bytes : Int} {limit : Option Int} {n : Nat}
    (h : Least values fixed_bytes max_series limit n) : Least values' fixed_bytes max_series limit n := by
  have hr := removable_perm hp hs hspelled
  have hsize := sizeAfter_perm hp hs hspelled fixed_bytes
  refine ⟨?_, ?_, ?_⟩
  · rw [hr]
    exact h.le
  · intro m hm
    rw [hsize]
    exact h.exceeds m hm
  · rw [hr, hsize]
    exact h.fits

theorem remaining_perm (n : Nat) : remaining (kept (selected values' max_series.toNat) n) =
    remaining (kept (selected values max_series.toNat) n) := by
  have hkept := kept_perm hp hs hspelled n
  rw [remaining, remaining]
  refine insertionSort_perm (hkept.map _).dedup fun a ha b hb hab hba => ?_
  rw [List.mem_dedup] at ha hb
  obtain ⟨o, ho, rfl⟩ := List.mem_map.1 ha
  obtain ⟨q, hq, rfl⟩ := List.mem_map.1 hb
  have hsel : ∀ {p}, p ∈ kept (selected values' max_series.toNat) n → p ∈ selected values max_series.toNat :=
    fun h => (mem_kept.1 (hkept.mem_iff.1 h)).1
  rw [Bool.not_eq_true] at hab hba
  exact (spelled_iff hs).1 hspelled o (hsel ho) q (hsel hq) (tied_of_older hab hba)

/-- **Where equal releases are spelled alike, the order does not matter.** -/
theorem select_perm (mode : RetentionMode) (max_bytes : Option Int) (fixed_bytes : Int) :
    Same (select_retained_objects values mode max_bytes fixed_bytes max_series)
      (select_retained_objects values' mode max_bytes fixed_bytes max_series) := by
  have hargs := @checkArguments_perm _ _ max_series hp mode max_bytes fixed_bytes
  cases hc : checkArguments values mode max_bytes fixed_bytes max_series with
  | error e =>
    rw [select_unchecked hc, select_unchecked (hargs.trans hc)]
    trivial
  | ok u =>
    obtain ⟨n, hn, hcases⟩ := select_spec hc
    obtain ⟨m, hm, hcases'⟩ := select_spec (hargs.trans hc)
    obtain rfl := (least_perm hp hs hspelled hn).unique hm
    have hsize := sizeAfter_perm hp hs hspelled fixed_bytes n
    rw [hsize] at hcases'
    rcases hcases with ⟨l, hl, hlt, herr⟩ | ⟨hle, d, hd, hfields⟩
    · rcases hcases' with ⟨-, -, -, herr'⟩ | ⟨hle', -⟩
      · rw [herr, herr']
        trivial
      · have := hle' l hl
        omega
    · rcases hcases' with ⟨l, hl, hlt, -⟩ | ⟨-, d', hd', hfields'⟩
      · have := hle l hl
        omega
      · rw [hd, hd', Same, hfields, hfields']
        have hkept := kept_perm hp hs hspelled n
        refine ⟨rfl, fun k => (hkept.map _).mem_iff.symm, (retainedSeries_perm hp _).symm,
          (remaining_perm hp hs hspelled n).symm, hsize.symm, rfl, rfl⟩

end

end

/-- Of two equal releases that may go, the first goes first. -/
theorem pair_cuts {items : List PoolObject} {a b : PatchRelease} (h : [a, b].Sublist (keys (releases items)))
    (htied : Tied a b) (hano : ¬ Newest items a) (hbno : ¬ Newest items b) :
    [a, b].Sublist (keys (cuts items)) := by
  obtain ⟨pair, hsub, hpair⟩ := List.sublist_map_iff.1 h
  match pair, hpair with
  | [(_, xs), (_, ys)], hpair =>
    simp only [List.map_cons, List.map_nil, List.cons.injEq, and_true] at hpair
    obtain ⟨rfl, rfl⟩ := hpair
    have hcand : [(a, xs), (b, ys)].Sublist
        ((releases items).filter fun group => group.1 ∉ newest (bySeries items)) := by
      have h := hsub.filter fun group => decide (group.1 ∉ newest (bySeries items))
      simp only [List.filter_cons, mt mem_newest.1 hano, mt mem_newest.1 hbno, not_false_eq_true,
        decide_true, if_true, List.filter_nil] at h
      exact h
    have hsorted : [(a, xs), (b, ys)].Sublist (cuts items) := by
      rw [cuts, candidates]
      refine List.pair_sublist_insertionSort ?_ hcand
      rw [Bool.not_eq_true, older_false, tied_iff.1 htied]
    have hmap := hsorted.map fun c => c.1
    exact hmap

/-! ## Two orders of one inventory -/

/-- The objects of one release first. -/
def front (r : PatchRelease) (items : List PoolObject) : List PoolObject :=
  items.filter (fun o => decide (o.patch_release = r)) ++ items.filter fun o => !decide (o.patch_release = r)

theorem front_perm (r : PatchRelease) (items : List PoolObject) : (front r items).Perm items :=
  List.filter_append_perm _ items

theorem selected_front (r : PatchRelease) (values : List PoolObject) (n : Nat) :
    selected (front r values) n = front r (selected values n) := by
  rw [selected, retainedSeries_perm (front_perm r values), front, front, List.filter_append, selected,
    List.filter_filter, List.filter_filter, List.filter_filter, List.filter_filter]
  simp only [Bool.and_comm]

section
variable {items : List PoolObject} {a b : PoolObject} (ha : a ∈ items) (hb : b ∈ items)
  (hne : a.patch_release ≠ b.patch_release)
include ha

/-- What comes first is protected, unless it is exceeded. -/
theorem newest_front (hmax : ∀ p ∈ items, p.series = a.series → older a.patch_release p.patch_release = false) :
    Newest (front a.patch_release items) a.patch_release := by
  have hfirst : a ∈ items.filter fun o => decide (o.patch_release = a.patch_release) :=
    List.mem_filter.2 ⟨ha, decide_eq_true rfl⟩
  obtain ⟨x, xs, hx⟩ := List.exists_cons_of_ne_nil (List.ne_nil_of_mem hfirst)
  have hrelease : x.patch_release = a.patch_release := by
    have hmem : x ∈ items.filter fun o => decide (o.patch_release = a.patch_release) := by
      rw [hx]
      exact List.mem_cons_self
    exact of_decide_eq_true (List.mem_filter.1 hmem).2
  have hseries : x.series = a.patch_release.release_version.series := series_of_release hrelease
  have hfilter : ∀ rest : List PoolObject, (x :: rest).filter (fun o =>
      decide (o.series = a.patch_release.release_version.series)) =
      x :: rest.filter fun o => decide (o.series = a.patch_release.release_version.series) :=
    fun rest => List.filter_cons_of_pos (by simpa using hseries)
  rw [Newest, front, hx, List.cons_append, hfilter, List.map_cons, maxBy_eq_some older_iff]
  refine ⟨[], _, by rw [hrelease]; rfl, by simp, fun r hr => ?_⟩
  obtain ⟨p, hp, rfl⟩ := List.mem_map.1 hr
  rw [List.mem_filter, decide_eq_true_eq] at hp
  refine older_false.1 (hmax p ((front_perm a.patch_release items).mem_iff.1 ?_) hp.2)
  rw [front, hx]
  exact List.mem_cons_of_mem _ hp.1

include hb hne

theorem pair_remaining (htied : Tied a.patch_release b.patch_release) :
    [a.patch_release, b.patch_release].Sublist (remaining (front a.patch_release items)) := by
  rw [remaining, front, List.map_append]
  refine List.pair_sublist_insertionSort ?_ (pair_sublist_dedup ?_ ?_ ?_)
  · rw [Bool.not_eq_true, older_false, tied_iff.1 htied]
  · exact List.mem_map_of_mem (List.mem_filter.2 ⟨ha, decide_eq_true rfl⟩)
  · rw [List.mem_map]
    rintro ⟨x, hx, hxa⟩
    simp [hxa] at hx
  · exact List.mem_map_of_mem (List.mem_filter.2 ⟨hb, by simp [hne.symm]⟩)

theorem pair_releases : [a.patch_release, b.patch_release].Sublist (keys (releases (front a.patch_release items))) := by
  rw [releases, front]
  refine pair_sublist_keys_groupBy ⟨a, ?_, rfl⟩ ⟨b, ?_, rfl⟩ fun x hx hxb => ?_
  · exact List.mem_filter.2 ⟨ha, decide_eq_true rfl⟩
  · exact List.mem_filter.2 ⟨hb, by simp [hne.symm]⟩
  · exact hne ((of_decide_eq_true (List.mem_filter.1 hx).2).symm.trans hxb)

end

section
variable {values : List PoolObject} {max_series : Int} (hk : (values.map (·.key)).Nodup) (hs : 1 ≤ max_series)
  {a b : PoolObject} (ha : a ∈ selected values max_series.toNat) (hb : b ∈ selected values max_series.toNat)
  (hne : a.patch_release ≠ b.patch_release) (htied : Tied a.patch_release b.patch_release)
include hk hs ha

theorem proper_front (r : PatchRelease) : Proper (front r values) 0 max_series := by
  have hperm := front_perm r values
  refine ⟨hs, le_rfl, (hperm.map _).nodup_iff.2 hk, fun hnil => ?_⟩
  rw [hnil] at hperm
  rw [hperm.nil_eq.symm] at ha
  cases ha

theorem select_front (r : PatchRelease) : ∃ d,
    select_retained_objects (front r values) .series none 0 max_series = .ok d ∧
      d.retained_patch_releases = remaining (front r (selected values max_series.toNat)) := by
  have hzero := kept_zero (selected (front r values) max_series.toNat)
  obtain ⟨d, hd, hfields⟩ := @select_answer (front r values) 0 max_series (proper_front hk hs ha r) .series none 0
    rfl (by rw [hzero]; rfl) (fun limit h => by cases h)
  refine ⟨d, hd, ?_⟩
  rw [hfields, decision, hzero, selected_front]

include hb hne htied

/-- Two inventories that answer the same in the first mode have no such pair. -/
theorem not_same_series :
    ¬ (Same (select_retained_objects values .series none 0 max_series)
        (select_retained_objects (front a.patch_release values) .series none 0 max_series) ∧
      Same (select_retained_objects values .series none 0 max_series)
        (select_retained_objects (front b.patch_release values) .series none 0 max_series)) := by
  rintro ⟨hsame, hsame'⟩
  obtain ⟨d, hd, hreleases⟩ := select_front hk hs ha a.patch_release
  obtain ⟨d', hd', hreleases'⟩ := select_front hk hs ha b.patch_release
  rw [hd] at hsame
  rw [hd'] at hsame'
  cases hv : select_retained_objects values .series none 0 max_series with
  | error e =>
    rw [hv] at hsame
    exact hsame
  | ok e =>
    rw [hv] at hsame hsame'
    have heq : remaining (front a.patch_release (selected values max_series.toNat)) =
        remaining (front b.patch_release (selected values max_series.toNat)) := by
      rw [← hreleases, ← hreleases', ← hsame.2.2.2.1, hsame'.2.2.2.1]
    have hab := pair_remaining ha hb hne htied
    have hba := pair_remaining hb ha hne.symm (tied_iff.2 (tied_iff.1 htied).symm)
    rw [← heq] at hba
    have hnodup : (remaining (front a.patch_release (selected values max_series.toNat))).Nodup := by
      rw [remaining, (List.perm_insertionSort _ _).nodup_iff]
      exact List.nodup_dedup _
    exact not_sublist_swap hnodup hab hba

omit hk hs in
/-- In one order a prefix removes one of the releases and leaves the other, in another order none does. -/
theorem separated : ∃ r q x y, x ∈ selected values max_series.toNat ∧ y ∈ selected values max_series.toNat ∧
    (∃ n ≤ (removable (front r values) max_series).length,
      x.patch_release ∈ (removable (front r values) max_series).take n ∧
        y.patch_release ∉ (removable (front r values) max_series).take n) ∧
    ∀ n, x.patch_release ∈ (removable (front q values) max_series).take n →
      y.patch_release ∈ (removable (front q values) max_series).take n := by
  have hseries := tied_series htied
  have hkey := tied_iff.1 htied
  have hnodup : ∀ r, (removable (front r values) max_series).Nodup := fun r => nodup_cuts _
  by_cases hex : ∃ p ∈ selected values max_series.toNat, p.series = a.series ∧
      older a.patch_release p.patch_release = true
  · -- a newer one is protected, and both may go
    obtain ⟨p, hp, hps, hnewer⟩ := hex
    have hno : ∀ {c : PoolObject} (r : PatchRelease), c.series = a.series →
        Debver.key c.patch_release.release_version = Debver.key a.patch_release.release_version →
        ¬ Newest (front r (selected values max_series.toNat)) c.patch_release := fun {c} r hcs hck hnew => by
      have hle := older_false.1 (hnew.spec.2 p ((front_perm r _).mem_iff.2 hp) (hps.trans hcs.symm))
      rw [older_iff] at hnewer
      rw [hck] at hle
      exact absurd hnewer (not_lt.2 hle)
    have hpair := pair_cuts (pair_releases ha hb hne) htied (hno _ rfl rfl) (hno _ hseries.symm hkey.symm)
    have hpair' := pair_cuts (pair_releases hb ha hne.symm) (tied_iff.2 hkey.symm) (hno _ hseries.symm hkey.symm)
      (hno _ rfl rfl)
    rw [← selected_front, ← removable] at hpair hpair'
    obtain ⟨n, hn, hsep⟩ := take_separates hne (.inl (hpair.subset (by simp)))
    have hfirst := @mem_take_of_pair _ _ _ _ n (hnodup _) hpair
    refine ⟨a.patch_release, b.patch_release, a, b, ha, hb, ⟨n, hn, ?_⟩, fun m => ?_⟩
    · by_cases hmem : b.patch_release ∈ (removable (front a.patch_release values) max_series).take n
      · exact absurd (iff_of_true (hfirst hmem) hmem) hsep
      · exact ⟨by_contra fun h => hsep (iff_of_false h hmem), hmem⟩
    · exact mem_take_of_pair (hnodup _) hpair'
  · -- the first of the two is the newest
    have hmax : ∀ p ∈ selected values max_series.toNat, p.series = a.series →
        older a.patch_release p.patch_release = false := fun p hp hps => by
      rw [← Bool.not_eq_true]
      exact fun h => hex ⟨p, hp, hps, h⟩
    have hmax' : ∀ p ∈ selected values max_series.toNat, p.series = b.series →
        older b.patch_release p.patch_release = false := fun p hp hps => by
      rw [older_false, ← hkey]
      exact older_false.1 (hmax p hp (hps.trans hseries.symm))
    have hnewest := newest_front ha hmax
    have hnewest' := newest_front hb hmax'
    refine ⟨a.patch_release, b.patch_release, b, a, hb, ha, ⟨_, le_rfl, ?_⟩, fun m hm => ?_⟩
    · rw [List.take_length, mem_removable, mem_removable, selected_front, mem_newest, mem_newest]
      refine ⟨⟨⟨b, (front_perm _ _).mem_iff.2 hb, rfl⟩, fun hnew => hne ?_⟩, fun h => h.2 hnewest⟩
      have hs' : a.patch_release.release_version.series = b.patch_release.release_version.series := hseries
      rw [Newest] at hnewest hnew
      rw [hs', hnew] at hnewest
      exact (Option.some.inj hnewest).symm
    · have hgone := List.mem_of_mem_take hm
      rw [mem_removable, selected_front, mem_newest] at hgone
      exact absurd hnewest' hgone.2

/-- **What is retained differs** under some limit. -/
theorem keys_differ (hpos : ∀ o ∈ values, 0 < o.size) : ∃ limit values₁ values₂ d₁,
    values₁.Perm values ∧ values₂.Perm values ∧
    select_retained_objects values₁ .series_size (some limit) 0 max_series = .ok d₁ ∧
    ∀ d₂, select_retained_objects values₂ .series_size (some limit) 0 max_series = .ok d₂ →
      ¬ ∀ k, k ∈ d₁.retained_keys ↔ k ∈ d₂.retained_keys := by
  obtain ⟨r, q, x, y, hx, hy, ⟨n, hn, hgone, hstays⟩, hnever⟩ := separated ha hb hne htied
  have hr := front_perm r values
  have hq := front_perm q values
  have hpos' : ∀ o ∈ front r values, 0 < o.size := fun o ho => hpos o (hr.mem_iff.1 ho)
  rw [mem_selected] at hx hy
  have hmem : ∀ {c : PoolObject} (r : PatchRelease) (n : Nat), c ∈ values →
      c.series ∈ retainedSeries values max_series.toNat →
      (c.key ∈ (kept (selected (front r values) max_series.toNat) n).map (·.key) ↔
        c.patch_release ∉ (removable (front r values) max_series).take n) := fun {c} r n hc hcs => by
    have hperm := front_perm r values
    rw [mem_keys_kept ((hperm.map _).nodup_iff.2 hk) (hperm.mem_iff.2 hc), mem_kept_iff,
      retainedSeries_perm hperm]
    simp [hperm.mem_iff, hc, hcs]
  have hkept : y ∈ kept (selected (front r values) max_series.toNat) n := by
    rw [mem_kept_iff, retainedSeries_perm hr]
    exact ⟨hr.mem_iff.2 hy.1, hy.2, hstays⟩
  have htotal := totalSize_pos (fun o ho => hpos' o (mem_kept_iff.1 ho).1) (List.ne_nil_of_mem hkept)
  rw [length_removable] at hn
  obtain ⟨limit, d₁, hd₁, hkeys₁⟩ := select_size (proper_front hk hs ha r) hpos' hn (by omega)
  refine ⟨limit, _, front q values, d₁, hr, hq, hd₁, fun d₂ hd₂ hall => ?_⟩
  obtain ⟨-, m, hkeys₂, -⟩ := select_ok hd₂
  have hx' := hall x.key
  have hy' := hall y.key
  rw [hkeys₁, hkeys₂, hmem r n hx.1 hx.2, hmem q m hx.1 hx.2] at hx'
  rw [hkeys₁, hkeys₂, hmem r n hy.1 hy.2, hmem q m hy.1 hy.2] at hy'
  exact hy'.1 hstays (hnever m (not_not.1 fun h => hx'.2 h hgone))

end

namespace Spelling

theorem upstream_valid : Debver.isUpstream "7.1".toList = true := by decide +kernel

theorem revision_valid : Debver.isRevision "1+dkc1".toList = true := by decide +kernel

theorem no_colon : ':' ∈ "7.1".toList → 0 ≠ 0 := by decide +kernel

def plain : PoolObject where
  key := "pool/main/d/dkc-linux/dkc-linux-base_7.1-1+dkc1_amd64.deb"
  version := ⟨0, "7.1", "1+dkc1", "7.1-1+dkc1", upstream_valid, revision_valid, no_colon⟩
  size := 5
  valid := by decide +kernel

def padded : PoolObject where
  key := "pool/main/d/dkc-linux/dkc-linux-base_7.01-1+dkc1_amd64.deb"
  version := ⟨0, "7.01", "1+dkc1", "7.01-1+dkc1", by decide +kernel, revision_valid, by decide +kernel⟩
  size := 5
  valid := by decide +kernel

end Spelling

end Retention
