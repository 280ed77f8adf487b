import DkcLinux.RetentionOrder

/-!
# The series that are retired

A series is retired by its pair of numbers, an object is newer by its version. `respects_iff` says
for which inventories the two agree, and when the greatest version is sure to stay.
-/

open Py

namespace Retention

open Grouping

/-- The objects of the retired series compare lower than what is retained, and the greatest version
is retained. -/
def Respects (values : List PoolObject) (max_series : Int) : Prop :=
  ∀ mode max_bytes fixed_bytes d, select_retained_objects values mode max_bytes fixed_bytes max_series = .ok d →
    (∀ o ∈ values, o.series ∉ d.retained_series → ∀ p ∈ values, p.key ∈ d.retained_keys →
      Debver.compare o.version p.version < 0) ∧
    ∀ g ∈ values, (∀ p ∈ values, Debver.compare p.version g.version ≤ 0) → g.key ∈ d.retained_keys

/-- Epochs, and what stands in the place of the second number, do not reverse the order of the series. -/
def Aligned (values : List PoolObject) (max_series : Int) : Prop :=
  ∀ o ∈ values, ¬ Recent values max_series o → ∀ p ∈ values, Recent values max_series p →
    o.version.Below p.version

/-- The one release occurs before the other. -/
def Before (values : List PoolObject) (r q : PatchRelease) : Prop := [r, q].Sublist (keys (releases values))

/-- Of the releases that compare equal to this one, it occurs first; or from it on they are empty. -/
def Stays (values : List PoolObject) (g : PoolObject) : Prop :=
  (∀ o ∈ values, Tied o.patch_release g.patch_release → ¬ Before values o.patch_release g.patch_release) ∨
    ∀ o ∈ values, Tied o.patch_release g.patch_release → ¬ Before values o.patch_release g.patch_release →
      o.size = 0

/-- The releases of some objects, in the order they occur. -/
theorem releases_selected (values : List PoolObject) (n : Nat) : keys (releases (selected values n)) =
    (keys (releases values)).filter fun r => r.release_version.series ∈ retainedSeries values n := by
  rw [releases, releases, filter_keys_groupBy]
  rfl

theorem mem_releases {items : List PoolObject} {o : PoolObject} (ho : o ∈ items) :
    o.patch_release ∈ keys (releases items) :=
  mem_keys_groupBy.2 ⟨o, ho, rfl⟩

theorem nodup_releases (items : List PoolObject) : (keys (releases items)).Nodup := nodup_keys_groupBy _ _

/-- What occurs before another release still does among the retained series. -/
theorem before_selected {values : List PoolObject} {n : Nat} {a b : PoolObject} (ha : a ∈ selected values n)
    (hb : b ∈ selected values n) : Before values a.patch_release b.patch_release ↔
      [a.patch_release, b.patch_release].Sublist (keys (releases (selected values n))) := by
  rw [releases_selected, Before]
  have ha' : a.patch_release.release_version.series ∈ retainedSeries values n := (mem_selected.1 ha).2
  have hb' : b.patch_release.release_version.series ∈ retainedSeries values n := (mem_selected.1 hb).2
  constructor
  · intro h
    have := h.filter fun r => decide (r.release_version.series ∈ retainedSeries values n)
    simpa [ha', hb'] using this
  · exact fun h => h.trans List.filter_sublist

/-- A protected release occurs before those that compare equal to it. -/
theorem Newest.before {items : List PoolObject} {r : PatchRelease} {o : PoolObject} (h : Newest items r)
    (ho : o ∈ items) (htied : Tied r o.patch_release) (hne : o.patch_release ≠ r) :
    [r, o.patch_release].Sublist (keys (releases items)) := by
  have hmax : maxBy older ((keys (releases items)).filter fun q => q.release_version.series =
      r.release_version.series) = some r := by
    rw [releases, filter_keys_groupBy, maxBy_groupBy older_iff]
    exact h
  obtain ⟨ps, qs, heq, hps, -⟩ := (maxBy_eq_some older_iff).1 hmax
  have hseries : o.patch_release.release_version.series = r.release_version.series :=
    (DebianVersion.series_of_key (tied_iff.1 htied)).symm
  have hmem : o.patch_release ∈ ps ++ r :: qs := by
    rw [← heq]
    exact List.mem_filter.2 ⟨mem_releases ho, decide_eq_true hseries⟩
  have hafter : o.patch_release ∈ qs := by
    rcases List.mem_append.1 hmem with hp | hp
    · exact absurd (hps _ hp) (by rw [tied_iff.1 htied]; exact lt_irrefl _)
    · exact (List.mem_cons.1 hp).resolve_left hne
  have hpair : [r, o.patch_release].Sublist (ps ++ r :: qs) :=
    ((List.singleton_sublist.2 hafter).cons_cons r).trans (List.sublist_append_right ps _)
  rw [← heq] at hpair
  exact hpair.trans List.filter_sublist

section
variable {items : List PoolObject} {g : PoolObject} (hg : g ∈ items)
  (hmax : ∀ p ∈ items, p.series = g.series → older g.patch_release p.patch_release = false)
include hg hmax

/-- A greatest release is protected if and only if it is the first of those that compare equal to it. -/
theorem newest_iff_first : Newest items g.patch_release ↔ ∀ o ∈ items, Tied o.patch_release g.patch_release →
    ¬ [o.patch_release, g.patch_release].Sublist (keys (releases items)) := by
  constructor
  · intro hnew o ho htied hbefore
    by_cases heq : o.patch_release = g.patch_release
    · rw [heq] at hbefore
      exact not_sublist_swap (nodup_releases items) hbefore hbefore
    · exact not_sublist_swap (nodup_releases items) hbefore
        (hnew.before ho (tied_iff.2 (tied_iff.1 htied).symm) heq)
  · intro hfirst
    obtain ⟨n, hn, hseries, hnewest⟩ := newest_exists hg
    have htied := tied_of_older (hnewest.spec.2 g hg hseries.symm) (hmax n hn hseries)
    by_cases heq : g.patch_release = n.patch_release
    · rwa [heq]
    · exact absurd (hnewest.before hg htied heq) (hfirst n hn htied)

end

theorem totalSize_pos_of_mem {items : List PoolObject} {o : PoolObject} (ho : o ∈ items) (hsize : 0 < o.size) :
    0 < totalSize items := by
  obtain ⟨xs, ys, rfl⟩ := List.append_of_mem ho
  have hxs := totalSize_nonneg xs
  have hys := totalSize_nonneg ys
  simp only [totalSize, List.map_append, List.map_cons, List.sum_append, List.sum_cons] at hxs hys ⊢
  omega

/-! ## The greatest release under a limit -/

theorem not_mem_take {values : List PoolObject} {max_series : Int} {q : PatchRelease} {i : Nat}
    (hq : q ∈ (removable values max_series).drop i) {n : Nat}
    (hn : n ≤ i) : q ∉ (removable values max_series).take n := by
  have hnodup : (removable values max_series).Nodup := nodup_cuts _
  rw [← List.take_append_drop i (removable values max_series), List.nodup_append] at hnodup
  exact fun h => hnodup.2.2 q ((List.take_sublist_take_left hn).subset h) q hq rfl

section
variable {values : List PoolObject} {fixed_bytes max_series : Int} {g : PoolObject}
  (hg : g ∈ selected values max_series.toNat)
  (htop : ∀ p ∈ selected values max_series.toNat, older g.patch_release p.patch_release = false)
  (hno : ¬ Newest (selected values max_series.toNat) g.patch_release)
  {i : Nat} (hi : i < (removable values max_series).length)
  (hgi : (removable values max_series)[i] = g.patch_release)
include hgi

theorem drop_eq : (removable values max_series).drop i =
    g.patch_release :: (removable values max_series).drop (i + 1) := by
  rw [List.drop_eq_getElem_cons hi, hgi]

include htop hg

/-- What goes after it compares equal, and does not occur before it. -/
theorem tied_of_drop {o : PoolObject} (ho : o ∈ selected values max_series.toNat)
    (hdrop : o.patch_release ∈ (removable values max_series).drop i) :
    Tied o.patch_release g.patch_release ∧ ¬ Before values o.patch_release g.patch_release := by
  rw [before_selected ho hg]
  rw [drop_eq hi hgi] at hdrop
  rcases List.mem_cons.1 hdrop with heq | hafter
  · rw [heq]
    exact ⟨tied_iff.2 rfl, fun h => not_sublist_swap (nodup_releases _) h h⟩
  · have hpair : [g.patch_release, o.patch_release].Sublist (removable values max_series) := by
      have hsub : [g.patch_release, o.patch_release].Sublist ((removable values max_series).drop i) := by
        rw [drop_eq hi hgi]
        exact (List.singleton_sublist.2 hafter).cons_cons _
      exact hsub.trans (List.drop_sublist i _)
    have hsorted := sorted_removable.sublist hpair
    rw [List.pairwise_pair] at hsorted
    have htied : Tied o.patch_release g.patch_release := tied_of_older hsorted (htop o ho)
    refine ⟨htied, fun hbefore => ?_⟩
    have hog := mem_removable.1 (hpair.subset (by simp) : o.patch_release ∈ removable values max_series)
    have hgg := mem_removable.1 (hpair.subset (by simp) : g.patch_release ∈ removable values max_series)
    have hcuts := pair_cuts hbefore htied (mt mem_newest.2 hog.2) (mt mem_newest.2 hgg.2)
    exact not_sublist_swap (nodup_cuts _) hcuts hpair

omit htop in
include hno in
/-- What compares equal and does not occur before it goes after it. -/
theorem drop_of_tied {o : PoolObject} (ho : o ∈ selected values max_series.toNat)
    (htied : Tied o.patch_release g.patch_release)
    (hbefore : ¬ Before values o.patch_release g.patch_release) :
    o.patch_release ∈ (removable values max_series).drop i := by
  rw [before_selected ho hg] at hbefore
  rw [drop_eq hi hgi]
  by_cases heq : o.patch_release = g.patch_release
  · rw [heq]
    exact List.mem_cons_self
  · have hono : ¬ Newest (selected values max_series.toNat) o.patch_release := fun hnew =>
      hbefore (hnew.before hg htied fun h => heq h.symm)
    have hpair := (pair_sublist_or heq (mem_releases ho) (mem_releases hg)).resolve_left hbefore
    have hcuts : [g.patch_release, o.patch_release].Sublist (removable values max_series) :=
      pair_cuts hpair (tied_iff.2 (tied_iff.1 htied).symm) hno hono
    rw [← drop_eq hi hgi]
    have hmem : o.patch_release ∈ (removable values max_series).take i ++ (removable values max_series).drop i := by
      rw [List.take_append_drop]
      exact hcuts.subset (by simp)
    refine (List.mem_append.1 hmem).resolve_left fun htake => ?_
    -- the prefix has the first of the two with the second
    have hfirst := mem_take_of_pair (nodup_cuts _) hcuts htake
    refine not_mem_take ?_ le_rfl hfirst
    rw [drop_eq hi hgi]
    exact List.mem_cons_self

/-- Empty releases do not go after the last one that has to. -/
theorem stays_of_empty {limit : Option Int} {n : Nat} (hn : Least values fixed_bytes max_series limit n)
    (hle : ∀ l, limit = some l → sizeAfter values fixed_bytes max_series n ≤ l)
    (hempty : ∀ o ∈ selected values max_series.toNat, Tied o.patch_release g.patch_release →
      ¬ Before values o.patch_release g.patch_release → o.size = 0) :
    g.patch_release ∉ (removable values max_series).take n := by
  intro hgone
  have hin : i < n := by
    by_contra hnot
    refine not_mem_take ?_ (not_lt.1 hnot) hgone
    rw [drop_eq hi hgi]
    exact List.mem_cons_self
  obtain ⟨l, hl, hover⟩ := hn.exceeds i hin
  have hfit := hle l hl
  have hsplit := totalSize_split (kept (selected values max_series.toNat) i) fun p =>
    p.patch_release ∉ keys ((cuts (selected values max_series.toNat)).take n)
  rw [kept_kept hin.le] at hsplit
  have hzero : totalSize ((kept (selected values max_series.toNat) i).filter fun p =>
      !decide (p.patch_release ∉ keys ((cuts (selected values max_series.toNat)).take n))) = 0 := by
    refine List.sum_eq_zero fun x hx => ?_
    obtain ⟨o, ho, rfl⟩ := List.mem_map.1 hx
    simp only [List.mem_filter, mem_kept, keys_take, Bool.not_eq_true', decide_eq_false_iff_not, not_not] at ho
    obtain ⟨⟨hosel, hostay⟩, hogone⟩ := ho
    have hmem : o.patch_release ∈ removable values max_series := List.mem_of_mem_take hogone
    rw [← List.take_append_drop i (removable values max_series)] at hmem
    have htied := tied_of_drop hg htop hi hgi hosel ((List.mem_append.1 hmem).resolve_left hostay)
    exact hempty o hosel htied.1 htied.2
  rw [sizeAfter] at hover hfit
  omega

omit htop in
include hno in
/-- A release that is not protected goes, under a limit that leaves no room. -/
theorem goes_of_size {n : Nat}
    (hfit : sizeAfter values fixed_bytes max_series n ≤
      sizeAfter values fixed_bytes max_series (removable values max_series).length)
    (hlen : n ≤ (removable values max_series).length) {o : PoolObject}
    (ho : o ∈ selected values max_series.toNat) (htied : Tied o.patch_release g.patch_release)
    (hbefore : ¬ Before values o.patch_release g.patch_release) (hsize : 0 < o.size) :
    g.patch_release ∈ (removable values max_series).take n := by
  have hdrop := drop_of_tied hg hno hi hgi ho htied hbefore
  by_contra hstay
  have hni : n ≤ i := by
    by_contra hnot
    refine hstay (List.mem_take_iff_getElem.2 ⟨i, ?_, hgi⟩)
    omega
  have hsplit := totalSize_split (kept (selected values max_series.toNat) n) fun p =>
    p.patch_release ∉ keys ((cuts (selected values max_series.toNat)).take (removable values max_series).length)
  rw [kept_kept hlen] at hsplit
  have hpos : 0 < totalSize ((kept (selected values max_series.toNat) n).filter fun p => !decide
      (p.patch_release ∉ keys ((cuts (selected values max_series.toNat)).take (removable values max_series).length))) := by
    refine totalSize_pos_of_mem (List.mem_filter.2 ⟨mem_kept.2 ⟨ho, ?_⟩, ?_⟩) hsize
    · rw [keys_take]
      exact not_mem_take hdrop hni
    · rw [keys_take, ← removable, List.take_length]
      simpa using List.mem_of_mem_drop hdrop
  rw [sizeAfter, sizeAfter] at hfit
  omega

end

section
variable {values : List PoolObject} {max_series : Int}

theorem mem_retained_iff {mode : RetentionMode} {max_bytes : Option Int} {fixed_bytes : Int} {d : RetentionDecision}
    (h : select_retained_objects values mode max_bytes fixed_bytes max_series = .ok d) {o : PoolObject}
    (ho : o ∈ values) : o.series ∈ d.retained_series ↔ Recent values max_series o := by
  obtain ⟨hp, -, n, -, -, hd⟩ := select_least h
  have hselected := @mem_selected_iff values max_series hp.series o
  rw [mem_selected] at hselected
  rw [hd, decision]
  simpa [ho] using hselected

/-- The retained series are the greatest. -/
theorem series_lt {o p : PoolObject} (ho : ¬ Recent values max_series o) (hp : Recent values max_series p) :
    o.series < p.series := by
  by_contra hnot
  rw [Recent] at ho hp
  have hsub : ((values.map (·.series)).dedup.filter fun t => decide (o.series < t)).Sublist
      ((values.map (·.series)).dedup.filter fun t => decide (p.series < t)) := by
    refine List.monotone_filter_right _ fun t ht => ?_
    rw [decide_eq_true_eq] at ht ⊢
    exact (not_lt.1 hnot).trans_lt ht
  have := hsub.length_le
  omega

/-- Versions in order have releases in order. -/
theorem older_of_compare {a b : PoolObject} (h : Debver.compare a.version b.version ≤ 0) :
    older b.patch_release a.patch_release = false := by
  rw [older_false]
  rw [Debver.compare_nonpos, le_iff_lt_or_eq, Debver.key_lt, Debver.key_eq] at h
  rw [le_iff_lt_or_eq, Debver.key_lt, Debver.key_eq]
  rcases h with (hepoch | ⟨hepoch, hup | ⟨hup, -⟩⟩) | ⟨hepoch, hup, -⟩
  · exact .inl (.inl hepoch)
  · exact .inl (.inr ⟨hepoch, .inl hup⟩)
  · exact .inr ⟨hepoch, hup, rfl⟩
  · exact .inr ⟨hepoch, hup, rfl⟩

theorem exists_recent (hs : 1 ≤ max_series) (hne : values ≠ []) : ∃ p ∈ values, Recent values max_series p := by
  have hlen : 0 < (retainedSeries values max_series.toNat).length := by
    obtain ⟨o, rest, rfl⟩ := List.exists_cons_of_ne_nil hne
    have hmem : o.series ∈ ((o :: rest).map (·.series)).dedup := List.mem_dedup.2 (by simp)
    have := List.length_pos_of_mem hmem
    rw [retainedSeries, List.length_take, List.length_insertionSort]
    omega
  obtain ⟨s, hmem⟩ := List.exists_mem_of_length_pos hlen
  obtain ⟨⟨p, hp, rfl⟩, hcount⟩ := mem_retainedSeries.1 hmem
  exact ⟨p, hp, by rw [Recent]; omega⟩

/-- The greatest version, among the retained series. -/
theorem stays_selected {g : PoolObject} (hg : g ∈ selected values max_series.toNat)
    (hgreat : ∀ p ∈ values, Debver.compare p.version g.version ≤ 0) : Stays values g ↔
      Newest (selected values max_series.toNat) g.patch_release ∨
        ∀ o ∈ selected values max_series.toNat, Tied o.patch_release g.patch_release →
          ¬ Before values o.patch_release g.patch_release → o.size = 0 := by
  have hmem : ∀ {o}, o ∈ values → Tied o.patch_release g.patch_release →
      o ∈ selected values max_series.toNat := fun {o} ho htied => by
    rw [mem_selected, tied_series htied]
    exact ⟨ho, (mem_selected.1 hg).2⟩
  have hmax : ∀ p ∈ selected values max_series.toNat, p.series = g.series →
      older g.patch_release p.patch_release = false :=
    fun p hp _ => older_of_compare (hgreat p (mem_selected.1 hp).1)
  rw [newest_iff_first hg hmax]
  refine or_congr ?_ ?_
  · constructor
    · intro h o ho htied hbefore
      exact h o (mem_selected.1 ho).1 htied ((before_selected ho hg).2 hbefore)
    · intro h o ho htied hbefore
      exact h o (hmem ho htied) htied ((before_selected (hmem ho htied) hg).1 hbefore)
  · constructor
    · intro h o ho
      exact h o (mem_selected.1 ho).1
    · intro h o ho htied
      exact h o (hmem ho htied) htied

/-- Some limit removes a greatest version that does not stay. -/
theorem goes_under_limit (hk : (values.map (·.key)).Nodup) (hs : 1 ≤ max_series) {g : PoolObject}
    (hg : g ∈ selected values max_series.toNat)
    (hgreat : ∀ p ∈ values, Debver.compare p.version g.version ≤ 0) (hno : ¬ Stays values g) :
    ∃ limit d, select_retained_objects values .series_size (some limit) 1 max_series = .ok d ∧
      g.key ∉ d.retained_keys := by
  rw [stays_selected hg hgreat, not_or] at hno
  obtain ⟨hnew, hsize⟩ := hno
  simp only [not_forall] at hsize
  obtain ⟨o, ho, htied, hbefore, hsize⟩ := hsize
  have hpos : 0 < o.size := lt_of_le_of_ne (size_nonneg o) (Ne.symm hsize)
  have hgv := (mem_selected.1 hg).1
  have hp : Proper values 1 max_series := ⟨hs, by decide, hk, List.ne_nil_of_mem hgv⟩
  have hrem : g.patch_release ∈ removable values max_series :=
    mem_removable.2 ⟨⟨g, hg, rfl⟩, mt mem_newest.1 hnew⟩
  obtain ⟨i, hi, hgi⟩ := List.getElem_of_mem hrem
  -- the limit leaves room for the protected releases alone
  have hlimit : 1 ≤ sizeAfter values 1 max_series (removable values max_series).length := by
    have := totalSize_nonneg (kept (selected values max_series.toNat) (removable values max_series).length)
    rw [sizeAfter]
    omega
  obtain ⟨n, hn, hcases⟩ := select_spec (@checkArguments_ok _ _ _ hp .series_size
    (some (sizeAfter values 1 max_series (removable values max_series).length)) (by
      rw [checkLimit, if_neg (not_lt.2 hlimit)]))
  have hfit : sizeAfter values 1 max_series n ≤
      sizeAfter values 1 max_series (removable values max_series).length := by
    rcases hn.le.lt_or_eq with hlt | heq
    · exact hn.fits hlt _ rfl
    · rw [heq]
  rcases hcases with ⟨l, hl, hlt, -⟩ | ⟨-, d, hd, hfields⟩
  · rw [byteLimit, if_pos rfl, Option.some.injEq] at hl
    omega
  · refine ⟨_, d, hd, ?_⟩
    rw [hfields, decision, mem_keys_kept hk hgv, mem_kept_iff]
    exact fun h => h.2.2 (goes_of_size hg hnew hi hgi hfit hn.le ho htied hbefore hpos)

end

namespace Epochs

def object (key : String) (version : DebianVersion)
    (valid : PoolObjectFields.post_init ⟨key, version, 5⟩ = .ok ()) : PoolObject := ⟨⟨key, version, 5⟩, valid⟩

def release (upstream : String) (valid : Debver.isUpstream upstream.toList = true)
    (colon : ':' ∉ upstream.toList) : DebianVersion :=
  ⟨0, upstream, "1+dkc1", upstream ++ "-1+dkc1", valid, Spelling.revision_valid, fun h => absurd h colon⟩

def greatest : DebianVersion :=
  ⟨1, "6.0", "1+dkc1", "1:6.0-1+dkc1", by decide +kernel, Spelling.revision_valid, fun _ => one_ne_zero⟩

/-- Four series; the release with an epoch is in the least one. -/
def inventory : List PoolObject :=
  [object "pool/a.deb" (release "7.1" Spelling.upstream_valid (by decide +kernel)) (by decide +kernel),
    object "pool/b.deb" (release "7.2" (by decide +kernel) (by decide +kernel)) (by decide +kernel),
    object "pool/c.deb" (release "7.3" (by decide +kernel) (by decide +kernel)) (by decide +kernel),
    object "pool/d.deb" greatest (by decide +kernel)]

end Epochs

end Retention
