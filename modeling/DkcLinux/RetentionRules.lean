import DkcLinux.Retention

/-!
# What retention keeps

`select_spec` says what the selector computes: the least number of releases that have to go, and
either a decision without them or the failure for size. From it follow the rules of retention
(`Correct`), the exact condition of that failure, and that both depend on the inventory as a set.
-/

open Py

namespace Retention

open Grouping

/-- The failure for size. -/
def tooLarge : PyErr :=
  .ValueError "the newest patch release of every retained series exceeds the configured byte limit"

/-- The limit that is applied. -/
def byteLimit (mode : RetentionMode) (max_bytes : Option Int) : Option Int :=
  if mode = .series_size then max_bytes else none

section
variable (values : List PoolObject) (fixed_bytes max_series : Int)

/-- The releases that may go, oldest first. -/
def removable : List PatchRelease := keys (cuts (selected values max_series.toNat))

/-- The bytes without the first `n` of them. -/
def sizeAfter (n : Nat) : Int := fixed_bytes + totalSize (kept (selected values max_series.toNat) n)

/-- The newest releases of the retained series. -/
def protectedObjects : List PoolObject :=
  (selected values max_series.toNat).filter fun o =>
    o.patch_release ∈ newest (bySeries (selected values max_series.toNat))

/-- The least number of releases that have to go. -/
structure Least (limit : Option Int) (n : Nat) : Prop where
  le : n ≤ (removable values max_series).length
  exceeds : ∀ m < n, ∃ l, limit = some l ∧ l < sizeAfter values fixed_bytes max_series m
  fits : n < (removable values max_series).length → ∀ l, limit = some l →
    sizeAfter values fixed_bytes max_series n ≤ l

end

section
variable {values : List PoolObject} {mode : RetentionMode} {max_bytes : Option Int} {fixed_bytes max_series : Int}

theorem Least.unique {limit : Option Int} {m n : Nat} (hm : Least values fixed_bytes max_series limit m)
    (hn : Least values fixed_bytes max_series limit n) : m = n := by
  rcases Nat.lt_trichotomy m n with h | h | h
  · obtain ⟨l, hl, hover⟩ := hn.exceeds m h
    exact absurd (hm.fits (lt_of_lt_of_le h hn.le) l hl) (not_le.2 hover)
  · exact h
  · obtain ⟨l, hl, hover⟩ := hm.exceeds n h
    exact absurd (hn.fits (lt_of_lt_of_le h hm.le) l hl) (not_le.2 hover)

theorem length_removable : (removable values max_series).length = (cuts (selected values max_series.toNat)).length :=
  List.length_map _

/-- Removal under the limit. -/
theorem applyLimit_spec (hk : (values.map (·.key)).Nodup) (hlimit : checkLimit mode max_bytes = .ok ()) :
    ∃ n, Least values fixed_bytes max_series (byteLimit mode max_bytes) n ∧
      ((∃ l, byteLimit mode max_bytes = some l ∧ l < sizeAfter values fixed_bytes max_series n ∧
          applyLimit mode max_bytes (cuts (selected values max_series.toNat))
            (selected values max_series.toNat, fixed_bytes + totalSize (selected values max_series.toNat)) =
              .error tooLarge) ∨
        ((∀ l, byteLimit mode max_bytes = some l → sizeAfter values fixed_bytes max_series n ≤ l) ∧
          applyLimit mode max_bytes (cuts (selected values max_series.toNat))
            (selected values max_series.toNat, fixed_bytes + totalSize (selected values max_series.toNat)) =
              .ok (kept (selected values max_series.toNat) n, sizeAfter values fixed_bytes max_series n))) := by
  have hzero := kept_zero (selected values max_series.toNat)
  cases mode with
  | series =>
    refine ⟨0, ⟨Nat.zero_le _, by simp, by simp [byteLimit]⟩, .inr ⟨by simp [byteLimit], ?_⟩⟩
    rw [sizeAfter, hzero]
    rfl
  | other m => simp [checkLimit] at hlimit
  | series_size =>
    cases max_bytes with
    | none => simp [checkLimit] at hlimit
    | some limit =>
      obtain ⟨n, hn, htrim, hover, hfit⟩ := @trim_least _ _ removeRelease (·.2) limit
        (cuts (selected values max_series.toNat))
        (selected values max_series.toNat, fixed_bytes + totalSize (selected values max_series.toNat))
      have hweight : ∀ m, (without removeRelease (cuts (selected values max_series.toNat)) m
          (selected values max_series.toNat, fixed_bytes + totalSize (selected values max_series.toNat))).2 =
          sizeAfter values fixed_bytes max_series m := fun m => by rw [trim_kept hk]; rfl
      simp only [hweight] at hover hfit
      have hleast : Least values fixed_bytes max_series (byteLimit .series_size (some limit)) n := by
        refine ⟨by rwa [length_removable], fun m hm => ⟨limit, rfl, hover m hm⟩, fun hlt l hl => ?_⟩
        cases hl
        exact hfit (by rwa [length_removable] at hlt)
      refine ⟨n, hleast, ?_⟩
      have hfirst : fixed_bytes + totalSize (selected values max_series.toNat) =
          sizeAfter values fixed_bytes max_series 0 := by rw [sizeAfter, hzero]
      rw [trim_kept hk] at htrim
      rw [applyLimit, fit, htrim]
      dsimp only
      rw [hfirst]
      by_cases hle : sizeAfter values fixed_bytes max_series n ≤ limit
      · refine .inr ⟨fun l hl => by cases hl; exact hle, ?_⟩
        split
        · rw [if_neg (show ¬ fixed_bytes + totalSize (kept (selected values max_series.toNat) n) > limit from
            not_lt.2 hle)]
          rfl
        · next hno =>
          -- nothing has to go
          obtain rfl : n = 0 := by
            by_contra hpos
            exact hno (hover 0 (Nat.pos_of_ne_zero hpos))
          rw [hzero]
      · have hlt := not_le.1 hle
        refine .inl ⟨limit, rfl, hlt, ?_⟩
        have hover0 : sizeAfter values fixed_bytes max_series 0 > limit := by
          rcases Nat.eq_zero_or_pos n with rfl | hpos
          · exact hlt
          · exact hover 0 hpos
        rw [if_pos hover0, if_pos (show fixed_bytes + totalSize (kept (selected values max_series.toNat) n) > limit
          from hlt)]
        rfl

theorem checkLimit_of_ok (h : checkArguments values mode max_bytes fixed_bytes max_series = .ok ()) :
    checkLimit mode max_bytes = .ok () := by
  simp only [checkArguments, except_throw, except_error_bind, except_check_eq_ok] at h
  obtain ⟨-, -, -, h⟩ := h
  obtain ⟨u, hlimit, -⟩ := except_bind_eq_ok.1 h
  exact hlimit

/-- **What the selector computes.** -/
theorem select_spec (h : checkArguments values mode max_bytes fixed_bytes max_series = .ok ()) :
    ∃ n, Least values fixed_bytes max_series (byteLimit mode max_bytes) n ∧
      ((∃ l, byteLimit mode max_bytes = some l ∧ l < sizeAfter values fixed_bytes max_series n ∧
          select_retained_objects values mode max_bytes fixed_bytes max_series = .error tooLarge) ∨
        ((∀ l, byteLimit mode max_bytes = some l → sizeAfter values fixed_bytes max_series n ≤ l) ∧
          ∃ d, select_retained_objects values mode max_bytes fixed_bytes max_series = .ok d ∧
            d.toRetentionFields = decision values mode max_bytes fixed_bytes max_series n)) := by
  have hp := proper_of_ok h
  have hlimit := checkLimit_of_ok h
  obtain ⟨n, hn, ⟨l, hl, hlt, happly⟩ | ⟨hle, happly⟩⟩ :=
    @applyLimit_spec values mode max_bytes fixed_bytes max_series hp.keys hlimit
  · refine ⟨n, hn, .inl ⟨l, hl, hlt, ?_⟩⟩
    rw [select_retained_objects, h, except_ok_bind]
    dsimp only
    rw [releasesBySeries_ok, except_ok_bind, ← cuts, happly]
    rfl
  · refine ⟨n, hn, .inr ⟨hle, select_answer hp hlimit happly fun limit hmode hmax => ?_⟩⟩
    exact hle limit (by rw [byteLimit, if_pos hmode, hmax])

theorem select_unchecked {e : PyErr} (h : checkArguments values mode max_bytes fixed_bytes max_series = .error e) :
    select_retained_objects values mode max_bytes fixed_bytes max_series = .error e := by
  rw [select_retained_objects, h]
  rfl

/-- A successful selection. -/
theorem select_least {d : RetentionDecision}
    (h : select_retained_objects values mode max_bytes fixed_bytes max_series = .ok d) :
    Proper values fixed_bytes max_series ∧ checkLimit mode max_bytes = .ok () ∧
      ∃ n, Least values fixed_bytes max_series (byteLimit mode max_bytes) n ∧
        (∀ l, byteLimit mode max_bytes = some l → sizeAfter values fixed_bytes max_series n ≤ l) ∧
        d.toRetentionFields = decision values mode max_bytes fixed_bytes max_series n := by
  cases hc : checkArguments values mode max_bytes fixed_bytes max_series with
  | error e =>
    rw [select_unchecked hc] at h
    cases h
  | ok u =>
    obtain ⟨n, hn, ⟨l, -, -, herr⟩ | ⟨hle, d', hd, hfields⟩⟩ := select_spec hc
    · rw [herr] at h
      cases h
    · rw [hd] at h
      cases h
      exact ⟨proper_of_ok hc, checkLimit_of_ok hc, n, hn, hle, hfields⟩

end

/-! ## The rules -/

section
variable {values : List PoolObject} {max_series : Int}

theorem mem_selected {n : Nat} {o : PoolObject} :
    o ∈ selected values n ↔ o ∈ values ∧ o.series ∈ retainedSeries values n := by
  rw [selected, List.mem_filter, decide_eq_true_eq]

/-- The series that are retained: fewer than `max_series` present ones are greater. -/
theorem mem_retainedSeries {n : Nat} {s : ℕ ×ₗ ℕ} : s ∈ retainedSeries values n ↔
    (∃ o ∈ values, o.series = s) ∧ ((values.map (·.series)).dedup.filter fun t => decide (s < t)).length < n := by
  rw [retainedSeries, mem_take_sorted (List.nodup_dedup _), List.mem_dedup, List.mem_map]

/-- No release of its series exceeds a protected one. -/
theorem Newest.spec {items : List PoolObject} {r : PatchRelease} (h : Newest items r) :
    (∃ o ∈ items, o.patch_release = r) ∧
      ∀ p ∈ items, p.series = r.release_version.series → older r p.patch_release = false := by
  rcases maxBy_spec older_iff ((items.filter fun o => o.series = r.release_version.series).map PoolObject.patch_release)
    with ⟨-, hnone⟩ | ⟨b, hb, hmem, hmax⟩
  · rw [Newest, hnone] at h
    cases h
  · rw [Newest, hb] at h
    cases h
    obtain ⟨o, ho, hr⟩ := List.mem_map.1 hmem
    refine ⟨⟨o, (List.mem_filter.1 ho).1, hr⟩, fun p hp hs => ?_⟩
    rw [← Bool.not_eq_true, older_iff]
    exact not_lt.2 (hmax _ (List.mem_map_of_mem (List.mem_filter.2 ⟨hp, decide_eq_true hs⟩)))

theorem mem_removable {r : PatchRelease} : r ∈ removable values max_series ↔
    (∃ o ∈ selected values max_series.toNat, o.patch_release = r) ∧
      r ∉ newest (bySeries (selected values max_series.toNat)) := by
  rw [removable, mem_keys_cuts, mem_newest]

instance : Std.Total fun a b : PatchRelease × List PoolObject => ¬ older b.1 a.1 = true := ⟨fun a b => by
  rw [older_iff, older_iff, not_lt, not_lt]
  exact le_total _ _⟩

instance : IsTrans (PatchRelease × List PoolObject) fun a b => ¬ older b.1 a.1 = true := ⟨fun a b c => by
  rw [older_iff, older_iff, older_iff, not_lt, not_lt, not_lt]
  exact le_trans⟩

theorem sorted_removable : (removable values max_series).Pairwise fun a b => older b a = false := by
  rw [removable, keys, List.pairwise_map]
  refine (List.pairwise_insertionSort (fun a b : PatchRelease × List PoolObject => ¬ older b.1 a.1 = true) _).imp ?_
  exact fun h => Bool.not_eq_true _ ▸ h

theorem mem_kept_iff {n : Nat} {o : PoolObject} : o ∈ kept (selected values max_series.toNat) n ↔
    o ∈ values ∧ o.series ∈ retainedSeries values max_series.toNat ∧
      o.patch_release ∉ (removable values max_series).take n := by
  rw [mem_kept, mem_selected, keys_take, and_assoc]
  rfl

/-- Without every release that may go, the protected ones are left. -/
theorem kept_all : kept (selected values max_series.toNat) (removable values max_series).length =
    protectedObjects values max_series := by
  rw [kept, rest, protectedObjects]
  refine List.filter_congr fun o ho => ?_
  rw [length_removable, List.take_length, decide_eq_decide, mem_keys_cuts, ← mem_newest]
  constructor
  · intro h
    by_contra hnot
    exact h ⟨⟨o, ho, rfl⟩, hnot⟩
  · exact fun h hnot => hnot.2 h

/-- One more release goes, with all its objects. -/
theorem sizeAfter_succ {fixed_bytes : Int} {n : Nat} (hn : n < (removable values max_series).length) :
    sizeAfter values fixed_bytes max_series n = sizeAfter values fixed_bytes max_series (n + 1) +
      totalSize (values.filter fun o => o.patch_release = (removable values max_series)[n]) := by
  have hr : (removable values max_series)[n] ∈ removable values max_series := List.getElem_mem hn
  obtain ⟨⟨o, ho, hor⟩, -⟩ := mem_removable.1 hr
  have hnodup : (removable values max_series).Nodup := nodup_cuts _
  have hsplit := totalSize_split (kept (selected values max_series.toNat) n) fun p =>
    p.patch_release ∉ keys ((cuts (selected values max_series.toNat)).take (n + 1))
  rw [kept_kept (Nat.le_add_right n 1)] at hsplit
  have hmembers : (selected values max_series.toNat).filter (fun p =>
      p.patch_release = (removable values max_series)[n]) =
      values.filter fun p => p.patch_release = (removable values max_series)[n] := by
    rw [selected, List.filter_filter]
    refine List.filter_congr fun p _ => ?_
    by_cases hp : p.patch_release = (removable values max_series)[n]
    · have hseries := (mem_selected.1 ho).2
      rw [← series_of_release (hp.trans hor.symm)] at hseries
      simp [hp, hseries]
    · simp [hp]
  have hgone : (kept (selected values max_series.toNat) n).filter (fun p =>
      !decide (p.patch_release ∉ keys ((cuts (selected values max_series.toNat)).take (n + 1)))) =
      (selected values max_series.toNat).filter fun p => p.patch_release = (removable values max_series)[n] := by
    rw [kept, rest, List.filter_filter]
    refine List.filter_congr fun p _ => ?_
    rw [keys_take, keys_take, ← removable, List.take_succ_eq_append_getElem hn, Bool.eq_iff_iff]
    simp only [List.mem_append, List.mem_singleton, Bool.and_eq_true, Bool.not_eq_true', decide_eq_false_iff_not,
      not_not, decide_eq_true_eq]
    constructor
    · rintro ⟨hin | heq, hnot⟩
      · exact absurd hin hnot
      · exact heq
    · intro heq
      refine ⟨.inr heq, ?_⟩
      rw [heq, List.mem_take_iff_getElem]
      rintro ⟨i, hi, hin⟩
      have := hnodup.getElem_inj_iff.1 hin
      omega
  rw [hmembers] at hgone
  rw [hgone] at hsplit
  rw [sizeAfter, sizeAfter, hsplit]
  omega

end

/-- Fewer releases, fewer bytes. -/
theorem sizeAfter_le {values : List PoolObject} {fixed_bytes max_series : Int} {m n : Nat} (h : m ≤ n) :
    sizeAfter values fixed_bytes max_series n ≤ sizeAfter values fixed_bytes max_series m := by
  have hsplit := totalSize_split (kept (selected values max_series.toNat) m) fun p =>
    p.patch_release ∉ keys ((cuts (selected values max_series.toNat)).take n)
  rw [kept_kept h] at hsplit
  have hgone := totalSize_nonneg ((kept (selected values max_series.toNat) m).filter fun p =>
    !decide (p.patch_release ∉ keys ((cuts (selected values max_series.toNat)).take n)))
  rw [sizeAfter, sizeAfter]
  omega

/-- The arguments never fail for size. -/
theorem checkArguments_ne {values : List PoolObject} {mode : RetentionMode} {max_bytes : Option Int}
    {fixed_bytes max_series : Int} :
    checkArguments values mode max_bytes fixed_bytes max_series ≠ .error tooLarge := by
  unfold checkArguments checkLimit tooLarge
  simp only [except_throw, except_error_bind]
  repeat' split
  all_goals simp

/-- What the byte limit removes: the first `n` releases of `order`, which lists all that may go. -/
structure Removal (values : List PoolObject) (max_series limit : Int) (d : RetentionDecision)
    (order : List PatchRelease) (n : Nat) : Prop where
  fits : d.retained_bytes ≤ limit
  unprotected : ∀ r, r ∈ order ↔ (∃ o ∈ values, o.series ∈ d.retained_series ∧ o.patch_release = r) ∧
    r ∉ newest (bySeries (selected values max_series.toNat))
  nodup : order.Nodup
  oldest_first : order.Pairwise fun a b => older b a = false
  dropped : ∀ o ∈ values, o.series ∈ d.retained_series →
    (o.key ∉ d.retained_keys ↔ o.patch_release ∈ order.take n)
  last : ∀ r, (order.take n).getLast? = some r →
    limit < d.retained_bytes + totalSize (values.filter fun o => o.patch_release = r)

/-- The rules of retention. -/
structure Correct (values : List PoolObject) (mode : RetentionMode) (max_bytes : Option Int)
    (fixed_bytes max_series : Int) (d : RetentionDecision) : Prop where
  keys : ∀ k ∈ d.retained_keys, ∃ o ∈ values, o.key = k
  bytes : d.retained_bytes = fixed_bytes + totalSize (values.filter fun o => o.key ∈ d.retained_keys)
  series : ∀ s, s ∈ d.retained_series ↔ (∃ o ∈ values, o.series = s) ∧
    (((values.map (·.series)).dedup.filter fun t => decide (s < t)).length : Int) < max_series
  greatest : ∀ o ∈ values, o.key ∈ d.retained_keys → o.series ∈ d.retained_series
  together : ∀ a ∈ values, ∀ b ∈ values, a.version.epoch = b.version.epoch →
    a.version.upstream = b.version.upstream → (a.key ∈ d.retained_keys ↔ b.key ∈ d.retained_keys)
  newest : ∀ s ∈ d.retained_series, ∃ o ∈ values, o.series = s ∧ o.key ∈ d.retained_keys ∧
    ∀ p ∈ values, p.series = s → older o.patch_release p.patch_release = false
  all : mode = .series → ∀ o ∈ values, o.series ∈ d.retained_series → o.key ∈ d.retained_keys
  removal : mode = .series_size → ∃ limit order n, max_bytes = some limit ∧
    Removal values max_series limit d order n

section
variable {values : List PoolObject} {mode : RetentionMode} {max_bytes : Option Int} {fixed_bytes max_series : Int}

/-- The key of an object of the inventory, among those that are kept. -/
theorem mem_keys_kept (hk : (values.map (·.key)).Nodup) {n : Nat} {o : PoolObject} (ho : o ∈ values) :
    o.key ∈ (kept (selected values max_series.toNat) n).map (·.key) ↔
      o ∈ kept (selected values max_series.toNat) n := by
  constructor
  · intro h
    obtain ⟨p, hp, heq⟩ := List.mem_map.1 h
    rwa [← key_inj hk (mem_kept_iff.1 hp).1 ho heq]
  · exact fun h => List.mem_map_of_mem h

theorem kept_eq_filter (hk : (values.map (·.key)).Nodup) (n : Nat) :
    kept (selected values max_series.toNat) n =
      values.filter fun o => o.key ∈ (kept (selected values max_series.toNat) n).map (·.key) := by
  have hkept : kept (selected values max_series.toNat) n = values.filter fun o =>
      decide (o.patch_release ∉ (removable values max_series).take n) &&
        decide (o.series ∈ retainedSeries values max_series.toNat) := by
    rw [kept, rest, keys_take, ← removable, selected, List.filter_filter]
  rw [hkept]
  refine List.filter_congr fun o ho => ?_
  rw [← hkept, Bool.eq_iff_iff, decide_eq_true_eq, mem_keys_kept hk ho, mem_kept_iff]
  simp [ho, and_comm]

theorem correct_of_least (hp : Proper values fixed_bytes max_series) (hlimit : checkLimit mode max_bytes = .ok ())
    {n : Nat} {d : RetentionDecision} (hn : Least values fixed_bytes max_series (byteLimit mode max_bytes) n)
    (hle : ∀ l, byteLimit mode max_bytes = some l → sizeAfter values fixed_bytes max_series n ≤ l)
    (hd : d.toRetentionFields = decision values mode max_bytes fixed_bytes max_series n) :
    Correct values mode max_bytes fixed_bytes max_series d := by
  have hkeys : d.retained_keys = (kept (selected values max_series.toNat) n).map (·.key) := by rw [hd]; rfl
  have hseries : d.retained_series = retainedSeries values max_series.toNat := by rw [hd]; rfl
  have hbytes : d.retained_bytes = sizeAfter values fixed_bytes max_series n := by rw [hd]; rfl
  have hmem : ∀ o ∈ values, (o.key ∈ d.retained_keys ↔ o.series ∈ d.retained_series ∧
      o.patch_release ∉ (removable values max_series).take n) := fun o ho => by
    rw [hkeys, hseries, mem_keys_kept hp.keys ho, mem_kept_iff]
    simp [ho]
  constructor
  · intro k hk
    rw [hkeys] at hk
    obtain ⟨o, ho, rfl⟩ := List.mem_map.1 hk
    exact ⟨o, (mem_kept_iff.1 ho).1, rfl⟩
  · rw [hbytes, hkeys, ← kept_eq_filter hp.keys]
    rfl
  · intro s
    have hmax := hp.series
    rw [hseries, mem_retainedSeries]
    refine and_congr_right fun _ => ?_
    omega
  · exact fun o ho hk => ((hmem o ho).1 hk).1
  · intro a ha b hb hepoch hupstream
    have hrelease : a.patch_release = b.patch_release := by
      simp only [PoolObject.patch_release, DebianVersion.patch_release, PatchRelease.mk.injEq]
      exact ⟨hepoch, hupstream⟩
    rw [hmem a ha, hmem b hb, hrelease, series_of_release hrelease]
  · intro s hs
    have hpresent := (mem_retainedSeries.1 (hseries ▸ hs)).1
    obtain ⟨o, ho, rfl⟩ := hpresent
    obtain ⟨p, hpi, hps, hnewest⟩ := newest_exists (mem_selected.2 ⟨ho, hseries ▸ hs⟩)
    have hpv := (mem_selected.1 hpi).1
    refine ⟨p, hpv, hps, (hmem p hpv).2 ⟨by rwa [hps], fun hin => ?_⟩, fun q hq hqs => ?_⟩
    · exact (mem_removable.1 (List.mem_of_mem_take hin)).2 (mem_newest.2 hnewest)
    · refine hnewest.spec.2 q (mem_selected.2 ⟨hq, ?_⟩) ?_
      · rw [hqs]
        exact hseries ▸ hs
      · rw [hqs, ← hps]
        rfl
  · rintro rfl o ho hs
    have hzero : n = 0 := by
      by_contra hpos
      obtain ⟨l, hl, -⟩ := hn.exceeds 0 (Nat.pos_of_ne_zero hpos)
      simp [byteLimit] at hl
    rw [hmem o ho, hzero]
    exact ⟨hs, by simp⟩
  · rintro rfl
    obtain ⟨limit, rfl⟩ : ∃ limit, max_bytes = some limit := by
      cases max_bytes with
      | none => simp [checkLimit] at hlimit
      | some limit => exact ⟨limit, rfl⟩
    refine ⟨limit, removable values max_series, n, rfl, ?_, ?_, nodup_cuts _, sorted_removable, ?_, ?_⟩
    · rw [hbytes]
      exact hle limit rfl
    · intro r
      rw [mem_removable, hseries]
      simp only [mem_selected, and_assoc]
    · intro o ho hs
      rw [hmem o ho, not_and, not_not]
      exact ⟨fun h => h hs, fun h _ => h⟩
    · intro r hr
      have hlen := hn.le
      obtain ⟨m, rfl⟩ : ∃ m, n = m + 1 := Nat.exists_eq_succ_of_ne_zero (by rintro rfl; simp at hr)
      have hget : (removable values max_series)[m] = r := by
        rw [List.take_succ_eq_append_getElem (by omega), List.getLast?_concat] at hr
        exact Option.some.inj hr
      obtain ⟨l, hl, hover⟩ := hn.exceeds m (Nat.lt_succ_self m)
      obtain rfl : limit = l := Option.some.inj hl
      rw [sizeAfter_succ (by omega), hget] at hover
      rw [hbytes]
      exact hover

end

/-- **Retention is correct and minimal.** A selection keeps the rules; it fails for size if and only if
the protected releases alone exceed the limit, and for nothing else that its arguments allow. -/
theorem retention_correct (values : List PoolObject) (mode : RetentionMode) (max_bytes : Option Int)
    (fixed_bytes max_series : Int) :
    (∀ d, select_retained_objects values mode max_bytes fixed_bytes max_series = .ok d →
      Correct values mode max_bytes fixed_bytes max_series d) ∧
    (select_retained_objects values mode max_bytes fixed_bytes max_series = .error tooLarge ↔
      checkArguments values mode max_bytes fixed_bytes max_series = .ok () ∧
        ∃ limit, mode = .series_size ∧ max_bytes = some limit ∧
          limit < fixed_bytes + totalSize (protectedObjects values max_series)) ∧
    (∀ e, select_retained_objects values mode max_bytes fixed_bytes max_series = .error e →
      e = tooLarge ∨ checkArguments values mode max_bytes fixed_bytes max_series = .error e) := by
  refine ⟨fun d h => ?_, ?_, fun e h => ?_⟩
  · obtain ⟨hp, hlimit, n, hn, hle, hd⟩ := select_least h
    exact correct_of_least hp hlimit hn hle hd
  · cases hc : checkArguments values mode max_bytes fixed_bytes max_series with
    | error e =>
      rw [select_unchecked hc]
      simp only [Except.error.injEq, reduceCtorEq, false_and, iff_false]
      rintro rfl
      exact checkArguments_ne hc
    | ok u =>
      obtain ⟨n, hn, hcases⟩ := select_spec hc
      simp only [true_and]
      constructor
      · intro herr
        rcases hcases with ⟨l, hl, hlt, -⟩ | ⟨-, d, hd, -⟩
        · have hmode : mode = .series_size ∧ max_bytes = some l := by
            unfold byteLimit at hl
            split at hl
            · next hm => exact ⟨hm, hl⟩
            · cases hl
          refine ⟨l, hmode.1, hmode.2, ?_⟩
          -- what fails has nothing left to remove
          have hall : n = (removable values max_series).length := by
            by_contra hne
            exact absurd (hn.fits (lt_of_le_of_ne hn.le hne) l hl) (not_le.2 hlt)
          rwa [hall, sizeAfter, kept_all] at hlt
        · rw [hd] at herr
          cases herr
      · rintro ⟨limit, rfl, rfl, hlt⟩
        rcases hcases with ⟨-, -, -, herr⟩ | ⟨hle, -⟩
        · exact herr
        · have hfit := hle limit rfl
          have hleast := @sizeAfter_le values fixed_bytes max_series _ _ hn.le
          rw [sizeAfter, kept_all] at hleast
          omega
  · cases hc : checkArguments values mode max_bytes fixed_bytes max_series with
    | error e' =>
      rw [select_unchecked hc] at h
      exact .inr (congrArg Except.error (Except.error.inj h))
    | ok u =>
      obtain ⟨n, -, ⟨-, -, -, herr⟩ | ⟨-, d, hd, -⟩⟩ := select_spec hc
      · rw [herr] at h
        exact .inl (Except.error.inj h).symm
      · rw [hd] at h
        cases h

end Retention
