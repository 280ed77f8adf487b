import Mathlib.Data.List.Forall2
import Mathlib.Data.List.Infix

/-!
# Replacing the occurrences of a list

`replaceAll m r xs` puts `r` for the occurrences of `m` in `xs`, from left to right, and `replaceEach` does so for
one needle after the other. Where no needle shares an end with `r` (`Separate`), none is left
(`replaceEach_free`).

A text may be spelled as a first piece and marked pieces that are each followed by a piece. If needles start at
the marked pieces only (`Marked`), the first `n` elements show of these nothing but what is kept of the one on
their border (`replaceEach_marked`).
-/

namespace List

variable {α : Type}

/-! ## Ends -/

/-- `r` and `m` share no end, and neither is part of the other. -/
structure Separate (r m : List α) : Prop where
  left : ∀ t, t ≠ [] → t <+: r → ¬ t <:+ m
  right : ∀ t, t ≠ [] → t <:+ r → ¬ t <+: m
  inside : ¬ m <:+: r
  around : ¬ r <:+: m

theorem Separate.ne_nil {r m : List α} (h : Separate r m) : m ≠ [] ∧ r ≠ [] := by
  constructor
  · rintro rfl
    exact h.inside List.nil_infix
  · rintro rfl
    exact h.around List.nil_infix

/-- A needle that starts before a separator ends before it. -/
theorem Separate.prefix_of_append {r m a b : List α} (h : Separate r m) (hm : m <+: a ++ (r ++ b)) : m <+: a := by
  rcases prefix_or_prefix_of_prefix hm (prefix_append a (r ++ b)) with hm' | ⟨t, rfl⟩
  · exact hm'
  · have ht : t <+: r ++ b := (prefix_append_right_inj a).1 hm
    by_cases hnil : t = []
    · rw [hnil, append_nil]
    · rcases prefix_or_prefix_of_prefix ht (prefix_append r b) with ht | hr
      · exact absurd (suffix_append a t) (h.left t hnil ht)
      · exact absurd (hr.isInfix.trans (suffix_append a t).isInfix) h.around

/-- A needle does not start within a separator. -/
theorem Separate.no_start {r m u v b : List α} (h : Separate r m) (hr : r = u ++ v) (hv : v ≠ []) : ¬ m <+: v ++ b := by
  intro hm
  have hsuffix : v <:+ r := ⟨u, hr.symm⟩
  rcases prefix_or_prefix_of_prefix hm (prefix_append v b) with hm | hm
  · exact h.inside (hm.isInfix.trans hsuffix.isInfix)
  · exact h.right v hv hsuffix hm

theorem mem_of_subset_singleton {x : α} {t : List α} (ht : t ≠ []) (h : t ⊆ [x]) : x ∈ t := by
  obtain ⟨y, t, rfl⟩ := exists_cons_of_ne_nil ht
  rw [mem_singleton.1 (h mem_cons_self)]
  exact mem_cons_self

theorem Separate.singleton {x : α} {m : List α} (hm : m ≠ []) (hx : x ∉ m) : Separate [x] m where
  left _ ht hpre hsuf := hx (hsuf.subset (mem_of_subset_singleton ht hpre.subset))
  right _ ht hsuf hpre := hx (hpre.subset (mem_of_subset_singleton ht hsuf.subset))
  inside hin := hx (mem_of_subset_singleton hm hin.subset)
  around hin := hx (hin.subset mem_cons_self)

theorem separate_iff {r m : List α} : Separate r m ↔
    (∀ t ∈ r.inits, t ≠ [] → ¬ t <:+ m) ∧ (∀ t ∈ r.tails, t ≠ [] → ¬ t <+: m) ∧ ¬ m <:+: r ∧ ¬ r <:+: m := by
  simp only [mem_inits, mem_tails]
  constructor
  · exact fun h => ⟨fun t ht hne => h.left t hne ht, fun t ht hne => h.right t hne ht, h.inside, h.around⟩
  · exact fun ⟨hleft, hright, hin, hout⟩ => ⟨fun t hne ht => hleft t ht hne, fun t hne ht => hright t ht hne, hin, hout⟩

instance [DecidableEq α] (r m : List α) : Decidable (Separate r m) := decidable_of_iff _ separate_iff.symm

/-- No needle starts within `xs`, before `ys`. -/
def NoStart (needles : List (List α)) (xs ys : List α) : Prop :=
  ∀ m ∈ needles, ∀ u v, xs = u ++ v → v ≠ [] → ¬ m <+: v ++ ys

theorem NoStart.mono {needles : List (List α)} {xs ys ys' : List α} (h : NoStart needles xs ys) (hpre : ys' <+: ys) :
    NoStart needles xs ys' := by
  intro m hm u v hxs hv hstart
  exact h m hm u v hxs hv (hstart.trans ((prefix_append_right_inj v).2 hpre))

theorem noStart_iff {m xs : List α} (hm : m ≠ []) : NoStart [m] xs [] ↔ ¬ m <:+: xs := by
  constructor
  · rintro h ⟨u, w, rfl⟩
    refine h m mem_cons_self u (m ++ w) (append_assoc u m w) (append_ne_nil_of_left_ne_nil hm w) ?_
    rw [append_nil]
    exact prefix_append m w
  · intro h n hn u v hxs _ hpre
    rw [mem_singleton.1 hn, append_nil] at hpre
    exact h (hxs ▸ hpre.isInfix.trans (suffix_append u v).isInfix)

theorem infix_separator {r m b : List α} (h : Separate r m) : ∀ {v : List α}, v <:+ r → m <:+: v ++ b → m <:+: b
  | [], _, hm => hm
  | x :: v, ⟨u, hr⟩, hm => by
    rcases infix_cons_iff.1 hm with hm | hm
    · have hm : m <+: (x :: v) ++ b := hm
      exact absurd hm (h.no_start hr.symm (cons_ne_nil x v))
    · exact infix_separator h ⟨u ++ [x], by rw [append_assoc, singleton_append, hr]⟩ hm

/-- A needle stands on one side of a separator. -/
theorem infix_append_separate {r m b : List α} (h : Separate r m) : ∀ {a : List α}, m <:+: a ++ (r ++ b) →
    m <:+: a ∨ m <:+: b
  | [], hm => .inr (infix_separator h (suffix_refl r) hm)
  | x :: a, hm => by
    rcases infix_cons_iff.1 hm with hm | hm
    · have hm : m <+: (x :: a) ++ (r ++ b) := hm
      exact .inl (h.prefix_of_append hm).isInfix
    · rcases infix_append_separate h hm with hm | hm
      · exact .inl (infix_cons hm)
      · exact .inr hm

/-! ## Replacing -/

section
variable [DecidableEq α]

/-- From the `skip`-th element on. -/
def replaceFrom (m r : List α) : Nat → List α → List α
  | _, [] => []
  | 0, x :: xs => if m.isPrefixOf (x :: xs) then r ++ replaceFrom m r (m.length - 1) xs else x :: replaceFrom m r 0 xs
  | skip + 1, _ :: xs => replaceFrom m r skip xs

/-- `xs.replace(m, r)` of a needle that is not empty. -/
def replaceAll (m r xs : List α) : List α := replaceFrom m r 0 xs

/-- One needle after the other. -/
def replaceEach (needles : List (List α)) (r xs : List α) : List α :=
  needles.foldl (fun xs m => replaceAll m r xs) xs

theorem replaceEach_nil (r : List α) : ∀ needles : List (List α), replaceEach needles r [] = []
  | [] => rfl
  | _ :: needles => replaceEach_nil r needles

theorem replaceFrom_append (m r ys : List α) : ∀ xs : List α, replaceFrom m r xs.length (xs ++ ys) = replaceAll m r ys
  | [] => by cases ys <;> rfl
  | _ :: xs => replaceFrom_append m r ys xs

/-- An occurrence at the start. -/
theorem replaceAll_append {m : List α} (hm : m ≠ []) (r xs : List α) :
    replaceAll m r (m ++ xs) = r ++ replaceAll m r xs := by
  obtain ⟨x, m', rfl⟩ := exists_cons_of_ne_nil hm
  have hpre : (x :: m').isPrefixOf (x :: (m' ++ xs)) = true :=
    isPrefixOf_iff_prefix.2 (prefix_append (x :: m') xs)
  rw [replaceAll, cons_append, replaceFrom, if_pos hpre, length_cons, Nat.add_sub_cancel, replaceFrom_append]

/-- No occurrence starts within the first elements. -/
theorem replaceAll_skip {m : List α} (r : List α) {ys : List α} : ∀ {xs : List α},
    NoStart [m] xs ys → replaceAll m r (xs ++ ys) = xs ++ replaceAll m r ys
  | [], _ => rfl
  | x :: xs, h => by
    have hpre : ¬ m.isPrefixOf (x :: (xs ++ ys)) = true := by
      rw [List.isPrefixOf_iff_prefix]
      exact h m mem_cons_self [] (x :: xs) rfl (cons_ne_nil _ _)
    have htail : NoStart [m] xs ys := fun n hn u v huv => h n hn (x :: u) v (by rw [huv, cons_append])
    rw [cons_append, replaceAll, replaceFrom, if_neg hpre]
    exact congrArg (x :: ·) (replaceAll_skip r htail)

/-- The first occurrence, if there is one. -/
theorem exists_first (m : List α) : ∀ xs : List α, NoStart [m] xs [] ∨
    ∃ a b, xs = a ++ (m ++ b) ∧ NoStart [m] a (m ++ b)
  | [] => .inl fun n _ u v huv hv => absurd (append_eq_nil_iff.1 huv.symm).2 hv
  | x :: xs => by
    by_cases hpre : m <+: x :: xs
    · obtain ⟨b, hb⟩ := hpre
      exact .inr ⟨[], b, hb.symm, fun n _ u v huv hv => absurd (append_eq_nil_iff.1 huv.symm).2 hv⟩
    · have hstart {a ys : List α} (hxs : xs = a ++ ys) (h : NoStart [m] a ys) : NoStart [m] (x :: a) ys := by
        intro n hn u v huv hv
        cases u with
        | nil =>
          obtain rfl : x :: a = v := huv
          rw [mem_singleton.1 hn, cons_append, ← hxs]
          exact hpre
        | cons y u => exact h n hn u v (cons.inj huv).2 hv
      rcases exists_first m xs with h | ⟨a, b, hxs, h⟩
      · exact .inl (hstart (append_nil xs).symm h)
      · exact .inr ⟨x :: a, b, by rw [hxs, cons_append], hstart hxs h⟩

/-- Both sides of a separator are replaced on their own. -/
theorem replaceAll_separate {s m : List α} (h : Separate s m) (r : List α) {b : List α} (a : List α) :
    replaceAll m r (a ++ (s ++ b)) = replaceAll m r a ++ (s ++ replaceAll m r b) := by
  have hs : replaceAll m r (s ++ b) = s ++ replaceAll m r b := by
    refine replaceAll_skip r fun n hn u v hsv hv => ?_
    rw [mem_singleton.1 hn]
    exact h.no_start hsv hv
  have hskip {a : List α} (ha : NoStart [m] a []) : NoStart [m] a (s ++ b) := by
    intro n hn u v huv hv hstart
    rw [mem_singleton.1 hn] at hstart
    refine ha m mem_cons_self u v huv hv ?_
    rw [append_nil]
    exact h.prefix_of_append hstart
  rcases exists_first m a with ha | ⟨c, d, hcd, hc⟩
  · have hsame : replaceAll m r a = a := by
      have ha' := replaceAll_skip r ha
      rwa [append_nil, show replaceAll m r [] = [] from rfl, append_nil] at ha'
    rw [replaceAll_skip r (hskip ha), hs, hsame]
  · have hlt : d.length < a.length := by
      have hpos := length_pos_iff.2 h.ne_nil.1
      rw [hcd, length_append, length_append]
      omega
    have hc' : NoStart [m] c (m ++ (d ++ (s ++ b))) := by
      intro n hn u v huv hv hstart
      rw [mem_singleton.1 hn] at hstart
      refine hc m mem_cons_self u v huv hv ?_
      have hfit : m <+: v ++ (m ++ d) ++ (s ++ b) := by
        simpa only [append_assoc] using hstart
      exact h.prefix_of_append hfit
    have ih := replaceAll_separate h r (b := b) d
    rw [hcd, append_assoc, append_assoc, replaceAll_skip r hc', replaceAll_append h.ne_nil.1, ih, replaceAll_skip r hc,
      replaceAll_append h.ne_nil.1]
    simp only [append_assoc]
termination_by a.length

/-! ## Nothing is left -/

/-- Pieces with `r` between them. -/
def weave (r p : List α) (ps : List (List α)) : List α := p ++ ps.flatMap (r ++ ·)

omit [DecidableEq α] in
theorem weave_cons (r p q : List α) (qs : List (List α)) : weave r p (q :: qs) = p ++ (r ++ weave r q qs) := by
  simp only [weave, flatMap_cons, append_assoc]

omit [DecidableEq α] in
theorem weave_append (r p q : List α) (ps qs : List (List α)) :
    weave r p ps ++ (r ++ weave r q qs) = weave r p (ps ++ q :: qs) := by
  simp only [weave, flatMap_append, flatMap_cons, append_assoc]

omit [DecidableEq α] in
theorem infix_weave {r m : List α} (h : Separate r m) : ∀ {p : List α} {ps : List (List α)}, m <:+: weave r p ps →
    ∃ q ∈ p :: ps, m <:+: q
  | p, [], hm => ⟨p, mem_cons_self, by simpa only [weave, flatMap_nil, append_nil] using hm⟩
  | p, q :: qs, hm => by
    rw [weave_cons] at hm
    rcases infix_append_separate h hm with hm | hm
    · exact ⟨p, mem_cons_self, hm⟩
    · obtain ⟨q', hq', hm⟩ := infix_weave h hm
      exact ⟨q', mem_cons_of_mem _ hq', hm⟩

/-- What stands between the replacements. -/
theorem replaceAll_pieces {m : List α} (hm : m ≠ []) (r xs : List α) : ∃ p ps, replaceAll m r xs = weave r p ps ∧
    ∀ q ∈ p :: ps, q <:+: xs ∧ ¬ m <:+: q := by
  rcases exists_first m xs with hxs | ⟨a, b, rfl, ha⟩
  · refine ⟨xs, [], ?_, fun q hq => ?_⟩
    · have h := replaceAll_skip r hxs
      rwa [append_nil, show replaceAll m r [] = [] from rfl] at h
    · rw [mem_singleton.1 hq]
      exact ⟨infix_refl xs, (noStart_iff hm).1 hxs⟩
  · have hlt : b.length < (a ++ (m ++ b)).length := by
      have hpos := length_pos_iff.2 hm
      rw [length_append, length_append]
      omega
    obtain ⟨p, ps, heq, hps⟩ := replaceAll_pieces hm r b
    refine ⟨a, p :: ps, by rw [replaceAll_skip r ha, replaceAll_append hm, heq, weave_cons], fun q hq => ?_⟩
    rcases mem_cons.1 hq with rfl | hq
    · refine ⟨(prefix_append _ _).isInfix, (noStart_iff hm).1 (ha.mono List.nil_prefix)⟩
    · refine ⟨(hps q hq).1.trans ?_, (hps q hq).2⟩
      exact ((suffix_append m b).trans (suffix_append a (m ++ b))).isInfix
termination_by xs.length

theorem replaceAll_weave {r m : List α} (h : Separate r m) : ∀ (p : List α) (ps : List (List α)),
    ∃ p' ps', replaceAll m r (weave r p ps) = weave r p' ps' ∧
      ∀ q' ∈ p' :: ps', ¬ m <:+: q' ∧ ∃ q ∈ p :: ps, q' <:+: q
  | p, [] => by
    obtain ⟨p', ps', heq, hps⟩ := replaceAll_pieces h.ne_nil.1 r p
    refine ⟨p', ps', ?_, fun q' hq' => ⟨(hps q' hq').2, p, mem_cons_self, (hps q' hq').1⟩⟩
    rw [show weave r p [] = p from append_nil p, heq]
  | p, q :: qs => by
    obtain ⟨p', ps', hp, hps⟩ := replaceAll_pieces h.ne_nil.1 r p
    obtain ⟨q', qs', hq, hqs⟩ := replaceAll_weave h q qs
    refine ⟨p', ps' ++ q' :: qs', by rw [weave_cons, replaceAll_separate h, hp, hq, weave_append], fun x hx => ?_⟩
    rw [← cons_append, mem_append] at hx
    rcases hx with hx | hx
    · exact ⟨(hps x hx).2, p, mem_cons_self, (hps x hx).1⟩
    · obtain ⟨hfree, y, hy, hxy⟩ := hqs x hx
      exact ⟨hfree, y, mem_cons_of_mem _ hy, hxy⟩

theorem replaceEach_weave {r : List α} : ∀ {needles : List (List α)}, (∀ m ∈ needles, Separate r m) →
    ∀ (p : List α) (ps : List (List α)), ∃ p' ps', replaceEach needles r (weave r p ps) = weave r p' ps' ∧
      ∀ q' ∈ p' :: ps', (∀ m ∈ needles, ¬ m <:+: q') ∧ ∃ q ∈ p :: ps, q' <:+: q
  | [], _, p, ps => ⟨p, ps, rfl, fun q hq => ⟨fun m hm => absurd hm (not_mem_nil), q, hq, infix_refl q⟩⟩
  | m :: needles, h, p, ps => by
    obtain ⟨p₁, ps₁, hm, hfree⟩ := replaceAll_weave (h m mem_cons_self) p ps
    obtain ⟨p', ps', hrest, hfree'⟩ := replaceEach_weave (fun n hn => h n (mem_cons_of_mem _ hn)) p₁ ps₁
    refine ⟨p', ps', by rw [replaceEach, foldl_cons, hm, ← hrest, replaceEach], fun x hx => ?_⟩
    obtain ⟨hx, y, hy, hxy⟩ := hfree' x hx
    obtain ⟨hy, z, hz, hyz⟩ := hfree y hy
    refine ⟨fun n hn => ?_, z, hz, hxy.trans hyz⟩
    rcases mem_cons.1 hn with rfl | hn
    · exact fun hin => hy (hin.trans hxy)
    · exact hx n hn

/-- **No needle is left.** -/
theorem replaceEach_free {needles : List (List α)} {r : List α} (h : ∀ m ∈ needles, Separate r m) (xs : List α) :
    ∀ m ∈ needles, ¬ m <:+: replaceEach needles r xs := by
  intro m hm hin
  obtain ⟨p, ps, heq, hfree⟩ := replaceEach_weave h xs []
  rw [show weave r xs [] = xs from append_nil xs] at heq
  rw [heq] at hin
  obtain ⟨q, hq, hin⟩ := infix_weave (h m hm) hin
  exact (hfree q hq).1 m hm hin

theorem replaceEach_separate {s r : List α} : ∀ {needles : List (List α)}, (∀ m ∈ needles, Separate s m) →
    ∀ a b : List α, replaceEach needles r (a ++ (s ++ b)) = replaceEach needles r a ++ (s ++ replaceEach needles r b)
  | [], _, _, _ => rfl
  | m :: needles, h, a, b => by
    have ih := replaceEach_separate (r := r) (fun n hn => h n (mem_cons_of_mem m hn)) (replaceAll m r a) (replaceAll m r b)
    rw [replaceEach, foldl_cons, replaceAll_separate (h m mem_cons_self)]
    exact ih

end

/-! ## Marked pieces -/

/-- A first piece, and marked pieces that are each followed by a piece. -/
def spell : List α → List (List α × List α) → List α
  | g, [] => g
  | g, (v, g') :: vs => g ++ (v ++ spell g' vs)

/-- Up to the last marked piece, needles start at the marked pieces only, and these are needles. -/
def Marked (needles : List (List α)) : List α → List (List α × List α) → Prop
  | _, [] => True
  | g, (v, g') :: vs =>
    v ∈ needles ∧
      (∀ m ∈ needles, ∀ i < (g ++ v).length, m <+: (g ++ v).drop i ++ spell g' vs → i = g.length ∧ m = v) ∧
      Marked needles g' vs

/-- Other marked pieces of the same lengths in the same places. -/
def Swapped (vs vs' : List (List α × List α)) : Prop :=
  Forall₂ (fun p p' => p.1.length = p'.1.length ∧ p.2 = p'.2) vs vs'

/-- What the first `n` elements keep of a marked piece on their border. -/
def kept : Nat → List α → List (List α × List α) → List α
  | _, _, [] => []
  | n, g, (v, g') :: vs =>
    if n < (g ++ v).length then v.take (n - g.length) else kept (n - (g ++ v).length) g' vs

theorem spell_swapped_length : ∀ (g : List α) {vs vs' : List (List α × List α)}, Swapped vs vs' →
    (spell g vs).length = (spell g vs').length
  | _, _, _, .nil => rfl
  | g, (v, g₁) :: vs, (v', g₁') :: vs', .cons ⟨hlen, hg⟩ hrest => by
    have hlen : v.length = v'.length := hlen
    have hg : g₁ = g₁' := hg
    simp only [spell, length_append, hlen, hg, spell_swapped_length g₁' hrest]

theorem kept_subset {needles : List (List α)} : ∀ (n : Nat) {g : List α} {vs : List (List α × List α)},
    Marked needles g vs → ∀ x ∈ kept n g vs, ∃ m ∈ needles, x ∈ m
  | _, _, [], _, _, hx => absurd hx not_mem_nil
  | n, g, (v, g') :: vs, ⟨hv, _, hrest⟩, x, hx => by
    rw [kept] at hx
    by_cases hn : n < (g ++ v).length
    · rw [if_pos hn] at hx
      exact ⟨v, hv, mem_of_mem_take hx⟩
    · rw [if_neg hn] at hx
      exact kept_subset _ hrest x hx

section
variable [DecidableEq α]

/-- The first `n` elements, in which some needles are replaced. -/
def partDone (done : List (List α)) (r : List α) : Nat → List α → List (List α × List α) → List α
  | n, g, [] => replaceEach done r (g.take n)
  | n, g, (v, g') :: vs =>
    if n < (g ++ v).length then (g ++ v).take n
    else g ++ ((if v ∈ done then r else v) ++ partDone done r (n - (g ++ v).length) g' vs)

/-- The first `n` elements with all needles replaced, less what is kept of a marked piece on their border. -/
def shown (needles : List (List α)) (r : List α) : Nat → List α → List (List α × List α) → List α
  | n, g, [] => replaceEach needles r (g.take n)
  | n, g, (v, g') :: vs =>
    if n < (g ++ v).length then g.take n else g ++ (r ++ shown needles r (n - (g ++ v).length) g' vs)

theorem shown_swapped (needles : List (List α)) (r : List α) : ∀ (n : Nat) (g : List α)
    {vs vs' : List (List α × List α)}, Swapped vs vs' → shown needles r n g vs = shown needles r n g vs'
  | _, _, _, _, .nil => rfl
  | n, g, (v, g₁) :: vs, (v', g₁') :: vs', .cons ⟨hlen, hg⟩ hrest => by
    have hlen : v.length = v'.length := hlen
    have hg : g₁ = g₁' := hg
    simp only [shown, length_append, hlen, hg, shown_swapped needles r _ g₁' hrest]

/-- The same as `y` up to the first replacement. -/
def Upto (r x y : List α) : Prop := x = y ∨ ∃ c d e, x = c ++ (r ++ d) ∧ y = c ++ e

omit [DecidableEq α] in
theorem Upto.append {r x y : List α} (h : Upto r x y) (w : List α) : Upto r (w ++ x) (w ++ y) := by
  rcases h with rfl | ⟨c, d, e, rfl, rfl⟩
  · exact .inl rfl
  · exact .inr ⟨w ++ c, d, e, by simp only [append_assoc], by simp only [append_assoc]⟩

omit [DecidableEq α] in
/-- A needle that starts before the text with replacements starts before the one without. -/
theorem Upto.start {r m x y w : List α} (h : Upto r x y) (hsep : Separate r m) (hm : m <+: w ++ x) : m <+: w ++ y := by
  rcases h with rfl | ⟨c, d, e, rfl, rfl⟩
  · exact hm
  · rw [← append_assoc] at hm
    rw [← append_assoc]
    exact (hsep.prefix_of_append hm).trans (prefix_append _ _)

theorem upto_replaceAll (m r x : List α) (hm : m ≠ []) : Upto r (replaceAll m r x) x := by
  rcases exists_first m x with h | ⟨a, b, rfl, ha⟩
  · have heq := replaceAll_skip r h
    rw [append_nil, show replaceAll m r [] = [] from rfl, append_nil] at heq
    exact .inl heq
  · exact .inr ⟨a, replaceAll m r b, m ++ b, by rw [replaceAll_skip r ha, replaceAll_append hm], rfl⟩

theorem Upto.replaceAll {r m x y : List α} (h : Upto r x y) (hsep : Separate r m) :
    Upto r (replaceAll m r x) y := by
  rcases h with rfl | ⟨c, d, e, rfl, rfl⟩
  · exact upto_replaceAll m r x hsep.ne_nil.1
  · rw [replaceAll_separate hsep]
    rcases upto_replaceAll m r c hsep.ne_nil.1 with hc | ⟨c', d', e', hc, rfl⟩
    · exact .inr ⟨c, List.replaceAll m r d, e, by rw [hc], rfl⟩
    · refine .inr ⟨c', d' ++ (r ++ List.replaceAll m r d), e' ++ e, ?_, append_assoc c' e' e⟩
      rw [hc]
      simp only [append_assoc]

theorem Upto.replaceEach {r y : List α} : ∀ {needles : List (List α)}, (∀ m ∈ needles, Separate r m) →
    ∀ {x : List α}, Upto r x y → Upto r (replaceEach needles r x) y
  | [], _, _, h => h
  | m :: _, hsep, _, h =>
    Upto.replaceEach (fun n hn => hsep n (mem_cons_of_mem m hn)) (h.replaceAll (hsep m mem_cons_self))

theorem upto_partDone {done : List (List α)} {r : List α} (hsep : ∀ m ∈ done, Separate r m) : ∀ (n : Nat) (g : List α)
    (vs : List (List α × List α)), Upto r (partDone done r n g vs) ((spell g vs).take n)
  | n, g, [] => Upto.replaceEach hsep (.inl rfl)
  | n, g, (v, g') :: vs => by
    have htext : spell g ((v, g') :: vs) = (g ++ v) ++ spell g' vs := (append_assoc g v _).symm
    rw [partDone, htext]
    by_cases hn : n < (g ++ v).length
    · rw [if_pos hn, take_append_of_le_length (Nat.le_of_lt hn)]
      exact .inl rfl
    · have hle : (g ++ v).length ≤ n := Nat.le_of_not_lt hn
      rw [if_neg hn, take_append, take_of_length_le hle]
      by_cases hv : v ∈ done
      · rw [if_pos hv]
        exact .inr ⟨g, _, _, rfl, append_assoc g v _⟩
      · rw [if_neg hv, ← append_assoc]
        exact (upto_partDone hsep _ g' vs).append (g ++ v)

omit [DecidableEq α] in
/-- Within `g` and `v` a needle starts only as `v`, at its place. -/
theorem start_only {needles : List (List α)} {g v rest m u w : List α}
    (honly : ∀ m ∈ needles, ∀ i < (g ++ v).length, m <+: (g ++ v).drop i ++ rest → i = g.length ∧ m = v)
    (hm : m ∈ needles) (hgv : g ++ v = u ++ w) (hw : w ≠ []) (hstart : m <+: w ++ rest) :
    u.length = g.length ∧ m = v := by
  have hlt : u.length < (g ++ v).length := by
    have hpos := length_pos_iff.2 hw
    rw [hgv, length_append]
    omega
  refine honly m hm u.length hlt ?_
  rw [hgv, drop_left]
  exact hstart

/-- One more needle is replaced at the marked pieces. -/
theorem replaceAll_partDone {needles done : List (List α)} {r m : List α} (hsep : ∀ n ∈ needles, Separate r n)
    (hdone : done ⊆ needles) (hm : m ∈ needles) : ∀ {n : Nat} {g : List α} {vs : List (List α × List α)},
      Marked needles g vs → replaceAll m r (partDone done r n g vs) = partDone (done ++ [m]) r n g vs
  | n, g, [], _ => by rw [partDone, partDone, replaceEach, replaceEach, foldl_append, foldl_cons, foldl_nil]
  | n, g, (v, g') :: vs, ⟨_, honly, hrest⟩ => by
    rw [partDone, partDone]
    by_cases hn : n < (g ++ v).length
    · -- a needle within the first elements would start as `v`, and be shorter
      have hskip : NoStart [m] ((g ++ v).take n) [] := by
        intro k hk u w huw hw hstart
        rw [mem_singleton.1 hk, append_nil] at hstart
        have hgv : g ++ v = u ++ (w ++ (g ++ v).drop n) := by
          rw [← append_assoc, ← huw, take_append_drop]
        have hlong : m <+: w ++ (g ++ v).drop n ++ spell g' vs :=
          (hstart.trans (prefix_append w _)).trans (prefix_append _ _)
        obtain ⟨hu, hmv⟩ := start_only honly hm hgv (append_ne_nil_of_left_ne_nil hw _) hlong
        have hw' := hstart.length_le
        have huw' := congrArg length huw
        rw [length_take, length_append] at huw'
        rw [length_append] at hn huw'
        rw [hmv] at hw'
        omega
      have hsame := replaceAll_skip r hskip
      rw [append_nil, show replaceAll m r [] = [] from rfl, append_nil] at hsame
      rw [if_pos hn, if_pos hn, hsame]
    · have ih : replaceAll m r (partDone done r (n - (g ++ v).length) g' vs) = partDone (done ++ [m]) r _ g' vs :=
        replaceAll_partDone hsep hdone hm hrest
      have hupto {w : List α} (hstart : m <+: w ++ partDone done r (n - (g ++ v).length) g' vs) : m <+: w ++ spell g' vs :=
        ((upto_partDone (fun k hk => hsep k (hdone hk)) _ g' vs).start (hsep m hm) hstart).trans
          ((prefix_append_right_inj w).2 (List.take_prefix _ _))
      have hgap {x : List α} (hx : ∀ {w : List α}, m <+: w ++ (x ++ partDone done r (n - (g ++ v).length) g' vs) →
          m <+: w ++ (v ++ spell g' vs)) : NoStart [m] g (x ++ partDone done r (n - (g ++ v).length) g' vs) := by
        intro k hk u w huw hw hstart
        rw [mem_singleton.1 hk] at hstart
        have hgv : g ++ v = u ++ (w ++ v) := by rw [huw, append_assoc]
        have hlong : m <+: w ++ v ++ spell g' vs := by
          rw [append_assoc]
          exact hx hstart
        obtain ⟨hu, -⟩ := start_only honly hm hgv (append_ne_nil_of_left_ne_nil hw _) hlong
        have hpos := length_pos_iff.2 hw
        rw [huw, length_append] at hu
        omega
      rw [if_neg hn, if_neg hn, ← ih]
      by_cases hv : v ∈ done
      · have hskip : NoStart [m] r (partDone done r (n - (g ++ v).length) g' vs) := by
          intro k hk u w huw hw
          rw [mem_singleton.1 hk]
          exact (hsep m hm).no_start huw hw
        have hfit : NoStart [m] g (r ++ partDone done r (n - (g ++ v).length) g' vs) :=
          hgap fun hstart => ((hsep m hm).prefix_of_append hstart).trans (prefix_append _ _)
        rw [if_pos hv, if_pos (mem_append_left [m] hv), replaceAll_skip r hfit, replaceAll_skip r hskip]
      · have hfit : NoStart [m] g (v ++ partDone done r (n - (g ++ v).length) g' vs) := hgap fun {w} hstart => by
          rw [← append_assoc] at hstart ⊢
          exact hupto hstart
        rw [if_neg hv, replaceAll_skip r hfit]
        by_cases hmv : m = v
        · rw [← hmv, replaceAll_append (hsep m hm).ne_nil.1, if_pos (mem_append_right done mem_cons_self)]
        · have hskip : NoStart [m] v (partDone done r (n - (g ++ v).length) g' vs) := by
            intro k hk u w huw hw hstart
            rw [mem_singleton.1 hk] at hstart
            have hgv : g ++ v = (g ++ u) ++ w := by rw [huw, append_assoc]
            exact hmv (start_only honly hm hgv hw (hupto hstart)).2
          have hother : v ∉ done ++ [m] := by
            rw [mem_append, mem_singleton]
            exact fun h => h.elim hv fun h => hmv h.symm
          rw [if_neg hother, replaceAll_skip r hskip]

theorem replaceEach_partDone {needles : List (List α)} {r : List α} (hsep : ∀ n ∈ needles, Separate r n) {n : Nat}
    {g : List α} {vs : List (List α × List α)} (hmarked : Marked needles g vs) : ∀ {done rest : List (List α)},
      done ⊆ needles → rest ⊆ needles →
        replaceEach rest r (partDone done r n g vs) = partDone (done ++ rest) r n g vs
  | done, [], _, _ => by rw [append_nil, replaceEach, foldl_nil]
  | done, m :: rest, hdone, hrest => by
    have hm : m ∈ needles := hrest mem_cons_self
    have hdone' : done ++ [m] ⊆ needles := append_subset.2 ⟨hdone, cons_subset.2 ⟨hm, nil_subset needles⟩⟩
    have ih := replaceEach_partDone hsep hmarked (n := n) hdone' fun k hk => hrest (mem_cons_of_mem m hk)
    rw [append_assoc, singleton_append] at ih
    rw [replaceEach, foldl_cons, replaceAll_partDone hsep hdone hm hmarked]
    exact ih

theorem partDone_nil (r : List α) : ∀ (n : Nat) (g : List α) (vs : List (List α × List α)),
    partDone [] r n g vs = (spell g vs).take n
  | _, _, [] => rfl
  | n, g, (v, g') :: vs => by
    have htext : spell g ((v, g') :: vs) = (g ++ v) ++ spell g' vs := (append_assoc g v _).symm
    rw [partDone, htext]
    by_cases hn : n < (g ++ v).length
    · rw [if_pos hn, take_append_of_le_length (Nat.le_of_lt hn)]
    · rw [if_neg hn, if_neg not_mem_nil, take_append, take_of_length_le (Nat.le_of_not_lt hn), ← append_assoc,
        partDone_nil r]

theorem partDone_all {needles : List (List α)} (r : List α) : ∀ (n : Nat) {g : List α} {vs : List (List α × List α)},
    Marked needles g vs → partDone needles r n g vs = shown needles r n g vs ++ kept n g vs
  | _, _, [], _ => (append_nil _).symm
  | n, g, (v, g') :: vs, ⟨hv, _, hrest⟩ => by
    rw [partDone, shown, kept]
    by_cases hn : n < (g ++ v).length
    · rw [if_pos hn, if_pos hn, if_pos hn, take_append]
    · rw [if_neg hn, if_neg hn, if_neg hn, if_pos hv, partDone_all r _ hrest]
      simp only [append_assoc]

/-- **In the first elements every marked piece is replaced, but for what is kept of the one on their border.** -/
theorem replaceEach_marked {needles : List (List α)} {r : List α} (hsep : ∀ n ∈ needles, Separate r n) (n : Nat)
    {g : List α} {vs : List (List α × List α)} (hmarked : Marked needles g vs) :
    replaceEach needles r ((spell g vs).take n) = shown needles r n g vs ++ kept n g vs := by
  have h := replaceEach_partDone hsep hmarked (n := n) (nil_subset needles) (Subset.refl needles)
  rwa [partDone_nil, nil_append, partDone_all r n hmarked] at h

end

end List
