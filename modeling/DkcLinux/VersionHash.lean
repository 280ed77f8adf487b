import DkcLinux.VersionOrder
import Mathlib.Data.List.Chain

/-!
# Hash keys of Debian versions (`dkc/debver.py:80-103`, `177-192`)

`spell` reads a hash key as the sequence that the comparison reads of the fragment. A key without a
final zero is determined by its sequence: a text run starts with a weight that is not zero, and the
zero in front of a number is followed by that number.
-/

namespace Debver

open Py

/-- `("n", int)` and `("s", str)`. -/
inductive HashUnit where
  | n (number : Nat)
  | s (text : List Char)
deriving Repr, DecidableEq

/-- The runs of a fragment. -/
def runs : List Char → List HashUnit
  | [] => []
  | c :: rest =>
    if isAsciiDigit c then
      .n (number (c :: rest.takeWhile isAsciiDigit)) :: runs (rest.dropWhile isAsciiDigit)
    else
      .s (c :: rest.takeWhile fun c => !isAsciiDigit c) :: runs (rest.dropWhile fun c => !isAsciiDigit c)
termination_by s => s.length
decreasing_by
  all_goals exact Nat.lt_succ_of_le (List.dropWhile_suffix _).length_le

/-- `_normalized_fragment`: a final number 0 is dropped. -/
def normalized_fragment (value : List Char) : List HashUnit :=
  if (runs value).getLast? = some (.n 0) then (runs value).dropLast else runs value

/-- The tuple that `__hash__` hashes. -/
def hashKey (v : DebianVersion) : Nat × List HashUnit × List HashUnit :=
  (v.epoch, normalized_fragment v.upstream.toList, normalized_fragment v.revision.toList)

/-! ## Keys and sequences -/

def spellUnit : HashUnit → List Int
  | .n k => [0, k]
  | .s text => text.map order

def spell (us : List HashUnit) : List Int := us.flatMap spellUnit

@[simp] theorem spell_nil : spell [] = [] := rfl

@[simp] theorem spell_cons (u : HashUnit) (us : List HashUnit) :
    spell (u :: us) = spellUnit u ++ spell us := rfl

/-- The runs spell the fragment's sequence. -/
theorem spell_runs (s : List Char) : spell (runs s) = units none s := by
  induction s using runs.induct with
  | case1 => rw [runs, spell_nil, units]
  | case2 c rest hc ih =>
    rw [runs, if_pos hc, spell_cons, ih, units, if_pos hc, units_some]
    rfl
  | case3 c rest hc ih =>
    rw [runs, if_neg hc, spell_cons, ih, units, if_neg hc]
    have := Dpkg.units_text rest
    rw [Dpkg.textRun, Dpkg.afterText] at this
    rw [this]
    rfl

theorem seq_append_zero_zero (xs : List Int) : Padded.seq (xs ++ [0, 0]) = Padded.seq xs := by
  have h : Padded.seq ([0, 0] : List Int) = Padded.seq [] := by
    rw [Padded.seq_nil, Padded.seq_cons_inj]
    exact ⟨rfl, Padded.seq_nil.symm⟩
  rw [Padded.seq_append_congr h, List.append_nil]

/-- The final number 0 is either there or not. -/
theorem normalized_cases (s : List Char) :
    runs s = normalized_fragment s ++ [.n 0] ∨
      (runs s = normalized_fragment s ∧ (runs s).getLast? ≠ some (.n 0)) := by
  rw [normalized_fragment]
  split
  · next h => exact .inl (List.dropLast_append_getLast? _ h).symm
  · next h => exact .inr ⟨rfl, h⟩

theorem seq_normalized (s : List Char) :
    Padded.seq (spell (normalized_fragment s)) = Padded.seq (units none s) := by
  rw [← spell_runs]
  rcases normalized_cases s with h | ⟨h, -⟩
  · rw [h, spell, spell, List.flatMap_append]
    exact (seq_append_zero_zero _).symm
  · rw [h]

def isText : HashUnit → Bool
  | .n _ => false
  | .s _ => true

/-- The first character of a text run is there and is no digit. -/
def Readable (u : HashUnit) : Prop :=
  ∀ t, u = .s t → t ≠ [] ∧ ∀ c ∈ t, isAsciiDigit c = false

/-- Numbers and text alternate, and no final number is 0. -/
structure Normal (us : List HashUnit) : Prop where
  chain : us.IsChain fun u v => isText u ≠ isText v
  readable : ∀ u ∈ us, Readable u
  last : us.getLast? ≠ some (.n 0)

/-- The first run is of the kind of the first character. -/
theorem runs_head {p : Char → Bool} {s : List Char} {u : HashUnit}
    (h : u ∈ (runs (s.dropWhile p)).head?) :
    ∃ c, p c = false ∧ isText u = !isAsciiDigit c := by
  have hhead := List.head?_dropWhile_not p s
  revert h hhead
  cases s.dropWhile p with
  | nil => simp [runs]
  | cons c rest =>
    intro h hhead
    refine ⟨c, by simpa using hhead, ?_⟩
    rw [runs] at h
    revert h
    cases isAsciiDigit c <;> simp +contextual [isText, eq_comm]

theorem runs_chain (s : List Char) : (runs s).IsChain fun u v => isText u ≠ isText v := by
  induction s using runs.induct with
  | case1 => simp [runs]
  | case2 c rest hc ih =>
    rw [runs, if_pos hc]
    refine ih.cons fun v hv => ?_
    obtain ⟨d, hd, hv⟩ := runs_head hv
    rw [hv, hd]
    exact Bool.false_ne_true
  | case3 c rest hc ih =>
    rw [runs, if_neg hc]
    refine ih.cons fun v hv => ?_
    obtain ⟨d, hd, hv⟩ := runs_head hv
    rw [hv, (Bool.not_eq_false' _).mp hd]
    exact Bool.false_ne_true.symm

theorem runs_readable (s : List Char) : ∀ u ∈ runs s, Readable u := by
  induction s using runs.induct with
  | case1 => simp [runs]
  | case2 c rest hc ih =>
    rw [runs, if_pos hc]
    rintro u (_ | ⟨_, hu⟩)
    · rintro t ⟨⟩
    · exact ih u hu
  | case3 c rest hc ih =>
    rw [runs, if_neg hc]
    rintro u (_ | ⟨_, hu⟩)
    · rintro t ⟨⟩
      refine ⟨List.cons_ne_nil _ _, ?_⟩
      rintro d (_ | ⟨_, hd⟩)
      · simpa using hc
      · simpa using List.mem_takeWhile_imp hd
    · exact ih u hu

theorem normalized_normal (s : List Char) : Normal (normalized_fragment s) := by
  have hchain := runs_chain s
  have hreadable := runs_readable s
  rcases normalized_cases s with h | ⟨h, hlast⟩
  · rw [h] at hchain hreadable
    refine ⟨hchain.left_of_append, fun u hu => hreadable u (List.mem_append_left _ hu), ?_⟩
    intro hlast
    have hrel := (List.isChain_append.1 hchain).2.2 (.n 0) hlast (.n 0) rfl
    exact hrel rfl
  · rw [h] at hchain hreadable hlast
    exact ⟨hchain, hreadable, hlast⟩

theorem Normal.tail {u : HashUnit} {us : List HashUnit} (h : Normal (u :: us)) : Normal us where
  chain := (List.isChain_cons.1 h.chain).2
  readable := fun v hv => h.readable v (List.mem_cons_of_mem _ hv)
  last := fun hlast => h.last (by rw [List.getLast?_cons, hlast]; rfl)

/-- The weight in front of a text run. -/
theorem spell_text {t : List Char} (us : List HashUnit) (h : Readable (.s t)) :
    ∃ w ws, w ≠ 0 ∧ spell (.s t :: us) = w :: ws := by
  obtain ⟨hne, hdigit⟩ := h t rfl
  cases t with
  | nil => exact absurd rfl hne
  | cons c t => exact ⟨order c, _, order_ne_zero (hdigit c List.mem_cons_self), rfl⟩

/-- What follows a text run goes on with a zero. -/
theorem spell_after_text {us : List HashUnit} (h : ∀ u ∈ us.head?, isText u = false) :
    ∃ ws, Padded.seq (spell us) = Padded.seq (0 :: ws) := by
  cases us with
  | nil => exact ⟨[], Padded.seq_nil⟩
  | cons u us =>
    cases u with
    | n k => exact ⟨_, rfl⟩
    | s t => exact absurd (h _ rfl) (by simp [isText])

/-- Two text runs with what follows them. -/
theorem text_inj {us vs : List HashUnit} (hu : ∀ u ∈ us.head?, isText u = false)
    (hv : ∀ v ∈ vs.head?, isText v = false) : ∀ {t t' : List Char},
    (∀ c ∈ t, isAsciiDigit c = false) → (∀ c ∈ t', isAsciiDigit c = false) →
    Padded.seq (t.map order ++ spell us) = Padded.seq (t'.map order ++ spell vs) →
    t = t' ∧ Padded.seq (spell us) = Padded.seq (spell vs)
  | [], [], _, _, h => ⟨rfl, h⟩
  | [], d :: t', _, hd, h => by
    obtain ⟨ws, hws⟩ := spell_after_text hu
    rw [List.map_nil, List.nil_append, hws] at h
    have h0 := (Padded.seq_cons_inj.1 h).1
    exact absurd h0.symm (order_ne_zero (hd d List.mem_cons_self))
  | c :: t, [], hc, _, h => by
    obtain ⟨ws, hws⟩ := spell_after_text hv
    rw [List.map_nil, List.nil_append, hws] at h
    have h0 := (Padded.seq_cons_inj.1 h).1
    exact absurd h0 (order_ne_zero (hc c List.mem_cons_self))
  | c :: t, d :: t', hc, hd, h => by
    obtain ⟨h0, h⟩ := Padded.seq_cons_inj.1 h
    obtain ⟨rfl, hseq⟩ := text_inj hu hv (fun c h => hc c (List.mem_cons_of_mem _ h))
      (fun c h => hd c (List.mem_cons_of_mem _ h)) h
    rw [order_injective (hc c List.mem_cons_self) (hd d List.mem_cons_self) h0]
    exact ⟨rfl, hseq⟩

theorem seq_nil_inj {y : Int} {ys : List Int} (h : Padded.seq [] = Padded.seq (y :: ys)) :
    0 = y ∧ Padded.seq [] = Padded.seq ys := by
  rw [Padded.seq_nil] at h
  exact Padded.seq_cons_inj.1 h

/-- **A key is determined by its sequence.** -/
theorem spell_inj : ∀ {us vs : List HashUnit}, Normal us → Normal vs →
    Padded.seq (spell us) = Padded.seq (spell vs) → us = vs
  | [], [], _, _, _ => rfl
  | [], .n k :: vs, hu, hv, h => by
    obtain ⟨hk, h⟩ := seq_nil_inj (seq_nil_inj h).2
    obtain rfl := spell_inj hu hv.tail h
    exact absurd (by rw [← Int.ofNat.inj hk]; rfl) hv.last
  | .n k :: us, [], hu, hv, h => by
    obtain ⟨hk, h⟩ := seq_nil_inj (seq_nil_inj h.symm).2
    obtain rfl := spell_inj hv hu.tail h
    exact absurd (by rw [← Int.ofNat.inj hk]; rfl) hu.last
  | [], .s t :: vs, _, hv, h => by
    obtain ⟨w, ws, hw, hspell⟩ := spell_text vs (hv.readable _ List.mem_cons_self)
    rw [hspell, spell_nil, Padded.seq_nil] at h
    exact absurd (Padded.seq_cons_inj.1 h).1.symm hw
  | .s t :: us, [], hu, _, h => by
    obtain ⟨w, ws, hw, hspell⟩ := spell_text us (hu.readable _ List.mem_cons_self)
    rw [hspell, spell_nil, Padded.seq_nil] at h
    exact absurd (Padded.seq_cons_inj.1 h).1 hw
  | .n k :: us, .s t :: vs, _, hv, h => by
    obtain ⟨w, ws, hw, hspell⟩ := spell_text vs (hv.readable _ List.mem_cons_self)
    rw [hspell] at h
    exact absurd (Padded.seq_cons_inj.1 h).1.symm hw
  | .s t :: us, .n k :: vs, hu, _, h => by
    obtain ⟨w, ws, hw, hspell⟩ := spell_text us (hu.readable _ List.mem_cons_self)
    rw [hspell] at h
    exact absurd (Padded.seq_cons_inj.1 h).1 hw
  | .n k :: us, .n m :: vs, hu, hv, h => by
    obtain ⟨hkm, h⟩ := Padded.seq_cons_inj.1 (Padded.seq_cons_inj.1 h).2
    rw [spell_inj hu.tail hv.tail h, Int.ofNat.inj hkm]
  | .s t :: us, .s t' :: vs, hu, hv, h => by
    have hhead : ∀ {t : List Char} {us : List HashUnit}, Normal (.s t :: us) →
        ∀ u ∈ us.head?, isText u = false := fun h u hu =>
      Bool.not_eq_true _ ▸ ((List.isChain_cons.1 h.chain).1 u hu).symm
    obtain ⟨rfl, hseq⟩ := text_inj (hhead hu) (hhead hv) (hu.readable _ List.mem_cons_self t rfl).2
      (hv.readable _ List.mem_cons_self t' rfl).2 h
    rw [spell_inj hu.tail hv.tail hseq]

theorem normalized_eq {l r : List Char} : normalized_fragment l = normalized_fragment r ↔
    Padded.seq (units none l) = Padded.seq (units none r) := by
  rw [← seq_normalized l, ← seq_normalized r]
  constructor
  · intro h
    rw [h]
  · exact spell_inj (normalized_normal l) (normalized_normal r)

end Debver
