import DkcLinux.Conc.Prog
import Mathlib.Logic.Relation

/-!
# Rely and guarantee

Several clients share one world. `Step` picks any client that has an operation left and performs
it, or lets the environment move (a clock, a request in flight); nothing else happens between two
steps, so an operation is the unit of interleaving.

A client is reasoned about alone: `wp sem R G p Q s` says that from world `s`, whatever steps in
`R` the others take before each of its own operations, every operation of `p` is a step in `G`
and its result satisfies `Q`. The rule that puts clients together is `Outline.steps`: if every
client's guarantee is allowed by every other client's rely, each of them keeps its own assertion
in every interleaving, and `Outline.guarantee` gives its guarantee at each of its steps.
-/

namespace Conc

variable {Op : Type} {Res : Op → Type} {α β σ τ ι : Type}

/-! ## Assertions about one client -/

/-- The others move by `R` before an operation, never between its answer and the result. -/
def wp (sem : (o : Op) → σ → Res o → σ → Prop) (R G : σ → σ → Prop) :
    Prog Op Res α → (α → σ → Prop) → σ → Prop
  | .ret a, Q, s => Q a s
  | .op o k, Q, s => ∀ s', R s s' → ∀ r s'', sem o s' r s'' → G s' s'' ∧ wp sem R G (k r) Q s''

section
variable {sem : (o : Op) → σ → Res o → σ → Prop} {R G R' G' : σ → σ → Prop}

@[simp] theorem wp_ret {a : α} {Q : α → σ → Prop} {s : σ} :
    wp sem R G (.ret a : Prog Op Res α) Q s ↔ Q a s := Iff.rfl

@[simp] theorem wp_op {o : Op} {k : Res o → Prog Op Res α} {Q : α → σ → Prop} {s : σ} :
    wp sem R G (.op o k) Q s ↔
      ∀ s', R s s' → ∀ r s'', sem o s' r s'' → G s' s'' ∧ wp sem R G (k r) Q s'' := Iff.rfl

theorem wp_bind {p : Prog Op Res α} {f : α → Prog Op Res β} {Q : β → σ → Prop} {s : σ} :
    wp sem R G (p.bind f) Q s ↔ wp sem R G p (fun a s' => wp sem R G (f a) Q s') s := by
  induction p generalizing s with
  | ret a => exact Iff.rfl
  | op o k ih =>
    simp only [Prog.op_bind, wp_op]
    constructor
    · intro h s' hs r s'' hr
      exact ⟨(h s' hs r s'' hr).1, (ih r).1 (h s' hs r s'' hr).2⟩
    · intro h s' hs r s'' hr
      exact ⟨(h s' hs r s'' hr).1, (ih r).2 (h s' hs r s'' hr).2⟩

/-- Weaken the result, shrink the rely, enlarge the guarantee. -/
theorem wp_mono {Q Q' : α → σ → Prop} (hR : ∀ s s', R' s s' → R s s')
    (hG : ∀ s s', G s s' → G' s s') (hQ : ∀ a s, Q a s → Q' a s) :
    ∀ {p : Prog Op Res α} {s : σ}, wp sem R G p Q s → wp sem R' G' p Q' s
  | .ret a, s, h => hQ a s h
  | .op _ _, _, h => fun s' hs r s'' hr =>
    ⟨hG _ _ (h s' (hR _ _ hs) r s'' hr).1, wp_mono hR hG hQ (h s' (hR _ _ hs) r s'' hr).2⟩

theorem wp_post {Q Q' : α → σ → Prop} (hQ : ∀ a s, Q a s → Q' a s) {p : Prog Op Res α} {s : σ}
    (h : wp sem R G p Q s) : wp sem R G p Q' s :=
  wp_mono (fun _ _ h => h) (fun _ _ h => h) hQ h

/-- One guarantee is enough. -/
theorem wp_and {Q Q' : α → σ → Prop} : ∀ {p : Prog Op Res α} {s : σ}, wp sem R G p Q s → wp sem R G' p Q' s →
    wp sem R G p (fun a s => Q a s ∧ Q' a s) s
  | .ret _, _, h, h' => ⟨h, h'⟩
  | .op _ _, _, h, h' => fun s' hs r s'' hr =>
    ⟨(h s' hs r s'' hr).1, wp_and (h s' hs r s'' hr).2 (h' s' hs r s'' hr).2⟩

/-- What no result is. -/
theorem wp_refuses {Q : α → σ → Prop} {bad : α → Prop} : ∀ {p : Prog Op Res α} {s : σ},
    p.Refuses (fun _ _ => True) bad → wp sem R G p Q s → wp sem R G p (fun a s => ¬ bad a ∧ Q a s) s
  | .ret _, _, hp, h => ⟨hp, h⟩
  | .op _ _, _, hp, h => fun s' hs r s'' hr => ⟨(h s' hs r s'' hr).1, wp_refuses (hp r trivial) (h s' hs r s'' hr).2⟩

/-- Nothing has to be kept. -/
theorem wp_any {Q : α → σ → Prop} (h : ∀ a s, Q a s) : ∀ {p : Prog Op Res α} {s : σ}, wp sem R (fun _ _ => True) p Q s
  | .ret a, s => h a s
  | .op _ _, _ => fun _ _ _ _ _ => ⟨trivial, wp_any h⟩

/-- Fewer answers. -/
theorem wp_sem {sem' : (o : Op) → σ → Res o → σ → Prop} {Q : α → σ → Prop}
    (hsem : ∀ o s r s', sem' o s r s' → sem o s r s') :
    ∀ {p : Prog Op Res α} {s : σ}, wp sem R G p Q s → wp sem' R G p Q s
  | .ret _, _, h => h
  | .op _ _, _, h => fun s' hs r s'' hr =>
    have h' := h s' hs r s'' (hsem _ _ _ _ hr)
    ⟨h'.1, wp_sem hsem h'.2⟩

/-- An assertion about a client survives what the others do. -/
theorem wp_stable {Q : α → σ → Prop} (hR : ∀ a b c, R a b → R b c → R a c)
    (hQ : ∀ a s s', Q a s → R s s' → Q a s') :
    ∀ {p : Prog Op Res α} {s s' : σ}, wp sem R G p Q s → R s s' → wp sem R G p Q s'
  | .ret a, s, s', h, hs => hQ a s s' h hs
  | .op _ _, _, _, h, hs => fun s'' hs' r w hr => h s'' (hR _ _ _ hs hs') r w hr

/-- Before an operation the others may already have moved. -/
theorem wp_op_stable {Q : α → σ → Prop} (hR : ∀ a b c, R a b → R b c → R a c) {o : Op}
    {k : Res o → Prog Op Res α} {s s' : σ} (h : wp sem R G (.op o k) Q s) (hs : R s s') :
    wp sem R G (.op o k) Q s' := fun s'' hs' r w hr => h s'' (hR _ _ _ hs hs') r w hr

/-- A program whose operations all meet the guarantee by themselves and keep an assertion that
the others keep too. -/
theorem wp_allOps {P : Op → Prop} {A : σ → Prop} (hRA : ∀ s s', A s → R s s' → A s')
    (hP : ∀ o, P o → ∀ s r s', A s → sem o s r s' → G s s' ∧ A s') :
    ∀ {p : Prog Op Res α} {s : σ}, p.AllOps P → A s → wp sem R G p (fun _ => A) s
  | .ret _, _, _, hA => hA
  | .op o _, _, hp, hA => fun s' hs r s'' hr =>
    have h := hP o hp.1 s' r s'' (hRA _ _ hA hs) hr
    ⟨h.1, wp_allOps hRA hP (hp.2 r) h.2⟩

end

/-! ## One client alone -/

/-- The relation a handler describes. -/
def ofHandler (h : (o : Op) → σ → Res o × σ) (o : Op) (s : σ) (r : Res o) (s' : σ) : Prop :=
  h o s = (r, s')

section
variable {h : (o : Op) → σ → Res o × σ} {G : σ → σ → Prop}

theorem wp_run {Q : α → σ → Prop} {p : Prog Op Res α} {s : σ}
    (hw : wp (ofHandler h) Eq G p Q s) : Q (p.run h s).1 (p.run h s).2 := by
  induction p generalizing s with
  | ret a => exact hw
  | op o k ih => exact ih _ (hw s rfl _ _ rfl).2

/-- The others may move before each operation of a handler. -/
theorem wp_run_among {sem : (o : Op) → σ → Res o → σ → Prop} {R : σ → σ → Prop} {Q : α → σ → Prop}
    (hh : ∀ o s, ∃ s₁, R s s₁ ∧ sem o s₁ (h o s).1 (h o s).2) {p : Prog Op Res α} {s : σ} (hw : wp sem R G p Q s) :
    Q (p.run h s).1 (p.run h s).2 := by
  induction p generalizing s with
  | ret a => exact hw
  | op o k ih =>
    obtain ⟨s₁, hR, hsem⟩ := hh o s
    exact ih _ (hw s₁ hR _ _ hsem).2

theorem wp_run_steps {Q : α → σ → Prop} {p : Prog Op Res α} {s : σ}
    (hw : wp (ofHandler h) Eq G p Q s) : Relation.ReflTransGen G s (p.run h s).2 := by
  induction p generalizing s with
  | ret a => exact .refl
  | op o k ih =>
    have hstep := hw s rfl _ _ rfl
    exact .head hstep.1 (ih _ hstep.2)

/-- Wherever a client alone is cut, it has only taken steps in `G`. -/
theorem wp_runN {Q : α → σ → Prop} {n : Nat} {p : Prog Op Res α} {s : σ}
    (hw : wp (ofHandler h) Eq G p Q s) : Relation.ReflTransGen G s (p.runN h n s).2 := by
  induction n generalizing p s with
  | zero => exact .refl
  | succ n ih =>
    cases p with
    | ret a => exact .refl
    | op o k =>
      have hstep := hw s rfl _ _ rfl
      exact .head hstep.1 (ih hstep.2)

end

/-- Some operations of a program that is alone: what is left of it, and the world it leaves. -/
inductive Part (sem : (o : Op) → σ → Res o → σ → Prop) :
    Prog Op Res α → σ → Prog Op Res α → σ → Prop
  | nil {p : Prog Op Res α} {s : σ} : Part sem p s p s
  | op {o : Op} {k : Res o → Prog Op Res α} {r : Res o} {p' : Prog Op Res α} {s s' s'' : σ} :
      sem o s r s' → Part sem (k r) s' p' s'' → Part sem (.op o k) s p' s''

/-- Wherever a client alone is cut, it has only taken steps in `G`. -/
theorem wp_part {sem : (o : Op) → σ → Res o → σ → Prop} {G : σ → σ → Prop} {Q : α → σ → Prop}
    {p p' : Prog Op Res α} {s s' : σ} (h : Part sem p s p' s') (hw : wp sem Eq G p Q s) :
    Relation.ReflTransGen G s s' ∧ wp sem Eq G p' Q s' := by
  induction h with
  | nil => exact ⟨.refl, hw⟩
  | op hr _ ih =>
    have hstep := hw _ rfl _ _ hr
    obtain ⟨hG, hq⟩ := ih hstep.2
    exact ⟨.head hstep.1 hG, hq⟩

theorem part_runN {sem : (o : Op) → σ → Res o → σ → Prop} {h : (o : Op) → σ → Res o × σ}
    (hsem : ∀ o s r s', ofHandler h o s r s' → sem o s r s') :
    ∀ (n : Nat) (p : Prog Op Res α) (s : σ), Part sem p s (p.runN h n s).1 (p.runN h n s).2
  | 0, _, _ => .nil
  | _ + 1, .ret _, _ => .nil
  | n + 1, .op _ k, _ => .op (hsem _ _ _ _ rfl) (part_runN hsem n (k _) _)

/-- Some operations of a program among others that move by `R`: the worlds before and after each of
them, what is left of the program, and the world it leaves. -/
inductive Trace (sem : (o : Op) → σ → Res o → σ → Prop) (R : σ → σ → Prop) :
    Prog Op Res α → σ → List (σ × σ) → Prog Op Res α → σ → Prop
  | nil {p : Prog Op Res α} {s : σ} : Trace sem R p s [] p s
  | op {o : Op} {k : Res o → Prog Op Res α} {r : Res o} {p' : Prog Op Res α} {s s₁ s₂ s' : σ} {tr} :
      R s s₁ → sem o s₁ r s₂ → Trace sem R (k r) s₂ tr p' s' →
      Trace sem R (.op o k) s ((s₁, s₂) :: tr) p' s'

/-- Wherever a client is cut, its own operations were steps in `G`. -/
theorem wp_trace {sem : (o : Op) → σ → Res o → σ → Prop} {R G : σ → σ → Prop} {Q : α → σ → Prop}
    {p p' : Prog Op Res α} {s s' : σ} {tr} (h : Trace sem R p s tr p' s') (hw : wp sem R G p Q s) :
    (∀ x ∈ tr, G x.1 x.2) ∧ wp sem R G p' Q s' := by
  induction h with
  | nil => exact ⟨by simp, hw⟩
  | op hs hr _ ih =>
    have hstep := hw _ hs _ _ hr
    obtain ⟨hG, hq⟩ := ih hstep.2
    exact ⟨List.forall_mem_cons.2 ⟨hstep.1, hG⟩, hq⟩

/-- What every own operation and the others keep. -/
theorem Trace.keeps {sem : (o : Op) → σ → Res o → σ → Prop} {R : σ → σ → Prop} {I : σ → Prop}
    {p p' : Prog Op Res α} {s s' : σ} {tr} (h : Trace sem R p s tr p' s') (hR : ∀ s s', I s → R s s' → I s')
    (htr : ∀ x ∈ tr, I x.1 → I x.2) (hI : I s) : I s' := by
  induction h with
  | nil => exact hI
  | op hs _ _ ih =>
    obtain ⟨hx, htr⟩ := List.forall_mem_cons.1 htr
    exact ih htr (hx (hR _ _ hI hs))

/-- A run that is cut. -/
theorem trace_runN {sem : (o : Op) → σ → Res o → σ → Prop} {h : (o : Op) → σ → Res o × σ} {R : σ → σ → Prop}
    (hsem : ∀ o s r s', ofHandler h o s r s' → sem o s r s') (hR : ∀ s, R s s) :
    ∀ (n : Nat) (p : Prog Op Res α) (s : σ), ∃ tr, Trace sem R p s tr (p.runN h n s).1 (p.runN h n s).2
  | 0, _, _ => ⟨[], .nil⟩
  | _ + 1, .ret _, _ => ⟨[], .nil⟩
  | n + 1, .op o k, s =>
    have ⟨tr, htr⟩ := trace_runN hsem hR n (k (h o s).1) (h o s).2
    ⟨(s, (h o s).2) :: tr, .op (hR s) (hsem _ _ _ _ rfl) htr⟩

/-- A run to the end. -/
theorem trace_run {sem : (o : Op) → σ → Res o → σ → Prop} {h : (o : Op) → σ → Res o × σ} {R : σ → σ → Prop}
    (hsem : ∀ o s r s', ofHandler h o s r s' → sem o s r s') (hR : ∀ s, R s s) :
    ∀ (p : Prog Op Res α) (s : σ), ∃ tr, Trace sem R p s tr (.ret (p.run h s).1) (p.run h s).2
  | .ret _, _ => ⟨[], .nil⟩
  | .op o k, s =>
    have ⟨tr, htr⟩ := trace_run hsem hR (k (h o s).1) (h o s).2
    ⟨(s, (h o s).2) :: tr, .op (hR s) (hsem _ _ _ _ rfl) htr⟩

/-- A program ends if every operation it can issue is answered and leaves the world as it is. -/
theorem trace_allOps {sem : (o : Op) → σ → Res o → σ → Prop} {R : σ → σ → Prop} {P : Op → Prop} {s : σ} (hR : R s s)
    (hP : ∀ o, P o → ∃ r, sem o s r s) : ∀ {p : Prog Op Res α}, p.AllOps P → ∃ tr a, Trace sem R p s tr (.ret a) s
  | .ret a, _ => ⟨[], a, .nil⟩
  | .op o _, hp =>
    have ⟨r, hr⟩ := hP o hp.1
    have ⟨tr, a, htr⟩ := trace_allOps hR hP (hp.2 r)
    ⟨(s, s) :: tr, a, .op hR hr htr⟩

/-! ## Many clients -/

/-- The shared world and where each client stands. -/
structure Config (ι σ τ : Type) where
  world : σ
  thread : ι → τ

section
variable [DecidableEq ι]
  (sem : ι → (o : Op) → σ → Res o → σ → Prop) (env : σ → σ → Prop)
  (next : ι → τ → Option ((o : Op) × (Res o → τ)))

/-- One operation of one client, or one move of the environment. -/
inductive Step : Config ι σ τ → Option (ι × Op) → Config ι σ τ → Prop
  | client {c : Config ι σ τ} {i : ι} {o : Op} {k : Res o → τ} {r : Res o} {w : σ} :
      next i (c.thread i) = some ⟨o, k⟩ → sem i o c.world r w →
      Step c (some (i, o)) ⟨w, Function.update c.thread i (k r)⟩
  | env {c : Config ι σ τ} {w : σ} : env c.world w → Step c none ⟨w, c.thread⟩

/-- A run, with the label of every step and the configuration after it. -/
inductive Steps : Config ι σ τ → List (Option (ι × Op) × Config ι σ τ) → Config ι σ τ → Prop
  | nil {c : Config ι σ τ} : Steps c [] c
  | cons {c c' c'' : Config ι σ τ} {l : Option (ι × Op)} {tr} :
      Step sem env next c l c' → Steps c' tr c'' → Steps c ((l, c') :: tr) c''

variable {sem env next}

theorem Steps.append {c c' c'' : Config ι σ τ} {tr tr'} (h : Steps sem env next c tr c')
    (h' : Steps sem env next c' tr' c'') : Steps sem env next c (tr ++ tr') c'' := by
  induction h with
  | nil => exact h'
  | cons hs _ ih => exact .cons hs (ih h')

/-- What every step preserves, a run preserves. -/
theorem Steps.invariant {I : Config ι σ τ → Prop}
    (hI : ∀ c l c', I c → Step sem env next c l c' → I c') {c c' : Config ι σ τ} {tr}
    (h : Steps sem env next c tr c') (h0 : I c) : I c' := by
  induction h with
  | nil => exact h0
  | cons hs _ ih => exact ih (hI _ _ _ h0 hs)

/-- Thread-modular proof: `Ok i t s` is what client `i` knows of the world when it stands at `t`. -/
structure Outline (sem : ι → (o : Op) → σ → Res o → σ → Prop) (env : σ → σ → Prop)
    (next : ι → τ → Option ((o : Op) × (Res o → τ))) (R G : ι → σ → σ → Prop)
    (Ok : ι → τ → σ → Prop) : Prop where
  stable : ∀ i t s s', Ok i t s → R i s s' → Ok i t s'
  step : ∀ i t s o k r s', Ok i t s → next i t = some ⟨o, k⟩ → sem i o s r s' →
    G i s s' ∧ Ok i (k r) s'
  compat : ∀ i j s s', i ≠ j → G j s s' → R i s s'
  env : ∀ i s s', env s s' → R i s s'

variable {R G : ι → σ → σ → Prop} {Ok : ι → τ → σ → Prop}

theorem Outline.next_ok (ho : Outline sem env next R G Ok) {c c' : Config ι σ τ} {l}
    (h : ∀ i, Ok i (c.thread i) c.world) (hs : Step sem env next c l c') :
    ∀ i, Ok i (c'.thread i) c'.world := by
  intro i
  cases hs with
  | @client j o k r w hn hr =>
    by_cases hij : i = j
    · subst hij
      simpa using (ho.step i _ _ o k r w (h i) hn hr).2
    · have hG := (ho.step j _ _ o k r w (h j) hn hr).1
      simpa [Function.update_of_ne hij] using ho.stable i _ _ _ (h i) (ho.compat i j _ _ hij hG)
  | env he => exact ho.stable i _ _ _ (h i) (ho.env i _ _ he)

/-- **Parallel composition.** Every client keeps its assertion in every interleaving. -/
theorem Outline.steps (ho : Outline sem env next R G Ok) {c c' : Config ι σ τ} {tr}
    (h : ∀ i, Ok i (c.thread i) c.world) (hs : Steps sem env next c tr c') :
    ∀ i, Ok i (c'.thread i) c'.world :=
  hs.invariant (I := fun c => ∀ i, Ok i (c.thread i) c.world)
    (fun _ _ _ hc hst => ho.next_ok hc hst) h

theorem Outline.guarantee (ho : Outline sem env next R G Ok) {c c' : Config ι σ τ} {i : ι} {o : Op}
    (h : ∀ i, Ok i (c.thread i) c.world) (hs : Step sem env next c (some (i, o)) c') :
    G i c.world c'.world := by
  cases hs with
  | client hn hr => exact (ho.step i _ _ _ _ _ _ (h i) hn hr).1

end

/-! ## Clients that are programs -/

/-- A program's next operation. -/
def Prog.next : Prog Op Res α → Option ((o : Op) × (Res o → Prog Op Res α))
  | .ret _ => none
  | .op o k => some ⟨o, k⟩

/-- One program a client: `wp` is an outline of the whole system. -/
theorem outline_wp [DecidableEq ι] {sem : ι → (o : Op) → σ → Res o → σ → Prop}
    {env : σ → σ → Prop} {R G : ι → σ → σ → Prop} {Q : ι → α → σ → Prop}
    (refl : ∀ i s, R i s s) (trans : ∀ i a b c, R i a b → R i b c → R i a c)
    (hQ : ∀ i a s s', Q i a s → R i s s' → Q i a s')
    (compat : ∀ i j s s', i ≠ j → G j s s' → R i s s') (henv : ∀ i s s', env s s' → R i s s') :
    Outline sem env (fun _ (p : Prog Op Res α) => p.next) R G
      (fun i p s => wp (sem i) (R i) (G i) p (Q i) s) where
  stable i _ _ _ h hs := wp_stable (trans i) (hQ i) h hs
  step i p s o k r s' h hn hr := by
    cases p with
    | ret a => cases hn
    | op o' k' =>
      cases hn
      exact h s (refl i s) r s' hr
  compat := compat
  env := henv

end Conc
