import Mathlib.Logic.Function.Basic

/-!
# Client programs

A client of a shared service is a tree: it is finished, or it issues one operation and goes on
in a way that depends on the answer. Nothing is said here about what the operations do; that is
a handler (one client alone, `run`, `runN`) or a relation (several clients, `Rely.lean`).

* `AllOps P p` — every operation `p` can issue satisfies `P`, whatever the answers were.
* `Refuses ok bad p` — as long as every answer satisfies `ok`, no result of `p` is `bad`.
* `runN` — at most `n` operations: a client that is cut between two of them.
-/

namespace Conc

/-- A program over the operations `Op` with answers `Res`. -/
inductive Prog (Op : Type) (Res : Op → Type) (α : Type) where
  | ret (a : α)
  | op (o : Op) (k : Res o → Prog Op Res α)

namespace Prog

variable {Op : Type} {Res : Op → Type} {α β γ σ : Type}

def bind : Prog Op Res α → (α → Prog Op Res β) → Prog Op Res β
  | .ret a, f => f a
  | .op o k, f => .op o fun r => (k r).bind f

/-- Issue one operation and return its answer. -/
def call (o : Op) : Prog Op Res (Res o) := .op o .ret

@[simp] theorem ret_bind (a : α) (f : α → Prog Op Res β) : (ret a : Prog Op Res α).bind f = f a := rfl

@[simp] theorem op_bind (o : Op) (k : Res o → Prog Op Res α) (f : α → Prog Op Res β) :
    (op o k).bind f = op o fun r => (k r).bind f := rfl

@[simp] theorem call_bind (o : Op) (f : Res o → Prog Op Res β) : (call o).bind f = op o f := rfl

theorem bind_assoc (p : Prog Op Res α) (f : α → Prog Op Res β) (g : β → Prog Op Res γ) :
    (p.bind f).bind g = p.bind fun a => (f a).bind g := by
  induction p with
  | ret a => rfl
  | op o k ih => simp only [op_bind]; congr 1; funext r; exact ih r

/-! ## What a program can issue and return -/

def AllOps (P : Op → Prop) : Prog Op Res α → Prop
  | .ret _ => True
  | .op o k => P o ∧ ∀ r, (k r).AllOps P

def Refuses (ok : (o : Op) → Res o → Prop) (bad : α → Prop) : Prog Op Res α → Prop
  | .ret a => ¬ bad a
  | .op o k => ∀ r, ok o r → (k r).Refuses ok bad

theorem AllOps.bind {P : Op → Prop} {f : α → Prog Op Res β} :
    ∀ {p : Prog Op Res α}, p.AllOps P → (∀ a, (f a).AllOps P) → (p.bind f).AllOps P
  | .ret a, _, hf => hf a
  | .op _ _, hp, hf => ⟨hp.1, fun r => AllOps.bind (hp.2 r) hf⟩

theorem AllOps.mono {P Q : Op → Prop} (hPQ : ∀ o, P o → Q o) :
    ∀ {p : Prog Op Res α}, p.AllOps P → p.AllOps Q
  | .ret _, _ => trivial
  | .op _ _, hp => ⟨hPQ _ hp.1, fun r => (hp.2 r).mono hPQ⟩

theorem Refuses.bind {ok : (o : Op) → Res o → Prop} {bad : β → Prop} {mid : α → Prop}
    {f : α → Prog Op Res β} :
    ∀ {p : Prog Op Res α}, p.Refuses ok mid → (∀ a, ¬ mid a → (f a).Refuses ok bad) →
      (p.bind f).Refuses ok bad
  | .ret a, hp, hf => hf a hp
  | .op _ _, hp, hf => fun r hr => Refuses.bind (hp r hr) hf

/-- Nothing is `False`, so only the continuation has to refuse. -/
theorem Refuses.bind_right {ok : (o : Op) → Res o → Prop} {bad : β → Prop}
    {f : α → Prog Op Res β} (hf : ∀ a, (f a).Refuses ok bad) :
    ∀ p : Prog Op Res α, (p.bind f).Refuses ok bad
  | .ret a => hf a
  | .op _ k => fun r _ => Refuses.bind_right hf (k r)

/-! ## One client alone -/

/-- Run to the end against a handler that answers every operation. -/
def run (h : (o : Op) → σ → Res o × σ) : Prog Op Res α → σ → α × σ
  | .ret a, s => (a, s)
  | .op o k, s => (k (h o s).1).run h (h o s).2

/-- Run at most `n` operations: what is left of the program, and the world it leaves. -/
def runN (h : (o : Op) → σ → Res o × σ) : Nat → Prog Op Res α → σ → Prog Op Res α × σ
  | 0, p, s => (p, s)
  | _ + 1, .ret a, s => (.ret a, s)
  | n + 1, .op o k, s => runN h n (k (h o s).1) (h o s).2

@[simp] theorem run_bind (h : (o : Op) → σ → Res o × σ) (p : Prog Op Res α)
    (f : α → Prog Op Res β) (s : σ) :
    (p.bind f).run h s = (f (p.run h s).1).run h (p.run h s).2 := by
  induction p generalizing s with
  | ret a => rfl
  | op o k ih => simp only [op_bind, run]; exact ih _ _

/-- What every operation does to the world, a run does. -/
theorem run_related {T : σ → σ → Prop} (hrefl : ∀ s, T s s) (htrans : ∀ a b c, T a b → T b c → T a c)
    {h : (o : Op) → σ → Res o × σ} (hop : ∀ o s, T s (h o s).2) :
    ∀ (p : Prog Op Res α) (s : σ), T s (p.run h s).2
  | .ret _, s => hrefl s
  | .op o k, s => htrans _ _ _ (hop o s) (run_related hrefl htrans hop (k (h o s).1) (h o s).2)

/-- A cut and the rest make the whole run. -/
theorem run_runN (h : (o : Op) → σ → Res o × σ) :
    ∀ (n : Nat) (p : Prog Op Res α) (s : σ), (p.runN h n s).1.run h (p.runN h n s).2 = p.run h s
  | 0, _, _ => rfl
  | _ + 1, .ret _, _ => rfl
  | n + 1, .op _ k, _ => run_runN h n (k _) _

end Prog

end Conc
