import Mathlib.Logic.Basic

/-!
# Calls and their answers

A program over callables that may raise runs in `Logged ε Event`: every call is logged with its
answer, and what a call answers may depend on all that was logged before it. An event can be an
alarm: `Stops alarm c` says that no call follows an alarm of `c`, and that `c` then raises.

| program | rule |
|---|---|
| `pure`, `throw` | `stops_pure`, `stops_throw` |
| `c >>= f` | `stops_bind` |
| a call and what its answer decides | `stops_call` |

`Logs P Q c` says that every call satisfies `P` and a result `Q`, with the rules `logs_pure`, `logs_throw`, `logs_bind`
and `logs_call`.
-/

namespace Conc

variable {ε Event α β : Type}

/-- Programs whose calls are logged. -/
abbrev Logged (ε Event α : Type) : Type := ExceptT ε (StateM (List Event)) α

namespace Logged

/-- The result, and the log. -/
def result (c : Logged ε Event α) (log : List Event) : Except ε α × List Event := StateT.run (ExceptT.run c) log

/-- A call: its answer is logged, and raised if it is a failure. -/
def call (answer : List Event → Except ε α) (event : Except ε α → Event) : Logged ε Event α :=
  ExceptT.mk fun log => (answer log, log ++ [event (answer log)])

/-- Nothing is called after an alarm, which makes the program raise. -/
def Stops (alarm : Event → Prop) (c : Logged ε Event α) : Prop :=
  ∀ log, ∃ called, (c.result log).2 = log ++ called ∧
    ∀ pre e post, called = pre ++ e :: post → alarm e → post = [] ∧ ∃ err, (c.result log).1 = .error err

@[simp] theorem result_pure (a : α) (log : List Event) : (pure a : Logged ε Event α).result log = (.ok a, log) := rfl

@[simp] theorem result_throw (e : ε) (log : List Event) :
    (throw e : Logged ε Event α).result log = (.error e, log) := rfl

@[simp] theorem result_call (answer : List Event → Except ε α) (event : Except ε α → Event) (log : List Event) :
    (call answer event).result log = (answer log, log ++ [event (answer log)]) := rfl

theorem result_bind (c : Logged ε Event α) (f : α → Logged ε Event β) (log : List Event) :
    (c >>= f).result log = match c.result log with
      | (.ok a, log') => (f a).result log'
      | (.error e, log') => (.error e, log') := by
  show (match (c.result log).1 with
    | .ok a => (f a).run
    | .error e => pure (.error e)) (c.result log).2 = _
  rcases c.result log with ⟨_ | _, log'⟩ <;> rfl

variable {alarm : Event → Prop}

theorem stops_pure (a : α) : Stops alarm (pure a : Logged ε Event α) := fun log =>
  ⟨[], (List.append_nil log).symm, fun pre _ post h => by simp at h⟩

theorem stops_throw (e : ε) : Stops alarm (throw e : Logged ε Event α) := fun log =>
  ⟨[], (List.append_nil log).symm, fun pre _ post h => by simp at h⟩

/-- An alarm of the first part ends both. -/
theorem stops_bind {c : Logged ε Event α} {f : α → Logged ε Event β} (hc : Stops alarm c)
    (hf : ∀ a, Stops alarm (f a)) : Stops alarm (c >>= f) := by
  intro log
  obtain ⟨called, hlog, hstop⟩ := hc log
  rw [result_bind]
  rcases hr : c.result log with ⟨e | a, log'⟩
  · rw [hr] at hlog hstop
    refine ⟨called, hlog, fun pre x post heq halarm => ⟨(hstop pre x post heq halarm).1, e, rfl⟩⟩
  · rw [hr] at hlog hstop
    obtain rfl : log' = log ++ called := hlog
    obtain ⟨called', hlog', hstop'⟩ := hf a (log ++ called)
    refine ⟨called ++ called', by rw [hlog', List.append_assoc], fun pre x post heq halarm => ?_⟩
    rcases List.append_eq_append_iff.1 heq with ⟨pre', rfl, heq'⟩ | ⟨post', heq', hpost⟩
    · exact hstop' pre' x post heq' halarm
    · -- no alarm before a result
      cases post' with
      | nil =>
        rw [List.nil_append] at hpost
        exact hstop' [] x post hpost.symm halarm
      | cons y post' =>
        obtain ⟨rfl, hpost⟩ := List.cons.inj hpost
        obtain ⟨-, err, herr⟩ := hstop pre x post' heq' halarm
        cases herr

/-- A call whose alarms are raised at once. -/
theorem stops_call {answer : List Event → Except ε α} {event : Except ε α → Event} {f : α → Logged ε Event β}
    (hraise : ∀ a, alarm (event (.ok a)) → ∃ e, f a = throw e)
    (hgo : ∀ a, ¬ alarm (event (.ok a)) → Stops alarm (f a)) : Stops alarm (call answer event >>= f) := by
  intro log
  rw [result_bind, result_call]
  cases hr : answer log with
  | error e =>
    refine ⟨[event (.error e)], rfl, fun pre x post heq halarm => ⟨?_, e, rfl⟩⟩
    cases pre with
    | nil => exact (List.cons.inj heq).2.symm
    | cons y pre => simp at heq
  | ok a =>
    dsimp only
    by_cases halarm : alarm (event (.ok a))
    · obtain ⟨e, he⟩ := hraise a halarm
      rw [he]
      refine ⟨[event (.ok a)], rfl, fun pre x post heq _ => ⟨?_, e, rfl⟩⟩
      cases pre with
      | nil => exact (List.cons.inj heq).2.symm
      | cons y pre => simp at heq
    · obtain ⟨called, hlog, hstop⟩ := hgo a halarm (log ++ [event (.ok a)])
      refine ⟨event (.ok a) :: called, by rw [hlog, List.append_assoc]; rfl, fun pre x post heq hx => ?_⟩
      cases pre with
      | nil =>
        obtain ⟨rfl, -⟩ := List.cons.inj heq
        exact absurd hx halarm
      | cons y pre => exact hstop pre x post (List.cons.inj heq).2 hx

/-! ## What is called -/

section
variable {P : Event → Prop} {Q : α → Prop}

/-- Every call of `c` satisfies `P`, and its result `Q`. -/
def Logs (P : Event → Prop) (Q : α → Prop) (c : Logged ε Event α) : Prop :=
  ∀ log, (∃ called, (c.result log).2 = log ++ called ∧ ∀ e ∈ called, P e) ∧ ∀ a, (c.result log).1 = .ok a → Q a

theorem logs_pure {a : α} (ha : Q a) : Logs P Q (pure a : Logged ε Event α) := fun log =>
  ⟨⟨[], (List.append_nil log).symm, by simp⟩, fun _ h => by cases h; exact ha⟩

theorem logs_throw (e : ε) : Logs P Q (throw e : Logged ε Event α) := fun log =>
  ⟨⟨[], (List.append_nil log).symm, by simp⟩, fun _ h => by cases h⟩

theorem logs_bind {Q' : β → Prop} {c : Logged ε Event α} {f : α → Logged ε Event β} (hc : Logs P Q c)
    (hf : ∀ a, Q a → Logs P Q' (f a)) : Logs P Q' (c >>= f) := by
  intro log
  obtain ⟨⟨called, hlog, hcalled⟩, hresult⟩ := hc log
  rw [result_bind]
  rcases hr : c.result log with ⟨e | a, log'⟩
  · rw [hr] at hlog
    exact ⟨⟨called, hlog, hcalled⟩, fun _ h => by cases h⟩
  · rw [hr] at hlog hresult
    obtain rfl : log' = log ++ called := hlog
    obtain ⟨⟨called', hlog', hcalled'⟩, hresult'⟩ := hf a (hresult a rfl) (log ++ called)
    refine ⟨⟨called ++ called', by rw [hlog', List.append_assoc], ?_⟩, hresult'⟩
    exact List.forall_mem_append.2 ⟨hcalled, hcalled'⟩

/-- Nothing follows an exception. -/
theorem logs_raise {Q' : β → Prop} (e : ε) (f : α → Logged ε Event β) : Logs P Q' (throw e >>= f) :=
  logs_bind (Q := fun _ => False) (logs_throw e) fun _ h => h.elim

theorem logs_call {answer : List Event → Except ε α} {event : Except ε α → Event} (h : ∀ a, P (event a)) :
    Logs P (fun _ => True) (call answer event) := fun log =>
  ⟨⟨[event (answer log)], rfl, by simpa using h _⟩, fun _ _ => trivial⟩

end

end Logged

end Conc
