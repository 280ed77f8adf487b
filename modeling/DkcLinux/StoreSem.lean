import DkcLinux.Storage
import Mathlib.Data.Set.Basic

/-!
# One linearizable store

What a store request can do when the store is the whole world. `Store.Answers` allows failed
requests and lost responses; `Store.serve` is the store that answers every request.
`Store.Wrote` is all that a run can change: objects are written or deleted, one at a time.
-/

open Py

namespace Store

/-- The keys under a common beginning with the sizes of their bodies, in key order. -/
def listing (s : Store) (under : String) : List (String × Nat) :=
  ((s.objects.entries.filter fun x => startswith x.1 under).map fun x =>
    (x.1, x.2.value.body.size)).insertionSort fun a b => a.1 ≤ b.1

inductive Answers : (op : Op) → Store → op.Res → Store → Prop
  | get {s key} : Answers (.get key) s (.ok (s.get key)) s
  | getFailed {s key} (e : PyErr) : Answers (.get key) s (.error e) s
  | put {s key v} {c : Conc.Cond} : c.holds (s.get key) = true →
      Answers (.put key v c) s (.ok ⟨v, s.revision⟩) (s.write key v)
  | putRefused {s key v} {c : Conc.Cond} : c.holds (s.get key) = false →
      Answers (.put key v c) s (.error (.PreconditionFailed key)) s
  | putFailed {s key v} {c : Conc.Cond} (e : PyErr) : Answers (.put key v c) s (.error e) s
  /-- Applied, and the response lost. -/
  | putUnanswered {s key v} {c : Conc.Cond} (e : PyErr) : c.holds (s.get key) = true →
      Answers (.put key v c) s (.error e) (s.write key v)
  /-- The response was lost, and the client then read exactly what it wanted to write. -/
  | putReconciled {s key v} {c : Conc.Cond} {x : StoredObject} : s.get key = some x → x.value = v →
      Answers (.put key v c) s (.ok x) s
  | delete {s key} : Answers (.delete key) s (.ok ()) (s.delete key)
  | deleteFailed {s key} (e : PyErr) : Answers (.delete key) s (.error e) s
  | deleteUnanswered {s key} (e : PyErr) : Answers (.delete key) s (.error e) (s.delete key)
  | list_objects {s under} (r) : Answers (.list_objects under) s r s
  | clock {s} (t) : Answers .clock s t s
  | terminal_proof {s o} (r) : Answers (.terminal_proof o) s r s
  | sleep {s n} : Answers (.sleep n) s () s

/-- The store alone: requests are answered, the clock stands still, no run is known to be over. -/
def serve : (op : Op) → Store → op.Res × Store
  | .get key, s => (.ok (s.get key), s)
  | .put key v c, s =>
    match s.put key v c with
    | (some x, s') => (.ok x, s')
    | (none, s') => (.error (.PreconditionFailed key), s')
  | .delete key, s => (.ok (), s.delete key)
  | .list_objects under, s => (.ok (s.listing under), s)
  | .clock, s => (0, s)
  | .terminal_proof _, s => (.ok false, s)
  | .sleep _, s => ((), s)

theorem answers_serve {op : Op} {s s' : Store} {r : op.Res} (h : Conc.ofHandler serve op s r s') :
    Answers op s r s' := by
  cases op with
  | put key v c =>
    rcases s.put_cases key v c with ⟨hc, hp⟩ | ⟨hc, hp⟩
    · simp only [Conc.ofHandler, serve, hp] at h
      cases h
      exact .put hc
    · simp only [Conc.ofHandler, serve, hp] at h
      cases h
      exact .putRefused hc
  | get key => cases h; exact .get
  | delete key => cases h; exact .delete
  | list_objects under => cases h; exact .list_objects _
  | clock => cases h; exact .clock _
  | terminal_proof o => cases h; exact .terminal_proof _
  | sleep n => cases h; exact .sleep

/-! ## What a request leaves -/

/-- Nothing, or one allowed write, or one allowed deletion. -/
inductive Wrote (w : String → ObjectValue → Conc.Cond → Prop) (d : String → Prop) (s : Store) : Store → Prop
  | same : Wrote w d s s
  | put {key v} {c : Conc.Cond} : w key v c → c.holds (s.get key) = true → Wrote w d s (s.write key v)
  | delete {key} : d key → Wrote w d s (s.delete key)

/-- A write that is answered has left its object. -/
theorem Answers.put_ok {key : String} {v : ObjectValue} {c : Conc.Cond} {s s' : Store} {x : StoredObject}
    (h : Answers (.put key v c) s (.ok x) s') :
    (s'.get key).map (·.value) = some v := by
  cases h with
  | put _ => simp
  | putReconciled hg hv => simp [hg, hv]

theorem Answers.put_wrote {key : String} {v : ObjectValue} {c : Conc.Cond} {s s' : Store} {r}
    {w : String → ObjectValue → Conc.Cond → Prop} {d : String → Prop} (hw : w key v c)
    (h : Answers (.put key v c) s r s') : Wrote w d s s' := by
  cases h with
  | put hc => exact .put hw hc
  | putUnanswered _ hc => exact .put hw hc
  | putRefused _ => exact .same
  | putFailed _ => exact .same
  | putReconciled _ _ => exact .same

/-- The operations that change no key but those of `others`. -/
def changesOnly (others : Set String) : Op → Prop
  | .put key _ _ => key ∈ others
  | .delete key => key ∈ others
  | _ => True

theorem changesOnly.same {others : Set String} {s s' : Store} {o : Op} {r : o.Res}
    (ho : changesOnly others o) (hr : Answers o s r s')
    {k : String} (hk : k ∉ others) : s'.get k = s.get k := by
  cases hr with
  | put _ => exact Conc.CondStore.get_write_ne _ _ fun h => hk (h ▸ ho)
  | putUnanswered _ _ => exact Conc.CondStore.get_write_ne _ _ fun h => hk (h ▸ ho)
  | delete => exact Conc.CondStore.get_delete_ne _ fun h => hk (h ▸ ho)
  | deleteUnanswered _ => exact Conc.CondStore.get_delete_ne _ fun h => hk (h ▸ ho)
  | _ => rfl

/-- A read finds the store as the others have left it. -/
theorem wp_get {σ : Type} {R G : Store → Store → Prop} {key : String} {st : σ} {s : Store}
    {Q : Except PyErr (Option StoredObject) → σ → Store → Prop}
    (h : ∀ s', R s s' → G s' s' ∧ Q (.ok (s'.get key)) st s' ∧ ∀ e, Q (.error e) st s') :
    (Cmd.get key : Cmd σ _).wp Answers R G Q st s := by
  intro s' hs r s'' hr
  obtain ⟨hG, hok, herr⟩ := h s' hs
  cases hr with
  | get => exact ⟨hG, hok⟩
  | getFailed e => exact ⟨hG, herr e⟩

/-! ## A store that answers, and no one else -/

section
variable {σ : Type} {G : Store → Store → Prop} {key : String} {v : ObjectValue} {c : Conc.Cond} {st : σ}
  {s : Store}

theorem wp_get_serve {Q : Except PyErr (Option StoredObject) → σ → Store → Prop} :
    (Cmd.get key : Cmd σ _).wp (Conc.ofHandler serve) Eq G Q st s ↔ G s s ∧ Q (.ok (s.get key)) st s := by
  constructor
  · exact fun h => h s rfl _ _ rfl
  · rintro h s' rfl r s'' hr
    cases hr
    exact h

theorem wp_put_serve {Q : Except PyErr StoredObject → σ → Store → Prop}
    (hok : c.holds (s.get key) = true → G s (s.write key v) ∧ Q (.ok ⟨v, s.revision⟩) st (s.write key v))
    (herr : c.holds (s.get key) = false → G s s ∧ Q (.error (.PreconditionFailed key)) st s) :
    (Cmd.put key v c : Cmd σ _).wp (Conc.ofHandler serve) Eq G Q st s := by
  rintro s' rfl r s'' hr
  rcases s.put_cases key v c with ⟨hc, hput⟩ | ⟨hc, hput⟩
  · simp only [Conc.ofHandler, serve, hput] at hr
    cases hr
    exact hok hc
  · simp only [Conc.ofHandler, serve, hput] at hr
    cases hr
    exact herr hc

end

/-! ## A store whose listings are right

`Truthful` answers as `Answers` does, and a listing lists. `Service sem fails` is a store that is truthful
and fails only if `fails`: the rules below hold of the one that may fail and of the one that serves.
-/

inductive Truthful : (op : Op) → Store → op.Res → Store → Prop
  | answers {op s r s'} : (∀ under, op ≠ .list_objects under) → Answers op s r s' → Truthful op s r s'
  | listed {s under} : Truthful (.list_objects under) s (.ok (s.listing under)) s
  | unlisted {s under} (e : PyErr) : Truthful (.list_objects under) s (.error e) s

theorem Truthful.out {op : Op} {s s' : Store} {r : op.Res} (h : Truthful op s r s') : Answers op s r s' := by
  cases h with
  | answers _ h => exact h
  | listed => exact .list_objects _
  | unlisted e => exact .list_objects _

structure Service (sem : (op : Op) → Store → op.Res → Store → Prop) (fails : Prop) : Prop where
  truthful : ∀ op s r s', sem op s r s' → Truthful op s r s'
  served : ¬ fails → ∀ op s r s', sem op s r s' → Conc.ofHandler serve op s r s'

theorem service_truthful : Service Truthful True where
  truthful _ _ _ _ h := h
  served h := absurd trivial h

theorem service_serve : Service (Conc.ofHandler serve) False where
  truthful op s r s' h := by
    cases op with
    | list_objects under =>
      cases h
      exact .listed
    | _ => exact .answers (by simp) (answers_serve h)
  served _ _ _ _ _ h := h

namespace Service

variable {σ β : Type} {sem : (op : Op) → Store → op.Res → Store → Prop} {fails : Prop}
  (h : Service sem fails) {R G : Store → Store → Prop} {key : String} {st : σ} {s : Store}
include h

theorem get_wp {f : Option StoredObject → Cmd σ β} {Q : Except PyErr β → σ → Store → Prop}
    (hE : fails → ∀ e st s, Q (.error e) st s)
    (hf : ∀ s', R s s' → G s' s' ∧ (f (s'.get key)).wp sem R G Q st s') :
    (Cmd.get key >>= f).wp sem R G Q st s := by
  rw [Cmd.wp_bind]
  intro s' hs r s'' hr
  obtain ⟨hG, hok⟩ := hf s' hs
  by_cases hfail : fails
  · cases (h.truthful _ _ _ _ hr).out with
    | get => exact ⟨hG, hok⟩
    | getFailed e => exact ⟨hG, hE hfail e _ _⟩
  · cases h.served hfail _ _ _ _ hr
    exact ⟨hG, hok⟩

theorem list_wp {under : String} {f : List (String × Nat) → Cmd σ β} {Q : Except PyErr β → σ → Store → Prop}
    (hE : fails → ∀ e st s, Q (.error e) st s)
    (hf : ∀ s', R s s' → G s' s' ∧ (f (s'.listing under)).wp sem R G Q st s') :
    (Cmd.list_objects under >>= f).wp sem R G Q st s := by
  rw [Cmd.wp_bind]
  intro s' hs r s'' hr
  obtain ⟨hG, hok⟩ := hf s' hs
  by_cases hfail : fails
  · cases h.truthful _ _ _ _ hr with
    | answers hne _ => exact absurd rfl (hne under)
    | listed => exact ⟨hG, hok⟩
    | unlisted e => exact ⟨hG, hE hfail e _ _⟩
  · cases h.served hfail _ _ _ _ hr
    exact ⟨hG, hok⟩

theorem put_wp {v : ObjectValue} {c : Conc.Cond} {Q : Except PyErr StoredObject → σ → Store → Prop}
    (hE : fails → ∀ e st s, Q (.error e) st s)
    (hput : ∀ s', R s s' → (¬ fails → c.holds (s'.get key) = true) ∧ G s' s' ∧
      (c.holds (s'.get key) = true → G s' (s'.write key v) ∧ ∀ x, Q (.ok x) st (s'.write key v)) ∧
      ∀ x, s'.get key = some x → x.value = v → Q (.ok x) st s') :
    (Cmd.put key v c).wp sem R G Q st s := by
  intro s' hs r s'' hr
  obtain ⟨hc, hG, hwrite, hsame⟩ := hput s' hs
  by_cases hfail : fails
  · cases (h.truthful _ _ _ _ hr).out with
    | put hc => exact ⟨(hwrite hc).1, (hwrite hc).2 _⟩
    | putRefused _ => exact ⟨hG, hE hfail _ _ _⟩
    | putFailed e => exact ⟨hG, hE hfail _ _ _⟩
    | putUnanswered e hc => exact ⟨(hwrite hc).1, hE hfail _ _ _⟩
    | putReconciled hget hv => exact ⟨hG, hsame _ hget hv⟩
  · have hr := h.served hfail _ _ _ _ hr
    rcases s'.put_cases key v c with ⟨hc, hput⟩ | ⟨hno, -⟩
    · simp only [Conc.ofHandler, serve, hput] at hr
      cases hr
      exact ⟨(hwrite hc).1, (hwrite hc).2 _⟩
    · rw [hc hfail] at hno
      cases hno

theorem delete_wp {Q : Except PyErr Unit → σ → Store → Prop} (hE : fails → ∀ e st s, Q (.error e) st s)
    (hdelete : ∀ s', R s s' → G s' s' ∧ G s' (s'.delete key) ∧ Q (.ok ()) st (s'.delete key)) :
    (Cmd.delete key).wp sem R G Q st s := by
  intro s' hs r s'' hr
  obtain ⟨hG, hGd, hQ⟩ := hdelete s' hs
  by_cases hfail : fails
  · cases (h.truthful _ _ _ _ hr).out with
    | delete => exact ⟨hGd, hQ⟩
    | deleteFailed e => exact ⟨hG, hE hfail _ _ _⟩
    | deleteUnanswered e => exact ⟨hGd, hE hfail _ _ _⟩
  · cases h.served hfail _ _ _ _ hr
    exact ⟨hGd, hQ⟩

end Service

theorem mem_listing {s : Store} {under key : String} {size : Nat} : (key, size) ∈ s.listing under ↔
    startswith key under = true ∧ ∃ x, s.get key = some x ∧ x.value.body.size = size := by
  unfold listing
  rw [List.mem_insertionSort, List.mem_map]
  constructor
  · rintro ⟨⟨k, x⟩, hx, heq⟩
    obtain ⟨hmem, hunder⟩ := List.mem_filter.1 hx
    cases heq
    exact ⟨hunder, x, AList.mem_lookup_iff.2 hmem, rfl⟩
  · rintro ⟨hunder, x, hget, rfl⟩
    exact ⟨⟨key, x⟩, List.mem_filter.2 ⟨AList.mem_lookup_iff.1 hget, hunder⟩, rfl⟩

theorem nodup_listing (s : Store) (under : String) : ((s.listing under).map (·.1)).Nodup := by
  unfold listing
  rw [((List.perm_insertionSort _ _).map _).nodup_iff, List.map_map]
  exact s.objects.nodupKeys.sublist List.filter_sublist

/-! ## Programs that change few keys -/

section
variable {σ α β : Type} {others : Set String}

/-- No key is changed but those of `others`. -/
def Only (others : Set String) (c : Cmd σ α) : Prop := ∀ st, (c st).AllOps (changesOnly others)

theorem only_pure {a : α} : Only others (pure a : Cmd σ α) := fun _ => trivial

theorem only_throw {e : PyErr} : Only others (throw e : Cmd σ α) := fun _ => trivial

theorem only_lift {r : Except PyErr α} : Only others (liftM r : Cmd σ α) := fun _ => trivial

theorem only_get {key : String} : Only others (Cmd.get key : Cmd σ _) := fun _ => ⟨trivial, fun _ => trivial⟩

theorem only_list {under : String} : Only others (Cmd.list_objects under : Cmd σ _) :=
  fun _ => ⟨trivial, fun _ => trivial⟩

theorem only_clock : Only others (Cmd.call .clock : Cmd σ _) := fun _ => ⟨trivial, fun _ => trivial⟩

theorem only_terminal_proof {owner : LeaseOwner} : Only others (Cmd.terminal_proof owner : Cmd σ _) :=
  fun _ => ⟨trivial, fun _ => trivial⟩

theorem only_put {key : String} {v : ObjectValue} {c : Conc.Cond} (h : key ∈ others) :
    Only others (Cmd.put key v c : Cmd σ _) := fun _ => ⟨h, fun _ => trivial⟩

theorem only_bind {c : Cmd σ α} {f : α → Cmd σ β} (h : Only others c) (hf : ∀ a, Only others (f a)) :
    Only others (c >>= f) := by
  refine fun st => (h st).bind fun r => ?_
  obtain ⟨r, st'⟩ := r
  cases r with
  | ok a => exact hf a st'
  | error e => exact trivial

theorem only_tryCatch {c : Cmd σ α} {f : PyErr → Cmd σ α} (h : Only others c) (hf : ∀ e, Only others (f e)) :
    Only others (tryCatch c f : Cmd σ α) := by
  refine fun st => (h st).bind fun r => ?_
  obtain ⟨r, st'⟩ := r
  cases r with
  | ok a => exact trivial
  | error e => exact hf e st'

end

end Store
