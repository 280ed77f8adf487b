import Mathlib.Data.List.Chain
import Mathlib.Data.List.Nodup

/-!
# Walks that remember where they have been

A walk follows links until it reaches a goal, and stops where it has been before. It ends exactly if there is a route: a
list of linked elements without repetition, from the start to a goal (`ends_iff`). Where every element has at most one
link and a goal has none, there is one route (`Route.unique`).
-/

namespace Walk

variable {α : Type} {link : α → α → Prop} {goal : α → Prop}

/-- What every link leads to. -/
theorem targets {P : α → Prop} : ∀ {a : α} {chain : List α}, (a :: chain).IsChain (fun _ b => P b) → ∀ x ∈ chain, P x
  | _, [], _, _, hx => by cases hx
  | _, b :: chain, h, x, hx => by
    rcases List.mem_cons.1 hx with rfl | hx
    · exact h.rel
    · exact targets h.tail x hx

/-- The walk at `a`, after the elements of `visited`, ends at a goal. -/
inductive Ends (link : α → α → Prop) (goal : α → Prop) : List α → α → Prop where
  | here {visited : List α} {a : α} (fresh : a ∉ visited) (arrived : goal a) : Ends link goal visited a
  | step {visited : List α} {a b : α} (fresh : a ∉ visited) (linked : link a b)
      (rest : Ends link goal (a :: visited) b) : Ends link goal visited a

/-- A route from `a` to a goal that avoids `visited`. -/
structure Route (link : α → α → Prop) (goal : α → Prop) (visited : List α) (a : α) (chain : List α) : Prop where
  starts : chain.head? = some a
  linked : chain.IsChain link
  acyclic : chain.Nodup
  fresh : ∀ x ∈ chain, x ∉ visited
  arrives : ∀ x ∈ chain.getLast?, goal x

theorem Route.eq_cons {visited chain : List α} {a : α} (h : Route link goal visited a chain) :
    ∃ rest, chain = a :: rest := List.head?_eq_some_iff.1 h.starts

theorem Route.single {visited : List α} {a : α} (hfresh : a ∉ visited) (hgoal : goal a) :
    Route link goal visited a [a] where
  starts := rfl
  linked := .singleton a
  acyclic := List.nodup_singleton a
  fresh := by simpa using hfresh
  arrives := by simpa using hgoal

/-- A route behind a link. -/
theorem Route.cons {visited chain : List α} {a b : α} (hfresh : a ∉ visited) (hlink : link a b)
    (h : Route link goal (a :: visited) b chain) : Route link goal visited a (a :: chain) := by
  obtain ⟨rest, rfl⟩ := h.eq_cons
  refine ⟨rfl, .cons_cons hlink h.linked, List.nodup_cons.2 ⟨?_, h.acyclic⟩, ?_, ?_⟩
  · intro ha
    exact h.fresh a ha List.mem_cons_self
  · intro x hx
    rcases List.mem_cons.1 hx with rfl | hx
    · exact hfresh
    · exact fun hvisited => h.fresh x hx (List.mem_cons_of_mem a hvisited)
  · rw [List.getLast?_cons_cons]
    exact h.arrives

/-- The rest of a route that goes on. -/
theorem Route.tail {visited rest : List α} {a b : α} (h : Route link goal visited a (a :: b :: rest)) :
    Route link goal (a :: visited) b (b :: rest) where
  starts := rfl
  linked := h.linked.tail
  acyclic := (List.nodup_cons.1 h.acyclic).2
  fresh := by
    intro x hx hvisited
    rcases List.mem_cons.1 hvisited with rfl | hvisited
    · exact (List.nodup_cons.1 h.acyclic).1 hx
    · exact h.fresh x (List.mem_cons_of_mem a hx) hvisited
  arrives := by
    intro x hx
    exact h.arrives x (by rwa [List.getLast?_cons_cons])

theorem Route.ends {chain : List α} : ∀ {visited : List α} {a : α}, Route link goal visited a chain →
    Ends link goal visited a := by
  induction chain with
  | nil =>
    intro visited a h
    cases h.starts
  | cons c chain ih =>
    intro visited a h
    obtain rfl : c = a := Option.some.inj h.starts
    have hfresh : c ∉ visited := h.fresh c List.mem_cons_self
    cases chain with
    | nil => exact .here hfresh (h.arrives c rfl)
    | cons b rest => exact .step hfresh h.linked.rel (ih h.tail)

theorem ends_iff {visited : List α} {a : α} : Ends link goal visited a ↔ ∃ chain, Route link goal visited a chain := by
  constructor
  · intro h
    induction h with
    | here hfresh hgoal => exact ⟨_, .single hfresh hgoal⟩
    | step hfresh hlink _ ih =>
      obtain ⟨chain, hchain⟩ := ih
      exact ⟨_, hchain.cons hfresh hlink⟩
  · rintro ⟨chain, hchain⟩
    exact hchain.ends

/-- One link at most, and none at a goal: one route. -/
theorem Route.unique (hlink : ∀ a b c, link a b → link a c → b = c) (hgoal : ∀ a b, goal a → ¬ link a b)
    {chain : List α} : ∀ {chain' visited : List α} {a : α}, Route link goal visited a chain →
      Route link goal visited a chain' → chain = chain' := by
  induction chain with
  | nil =>
    intro chain' visited a h
    cases h.starts
  | cons c chain ih =>
    intro chain' visited a h h'
    obtain rfl : c = a := Option.some.inj h.starts
    obtain ⟨rest, rfl⟩ := h'.eq_cons
    cases chain with
    | nil =>
      cases rest with
      | nil => rfl
      | cons b rest => exact absurd h'.linked.rel (hgoal c b (h.arrives c rfl))
    | cons b chain =>
      cases rest with
      | nil => exact absurd h.linked.rel (hgoal c b (h'.arrives c rfl))
      | cons b' rest =>
        obtain rfl := hlink c b b' h.linked.rel h'.linked.rel
        rw [ih h.tail h'.tail]

end Walk
