import DkcLinux.Site
import DkcLinux.CommitOrder

/-!
# Publication of a site build (`dkc/site_publication.py:125-217`)

A plan compares the build with the objects below `site/`; its execution writes what differs, assets
before pages before the home page, and then deletes what the build does not have.

| here | there |
| --- | --- |
| `rank`, `write_order`   | `_write_order` |
| `listed`                | `_listed` |
| `planWrites`            | the loop of `plan_site_publication` |
| `Wanted`                | an object of the build under its key below the site |
-/

open Py Records PublicationExecutor

structure SiteWrite where
  key : String
  /-- The body and the metadata. -/
  value : ObjectValue
  if_match : Option Nat

structure SitePlan where
  writes : List SiteWrite
  unchanged : List String
  deletions : List String

namespace SitePublication

variable {σ : Type}

def SITE_PREFIX : String := "site/"

/-- The first part of `_write_order`. -/
def rank (key : String) : Nat :=
  let name := String.ofList (key.toList.drop SITE_PREFIX.toList.length)
  if name = "index.html" then 2 else if endswith name ".html" then 1 else 0

/-- `_write_order`. -/
def write_order (a b : String × SiteObject) : Prop := toLex (rank a.1, a.1) ≤ toLex (rank b.1, b.1)

instance : DecidableRel write_order := fun _ _ => inferInstanceAs (Decidable (_ ≤ _))

theorem site_inj {a b : String} (h : SITE_PREFIX ++ a = SITE_PREFIX ++ b) : a = b := by
  rw [String.ext_iff, String.toList_append, String.toList_append] at h
  exact String.ext (List.append_cancel_left h)

section
variable (build : SiteBuild)

/-- `_desired`. -/
def desired : Dict SiteObject where
  items := build.manifest.objects.map fun item => (SITE_PREFIX ++ item.key, item)
  nodup := by
    simpa [Function.comp_def] using build.manifest.nodup.map fun _ _ => site_inj

/-- `sorted(desired, key=_write_order)`, with the objects. -/
def sortedDesired : List (String × SiteObject) := (desired build).items.insertionSort write_order

/-- The body and the metadata that the build has for an object. -/
def value (item : SiteObject) : Except PyErr ObjectValue := do
  return ⟨← getItem build.bodies item.key, Site.metadata item⟩

/-- `_listed`, as a list without repetitions. -/
def listed : Cmd σ (List String) := do
  let keys := (← Cmd.list_objects SITE_PREFIX).map (·.1)
  if keys.any fun key => !startswith key SITE_PREFIX then
    throw (.SiteError "storage listing escaped the site prefix")
  return keys.dedup

/-- The writes and the unchanged keys. -/
def planWrites : List (String × SiteObject) → Cmd σ (List SiteWrite × List String)
  | [] => pure ([], [])
  | (key, item) :: rest => do
    let value ← value build item
    let current ← Cmd.get key
    let (writes, unchanged) ← planWrites rest
    return if current.map (·.value) = some value then (writes, key :: unchanged)
      else (⟨key, value, current.map (·.etag)⟩ :: writes, unchanged)

def plan_site_publication (max_deletions : Int) : Cmd σ SitePlan := do
  if max_deletions < 0 then
    throw (.ValueError "site deletion cap must not be negative")
  let listed ← listed
  let (writes, unchanged) ← planWrites build (sortedDesired build)
  let deletions := (listed.filter (· ∉ (desired build).keys)).insertionSort (· ≤ ·)
  if (deletions.length : Int) > max_deletions then
    throw (.SiteError "site deletion plan exceeds its safety cap")
  return ⟨writes, unchanged, deletions⟩

end

section
variable (mutation_checkpoint : Cmd σ Unit)

def applyWrite (write : SiteWrite) : Cmd σ Unit := do
  if !startswith write.key SITE_PREFIX then
    throw (.SiteError "site write escaped the site prefix")
  mutation_checkpoint
  let _ ← Cmd.put write.key write.value (condition write.if_match)

def applyDeletion (key : String) : Cmd σ Unit := do
  if !startswith key SITE_PREFIX then
    throw (.SiteError "site deletion escaped the site prefix")
  mutation_checkpoint
  Cmd.delete key

def execute_site_plan (plan : SitePlan) : Cmd σ Unit := do
  plan.writes.forM (applyWrite mutation_checkpoint)
  plan.deletions.forM (applyDeletion mutation_checkpoint)

end

/-- A loop body of `verify_site_publication`. -/
def verifyObject (build : SiteBuild) (x : String × SiteObject) : Cmd σ Unit := do
  let current ← Cmd.get x.1
  let value ← value build x.2
  if current.map (·.value) ≠ some value then
    throw (.SiteError ("published site object differs from the build: " ++ x.1))

def verify_site_publication (build : SiteBuild) : Cmd σ Unit := do
  let listed ← listed
  if !(listed.all (desired build).keys.contains) || !((desired build).keys.all listed.contains) then
    throw (.SiteError "published site listing differs from the build")
  (desired build).items.forM (verifyObject build)

/-- Plan and execute. -/
def attempt (build : SiteBuild) (max_deletions : Int) (mutation_checkpoint : Cmd σ Unit) : Cmd σ Unit := do
  let plan ← plan_site_publication build max_deletions
  execute_site_plan mutation_checkpoint plan


/-! ## What a build wants -/

/-- An object of the build, below the site. -/
def Wanted (build : SiteBuild) (x : String × ObjectValue) : Prop :=
  ∃ item, (desired build).get? x.1 = some item ∧ value build item = .ok x.2

/-- Every object of the build is stored exactly, and nothing else is below the site. -/
structure Published (build : SiteBuild) (s : Store) : Prop where
  present : ∀ y, Wanted build y → Present s y
  only : ∀ k, startswith k SITE_PREFIX = true → k ∉ (desired build).keys → s.get k = none

/-- A key below the site that the build does not have. -/
def Surplus (build : SiteBuild) (s : Store) (k : String) : Prop :=
  startswith k SITE_PREFIX = true ∧ k ∉ (desired build).keys ∧ s.get k ≠ none

section
variable {build : SiteBuild}

theorem value_ok {k : String} {item : SiteObject} (h : (desired build).get? k = some item) :
    ∃ v, value build item = .ok v := by
  have hmem : (k, item) ∈ (desired build).items := Dict.mem_items.2 h
  simp only [desired, List.mem_map] at hmem
  obtain ⟨item', hitem, heq⟩ := hmem
  cases heq
  obtain ⟨body, hbody⟩ := Dict.mem_keys.1 (build.complete _ hitem)
  exact ⟨⟨body, Site.metadata item⟩, by rw [value, getItem_some hbody]; rfl⟩

theorem wanted_exists {k : String} (h : k ∈ (desired build).keys) : ∃ v, Wanted build (k, v) := by
  obtain ⟨item, hitem⟩ := Dict.mem_keys.1 h
  obtain ⟨v, hv⟩ := value_ok hitem
  exact ⟨v, item, hitem, hv⟩

theorem Wanted.key {x : String × ObjectValue} (h : Wanted build x) : x.1 ∈ (desired build).keys := by
  obtain ⟨item, hitem, -⟩ := h
  exact Dict.mem_keys.2 ⟨item, hitem⟩

theorem Wanted.unique {k : String} {v v' : ObjectValue} (h : Wanted build (k, v)) (h' : Wanted build (k, v')) :
    v = v' := by
  obtain ⟨item, hitem, hv⟩ := h
  obtain ⟨item', hitem', hv'⟩ := h'
  cases Option.some.inj (hitem.symm.trans hitem')
  exact Except.ok.inj (hv.symm.trans hv')

theorem Wanted.eq {x y : String × ObjectValue} (hx : Wanted build x) (hy : Wanted build y) (hk : y.1 = x.1) :
    y = x := by
  obtain ⟨k, v⟩ := x
  obtain ⟨k', v'⟩ := y
  cases hk
  rw [hy.unique hx]

/-- The build stays in its namespace. -/
theorem desired_site {k : String} (h : k ∈ (desired build).keys) : startswith k SITE_PREFIX = true := by
  simp only [Dict.keys, desired, List.map_map, List.mem_map] at h
  obtain ⟨item, -, rfl⟩ := h
  exact startswith_iff.2 ⟨item.key, rfl⟩

theorem rank_le (k : String) : rank k ≤ 2 := by
  unfold rank
  dsimp only
  split
  · exact le_rfl
  · split <;> omega

theorem drop_site {k : String} (h : startswith k SITE_PREFIX = true) :
    ∃ name, k = SITE_PREFIX ++ name ∧ String.ofList (k.toList.drop SITE_PREFIX.toList.length) = name := by
  obtain ⟨name, rfl⟩ := startswith_iff.1 h
  exact ⟨name, rfl, by rw [String.toList_append, List.drop_left, String.ofList_toList]⟩

/-- The home page is alone in the last place. -/
theorem rank_home {k : String} (h : startswith k SITE_PREFIX = true) :
    rank k = 2 ↔ k = "site/index.html" := by
  obtain ⟨name, rfl, hname⟩ := drop_site h
  unfold rank
  rw [hname]
  dsimp only
  constructor
  · intro hrank
    by_cases hn : name = "index.html"
    · rw [hn]
      rfl
    · rw [if_neg hn] at hrank
      split at hrank <;> cases hrank
  · intro hk
    rw [if_pos (site_inj (b := "index.html") hk)]

end


section

theorem endswith_site {name : String} : endswith (SITE_PREFIX ++ name) ".html" = endswith name ".html" := by
  rw [Bool.eq_iff_iff]
  simp only [endswith, List.isSuffixOf_iff_suffix, String.toList_append]
  constructor
  · intro h
    rcases List.suffix_or_suffix_of_suffix h (List.suffix_append SITE_PREFIX.toList name.toList) with h' | ⟨t, ht⟩
    · exact h'
    · -- what would hang over the name begins with a dot
      rw [← ht, List.suffix_append_self_iff] at h
      rcases t with _ | ⟨c, t⟩
      · exact ht ▸ List.suffix_rfl
      · have hc : c = '.' := (List.cons.inj ht).1
        have hmem : c ∈ SITE_PREFIX.toList := h.subset List.mem_cons_self
        rw [hc] at hmem
        exact absurd hmem (by decide)
  · exact fun h => h.trans (List.suffix_append _ _)

/-- An asset comes before every page. -/
theorem rank_page {k : String} (h : startswith k SITE_PREFIX = true) :
    0 < rank k ↔ endswith k ".html" = true := by
  obtain ⟨name, rfl, hname⟩ := drop_site h
  unfold rank
  rw [hname, endswith_site]
  dsimp only
  by_cases hn : name = "index.html"
  · rw [if_pos hn, hn]
    decide
  · rw [if_neg hn]
    split
    · next hend => simp [hend]
    · next hend => simp [hend]

end

end SitePublication
