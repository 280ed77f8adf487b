import DkcLinux.SitePublication

/-!
# Attempts to publish a site

Every attempt plans anew, so an attempt that is cut leaves nothing to the next one but the store.

* `Proper`: all that one request of an attempt can do.
* `Pending`: what a plan still has to write, all the way through its execution.
* `History`: attempts that are cut anywhere, among programs that leave the site alone.

`attempt_wp` walks through one attempt, on a store that may fail and on one that answers.
-/

open Py Records PublicationExecutor

namespace SitePublication

variable {σ : Type}

/-! ## One request -/

/-- What others do: nothing below the site. -/
def Elsewhere (s s' : Store) : Prop := ∀ k, startswith k SITE_PREFIX = true → s'.get k = s.get k

/-- A checkpoint that leaves the site alone: it changes only `others`. -/
structure Spares (mutation_checkpoint : Cmd σ Unit) (others : Set String) : Prop where
  ops : ∀ st, (mutation_checkpoint st).AllOps (Store.changesOnly others)
  apart : ∀ k ∈ others, startswith k SITE_PREFIX = false

/-- All that one request of an attempt can do. -/
inductive Proper (build : SiteBuild) (others : Set String) (s : Store) : Store → Prop
  | other {s'} : (∀ k, k ∉ others → s'.get k = s.get k) → Proper build others s s'
  | write {x} : Wanted build x → (∀ y, Wanted build y → rank y.1 < rank x.1 → Present s y) →
      Proper build others s (s.write x.1 x.2)
  | delete {k} : startswith k SITE_PREFIX = true → k ∉ (desired build).keys →
      (∀ y, Wanted build y → Present s y) → Proper build others s (s.delete k)

section
variable {build : SiteBuild} {others : Set String} {s s' : Store}

theorem Proper.same : Proper build others s s := .other fun _ _ => rfl

theorem Elsewhere.refl (s : Store) : Elsewhere s s := fun _ _ => rfl

theorem Elsewhere.present (h : Elsewhere s s') {y : String × ObjectValue} (hy : Wanted build y)
    (hs : Present s y) : Present s' y := by
  rw [Present, h _ (desired_site hy.key)]
  exact hs

/-- A request never adds to the surplus. -/
theorem Proper.surplus (happart : ∀ k ∈ others, startswith k SITE_PREFIX = false)
    (h : Proper build others s s') {k : String} (hk : Surplus build s' k) : Surplus build s k := by
  obtain ⟨hsite, hnot, hget⟩ := hk
  refine ⟨hsite, hnot, ?_⟩
  cases h with
  | other hsame =>
    rwa [hsame k fun hmem => by simp [happart k hmem] at hsite] at hget
  | @write x hx _ =>
    have hne : k ≠ x.1 := fun heq => hnot (heq ▸ hx.key)
    rwa [Conc.CondStore.get_write_ne _ _ hne] at hget
  | @delete k' _ _ _ =>
    intro hnone
    by_cases hkk : k = k'
    · rw [hkk, Conc.CondStore.get_delete_self] at hget
      exact hget rfl
    · rw [Conc.CondStore.get_delete_ne _ hkk] at hget
      exact hget hnone

theorem Elsewhere.surplus (h : Elsewhere s s') {k : String} (hk : Surplus build s' k) : Surplus build s k :=
  ⟨hk.1, hk.2.1, by rw [← h k hk.1]; exact hk.2.2⟩

theorem Elsewhere.published (h : Elsewhere s s') (hs : Published build s) : Published build s' where
  present y hy := h.present hy (hs.present y hy)
  only k hk hnot := by
    rw [h k hk]
    exact hs.only k hk hnot

end

/-! ## The plan -/

section
variable (build : SiteBuild) (s : Store)

/-- A plan for some objects, compared with a store. -/
inductive Compared : List (String × SiteObject) → List SiteWrite × List String → Prop
  | nil : Compared [] ([], [])
  | unchanged {x xs v r} : value build x.2 = .ok v → Present s (x.1, v) → Compared xs r →
      Compared (x :: xs) (r.1, x.1 :: r.2)
  | write {x xs v r} : value build x.2 = .ok v → ¬ Present s (x.1, v) → Compared xs r →
      Compared (x :: xs) (⟨x.1, v, (s.get x.1).map (·.etag)⟩ :: r.1, r.2)

end

section
variable {build : SiteBuild} {s s' : Store} {xs : List (String × SiteObject)}
  {r : List SiteWrite × List String}

theorem Compared.elsewhere (h : Compared build s xs r) (hxs : ∀ x ∈ xs, x ∈ (desired build).items)
    (hs : Elsewhere s s') : Compared build s' xs r := by
  induction h with
  | nil => exact .nil
  | @unchanged x xs v r hv hp _ ih =>
    obtain ⟨hx, hxs⟩ := List.forall_mem_cons.1 hxs
    exact .unchanged hv (hs.present ⟨_, Dict.mem_items.1 hx, hv⟩ hp) (ih hxs)
  | @write x xs v r hv hp _ ih =>
    obtain ⟨hx, hxs⟩ := List.forall_mem_cons.1 hxs
    have hget : s'.get x.1 = s.get x.1 := hs _ (desired_site (List.mem_map_of_mem hx))
    rw [← hget]
    refine .write hv ?_ (ih hxs)
    rwa [Present, hget]

theorem Compared.keys (h : Compared build s xs r) : (r.1.map (·.key)).Sublist (xs.map (·.1)) := by
  induction h with
  | nil => exact .slnil
  | unchanged _ _ _ ih => exact ih.cons _
  | write _ _ _ ih => exact ih.cons_cons _

theorem Compared.writes (h : Compared build s xs r) (hxs : ∀ x ∈ xs, x ∈ (desired build).items) :
    ∀ w ∈ r.1, Wanted build (w.key, w.value) ∧ (condition w.if_match).holds (s.get w.key) = true := by
  induction h with
  | nil => simp
  | unchanged _ _ _ ih => exact ih (List.forall_mem_cons.1 hxs).2
  | @write x xs v r hv _ _ ih =>
    obtain ⟨hx, hxs⟩ := List.forall_mem_cons.1 hxs
    refine List.forall_mem_cons.2 ⟨⟨⟨_, Dict.mem_items.1 hx, hv⟩, ?_⟩, ih hxs⟩
    cases hget : s.get x.1 <;> simp [condition]

theorem Compared.rest (h : Compared build s xs r) (hxs : ∀ x ∈ xs, x ∈ (desired build).items)
    {y : String × ObjectValue} (hy : Wanted build y) (hmem : y.1 ∈ xs.map (·.1))
    (hnot : y.1 ∉ r.1.map (·.key)) : Present s y := by
  induction h with
  | nil => cases hmem
  | @unchanged x xs v r hv hp _ ih =>
    obtain ⟨hx, hxs⟩ := List.forall_mem_cons.1 hxs
    rcases List.mem_cons.1 hmem with hk | hmem
    · have hwanted : Wanted build (x.1, v) := ⟨_, Dict.mem_items.1 hx, hv⟩
      rwa [hwanted.eq hy hk]
    · exact ih hxs hmem hnot
  | write _ _ _ ih =>
    rw [List.map_cons, List.mem_cons, not_or] at hnot
    exact ih (List.forall_mem_cons.1 hxs).2 ((List.mem_cons.1 hmem).resolve_left hnot.1) hnot.2

/-- In a published store there is nothing to write. -/
theorem Compared.published (h : Compared build s xs r) (hxs : ∀ x ∈ xs, x ∈ (desired build).items)
    (hp : Published build s) : r.1 = [] := by
  induction h with
  | nil => rfl
  | unchanged _ _ _ ih => exact ih (List.forall_mem_cons.1 hxs).2
  | write hv hnot _ _ =>
    exact absurd (hp.present _ ⟨_, Dict.mem_items.1 (List.forall_mem_cons.1 hxs).1, hv⟩) hnot

theorem mem_sortedDesired {x : String × SiteObject} : x ∈ sortedDesired build ↔ x ∈ (desired build).items :=
  (List.perm_insertionSort _ _).mem_iff

theorem mem_keys_sorted {k : String} : k ∈ (sortedDesired build).map (·.1) ↔ k ∈ (desired build).keys :=
  ((List.perm_insertionSort _ _).map _).mem_iff

theorem nodup_sorted : ((sortedDesired build).map (·.1)).Nodup :=
  ((List.perm_insertionSort _ _).map _).nodup_iff.2 (desired build).nodup

instance : Std.Total write_order := ⟨fun _ _ => le_total _ _⟩

instance : IsTrans (String × SiteObject) write_order := ⟨fun _ _ _ => le_trans⟩

theorem sorted_rank : ((sortedDesired build).map (·.1)).Pairwise fun a b => rank a ≤ rank b := by
  rw [List.pairwise_map]
  refine (List.pairwise_insertionSort write_order _).imp fun {a b} hab => ?_
  rcases Prod.Lex.toLex_le_toLex.1 hab with hlt | ⟨heq, -⟩
  · exact hlt.le
  · exact heq.le

end

/-- What is left to write: everything else of the build is stored, and each write finds its key as
the plan saw it. -/
structure Pending (build : SiteBuild) (writes : List SiteWrite) (s : Store) : Prop where
  ordered : (writes.map (·.key)).Pairwise fun a b => rank a ≤ rank b
  nodup : (writes.map (·.key)).Nodup
  wanted : ∀ w ∈ writes, Wanted build (w.key, w.value)
  matched : ∀ w ∈ writes, (condition w.if_match).holds (s.get w.key) = true
  rest : ∀ y, Wanted build y → y.1 ∉ writes.map (·.key) → Present s y

section
variable {build : SiteBuild} {s s' : Store}

theorem Compared.pending {r : List SiteWrite × List String} (h : Compared build s (sortedDesired build) r) :
    Pending build r.1 s where
  ordered := sorted_rank.sublist h.keys
  nodup := nodup_sorted.sublist h.keys
  wanted w hw := (h.writes (fun _ hx => mem_sortedDesired.1 hx) w hw).1
  matched w hw := (h.writes (fun _ hx => mem_sortedDesired.1 hx) w hw).2
  rest _ hy hnot := h.rest (fun _ hx => mem_sortedDesired.1 hx) hy (mem_keys_sorted.2 hy.key) hnot

theorem Pending.elsewhere {writes : List SiteWrite} (h : Pending build writes s) (hs : Elsewhere s s') :
    Pending build writes s' where
  ordered := h.ordered
  nodup := h.nodup
  wanted := h.wanted
  matched w hw := by
    rw [hs _ (desired_site (h.wanted w hw).key)]
    exact h.matched w hw
  rest y hy hnot := hs.present hy (h.rest y hy hnot)

variable {w : SiteWrite} {writes : List SiteWrite}

/-- What has a lower rank than the next write is stored. -/
theorem Pending.before (h : Pending build (w :: writes) s) {y : String × ObjectValue} (hy : Wanted build y)
    (hlt : rank y.1 < rank w.key) : Present s y := by
  refine h.rest y hy fun hmem => ?_
  rcases List.mem_cons.1 hmem with heq | hmem
  · rw [heq] at hlt
    exact lt_irrefl _ hlt
  · exact absurd ((List.pairwise_cons.1 h.ordered).1 _ hmem) (Nat.not_le.2 hlt)

theorem Pending.proper {others : Set String} (h : Pending build (w :: writes) s) :
    Proper build others s (s.write w.key w.value) :=
  .write (x := (w.key, w.value)) (h.wanted w List.mem_cons_self) fun _ hy hlt => h.before hy hlt

/-- One write further, where the written object is stored. -/
theorem Pending.next (h : Pending build (w :: writes) s) (hw : Present s' (w.key, w.value))
    (hs : ∀ k, k ≠ w.key → s'.get k = s.get k) : Pending build writes s' where
  ordered := h.ordered.tail
  nodup := h.nodup.tail
  wanted w' hw' := h.wanted w' (List.mem_cons_of_mem _ hw')
  matched w' hw' := by
    have hne : w'.key ≠ w.key := by
      intro heq
      have hmem : w'.key ∈ writes.map (·.key) := List.mem_map_of_mem hw'
      rw [heq] at hmem
      exact (List.nodup_cons.1 h.nodup).1 hmem
    rw [hs _ hne]
    exact h.matched w' (List.mem_cons_of_mem _ hw')
  rest y hy hnot := by
    by_cases hk : y.1 = w.key
    · rwa [(h.wanted w List.mem_cons_self).eq hy hk]
    · rw [Present, hs _ hk]
      refine h.rest y hy ?_
      rw [List.map_cons, List.mem_cons, not_or]
      exact ⟨hk, hnot⟩

end

/-! ## An attempt

Whatever the store does: one that may fail and one that serves are both a `Service`. -/

/-- What a checkpoint has to keep: everything about the site. -/
def Keeps (sem : (op : Op) → Store → op.Res → Store → Prop) (fails : Prop) (build : SiteBuild)
    (others : Set String) (mutation_checkpoint : Cmd σ Unit) : Prop :=
  ∀ (J : Store → Prop), (∀ s s', J s → Elsewhere s s' → J s') → ∀ st s, J s →
    mutation_checkpoint.wp sem Elsewhere (Proper build others) (Cmd.Out (fun _ s => J s) fun _ _ _ => fails) st s

section
variable {sem : (op : Op) → Store → op.Res → Store → Prop} {fails : Prop} (hsem : Store.Service sem fails)
  {build : SiteBuild} {others : Set String} {st : σ} {s : Store}
include hsem

theorem planWrites_wp (xs : List (String × SiteObject)) (hxs : ∀ x ∈ xs, x ∈ (desired build).items) (st : σ)
    (s : Store) : (planWrites build xs).wp sem Elsewhere (Proper build others)
      (Cmd.Gives (fun r _ s' => Compared build s' xs r ∧ Elsewhere s s') fun _ _ _ => fails) st s := by
  induction xs generalizing st s with
  | nil => exact ⟨.nil, .refl s⟩
  | cons x xs ih =>
    obtain ⟨hx, hxs⟩ := List.forall_mem_cons.1 hxs
    obtain ⟨v, hv⟩ := value_ok (Dict.mem_items.1 hx)
    unfold planWrites
    rw [hv, Cmd.wp_ok_bind]
    refine hsem.get_wp (fun h _ _ _ => h) fun s₁ hs => ⟨.same, ?_⟩
    rw [Cmd.wp_bind]
    refine Cmd.wp_mono (ih hxs st s₁) fun r st' s₂ hr => ?_
    rcases r with e | r
    · exact hr
    obtain ⟨hr, hs₂⟩ := hr
    have hget : s₂.get x.1 = s₁.get x.1 := hs₂ _ (desired_site (List.mem_map_of_mem hx))
    refine ⟨?_, fun k hk => (hs₂ k hk).trans (hs k hk)⟩
    split
    · next heq => exact .unchanged hv (by rwa [Present, hget]) hr
    · next hne =>
      rw [← hget]
      exact .write hv (by rwa [Present, hget]) hr

theorem listed_wp (st : σ) (s : Store) : (listed : Cmd σ (List String)).wp sem Elsewhere (Proper build others)
    (Cmd.Gives (fun keys _ s' => keys.Nodup ∧ Elsewhere s s' ∧
      ∀ k, k ∈ keys ↔ startswith k SITE_PREFIX = true ∧ s'.get k ≠ none) fun _ _ _ => fails) st s := by
  unfold listed
  refine hsem.list_wp (fun h _ _ _ => h) fun s' hs => ⟨.same, ?_⟩
  have hmem : ∀ k, k ∈ (s'.listing SITE_PREFIX).map (·.1) ↔ startswith k SITE_PREFIX = true ∧ s'.get k ≠ none := by
    intro k
    rw [List.mem_map, Option.ne_none_iff_exists']
    constructor
    · rintro ⟨⟨k', n⟩, hx, rfl⟩
      obtain ⟨hsite, x, hget, -⟩ := Store.mem_listing.1 hx
      exact ⟨hsite, x, hget⟩
    · rintro ⟨hsite, x, hget⟩
      exact ⟨(k, x.value.body.size), Store.mem_listing.2 ⟨hsite, x, hget, rfl⟩, rfl⟩
  have hinside : (((s'.listing SITE_PREFIX).map (·.1)).any fun key => !startswith key SITE_PREFIX) = false := by
    rw [List.any_eq_false]
    intro k hk
    rw [((hmem k).1 hk).1]
    decide
  dsimp only
  rw [hinside]
  refine ⟨List.nodup_dedup _, hs, fun k => ?_⟩
  rw [List.mem_dedup]
  exact hmem k

/-- A plan for what is below the site. -/
structure Planned (build : SiteBuild) (plan : SitePlan) (s : Store) : Prop where
  compared : Compared build s (sortedDesired build) (plan.writes, plan.unchanged)
  nodup : plan.deletions.Nodup
  surplus : ∀ k, k ∈ plan.deletions ↔ Surplus build s k

theorem plan_wp {max_deletions : Int}
    (hmax : ¬ fails → ∀ keys : List String, keys.Nodup → (∀ k ∈ keys, Surplus build s k) →
      (keys.length : Int) ≤ max_deletions) :
    (plan_site_publication build max_deletions).wp sem Elsewhere (Proper build others)
      (Cmd.Gives (fun plan _ s' => Planned build plan s' ∧ Elsewhere s s') fun _ _ _ => fails) st s := by
  unfold plan_site_publication
  split
  · next hneg =>
    by_contra hfail
    exact absurd (hmax hfail [] List.nodup_nil (by simp)) (by simpa using hneg)
  refine Cmd.wp_gives (listed_wp hsem st s) fun keys st₁ s₁ hkeys => ?_
  obtain ⟨hnodup, hs₁, hmem⟩ := hkeys
  refine Cmd.wp_gives (planWrites_wp hsem _ (fun x hx => mem_sortedDesired.1 hx) st₁ s₁) fun r st₂ s₂ hr => ?_
  obtain ⟨hr, hs₂⟩ := hr
  have hs : Elsewhere s s₂ := fun k hk => (hs₂ k hk).trans (hs₁ k hk)
  have hdel : ∀ k, k ∈ (keys.filter (· ∉ (desired build).keys)).insertionSort (· ≤ ·) ↔ Surplus build s₂ k := by
    intro k
    rw [List.mem_insertionSort, List.mem_filter, hmem, decide_eq_true_eq]
    constructor
    · rintro ⟨⟨hsite, hget⟩, hnot⟩
      exact ⟨hsite, hnot, by rwa [hs₂ k hsite]⟩
    · rintro ⟨hsite, hnot, hget⟩
      exact ⟨⟨hsite, by rwa [← hs₂ k hsite]⟩, hnot⟩
  have hnodup' : ((keys.filter (· ∉ (desired build).keys)).insertionSort (· ≤ ·)).Nodup :=
    (List.perm_insertionSort _ _).nodup_iff.2 (hnodup.filter _)
  dsimp only
  split
  · next hcap =>
    by_contra hfail
    exact absurd (hmax hfail _ hnodup' fun k hk => hs.surplus ((hdel k).1 hk)) (Int.not_le.2 hcap)
  · exact ⟨⟨hr, hnodup', hdel⟩, hs⟩

variable {mutation_checkpoint : Cmd σ Unit} (hcp : Keeps sem fails build others mutation_checkpoint)
include hcp

theorem applyWrite_wp {w : SiteWrite} {writes : List SiteWrite} {J : Store → Prop}
    (hJ : ∀ s s', J s → Elsewhere s s' → J s') (hJw : ∀ s, J s → J (s.write w.key w.value))
    (h : Pending build (w :: writes) s) (hj : J s) :
    (applyWrite mutation_checkpoint w).wp sem Elsewhere (Proper build others)
      (Cmd.Out (fun _ s => Pending build writes s ∧ J s) fun _ _ _ => fails) st s := by
  have hsite := desired_site (h.wanted w List.mem_cons_self).key
  unfold applyWrite
  rw [hsite]
  have hstable : ∀ s s', Pending build (w :: writes) s ∧ J s → Elsewhere s s' →
      Pending build (w :: writes) s' ∧ J s' := fun s s' h hs => ⟨h.1.elsewhere hs, hJ s s' h.2 hs⟩
  refine Cmd.wp_seq (hcp (fun s => Pending build (w :: writes) s ∧ J s) hstable st s ⟨h, hj⟩) fun _ st s h => ?_
  rw [Cmd.wp_bind]
  refine hsem.put_wp (fun h _ _ _ => h) fun s' hs => ?_
  obtain ⟨hp, hj⟩ := hstable s s' h hs
  refine ⟨fun _ => hp.matched w List.mem_cons_self, .same, fun _ => ⟨hp.proper, fun x => ?_⟩, fun x hx hv => ?_⟩
  · exact ⟨hp.next (present_write (x := (w.key, w.value))) fun k hk => Conc.CondStore.get_write_ne _ _ hk, hJw s' hj⟩
  · exact ⟨hp.next (by simp [Present, hx, hv]) fun _ _ => rfl, hj⟩

end

section
variable {sem : (op : Op) → Store → op.Res → Store → Prop} {fails : Prop} (hsem : Store.Service sem fails)
  {build : SiteBuild} {others : Set String} {st : σ} {s : Store} {mutation_checkpoint : Cmd σ Unit}
  (hcp : Keeps sem fails build others mutation_checkpoint)
include hsem hcp

theorem writes_wp {writes : List SiteWrite} {J : Store → Prop} (hJ : ∀ s s', J s → Elsewhere s s' → J s')
    (hJw : ∀ s, J s → ∀ w ∈ writes, J (s.write w.key w.value)) (h : Pending build writes s) (hj : J s) :
    (writes.forM (applyWrite mutation_checkpoint)).wp sem Elsewhere (Proper build others)
      (Cmd.Out (fun _ s => Pending build [] s ∧ J s) fun _ _ _ => fails) st s := by
  induction writes generalizing st s with
  | nil => exact ⟨h, hj⟩
  | cons w writes ih =>
    have hw : ∀ s, J s → J (s.write w.key w.value) := fun s hs => hJw s hs w List.mem_cons_self
    refine Cmd.wp_seq (applyWrite_wp hsem hcp hJ hw h hj) fun _ st s h => ?_
    exact ih (fun s hs w' hw' => hJw s hs w' (List.mem_cons_of_mem _ hw')) h.1 h.2

/-- The deletions: what is left of the surplus. -/
theorem deletions_wp {deletions : List String} (hnot : ∀ k ∈ deletions, startswith k SITE_PREFIX = true ∧
      k ∉ (desired build).keys) (h : Pending build [] s) (hd : ∀ k, Surplus build s k → k ∈ deletions) :
    (deletions.forM (applyDeletion mutation_checkpoint)).wp sem Elsewhere (Proper build others)
      (Cmd.Out (fun _ s => Published build s) fun _ _ _ => fails) st s := by
  let I (done : List String) (s : Store) : Prop := Pending build [] s ∧ ∀ k, Surplus build s k → k ∈ deletions ∧ k ∉ done
  have hstable : ∀ done s s', I done s → Elsewhere s s' → I done s' := fun done s s' h hs =>
    ⟨h.1.elsewhere hs, fun k hk => h.2 k (hs.surplus hk)⟩
  have hloop : (deletions.forM (applyDeletion mutation_checkpoint)).wp sem Elsewhere (Proper build others)
      (Cmd.Out (fun _ s => I deletions s) fun _ _ _ => fails) st s := by
    refine Cmd.wp_forM (I := fun done _ s => I done s) ?_ ⟨h, fun k hk => ⟨hd k hk, by simp⟩⟩
    intro done k rest hk st s hI
    obtain ⟨hsite, hkey⟩ := hnot k (by simp [hk])
    unfold applyDeletion
    rw [hsite]
    refine Cmd.wp_seq (hcp (I done) (hstable done) st s hI) fun _ st s hI => ?_
    refine hsem.delete_wp (fun h _ _ _ => h) fun s' hs => ?_
    obtain ⟨hp, hleft⟩ := hstable done s s' hI hs
    have hne : ∀ y, Wanted build y → y.1 ≠ k := fun y hy heq => hkey (heq ▸ hy.key)
    refine ⟨.same, .delete hsite hkey fun y hy => hp.rest y hy (by simp), ?_, ?_⟩
    · refine ⟨.nil, .nil, by simp, by simp, fun y hy hmem => ?_⟩
      rw [Present, Conc.CondStore.get_delete_ne _ (hne y hy)]
      exact hp.rest y hy hmem
    · rintro k' ⟨hsite', hkey', hget⟩
      have hkk : k' ≠ k := by
        rintro rfl
        rw [Conc.CondStore.get_delete_self] at hget
        exact hget rfl
      rw [Conc.CondStore.get_delete_ne _ hkk] at hget
      obtain ⟨hmem, hdone⟩ := hleft k' ⟨hsite', hkey', hget⟩
      exact ⟨hmem, by simp [hdone, hkk]⟩
  refine Cmd.wp_mono hloop fun r st s hr => ?_
  rcases r with e | u
  · exact hr
  · refine ⟨fun y hy => hr.1.rest y hy (by simp), fun k hsite hkey => ?_⟩
    by_contra hget
    obtain ⟨hmem, hdone⟩ := hr.2 k ⟨hsite, hkey, hget⟩
    exact hdone hmem

theorem execute_wp {plan : SitePlan} (h : Planned build plan s) :
    (execute_site_plan mutation_checkpoint plan).wp sem Elsewhere (Proper build others)
      (Cmd.Out (fun _ s => Published build s) fun _ _ _ => fails) st s := by
  unfold execute_site_plan
  -- a write below the site adds nothing to the surplus
  refine Cmd.wp_seq (writes_wp hsem hcp (J := fun s => ∀ k, Surplus build s k → k ∈ plan.deletions)
    (fun s s' hj hs k hk => hj k (hs.surplus hk)) ?_ h.compared.pending fun k hk => (h.surplus k).2 hk)
    fun _ st s h' => ?_
  · rintro s hj w hw k ⟨hsite, hkey, hget⟩
    have hne : k ≠ w.key := fun heq => hkey (heq ▸ (h.compared.pending.wanted w hw).key)
    rw [Conc.CondStore.get_write_ne _ _ hne] at hget
    exact hj k ⟨hsite, hkey, hget⟩
  · exact deletions_wp hsem hcp (fun k hk => ⟨((h.surplus k).1 hk).1, ((h.surplus k).1 hk).2.1⟩) h'.1 h'.2

/-- **One attempt.** Its requests are proper, and if it returns the build is published. -/
theorem attempt_wp {max_deletions : Int}
    (hmax : ¬ fails → ∀ keys : List String, keys.Nodup → (∀ k ∈ keys, Surplus build s k) →
      (keys.length : Int) ≤ max_deletions) :
    (attempt build max_deletions mutation_checkpoint).wp sem Elsewhere (Proper build others)
      (Cmd.Out (fun _ s => Published build s) fun _ _ _ => fails) st s := by
  unfold attempt
  rw [Cmd.wp_bind]
  refine Cmd.wp_mono (plan_wp hsem hmax) fun r st s hr => ?_
  rcases r with e | plan
  · exact hr
  · exact execute_wp hsem hcp hr.1

end

section
variable {build : SiteBuild} {st : σ} {s : Store}

/-- What is published is found so. -/
theorem verify_wp (h : Published build s) : (verify_site_publication build : Cmd σ Unit).wp
    (Conc.ofHandler Store.serve) Elsewhere (Proper build ∅) (Cmd.Out (fun _ s => Published build s) fun _ _ _ => False) st s := by
  unfold verify_site_publication
  rw [Cmd.wp_bind]
  refine Cmd.wp_mono (listed_wp Store.service_serve st s) fun r st s' hr => ?_
  rcases r with e | keys
  · exact hr
  obtain ⟨-, hs, hmem⟩ := hr
  have hp := hs.published h
  have hkeys : ∀ k, k ∈ keys ↔ k ∈ (desired build).keys := by
    intro k
    rw [hmem]
    constructor
    · rintro ⟨hsite, hget⟩
      by_contra hkey
      exact hget (hp.only k hsite hkey)
    · intro hkey
      obtain ⟨v, hv⟩ := wanted_exists hkey
      refine ⟨desired_site hkey, fun hnone => ?_⟩
      have hpres := hp.present _ hv
      rw [Present, hnone] at hpres
      cases hpres
  have hsame : (!(keys.all (desired build).keys.contains) || !((desired build).keys.all keys.contains)) = false := by
    simp [hkeys]
  rw [Cmd.after_ok, hsame]
  refine Cmd.wp_forM (I := fun _ _ s => Published build s) (fun done x rest hx st s hp => ?_) hp
  have hitem : x ∈ (desired build).items := by simp [hx]
  obtain ⟨v, hv⟩ := value_ok (Dict.mem_items.1 hitem)
  refine Store.service_serve.get_wp (fun h _ _ _ => h) fun s' hs => ⟨.same, ?_⟩
  have hp' := hs.published hp
  rw [hv, Cmd.wp_ok_bind]
  have hpres : (s'.get x.1).map (·.value) = some v := hp'.present (x.1, v) ⟨x.2, Dict.mem_items.1 hitem, hv⟩
  rw [if_neg (by simpa using hpres)]
  exact hp'

/-- What is published needs no plan. -/
theorem plan_published_wp {max_deletions : Int} (hmax : 0 ≤ max_deletions) (h : Published build s) :
    (plan_site_publication build max_deletions : Cmd σ SitePlan).wp (Conc.ofHandler Store.serve) Elsewhere
      (Proper build ∅) (Cmd.Gives (fun plan _ _ => plan.writes = [] ∧ plan.deletions = [])
        fun _ _ _ => False) st s := by
  have hnone : ∀ s', Elsewhere s s' → ∀ k, ¬ Surplus build s' k := fun s' hs k hk =>
    hk.2.2 ((hs.published h).only k hk.1 hk.2.1)
  refine Cmd.wp_mono (plan_wp Store.service_serve (s := s) fun _ keys _ hkeys => ?_) fun r st s' hr => ?_
  · obtain rfl : keys = [] := List.eq_nil_iff_forall_not_mem.2 fun k hk => hnone s (.refl s) k (hkeys k hk)
    exact hmax
  · rcases r with e | plan
    · exact hr
    · obtain ⟨hplan, hs⟩ := hr
      refine ⟨hplan.compared.published (fun x hx => mem_sortedDesired.1 hx) (hs.published h), ?_⟩
      exact List.eq_nil_iff_forall_not_mem.2 fun k hk => hnone s' hs k ((hplan.surplus k).1 hk)

end

/-! ## Any number of attempts -/

/-- What one request of an attempt does, as a reader of the store sees it. -/
structure Ordered (build : SiteBuild) (others : Set String) (s s' : Store) : Prop where
  outside : ∀ k, startswith k SITE_PREFIX = false → k ∉ others → s'.get k = s.get k
  page : ∀ k, startswith k SITE_PREFIX = true → endswith k ".html" = true → s'.get k ≠ s.get k → s'.get k ≠ none →
    ∀ y, Wanted build y → endswith y.1 ".html" = false → Present s y
  home : s'.get "site/index.html" ≠ s.get "site/index.html" → s'.get "site/index.html" ≠ none →
    ∀ y, Wanted build y → y.1 ≠ "site/index.html" → Present s y
  deleted : ∀ k ∉ others, s.get k ≠ none → s'.get k = none → ∀ y, Wanted build y → Present s y

section
variable {build : SiteBuild} {others : Set String} {s s' : Store}

theorem Proper.ordered (hapart : ∀ k ∈ others, startswith k SITE_PREFIX = false)
    (h : Proper build others s s') : Ordered build others s s' := by
  have hsite : ∀ k, startswith k SITE_PREFIX = true → k ∉ others := fun k hk hmem => by
    simp [hapart k hmem] at hk
  cases h with
  | other hsame =>
    refine ⟨fun k _ hk => hsame k hk, ?_, ?_, ?_⟩
    · exact fun k hk _ hne => absurd (hsame k (hsite k hk)) hne
    · exact fun hne => absurd (hsame _ (hsite _ (by decide))) hne
    · exact fun k hk hget hnone => absurd ((hsame k hk).symm.trans hnone) hget
  | @write x hx hbefore =>
    have hxsite := desired_site hx.key
    have hchange : ∀ k, (s.write x.1 x.2).get k ≠ s.get k → k = x.1 := fun k hne => by
      by_contra hk
      exact hne (Conc.CondStore.get_write_ne _ _ hk)
    refine ⟨fun k hk _ => Conc.CondStore.get_write_ne _ _ fun heq => ?_, ?_, ?_, ?_⟩
    · rw [heq, hxsite] at hk
      cases hk
    · intro k hk hend hne _ y hy hasset
      refine hbefore y hy ?_
      rw [← hchange k hne]
      have hzero : ¬ 0 < rank y.1 := fun hpos => by
        rw [(rank_page (desired_site hy.key)).1 hpos] at hasset
        cases hasset
      have hpos := (rank_page hk).2 hend
      omega
    · intro hne _ y hy hother
      refine hbefore y hy ?_
      have hhome : rank "site/index.html" = 2 := by decide
      have hlt : rank y.1 ≠ 2 := fun h2 => hother ((rank_home (desired_site hy.key)).1 h2)
      have hle := rank_le y.1
      rw [← hchange _ hne, hhome]
      omega
    · intro k _ hget hnone
      rw [Conc.CondStore.get_write] at hnone
      split at hnone
      · cases hnone
      · exact absurd hnone hget
  | @delete k' hk' hkey hall =>
    refine ⟨fun k hk _ => Conc.CondStore.get_delete_ne _ fun heq => ?_, ?_, ?_, fun _ _ _ _ => hall⟩
    · rw [heq, hk'] at hk
      cases hk
    · exact fun _ _ _ _ _ y hy _ => hall y hy
    · exact fun _ _ y hy _ => hall y hy

/-- A checkpoint that never raises, among programs that leave the site alone. -/
def NeverRaises (mutation_checkpoint : Cmd σ Unit) : Prop :=
  ∀ st s, mutation_checkpoint.wp (Conc.ofHandler Store.serve) Elsewhere (fun _ _ => True)
    (fun r _ _ => r = .ok ()) st s

/-- A checkpoint that spares the site keeps all that is known of it. -/
theorem Spares.spared {sem : (op : Op) → Store → op.Res → Store → Prop} {fails : Prop}
    (hsem : Store.Service sem fails) {mutation_checkpoint : Cmd σ Unit} (hcp : Spares mutation_checkpoint others)
    {J : Store → Prop} (hJ : ∀ s s', J s → Elsewhere s s' → J s') (st : σ) {s : Store} (hj : J s) :
    mutation_checkpoint.wp sem Elsewhere (Proper build others) (fun _ _ s => J s) st s := by
  refine Conc.wp_allOps (A := J) hJ (fun o ho s r s' hj hr => ?_) (hcp.ops st) hj
  have hsame : ∀ k, k ∉ others → s'.get k = s.get k := fun k hk => ho.same (hsem.truthful _ _ _ _ hr).out hk
  refine ⟨.other hsame, hJ s s' hj fun k hk => hsame k fun hmem => ?_⟩
  rw [hcp.apart k hmem] at hk
  cases hk

theorem Spares.keeps {mutation_checkpoint : Cmd σ Unit} (hcp : Spares mutation_checkpoint others) :
    Keeps Store.Truthful True build others mutation_checkpoint := by
  intro J hJ st s hj
  refine Cmd.wp_mono (hcp.spared Store.service_truthful hJ st hj) fun r st s hj => ?_
  rcases r with e | u
  · trivial
  · exact hj

theorem Spares.keeps_serve {mutation_checkpoint : Cmd σ Unit} (hcp : Spares mutation_checkpoint others)
    (hnever : NeverRaises mutation_checkpoint) :
    Keeps (Conc.ofHandler Store.serve) False build others mutation_checkpoint := by
  intro J hJ st s hj
  have hspared : mutation_checkpoint.wp (Conc.ofHandler Store.serve) Elsewhere (Proper build others)
      (fun _ _ s => J s) st s := hcp.spared Store.service_serve hJ st hj
  have hboth := Conc.wp_and hspared (hnever st s)
  refine Conc.wp_post (fun r s h => ?_) hboth
  rcases r with ⟨e | u, st'⟩
  · cases h.2
  · exact h.1

end

/-- Attempts that are cut anywhere, among programs that leave the site alone: the stores before and
after each request of an attempt, and the store that is reached. -/
inductive History (build : SiteBuild) (max_deletions : Int) (mutation_checkpoint : Cmd σ Unit) (s₀ : Store) :
    List (Store × Store) → Store → Prop
  | start : History build max_deletions mutation_checkpoint s₀ [] s₀
  | others {tr s s'} : History build max_deletions mutation_checkpoint s₀ tr s → Elsewhere s s' →
      History build max_deletions mutation_checkpoint s₀ tr s'
  | attempt {tr s st tr' rest s'} : History build max_deletions mutation_checkpoint s₀ tr s →
      Conc.Trace Store.Truthful Elsewhere (attempt build max_deletions mutation_checkpoint st) s tr' rest s' →
      History build max_deletions mutation_checkpoint s₀ (tr ++ tr') s'

/-- What a command that is not cut gives, on a store that answers and among programs that leave the
site alone. -/
def Ends {α : Type} (c : Cmd σ α) (s : Store) (Q : Except PyErr α → Store → Prop) : Prop :=
  ∀ st tr r st' s', Conc.Trace (Conc.ofHandler Store.serve) Elsewhere (c st) s tr (.ret (r, st')) s' → Q r s'

theorem ends_of_wp {α : Type} {c : Cmd σ α} {s : Store} {G : Store → Store → Prop} {Q : Except PyErr α → Store → Prop}
    (h : ∀ st, c.wp (Conc.ofHandler Store.serve) Elsewhere G (fun r _ s => Q r s) st s) : Ends c s Q :=
  fun st _ _ _ _ htr => (Conc.wp_trace htr (h st)).2

/-- The keys below the site that the build does not have. -/
def surplus (build : SiteBuild) (s : Store) : List String :=
  s.objects.keys.filter fun k => startswith k SITE_PREFIX && decide (k ∉ (desired build).keys)

theorem mem_surplus {build : SiteBuild} {s : Store} {k : String} : k ∈ surplus build s ↔ Surplus build s k := by
  rw [surplus, List.mem_filter, Bool.and_eq_true, decide_eq_true_eq, Surplus]
  have hkey : k ∈ s.objects.keys ↔ s.get k ≠ none := by
    rw [← AList.mem_keys, ← AList.lookup_isSome, Option.isSome_iff_ne_none]
    rfl
  rw [hkey]
  tauto

section
variable {build : SiteBuild} {max_deletions : Int} {mutation_checkpoint : Cmd σ Unit} {others : Set String}
  (hcp : Spares mutation_checkpoint others) {s₀ s : Store} {tr : List (Store × Store)}
include hcp

/-- An attempt on a store that may fail. -/
theorem Spares.attempt_wp (st : σ) (s : Store) :
    (attempt build max_deletions mutation_checkpoint).wp Store.Truthful Elsewhere (Proper build others)
      (Cmd.Out (fun _ s => Published build s) fun _ _ _ => True) st s :=
  SitePublication.attempt_wp Store.service_truthful hcp.keeps (absurd trivial)

theorem History.ordered (h : History build max_deletions mutation_checkpoint s₀ tr s) :
    (∀ x ∈ tr, Proper build others x.1 x.2) ∧ ∀ k, Surplus build s k → Surplus build s₀ k := by
  induction h with
  | start => exact ⟨by simp, fun _ h => h⟩
  | others _ hs ih => exact ⟨ih.1, fun k hk => ih.2 k (hs.surplus hk)⟩
  | @attempt tr s st tr' rest s' _ htr ih =>
    obtain ⟨hproper, hsurplus⟩ := ih
    obtain ⟨hproper', -⟩ := Conc.wp_trace htr (hcp.attempt_wp st s)
    refine ⟨List.forall_mem_append.2 ⟨hproper, hproper'⟩, ?_⟩
    exact htr.keeps (I := fun s => ∀ k, Surplus build s k → Surplus build s₀ k)
      (fun s s' h hs k hk => h k (hs.surplus hk))
      (fun x hx h k hk => h k ((hproper' x hx).surplus hcp.apart hk)) hsurplus

end

/-- What a published build means to the next attempts. -/
structure Settled (σ : Type) (build : SiteBuild) (max_deletions : Int) (s : Store) : Prop where
  verified : Ends (verify_site_publication build : Cmd σ Unit) s fun r _ => r = .ok ()
  planned : Ends (plan_site_publication build max_deletions : Cmd σ SitePlan) s fun r _ =>
    ∃ plan, r = .ok plan ∧ plan.writes = [] ∧ plan.deletions = []

theorem Published.settled {build : SiteBuild} {max_deletions : Int} {s : Store} (hmax : 0 ≤ max_deletions)
    (h : Published build s) : Settled σ build max_deletions s where
  verified := ends_of_wp fun st => Cmd.wp_mono (verify_wp h) fun r st s hr => by
    rcases r with e | u
    · exact hr.elim
    · rfl
  planned := ends_of_wp fun st => Cmd.wp_mono (plan_published_wp hmax h) fun r st s hr => by
    rcases r with e | plan
    · exact hr.elim
    · exact ⟨plan, rfl, hr⟩

/-- **Site publication.** Attempts may be cut anywhere, each plans anew: every request keeps the order
and the namespace, an attempt that returns has published the build, and one that is not cut returns. -/
theorem site_publication {build : SiteBuild} {max_deletions : Int} {mutation_checkpoint : Cmd σ Unit}
    {others : Set String} (hcp : Spares mutation_checkpoint others) {s₀ s : Store} {tr : List (Store × Store)}
    (hmax : ((surplus build s₀).length : Int) ≤ max_deletions)
    (h : History build max_deletions mutation_checkpoint s₀ tr s) :
    (∀ x ∈ tr, Ordered build others x.1 x.2) ∧
      (∀ st tr' st' s', Conc.Trace Store.Truthful Elsewhere (attempt build max_deletions mutation_checkpoint st) s
        tr' (.ret (.ok (), st')) s' → Settled σ build max_deletions s') ∧
      (NeverRaises mutation_checkpoint → Ends (attempt build max_deletions mutation_checkpoint) s
        fun r s' => r = .ok () ∧ Settled σ build max_deletions s') := by
  obtain ⟨hproper, hsurplus⟩ := h.ordered hcp
  have hpos : 0 ≤ max_deletions := le_trans (Int.natCast_nonneg _) hmax
  refine ⟨fun x hx => (hproper x hx).ordered hcp.apart, fun st tr' st' s' htr => ?_, fun hnever => ?_⟩
  · have hpublished := (Conc.wp_trace htr
      (attempt_wp Store.service_truthful hcp.keeps (absurd trivial))).2
    exact Published.settled hpos hpublished
  · -- what is surplus now was surplus at the start
    have hcount : ∀ keys : List String, keys.Nodup → (∀ k ∈ keys, Surplus build s k) →
        (keys.length : Int) ≤ max_deletions := by
      intro keys hnodup hkeys
      have hsub : keys ⊆ surplus build s₀ := fun k hk => mem_surplus.2 (hsurplus k (hkeys k hk))
      have hle := (List.subperm_of_subset hnodup hsub).length_le
      omega
    refine ends_of_wp fun st => Cmd.wp_mono
      (attempt_wp Store.service_serve (hcp.keeps_serve hnever) fun _ => hcount) fun r st s hr => ?_
    rcases r with e | u
    · exact hr.elim
    · exact ⟨rfl, Published.settled hpos hr⟩

/-! A home page and a style sheet, and a first attempt that is cut after the style sheet. -/

namespace Sample

def item (key content_type : String) (h : (SiteObjectFields.mk key
    "e3b0c44298fc1c149afbf4c8996fb92427ae41e4649b934ca495991b7852b855" 1 content_type
    Site.SITE_CACHE_CONTROL).post_init = .ok ()) : SiteObject := ⟨_, h⟩

def build : SiteBuild where
  manifest := ⟨[item "a.css" "text/css; charset=utf-8" (by decide +kernel),
    item "index.html" "text/html; charset=utf-8" (by decide +kernel)], by decide +kernel⟩
  bodies := ⟨[("a.css", ⟨#[97]⟩), ("index.html", ⟨#[98]⟩)], by decide⟩
  complete := by
    rintro i hi
    rcases List.mem_cons.1 hi with rfl | hi
    · decide
    · obtain rfl := List.mem_singleton.1 hi
      decide

theorem spares : Spares (pure () : Cmd Unit Unit) ∅ := ⟨fun _ => trivial, by simp⟩

/-- The listing, two reads, and the style sheet. -/
def cut : Store := ((attempt build 0 (pure () : Cmd Unit Unit) ()).runN Store.serve 4 Conc.CondStore.empty).2

end Sample

theorem site_publication_sample : (Sample.cut.get "site/a.css").isSome = true ∧
    Sample.cut.get "site/index.html" = none ∧
    Ends (attempt Sample.build 0 (pure () : Cmd Unit Unit)) Sample.cut
      fun r s' => r = .ok () ∧ Settled Unit Sample.build 0 s' := by
  have hcut := Conc.trace_runN Store.service_serve.truthful Elsewhere.refl 4
    (attempt Sample.build 0 (pure () : Cmd Unit Unit) ()) Conc.CondStore.empty
  obtain ⟨tr, htr⟩ := hcut
  obtain ⟨-, -, hfinal⟩ := site_publication Sample.spares (by decide) (.attempt .start htr)
  exact ⟨by decide +kernel, by decide +kernel, hfinal fun _ _ => rfl⟩

end SitePublication
