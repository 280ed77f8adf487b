import Mathlib.Data.List.Lex
import DkcLinux.BuildDeps

/-!
# Which build dependencies are selected

`Entry.read` is what the code makes of an entry: the first architecture list and the profile groups of all its
alternatives. The `<` of a version operator opens a group, which then ends with the next `>` (`read_groups`), and a
negated list is read without wildcards (`ReadHolds`).

| theorem              | what                                                                       |
|----------------------|----------------------------------------------------------------------------|
| `parse_field_render` | a field is parsed to what is read of its entries                           |
| `select_iff`         | exactly when the names are those of the first alternatives that hold       |
| `second_restricts`   | the architecture list of a second alternative drops the first              |
-/

namespace BuildDeps

open Py

/-! ## Special characters -/

def specials : List Char := "()[]<>|,".toList

/-- Of the special characters only these occur. -/
def Only (allowed : List Char) (s : Text) : Prop := ∀ c ∈ s, c ∈ specials → c ∈ allowed

instance (allowed : List Char) (s : Text) : Decidable (Only allowed s) :=
  inferInstanceAs (Decidable (∀ c ∈ s, c ∈ specials → c ∈ allowed))

theorem Only.not_mem {allowed : List Char} {s : Text} (h : Only allowed s) {c : Char} (hc : c ∈ specials)
    (hnot : c ∉ allowed) : c ∉ s := fun hmem => hnot (h c hmem hc)

theorem Only.mono {allowed allowed' : List Char} {s : Text} (h : Only allowed s) (hsub : allowed ⊆ allowed') :
    Only allowed' s := fun c hc hs => hsub (h c hc hs)

theorem Only.append {allowed : List Char} {s t : Text} (hs : Only allowed s) (ht : Only allowed t) : Only allowed (s ++ t) := by
  intro c hc hspecial
  rcases List.mem_append.1 hc with hc | hc
  · exact hs c hc hspecial
  · exact ht c hc hspecial

theorem Only.cons {allowed : List Char} {s : Text} (hs : Only allowed s) {c : Char} (hc : c ∈ specials → c ∈ allowed) :
    Only allowed (c :: s) := by
  intro d hd hspecial
  rcases List.mem_cons.1 hd with rfl | hd
  · exact hc hspecial
  · exact hs d hd hspecial

theorem special_not_space : ∀ c ∈ specials, isSpace c = false := by decide

theorem only_gap (gap : Gap) : Only [] gap.text := by
  intro c hc hspecial
  have hspace := gap.spaces c hc
  rw [special_not_space c hspecial] at hspace
  cases hspace

theorem word_char {c : Char} (h : isWordChar c = true) : isSpace c = false ∧ c ∉ "()[]<>|,:!=".toList := by
  rw [isWordChar, Bool.and_eq_true, Bool.not_eq_true', decide_eq_true_eq] at h
  exact h

theorem only_word (word : Word) : Only [] word.text := by
  intro c hc hspecial
  have hnot := (word_char (word.clean c hc)).2
  exact absurd (List.mem_append_left ":!=".toList hspecial) hnot

theorem only_phrase {α : Type} {f : α → Text} {allowed : List Char} (hf : ∀ x, Only allowed (f x)) (phrase : Phrase α) :
    Only allowed (phrase.spell f) := by
  have hgap (gap : Gap) : Only allowed gap.text := (only_gap gap).mono (List.nil_subset allowed)
  have hmore : ∀ more : List (Blank × α), Only allowed (Phrase.spellMore f phrase.trail more) := by
    intro more
    induction more with
    | nil => exact hgap phrase.trail
    | cons x more ih => exact (hgap x.1.toGap).append ((hf x.2).append ih)
  exact (hgap phrase.lead).append ((hf phrase.first).append (hmore phrase.more))

theorem only_sign {b : Bool} (word : Word) : Only [] (if b then '!' :: word.text else word.text) := by
  cases b
  · exact only_word word
  · exact (only_word word).cons (by decide)

theorem only_head (a : Alternative) : Only [] a.head := by
  refine (only_word a.name).append ?_
  cases a.qualifier with
  | none => exact fun _ hc => absurd hc List.not_mem_nil
  | some q => exact (only_word q).cons (by decide)

theorem only_version {v : Constraint} : Only [] v.version := by
  intro c hc hspecial
  have hclean := v.clean c hc
  rw [isVersionChar, Bool.and_eq_true, decide_eq_true_eq] at hclean
  exact absurd hspecial hclean.2

theorem only_nil (allowed : List Char) : Only allowed [] := fun _ hc => absurd hc List.not_mem_nil

theorem only_constraint (v : Constraint) : Only ['(', ')', '<', '>'] v.render := by
  have hgap (gap : Gap) : Only ['(', ')', '<', '>'] gap.text := (only_gap gap).mono (List.nil_subset _)
  have hop : Only ['(', ')', '<', '>'] v.op.text := by
    cases v.op <;> decide
  have hversion : Only ['(', ')', '<', '>'] v.version := only_version.mono (List.nil_subset _)
  have hend : Only ['(', ')', '<', '>'] [')'] := by decide
  exact (hgap _).append (((hgap _).append (hop.append ((hgap _).append (hversion.append ((hgap _).append hend))))).cons
    (by decide))

theorem only_list (list : ArchList) : Only ['[', ']'] list.render := by
  have hterm (name : Word) : Only ['[', ']'] (list.term name) := (only_sign name).mono (List.nil_subset _)
  have hend : Only ['[', ']'] [']'] := by decide
  exact ((only_gap list.before).mono (List.nil_subset _)).append (((only_phrase hterm list.names).append hend).cons (by decide))

theorem only_group (group : Group) : Only ['<', '>'] group.render := by
  have hterm (term : Term) : Only ['<', '>'] term.text := (only_sign term.name).mono (List.nil_subset _)
  have hend : Only ['<', '>'] ['>'] := by decide
  exact ((only_gap group.before).mono (List.nil_subset _)).append
    (((only_phrase hterm group.terms).append hend).cons (by decide))

theorem only_groups (groups : List Group) : Only ['<', '>'] (groups.flatMap Group.render) := by
  intro c hc
  obtain ⟨group, -, hc⟩ := List.mem_flatMap.1 hc
  exact only_group group c hc

theorem only_option {α : Type} {allowed : List Char} {f : α → Text} (h : ∀ x, Only allowed (f x)) (o : Option α) :
    Only allowed (o.elim [] f) := by
  cases o with
  | none => exact only_nil allowed
  | some x => exact h x

/-! ## Words -/

theorem words_phrase {α : Type} {f : α → Text} (hne : ∀ x, f x ≠ []) (hspace : ∀ x, ∀ c ∈ f x, isSpace c = false)
    (phrase : Phrase α) : words (phrase.spell f) = phrase.all.map f := by
  have hmore : ∀ (more : List (Blank × α)) (x : α),
      words (f x ++ Phrase.spellMore f phrase.trail more) = f x :: more.map fun y => f y.2 := by
    intro more
    induction more with
    | nil => exact fun x => words_last (hne x) (hspace x) phrase.trail.spaces
    | cons y more ih =>
      intro x
      rw [Phrase.spellMore, words_word (hne x) (hspace x) y.1.filled y.1.spaces, ih, List.map_cons]
  rw [Phrase.spell, words_gap phrase.lead.spaces, hmore, Phrase.all, List.map_cons, List.map_map]
  rfl

theorem sign_filled {b : Bool} (word : Word) : (if b then '!' :: word.text else word.text) ≠ [] := by
  cases b
  · exact word.filled
  · exact List.cons_ne_nil _ _

theorem sign_no_space {b : Bool} (word : Word) : ∀ c ∈ (if b then '!' :: word.text else word.text), isSpace c = false := by
  have hword : ∀ c ∈ word.text, isSpace c = false := fun c hc => (word_char (word.clean c hc)).1
  cases b
  · exact hword
  · intro c hc
    rcases List.mem_cons.1 hc with rfl | hc
    · decide
    · exact hword c hc

/-! ## Architecture lists -/

theorem scan_list (list : ArchList) : scan '[' ']' none list.render = ([list.names.spell list.term], none) := by
  have hlead : '[' ∉ list.before.text := (only_gap list.before).not_mem (by decide) (by decide)
  have honly : Only [] (list.names.spell list.term) := only_phrase (fun name => only_sign name) list.names
  have hbody : ']' ∉ list.names.spell list.term := honly.not_mem (by decide) (by decide)
  rw [ArchList.render, scan_skip hlead, scan_pair hbody]

theorem scan_alternative (a : Alternative) :
    scan '[' ']' none a.render = (a.architectures.toList.map fun list => list.names.spell list.term, none) := by
  have hlead : '[' ∉ a.lead.text := (only_gap a.lead).not_mem (by decide) (by decide)
  have hhead : '[' ∉ a.head := (only_head a).not_mem (by decide) (by decide)
  have hversion : '[' ∉ a.version.elim [] Constraint.render :=
    (only_option only_constraint a.version).not_mem (by decide) (by decide)
  have hrest : '[' ∉ a.groups.flatMap Group.render ++ a.trail.text :=
    ((only_groups a.groups).append ((only_gap a.trail).mono (List.nil_subset _))).not_mem (by decide) (by decide)
  rw [Alternative.render, Alternative.restrictions, scan_skip hlead, scan_skip hhead, scan_skip hversion]
  cases a.architectures with
  | none => exact scan_outside hrest
  | some list => rw [Option.elim_some, scan_append, scan_list, scan_outside hrest]; rfl

theorem enclosed_lists (e : Entry) : enclosed '[' ']' e.render =
    (e.first :: e.others).flatMap fun a => a.architectures.toList.map fun list => list.names.spell list.term := by
  have hothers : ∀ others : List Alternative, scan '[' ']' none (others.flatMap fun a => '|' :: a.render) =
      (others.flatMap fun a => a.architectures.toList.map fun list => list.names.spell list.term, none) := by
    intro others
    induction others with
    | nil => rfl
    | cons a others ih =>
      have hbar : scan '[' ']' none ('|' :: a.render) = scan '[' ']' none a.render := by
        rw [scan, if_neg (by decide)]
      rw [List.flatMap_cons, scan_append, hbar, scan_alternative, ih, List.flatMap_cons]
  rw [enclosed, Entry.render, scan_append, scan_alternative, hothers, List.flatMap_cons]

/-! ## Profile groups -/

/-- A version operator, read for groups: whether it closes one, and whether one is open after it. -/
def Op.read (inside : Bool) : Op → Bool × Bool
  | .lt_lt | .lt_eq => (false, true)
  | .eq => (false, inside)
  | .gt_eq | .gt_gt => (inside, false)

/-- The groups read in an alternative: its own (`some`), and what is opened by an operator (`none`). -/
def Alternative.read_groups (inside : Bool) (a : Alternative) : List (Option Group) × Bool :=
  let (closed, inside) := a.version.elim (false, inside) fun v => v.op.read inside
  let before := if closed then [none] else []
  match inside, a.groups with
  | true, _ :: groups => (before ++ none :: groups.map some, false)
  | true, [] => (before, true)
  | false, groups => (before ++ groups.map some, false)

def read_alternatives : Bool → List Alternative → List (Option Group) × Bool
  | inside, [] => ([], inside)
  | inside, a :: others =>
    let (found, inside) := a.read_groups inside
    let (rest, inside) := read_alternatives inside others
    (found ++ rest, inside)

def Entry.read_groups (e : Entry) : List (Option Group) := (read_alternatives false (e.first :: e.others)).1

/-- A group that begins with the second half of an operator. -/
def Operator (w : Text) : Prop := ∃ c v, w = c :: v ∧ (c = '<' ∨ c = '=')

def Inside (st : Option Text) : Bool → Prop
  | false => st = none
  | true => ∃ w, st = some w ∧ Operator w

def Found (content : Text) : Option Group → Prop
  | some group => words content = group.terms.all.map Term.text
  | none => Operator content

/-- What the scan of a text finds, from outside or inside of a group. -/
def Reads (s : Text) (inside inside' : Bool) (found : List (Option Group)) : Prop :=
  ∀ st, Inside st inside → ∃ contents st', scan '<' '>' st s = (contents, st') ∧ List.Forall₂ Found contents found ∧
    Inside st' inside'

theorem Operator.append {w : Text} (h : Operator w) (v : Text) : Operator (w ++ v) := by
  obtain ⟨c, u, rfl, hc⟩ := h
  exact ⟨c, u ++ v, rfl, hc⟩

theorem Reads.append {s s' : Text} {b b' b'' : Bool} {found found' : List (Option Group)} (h : Reads s b b' found)
    (h' : Reads s' b' b'' found') : Reads (s ++ s') b b'' (found ++ found') := by
  intro st hst
  obtain ⟨contents, st', hscan, hfound, hst'⟩ := h st hst
  obtain ⟨contents', st'', hscan', hfound', hst''⟩ := h' st' hst'
  refine ⟨contents ++ contents', st'', ?_, List.rel_append hfound hfound', hst''⟩
  rw [scan_append, hscan, hscan']

/-- A text without angle brackets. -/
theorem reads_plain {s : Text} (hl : '<' ∉ s) (hr : '>' ∉ s) (b : Bool) : Reads s b b [] := by
  intro st hst
  cases b with
  | false =>
    obtain rfl : st = none := hst
    exact ⟨[], none, scan_outside hl, .nil, rfl⟩
  | true =>
    obtain ⟨w, rfl, hw⟩ := hst
    exact ⟨[], some (w ++ s), scan_inside hr w, .nil, w ++ s, rfl, hw.append s⟩

theorem reads_op (op : Op) (b : Bool) :
    Reads op.text b (op.read b).2 (if (op.read b).1 then [none] else []) := by
  intro st hst
  cases b with
  | false =>
    obtain rfl : st = none := hst
    cases op with
    | lt_lt => exact ⟨[], some ['<'], rfl, .nil, ['<'], rfl, '<', [], rfl, .inl rfl⟩
    | lt_eq => exact ⟨[], some ['='], rfl, .nil, ['='], rfl, '=', [], rfl, .inr rfl⟩
    | eq => exact ⟨[], none, rfl, .nil, rfl⟩
    | gt_eq => exact ⟨[], none, rfl, .nil, rfl⟩
    | gt_gt => exact ⟨[], none, rfl, .nil, rfl⟩
  | true =>
    obtain ⟨w, rfl, hw⟩ := hst
    cases op with
    | lt_lt => exact ⟨[], some (w ++ ['<'] ++ ['<']), rfl, .nil, _, rfl, (hw.append _).append _⟩
    | lt_eq => exact ⟨[], some (w ++ ['<'] ++ ['=']), rfl, .nil, _, rfl, (hw.append _).append _⟩
    | eq => exact ⟨[], some (w ++ ['=']), rfl, .nil, _, rfl, hw.append _⟩
    | gt_eq => exact ⟨[w], none, rfl, .cons hw .nil, rfl⟩
    | gt_gt => exact ⟨[w], none, rfl, .cons hw .nil, rfl⟩

theorem reads_constraint (v : Constraint) (b : Bool) :
    Reads v.render b (v.op.read b).2 (if (v.op.read b).1 then [none] else []) := by
  have hbefore : Only ['('] (v.before.text ++ '(' :: v.op_lead.text) :=
    ((only_gap _).mono (List.nil_subset _)).append (((only_gap _).mono (List.nil_subset _)).cons (by decide))
  have hafter : Only [')'] (v.version_lead.text ++ (v.version ++ (v.trail.text ++ [')']))) :=
    ((only_gap _).mono (List.nil_subset _)).append ((only_version.mono (List.nil_subset _)).append
      (((only_gap _).mono (List.nil_subset _)).append (by decide)))
  have h := ((reads_plain (hbefore.not_mem (by decide) (by decide)) (hbefore.not_mem (by decide) (by decide)) b).append
    (reads_op v.op b)).append (reads_plain (hafter.not_mem (by decide) (by decide))
      (hafter.not_mem (by decide) (by decide)) _)
  rw [List.nil_append, List.append_nil] at h
  rw [Constraint.render]
  simpa only [List.append_assoc, List.cons_append] using h

theorem scan_group (group : Group) : scan '<' '>' none group.render = ([group.terms.spell Term.text], none) := by
  have hlead : '<' ∉ group.before.text := (only_gap group.before).not_mem (by decide) (by decide)
  have hterm (term : Term) : Only [] term.text := only_sign term.name
  have honly : Only [] (group.terms.spell Term.text) := only_phrase hterm group.terms
  have hbody : '>' ∉ group.terms.spell Term.text := honly.not_mem (by decide) (by decide)
  rw [Group.render, scan_skip hlead, scan_pair hbody]

/-- A group that is read as it stands. -/
theorem reads_group (group : Group) : Reads group.render false false [some group] := by
  intro st hst
  obtain rfl : st = none := hst
  have hwords : words (group.terms.spell Term.text) = group.terms.all.map Term.text :=
    words_phrase (f := Term.text) (fun t => sign_filled t.name) (fun t => sign_no_space t.name) group.terms
  exact ⟨_, none, scan_group group, .cons hwords .nil, rfl⟩

/-- A group that ends what an operator has opened. -/
theorem reads_swallowed (group : Group) : Reads group.render true false [none] := by
  rintro st ⟨w, rfl, hw⟩
  have hbody : Only ['<'] (group.before.text ++ '<' :: group.terms.spell Term.text) :=
    ((only_gap _).mono (List.nil_subset _)).append
      ((only_phrase (fun term => (only_sign (b := term.negated) term.name).mono (List.nil_subset _)) group.terms).cons
        (by decide))
  have hrender : group.render = (group.before.text ++ '<' :: group.terms.spell Term.text) ++ ['>'] := by
    rw [Group.render, List.append_assoc, List.cons_append]
  refine ⟨[w ++ (group.before.text ++ '<' :: group.terms.spell Term.text)], none, ?_, .cons (hw.append _) .nil, rfl⟩
  rw [hrender, scan_append, scan_inside (hbody.not_mem (by decide) (by decide))]
  rfl

theorem reads_groups : ∀ groups : List Group, Reads (groups.flatMap Group.render) false false (groups.map some)
  | [] => reads_plain List.not_mem_nil List.not_mem_nil false
  | group :: groups => (reads_group group).append (reads_groups groups)

/-- Whether an operator is open after the groups. -/
def Alternative.inside_after (a : Alternative) : Bool → Bool
  | true => a.groups.isEmpty
  | false => false

/-- The groups that are found where an operator may be open. -/
def Alternative.found_groups (a : Alternative) : Bool → List (Option Group)
  | true => (a.groups.map some).set 0 none
  | false => a.groups.map some

theorem reads_alternative (a : Alternative) (b : Bool) : Reads a.render b (a.read_groups b).2 (a.read_groups b).1 := by
  have hlead : Only [] (a.lead.text ++ a.head) := (only_gap _).append (only_head a)
  have hlist : Only ['[', ']'] (a.architectures.elim [] ArchList.render) := only_option only_list a.architectures
  have htrail := only_gap a.trail
  have hfirst := reads_plain (hlead.not_mem (c := '<') (by decide) (by decide)) (hlead.not_mem (by decide) (by decide)) b
  have hmid (b : Bool) := reads_plain (hlist.not_mem (c := '<') (by decide) (by decide)) (hlist.not_mem (by decide) (by decide)) b
  have hlast (b : Bool) := reads_plain (htrail.not_mem (c := '<') (by decide) (by decide)) (htrail.not_mem (by decide) (by decide)) b
  have hversion : Reads (a.version.elim [] Constraint.render) b (a.version.elim (false, b) fun v => v.op.read b).2
      (if (a.version.elim (false, b) fun v => v.op.read b).1 then [none] else []) := by
    cases a.version with
    | none => exact reads_plain List.not_mem_nil List.not_mem_nil b
    | some v => exact reads_constraint v b
  have hgroups (b : Bool) : Reads (a.groups.flatMap Group.render) b (a.inside_after b) (a.found_groups b) := by
    cases b with
    | false => exact reads_groups a.groups
    | true =>
      rw [Alternative.inside_after, Alternative.found_groups]
      cases a.groups with
      | nil => exact reads_plain List.not_mem_nil List.not_mem_nil true
      | cons group groups => exact (reads_swallowed group).append (reads_groups groups)
  have h := hfirst.append (hversion.append ((hmid _).append ((hgroups _).append (hlast _))))
  rw [List.nil_append, List.nil_append, List.append_nil, List.append_assoc] at h
  rw [Alternative.render, Alternative.restrictions, Alternative.read_groups]
  generalize a.version.elim (false, b) (fun v => v.op.read b) = read at h ⊢
  obtain ⟨closed, inside⟩ := read
  cases inside with
  | false => exact h
  | true =>
    rw [Alternative.inside_after, Alternative.found_groups] at h
    cases hg : a.groups with
    | nil =>
      rw [hg] at h
      simpa using h
    | cons group groups =>
      rw [hg] at h
      exact h

theorem reads_others : ∀ (others : List Alternative) (b : Bool), Reads (others.flatMap fun a => '|' :: a.render) b
    (read_alternatives b others).2 (read_alternatives b others).1
  | [], b => reads_plain List.not_mem_nil List.not_mem_nil b
  | a :: others, b => by
    have hbar := reads_plain (s := ['|']) (by decide) (by decide) b
    exact (hbar.append (reads_alternative a b)).append (reads_others others _)

theorem enclosed_groups (e : Entry) : List.Forall₂ Found (enclosed '<' '>' e.render) e.read_groups := by
  obtain ⟨contents, st, hscan, hfound, -⟩ := ((reads_alternative e.first false).append (reads_others e.others _)) none rfl
  rw [enclosed, Entry.render, hscan]
  exact hfound

/-! ## Names -/

/-- Nothing, or an end of a name first. -/
def Ends (s : Text) : Prop := ∀ c ∈ s.head?, isNameChar c = false

theorem Ends.append {s t : Text} (hs : Ends s) (ht : Ends t) : Ends (s ++ t) := by
  cases s with
  | nil => exact ht
  | cons c s => exact hs

theorem ends_gap (gap : Gap) : Ends gap.text := by
  intro c hc
  simp [isNameChar, gap.spaces c (List.mem_of_head? hc)]

theorem ends_cons {c : Char} (hc : isNameChar c = false) (s : Text) : Ends (c :: s) := by
  intro d hd
  obtain rfl : c = d := by simpa using hd
  exact hc

theorem ends_option {α : Type} {f : α → Text} (h : ∀ x, Ends (f x)) (o : Option α) : Ends (o.elim [] f) := by
  cases o with
  | none => exact fun c hc => absurd hc (by simp)
  | some x => exact h x

theorem ends_flatMap {α : Type} {f : α → Text} (h : ∀ x, Ends (f x)) : ∀ xs : List α, Ends (xs.flatMap f)
  | [] => fun c hc => absurd hc (by simp)
  | x :: xs => (h x).append (ends_flatMap h xs)

theorem ends_restrictions (a : Alternative) : Ends a.restrictions :=
  (ends_option (fun v : Constraint => (ends_gap v.before).append (ends_cons (by decide) _)) a.version).append
    ((ends_option (fun list : ArchList => (ends_gap list.before).append (ends_cons (by decide) _)) a.architectures).append
      ((ends_flatMap (fun group : Group => (ends_gap group.before).append (ends_cons (by decide) _)) a.groups).append
        (ends_gap a.trail)))

theorem name_char_word {c : Char} (h : isWordChar c = true) : isNameChar c = true := by
  obtain ⟨hspace, hnot⟩ := word_char h
  have hne {d : Char} (hd : d ∈ "()[]<>|,:!=".toList) : c ≠ d := fun hcd => hnot (hcd ▸ hd)
  simp [isNameChar, hspace, hne (d := '(') (by decide), hne (d := '[') (by decide), hne (d := '<') (by decide),
    hne (d := '|') (by decide)]

theorem name_char_head (a : Alternative) : ∀ c ∈ a.head, isNameChar c = true := by
  intro c hc
  rcases List.mem_append.1 hc with hc | hc
  · exact name_char_word (a.name.clean c hc)
  · cases hq : a.qualifier with
    | none =>
      rw [hq] at hc
      exact absurd hc List.not_mem_nil
    | some q =>
      rw [hq] at hc
      rcases List.mem_cons.1 hc with rfl | hc
      · decide
      · exact name_char_word (q.clean c hc)

theorem head_ne_nil (a : Alternative) : a.head ≠ [] := List.append_ne_nil_of_left_ne_nil a.name.filled _

theorem name_char_not_space (c : Char) (h : isSpace c = true) : isNameChar c = false := by simp [isNameChar, h]

/-- The regular expression finds the name with its qualifier. -/
theorem first_name (e : Entry) :
    (strip ((squeeze e.render).takeWhile (· ≠ '|'))).takeWhile isNameChar = e.first.head := by
  have hrest : Ends (e.first.restrictions ++ e.others.flatMap fun a => '|' :: a.render) :=
    (ends_restrictions e.first).append (ends_flatMap (fun a => ends_cons (by decide) _) e.others)
  have hlead : lstrip e.render = e.first.head ++ (e.first.restrictions ++ e.others.flatMap fun a => '|' :: a.render) := by
    obtain ⟨c, cs, hc⟩ := List.exists_cons_of_ne_nil (head_ne_nil e.first)
    have hspace : ¬ isSpace c = true := fun h => by
      have hname := name_char_head e.first c (hc ▸ List.mem_cons_self)
      rw [name_char_not_space c h] at hname
      cases hname
    rw [Entry.render, Alternative.render, lstrip, List.append_assoc, List.dropWhile_append_of_pos e.first.lead.spaces,
      List.append_assoc, hc, List.cons_append, List.dropWhile_cons, if_neg hspace]
  have hbar : ∀ c, isNameChar c = true → decide (c ≠ '|') = true := by
    intro c hc
    rw [decide_eq_true_eq]
    rintro rfl
    cases hc
  rw [takeWhile_squeeze name_char_not_space hbar, hlead, List.takeWhile_append_of_pos (name_char_head e.first)]
  cases hs : e.first.restrictions ++ e.others.flatMap fun a => '|' :: a.render with
  | nil => exact List.append_nil _
  | cons c s =>
    have hc : isNameChar c = false := hrest c (by rw [hs]; rfl)
    rw [List.takeWhile_cons, hc]
    exact List.append_nil _

/-- The name that is read: only these two qualifiers are left out. -/
def Entry.read_name (e : Entry) : Text :=
  match e.first.qualifier with
  | none => e.first.name.text
  | some q => if q.text = "native".toList ∨ q.text = "any".toList then e.first.name.text else e.first.head

theorem removesuffix_of_not {name suffix : Text} (h : ¬ suffix <:+ name) : removesuffix name suffix = name := if_neg h

theorem removesuffix_append (name suffix : Text) : removesuffix (name ++ suffix) suffix = name := by
  rw [removesuffix, if_pos (List.suffix_append name suffix), List.length_append, Nat.add_sub_cancel, List.take_left]

theorem colon_suffix {name x : Text} (hname : ':' ∉ name) : ¬ ':' :: x <:+ name :=
  fun h => hname (h.subset List.mem_cons_self)

theorem colon_suffix_iff {name q x : Text} (hname : ':' ∉ name) (hq : ':' ∉ q) (hx : ':' ∉ x) :
    ':' :: x <:+ name ++ ':' :: q ↔ q = x := by
  constructor
  · rintro ⟨pre, h⟩
    have hsplit := List.append_eq_append_iff.1 h
    rcases hsplit with ⟨u, rfl, hu⟩ | ⟨u, rfl, hu⟩
    · cases u with
      | nil => exact (List.cons.inj hu).2.symm
      | cons c u =>
        obtain ⟨rfl, -⟩ := List.cons.inj hu
        exact absurd (List.mem_append_right pre List.mem_cons_self) hname
    · cases u with
      | nil => exact (List.cons.inj hu).2
      | cons c u =>
        obtain ⟨-, hu⟩ := List.cons.inj hu
        exact absurd (hu ▸ List.mem_append_right u List.mem_cons_self) hq
  · rintro rfl
    exact List.suffix_append name _

theorem word_no_colon (word : Word) : ':' ∉ word.text := fun h => (word_char (word.clean _ h)).2 (by decide)

theorem removesuffix_head (e : Entry) :
    removesuffix (removesuffix e.first.head ":native".toList) ":any".toList = e.read_name := by
  have hname := word_no_colon e.first.name
  have hnative : ":native".toList = ':' :: "native".toList := rfl
  have hany : ":any".toList = ':' :: "any".toList := rfl
  rw [hnative, hany, Entry.read_name, Alternative.head]
  cases hq : e.first.qualifier with
  | none =>
    rw [Option.elim_none, List.append_nil, removesuffix_of_not (colon_suffix hname), removesuffix_of_not (colon_suffix hname)]
  | some q =>
    have hqc := word_no_colon q
    simp only [Option.elim_some]
    by_cases hn : q.text = "native".toList
    · rw [hn, removesuffix_append, removesuffix_of_not (colon_suffix hname), if_pos (.inl rfl)]
    · have hno : ¬ ':' :: "native".toList <:+ e.first.name.text ++ ':' :: q.text := fun h =>
        hn ((colon_suffix_iff hname hqc (by decide)).1 h)
      rw [removesuffix_of_not hno]
      by_cases ha : q.text = "any".toList
      · rw [ha, removesuffix_append, if_pos (.inr rfl)]
      · have hno : ¬ ':' :: "any".toList <:+ e.first.name.text ++ ':' :: q.text := fun h =>
          ha ((colon_suffix_iff hname hqc (by decide)).1 h)
        rw [removesuffix_of_not hno, if_neg fun h => h.elim hn ha]

/-! ## The items of a field -/

theorem closes_append {s : Text} (hl : '[' ∉ s) (hr : ']' ∉ s) (rest : Text) : closes (s ++ rest) = closes rest := by
  have hnone : s.find? (fun c => decide (c = '[' ∨ c = ']')) = none := by
    rw [List.find?_eq_none]
    intro c hc
    rw [decide_eq_true_eq]
    rintro (rfl | rfl)
    · exact hl hc
    · exact hr hc
  rw [closes, closes, List.find?_append, hnone, Option.none_or]

/-- After the text a bracket opens before one closes, if it is so in what follows. -/
def Opens (s : Text) : Prop := ∀ rest, closes rest = false → closes (s ++ rest) = false

theorem Opens.append {s t : Text} (hs : Opens s) (ht : Opens t) : Opens (s ++ t) := by
  intro rest hrest
  rw [List.append_assoc]
  exact hs _ (ht rest hrest)

theorem opens_only {allowed : List Char} {s : Text} (h : Only allowed s) (hl : '[' ∉ allowed) (hr : ']' ∉ allowed) :
    Opens s := by
  intro rest hrest
  rwa [closes_append (h.not_mem (by decide) hl) (h.not_mem (by decide) hr)]

theorem opens_list (list : ArchList) : Opens list.render := by
  have hgap := only_gap list.before
  intro rest _
  rw [ArchList.render, List.append_assoc, closes_append (hgap.not_mem (by decide) (by decide)) (hgap.not_mem (by decide) (by decide))]
  rfl

theorem opens_alternative (a : Alternative) : Opens a.render := by
  have hlist : Opens (a.architectures.elim [] ArchList.render) := by
    cases a.architectures with
    | none => exact opens_only (only_nil []) (by decide) (by decide)
    | some list => exact opens_list list
  exact (opens_only (only_gap a.lead) (by decide) (by decide)).append
    ((opens_only (only_head a) (by decide) (by decide)).append
      ((opens_only (only_option only_constraint a.version) (by decide) (by decide)).append
        (hlist.append ((opens_only (only_groups a.groups) (by decide) (by decide)).append
          (opens_only (only_gap a.trail) (by decide) (by decide))))))

theorem opens_piece : ∀ piece : Piece, Opens piece.render
  | .blank gap => opens_only (only_gap gap) (by decide) (by decide)
  | .entry e => by
    have hothers : ∀ others : List Alternative, Opens (others.flatMap fun a => '|' :: a.render) := by
      intro others
      induction others with
      | nil => exact opens_only (only_nil []) (by decide) (by decide)
      | cons a others ih =>
        have honly : Only ['|'] ['|'] := by decide
        have hbar : Opens ['|'] := opens_only honly (by decide) (by decide)
        exact (hbar.append (opens_alternative a)).append ih
    exact (opens_alternative e.first).append (hothers e.others)

theorem only_alternative (a : Alternative) : Only ['(', ')', '<', '>', '[', ']'] a.render :=
  ((only_gap a.lead).mono (List.nil_subset _)).append (((only_head a).mono (List.nil_subset _)).append
    (((only_option only_constraint a.version).mono (by decide)).append
      (((only_option only_list a.architectures).mono (by decide)).append
        (((only_groups a.groups).mono (by decide)).append ((only_gap a.trail).mono (List.nil_subset _))))))

theorem comma_piece : ∀ piece : Piece, ',' ∉ piece.render
  | .blank gap => (only_gap gap).not_mem (by decide) (by decide)
  | .entry e => by
    intro hmem
    have halt (a : Alternative) : ',' ∉ a.render := (only_alternative a).not_mem (by decide) (by decide)
    rcases List.mem_append.1 hmem with hmem | hmem
    · exact halt e.first hmem
    · obtain ⟨a, -, hmem⟩ := List.mem_flatMap.1 hmem
      rcases List.mem_cons.1 hmem with hbar | hmem
      · cases hbar
      · exact halt a hmem

theorem splitFrom_last {s : Text} (hs : ',' ∉ s) (w : Text) : splitFrom w s = [w ++ s] := by
  induction s generalizing w with
  | nil => rw [List.append_nil]; rfl
  | cons c s ih =>
    have hc : c ≠ ',' := fun h => hs (h ▸ List.mem_cons_self)
    rw [splitFrom, if_neg fun h => hc h.1, ih fun h => hs (List.mem_cons_of_mem c h), List.append_assoc,
      List.singleton_append]

theorem splitFrom_comma {s rest : Text} (hs : ',' ∉ s) (hrest : closes rest = false) (w : Text) :
    splitFrom w (s ++ ',' :: rest) = (w ++ s) :: splitFrom [] rest := by
  induction s generalizing w with
  | nil =>
    rw [List.nil_append, List.append_nil, splitFrom, if_pos ⟨rfl, by simp [hrest]⟩]
  | cons c s ih =>
    have hc : c ≠ ',' := fun h => hs (h ▸ List.mem_cons_self)
    rw [List.cons_append, splitFrom, if_neg fun h => hc h.1, ih fun h => hs (List.mem_cons_of_mem c h), List.append_assoc,
      List.singleton_append]

/-- The commas of a field are those between its pieces. -/
theorem split_pieces : ∀ (piece : Piece) (field : Field),
    closes (Field.render (piece :: field)) = false ∧
      top_level_split (Field.render (piece :: field)) = piece.render :: field.map Piece.render
  | piece, [] => by
    have hrender : Field.render [piece] = piece.render := by simp [Field.render, List.intercalate]
    have hopen := opens_piece piece [] rfl
    rw [List.append_nil] at hopen
    rw [hrender]
    exact ⟨hopen, splitFrom_last (comma_piece piece) []⟩
  | piece, next :: field => by
    obtain ⟨hclosed, hsplit⟩ := split_pieces next field
    have hrender : Field.render (piece :: next :: field) = piece.render ++ ',' :: Field.render (next :: field) := by
      simp [Field.render, List.intercalate]
    have hcomma : closes (',' :: Field.render (next :: field)) = false := by
      rw [← List.singleton_append, closes_append (by decide) (by decide)]
      exact hclosed
    rw [hrender]
    refine ⟨opens_piece piece _ hcomma, ?_⟩
    rw [top_level_split, splitFrom_comma (comma_piece piece) hclosed]
    exact congrArg (piece.render :: ·) hsplit

/-- The architecture list that is read: the first one of any alternative. -/
def Entry.read_list (e : Entry) : Option ArchList := (e.first :: e.others).findSome? (·.architectures)

/-- What the code makes of an entry. -/
def Entry.read (e : Entry) : Dependency where
  name := e.read_name
  architectures := e.read_list.elim [] fun list => list.names.all.map list.term
  profile_groups := (enclosed '<' '>' e.render).map words
  raw := squeeze e.render

theorem head_lists (f : ArchList → Text) : ∀ alternatives : List Alternative,
    (alternatives.flatMap fun a => a.architectures.toList.map f).head? = (alternatives.findSome? (·.architectures)).map f
  | [] => rfl
  | a :: alternatives => by
    rw [List.flatMap_cons, List.findSome?_cons]
    cases a.architectures with
    | none => exact head_lists f alternatives
    | some list => rfl

theorem parse_item_render (e : Entry) : parse_item (squeeze e.render) = .ok e.read := by
  have hlist : ((enclosed '[' ']' (squeeze e.render)).map words).head? =
      e.read_list.map fun list => list.names.all.map list.term := by
    have hterm (list : ArchList) : words (list.names.spell list.term) = list.names.all.map list.term :=
      words_phrase (fun name => sign_filled name) (fun name => sign_no_space name) list.names
    rw [enclosed_squeeze (by decide) (by decide), enclosed_lists, List.head?_map, head_lists, Entry.read_list, Option.map_map]
    exact congrArg (Option.map · _) (funext hterm)
  have hgroups := enclosed_squeeze (l := '<') (r := '>') (by decide) (by decide) e.render
  rw [parse_item]
  simp only [first_name, if_neg (head_ne_nil e.first), removesuffix_head, hgroups]
  rw [List.head?_map] at hlist
  rw [Entry.read]
  cases hfound : (enclosed '[' ']' (squeeze e.render)).head? with
  | none =>
    rw [hfound] at hlist
    cases hread : e.read_list with
    | none => rfl
    | some list =>
      rw [hread] at hlist
      cases hlist
  | some group =>
    rw [hfound] at hlist
    cases hread : e.read_list with
    | none =>
      rw [hread] at hlist
      cases hlist
    | some list =>
      rw [hread] at hlist
      have hwords : words group = list.names.all.map list.term := Option.some.inj hlist
      simp only [hwords, Option.elim_some]

theorem squeeze_entry (e : Entry) : squeeze e.render ≠ [] := by
  intro h
  have hname := first_name e
  rw [h] at hname
  exact head_ne_nil e.first hname.symm

theorem squeeze_gap (gap : Gap) : squeeze gap.text = [] := by
  have hwords := words_gap gap.spaces []
  rw [List.append_nil] at hwords
  rw [squeeze, hwords]
  rfl

/-- **A field is parsed to what is read of its entries.** -/
theorem parse_field_render (field : Field) : parse_field field.render = .ok (field.entries.map Entry.read) := by
  have hpieces : ∀ field : Field,
      (((field.map Piece.render).map squeeze).filter (· ≠ [])).mapM parse_item = .ok (field.entries.map Entry.read) := by
    intro field
    induction field with
    | nil => rfl
    | cons piece field ih =>
      cases piece with
      | blank gap =>
        rw [List.map_cons, List.map_cons, List.filter_cons_of_neg (by simp [Piece.render, squeeze_gap])]
        exact ih
      | entry e =>
        rw [List.map_cons, List.map_cons, List.filter_cons_of_pos (by simp [Piece.render, squeeze_entry]), List.mapM_cons,
          ih, Piece.render, parse_item_render]
        rfl
  rw [parse_field]
  cases field with
  | nil => rfl
  | cons piece field =>
    rw [(split_pieces piece field).2]
    exact hpieces (piece :: field)

/-! ## Selection -/

/-- A list is read without wildcards if it is negated. -/
def ArchList.ReadHolds (list : ArchList) (architecture : Text) : Prop :=
  if list.negated then ∀ name ∈ list.names.all, name.text ≠ architecture
  else ∃ name ∈ list.names.all, covers architecture name

/-- What is read of an entry applies. -/
def Entry.ReadHolds (e : Entry) (architecture : Text) (profiles : Profiles) : Prop :=
  (∀ list ∈ e.read_list, list.ReadHolds architecture) ∧
    (e.read_groups = [] ∨ ∃ group, some group ∈ e.read_groups ∧ group.Holds profiles)

theorem mark_not_word (word : Word) : word.text.head? ≠ some '!' := by
  intro h
  exact (word_char (word.clean '!' (List.mem_of_head? h))).2 (by decide)

theorem matches_negated {d : Dependency} {names : List Word} (h : d.architectures = names.map fun name => '!' :: name.text)
    (hne : names ≠ []) (architecture : Text) :
    d.architecture_matches architecture = .ok (decide (∀ name ∈ names, name.text ≠ architecture)) := by
  obtain ⟨name, architectures, groups, raw⟩ := d
  obtain rfl : architectures = _ := h
  have hfilter : ((names.map fun name => '!' :: name.text).filter fun a => decide (a.head? = some '!')) =
      names.map fun name => '!' :: name.text := by
    rw [List.filter_eq_self]
    intro a ha
    obtain ⟨name, -, rfl⟩ := List.mem_map.1 ha
    rfl
  have hne' : (names.map fun name => '!' :: name.text) ≠ [] := by simpa using hne
  unfold Dependency.architecture_matches
  rw [if_neg hne']
  simp only [hfilter]
  rw [if_pos hne', if_neg (not_not.2 rfl)]
  congr 1
  rw [decide_eq_decide, Bool.not_eq_true, List.any_eq_false, List.forall_mem_map]
  exact forall₂_congr fun name _ => not_congr decide_eq_true_iff

theorem matches_plain {d : Dependency} {names : List Word} (h : d.architectures = names.map Word.text)
    (hne : names ≠ []) (architecture : Text) :
    d.architecture_matches architecture = .ok (decide (∃ name ∈ names, covers architecture name)) := by
  obtain ⟨name, architectures, groups, raw⟩ := d
  obtain rfl : architectures = _ := h
  have hfilter : ((names.map Word.text).filter fun a => decide (a.head? = some '!')) = [] := by
    rw [List.filter_eq_nil_iff]
    intro a ha
    obtain ⟨name, -, rfl⟩ := List.mem_map.1 ha
    simpa using mark_not_word name
  have hne' : names.map Word.text ≠ [] := by simpa using hne
  have hmem (text : Text) : text ∈ names.map Word.text ↔ ∃ name ∈ names, name.text = text := List.mem_map
  unfold Dependency.architecture_matches
  rw [if_neg hne']
  simp only [hfilter]
  rw [if_neg (not_not.2 rfl)]
  congr 1
  rw [decide_eq_decide, hmem, hmem, hmem]
  constructor
  · rintro (⟨name, hname, h⟩ | ⟨name, hname, h⟩ | ⟨name, hname, h⟩)
    · exact ⟨name, hname, .inl h⟩
    · exact ⟨name, hname, .inr (.inr h)⟩
    · exact ⟨name, hname, .inr (.inl h)⟩
  · rintro ⟨name, hname, h | h | h⟩
    · exact .inl ⟨name, hname, h⟩
    · exact .inr (.inr ⟨name, hname, h⟩)
    · exact .inr (.inl ⟨name, hname, h⟩)

theorem read_list_matches (e : Entry) (architecture : Text) : ∃ applies, e.read.architecture_matches architecture = .ok applies ∧
    (applies = true ↔ ∀ list ∈ e.read_list, list.ReadHolds architecture) := by
  cases hread : e.read_list with
  | none =>
    have hempty : e.read.architectures = [] := by rw [Entry.read, hread]; rfl
    exact ⟨true, if_pos hempty, by simp⟩
  | some list =>
    have harch : e.read.architectures = list.names.all.map list.term := by rw [Entry.read, hread]; rfl
    have hne : list.names.all ≠ [] := List.cons_ne_nil _ _
    obtain ⟨before, negated, names⟩ := list
    cases negated with
    | true => exact ⟨_, matches_negated harch hne architecture, by simp [ArchList.ReadHolds]⟩
    | false => exact ⟨_, matches_plain harch hne architecture, by simp [ArchList.ReadHolds]⟩

theorem term_matches_iff (term : Term) (profiles : Profiles) :
    Dependency.term_matches profiles.texts term.text = true ↔ term.Holds profiles := by
  obtain ⟨negated, name⟩ := term
  cases negated with
  | true => simp [Dependency.term_matches, Term.text, Term.Holds]
  | false =>
    rw [Dependency.term_matches, Term.text, Term.Holds, if_neg Bool.false_ne_true, if_neg (mark_not_word name),
      if_neg Bool.false_ne_true, decide_eq_true_eq]

/-- A group that begins with half of an operator holds for no profile set. -/
theorem operator_fails {content : Text} (h : Operator content) (profiles : Profiles) :
    (words content).all (Dependency.term_matches profiles.texts) = false := by
  obtain ⟨c, w, rfl, hc⟩ := h
  have hspace : isSpace c = false := by
    rcases hc with rfl | rfl
    · decide
    · decide
  obtain ⟨v, vs, hwords⟩ := words_cons hspace w
  have hmark : (c :: v).head? ≠ some '!' := by
    rcases hc with rfl | rfl
    · simp
    · simp
  have hnot : c :: v ∉ profiles.texts := by
    intro hmem
    obtain ⟨word, -, hword⟩ := List.mem_map.1 hmem
    have hclean := (word_char (word.clean c (hword ▸ List.mem_cons_self))).2
    rcases hc with rfl | rfl
    · exact hclean (by decide)
    · exact hclean (by decide)
  rw [hwords, List.all_cons, Dependency.term_matches, if_neg hmark, decide_eq_false hnot, Bool.false_and]

theorem read_groups_match (e : Entry) (profiles : Profiles) : e.read.profiles_match profiles.texts = true ↔
    e.read_groups = [] ∨ ∃ group, some group ∈ e.read_groups ∧ group.Holds profiles := by
  have hany : ∀ {contents : List Text} {found : List (Option Group)}, List.Forall₂ Found contents found →
      (((contents.map words) = [] ↔ found = []) ∧
        ((contents.map words).any (fun group => group.all (Dependency.term_matches profiles.texts)) = true ↔
          ∃ group, some group ∈ found ∧ group.Holds profiles)) := by
    intro contents found h
    induction h with
    | nil => simp
    | @cons content o contents found hfound _ ih =>
      refine ⟨by simp, ?_⟩
      rw [List.map_cons, List.any_cons, Bool.or_eq_true, ih.2]
      cases o with
      | none =>
        rw [operator_fails hfound]
        simp
      | some group =>
        have hholds : (words content).all (Dependency.term_matches profiles.texts) = true ↔ group.Holds profiles := by
          rw [show words content = group.terms.all.map Term.text from hfound, List.all_map, List.all_eq_true]
          exact forall₂_congr fun term _ => term_matches_iff term profiles
        rw [hholds]
        simp
  obtain ⟨hnil, hsome⟩ := hany (enclosed_groups e)
  rw [Dependency.profiles_match, Entry.read, Bool.or_eq_true, decide_eq_true_eq, hnil, hsome]

theorem applies_to_iff (e : Entry) (architecture : Text) (profiles : Profiles) :
    ∃ applies, e.read.applies_to architecture profiles.texts = .ok applies ∧
      (applies = true ↔ e.ReadHolds architecture profiles) := by
  obtain ⟨applies, hmatch, happlies⟩ := read_list_matches e architecture
  have hgroups := read_groups_match e profiles
  rw [Dependency.applies_to, hmatch]
  cases applies with
  | true => exact ⟨_, rfl, by rw [hgroups, Entry.ReadHolds, ← happlies]; simp⟩
  | false => exact ⟨false, rfl, by rw [Entry.ReadHolds, ← happlies]; simp⟩

theorem applied_entries (architecture : Text) (profiles : Profiles) : ∀ entries : List Entry,
    ∃ names, applied architecture profiles.texts (entries.map Entry.read) = .ok names ∧
      ∀ name, name ∈ names ↔ ∃ e ∈ entries, e.read_name = name ∧ e.ReadHolds architecture profiles
  | [] => ⟨[], rfl, by simp⟩
  | e :: entries => by
    obtain ⟨names, hnames, hmem⟩ := applied_entries architecture profiles entries
    obtain ⟨applies, happly, hiff⟩ := applies_to_iff e architecture profiles
    refine ⟨if applies then e.read_name :: names else names, ?_, fun name => ?_⟩
    · rw [List.map_cons, applied, happly, hnames]
      rfl
    · cases applies with
      | true =>
        have hholds := hiff.1 rfl
        rw [if_pos rfl, List.mem_cons, hmem, List.exists_mem_cons_iff]
        simp only [hholds, and_true, eq_comm]
      | false =>
        have hnot : ¬ e.ReadHolds architecture profiles := fun h => Bool.false_ne_true (hiff.2 h)
        rw [if_neg Bool.false_ne_true, hmem, List.exists_mem_cons_iff]
        simp only [hnot, and_false, false_or]

theorem mem_sorted {names : List Text} {name : Text} : name ∈ sorted names ↔ name ∈ names := by
  rw [sorted, List.mem_insertionSort, List.mem_dedup]

/-- Sorted names are the same if they have the same members. -/
theorem sorted_eq_iff {names names' : List Text} : sorted names = sorted names' ↔ ∀ name, name ∈ names ↔ name ∈ names' := by
  constructor
  · intro h name
    rw [← mem_sorted, h, mem_sorted]
  · intro h
    have hperm : names.dedup.Perm names'.dedup := by
      rw [List.perm_ext_iff_of_nodup (List.nodup_dedup _) (List.nodup_dedup _)]
      intro name
      rw [List.mem_dedup, List.mem_dedup, h]
    have hsort := ((List.perm_insertionSort (· ≤ ·) names.dedup).trans hperm).trans
      (List.perm_insertionSort (· ≤ ·) names'.dedup).symm
    exact hsort.eq_of_pairwise' (List.pairwise_insertionSort _ _) (List.pairwise_insertionSort _ _)

/-- What the field says is read of the entry. -/
structure Entry.Plain (e : Entry) : Prop where
  list : e.read_list = e.first.architectures
  wildcards : ∀ list ∈ e.first.architectures, list.negated = true → ∀ name ∈ list.names.all,
    name.text ≠ "any".toList ∧ name.text ≠ "linux-any".toList
  groups : e.read_groups = e.first.groups.map some
  name : e.read_name = e.first.name.text

theorem Entry.Plain.holds_iff {e : Entry} (h : e.Plain) (architecture : Text) (profiles : Profiles) :
    e.ReadHolds architecture profiles ↔ e.first.Holds architecture profiles := by
  have hlist : (∀ list ∈ e.first.architectures, list.ReadHolds architecture) ↔
      ∀ list ∈ e.first.architectures, list.Holds architecture := by
    refine forall₂_congr fun list hmem => ?_
    rw [ArchList.ReadHolds, ArchList.Holds]
    by_cases hneg : list.negated = true
    · rw [if_pos hneg, if_pos hneg]
      refine forall₂_congr fun name hname => ?_
      obtain ⟨hany, hlinux⟩ := h.wildcards list hmem hneg name hname
      rw [covers]
      simp only [hany, hlinux, or_false, ne_eq]
    · rw [if_neg hneg, if_neg hneg]
  rw [Entry.ReadHolds, Alternative.Holds, h.list, hlist, h.groups]
  simp

/-- The claim about a field. -/
def Field.Exact (field : Field) (architecture : Text) (profiles : Profiles) : Prop :=
  (parse_field field.render >>= fun dependencies => filter_dependencies dependencies architecture profiles.texts) =
    .ok (field.selected architecture profiles)

/-- **The names are those of the first alternatives that hold, if and only if each entry that is read as applying has the
name of one that holds, and each that holds the name of one that is read so.** -/
theorem select_iff (field : Field) (architecture : Text) (profiles : Profiles) :
    (field.Exact architecture profiles ↔
      (∀ e ∈ field.entries, e.ReadHolds architecture profiles →
        ∃ e' ∈ field.entries, e'.first.name.text = e.read_name ∧ e'.first.Holds architecture profiles) ∧
      (∀ e ∈ field.entries, e.first.Holds architecture profiles →
        ∃ e' ∈ field.entries, e'.read_name = e.first.name.text ∧ e'.ReadHolds architecture profiles)) ∧
    ((∀ e ∈ field.entries, e.Plain) → field.Exact architecture profiles) := by
  obtain ⟨names, hnames, hmem⟩ := applied_entries architecture profiles field.entries
  have hselected (name : Text) : (name ∈ (field.entries.filter fun e => decide (e.first.Holds architecture profiles)).map
      fun e => e.first.name.text) ↔ ∃ e ∈ field.entries, e.first.name.text = name ∧ e.first.Holds architecture profiles := by
    rw [List.mem_map]
    constructor
    · rintro ⟨e, he, hname⟩
      obtain ⟨he, hholds⟩ := List.mem_filter.1 he
      exact ⟨e, he, hname, of_decide_eq_true hholds⟩
    · rintro ⟨e, he, hname, hholds⟩
      exact ⟨e, List.mem_filter.2 ⟨he, decide_eq_true hholds⟩, hname⟩
  have hexact : field.Exact architecture profiles ↔
      ∀ name, (∃ e ∈ field.entries, e.read_name = name ∧ e.ReadHolds architecture profiles) ↔
        ∃ e ∈ field.entries, e.first.name.text = name ∧ e.first.Holds architecture profiles := by
    have hfilter : filter_dependencies (field.entries.map Entry.read) architecture profiles.texts = .ok (sorted names) := by
      rw [filter_dependencies, hnames]
      rfl
    rw [Field.Exact, parse_field_render]
    change filter_dependencies _ _ _ = _ ↔ _
    rw [hfilter, Except.ok.injEq, Field.selected, sorted_eq_iff]
    simp only [hmem, hselected]
  constructor
  · rw [hexact]
    constructor
    · intro h
      exact ⟨fun e he hread => (h e.read_name).1 ⟨e, he, rfl, hread⟩,
        fun e he hholds => (h e.first.name.text).2 ⟨e, he, rfl, hholds⟩⟩
    · rintro ⟨hread, hholds⟩ name
      constructor
      · rintro ⟨e, he, rfl, h⟩
        exact hread e he h
      · rintro ⟨e, he, rfl, h⟩
        exact hholds e he h
  · intro hplain
    rw [hexact]
    intro name
    refine exists_congr fun e => and_congr_right fun he => ?_
    rw [(hplain e he).name, (hplain e he).holds_iff]

/-! ## Samples -/

def no_gap : Gap := ⟨[], by decide⟩

def one_blank : Gap := ⟨[' '], by decide⟩

/-- `foo | bar [arm64]`. -/
def second_list : Field :=
  let foo : Alternative := ⟨no_gap, ⟨"foo".toList, by decide, by decide⟩, none, none, none, [], one_blank⟩
  let arm64 : ArchList := ⟨one_blank, false, ⟨no_gap, ⟨"arm64".toList, by decide, by decide⟩, [], no_gap⟩⟩
  let bar : Alternative := ⟨one_blank, ⟨"bar".toList, by decide, by decide⟩, none, none, some arm64, [], no_gap⟩
  [.entry ⟨foo, [bar]⟩]

/-- The list of the second alternative drops the first. -/
theorem second_restricts : second_list.render = "foo | bar [arm64]".toList ∧
    second_list.selected "amd64".toList [] = ["foo".toList] ∧
      (parse_field second_list.render >>= fun dependencies => filter_dependencies dependencies "amd64".toList []) = .ok [] := by
  decide

end BuildDeps
