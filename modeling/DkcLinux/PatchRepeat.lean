import DkcLinux.PatchSections
import DkcLinux.PatchRendering

/-!
# A patch that is run again (`dkc/sourcepatch.py:195-306`)

The second run looks at the text that the first one wrote. It leaves it alone where the patch has no place
there, or its reverse has the better one (`Settled`).

The old texts of a patch that was placed exactly may stand in the file one behind the other, as in every
diff (`before`). Then the new texts stand in the written file the same way (`behind`), and the reverse is
placed exactly if none of them has a second place (`Alone`). A hunk whose new text is a line that the file
has elsewhere is applied twice (`removed_twice`).
-/

namespace SourcePatch

open SurrogateEscape

/-! ## Written texts are read again -/

/-- A line as it is read from bytes. -/
def Whole (line : Line) : Prop := ∃ body, newline ∉ body ∧ Readable body ∧ line = body ++ [newline]

/-- The lines of a text that is read from bytes; the last one may lack its newline. -/
def TextLines : List Line → Prop
  | [] => True
  | [line] => Whole line ∨ (line ≠ [] ∧ newline ∉ line ∧ Readable line)
  | line :: next :: rest => Whole line ∧ TextLines (next :: rest)

theorem textLines_cons {line : Line} {rest : List Line} (h : Whole line) (hrest : TextLines rest) :
    TextLines (line :: rest) := by
  cases rest with
  | nil => exact .inl h
  | cons next rest => exact ⟨h, hrest⟩

theorem textLines_append {rest : List Line} (hrest : TextLines rest) : ∀ {ls : List Line}, (∀ line ∈ ls, Whole line) →
    TextLines (ls ++ rest)
  | [], _ => hrest
  | line :: _, h => textLines_cons (h line List.mem_cons_self)
    (textLines_append hrest fun line hmem => h line (List.mem_cons_of_mem _ hmem))

/-- Only the last line may lack its newline. -/
theorem textLines_split {rest : List Line} (hne : rest ≠ []) : ∀ {ls : List Line}, TextLines (ls ++ rest) →
    (∀ line ∈ ls, Whole line) ∧ TextLines rest
  | [], h => ⟨fun line hmem => absurd hmem List.not_mem_nil, h⟩
  | line :: ls, h => by
    obtain ⟨next, tail, htail⟩ := List.exists_cons_of_ne_nil (List.append_ne_nil_of_right_ne_nil ls hne)
    rw [List.cons_append, htail] at h
    obtain ⟨hline, h⟩ := h
    rw [← htail] at h
    obtain ⟨hls, hrest⟩ := textLines_split hne h
    refine ⟨fun other hmem => ?_, hrest⟩
    rcases List.mem_cons.1 hmem with rfl | hmem
    · exact hline
    · exact hls other hmem

theorem textLines_right {rest : List Line} : ∀ {ls : List Line}, TextLines (ls ++ rest) → TextLines rest := by
  intro ls h
  by_cases hne : rest = []
  · subst hne
    trivial
  · exact (textLines_split hne h).2

theorem newline_not_mem_decode {bytes : List UInt8} (h : 10 ∉ bytes) : newline ∉ decode bytes := by
  intro hmem
  have hbyte : 10 ∈ encode (decode bytes) := List.mem_flatMap.2 ⟨newline, hmem, by decide⟩
  rw [encode_decode] at hbyte
  exact h hbyte

theorem lines_of_not_mem {text : Line} (h : newline ∉ text) : lines text = if text = [] then [] else [text] := by
  rw [lines, List.splitOn_eq_singleton h]
  by_cases hnil : text = []
  · subst hnil
    rfl
  · rw [if_neg hnil]
    simp [Option.filter, hnil]

theorem textLines_decode (bytes : List UInt8) : TextLines (lines (decode bytes)) := by
  by_cases h : (10 : UInt8) ∈ bytes
  · obtain ⟨xs, ys, hbytes, hxs⟩ := List.eq_append_cons_of_mem h
    have hlt : ys.length < bytes.length := by
      rw [hbytes, List.length_append, List.length_cons]
      omega
    have hline := newline_not_mem_decode hxs
    rw [hbytes, decode_newline, ← newline, lines_line hline]
    exact textLines_cons ⟨decode xs, hline, readable_decode xs, rfl⟩ (textLines_decode ys)
  · have hline := newline_not_mem_decode h
    rw [lines_of_not_mem hline]
    split
    · trivial
    · next hne => exact .inr ⟨hne, hline, readable_decode bytes⟩
termination_by bytes.length

/-- The bytes of a text give its lines back. -/
theorem lines_bytesOf : ∀ {ls : List Line}, TextLines ls → lines (decode (bytesOf ls)) = ls
  | [], _ => rfl
  | line :: rest, h => by
    have hwhole (hwhole : Whole line) (hrest : TextLines rest) :
        lines (decode (bytesOf (line :: rest))) = line :: rest := by
      obtain ⟨body, hbody, hread, rfl⟩ := hwhole
      have hbytes : bytesOf ((body ++ [newline]) :: rest) = encode body ++ 10 :: bytesOf rest := by
        rw [bytesOf, List.flatten_cons, encode_append, encode_append, List.append_assoc]
        rfl
      rw [hbytes, decode_newline, hread, ← newline, lines_line hbody, lines_bytesOf hrest]
    cases rest with
    | cons next rest => exact hwhole h.1 h.2
    | nil =>
      rcases h with h | ⟨hne, hline, hread⟩
      · exact hwhole h trivial
      · rw [bytesOf, List.flatten_cons, List.flatten_nil, List.append_nil, hread, lines_of_not_mem hline, if_neg hne]

/-! ## A hunk the other way -/

namespace Hunk

theorem side_swap (keep : Tag → Bool) (lines : List (Tag × Line)) :
    side keep (lines.map fun line => (line.1.swap, line.2)) = side (fun tag => keep tag.swap) lines := by
  rw [side, List.filter_map, List.map_map, side]
  rfl

theorem reversed_old (hunk : Hunk) : hunk.reversed.old = hunk.new := by
  have h := side_swap (fun tag => tag ≠ .added) hunk.lines
  have hkeep : (fun tag : Tag => decide (tag.swap ≠ .added)) = fun tag => decide (tag ≠ .removed) := by
    funext tag
    cases tag <;> rfl
  rw [hkeep] at h
  exact h

theorem reversed_new (hunk : Hunk) : hunk.reversed.new = hunk.old := by
  have h := side_swap (fun tag => tag ≠ .removed) hunk.lines
  have hkeep : (fun tag : Tag => decide (tag.swap ≠ .removed)) = fun tag => decide (tag ≠ .added) := by
    funext tag
    cases tag <;> rfl
  rw [hkeep] at h
  exact h

theorem takeWhile_swap (lines : List (Tag × Line)) :
    (lines.map fun line => (line.1.swap, line.2)).takeWhile isContext =
      (lines.takeWhile isContext).map fun line => (line.1.swap, line.2) := by
  have hcontext : (isContext ∘ fun line : Tag × Line => (line.1.swap, line.2)) = isContext := by
    funext ⟨tag, text⟩
    cases tag <;> rfl
  rw [List.takeWhile_map, hcontext]

theorem reversed_leading (hunk : Hunk) : hunk.reversed.leading = hunk.leading := by
  have h := congrArg List.length (takeWhile_swap hunk.lines)
  rw [List.length_map] at h
  exact h

theorem reversed_trailing (hunk : Hunk) : hunk.reversed.trailing = hunk.trailing := by
  have h := congrArg List.length (takeWhile_swap hunk.lines.reverse)
  rw [List.length_map, List.map_reverse] at h
  exact h

theorem reversed_below (hunk : Hunk) : hunk.reversed.below = hunk.below := by
  have hlines : hunk.reversed.lines.reverse = hunk.lines.reverse.map fun line => (line.1.swap, line.2) :=
    List.map_reverse.symm
  rw [below, hlines, takeWhile_swap, ← List.map_reverse, List.map_map]
  rfl

theorem reversed_core_old (hunk : Hunk) : hunk.reversed.core_old = hunk.core_new := by
  rw [core_old, core_new, reversed_old, reversed_leading, reversed_trailing]

theorem reversed_core_new (hunk : Hunk) : hunk.reversed.core_new = hunk.core_old := by
  rw [core_old, core_new, reversed_new, reversed_leading, reversed_trailing]

theorem new_eq (hunk : Hunk) : hunk.new = hunk.above ++ hunk.core_new ++ hunk.below := by
  rw [core_new_eq]
  exact @side_lines hunk (fun tag => tag ≠ .removed) rfl

end Hunk

/-! ## Old and new texts one behind the other -/

/-- What is kept before a hunk, and the hunk. -/
structure Spot where
  free : List Line
  hunk : Hunk

/-- The text with the old texts. -/
def before : List Spot → List Line → List Line
  | [], last => last
  | spot :: spots, last => spot.free ++ spot.hunk.old ++ before spots last

/-- The text with the new texts. -/
def behind : List Spot → List Line → List Line
  | [], last => last
  | spot :: spots, last => spot.free ++ spot.hunk.new ++ behind spots last

/-- The new text of each hunk is not empty and has no second place from the end of the change before it on;
`lead` is the context below that change. -/
def Alone : List Line → List Spot → List Line → Prop
  | _, [], _ => True
  | lead, spot :: spots, last =>
    spot.hunk.new ≠ [] ∧
      (∀ q, (lead ++ behind (spot :: spots) last).Occurs spot.hunk.new q → q = lead.length + spot.free.length) ∧
      Alone spot.hunk.below spots last

/-- A hunk is placed where its old text has its only place. -/
theorem place_only {done pre post : List Line} {hunk : Hunk} (hold : hunk.old ≠ [])
    (honly : ∀ q, (pre ++ hunk.old ++ post).Occurs hunk.old q → q = pre.length) (label : String × List String) :
    place (done ++ (pre ++ hunk.old ++ post)) hunk done.length label =
      .ok ⟨done.length + pre.length + hunk.leading, hunk.core_old.length, hunk.core_new, true⟩ := by
  have hfind : (done ++ (pre ++ hunk.old ++ post)).find hunk.old done.length = [done.length + pre.length] := by
    refine List.find_eq_singleton fun p => ?_
    rw [List.mem_find hold]
    constructor
    · rintro ⟨hle, hocc⟩
      have h := honly _ ((List.occurs_append hle).1 hocc)
      omega
    · rintro rfl
      refine ⟨Nat.le_add_right _ _, (List.occurs_append (Nat.le_add_right _ _)).2 ?_⟩
      rw [Nat.add_sub_cancel_left]
      exact ⟨pre, post, rfl, rfl⟩
  rw [place, if_neg hold, hfind]

/-- A hunk that was placed exactly stands at the only place of its old text. -/
theorem place_exact {lines : List Line} {hunk : Hunk} {start : Nat} {label : String × List String}
    {placement : Placement} (h : place lines hunk start label = .ok placement) (hexact : placement.exact = true) :
    hunk.old ≠ [] ∧ ∃ position, lines.find hunk.old start = [position] ∧
      placement = ⟨position + hunk.leading, hunk.core_old.length, hunk.core_new, true⟩ := by
  unfold place at h
  obtain ⟨hold, h⟩ := except_check_eq_ok.1 h
  refine ⟨hold, ?_⟩
  split at h
  · next position hfind =>
    cases h
    exact ⟨position, hfind, rfl⟩
  · split at h
    · cases h
      cases hexact
    · cases h
    · cases h
  · cases h

/-- One replacement, in the text from what is done on. -/
theorem splice_core {done lead free : List Line} {hunk : Hunk} {post : List Line} :
    (done ++ (lead ++ (free ++ hunk.old ++ post))).splice (done.length + (lead ++ free).length + hunk.leading)
        hunk.core_old.length hunk.core_new =
      (done ++ lead ++ free ++ hunk.above ++ hunk.core_new) ++ (hunk.below ++ post) := by
  have htext : done ++ (lead ++ (free ++ hunk.old ++ post)) =
      (done ++ lead ++ free ++ hunk.above) ++ hunk.core_old ++ (hunk.below ++ post) := by
    rw [hunk.old_eq]
    simp only [List.append_assoc]
  have hlength : (done ++ lead ++ free ++ hunk.above).length = done.length + (lead ++ free).length + hunk.leading := by
    simp only [List.length_append, hunk.above_length]
    omega
  rw [htext, List.splice_append hlength]

/-- How the code goes on after an exact placement. -/
theorem apply_step {path : Line} {done lead free : List Line} {hunk : Hunk} {post : List Line} {exact : Bool}
    {number : Nat} {hunks : List Hunk}
    (h : place (done ++ (lead ++ (free ++ hunk.old ++ post))) hunk done.length (hunk_label path number hunk) =
      .ok ⟨done.length + (lead ++ free).length + hunk.leading, hunk.core_old.length, hunk.core_new, true⟩) :
    apply_hunks path (done ++ (lead ++ (free ++ hunk.old ++ post))) done.length exact number (hunk :: hunks) =
      apply_hunks path ((done ++ lead ++ free ++ hunk.above ++ hunk.core_new) ++ (hunk.below ++ post))
        (done ++ lead ++ free ++ hunk.above ++ hunk.core_new).length exact (number + 1) hunks := by
  have hcursor : done.length + (lead ++ free).length + hunk.leading + hunk.core_new.length =
      (done ++ lead ++ free ++ hunk.above ++ hunk.core_new).length := by
    simp only [List.length_append, hunk.above_length]
    omega
  rw [apply_hunks, h, except_ok_bind]
  simp only
  rw [splice_core, hcursor, Bool.and_true]

theorem apply_hunks_exact {path : Line} : ∀ {hunks : List Hunk} {lines result : List Line} {cursor number : Nat}
    {exact : Bool}, apply_hunks path lines cursor exact number hunks = .ok (result, true) → exact = true
  | [], _, _, _, _, _, h => by
    cases h
    rfl
  | hunk :: hunks, _, _, _, _, _, h => by
    obtain ⟨placement, -, h⟩ := except_bind_eq_ok.1 h
    exact (Bool.and_eq_true_iff.1 (apply_hunks_exact h)).1

/-- **Exact placements leave the new texts where the old ones stood.** -/
theorem apply_hunks_behind {path : Line} {last : List Line} : ∀ {spots : List Spot} {done lead result : List Line}
    {exact : Bool} {number : Nat},
    apply_hunks path (done ++ (lead ++ before spots last)) done.length exact number (spots.map (·.hunk)) =
        .ok (result, true) →
      result = done ++ (lead ++ behind spots last) ∧ ∀ spot ∈ spots, spot.hunk.old ≠ []
  | [], done, lead, result, exact, number, h => by
    cases h
    exact ⟨rfl, fun spot hmem => absurd hmem List.not_mem_nil⟩
  | ⟨free, hunk⟩ :: spots, done, lead, result, exact, number, h => by
    obtain ⟨placement, hplace, h'⟩ := except_bind_eq_ok.1 h
    have hexact := (Bool.and_eq_true_iff.1 (apply_hunks_exact h')).2
    obtain ⟨hold, position, hfind, rfl⟩ := place_exact hplace hexact
    -- the text has the old lines there, so this is the place
    have hmem : done.length + (lead ++ free).length ∈
        (done ++ (lead ++ before (⟨free, hunk⟩ :: spots) last)).find hunk.old done.length := by
      refine (List.mem_find hold).2 ⟨Nat.le_add_right _ _, done ++ (lead ++ free), before spots last, ?_, ?_⟩
      · simp only [before, List.append_assoc]
      · rw [List.length_append]
    rw [hfind, List.mem_singleton] at hmem
    rw [← hmem] at hplace
    rw [List.map_cons, before, apply_step hplace] at h
    obtain ⟨hresult, hspots⟩ := apply_hunks_behind h
    constructor
    · rw [hresult, behind, hunk.new_eq]
      simp only [List.append_assoc]
    · intro spot hspot
      rcases List.mem_cons.1 hspot with rfl | hspot
      · exact hold
      · exact hspots spot hspot

/-- **The reverse is placed exactly where no new text has a second place.** -/
theorem apply_hunks_alone {path : Line} {last : List Line} : ∀ {spots : List Spot} {done lead : List Line}
    {exact : Bool} {number : Nat}, Alone lead spots last →
      ∃ result, apply_hunks path (done ++ (lead ++ behind spots last)) done.length exact number
        (spots.map (·.hunk.reversed)) = .ok (result, exact)
  | [], done, lead, exact, number, _ => ⟨_, rfl⟩
  | ⟨free, hunk⟩ :: spots, done, lead, exact, number, ⟨hne, honly, h⟩ => by
    have hold : hunk.reversed.old = hunk.new := hunk.reversed_old
    have honly' (q : Nat) (hq : (lead ++ free ++ hunk.reversed.old ++ behind spots last).Occurs hunk.reversed.old q) :
        q = (lead ++ free).length := by
      rw [List.length_append]
      refine honly q ?_
      rw [hold, List.append_assoc lead, List.append_assoc lead] at hq
      exact hq
    have hplace : place (done ++ (lead ++ free ++ hunk.reversed.old ++ behind spots last)) _ _ _ = _ :=
      place_only (hold ▸ hne) honly' (hunk_label path number hunk.reversed)
    have htext : lead ++ behind (⟨free, hunk⟩ :: spots) last =
        lead ++ (free ++ hunk.reversed.old ++ behind spots last) := by rw [hold, behind]
    rw [List.append_assoc lead, List.append_assoc lead] at hplace
    rw [List.map_cons, htext, apply_step hplace]
    rw [hunk.reversed_below]
    exact apply_hunks_alone h

/-! ## The lines of a patch -/

/-- Every line of a hunk that is read is whole. -/
def ReadsWhole (rest : List Line) : Prop := ∀ line ∈ rest, ∀ out ∈ hunk_line line, Whole out.2

theorem ReadsWhole.tail {line : Line} {rest : List Line} (h : ReadsWhole (line :: rest)) : ReadsWhole rest :=
  fun other hmem => h other (List.mem_cons_of_mem _ hmem)

theorem whole_tail {c : Char} {line : Line} (h : Whole (.char c :: line)) (hlast : line.getLast? = some newline) :
    Whole line := by
  obtain ⟨body, hbody, hread, heq⟩ := h
  cases body with
  | nil =>
    obtain rfl : line = [] := (List.cons.inj heq).2
    cases hlast
  | cons p body =>
    obtain ⟨rfl, rfl⟩ := List.cons.inj heq
    exact ⟨body, fun hmem => hbody (List.mem_cons_of_mem _ hmem), readable_cons hread, rfl⟩

theorem hunk_line_whole {line : Line} {out : Tag × Line} (hline : Whole line) (h : out ∈ hunk_line line) :
    Whole out.2 := by
  unfold hunk_line at h
  split at h
  · cases h
    next hblank => exact hblank ▸ hline
  · simp only at h
    split at h
    · next hlast =>
      obtain ⟨tag, htag, rfl⟩ := Option.map_eq_some_iff.1 h
      cases line with
      | nil => cases hlast
      | cons p tail =>
        cases p with
        | escape b => cases htag
        | char c => exact whole_tail hline hlast
    · cases h

theorem readsWhole_lines : ∀ {ls : List Line}, TextLines ls → ReadsWhole ls
  | [], _ => fun line hmem => absurd hmem List.not_mem_nil
  | [line], h => by
    intro other hmem out hout
    obtain rfl := List.mem_singleton.1 hmem
    rcases h with h | ⟨-, hline, -⟩
    · exact hunk_line_whole h hout
    · -- a line of a hunk ends in a newline
      unfold hunk_line at hout
      split at hout
      · next hblank => exact absurd (hblank ▸ List.mem_singleton_self _) hline
      · simp only at hout
        split at hout
        · next hlast => exact absurd (List.mem_of_mem_tail (List.mem_of_getLast? hlast)) hline
        · cases hout
  | line :: next :: rest, h => by
    intro other hmem out hout
    rcases List.mem_cons.1 hmem with rfl | hmem
    · exact hunk_line_whole h.1 hout
    · exact readsWhole_lines h.2 other hmem out hout

theorem hunk_body_whole {path : Line} {old_count new_count : Nat} : ∀ {rest : List Line} {index old new : Nat}
    {body : List (Tag × Line)} {old' new' index' : Nat} {left : List Line}, ReadsWhole rest →
    hunk_body path old_count new_count rest index old new = .ok (body, old', new', index', left) →
      (∀ line ∈ body, Whole line.2) ∧ ReadsWhole left
  | [], _, _, _, _, _, _, _, _, hrest, h => by
    obtain ⟨-, h⟩ := except_check_eq_ok.1 h
    cases h
    exact ⟨fun line hmem => absurd hmem List.not_mem_nil, hrest⟩
  | line :: rest, index, old, new, _, _, _, _, _, hrest, h => by
    unfold hunk_body at h
    split at h
    · split at h
      · cases h
      · next tag text hline =>
        obtain ⟨⟨body, old', new', index', left⟩, hbody, h⟩ := except_bind_eq_ok.1 h
        cases h
        obtain ⟨hwhole, hleft⟩ := hunk_body_whole hrest.tail hbody
        refine ⟨fun other hmem => ?_, hleft⟩
        rcases List.mem_cons.1 hmem with rfl | hmem
        · exact hrest line List.mem_cons_self _ hline
        · exact hwhole other hmem
    · cases h
      exact ⟨fun line hmem => absurd hmem List.not_mem_nil, hrest⟩

def Hunk.Whole (hunk : Hunk) : Prop := ∀ line ∈ hunk.lines, SourcePatch.Whole line.2

theorem parse_hunk_whole {path : Line} {counts : Nat × Nat} {rest left : List Line} {index index' : Nat} {hunk : Hunk}
    (hrest : ReadsWhole rest) (h : parse_hunk path counts rest index = .ok (hunk, index', left)) :
    hunk.Whole ∧ ReadsWhole left := by
  obtain ⟨⟨body, old, new, index'', left'⟩, hbody, h⟩ := except_bind_eq_ok.1 h
  have hwhole := hunk_body_whole hrest hbody
  obtain ⟨-, h⟩ := except_check_eq_ok.1 h
  obtain ⟨-, h⟩ := except_check_eq_ok.1 h
  split at h
  · cases h
    exact hwhole
  · cases h

theorem parse_hunks_whole {path : Line} : ∀ {n : Nat} {rest left : List Line} {index index' : Nat} {hunks : List Hunk},
    ReadsWhole rest → parse_hunks path n rest index = .ok (hunks, index', left) →
      (∀ hunk ∈ hunks, hunk.Whole) ∧ ReadsWhole left
  | 0, _, _, _, _, _, hrest, h => by
    cases h
    exact ⟨fun hunk hmem => absurd hmem List.not_mem_nil, hrest⟩
  | _ + 1, [], _, _, _, _, hrest, h => by
    cases h
    exact ⟨fun hunk hmem => absurd hmem List.not_mem_nil, hrest⟩
  | n + 1, line :: rest, _, _, _, _, hrest, h => by
    unfold parse_hunks at h
    split at h
    · cases h
      exact ⟨fun hunk hmem => absurd hmem List.not_mem_nil, hrest⟩
    · obtain ⟨⟨hunk, index, rest'⟩, hhunk, h⟩ := except_bind_eq_ok.1 h
      obtain ⟨⟨hunks, index', left⟩, hhunks, h⟩ := except_bind_eq_ok.1 h
      cases h
      obtain ⟨hwhole, hrest'⟩ := parse_hunk_whole hrest.tail hhunk
      obtain ⟨hwholes, hleft⟩ := parse_hunks_whole hrest' hhunks
      refine ⟨fun other hmem => ?_, hleft⟩
      rcases List.mem_cons.1 hmem with rfl | hmem
      · exact hwhole
      · exact hwholes other hmem

theorem parse_file_whole {line : Line} {rest left : List Line} {index index' : Nat} {item : FilePatch}
    (hrest : ReadsWhole rest) (h : parse_file line rest index = .ok (item, index', left)) :
    (∀ hunk ∈ item.hunks, hunk.Whole) ∧ ReadsWhole left := by
  cases rest with
  | nil => cases h
  | cons header rest =>
    obtain ⟨-, h⟩ := except_check_eq_ok.1 h
    obtain ⟨path, -, h⟩ := except_bind_eq_ok.1 h
    obtain ⟨path', -, h⟩ := except_bind_eq_ok.1 h
    obtain ⟨-, h⟩ := except_check_eq_ok.1 h
    obtain ⟨⟨hunks, index'', left'⟩, hhunks, h⟩ := except_bind_eq_ok.1 h
    obtain ⟨-, h⟩ := except_check_eq_ok.1 h
    cases h
    exact parse_hunks_whole hrest.tail hhunks

theorem parse_files_whole : ∀ {n : Nat} {rest : List Line} {index : Nat} {files : List FilePatch}, ReadsWhole rest →
    parse_files n rest index = .ok files → ∀ item ∈ files, ∀ hunk ∈ item.hunks, hunk.Whole
  | 0, _, _, _, _, h => by
    cases h
    exact fun item hmem => absurd hmem List.not_mem_nil
  | _ + 1, [], _, _, _, h => by
    cases h
    exact fun item hmem => absurd hmem List.not_mem_nil
  | n + 1, line :: rest, _, _, hrest, h => by
    unfold parse_files at h
    split at h
    · cases h
    · split at h
      · obtain ⟨⟨item, index, rest'⟩, hfile, h⟩ := except_bind_eq_ok.1 h
        obtain ⟨files, hfiles, h⟩ := except_bind_eq_ok.1 h
        cases h
        obtain ⟨hwhole, hrest'⟩ := parse_file_whole hrest.tail hfile
        intro other hmem
        rcases List.mem_cons.1 hmem with rfl | hmem
        · exact hwhole
        · exact parse_files_whole hrest' hfiles other hmem
      · split at h
        · cases h
        · exact parse_files_whole hrest.tail h

/-- The lines of a patch that is read from bytes are whole. -/
theorem parse_patch_whole {source : List UInt8} {patch : List FilePatch} (h : parse_patch (decode source) = .ok patch) :
    ∀ item ∈ patch, ∀ hunk ∈ item.hunks, hunk.Whole := by
  obtain ⟨files, hfiles, h⟩ := except_bind_eq_ok.1 h
  obtain ⟨-, h⟩ := except_check_eq_ok.1 h
  obtain ⟨-, h⟩ := except_check_eq_ok.1 h
  cases h
  exact parse_files_whole (readsWhole_lines (textLines_decode source)) hfiles

theorem textLines_behind {last : List Line} : ∀ {spots : List Spot}, TextLines (before spots last) →
    (∀ spot ∈ spots, spot.hunk.old ≠ [] ∧ spot.hunk.Whole) → TextLines (behind spots last)
  | [], h, _ => h
  | spot :: spots, h, hspots => by
    obtain ⟨hold, hwhole⟩ := hspots spot List.mem_cons_self
    rw [before] at h
    have hrest := textLines_behind (textLines_right h) fun other hmem => hspots other (List.mem_cons_of_mem _ hmem)
    rw [List.append_assoc] at h
    have hfree := (textLines_split (List.append_ne_nil_of_left_ne_nil hold _) h).1
    have hnew : ∀ line ∈ spot.hunk.new, Whole line := by
      intro line hmem
      obtain ⟨tagged, htagged, rfl⟩ := List.mem_map.1 hmem
      exact hwhole tagged (List.mem_of_mem_filter htagged)
    rw [behind]
    refine textLines_append hrest fun line hmem => ?_
    rcases List.mem_append.1 hmem with hmem | hmem
    · exact hfree line hmem
    · exact hnew line hmem

/-! ## Running it again -/

/-- A run changes nothing. -/
def Unchanged (root : SourceTree) (text : Line) : Prop :=
  apply_patch root text = (.ok .already_present, root) ∨ ∃ e, apply_patch root text = (.error e, root)

/-- Where a run has written the tree, another one changes nothing. -/
def NeverTwice (root : SourceTree) (text : Line) : Prop :=
  match apply_patch root text with
  | (.ok .applied, root') | (.ok .context_moved, root') => Unchanged root' text
  | _ => True

/-- In the tree the patch has no place, or its reverse has the better one. -/
def Settled (root : SourceTree) (text : Line) : Prop :=
  ∀ patch originals, parse_patch text = .ok patch → read_all root patch = .ok originals →
    (attempt originals).files = none ∨ (attempt_reversed originals).exact = true ∨
      ((attempt originals).exact = false ∧ (attempt_reversed originals).files.isSome = true)

/-- What a run has written is settled. -/
def LeavesSettled (root : SourceTree) (text : Line) : Prop :=
  match apply_patch root text with
  | (.ok .applied, root') | (.ok .context_moved, root') => Settled root' text
  | _ => True

/-- The old texts of the hunks stand one behind the other, and none of the new ones has a second place. -/
def Fresh (text : List Line) (hunks : List Hunk) : Prop :=
  ∃ spots last, spots.map (·.hunk) = hunks ∧ text = before spots last ∧ Alone [] spots last

/-- Each file is named once, and its hunks are fresh in it. -/
def Plain (root : SourceTree) (patch : List FilePatch) : Prop :=
  (patch.map fun item => fileOf item.path).Nodup ∧
    ∀ item ∈ patch, ∀ bytes ∈ root (fileOf item.path), Fresh (lines (decode bytes)) item.hunks

theorem wins_iff {a b : Attempt} : a.wins b = true ↔
    ¬(a.files = none ∨ b.exact = true ∨ (a.exact = false ∧ b.files.isSome = true)) := by
  cases a with | mk files exact error =>
  cases b with | mk files' exact' error' =>
  cases files <;> cases files' <;> cases exact <;> cases exact' <;> simp [Attempt.wins]

theorem unchanged_conclude {root : SourceTree} {forward backward : Attempt} :
    (conclude root forward backward = (.ok .already_present, root) ∨
      ∃ e, conclude root forward backward = (.error e, root)) ↔ forward.wins backward = false := by
  by_cases hwins : forward.wins backward = true
  · rw [conclude, if_pos hwins, hwins]
    cases forward.exact <;> simp
  · rw [Bool.not_eq_true] at hwins
    rw [conclude, hwins, if_neg Bool.false_ne_true]
    refine iff_of_true ?_ rfl
    by_cases hback : backward.wins forward = true
    · exact .inl (if_pos hback)
    · rw [if_neg hback]
      by_cases hfiles : forward.files.isSome = true
      · exact .inr ⟨_, if_pos hfiles⟩
      · exact .inr ⟨_, if_neg hfiles⟩

/-- What a run leaves alone. -/
theorem unchanged_iff (root : SourceTree) (text : Line) : Unchanged root text ↔ Settled root text := by
  unfold Unchanged Settled
  cases hparse : parse_patch text with
  | error e =>
    have happly : apply_patch root text = (.error e, root) := by rw [apply_patch, hparse]; rfl
    rw [happly]
    exact iff_of_true (.inr ⟨e, rfl⟩) fun patch originals h => by cases h
  | ok patch =>
    cases hread : read_all root patch with
    | error e =>
      have happly : apply_patch root text = (.error e, root) := by
        rw [apply_patch, hparse, except_ok_bind, hread]
      rw [happly]
      refine iff_of_true (.inr ⟨e, rfl⟩) fun patch' originals h hread' => ?_
      obtain rfl := Except.ok.inj h
      rw [hread] at hread'
      cases hread'
    | ok originals =>
      have happly : apply_patch root text = conclude root (attempt originals) (attempt_reversed originals) := by
        rw [apply_patch, hparse, except_ok_bind, hread]
      rw [happly, unchanged_conclude, ← Bool.not_eq_true, wins_iff, not_not]
      constructor
      · intro h patch' originals' hparse' hread'
        obtain rfl := Except.ok.inj hparse'
        obtain rfl := Except.ok.inj (hread.symm.trans hread')
        exact h
      · intro h
        exact h patch originals rfl hread

theorem attempt_exact {originals : List (FilePatch × List Line)} (h : (attempt originals).exact = true) :
    ∀ original ∈ originals, ∃ result, apply_file original.2 original.1 = .ok (result, true) := by
  unfold attempt at h
  split at h
  · next files hfiles =>
    intro original hmem
    obtain ⟨file, hfile, hone⟩ := (except_mapM_mem hfiles).1 original hmem
    obtain ⟨⟨result, exact⟩, happly, hy⟩ := except_bind_eq_ok.1 hone
    have hexact := List.all_eq_true.1 h file hfile
    cases hy
    obtain rfl : exact = true := hexact
    exact ⟨result, happly⟩
  · cases h
  · cases h

theorem attempt_of_exact {originals : List (FilePatch × List Line)}
    (h : ∀ original ∈ originals, ∃ result, apply_file original.2 original.1 = .ok (result, true)) :
    (attempt originals).exact = true := by
  unfold attempt
  split
  · next files hfiles =>
    refine List.all_eq_true.2 fun file hmem => ?_
    obtain ⟨original, horiginal, hone⟩ := (except_mapM_mem hfiles).2 file hmem
    obtain ⟨result, happly⟩ := h original horiginal
    rw [happly] at hone
    cases hone
    rfl
  all_goals
    next herr =>
    refine absurd herr (except_mapM_ne_error (fun original hmem => ?_) _)
    obtain ⟨result, happly⟩ := h original hmem
    exact ⟨((original.1.path, result), true), by rw [happly]; rfl⟩

/-- **The file that an exact run leaves takes the reverse exactly.** -/
theorem reversed_exact {root root' : SourceTree} {item : FilePatch} {result text : List Line}
    (hread : read root item.path = .ok text) (hexact : apply_file text item = .ok (result, true))
    (hfresh : Fresh text item.hunks) (hwhole : ∀ hunk ∈ item.hunks, hunk.Whole)
    (hwritten : root' (fileOf item.path) = some (bytesOf result))
    {text' : List Line} (hread' : read root' item.path = .ok text') :
    ∃ undone, apply_file text' item.reversed = .ok (undone, true) := by
  obtain ⟨spots, last, hspots, htext, halone⟩ := hfresh
  have hrun : apply_hunks item.path ([] ++ ([] ++ before spots last)) ([] : List Line).length true 1
      (spots.map (·.hunk)) = .ok (result, true) := by
    rw [hspots]
    exact htext ▸ hexact
  obtain ⟨hresult, hold⟩ := apply_hunks_behind hrun
  rw [List.nil_append, List.nil_append] at hresult
  have hmem : ∀ spot ∈ spots, spot.hunk ∈ item.hunks := fun spot hspot => hspots ▸ List.mem_map_of_mem hspot
  -- the written text is read as it was written
  have hlines : TextLines (behind spots last) := by
    refine textLines_behind ?_ fun spot hspot => ⟨hold spot hspot, hwhole _ (hmem spot hspot)⟩
    obtain ⟨bytes', -, hdecode⟩ := read_eq_ok hread
    rw [← htext, hdecode]
    exact textLines_decode bytes'
  obtain ⟨bytes', hbytes', rfl⟩ := read_eq_ok hread'
  obtain rfl : bytesOf result = bytes' := Option.some.inj (hwritten.symm.trans hbytes')
  rw [hresult, lines_bytesOf hlines]
  obtain ⟨undone, hundone⟩ : ∃ undone, apply_hunks item.path ([] ++ ([] ++ behind spots last)) ([] : List Line).length
      true 1 (spots.map (·.hunk.reversed)) = .ok (undone, true) := apply_hunks_alone halone
  refine ⟨undone, ?_⟩
  have hhunks : item.reversed.hunks = spots.map (·.hunk.reversed) := by
    rw [FilePatch.reversed, ← hspots, List.map_map]
    rfl
  rw [apply_file, hhunks]
  exact hundone

theorem conclude_applied {root root' : SourceTree} {forward backward : Attempt}
    (h : conclude root forward backward = (.ok .applied, root')) :
    (∃ files, forward.files = some files ∧ root' = write root files) ∧ forward.exact = true := by
  by_cases hwins : forward.wins backward = true
  · obtain ⟨files, hfiles⟩ : ∃ files, forward.files = some files := by
      simp only [Attempt.wins, Bool.and_eq_true] at hwins
      exact Option.isSome_iff_exists.1 hwins.1.1
    rw [conclude, if_pos hwins, hfiles, Option.getD_some] at h
    cases hexact : forward.exact with
    | false =>
      rw [hexact] at h
      cases h
    | true =>
      rw [hexact] at h
      cases h
      exact ⟨⟨files, hfiles, rfl⟩, rfl⟩
  · rw [Bool.not_eq_true] at hwins
    have hunchanged : conclude root forward backward = (.ok .already_present, root) ∨
        ∃ e, conclude root forward backward = (.error e, root) := unchanged_conclude.2 hwins
    rw [h] at hunchanged
    rcases hunchanged with h | ⟨e, h⟩ <;> cases h

theorem settled_of_plain {root root' : SourceTree} {source : List UInt8} {patch : List FilePatch}
    (hparse : parse_patch (decode source) = .ok patch) (hplain : Plain root patch)
    (happly : apply_patch root (decode source) = (.ok .applied, root')) : Settled root' (decode source) := by
  rw [apply_patch, hparse, except_ok_bind] at happly
  cases hread : read_all root patch with
  | error e =>
    rw [hread] at happly
    cases happly
  | ok originals =>
    rw [hread] at happly
    obtain ⟨⟨files, hfiles, rfl⟩, hexact⟩ := conclude_applied happly
    obtain ⟨hpatched, -⟩ := (framed_write_iff hread hfiles).2 (agree_of_nodup hplain.1)
    intro patch' originals' hparse' hread'
    obtain rfl := Except.ok.inj (hparse.symm.trans hparse')
    refine .inr (.inl (attempt_of_exact fun original' hmem' => ?_))
    obtain ⟨original, horiginal, rfl⟩ := List.mem_map.1 hmem'
    obtain ⟨item, hitem, hone⟩ := (except_mapM_mem hread').2 original horiginal
    obtain ⟨text', htext', hpair⟩ := except_bind_eq_ok.1 hone
    cases hpair
    -- what the first run did with this file
    obtain ⟨first, hfirst, hone⟩ := (except_mapM_mem hread).1 item hitem
    obtain ⟨text, htext, hpair⟩ := except_bind_eq_ok.1 hone
    cases hpair
    obtain ⟨result, hresult⟩ := attempt_exact hexact _ hfirst
    obtain ⟨bytes, hbytes, rfl⟩ := read_eq_ok htext
    obtain ⟨bytes', result', hbytes', -, hwoven, hwritten⟩ := hpatched item hitem
    obtain rfl : bytes = bytes' := Option.some.inj (hbytes.symm.trans hbytes')
    obtain rfl := hwoven.unique (apply_file_woven hresult)
    exact reversed_exact htext hresult (hplain.2 item hitem bytes hbytes) (parse_patch_whole hparse item hitem)
      hwritten htext'

/-- Replaces the first line of the sample. -/
def plainPatch : Line := ofString "--- a/x\n+++ b/x\n@@ -1 +1 @@\n-a\n+A\n"

def plainHunk : Hunk := ⟨[(.removed, ofString "a\n"), (.added, ofString "A\n")], by decide⟩

theorem plain_sample : Plain sampleTree [⟨ofString "x", [plainHunk]⟩] := by
  refine ⟨List.nodup_singleton _, fun item hmem bytes hbytes => ?_⟩
  obtain rfl := List.mem_singleton.1 hmem
  have hread : sampleTree (fileOf (ofString "x")) = some [97, 10, 98, 10] := by decide +kernel
  obtain rfl : [97, 10, 98, 10] = bytes := Option.some.inj (hread.symm.trans hbytes)
  refine ⟨[⟨[], plainHunk⟩], [ofString "b\n"], rfl, by decide +kernel, by decide, fun q hq => ?_, trivial⟩
  have hmem := (List.mem_find (by decide)).2 ⟨Nat.zero_le q, hq⟩
  have hfind : ([] ++ behind [⟨[], plainHunk⟩] [ofString "b\n"]).find plainHunk.new 0 = [0] := by decide +kernel
  rw [hfind] at hmem
  exact List.mem_singleton.1 hmem

/-- `x` holds `x`, `x`, `a` and `a`. -/
def repeatTree : SourceTree := fun file =>
  if file = [[120]] then some [120, 10, 120, 10, 97, 10, 97, 10] else none

/-- Removes the `x` before an `a`. -/
def repeatPatch : Line := ofString "--- a/x\n+++ b/x\n@@ -2,2 +2,1 @@\n-x\n a\n"

end SourcePatch
