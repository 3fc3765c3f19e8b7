import ScriptDeps.Block.Metadata
import ScriptDeps.Proofs.Text.Lines

/-!
# Where a block stands

A script with a block put into it is cut again at just this block: no line in front of it opens a
block, and no line inside it closes one early. What stands around the block depends on the script
alone, so that a second block takes exactly the place of the first. Main statements: where a block
lands (`split_reconcile`), and that of blocks put in one after another only the last is left
(`reconcile_foldl_reconcile`).
-/

namespace ScriptDeps.Block

open ScriptDeps.Text

/-! ## Marker lines -/

/-- The body of a comment begins with the first visible character behind the hash sign. -/
theorem commentBody?_hash {s : List Char} {c : Char} (hs : ∀ b ∈ s, isBlank b = true)
    (hc : isBlank c = false) (t : List Char) :
    ∃ rest, commentBody? ('#' :: (s ++ c :: t)) = some (c :: rest) := by
  have hhash : isBlank '#' = false := by decide
  have htrim : trim ('#' :: (s ++ c :: t)) = '#' :: (s ++ c :: trimEnd t) := by
    rw [trim, trimStart_cons hhash, ← List.cons_append, trimEnd_append_cons hc, List.cons_append]
  have hbody : trim (s ++ c :: trimEnd t) = c :: trimEnd (trimEnd t) := by
    rw [trim, trimStart_append hs, trimStart_cons hc]
    exact trimEnd_append_cons hc [] _
  refine ⟨trimEnd (trimEnd t), ?_⟩
  rw [commentBody?, htrim]
  simp [dropLead?, hbody]

/-- The body of a comment that begins with anything but a slash is no text that begins with one. -/
theorem commentBody?_hash_ne {s body : List Char} {c : Char} (hs : ∀ b ∈ s, isBlank b = true)
    (hc : isBlank c = false) (hne : c ≠ '/') (hbody : body.head? = some '/') (t : List Char) :
    commentBody? ('#' :: (s ++ c :: t)) ≠ some body := by
  obtain ⟨rest, h⟩ := commentBody?_hash hs hc t
  intro heq
  rw [h, Option.some.injEq] at heq
  rw [← heq, List.head?_cons, Option.some.injEq] at hbody
  exact hne hbody

/-- A comment that begins with anything but a slash opens no block. -/
theorem isOpen_hash {s : List Char} {c : Char} (hs : ∀ b ∈ s, isBlank b = true)
    (hc : isBlank c = false) (hne : c ≠ '/') (t : List Char) :
    isOpen ('#' :: (s ++ c :: t)) = false := by
  have hslash : openBody.head? = some '/' := by decide
  rw [isOpen, beq_eq_false_iff_ne]
  exact commentBody?_hash_ne hs hc hne hslash t

/-- A comment that begins with anything but a slash closes no block. -/
theorem isClose_hash {s : List Char} {c : Char} (hs : ∀ b ∈ s, isBlank b = true)
    (hc : isBlank c = false) (hne : c ≠ '/') (t : List Char) :
    isClose ('#' :: (s ++ c :: t)) = false := by
  have hslash : closeBody.head? = some '/' := by decide
  rw [isClose, beq_eq_false_iff_ne]
  exact commentBody?_hash_ne hs hc hne hslash t

/-- The newline of a line does not matter to what it closes. -/
theorem isClose_append_newline (line : List Char) : isClose (line ++ ['\n']) = isClose line := by
  rw [isClose, commentBody?, trim_append_blank (by decide)]
  rfl

private theorem ne_nil_of_isOpen {line : List Char} (h : isOpen line = true) : line ≠ [] := by
  rintro rfl
  exact absurd h (by decide)

/-! ## Cutting -/

/-- A list is cut at the first element that is accepted. -/
theorem cutAt_eq_some_iff {α : Type} {p : α → Bool} {l before after : List α} {a : α} :
    cutAt p l = some (before, a, after) ↔
      l = before ++ a :: after ∧ (∀ b ∈ before, p b = false) ∧ p a = true := by
  constructor
  · intro h
    refine ⟨(append_of_cutAt h).symm, ?_⟩
    induction l generalizing before with
    | nil => simp [cutAt] at h
    | cons c l ih =>
      unfold cutAt at h
      split at h
      · next hc =>
        obtain ⟨rfl, rfl, rfl⟩ := by simpa using h
        exact ⟨by simp, hc⟩
      · next hc =>
        obtain ⟨⟨x, y, z⟩, hx, hy⟩ := Option.map_eq_some_iff.1 h
        simp only [Prod.mk.injEq] at hy
        obtain ⟨rfl, rfl, rfl⟩ := hy
        obtain ⟨hall, ha⟩ := ih hx
        exact ⟨by simpa [hc] using hall, ha⟩
  · rintro ⟨rfl, hall, ha⟩
    induction before with
    | nil => simp [cutAt, ha]
    | cons b before ih =>
      have hb : p b = false := hall b List.mem_cons_self
      have hrest := ih fun x hx => hall x (List.mem_cons_of_mem _ hx)
      simp [cutAt, hb, hrest]

/-- Lines are cut around the first block among them. -/
theorem cutLines_append {before body after : List (List Char)} {opening closing : List Char}
    (hbefore : ∀ l ∈ before, isOpen l = false) (hopening : isOpen opening = true)
    (hbody : ∀ l ∈ body, isClose l = false) (hclosing : isClose closing = true) :
    cutLines (before ++ opening :: (body ++ closing :: after)) =
      some (before, opening :: body ++ [closing], after) := by
  have h₁ : cutAt isOpen (before ++ opening :: (body ++ closing :: after)) =
      some (before, opening, body ++ closing :: after) :=
    cutAt_eq_some_iff.2 ⟨rfl, hbefore, hopening⟩
  have h₂ : cutAt isClose (body ++ closing :: after) = some (body, closing, after) :=
    cutAt_eq_some_iff.2 ⟨rfl, hbody, hclosing⟩
  simp [cutLines, h₁, h₂]

/-- Where lines are cut a block begins, and no line before opens one. -/
theorem of_cutLines_eq_some {all before block after : List (List Char)}
    (h : cutLines all = some (before, block, after)) :
    all = before ++ block ++ after ∧ (∀ l ∈ before, isOpen l = false) ∧
      ∃ opening rest, block = opening :: rest ∧ isOpen opening = true := by
  cases h₁ : cutAt isOpen all with
  | none => simp [cutLines, h₁] at h
  | some t =>
    obtain ⟨b, opening, rest⟩ := t
    cases h₂ : cutAt isClose rest with
    | none => simp [cutLines, h₁, h₂] at h
    | some u =>
      obtain ⟨body, closing, a⟩ := u
      have hparts : b = before ∧ opening :: body ++ [closing] = block ∧ a = after := by
        simpa [cutLines, h₁, h₂] using h
      obtain ⟨rfl, rfl, rfl⟩ := hparts
      obtain ⟨rfl, hbefore, hopening⟩ := cutAt_eq_some_iff.1 h₁
      obtain ⟨rfl, _, _⟩ := cutAt_eq_some_iff.1 h₂
      exact ⟨by simp, hbefore, opening, body ++ [closing], rfl, hopening⟩

/-! ## Texts that are one block -/

/-- A text that is one block: it has at least two lines, the first of them opens a block, and the
last, which has no newline, is the only one that closes it. -/
def IsBlock (m : List Char) : Prop :=
  ∃ opening body closing, lines m = opening :: (body ++ [closing]) ∧ isOpen opening = true ∧
    (∀ line ∈ body, isClose line = false) ∧ isClose closing = true ∧ '\n' ∉ closing

/-- The lines of a generated block between its markers. -/
def bodyLines (d : DependencyList) (version : String) : List (List Char) :=
  versionLine version.toList :: dependencyLines d

/-- The lines between the markers of a generated block. -/
theorem mem_bodyLines {d : DependencyList} {version : String} {line : List Char}
    (h : line ∈ bodyLines d version) :
    line = versionLine version.toList ∨ line = "# dependencies = [".toList ∨
      (∃ name ∈ d.names, line = dependencyLine name.toList) ∨ line = "# ]".toList := by
  rcases List.mem_cons.1 h with rfl | h
  · exact Or.inl rfl
  · unfold dependencyLines at h
    split at h
    · simp at h
    · simp only [List.cons_append, List.mem_cons, List.mem_append, List.mem_map,
        List.not_mem_nil, or_false] at h
      rcases h with rfl | ⟨name, hname, rfl⟩ | rfl
      · exact Or.inr (Or.inl rfl)
      · exact Or.inr (Or.inr (Or.inl ⟨name, hname, rfl⟩))
      · exact Or.inr (Or.inr (Or.inr rfl))

/-- No line between the markers of a generated block closes it. -/
theorem isClose_of_mem_bodyLines {d : DependencyList} {version : String} {line : List Char}
    (h : line ∈ bodyLines d version) : isClose line = false := by
  rcases mem_bodyLines h with rfl | rfl | ⟨name, _, rfl⟩ | rfl
  · exact isClose_hash (s := [' ']) (c := 'r') (List.all_eq_true.1 (by decide)) (by decide)
      (by decide) _
  · decide
  · exact isClose_hash (s := [' ', ' ', ' ', ' ', ' ']) (c := '"')
      (List.all_eq_true.1 (by decide)) (by decide) (by decide) _
  · decide

/-- A control character stands between the markers of a generated block only if it stands in the
version or in a name. -/
theorem not_mem_of_mem_bodyLines {d : DependencyList} {version : String} {c : Char}
    (hc : isControl c = true) (hversion : c ∉ version.toList)
    (hd : ∀ name ∈ d.names, c ∉ name.toList) {line : List Char}
    (h : line ∈ bodyLines d version) : c ∉ line := by
  rcases mem_bodyLines h with rfl | rfl | ⟨name, hname, rfl⟩ | rfl
  · unfold versionLine
    rw [List.mem_append, List.mem_append]
    rintro ((hlead | hmem) | hquote)
    · exact not_mem_of_isControl (eq_false_of_any (by decide)) hc hlead
    · exact hversion hmem
    · exact not_mem_of_isControl (eq_false_of_any (by decide)) hc hquote
  · exact not_mem_of_isControl (eq_false_of_any (by decide)) hc
  · unfold dependencyLine
    rw [List.mem_append, List.mem_append]
    rintro ((hlead | hmem) | hquote)
    · exact not_mem_of_isControl (eq_false_of_any (by decide)) hc hlead
    · exact hd name hname hmem
    · exact not_mem_of_isControl (eq_false_of_any (by decide)) hc hquote
  · exact not_mem_of_isControl (eq_false_of_any (by decide)) hc

/-- A line of a generated block is a comment. -/
theorem exists_hash_of_mem {d : DependencyList} {version : String} {line : List Char}
    (h : line ∈ openMarker :: bodyLines d version ++ [closeMarker]) :
    ∃ body, line = '#' :: body := by
  rcases List.mem_append.1 h with h | h
  · rcases List.mem_cons.1 h with rfl | h
    · exact ⟨_, rfl⟩
    · rcases mem_bodyLines h with rfl | rfl | ⟨name, _, rfl⟩ | rfl <;> exact ⟨_, rfl⟩
  · obtain rfl := List.mem_singleton.1 h
    exact ⟨_, rfl⟩

/-- A control character stands in a line of a generated block only if it stands in the version or in
a name. -/
theorem not_mem_of_mem_generated {d : DependencyList} {version : String} {c : Char}
    (hc : isControl c = true) (hversion : c ∉ version.toList)
    (hd : ∀ name ∈ d.names, c ∉ name.toList) {line : List Char}
    (h : line ∈ openMarker :: bodyLines d version ++ [closeMarker]) : c ∉ line := by
  rcases List.mem_append.1 h with h | h
  · rcases List.mem_cons.1 h with rfl | h
    · exact not_mem_of_isControl (eq_false_of_any (by decide)) hc
    · exact not_mem_of_mem_bodyLines hc hversion hd h
  · obtain rfl := List.mem_singleton.1 h
    exact not_mem_of_isControl (eq_false_of_any (by decide)) hc

/-- A generated block and a newline behind it are its lines, each with a newline. -/
theorem generate_append_newline (d : DependencyList) (version : String) :
    generate d version ++ ['\n'] =
      ((openMarker :: bodyLines d version ++ [closeMarker]).map (· ++ ['\n'])).flatten := by
  have hjoin : generate d version =
      joinWith ['\n'] ((openMarker :: bodyLines d version) ++ [closeMarker]) := rfl
  rw [hjoin, joinWith_newline]
  simp

/-- The lines of a generated block. -/
theorem lines_generate {d : DependencyList} {version : String}
    (hversion : '\n' ∉ version.toList) (hd : ∀ name ∈ d.names, '\n' ∉ name.toList) :
    lines (generate d version) =
      (openMarker :: bodyLines d version).map (· ++ ['\n']) ++ [closeMarker] := by
  have hjoin : generate d version =
      joinWith ['\n'] ((openMarker :: bodyLines d version) ++ [closeMarker]) := rfl
  rw [hjoin, lines_joinWith ?_ (by decide) (by decide)]
  intro line hline
  rcases List.mem_cons.1 hline with rfl | hline
  · decide
  · exact not_mem_of_mem_bodyLines (by decide) hversion hd hline

/-- A generated block is one block. -/
theorem isBlock_generate {d : DependencyList} {version : String}
    (hversion : '\n' ∉ version.toList) (hd : ∀ name ∈ d.names, '\n' ∉ name.toList) :
    IsBlock (generate d version) := by
  refine ⟨openMarker ++ ['\n'], (bodyLines d version).map (· ++ ['\n']), closeMarker, ?_, ?_, ?_,
    by decide, by decide⟩
  · rw [lines_generate hversion hd, List.map_cons, List.cons_append]
  · decide
  · intro line hline
    obtain ⟨bare, hbare, rfl⟩ := List.mem_map.1 hline
    rw [isClose_append_newline]
    exact isClose_of_mem_bodyLines hbare

/-! ## What stands around a block -/

/-- A script with a block is cut around it. -/
theorem split_of_cutLines {content : List Char} {before block after : List (List Char)}
    (h : cutLines (lines content) = some (before, block, after)) :
    split content = ⟨before.flatten, block.flatten, after.flatten⟩ := by
  rw [split, h]

/-- A script has a block exactly when its lines are cut. -/
theorem hasBlock_iff {content : List Char} :
    (split content).hasBlock = true ↔
      ∃ before block after, cutLines (lines content) = some (before, block, after) := by
  constructor
  · intro h
    cases hcut : cutLines (lines content) with
    | none => simp [split, hcut, Split.hasBlock] at h
    | some t => exact ⟨t.1, t.2.1, t.2.2, rfl⟩
  · rintro ⟨before, block, after, hcut⟩
    obtain ⟨_, _, opening, rest, rfl, hopening⟩ := of_cutLines_eq_some hcut
    rw [split_of_cutLines hcut]
    simp [Split.hasBlock, ne_nil_of_isOpen hopening]

/-- The bytes of a block are found exactly in a script with a block. -/
theorem find?_eq_none_iff {content : List Char} :
    find? content = none ↔ (split content).hasBlock = false := by
  rw [find?, Option.map_eq_none_iff, ← Bool.not_eq_true, hasBlock_iff]
  cases cutLines (lines content) with
  | none => simp
  | some t => simpa using ⟨t.1, t.2.1, t.2.2, rfl⟩

/-- What stands before a block that is put into a script, and what stands behind it: what stood
around its own block, else its first line and the others if the first starts with `#!`, else nothing
and the whole script. -/
def surroundings (content : List Char) : List Char × List Char :=
  if (split content).hasBlock then ((split content).before, (split content).after)
  else if ['#', '!'] <+: content then (firstLine content ++ ['\n'], otherLines content)
  else ([], content)

private theorem isSome_dropLead?_iff {lead s : List Char} :
    (dropLead? lead s).isSome = true ↔ lead <+: s := by
  rw [Option.isSome_iff_exists]
  constructor
  · rintro ⟨rest, h⟩
    exact ⟨rest, (dropLead?_eq_some.1 h).symm⟩
  · rintro ⟨rest, rfl⟩
    exact ⟨rest, dropLead?_eq_some.2 rfl⟩

/-- Whether a text starts with `#!` is seen on its first line. -/
private theorem hashBang_prefix_iff (first rest : List Char) :
    ['#', '!'] <+: first ++ ['\n'] ↔ ['#', '!'] <+: first ++ '\n' :: rest := by
  match first with
  | [] => simp [List.cons_prefix_cons]
  | [a] => simp [List.cons_prefix_cons]
  | a :: b :: first => simp [List.cons_prefix_cons]

/-- A block is put between the surroundings, with a newline. -/
theorem reconcile_eq (content block : List Char) :
    reconcile content block =
      (surroundings content).1 ++ block ++ ['\n'] ++ (surroundings content).2 := by
  unfold reconcile surroundings
  by_cases hblock : (split content).hasBlock = true
  · simp [hblock]
  · simp only [hblock, Bool.false_eq_true, if_false]
    rcases lines_cases content with rfl | ⟨hnew, hlines⟩ | ⟨first, rest, hfirst, rfl, hlines⟩
    · simp [lines]
    · have hlast : content.getLast? ≠ some '\n' := fun h => hnew (List.mem_of_getLast? h)
      rw [hlines]
      simp only [isSome_dropLead?_iff, firstLine_of_not_mem hnew, otherLines_of_not_mem hnew,
        if_neg hlast]
      split <;> simp
    · rw [hlines]
      simp only [isSome_dropLead?_iff, firstLine_append_newline hfirst,
        otherLines_append_newline hfirst, hashBang_prefix_iff first rest, flatten_lines]
      split <;> simp

private theorem isOpen_hashBang {line : List Char} (h : ['#', '!'] <+: line) :
    isOpen line = false := by
  obtain ⟨t, rfl⟩ := h
  exact isOpen_hash (s := []) (c := '!') (by simp) (by decide) (by decide) t

/-- What stands before a block are complete lines of which none opens a block. -/
theorem surroundings_fst (content : List Char) :
    ∃ before : List (List Char), (surroundings content).1 = before.flatten ∧
      ∀ l ∈ before, Complete l ∧ isOpen l = false := by
  unfold surroundings
  by_cases hblock : (split content).hasBlock = true
  · obtain ⟨before, block, after, hcut⟩ := hasBlock_iff.1 hblock
    obtain ⟨hall, hbefore, opening, rest, rfl, _⟩ := of_cutLines_eq_some hcut
    rw [List.append_assoc] at hall
    exact ⟨before, by rw [if_pos hblock, split_of_cutLines hcut],
      fun l hl => ⟨complete_of_lines_eq hall l hl, hbefore l hl⟩⟩
  · by_cases hbang : ['#', '!'] <+: content
    · refine ⟨[firstLine content ++ ['\n']], by simp [hblock, hbang], ?_⟩
      intro l hl
      obtain rfl := List.mem_singleton.1 hl
      have hnew := newline_not_mem_firstLine content
      have hfirst : ['#', '!'] <+: firstLine content := by
        obtain ⟨t, rfl⟩ := hbang
        simp [firstLine, List.cons_prefix_cons]
      exact ⟨⟨_, hnew, rfl⟩, isOpen_hashBang (hfirst.trans (List.prefix_append _ _))⟩
    · exact ⟨[], by simp [hblock, hbang], by simp⟩

/-- A block in a script is found again where no line in front of it opens a block. -/
theorem split_of_isBlock {before : List (List Char)} {block : List Char}
    (hbefore : ∀ l ∈ before, Complete l ∧ isOpen l = false) (hblock : IsBlock block)
    (after : List Char) :
    split (before.flatten ++ block ++ ['\n'] ++ after) =
      ⟨before.flatten, block ++ ['\n'], after⟩ := by
  obtain ⟨opening, body, closing, hlines, hopening, hbody, hclosing, hnew⟩ := hblock
  have hflat : block = (opening :: body).flatten ++ closing := by
    rw [← flatten_lines block, hlines]
    simp
  have hends : lines block = (opening :: body) ++ closing :: [] := hlines
  have hcomplete : ∀ l ∈ opening :: body, Complete l := complete_of_lines_eq hends
  have hall : lines (before.flatten ++ block ++ ['\n'] ++ after) =
      before ++ opening :: (body ++ (closing ++ ['\n']) :: lines after) := by
    have hrest : lines ((opening :: body).flatten ++ (closing ++ '\n' :: after)) =
        (opening :: body) ++ (closing ++ ['\n']) :: lines after := by
      rw [lines_flatten_append hcomplete, lines_append_newline hnew]
    rw [List.append_assoc, List.append_assoc, lines_flatten_append fun l hl => (hbefore l hl).1,
      hflat, List.append_assoc]
    simpa using hrest
  have hcut : cutLines (lines (before.flatten ++ block ++ ['\n'] ++ after)) =
      some (before, opening :: body ++ [closing ++ ['\n']], lines after) := by
    rw [hall]
    exact cutLines_append (fun l hl => (hbefore l hl).2) hopening hbody
      ((isClose_append_newline closing).trans hclosing)
  rw [split_of_cutLines hcut, flatten_lines, hflat]
  simp

/-- A block that is put into a script is what is found there, between the surroundings. -/
theorem split_reconcile_eq {block : List Char} (h : IsBlock block) (content : List Char) :
    split (reconcile content block) =
      ⟨(surroundings content).1, block ++ ['\n'], (surroundings content).2⟩ := by
  obtain ⟨before, hfst, hbefore⟩ := surroundings_fst content
  rw [reconcile_eq, hfst]
  exact split_of_isBlock hbefore h _

/-- A block that is put into a script does not change what stands around it. -/
theorem surroundings_reconcile {block : List Char} (h : IsBlock block) (content : List Char) :
    surroundings (reconcile content block) = surroundings content := by
  have hsplit := split_reconcile_eq h content
  have hhas : (split (reconcile content block)).hasBlock = true := by
    rw [hsplit]
    simp [Split.hasBlock]
  rw [surroundings, if_pos hhas, hsplit]

/-- Blocks that are put into a script one after another do not change what stands around them. -/
theorem surroundings_foldl_reconcile {blocks : List (List Char)}
    (h : ∀ block ∈ blocks, IsBlock block) (content : List Char) :
    surroundings (blocks.foldl reconcile content) = surroundings content := by
  induction blocks generalizing content with
  | nil => rfl
  | cons block blocks ih =>
    have hrest := ih (fun b hb => h b (List.mem_cons_of_mem _ hb)) (reconcile content block)
    rw [List.foldl_cons, hrest, surroundings_reconcile (h block List.mem_cons_self)]

private theorem firstLine_append_of_mem {s t : List Char} (h : '\n' ∈ s) :
    firstLine (s ++ t) = firstLine s := by
  obtain ⟨first, rest, rfl, hfirst⟩ := List.eq_append_cons_of_mem h
  rw [List.append_assoc, List.cons_append, firstLine_append_newline hfirst,
    firstLine_append_newline hfirst]

private theorem isOpen_head_of_hashBang {content line : List Char} {others : List (List Char)}
    (h : ['#', '!'] <+: content) (hlines : lines content = line :: others) :
    isOpen line = false := by
  rcases lines_cases content with rfl | ⟨_, hl⟩ | ⟨first, rest, _, rfl, hl⟩
  · simp [lines] at hlines
  · obtain ⟨rfl, _⟩ := by simpa [hl] using hlines
    exact isOpen_hashBang h
  · obtain ⟨rfl, _⟩ := by simpa [hl] using hlines
    exact isOpen_hashBang ((hashBang_prefix_iff first rest).2 h)

/-- A first line that starts with `#!` stands in front of the block. -/
theorem newline_mem_before {content : List Char} (hbang : ['#', '!'] <+: content)
    (hhas : (split content).hasBlock = true) : '\n' ∈ (split content).before := by
  obtain ⟨before, block, after, hcut⟩ := hasBlock_iff.1 hhas
  obtain ⟨hall, _, opening, rest, rfl, hopening⟩ := of_cutLines_eq_some hcut
  rw [split_of_cutLines hcut]
  cases before with
  | nil =>
    have hfalse := isOpen_head_of_hashBang hbang hall
    simp [hopening] at hfalse
  | cons line before =>
    rw [List.append_assoc] at hall
    obtain ⟨s, _, rfl⟩ := complete_of_lines_eq hall line List.mem_cons_self
    simp

/-- A first line that starts with `#!` stays the first line. -/
theorem firstLine_reconcile {content : List Char} (hbang : ['#', '!'] <+: content)
    (block : List Char) : firstLine (reconcile content block) = firstLine content := by
  rw [reconcile_eq, surroundings]
  by_cases hhas : (split content).hasBlock = true
  · have hnew := newline_mem_before hbang hhas
    have hcontent : firstLine content = firstLine (split content).before := by
      rw [← firstLine_append_of_mem hnew, ← List.append_assoc, split_append]
    rw [if_pos hhas, hcontent]
    simp only [List.append_assoc]
    exact firstLine_append_of_mem hnew
  · have hnew := newline_not_mem_firstLine content
    rw [if_neg hhas, if_pos hbang]
    simp only [List.append_assoc, List.singleton_append]
    exact firstLine_append_newline hnew _

/-! ## Main statements -/

/-- Generated blocks are blocks, and a block that is put into a script is what is found there, with
one newline behind it. It stands where the block of the script stood, else behind a first line that
starts with `#!`, else at the top, and such a first line stays the first line. -/
theorem split_reconcile :
    (∀ (d : DependencyList) (version : String), '\n' ∉ version.toList →
      (∀ name ∈ d.names, '\n' ∉ name.toList) → IsBlock (generate d version)) ∧
    ∀ content block : List Char, IsBlock block →
      ((split content).hasBlock = true →
        split (reconcile content block) =
          ⟨(split content).before, block ++ ['\n'], (split content).after⟩) ∧
      ((split content).hasBlock = false → ['#', '!'] <+: content →
        split (reconcile content block) =
          ⟨firstLine content ++ ['\n'], block ++ ['\n'], otherLines content⟩) ∧
      ((split content).hasBlock = false → ¬['#', '!'] <+: content →
        split (reconcile content block) = ⟨[], block ++ ['\n'], content⟩) ∧
      (['#', '!'] <+: content → firstLine (reconcile content block) = firstLine content) := by
  refine ⟨fun d version => isBlock_generate, fun content block hblock => ⟨?_, ?_, ?_, ?_⟩⟩
  · intro hhas
    rw [split_reconcile_eq hblock, surroundings, if_pos hhas]
  · intro hhas hbang
    rw [split_reconcile_eq hblock, surroundings, hhas, if_neg Bool.false_ne_true, if_pos hbang]
  · intro hhas hbang
    rw [split_reconcile_eq hblock, surroundings, hhas, if_neg Bool.false_ne_true, if_neg hbang]
  · intro hbang
    exact firstLine_reconcile hbang block

/-- Behind a first line that starts with `#!` stand markers that make up no block. -/
theorem split_reconcile_behind_hashBang :
    let content := "#!/bin/sh\n# ///\n# /// script\n".toList
    let block := generate ⟨["rich"]⟩ ">=3.9"
    IsBlock block ∧
      split (reconcile content block) =
        ⟨"#!/bin/sh\n".toList, block ++ ['\n'], "# ///\n# /// script\n".toList⟩ := by
  have hblock : IsBlock (generate ⟨["rich"]⟩ ">=3.9") :=
    split_reconcile.1 _ _ (by decide) (by decide)
  exact ⟨hblock, (split_reconcile.2 _ _ hblock).2.1 (by decide) (by decide)⟩

/-- Of blocks that are put into a script one after another only the last is left, whatever the last
text is. -/
theorem reconcile_foldl_reconcile (content : List Char) {blocks : List (List Char)}
    (h : ∀ block ∈ blocks, IsBlock block) (last : List Char) :
    reconcile (blocks.foldl reconcile content) last = reconcile content last := by
  rw [reconcile_eq, surroundings_foldl_reconcile h, ← reconcile_eq]

/-- Two blocks and then a text that is none, in a script that is one line without an end. -/
theorem reconcile_foldl_reconcile_two :
    let blocks := [generate ⟨["rich"]⟩ ">=3.9", generate ⟨[]⟩ ">=3.13"]
    (∀ block ∈ blocks, IsBlock block) ∧
      reconcile (blocks.foldl reconcile "#!/bin/sh".toList) "# ///".toList =
        reconcile "#!/bin/sh".toList "# ///".toList := by
  have hblocks : ∀ block ∈ [generate ⟨["rich"]⟩ ">=3.9", generate ⟨[]⟩ ">=3.13"],
      IsBlock block := by
    intro block hblock
    rcases List.mem_cons.1 hblock with rfl | hblock
    · exact isBlock_generate (by decide) (by decide)
    · obtain rfl := List.mem_singleton.1 hblock
      exact isBlock_generate (by decide) (by decide)
  exact ⟨hblocks, reconcile_foldl_reconcile _ hblocks _⟩

end ScriptDeps.Block
