import ScriptDeps.Proofs.Block.Placement

/-!
# Lines of code around a block

A line of code is neither blank nor a comment. A script into which a block is put keeps the lines of
code that stand outside its own block, in their order. Whatever stands between the markers of its
own block goes with them, lines of code too. Main statement: `codeLines_reconcile`.
-/

namespace ScriptDeps.Block

open ScriptDeps.Text

/-- A line that is neither blank nor a comment. -/
def isCode (line : List Char) : Bool :=
  match trim line with
  | [] => false
  | c :: _ => c != '#'

/-- The lines of code of a text in their order, with their newlines. -/
def codeLines (s : List Char) : List (List Char) := (lines s).filter isCode

/-- The lines of code that a script has outside its block. -/
def outerCode (content : List Char) : List (List Char) :=
  codeLines (split content).before ++ codeLines (split content).after

/-- A comment is no line of code. -/
theorem isCode_hash (s : List Char) : isCode ('#' :: s) = false := by
  have hhash : isBlank '#' = false := by decide
  have htrim : trim ('#' :: s) = '#' :: trimEnd s := by
    rw [trim, trimStart_cons hhash]
    exact trimEnd_append_cons hhash [] s
  rw [isCode, htrim]
  rfl

/-- Behind a newline the lines of code go on with those of what follows. -/
theorem codeLines_append_cons (s t : List Char) :
    codeLines (s ++ '\n' :: t) = codeLines (s ++ ['\n']) ++ codeLines t := by
  rw [codeLines, lines_append_cons, List.filter_append]
  rfl

/-- Behind complete lines the lines of code go on with those of what follows. -/
theorem codeLines_flatten_append {before : List (List Char)} (h : ∀ l ∈ before, Complete l)
    (t : List Char) :
    codeLines (before.flatten ++ t) = codeLines before.flatten ++ codeLines t := by
  rw [codeLines, lines_flatten_append h, List.filter_append, codeLines, lines_flatten h]
  rfl

/-! ## The three parts -/

/-- A first line that is a comment is no line of code. -/
private theorem codeLines_firstLine {content : List Char} (h : ['#', '!'] <+: content) :
    codeLines (firstLine content ++ ['\n']) = [] ∧
      codeLines content = codeLines (otherLines content) := by
  obtain ⟨rest, hrest⟩ : ∃ rest, firstLine content = '#' :: rest := by
    obtain ⟨t, rfl⟩ := h
    exact ⟨_, List.takeWhile_cons_of_pos (by decide)⟩
  have hnew := newline_not_mem_firstLine content
  have hfirst : codeLines (firstLine content ++ ['\n']) = [] := by
    rw [codeLines, lines_append_newline hnew, hrest]
    exact List.filter_cons_of_neg (by simp [isCode_hash])
  refine ⟨hfirst, ?_⟩
  by_cases hmem : '\n' ∈ content
  · obtain ⟨first, others, rfl, hnot⟩ := List.eq_append_cons_of_mem hmem
    rw [firstLine_append_newline hnot] at hfirst
    rw [otherLines_append_newline hnot, codeLines_append_cons, hfirst, List.nil_append]
  · rw [firstLine_of_not_mem hmem] at hrest
    rw [otherLines_of_not_mem hmem, codeLines, hrest, lines_of_not_mem (hrest ▸ hmem) (by simp)]
    exact List.filter_cons_of_neg (by simp [isCode_hash])

/-- The lines of code around a block that is put into a script are those outside its own block. -/
private theorem codeLines_surroundings (content : List Char) :
    codeLines (surroundings content).1 ++ codeLines (surroundings content).2 =
      outerCode content := by
  unfold surroundings outerCode
  by_cases hblock : (split content).hasBlock = true
  · rw [if_pos hblock]
  · have hcut : cutLines (lines content) = none := by
      rw [Option.eq_none_iff_forall_ne_some]
      intro ⟨before, block, after⟩ h
      exact hblock (hasBlock_iff.2 ⟨before, block, after, h⟩)
    have hsplit : split content = ⟨content, [], []⟩ := by rw [split, hcut]
    rw [if_neg hblock, hsplit, show codeLines [] = [] from rfl, List.append_nil]
    split
    · next hbang =>
      obtain ⟨hfirst, hothers⟩ := codeLines_firstLine hbang
      rw [hfirst, hothers, List.nil_append]
    · rfl

/-- The lines of code of a script are those before its block, those in it and those behind it. -/
theorem codeLines_split (content : List Char) :
    codeLines content = codeLines (split content).before ++ codeLines (split content).block ++
      codeLines (split content).after := by
  cases hcut : cutLines (lines content) with
  | none => simp [split, hcut, codeLines, lines]
  | some t =>
    obtain ⟨before, block, after⟩ := t
    obtain ⟨hall, -, -⟩ := of_cutLines_eq_some hcut
    rw [List.append_assoc] at hall
    obtain ⟨hbefore, hrest⟩ := lines_flatten_of_append hall
    obtain ⟨hblock, hafter⟩ := lines_flatten_of_append hrest
    rw [split_of_cutLines hcut]
    simp only [codeLines, hall, hbefore, hblock, hafter, List.filter_append, List.append_assoc]

/-- A generated block has no lines of code, unless a newline in the version or in a name makes
one. -/
private theorem codeLines_generate {d : DependencyList} {version : String}
    (hversion : '\n' ∉ version.toList) (hd : ∀ name ∈ d.names, '\n' ∉ name.toList) :
    codeLines (generate d version ++ ['\n']) = [] := by
  have hcomplete : ∀ l ∈ (openMarker :: bodyLines d version ++ [closeMarker]).map (· ++ ['\n']),
      Complete l := by
    intro l hl
    obtain ⟨line, hline, rfl⟩ := List.mem_map.1 hl
    exact ⟨line, not_mem_of_mem_generated (by decide) hversion hd hline, rfl⟩
  rw [generate_append_newline, codeLines, lines_flatten hcomplete, List.filter_eq_nil_iff]
  intro l hl
  obtain ⟨line, hline, rfl⟩ := List.mem_map.1 hl
  obtain ⟨body, rfl⟩ := exists_hash_of_mem hline
  rw [List.cons_append, isCode_hash]
  exact Bool.false_ne_true

/-! ## Main statements -/

/-- A script into which a block is put keeps its lines of code outside its own block, in their order
and as often as they stood there, and those of the new block stand among them in one place: none,
if no newline stands in the version and the names. The lines of code that are gone are those that
stood in its own block. -/
theorem codeLines_reconcile (content : List Char) (d : DependencyList) (version : String) :
    (∃ front back, outerCode content = front ++ back ∧
      codeLines (reconcile content (generate d version)) =
        front ++ codeLines (generate d version ++ ['\n']) ++ back) ∧
    ('\n' ∉ version.toList → (∀ name ∈ d.names, '\n' ∉ name.toList) →
      codeLines (reconcile content (generate d version)) = outerCode content) ∧
    codeLines content = codeLines (split content).before ++ codeLines (split content).block ++
      codeLines (split content).after := by
  have hparts : codeLines (reconcile content (generate d version)) =
      codeLines (surroundings content).1 ++ codeLines (generate d version ++ ['\n']) ++
        codeLines (surroundings content).2 := by
    obtain ⟨before, hbefore, hlines⟩ := surroundings_fst content
    have hcomplete : ∀ l ∈ before, Complete l := fun l hl => (hlines l hl).1
    rw [reconcile_eq, hbefore, List.append_assoc, List.append_assoc,
      codeLines_flatten_append hcomplete, List.singleton_append, codeLines_append_cons,
      List.append_assoc]
  have houter := codeLines_surroundings content
  refine ⟨⟨_, _, houter.symm, hparts⟩, fun hversion hd => ?_, codeLines_split content⟩
  rw [hparts, codeLines_generate hversion hd, List.append_nil, houter]

/-- A half-written block in front of the code of a script, and a whole one behind. -/
def torn : List Char := "# /// script\nimport os\n# /// script\n# ///\nimport re\n".toList

/-- The lines of code behind a half-written block are kept. -/
theorem codeLines_reconcile_torn :
    codeLines (reconcile torn (generate ⟨["rich"]⟩ ">=3.13")) = ["import re\n".toList] :=
  ((codeLines_reconcile torn ⟨["rich"]⟩ ">=3.13").2.1 (by decide) (by decide)).trans (by decide)

/-- Every line of code of a script stands in another text, in the same order and as often. -/
def KeepsCode (content new : List Char) : Prop :=
  (codeLines content).Sublist (codeLines new) ∧
    ∀ line ∈ codeLines content, (codeLines new).count line = (codeLines content).count line

/-- The code between a half-written block and the end of the next one goes with the block. -/
theorem not_keepsCode_torn : ¬KeepsCode torn (reconcile torn (generate ⟨["rich"]⟩ ">=3.13")) := by
  intro h
  have hmem : "import os\n".toList ∈ codeLines torn := by decide
  exact absurd (h.1.subset hmem) (by decide)

end ScriptDeps.Block
