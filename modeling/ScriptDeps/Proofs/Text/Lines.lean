import Mathlib.Data.List.TakeWhile
import ScriptDeps.Text.Blank
import ScriptDeps.Text.Lines

/-!
# Cutting and joining lines

A text cut into lines can be put together again from any of its stretches of lines, and cutting the
result finds these lines. Main statements: `lines_flatten_append` for complete lines in front of a
text, and `lines_joinWith` for lines that are joined with newlines.
-/

namespace ScriptDeps.Text

/-- A line that its newline ends. -/
def Complete (line : List Char) : Prop := ∃ s, '\n' ∉ s ∧ line = s ++ ['\n']

/-- A stretch without a newline and the newline behind it are the first line. -/
theorem lines_append_newline {s : List Char} (hs : '\n' ∉ s) (t : List Char) :
    lines (s ++ '\n' :: t) = (s ++ ['\n']) :: lines t := by
  induction s with
  | nil => simp [lines]
  | cons c s ih =>
    have hc : c ≠ '\n' := fun h => hs (h ▸ List.mem_cons_self)
    have hs' : '\n' ∉ s := fun h => hs (List.mem_cons_of_mem _ h)
    simp only [List.cons_append, lines, hc, if_false, ih hs']

/-- A text without a newline is one line. -/
theorem lines_of_not_mem {s : List Char} (hs : '\n' ∉ s) (hne : s ≠ []) : lines s = [s] := by
  induction s with
  | nil => exact absurd rfl hne
  | cons c s ih =>
    have hc : c ≠ '\n' := fun h => hs (h ▸ List.mem_cons_self)
    have hs' : '\n' ∉ s := fun h => hs (List.mem_cons_of_mem _ h)
    cases s with
    | nil => simp [lines, hc]
    | cons d s =>
      rw [lines, if_neg hc, ih hs' (List.cons_ne_nil d s)]

/-- A text is empty, or one line without a newline, or has a first line with one. -/
theorem lines_cases (s : List Char) :
    s = [] ∨ ('\n' ∉ s ∧ lines s = [s]) ∨
      ∃ first rest, '\n' ∉ first ∧ s = first ++ '\n' :: rest ∧
        lines s = (first ++ ['\n']) :: lines rest := by
  by_cases hne : s = []
  · exact Or.inl hne
  · by_cases h : '\n' ∈ s
    · obtain ⟨first, rest, rfl, hfirst⟩ := List.eq_append_cons_of_mem h
      exact Or.inr (Or.inr ⟨first, rest, hfirst, rfl, lines_append_newline hfirst rest⟩)
    · exact Or.inr (Or.inl ⟨h, lines_of_not_mem h hne⟩)

/-- No line is empty. -/
theorem ne_nil_of_mem_lines {s line : List Char} (h : line ∈ lines s) : line ≠ [] := by
  induction s generalizing line with
  | nil => exact absurd h List.not_mem_nil
  | cons c s ih =>
    unfold lines at h
    split at h
    · rcases List.mem_cons.1 h with rfl | h
      · exact List.cons_ne_nil _ _
      · exact ih h
    · split at h
      · exact List.mem_singleton.1 h ▸ List.cons_ne_nil _ _
      · next first rest hlines =>
        rcases List.mem_cons.1 h with rfl | h
        · exact List.cons_ne_nil _ _
        · exact ih (hlines ▸ List.mem_cons_of_mem _ h)

/-- A text that is not empty has a byte. -/
theorem byteLength_pos {s : List Char} (h : s ≠ []) : 0 < byteLength s := by
  obtain ⟨c, s, rfl⟩ := List.exists_cons_of_ne_nil h
  exact Nat.add_pos_left c.utf8Size_pos _

/-- Every line in front of another one is complete. -/
theorem complete_of_lines_eq {s : List Char} {before rest : List (List Char)} {line : List Char}
    (h : lines s = before ++ line :: rest) : ∀ l ∈ before, Complete l := by
  induction before generalizing s with
  | nil => simp
  | cons first before ih =>
    rcases lines_cases s with rfl | ⟨_, hl⟩ | ⟨f, r, hf, _, hl⟩
    · simp [lines] at h
    · rw [h] at hl
      simp at hl
    · rw [h, List.cons_append, List.cons.injEq] at hl
      intro l hmem
      rcases List.mem_cons.1 hmem with rfl | hmem
      · exact ⟨f, hf, hl.1⟩
      · exact ih hl.2.symm l hmem

/-- Complete lines in front of a text are its first lines. -/
theorem lines_flatten_append {before : List (List Char)} (h : ∀ l ∈ before, Complete l)
    (t : List Char) : lines (before.flatten ++ t) = before ++ lines t := by
  induction before with
  | nil => simp
  | cons line before ih =>
    obtain ⟨s, hs, rfl⟩ := h line List.mem_cons_self
    have hrest := ih fun l hl => h l (List.mem_cons_of_mem _ hl)
    rw [List.flatten_cons, List.append_assoc, List.append_assoc, List.singleton_append,
      lines_append_newline hs, hrest, List.cons_append]

/-- Complete lines are the lines of their text. -/
theorem lines_flatten {before : List (List Char)} (h : ∀ l ∈ before, Complete l) :
    lines before.flatten = before := by
  have hlines := lines_flatten_append h []
  rwa [List.append_nil, lines, List.append_nil] at hlines

/-- Stretches of the lines of a text are the lines of their texts. -/
theorem lines_flatten_of_append {s : List Char} {first second : List (List Char)}
    (h : lines s = first ++ second) :
    lines first.flatten = first ∧ lines second.flatten = second := by
  have htext : s = first.flatten ++ second.flatten := by
    rw [← List.flatten_append, ← h, flatten_lines]
  cases second with
  | nil =>
    rw [List.append_nil] at h
    rw [List.flatten_nil, List.append_nil] at htext
    exact ⟨htext ▸ h, rfl⟩
  | cons line rest =>
    have hcomplete := complete_of_lines_eq h
    rw [htext, lines_flatten_append hcomplete, List.append_cancel_left_eq] at h
    exact ⟨lines_flatten hcomplete, h⟩

/-- Two texts are cut apart from each other behind a newline. -/
theorem lines_append_cons (s t : List Char) :
    lines (s ++ '\n' :: t) = lines (s ++ ['\n']) ++ lines t := by
  induction s with
  | nil => rfl
  | cons c s ih =>
    by_cases hc : c = '\n'
    · simp only [List.cons_append, lines, hc, if_true, ih]
    · obtain ⟨line, rest, hlines⟩ : ∃ line rest, lines (s ++ ['\n']) = line :: rest := by
        refine List.exists_cons_of_ne_nil fun hnil => ?_
        have hflat := flatten_lines (s ++ ['\n'])
        rw [hnil] at hflat
        exact List.cons_ne_nil _ _ (List.append_eq_nil_iff.1 hflat.symm).2
      simp only [List.cons_append, lines, hc, if_false, ih, hlines]

/-- The first text stands before the separator and all others. -/
theorem joinWith_cons {sep a : List Char} {parts : List (List Char)} (h : parts ≠ []) :
    joinWith sep (a :: parts) = a ++ sep ++ joinWith sep parts := by
  cases parts with
  | nil => exact absurd rfl h
  | cons b parts => simp [joinWith]

/-- Texts with newlines between them, with the newlines put behind those that are not last. -/
theorem joinWith_newline (parts : List (List Char)) (last : List Char) :
    joinWith ['\n'] (parts ++ [last]) = (parts.map (· ++ ['\n'])).flatten ++ last := by
  induction parts with
  | nil => simp [joinWith]
  | cons a parts ih =>
    rw [List.cons_append, joinWith_cons (by simp), ih]
    simp

/-- Texts with newlines between them, with the newlines put in front of those that are not first. -/
theorem joinWith_newline_cons (first : List Char) (parts : List (List Char)) :
    joinWith ['\n'] (first :: parts) = first ++ (parts.map ('\n' :: ·)).flatten := by
  induction parts generalizing first with
  | nil => simp [joinWith]
  | cons a parts ih =>
    rw [joinWith_cons (by simp), ih]
    simp

/-- Joining lines with newlines and cutting the result again gives these lines. -/
theorem lines_joinWith {parts : List (List Char)} {last : List Char}
    (hparts : ∀ part ∈ parts, '\n' ∉ part) (hlast : '\n' ∉ last) (hne : last ≠ []) :
    lines (joinWith ['\n'] (parts ++ [last])) = parts.map (· ++ ['\n']) ++ [last] := by
  rw [joinWith_newline, lines_flatten_append, lines_of_not_mem hlast hne]
  intro l hl
  obtain ⟨part, hpart, rfl⟩ := List.mem_map.1 hl
  exact ⟨part, hparts part hpart, rfl⟩

/-- The newline behind a line is its ending, if no carriage return stands right in front of it. -/
theorem dropEnding_newline {line : List Char} (h : line.getLast? ≠ some '\r') :
    dropEnding (line ++ ['\n']) = line := by
  unfold dropEnding
  rw [List.reverse_append, List.reverse_singleton, List.singleton_append]
  split
  · next rest heq =>
    have hline : line.reverse = '\r' :: rest := (List.cons.inj heq).2
    exact absurd (by rw [← List.head?_reverse, hline, List.head?_cons]) h
  · next rest _ heq =>
    rw [← (List.cons.inj heq).2, List.reverse_reverse]
  · next _ hnone => exact absurd rfl (hnone line.reverse)

/-- The newline behind a line is its ending, if the line has no carriage return. -/
theorem dropEnding_append_newline {line : List Char} (h : '\r' ∉ line) :
    dropEnding (line ++ ['\n']) = line :=
  dropEnding_newline fun hlast => h (List.mem_of_getLast? hlast)

/-- A carriage return right in front of a newline belongs to the ending. -/
theorem dropEnding_carriageReturn (line : List Char) :
    dropEnding (line ++ ['\r'] ++ ['\n']) = line := by
  simp [dropEnding]

/-- A line that no newline ends has no ending. -/
theorem dropEnding_of_not_mem {line : List Char} (h : '\n' ∉ line) : dropEnding line = line := by
  have hhead : ∀ rest, line.reverse ≠ '\n' :: rest := fun rest hrest =>
    h (List.mem_reverse.1 (hrest ▸ List.mem_cons_self))
  unfold dropEnding
  split
  · next heq => exact absurd heq (hhead _)
  · next heq => exact absurd heq (hhead _)
  · rfl

/-- A text is a line of another one, without the newline, or the carriage return and the newline,
that ends it. -/
inductive IsLine (line : List Char) : List Char → Prop where
  /-- The last line, which nothing ends. -/
  | last (hline : '\n' ∉ line) (hne : line ≠ []) : IsLine line line
  /-- A line that a newline ends. -/
  | newline (rest : List Char) (hline : '\n' ∉ line) (hlast : line.getLast? ≠ some '\r') :
    IsLine line (line ++ '\n' :: rest)
  /-- A line that a carriage return and a newline end. -/
  | carriageReturn (rest : List Char) (hline : '\n' ∉ line) :
    IsLine line (line ++ '\r' :: '\n' :: rest)
  /-- A line behind a newline. -/
  | later (before rest : List Char) (h : IsLine line rest) : IsLine line (before ++ '\n' :: rest)

private theorem isLine_dropEnding {first : List Char} (hfirst : '\n' ∉ first) (rest : List Char) :
    IsLine (dropEnding (first ++ ['\n'])) (first ++ '\n' :: rest) := by
  by_cases hlast : first.getLast? = some '\r'
  · obtain ⟨line, rfl⟩ := List.getLast?_eq_some_iff.1 hlast
    have hline : '\n' ∉ line := fun h => hfirst (List.mem_append_left _ h)
    rw [dropEnding_carriageReturn, List.append_assoc, List.singleton_append]
    exact .carriageReturn rest hline
  · rw [dropEnding_newline hlast]
    exact .newline rest hfirst hlast

/-- The lines that a text is cut into are its lines. -/
theorem mem_bareLines_iff {line s : List Char} : line ∈ bareLines s ↔ IsLine line s := by
  constructor
  · intro h
    obtain ⟨whole, hmem, rfl⟩ := List.mem_map.1 h
    clear h
    -- The lines are gone through one after another, and the text with them.
    generalize hlines : lines s = all at hmem
    induction all generalizing s with
    | nil => exact absurd hmem List.not_mem_nil
    | cons first rest ih =>
      rcases lines_cases s with rfl | ⟨hs, hone⟩ | ⟨f, t, hf, rfl, hcut⟩
      · exact absurd hlines.symm (List.cons_ne_nil first rest)
      · obtain ⟨rfl, rfl⟩ := List.cons.inj (hone.symm.trans hlines)
        obtain rfl := List.mem_singleton.1 hmem
        rw [dropEnding_of_not_mem hs]
        exact .last hs (ne_nil_of_mem_lines (hone ▸ hmem))
      · obtain ⟨rfl, hrest⟩ := List.cons.inj (hcut.symm.trans hlines)
        rcases List.mem_cons.1 hmem with rfl | hmem
        · exact isLine_dropEnding hf t
        · exact .later f t (ih hrest hmem)
  · intro h
    induction h with
    | last hline hne =>
      rw [bareLines, lines_of_not_mem hline hne, List.map_singleton, dropEnding_of_not_mem hline]
      exact List.mem_singleton_self _
    | newline rest hline hlast =>
      rw [bareLines, lines_append_newline hline, List.map_cons, dropEnding_newline hlast]
      exact List.mem_cons_self
    | carriageReturn rest hline =>
      have hfirst : '\n' ∉ line ++ ['\r'] := by simpa using hline
      rw [List.append_cons, bareLines, lines_append_newline hfirst, List.map_cons,
        dropEnding_carriageReturn]
      exact List.mem_cons_self
    | later before rest _ ih =>
      rw [bareLines, lines_append_cons, List.map_append]
      exact List.mem_append_right _ ih

/-! ## Control characters -/

/-- A test that no element of a list passes is passed by none of them. -/
theorem eq_false_of_any {α : Type} {p : α → Bool} {l : List α} (h : l.any p = false) :
    ∀ a ∈ l, p a = false := by
  intro a ha
  simpa using List.any_eq_false.1 h a ha

/-- A control character, which has no shape and no width. -/
def isControl (c : Char) : Bool :=
  c.toNat < 0x20 || (0x7F ≤ c.toNat && c.toNat < 0xA0)

/-- A text without control characters has none of them. -/
theorem not_mem_of_isControl {s : List Char} (hs : ∀ c ∈ s, isControl c = false) {c : Char}
    (hc : isControl c = true) : c ∉ s := by
  intro hmem
  rw [hs c hmem] at hc
  exact Bool.noConfusion hc

/-! ## The first line -/

/-- The first line of a text without its newline. -/
def firstLine (s : List Char) : List Char := s.takeWhile (· != '\n')

/-- What follows the first line of a text. -/
def otherLines (s : List Char) : List Char := (s.dropWhile (· != '\n')).drop 1

/-- The first line of a text has no newline. -/
theorem newline_not_mem_firstLine (s : List Char) : '\n' ∉ firstLine s := by
  intro hmem
  simpa using List.mem_takeWhile_imp hmem

private theorem bne_newline {s : List Char} (hs : '\n' ∉ s) : ∀ c ∈ s, (c != '\n') = true := by
  intro c hc
  have hne : c ≠ '\n' := fun h => hs (h ▸ hc)
  simpa using hne

/-- A text without a newline is its first line. -/
theorem firstLine_of_not_mem {s : List Char} (hs : '\n' ∉ s) : firstLine s = s :=
  List.takeWhile_eq_self_iff.2 (bne_newline hs)

/-- A text without a newline has no other lines. -/
theorem otherLines_of_not_mem {s : List Char} (hs : '\n' ∉ s) : otherLines s = [] := by
  have h : s.dropWhile (· != '\n') = [] := List.dropWhile_eq_nil_iff.2 (bne_newline hs)
  rw [otherLines, h, List.drop_nil]

/-- The first line ends at the first newline. -/
theorem firstLine_append_newline {s : List Char} (hs : '\n' ∉ s) (t : List Char) :
    firstLine (s ++ '\n' :: t) = s := by
  have h : s.takeWhile (· != '\n') = s := firstLine_of_not_mem hs
  rw [firstLine, List.takeWhile_append, h]
  simp

/-- The other lines begin behind the first newline. -/
theorem otherLines_append_newline {s : List Char} (hs : '\n' ∉ s) (t : List Char) :
    otherLines (s ++ '\n' :: t) = t := by
  have h : s.dropWhile (· != '\n') = [] := List.dropWhile_eq_nil_iff.2 (bne_newline hs)
  rw [otherLines, List.dropWhile_append, h]
  simp

/-! ## Trimming -/

/-- Nothing is removed at the start of a text that starts with a visible character. -/
theorem trimStart_cons {c : Char} (hc : isBlank c = false) (s : List Char) :
    trimStart (c :: s) = c :: s := by
  simp [trimStart, hc]

/-- A blank run at the start is removed. -/
theorem trimStart_append {s : List Char} (hs : ∀ b ∈ s, isBlank b = true) (t : List Char) :
    trimStart (s ++ t) = trimStart t :=
  List.dropWhile_append_of_pos hs

/-- Trimming at the end leaves all up to the last visible character. -/
theorem trimEnd_append_cons {c : Char} (hc : isBlank c = false) (s t : List Char) :
    trimEnd (s ++ c :: t) = s ++ c :: trimEnd t := by
  have hcut : (s ++ c :: t).reverse = t.reverse ++ (c :: s.reverse) := by simp
  unfold trimEnd
  rw [hcut, List.dropWhile_append]
  split
  · next h =>
    have ht : t.reverse.dropWhile isBlank = [] := List.isEmpty_iff.1 h
    simp [ht, hc]
  · simp

/-- A blank at the end is removed. -/
theorem trimEnd_append_blank {b : Char} (hb : isBlank b = true) (s : List Char) :
    trimEnd (s ++ [b]) = trimEnd s := by
  simp [trimEnd, hb]

/-- A blank at the end does not matter to trimming. -/
theorem trim_append_blank {b : Char} (hb : isBlank b = true) (s : List Char) :
    trim (s ++ [b]) = trim s := by
  unfold trim trimStart
  rw [List.dropWhile_append]
  split
  · next h =>
    have hs : s.dropWhile isBlank = [] := List.isEmpty_iff.1 h
    simp [hs, hb]
  · exact trimEnd_append_blank hb _

/-- The second text is what blanks at both ends of the first one surround. -/
def Trims (s t : List Char) : Prop :=
  (∃ lead trail, (∀ c ∈ lead ++ trail, isBlank c = true) ∧ s = lead ++ t ++ trail) ∧
    (∀ c, t.head? = some c → isBlank c = false) ∧ ∀ c, t.getLast? = some c → isBlank c = false

private theorem isBlank_of_head?_dropWhile {s : List Char} {c : Char}
    (h : (s.dropWhile isBlank).head? = some c) : isBlank c = false := by
  have hhead := List.head?_dropWhile_not isBlank s
  rwa [h] at hhead

private theorem isBlank_of_mem_takeWhile {s : List Char} :
    ∀ c ∈ s.takeWhile isBlank, isBlank c = true := fun _ => List.mem_takeWhile_imp

private theorem trimEnd_of_blank {s : List Char} (hs : ∀ c ∈ s, isBlank c = true) :
    trimEnd s = [] := by
  rw [trimEnd, List.dropWhile_eq_nil_iff.2 fun c hc => hs c (List.mem_reverse.1 hc),
    List.reverse_nil]

/-- Trimming takes exactly the blanks at both ends away. -/
theorem trim_eq_iff {s t : List Char} : trim s = t ↔ Trims s t := by
  constructor
  · rintro rfl
    let visible := trimStart s
    let trail := (visible.reverse.takeWhile isBlank).reverse
    have hvisible : visible = trim s ++ trail := by
      rw [trim, trimEnd, ← List.reverse_append, List.takeWhile_append_dropWhile,
        List.reverse_reverse]
    refine ⟨⟨s.takeWhile isBlank, trail, fun c hc => ?_, ?_⟩, fun c hc => ?_, fun c hc => ?_⟩
    · rcases List.mem_append.1 hc with hc | hc
      · exact isBlank_of_mem_takeWhile c hc
      · exact isBlank_of_mem_takeWhile c (List.mem_reverse.1 hc)
    · rw [List.append_assoc, ← hvisible]
      exact List.takeWhile_append_dropWhile.symm
    · have hhead : visible.head? = some c := by rw [hvisible, List.head?_append, hc, Option.some_or]
      exact isBlank_of_head?_dropWhile hhead
    · rw [trim, trimEnd, List.getLast?_reverse] at hc
      exact isBlank_of_head?_dropWhile hc
  · rintro ⟨⟨lead, trail, hblank, rfl⟩, hhead, hlast⟩
    have htrail : ∀ c ∈ trail, isBlank c = true := fun c hc =>
      hblank c (List.mem_append_right _ hc)
    rw [trim, List.append_assoc,
      trimStart_append fun c hc => hblank c (List.mem_append_left _ hc)]
    cases t with
    | nil => rw [List.nil_append, trimStart, List.dropWhile_eq_nil_iff.2 htrail]; rfl
    | cons c t =>
      obtain ⟨init, d, hd⟩ : ∃ init d, c :: t = init ++ [d] :=
        ⟨_, _, (List.dropLast_concat_getLast (List.cons_ne_nil c t)).symm⟩
      have hvisible : isBlank d = false := hlast d (by rw [hd, List.getLast?_concat])
      rw [List.cons_append, trimStart_cons (hhead c rfl), ← List.cons_append, hd,
        List.append_assoc, List.singleton_append, trimEnd_append_cons hvisible,
        trimEnd_of_blank htrail]

end ScriptDeps.Text
