import ScriptDeps.Proofs.Block.Placement
import ScriptDeps.Proofs.Import.Places

/-!
# Comments put into a script

Comment lines that are put into a script without a block, at its top or behind a first line that
starts with `#!`, move what is read from it down by as many lines, and nothing else: it can be read
with them if it could be read before, and its imports are the same. The one exception is a script
that begins with a byte order mark, behind which a string literal opens: with comments in front of
the mark it cannot be read any more. Main statement: `undisturbed_iff`.
-/

namespace ScriptDeps

open Block Source Text

/-- A text that is some comment lines, the last one without its newline. -/
structure AreComments (comments : List (List Char)) (m : List Char) : Prop where
  /-- There is a line. -/
  ne_nil : comments ≠ []
  /-- Each line is a comment. -/
  comment : ∀ line ∈ comments, Progress.IsComment line
  /-- With its last newline the text is these lines. -/
  text : m ++ ['\n'] = (comments.map (· ++ ['\n'])).flatten

variable {s m : List Char} {comments : List (List Char)}

private theorem surroundings_of_find? (hs : find? s = none) :
    surroundings s =
      if ['#', '!'] <+: s then (firstLine s ++ ['\n'], otherLines s) else ([], s) := by
  rw [surroundings, find?_eq_none_iff.1 hs, if_neg Bool.false_ne_true]

/-- Comments that are put into a script move what is read from it down by their number, unless they
take a byte order mark from the start. -/
theorem ofSource_reconcile (hs : find? s = none) (hm : AreComments comments m)
    (hmark : ¬OpensBehindMark s) :
    Import.ofSource (reconcile s m) = Import.downAll comments.length (Import.ofSource s) := by
  rw [reconcile_eq, surroundings_of_find? hs]
  split
  · next hbang =>
    have hsame := parse?_behind_hashBang hm.comment hbang
    rw [← hm.text] at hsame
    simp only [List.append_assoc] at hsame ⊢
    exact ofSource_of_sameTrees hsame
  · have hsame := parse?_behind_comments hm.comment hm.ne_nil hmark
    rw [← hm.text] at hsame
    rw [List.nil_append]
    exact ofSource_of_sameTrees hsame

/-- A script whose byte order mark comments hide cannot be read any more. -/
theorem ofSource_reconcile_mark (hs : find? s = none) (hm : AreComments comments m)
    (hmark : OpensBehindMark s) : Import.ofSource (reconcile s m) = .error .malformed := by
  have hnone := parse?_behind_comments_eq_none hm.comment hm.ne_nil hmark
  have hbang : ¬['#', '!'] <+: s := by
    obtain ⟨t, rfl, _⟩ := hmark
    simp [List.cons_prefix_cons]
  rw [← hm.text] at hnone
  rw [reconcile_eq, surroundings_of_find? hs, if_neg hbang, List.nil_append, Import.ofSource, hnone]

/-! ## Texts of comments -/

/-- A text without a final newline, all of whose lines start with a hash sign and hold no control
characters. -/
structure IsComments (m : List Char) : Prop where
  /-- There is a line. -/
  ne_nil : m ≠ []
  /-- The last line has no newline. -/
  unended : m.getLast? ≠ some '\n'
  /-- Each line starts with a hash sign. -/
  hash : ∀ line ∈ bareLines m, line.head? = some '#'
  /-- No line holds a control character. -/
  plain : ∀ line ∈ bareLines m, ∀ c ∈ line, isControl c = false

/-- A line is its text, or its text and a carriage return that belongs to the line ending. -/
private theorem eq_dropEnding (line : List Char) :
    line = dropEnding (line ++ ['\n']) ∨ line = dropEnding (line ++ ['\n']) ++ ['\r'] := by
  by_cases hlast : line.getLast? = some '\r'
  · obtain ⟨text, rfl⟩ := List.getLast?_eq_some_iff.1 hlast
    exact .inr (by rw [dropEnding_carriageReturn])
  · exact .inl (dropEnding_newline hlast).symm

/-- A line whose text starts with a hash sign and holds no control character is a comment. -/
private theorem isComment_of_text {line text : List Char} (hline : '\n' ∉ line)
    (h : line = text ∨ line = text ++ ['\r']) (hhash : text.head? = some '#')
    (hplain : ∀ c ∈ text, isControl c = false) : Progress.IsComment line := by
  obtain ⟨body, rfl⟩ : ∃ body, text = '#' :: body := by
    cases text with
    | nil => exact absurd hhash nofun
    | cons c body => exact ⟨body, by rw [Option.some.inj hhash]⟩
  have hnull : '\x00' ∉ '#' :: body := not_mem_of_isControl hplain (by decide)
  rcases h with rfl | rfl
  · refine ⟨body, rfl, fun c hc => ⟨?_, ?_⟩⟩
    · rintro rfl
      exact hline (List.mem_cons_of_mem _ hc)
    · rintro rfl
      exact hnull (List.mem_cons_of_mem _ hc)
  · refine ⟨body ++ ['\r'], rfl, fun c hc => ⟨?_, ?_⟩⟩
    · rintro rfl
      exact hline (List.mem_cons_of_mem _ hc)
    · rintro rfl
      rcases List.mem_append.1 hc with hc | hc
      · exact hnull (List.mem_cons_of_mem _ hc)
      · exact absurd (List.mem_singleton.1 hc) (by decide)

/-- A text of comments is as many comment lines as it has lines. -/
theorem exists_areComments (h : IsComments m) :
    ∃ comments, AreComments comments m ∧ comments.length = (lines m).length := by
  induction hn : m.length using Nat.strong_induction_on generalizing m with
  | h n ih =>
    rcases lines_cases m with rfl | ⟨hnew, hlines⟩ | ⟨first, rest, hfirst, rfl, hlines⟩
    · exact absurd rfl h.ne_nil
    · -- the last line
      have hbare : bareLines m = [m] := by
        rw [bareLines, hlines, List.map_singleton, dropEnding_of_not_mem hnew]
      have hcomment : Progress.IsComment m :=
        isComment_of_text hnew (.inl rfl) (h.hash m (by simp [hbare])) (h.plain m (by simp [hbare]))
      refine ⟨[m], ⟨List.cons_ne_nil _ _, ?_, by simp⟩, by rw [hlines]⟩
      intro line hline
      exact List.mem_singleton.1 hline ▸ hcomment
    · have hbare : bareLines (first ++ '\n' :: rest) =
          dropEnding (first ++ ['\n']) :: bareLines rest := by
        rw [bareLines, hlines, List.map_cons, bareLines]
      have hcomment : Progress.IsComment first :=
        isComment_of_text hfirst (eq_dropEnding first) (h.hash _ (by simp [hbare]))
          (h.plain _ (by simp [hbare]))
      have hrest : rest ≠ [] := by
        rintro rfl
        exact h.unended (by simp)
      have hunended : rest.getLast? ≠ some '\n' := by
        have hlast := h.unended
        rwa [List.getLast?_append_cons, List.getLast?_cons_of_ne_nil hrest] at hlast
      obtain ⟨comments, hcomments, hlength⟩ := ih rest.length (by rw [← hn]; simp; omega)
        ⟨hrest, hunended, fun line hline => h.hash line (by simp [hbare, hline]),
          fun line hline => h.plain line (by simp [hbare, hline])⟩ rfl
      refine ⟨first :: comments, ⟨List.cons_ne_nil _ _, ?_, ?_⟩, ?_⟩
      · intro line hline
        rcases List.mem_cons.1 hline with rfl | hline
        · exact hcomment
        · exact hcomments.comment line hline
      · rw [List.map_cons, List.flatten_cons, ← hcomments.text]
        simp
      · rw [hlines, List.length_cons, List.length_cons, hlength]

/-! ## Main statement -/

/-- A text that is put into a script does not disturb it: the script can be read with it just if it
can be read without it, and then has the same imports, as many lines further down as the text has
lines. -/
structure Undisturbed (s m : List Char) : Prop where
  /-- The script cannot be read with the text if it cannot be read without it, and the other way
  round. -/
  fails_iff : (∃ e, Import.ofSource (reconcile s m) = .error e) ↔
    ∃ e, Import.ofSource s = .error e
  /-- The imports are the same and stand further down. -/
  imports : ∀ imports, Import.ofSource s = .ok imports →
    Import.ofSource (reconcile s m) = .ok (imports.map (Import.down (lines m).length))

/-- Comments do not disturb a script without a block that they are put into, unless it begins with a
byte order mark, behind which a string literal opens, and can be read. -/
theorem undisturbed_iff (hs : find? s = none) (hm : IsComments m) :
    Undisturbed s m ↔ ¬(OpensBehindMark s ∧ ∃ imports, Import.ofSource s = .ok imports) := by
  obtain ⟨comments, hcomments, hlength⟩ := exists_areComments hm
  constructor
  · rintro hsame ⟨hmark, imports, himports⟩
    have hmoved := hsame.imports imports himports
    rw [ofSource_reconcile_mark hs hcomments hmark] at hmoved
    exact absurd hmoved nofun
  · intro hnot
    by_cases hmark : OpensBehindMark s
    · -- the script cannot be read, with comments or without
      have hfails : ∃ e, Import.ofSource s = .error e := by
        cases hread : Import.ofSource s with
        | error e => exact ⟨e, rfl⟩
        | ok imports => exact absurd ⟨hmark, imports, hread⟩ hnot
      exact ⟨⟨fun _ => hfails, fun _ => ⟨_, ofSource_reconcile_mark hs hcomments hmark⟩⟩,
        fun imports hread => absurd ⟨hmark, imports, hread⟩ hnot⟩
    · have hmoved := ofSource_reconcile hs hcomments hmark
      rw [hlength] at hmoved
      constructor
      · rw [hmoved]
        cases Import.ofSource s with
        | error e => cases e <;> simp [Import.downAll]
        | ok imports => simp [Import.downAll]
      · intro imports hread
        rw [hmoved, hread]
        rfl

/-- Two comment lines do not disturb a script behind whose first line they are put. -/
theorem undisturbed_hashBang :
    let s := "#!/bin/sh\nimport os\n".toList
    let m := "# one\n# two".toList
    find? s = none ∧ IsComments m ∧ Undisturbed s m := by
  have hs : find? "#!/bin/sh\nimport os\n".toList = none := by decide
  have hlines : bareLines "# one\n# two".toList = ["# one".toList, "# two".toList] := by decide
  have hm : IsComments "# one\n# two".toList := by
    refine ⟨by decide, by decide, fun line hline => ?_, fun line hline => ?_⟩ <;>
      rw [hlines] at hline <;> rcases List.mem_pair.1 hline with rfl | rfl
    · decide
    · decide
    · exact eq_false_of_any (by decide)
    · exact eq_false_of_any (by decide)
  refine ⟨hs, hm, (undisturbed_iff hs hm).2 ?_⟩
  rintro ⟨⟨t, ht, _⟩, _⟩
  have hhead : "#!/bin/sh\nimport os\n".toList.head? = some '#' := by decide
  rw [ht] at hhead
  exact absurd hhead (by simp)

end ScriptDeps
