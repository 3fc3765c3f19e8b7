import ScriptDeps.Proofs.ImportScript.Spelling

/-!
# Printing import scripts

The characters of the written tokens of an import script are its printed text, up to the last line
end. Main statement: `print_eq`.
-/

namespace ScriptDeps.ImportScript

open Source

/-- The characters of written forms in a row stand in a row. -/
theorem charsOf_flatMap {α : Type} (f : α → List Stroke) (xs : List α) :
    charsOf (xs.flatMap f) = xs.flatMap fun x => charsOf (f x) := by
  induction xs with
  | nil => rfl
  | cons x xs ih => rw [List.flatMap_cons, List.flatMap_cons, charsOf_append, ih]

/-! ## Lines -/

/-- The characters of a dotted name are its gap and its text. -/
theorem Dotted.charsOf_strokes (gap : List Char) (d : Dotted) :
    charsOf (d.strokes gap) = gap ++ d.text := by
  have hmore (n : Name) : charsOf (moreStrokes n) = '.' :: n.text := by
    simp [moreStrokes, charsOf, sign, Name.stroke]
  simp only [strokes, text, charsOf_cons, charsOf_flatMap, hmore, Name.stroke, List.append_assoc]

/-- The characters of an entry are its gap and its text. -/
theorem Entry.charsOf_strokes (gap : List Char) (e : Entry) :
    charsOf (e.strokes gap) = gap ++ e.text := by
  rw [strokes, charsOf_append, e.path.charsOf_strokes, text, ending, List.append_assoc]
  cases e.rename with
  | none => rfl
  | some n => simp [charsOf, word, space, Name.stroke]

/-- The characters of entries are the entries with commas between them, behind a space. -/
theorem charsOf_entryStrokes (first : Entry) (more : List Entry) :
    charsOf (entryStrokes first more) = ' ' :: entriesText first more := by
  have hmore (e : Entry) : charsOf e.moreStrokes = ", ".toList ++ e.text := by
    simp [Entry.moreStrokes, charsOf_cons, e.charsOf_strokes, sign, space]
  simp only [entryStrokes, entriesText, charsOf_append, first.charsOf_strokes, charsOf_flatMap,
    hmore, space, List.cons_append, List.nil_append]

/-- The characters of the module that names are imported from are its text behind a space. -/
theorem Target.charsOf_strokes : ∀ t : Target, charsOf t.strokes = ' ' :: t.text
  | absolute path => path.charsOf_strokes space
  | relative dots path => by
    have hdots : ∀ n, (List.replicate n ([] : List Char)).flatMap
        (fun gap => charsOf [sign gap "."]) = List.replicate n '.' := by
      intro n
      induction n with
      | zero => rfl
      | succ n ih => simpa [List.replicate_succ, charsOf, sign] using ih
    have hpath : charsOf (path.elim [] (Dotted.strokes [])) = path.elim [] Dotted.text := by
      cases path with
      | none => rfl
      | some d => exact d.charsOf_strokes []
    rw [strokes, charsOf_append, charsOf_flatMap, dotGaps, List.flatMap_cons, hdots, hpath, text]
    simp [charsOf, sign, space]

/-- The characters of an import statement are its gap and its text. -/
theorem Line.charsOf_strokes (gap : List Char) (l : Line) :
    charsOf (l.strokes gap) = gap ++ l.text := by
  unfold text
  cases l with
  | modules first more => simp [strokes, charsOf_cons, charsOf_entryStrokes, word]
  | names target first more =>
    simp [strokes, charsOf_cons, charsOf_append, charsOf_entryStrokes, target.charsOf_strokes, word,
      space]
  | star target =>
    have hstar : charsOf [word space "import", sign space "*"] = " import *".toList := by
      simp [charsOf, word, sign, space]
    rw [strokes, charsOf_cons, charsOf_append, target.charsOf_strokes, hstar]
    simp [word]
  | future first more => simp [strokes, charsOf_cons, charsOf_entryStrokes, word, space]

/-- The characters of what opens a block are its gap and its text. -/
theorem Opening.charsOf_strokes (gap : List Char) (name : Name) :
    ∀ o : Opening, charsOf (o.strokes gap name) = gap ++ o.text name
  | choice | function | record => by
    unfold text
    simp [strokes, charsOf, word, sign, space, Name.stroke]

/-! ## Statements -/

/-- Lines, each with a line end. -/
def flow (lines : List (List Char)) : List Char := (lines.map (· ++ ['\n'])).flatten

/-- A line stands in front of its line end, and the other lines follow. -/
theorem flow_cons (line : List Char) (lines : List (List Char)) :
    flow (line :: lines) = line ++ '\n' :: flow lines := by
  simp [flow]

/-- Lines in a row are written in a row. -/
theorem flow_append (lines lines' : List (List Char)) :
    flow (lines ++ lines') = flow lines ++ flow lines' := by
  simp [flow]

mutual

/-- The characters of a statement are its lines, the last one without its line end. -/
theorem Statement.charsOf_strokes (pre : List Char) (depth : Nat) :
    ∀ s : Statement, charsOf (s.strokes (pre ++ indentation depth) depth) ++ ['\n'] =
      pre ++ flow (s.lines depth)
  | .line l => by
    rw [Statement.strokes, Statement.lines, charsOf_append, l.charsOf_strokes, flow_cons]
    simp [charsOf, mark, flow]
  | .block opening name body => by
    have hbody : charsOf (body.strokes (lineGap (depth + 1)) (depth + 1)) ++ ['\n'] =
        ['\n'] ++ flow (body.lines (depth + 1)) :=
      Body.charsOf_strokes ['\n'] (depth + 1) body
    rw [Statement.strokes, Statement.lines, charsOf_append, charsOf_cons, charsOf_append,
      opening.charsOf_strokes, flow_cons]
    simpa [charsOf, mark] using hbody

/-- The characters of statements in a row are their lines, the last one without its line end. -/
theorem Body.charsOf_strokes (pre : List Char) (depth : Nat) :
    ∀ b : Body, charsOf (b.strokes (pre ++ indentation depth) depth) ++ ['\n'] =
      pre ++ flow (b.lines depth)
  | .one s => Statement.charsOf_strokes pre depth s
  | .more s rest => by
    have hfirst := Statement.charsOf_strokes pre depth s
    have hrest : charsOf (rest.strokes (lineGap depth) depth) ++ ['\n'] =
        ['\n'] ++ flow (rest.lines depth) :=
      Body.charsOf_strokes ['\n'] depth rest
    rw [Body.strokes, Body.lines, charsOf_append, flow_append, List.append_assoc, hrest,
      ← List.append_assoc, hfirst, List.append_assoc]

end

/-- The text of a script is that of its tokens. -/
theorem print_eq (b : Body) : print ⟨some b⟩ = charsOf (b.strokes [] 0) ++ ['\n'] :=
  (Body.charsOf_strokes [] 0 b).symm

end ScriptDeps.ImportScript
