import ScriptDeps.Proofs.ImportScript.Spelling
import ScriptDeps.Proofs.Source.Taking

/-!
# Reading import scripts

The characters of the written tokens of an import script are read as these tokens, as long as the
indentation of its blocks stays below 256. A part of a line is read in front of each rest that does
not go on with its last token, a statement in front of each line end that does not open a block.
Main statements: `Body.readAs` and `readAs_body`.
-/

namespace ScriptDeps.ImportScript

open Source

/-- A text begins with a character that ends a word. -/
def Ended (rest : List Char) : Prop := ∃ d r, rest = d :: r ∧ isDelimiter d = true

/-- A character that ends a word begins no sign of two characters. -/
theorem Ended.apart {rest : List Char} (h : Ended rest) : Apart rest := by
  obtain ⟨d, r, rfl, hd⟩ := h
  have hall : [' ', ',', '.', '(', ':', '\n'].all (fun d => !isDoubling d) = true := by decide
  refine ⟨d, r, rfl, ?_⟩
  simpa using List.all_eq_true.1 hall d (List.contains_iff_mem.1 hd)

/-! ## Parts of a line -/

/-- Where only blocks are open, written tokens are read in front of each rest of some kind. -/
def InLine (indents : List Nat) (P : List Char → Prop) (ws : List Stroke) : Prop :=
  ∀ leaves rest ws', P rest → ReadAs leaves (.blocks indents) rest ws' →
    ReadAs leaves (.blocks indents) (charsOf ws ++ rest) (ws ++ ws')

variable {indents : List Nat} {P Q : List Char → Prop} {ws ws' : List Stroke}
  {leaves : Nesting → List Stroke → Prop}

/-- Nothing is read as nothing. -/
theorem InLine.nil : InLine indents P [] := fun _ _ _ _ h => h

/-- Written tokens are read one after another, if each part stands in front of what it has to. -/
theorem InLine.append (h : InLine indents Q ws) (h' : InLine indents P ws')
    (hbehind : ∀ rest, P rest → Q (charsOf ws' ++ rest)) : InLine indents P (ws ++ ws') := by
  intro leaves rest ws'' hrest hread
  rw [charsOf_append, List.append_assoc, List.append_assoc]
  exact h _ _ _ (hbehind rest hrest) (h' _ _ _ hrest hread)

/-- What is read in front of some rests is read in front of fewer. -/
theorem InLine.mono (h : InLine indents Q ws) (hbehind : ∀ rest, P rest → Q rest) :
    InLine indents P ws :=
  fun leaves rest ws' hrest => h leaves rest ws' (hbehind rest hrest)

/-- Parts that are all alike are read one after another. -/
theorem InLine.flatMap {α : Type} {f : α → List Stroke} {xs : List α}
    (h : ∀ x ∈ xs, InLine indents P (f x)) (hstart : ∀ x ∈ xs, ∀ rest, P (charsOf (f x) ++ rest)) :
    InLine indents P (xs.flatMap f) := by
  induction xs with
  | nil => exact .nil
  | cons x xs ih =>
    rw [List.forall_mem_cons] at h hstart
    rw [List.flatMap_cons]
    refine h.1.append (ih h.2 hstart.2) fun rest hrest => ?_
    cases xs with
    | nil => exact hrest
    | cons y ys =>
      rw [List.flatMap_cons, charsOf_append, List.append_assoc]
      exact hstart.2 y List.mem_cons_self _

private theorem isWord_of_all {text rest : List Char} (hhead : text.head?.any isWordStart = true)
    (hall : text.all isWordChar = true) (hrest : Ended rest) : IsWord text rest where
  head := by
    cases text with
    | nil => simp at hhead
    | cons c t => exact ⟨c, t, rfl, hhead⟩
  all := List.all_eq_true.1 hall
  ended := hrest

/-- A token in front of a rest. -/
private theorem readAs_cons {rest : List Char} {w : Stroke}
    (hfirst : ∀ e : Expected, e.Takes w.token →
      Lexeme.first? e (.blocks indents) (w.gap ++ (w.text ++ rest)) =
        some ⟨w.token, w.gap, w.text, rest, .blocks indents⟩)
    (h : ReadAs leaves (.blocks indents) rest ws) :
    ReadAs leaves (.blocks indents) (charsOf [w] ++ rest) ([w] ++ ws) := by
  refine .cons ⟨w.token, w.gap, w.text, rest, .blocks indents⟩ ⟨rfl, rfl, rfl⟩ ?_ h
  simpa [charsOf] using hfirst

/-- A text is a word of the basic alphabet. -/
def isPlain (text : String) : Bool :=
  text.toList.head?.any isWordStart && text.toList.all isWordChar

/-- A word with spaces in front is read. -/
theorem inLine_word {text : String} (htext : isPlain text = true) (width : Nat) :
    InLine indents Ended [word (spaces width) text] := by
  intro leaves rest ws' hrest
  rw [isPlain, Bool.and_eq_true] at htext
  exact readAs_cons fun e he => first?_word he (isWord_of_all htext.1 htext.2 hrest) width

/-- A sign with spaces in front is read. -/
theorem inLine_sign {c : Char} (hc : isPoint c = true) {text : String}
    (htext : text.toList = [c]) (width : Nat) :
    InLine indents Apart [sign (spaces width) text] := by
  intro leaves rest ws' hrest
  refine readAs_cons fun e he => ?_
  simpa [sign, htext] using first?_sign hc htext he hrest width

/-- A name is read. -/
theorem Name.inLine (n : Name) (width : Nat) :
    InLine indents Ended [n.stroke (spaces width)] := by
  intro leaves rest ws' hrest
  have hfree : ∀ w ∈ grammarWords, w ∈ keywords := by decide
  exact readAs_cons fun e he => first?_name he (isWord_of_all n.head n.tail hrest)
    (fun hmem => n.free (hfree _ hmem)) width

/-- A name does not go on with a sign in front of it. -/
theorem Name.apart (n : Name) (width : Nat) (ws : List Stroke) (rest : List Char) :
    Apart (charsOf (n.stroke (spaces width) :: ws) ++ rest) := by
  cases width with
  | succ width => exact ⟨' ', _, rfl, rfl⟩
  | zero =>
    have hhead := n.head
    rw [charsOf_cons, Name.stroke]
    cases htext : n.text with
    | nil => simp [htext] at hhead
    | cons c t =>
      refine ⟨c, _, rfl, ?_⟩
      have hstart : isWordStart c = true := by simpa [htext] using hhead
      cases hc : isDoubling c with
      | false => rfl
      | true =>
        have hall : ['=', '>', '<', '*', '/'].all (fun c => !isWordStart c) = true := by decide
        have hnot := List.all_eq_true.1 hall c (List.contains_iff_mem.1 hc)
        simp [hstart] at hnot

/-- A dotted name is read, name by name and dot by dot. -/
theorem Dotted.inLine (d : Dotted) (width : Nat) :
    InLine indents Ended (d.strokes (spaces width)) := by
  have hone (n : Name) : InLine indents Ended (moreStrokes n) :=
    (inLine_sign (by decide) rfl 0).append (n.inLine 0) fun rest _ => n.apart 0 [] rest
  have hmore : InLine indents Ended (d.more.flatMap moreStrokes) :=
    .flatMap (fun n _ => hone n) fun n _ rest => ⟨'.', _, rfl, rfl⟩
  refine (d.first.inLine width).append hmore fun rest hrest => ?_
  cases d.more with
  | nil => exact hrest
  | cons n ns => exact ⟨'.', _, rfl, rfl⟩

/-- What is imported is read, with the name that it may be given. -/
theorem Entry.inLine (e : Entry) : InLine indents Ended (e.strokes space) := by
  rcases e with ⟨path, _ | n⟩
  · exact (path.inLine 1).append .nil fun _ hrest => hrest
  · have has : InLine indents Ended [word space "as", n.stroke space] :=
      (inLine_word (by decide) 1).append (n.inLine 1) fun _ _ => ⟨' ', _, rfl, rfl⟩
    exact (path.inLine 1).append has fun _ _ => ⟨' ', _, rfl, rfl⟩

private theorem inLine_entries (first : Entry) (more : List Entry) :
    InLine indents Ended (entryStrokes first more) := by
  have hone (e : Entry) : InLine indents Ended e.moreStrokes :=
    (inLine_sign (by decide) rfl 0).append e.inLine fun _ _ => ⟨' ', _, rfl, rfl⟩
  have hmore : InLine indents Ended (more.flatMap Entry.moreStrokes) :=
    .flatMap (fun e _ => hone e) fun e _ rest => ⟨',', _, rfl, rfl⟩
  refine first.inLine.append hmore fun rest hrest => ?_
  cases more with
  | nil => exact hrest
  | cons e es => exact ⟨',', _, rfl, rfl⟩

/-- The module that names are imported from is read, dots and all. -/
theorem Target.inLine : ∀ t : Target, InLine indents Ended t.strokes
  | absolute path => path.inLine 1
  | relative dots path => by
    have hgaps : ∀ gap ∈ dotGaps dots, gap = spaces 1 ∨ gap = spaces 0 := by
      intro gap hgap
      rcases List.mem_cons.1 hgap with rfl | hgap
      · exact .inl rfl
      · exact .inr (List.eq_of_mem_replicate hgap)
    have hdots : InLine indents Apart ((dotGaps dots).flatMap fun gap => [sign gap "."]) := by
      refine .flatMap (fun gap hgap => ?_) fun gap hgap rest => ?_
      · rcases hgaps gap hgap with rfl | rfl
        · exact inLine_sign (by decide) rfl 1
        · exact inLine_sign (by decide) rfl 0
      · rcases hgaps gap hgap with rfl | rfl
        · exact ⟨' ', _, rfl, rfl⟩
        · exact ⟨'.', _, rfl, rfl⟩
    cases path with
    | none => exact hdots.append .nil fun _ hrest => hrest.apart
    | some d => exact hdots.append (d.inLine 0) fun rest _ => d.first.apart 0 _ rest

/-! ## Lines -/

/-- The indentation of the open blocks at a depth as it counts, innermost first. -/
def indentsAt : Nat → List Nat
  | 0 => []
  | d + 1 => 4 * (d + 1) % 256 :: indentsAt d

/-- As many blocks are open as the depth says. -/
theorem length_indentsAt : ∀ d, (indentsAt d).length = d
  | 0 => rfl
  | d + 1 => congrArg (· + 1) (length_indentsAt d)

/-- With fewer than 64 open blocks the innermost indentation counts in full. -/
theorem current_indentsAt : ∀ {d}, d < 64 → (Nesting.blocks (indentsAt d)).current = 4 * d
  | 0, _ => rfl
  | _ + 1, hd => Nat.mod_eq_of_lt (by omega)

/-- What may stand before the first token of a line: nothing before the first line, else a line end
and the indentation. -/
def StartsLine (depth : Nat) (gap : List Char) : Prop := gap = [] ∨ gap = lineGap depth

/-- A word at the start of a line is read. -/
theorem inLine_start {depth : Nat} {gap : List Char} (hgap : StartsLine depth gap)
    (hdepth : depth < 64) {text : String} (hne : text ≠ "as") (htext : isPlain text = true) :
    InLine (indentsAt depth) Ended [word gap text] := by
  rcases hgap with rfl | rfl
  · exact inLine_word htext 0
  · intro leaves rest ws' hrest
    rw [isPlain, Bool.and_eq_true] at htext
    exact readAs_cons fun e he => first?_word_newline hne he
      (isWord_of_all htext.1 htext.2 hrest) (by omega) (current_indentsAt hdepth)

/-- An import statement is read at the start of a line of its depth. -/
theorem Line.inLine {depth : Nat} {gap : List Char} (hgap : StartsLine depth gap)
    (hdepth : depth < 64) : ∀ l : Line, InLine (indentsAt depth) Ended (l.strokes gap)
  | modules first more =>
    (inLine_start hgap hdepth (by decide) (by decide)).append (inLine_entries first more)
      fun _ _ => ⟨' ', _, rfl, rfl⟩
  | names target first more => by
    have himport : InLine (indentsAt depth) Ended
        (word space "import" :: entryStrokes first.entry (more.map Item.entry)) :=
      (inLine_word (by decide) 1).append (inLine_entries _ _) fun _ _ => ⟨' ', _, rfl, rfl⟩
    have htarget := target.inLine.append himport fun _ _ => ⟨' ', _, rfl, rfl⟩
    refine (inLine_start hgap hdepth (by decide) (by decide)).append htarget fun _ _ => ?_
    cases target <;> exact ⟨' ', _, rfl, rfl⟩
  | star target => by
    have himport : InLine (indentsAt depth) Ended [word space "import", sign space "*"] :=
      (inLine_word (by decide) 1).append
        ((inLine_sign (by decide) rfl 1).mono fun _ hrest => hrest.apart)
        fun _ _ => ⟨' ', _, rfl, rfl⟩
    have htarget := target.inLine.append himport fun _ _ => ⟨' ', _, rfl, rfl⟩
    refine (inLine_start hgap hdepth (by decide) (by decide)).append htarget fun _ _ => ?_
    cases target <;> exact ⟨' ', _, rfl, rfl⟩
  | future first more => by
    have himport : InLine (indentsAt depth) Ended
        (word space "import" :: entryStrokes first.entry (more.map Item.entry)) :=
      (inLine_word (by decide) 1).append (inLine_entries _ _) fun _ _ => ⟨' ', _, rfl, rfl⟩
    have hfuture : InLine (indentsAt depth) Ended (word space "__future__" ::
        word space "import" :: entryStrokes first.entry (more.map Item.entry)) :=
      (inLine_word (by decide) 1).append himport fun _ _ => ⟨' ', _, rfl, rfl⟩
    exact (inLine_start hgap hdepth (by decide) (by decide)).append hfuture
      fun _ _ => ⟨' ', _, rfl, rfl⟩

/-- What opens a block is read at the start of a line of its depth. -/
theorem Opening.inLine {depth : Nat} {gap : List Char} (hgap : StartsLine depth gap)
    (hdepth : depth < 64) (name : Name) :
    ∀ o : Opening, InLine (indentsAt depth) Ended (o.strokes gap name) := by
  have hcolon : InLine (indentsAt depth) Ended [sign [] ":"] :=
    (inLine_sign (by decide) rfl 0).mono fun _ hrest => hrest.apart
  have hname : InLine (indentsAt depth) Ended [name.stroke space, sign [] ":"] :=
    (name.inLine 1).append hcolon fun _ _ => ⟨':', _, rfl, rfl⟩
  rintro (_ | _ | _)
  · exact (inLine_start hgap hdepth (by decide) (by decide)).append hname
      fun _ _ => ⟨' ', _, rfl, rfl⟩
  · have hclose : InLine (indentsAt depth) Ended [sign [] ")", sign [] ":"] :=
      (inLine_sign (by decide) rfl 0).append hcolon fun _ _ => ⟨':', _, rfl, rfl⟩
    have hopen : InLine (indentsAt depth) Ended [sign [] "(", sign [] ")", sign [] ":"] :=
      (inLine_sign (by decide) rfl 0).append hclose fun _ _ => ⟨')', _, rfl, rfl⟩
    have hcall : InLine (indentsAt depth) Ended
        [name.stroke space, sign [] "(", sign [] ")", sign [] ":"] :=
      (name.inLine 1).append hopen fun _ _ => ⟨'(', _, rfl, rfl⟩
    exact (inLine_start hgap hdepth (by decide) (by decide)).append hcall
      fun _ _ => ⟨' ', _, rfl, rfl⟩
  · exact (inLine_start hgap hdepth (by decide) (by decide)).append hname
      fun _ _ => ⟨' ', _, rfl, rfl⟩

/-! ## Statements -/

/-- A line end ends a word. -/
theorem ended_of_lineEnd {width : Nat} {s : List Char} (h : LineEnd width s) : Ended s := by
  cases h with
  | token _ width s => exact ⟨'\n', _, rfl, rfl⟩
  | finish => exact ⟨'\n', [], rfl, rfl⟩

/-- The words that a statement begins with. -/
def openers : List String := ["import", "from", "if", "def", "class"]

/-- A statement begins with one of a few words. -/
theorem Statement.strokes_eq_cons (gap : List Char) (depth : Nat) (s : Statement) :
    ∃ text ∈ openers, ∃ ws, s.strokes gap depth = word gap text :: ws := by
  cases s with
  | line l => cases l <;> exact ⟨_, by decide, _, rfl⟩
  | block opening name body => cases opening <;> exact ⟨_, by decide, _, rfl⟩

/-- Statements in a row begin with one of a few words. -/
theorem Body.strokes_eq_cons (gap : List Char) (depth : Nat) (b : Body) :
    ∃ text ∈ openers, ∃ ws, b.strokes gap depth = word gap text :: ws := by
  cases b with
  | one s => exact s.strokes_eq_cons gap depth
  | more s rest =>
    obtain ⟨text, htext, ws, heq⟩ := s.strokes_eq_cons gap depth
    exact ⟨text, htext, _, by rw [strokes, heq, List.cons_append]⟩

/-- No byte order mark stands in front of statements. -/
theorem Body.head?_charsOf_ne (b : Body) (rest : List Char) :
    (charsOf (b.strokes [] 0) ++ rest).head? ≠ some '\ufeff' := by
  have hall : ∀ text ∈ openers, ∀ rest, (text.toList ++ rest).head? ≠ some '\ufeff' := by
    simp [openers]
  obtain ⟨text, htext, ws, heq⟩ := b.strokes_eq_cons [] 0
  rw [heq, charsOf_cons, word, List.nil_append, List.append_assoc]
  exact hall text htext _

/-- In front of statements that are not the first stands a line end. -/
theorem lineEnd_body (depth : Nat) (rest : List Char) (b : Body) :
    LineEnd (4 * depth) (charsOf (b.strokes (lineGap depth) depth) ++ rest) := by
  obtain ⟨text, htext, ws, heq⟩ := b.strokes_eq_cons (lineGap depth) depth
  have hall : ∀ text ∈ openers, text.toList.head?.any isVisible = true := by decide
  have hvisible := hall text htext
  rw [heq, charsOf_cons, word]
  cases hlist : text.toList with
  | nil => simp [hlist] at hvisible
  | cons c t =>
    have hc : isVisible c = true := by simpa [hlist] using hvisible
    simpa [lineGap, indentation, spaces] using
      LineEnd.token hc (4 * depth) (t ++ (charsOf ws ++ rest))

/-- What opens a block is read in front of the first line of the block, and the block opens. -/
theorem Opening.readAs {depth : Nat} {gap rest : List Char} (hgap : StartsLine depth gap)
    (hdepth : depth < 64) (hrest : LineEnd (4 * (depth + 1)) rest)
    (h : ReadAs leaves (.blocks (indentsAt (depth + 1))) rest ws) (name : Name) (o : Opening) :
    ReadAs leaves (.blocks (indentsAt depth)) (charsOf (o.strokes gap name) ++ rest)
      (o.strokes gap name ++ mark .indent :: ws) := by
  have hindent : ReadAs leaves (.blocks (indentsAt depth)) rest (mark .indent :: ws) := by
    refine .cons _ ⟨rfl, rfl, rfl⟩ (fun e he => first?_indent he hrest (by omega) ?_ ?_) h
    · rw [current_indentsAt hdepth]
      omega
    · rw [length_indentsAt]
      omega
  exact Opening.inLine hgap hdepth name o _ _ _ (ended_of_lineEnd hrest) hindent

mutual

/-- A statement is read in front of a line end that does not open a block. -/
theorem Statement.readAs {depth : Nat} {gap rest : List Char} {ws : List Stroke}
    (hgap : StartsLine depth gap) {width : Nat} (hrest : LineEnd width rest)
    (hwidth : width ≤ 4 * depth) (h : ReadAs leaves (.blocks (indentsAt depth)) rest ws) :
    ∀ s : Statement, depth + s.depth < 64 → ReadAs leaves (.blocks (indentsAt depth))
      (charsOf (s.strokes gap depth) ++ rest) (s.strokes gap depth ++ ws)
  | .line l, hdepth => by
    rw [Statement.strokes, charsOf_append, List.append_assoc, List.append_assoc]
    have hmark : ReadAs leaves (.blocks (indentsAt depth)) rest (mark .newline :: ws) :=
      .cons _ ⟨rfl, rfl, rfl⟩ (fun e he => first?_newline he hrest) h
    exact Line.inLine hgap (by omega) l _ _ _ (ended_of_lineEnd hrest) hmark
  | .block opening name body, hdepth => by
    rw [Statement.depth] at hdepth
    have hdedent : ReadAs leaves (.blocks (indentsAt (depth + 1))) rest (mark .dedent :: ws) :=
      .cons _ ⟨rfl, rfl, rfl⟩ (fun e he => first?_dedent he hrest (by omega) (by omega)) h
    have hbody := Body.readAs (.inr rfl) hrest (by omega) hdedent body (by omega)
    have hopening := opening.readAs hgap (by omega) (lineEnd_body (depth + 1) rest body) hbody name
    simpa [Statement.strokes, charsOf_append, charsOf_cons, mark, charsOf] using hopening

/-- Statements are read in front of a line end that does not open a block. -/
theorem Body.readAs {depth : Nat} {gap rest : List Char} {ws : List Stroke}
    (hgap : StartsLine depth gap) {width : Nat} (hrest : LineEnd width rest)
    (hwidth : width ≤ 4 * depth) (h : ReadAs leaves (.blocks (indentsAt depth)) rest ws) :
    ∀ b : Body, depth + b.depth < 64 → ReadAs leaves (.blocks (indentsAt depth))
      (charsOf (b.strokes gap depth) ++ rest) (b.strokes gap depth ++ ws)
  | .one s, hdepth => Statement.readAs hgap hrest hwidth h s hdepth
  | .more s rest', hdepth => by
    rw [Body.depth] at hdepth
    have hmore := Body.readAs (.inr rfl) hrest hwidth h rest' (by omega)
    rw [Body.strokes, charsOf_append, List.append_assoc, List.append_assoc]
    exact Statement.readAs hgap (lineEnd_body depth rest rest') (Nat.le_refl _) hmore s (by omega)

end

/-! ## Scripts -/

/-- The written form of the end of a script. -/
def finish : Stroke := ⟨.finish, ['\n'], []⟩

/-- The characters of statements and a line end are read as the statements and the end. -/
theorem readAs_body (b : Body) (hdepth : b.depth < 64) :
    ReadAs AllRead .none (charsOf (b.strokes [] 0) ++ ['\n']) (b.strokes [] 0 ++ [finish]) := by
  have hfinish : ReadAs AllRead (.blocks (indentsAt 0)) ['\n'] [finish] :=
    .cons _ ⟨rfl, rfl, rfl⟩ (fun e he => first?_finish he) rfl
  exact Body.readAs (.inl rfl) .finish (Nat.le_refl _) hfinish b (by omega)

end ScriptDeps.ImportScript
