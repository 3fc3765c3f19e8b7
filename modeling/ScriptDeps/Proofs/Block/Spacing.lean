import ScriptDeps.Proofs.Block.Reading
import ScriptDeps.Text.Split

/-!
# Line endings and indentation

Markers are told by their visible characters, and what a block says is read from its lines without
the blanks in front of them. So neither a carriage return before every newline nor blanks in front
of any lines move the block of a script to other lines or change what it says. Main statement:
`Block.readsAlike_respaced`.
-/

namespace ScriptDeps

namespace Text

variable {ending : List Char} {parts : List (List Char)}

/-! ## Texts put together from their lines -/

/-- A text that is split has at least one part. -/
theorem splitOn_ne_nil (sep : Char) (s : List Char) : splitOn sep s ≠ [] := by
  cases s with
  | nil => exact List.cons_ne_nil _ _
  | cons c s =>
    unfold splitOn splitWhere
    split
    · exact List.cons_ne_nil _ _
    · split <;> exact List.cons_ne_nil _ _

/-- The parts of a text with the separator put back between each two are the text. -/
theorem joinWith_splitOn (sep : Char) (s : List Char) : joinWith [sep] (splitOn sep s) = s := by
  induction s with
  | nil => rfl
  | cons c s ih =>
    have hne := splitOn_ne_nil sep s
    unfold splitOn at ih hne ⊢
    by_cases hc : c = sep
    · simp only [splitWhere, hc, beq_self_eq_true, if_true, joinWith_cons hne, ih, List.nil_append,
        List.singleton_append]
    · cases hparts : splitWhere (· == sep) s with
      | nil => exact absurd hparts hne
      | cons part parts =>
        rw [hparts] at ih
        simp only [splitWhere, beq_eq_false_iff_ne.2 hc, Bool.false_eq_true, if_false, hparts]
        cases parts with
        | nil => simpa [joinWith] using ih
        | cons next parts =>
          rw [joinWith_cons (List.cons_ne_nil _ _)] at ih ⊢
          rw [← ih, List.cons_append, List.cons_append]

/-- Every character of a part stands in the joined text. -/
theorem mem_joinWith {sep part : List Char} (h : part ∈ parts) {c : Char} (hc : c ∈ part) :
    c ∈ joinWith sep parts := by
  induction parts with
  | nil => exact absurd h List.not_mem_nil
  | cons first parts ih =>
    cases parts with
    | nil =>
      obtain rfl := List.mem_singleton.1 h
      simpa [joinWith] using hc
    | cons next parts =>
      rw [joinWith_cons (List.cons_ne_nil _ _)]
      rcases List.mem_cons.1 h with rfl | h
      · exact List.mem_append_left _ (List.mem_append_left _ hc)
      · exact List.mem_append_right _ (ih h)

/-- Every character of a part stands in the text that was split. -/
theorem mem_of_mem_splitOn {sep c : Char} {s part : List Char} (h : part ∈ splitOn sep s)
    (hc : c ∈ part) : c ∈ s :=
  joinWith_splitOn sep s ▸ mem_joinWith h hc

/-- The ending of a line: a newline, or a carriage return and a newline. -/
def IsEnding (ending : List Char) : Prop := ending = ['\n'] ∨ ending = ['\r', '\n']

/-- Of parts without newlines each is a line with its ending, but for the last, which has none and
is a line only if it is not empty. -/
theorem getElem?_lines_joinWith (hending : IsEnding ending) (hparts : ∀ part ∈ parts, '\n' ∉ part)
    (k : Nat) : (lines (joinWith ending parts))[k]? =
      (parts[k]?.map fun part => if k + 1 < parts.length then part ++ ending else part).filter
        (!·.isEmpty) := by
  induction parts generalizing k with
  | nil => rfl
  | cons part parts ih =>
    have hpart := hparts part List.mem_cons_self
    cases parts with
    | nil =>
      have hjoin : joinWith ending [part] = part := by simp [joinWith]
      rw [hjoin]
      by_cases hne : part = []
      · subst hne
        cases k <;> rfl
      · rw [lines_of_not_mem hpart hne]
        cases k <;> simp [Option.filter_some, hne]
    | cons next parts =>
      have hlines : lines (joinWith ending (part :: next :: parts)) =
          (part ++ ending) :: lines (joinWith ending (next :: parts)) := by
        rw [joinWith_cons (List.cons_ne_nil _ _)]
        rcases hending with rfl | rfl
        · rw [List.append_assoc, List.singleton_append, lines_append_newline hpart]
        · have hreturn : '\n' ∉ part ++ ['\r'] := by simpa using hpart
          have h := lines_append_newline hreturn (joinWith ['\r', '\n'] (next :: parts))
          simpa using h
      have hne : part ++ ending ≠ [] := by rcases hending with rfl | rfl <;> simp
      rw [hlines]
      cases k with
      | zero => simp [Option.filter_some, hne]
      | succ k =>
        rw [List.getElem?_cons_succ, ih fun p hp => hparts p (List.mem_cons_of_mem _ hp)]
        simp

/-- A line that is not the last one has its ending. -/
theorem getElem?_lines_joinWith_of_lt (hending : IsEnding ending)
    (hparts : ∀ part ∈ parts, '\n' ∉ part) {k : Nat} (hk : k + 1 < parts.length) :
    (lines (joinWith ending parts))[k]? = parts[k]?.map (· ++ ending) := by
  have hpart : parts[k]? = some parts[k] := List.getElem?_eq_getElem (by omega)
  have hne : parts[k] ++ ending ≠ [] := by rcases hending with rfl | rfl <;> simp
  rw [getElem?_lines_joinWith hending hparts, hpart]
  simp [hk, Option.filter_some, hne]

/-- A line without its ending is what stood in front of the ending. -/
theorem dropEnding_append (hending : IsEnding ending) {part : List Char} (hreturn : '\r' ∉ part) :
    dropEnding (part ++ ending) = part := by
  rcases hending with rfl | rfl
  · exact dropEnding_append_newline hreturn
  · simpa using dropEnding_carriageReturn part

/-! ## Blanks around a line -/

/-- An ending is trimmed away. -/
theorem trim_append_ending (hending : IsEnding ending) (part : List Char) :
    trim (part ++ ending) = trim part := by
  have hnewline : isBlank '\n' = true := by decide
  have hreturn : isBlank '\r' = true := by decide
  rcases hending with rfl | rfl
  · exact trim_append_blank hnewline part
  · have hparts : part ++ ['\r', '\n'] = part ++ ['\r'] ++ ['\n'] := by simp
    rw [hparts, trim_append_blank hnewline, trim_append_blank hreturn]

/-- Blanks and tabs in front of a line. -/
def IsIndent (indent : List Char) : Prop := ∀ c ∈ indent, c = ' ' ∨ c = '\t'

/-- An indentation is blank. -/
theorem IsIndent.isBlank {indent : List Char} (h : IsIndent indent) :
    ∀ c ∈ indent, isBlank c = true := by
  intro c hc
  rcases h c hc with rfl | rfl <;> decide

/-- An indentation has no characters but spaces and tabs. -/
theorem IsIndent.notMem {indent : List Char} (h : IsIndent indent) {c : Char} (hblank : c ≠ ' ')
    (htab : c ≠ '\t') : c ∉ indent := by
  intro hc
  rcases h c hc with rfl | rfl <;> contradiction

/-- A text with other line endings and other indentation: each line of `content` stands behind its
`indent`, and `ending` stands between each two. -/
def respaced (ending : List Char) (indent : Nat → List Char) (content : List Char) : List Char :=
  joinWith ending ((splitOn '\n' content).mapIdx fun i line => indent i ++ line)

/-- The lines of a text have no line end in them. -/
theorem newline_not_mem_splitOn (s : List Char) : ∀ part ∈ splitOn '\n' s, '\n' ∉ part := by
  intro part hpart hmem
  simpa using not_separates_of_mem_splitWhere part hpart _ hmem

/-- Indented lines have no line end in them. -/
theorem newline_not_mem_indented {indent : Nat → List Char} (hindent : ∀ i, IsIndent (indent i))
    {content : List Char} :
    ∀ part ∈ (splitOn '\n' content).mapIdx fun i line => indent i ++ line, '\n' ∉ part := by
  intro part hpart
  obtain ⟨i, hi, rfl⟩ := List.mem_mapIdx.1 hpart
  rw [List.mem_append, not_or]
  exact ⟨(hindent i).notMem (by decide) (by decide),
    newline_not_mem_splitOn content _ (List.getElem_mem hi)⟩

end Text

namespace Block

open Text

variable {content other ending : List Char} {indent : Nat → List Char} {parts : List (List Char)}
  {i j k : Nat}

/-! ## Markers -/

/-- A test of lines that looks at their visible characters alone, and that the empty line fails. -/
structure SeesVisible (test : List Char → Bool) : Prop where
  /-- What stands around the visible characters does not matter. -/
  congr : ∀ a b, trim a = trim b → test a = test b
  /-- Nothing is seen in an empty line. -/
  nil : test [] = false

/-- The opening marker is told by its visible characters. -/
theorem seesVisible_isOpen : SeesVisible isOpen where
  congr a b h := by rw [isOpen, isOpen, commentBody?, commentBody?, h]
  nil := by decide

/-- The closing marker is told by its visible characters. -/
theorem seesVisible_isClose : SeesVisible isClose where
  congr a b h := by rw [isClose, isClose, commentBody?, commentBody?, h]
  nil := by decide

/-- The lines that pass such a test can be told from the parts that a text is put together from. -/
theorem SeesVisible.exists_line_iff {test : List Char → Bool} (h : SeesVisible test)
    (hending : IsEnding ending) (hparts : ∀ part ∈ parts, '\n' ∉ part) :
    (∃ line, (lines (joinWith ending parts))[k]? = some line ∧ test line = true) ↔
      ∃ part, parts[k]? = some part ∧ test part = true := by
  rw [getElem?_lines_joinWith hending hparts]
  cases parts[k]? with
  | none => simp
  | some part =>
    have htest : test (if k + 1 < parts.length then part ++ ending else part) = test part := by
      split
      · exact h.congr _ _ (trim_append_ending hending part)
      · rfl
    rw [Option.map_some, Option.filter_some]
    generalize (if k + 1 < parts.length then part ++ ending else part) = line at htest
    by_cases hne : line = []
    · subst hne
      rw [h.nil] at htest
      simp [← htest]
    · simp [hne, htest]

/-- Indentation and line endings do not matter to such a test. -/
theorem SeesVisible.exists_line_respaced_iff {test : List Char → Bool} (h : SeesVisible test)
    (hending : IsEnding ending) (hindent : ∀ i, IsIndent (indent i)) :
    (∃ line, (lines (respaced ending indent content))[k]? = some line ∧ test line = true) ↔
      ∃ line, (lines content)[k]? = some line ∧ test line = true := by
  have hindented (part : List Char) : test (indent k ++ part) = test part :=
    h.congr _ _ (by rw [trim, trimStart_append (hindent k).isBlank, trim])
  have hsame := h.exists_line_iff (k := k) (.inl rfl) (newline_not_mem_splitOn content)
  rw [joinWith_splitOn] at hsame
  rw [hsame, respaced, h.exists_line_iff hending (newline_not_mem_indented hindent),
    List.getElem?_mapIdx]
  simp [hindented]

/-! ## Spans -/

/-- Texts with the same marker lines have the same spans. -/
theorem spans_congr (hopens : ∀ k, OpensAt other k ↔ OpensAt content k)
    (hcloses : ∀ k, ClosesAt other k ↔ ClosesAt content k) :
    Spans other i j ↔ Spans content i j := by
  constructor
  · rintro ⟨h₁, h₂, h₃, h₄, h₅⟩
    exact ⟨(hopens i).1 h₁, fun k hk h => h₂ k hk ((hopens k).2 h), h₃, (hcloses j).1 h₄,
      fun k hi hj h => h₅ k hi hj ((hcloses k).2 h)⟩
  · rintro ⟨h₁, h₂, h₃, h₄, h₅⟩
    exact ⟨(hopens i).2 h₁, fun k hk h => h₂ k hk ((hopens k).1 h), h₃, (hcloses j).2 h₄,
      fun k hi hj h => h₅ k hi hj ((hcloses k).1 h)⟩

/-- The block of a script with a span says what the lines strictly between its markers say. -/
theorem body_block_of_spans (h : Spans content i j) :
    body (split content).block = .ok (joinWith ['\n']
      ((((lines content).take j).drop (i + 1)).map fun line => uncomment (dropEnding line))) := by
  have hlt := h.lt
  obtain ⟨hfront, hlines⟩ := spans_flatten h
  have hinner : ((((lines content).take (j + 1)).drop i).take (j - i)).drop 1 =
      ((lines content).take j).drop (i + 1) := by
    rw [List.take_drop, List.take_take, List.drop_drop]
    congr 2
    omega
  rw [split_of_spans h, body_of_spans hfront, innerText, hlines, hinner]

/-! ## Lines of a range -/

/-- The block that is found runs from line `i` to line `j`. -/
def Selects (content : List Char) (i j : Nat) : Prop :=
  i ≤ j ∧ j < (lines content).length ∧
    find? content = some ⟨lineStart content i, lineStart content (j + 1)⟩

/-- Every line begins behind the one before it. -/
theorem lineStart_lt_succ (hi : i < (lines content).length) :
    lineStart content i < lineStart content (i + 1) := by
  have hline : 0 < byteLength (lines content)[i] :=
    byteLength_pos (ne_nil_of_mem_lines (List.getElem_mem hi))
  rw [lineStart, lineStart, List.take_succ_eq_append_getElem hi, List.flatten_append,
    byteLength_append, List.flatten_singleton]
  omega

/-- Every line begins behind those before it. -/
theorem lineStart_lt_lineStart (hij : i < j) (hj : j ≤ (lines content).length) :
    lineStart content i < lineStart content j := by
  induction j, hij using Nat.le_induction with
  | base => exact lineStart_lt_succ hj
  | succ j _ ih => exact (ih (by omega)).trans (lineStart_lt_succ hj)

/-- Two lines that begin at the same place are one. -/
theorem lineStart_inj (hi : i ≤ (lines content).length) (hj : j ≤ (lines content).length)
    (h : lineStart content i = lineStart content j) : i = j := by
  rcases Nat.lt_trichotomy i j with hlt | heq | hgt
  · exact absurd h (lineStart_lt_lineStart hlt hj).ne
  · exact heq
  · exact absurd h (lineStart_lt_lineStart hgt hi).ne'

/-- The block that is found runs between the lines of its markers. -/
theorem selects_iff : Selects content i j ↔ Spans content i j := by
  constructor
  · rintro ⟨hij, hj, hfound⟩
    obtain ⟨i', j', hspans, hrange⟩ := find?_eq_some_iff.1 hfound
    obtain ⟨hstart, hstop⟩ := Range.mk.inj hrange
    obtain ⟨line, hline, -⟩ := hspans.closes
    have hj' := (List.getElem?_eq_some_iff.1 hline).1
    have hlt := hspans.lt
    obtain rfl : i = i' := lineStart_inj (by omega) (by omega) hstart
    obtain rfl : j = j' := Nat.succ_inj.1 (lineStart_inj (by omega) (by omega) hstop)
    exact hspans
  · intro h
    obtain ⟨line, hline, -⟩ := h.closes
    exact ⟨h.lt.le, (List.getElem?_eq_some_iff.1 hline).1, find?_of_spans h⟩

/-- There is a block if there are two such lines. -/
theorem isPresent_iff : isPresent content = true ↔ ∃ i j, Spans content i j := by
  rw [isPresent, Option.isSome_iff_exists]
  constructor
  · rintro ⟨r, hr⟩
    obtain ⟨i, j, h, -⟩ := find?_eq_some_iff.1 hr
    exact ⟨i, j, h⟩
  · rintro ⟨i, j, h⟩
    exact ⟨_, find?_of_spans h⟩

/-- Where there is no block, nothing is cut out. -/
theorem block_of_not_isPresent (h : isPresent content = false) : (split content).block = [] := by
  rw [← hasBlock_eq_isPresent] at h
  simpa [Split.hasBlock] using h

/-! ## What a block says -/

/-- Blanks in front of a line of a block do not matter. -/
theorem uncomment_indented {indent : List Char} (h : IsIndent indent) (line : List Char) :
    uncomment (indent ++ line) = uncomment line := by
  rw [uncomment, uncomment, trimStart_append h.isBlank]

/-- A line behind which another one stands says the same in other spacing. -/
theorem uncomment_respaced (hreturn : '\r' ∉ content) (hending : IsEnding ending)
    (hindent : ∀ i, IsIndent (indent i)) (hk : k + 1 < (splitOn '\n' content).length) :
    ((lines (respaced ending indent content))[k]?.map fun line => uncomment (dropEnding line)) =
      (lines content)[k]?.map fun line => uncomment (dropEnding line) := by
  have hpart : (splitOn '\n' content)[k]? = some (splitOn '\n' content)[k] :=
    List.getElem?_eq_getElem (by omega)
  have hmem : (splitOn '\n' content)[k] ∈ splitOn '\n' content := List.getElem_mem _
  generalize (splitOn '\n' content)[k] = part at hpart hmem
  have hpart' : '\r' ∉ part := fun h => hreturn (mem_of_mem_splitOn hmem h)
  have hindented : '\r' ∉ indent k ++ part := by
    rw [List.mem_append, not_or]
    exact ⟨(hindent k).notMem (by decide) (by decide), hpart'⟩
  have hplain : (lines content)[k]? = some (part ++ ['\n']) := by
    have h := getElem?_lines_joinWith_of_lt (.inl rfl) (newline_not_mem_splitOn content) hk
    rwa [joinWith_splitOn, hpart] at h
  have hspaced : (lines (respaced ending indent content))[k]? =
      some (indent k ++ part ++ ending) := by
    rw [respaced, getElem?_lines_joinWith_of_lt hending (newline_not_mem_indented hindent)
      (by simpa using hk), List.getElem?_mapIdx, hpart]
    rfl
  rw [hplain, hspaced, Option.map_some, Option.map_some, dropEnding_append hending hindented,
    dropEnding_append_newline hpart', uncomment_indented (hindent k)]

/-! ## Main statement -/

/-- Two scripts have their blocks on the same lines, and the blocks say the same. -/
structure ReadsAlike (content other : List Char) : Prop where
  /-- Both have a block or neither has one. -/
  found : isPresent other = isPresent content
  /-- The blocks run over lines of the same numbers. -/
  selects : ∀ i j, Selects other i j ↔ Selects content i j
  /-- The same text is read in the TOML format. -/
  body : body (split other).block = body (split content).block
  /-- The same is read from the blocks, if anything is. -/
  read : Metadata.ofBlock (split other).block = Metadata.ofBlock (split content).block
  /-- Nothing but what the block says can make reading it fail. -/
  fails : isPresent content = true → ∀ e, Metadata.ofBlock (split content).block = .error e →
    e = .malformed

/-- Spacing does not move the lines of opening markers. -/
theorem opensAt_respaced (hending : IsEnding ending) (hindent : ∀ i, IsIndent (indent i))
    (k : Nat) : OpensAt (respaced ending indent content) k ↔ OpensAt content k :=
  seesVisible_isOpen.exists_line_respaced_iff hending hindent

/-- Spacing does not move the lines of closing markers. -/
theorem closesAt_respaced (hending : IsEnding ending) (hindent : ∀ i, IsIndent (indent i))
    (k : Nat) : ClosesAt (respaced ending indent content) k ↔ ClosesAt content k :=
  seesVisible_isClose.exists_line_respaced_iff hending hindent

/-- Spacing does not move the lines from which and to which a block goes. -/
theorem spans_respaced_iff (hending : IsEnding ending) (hindent : ∀ i, IsIndent (indent i)) :
    Spans (respaced ending indent content) i j ↔ Spans content i j :=
  spans_congr (opensAt_respaced hending hindent) (closesAt_respaced hending hindent)

/-- The block of a script, found again in other spacing, says the same. -/
theorem body_respaced_of_spans (hreturn : '\r' ∉ content) (hending : IsEnding ending)
    (hindent : ∀ i, IsIndent (indent i)) (h : Spans content i j) :
    body (split (respaced ending indent content)).block = body (split content).block := by
  have hj : j < (splitOn '\n' content).length := by
    obtain ⟨line, hline, hclose⟩ := h.closes
    have hsame := seesVisible_isClose.exists_line_iff (k := j) (.inl rfl)
      (newline_not_mem_splitOn content)
    rw [joinWith_splitOn] at hsame
    obtain ⟨part, hpart, -⟩ := hsame.1 ⟨line, hline, hclose⟩
    exact (List.getElem?_eq_some_iff.1 hpart).1
  rw [body_block_of_spans h, body_block_of_spans ((spans_respaced_iff hending hindent).2 h)]
  congr 2
  refine List.ext_getElem? fun m => ?_
  simp only [List.getElem?_map, List.getElem?_drop, List.getElem?_take]
  split
  · exact uncomment_respaced hreturn hending hindent (by omega)
  · rfl

/-- In other spacing the block of a script without carriage returns is found on the same lines and
says the same: neither a carriage return in front of every newline matters nor blanks and tabs in
front of any lines, that behind the last newline included. -/
theorem readsAlike_respaced (hreturn : '\r' ∉ content) (hending : IsEnding ending)
    (hindent : ∀ i, IsIndent (indent i)) : ReadsAlike content (respaced ending indent content) := by
  have hspans (i j : Nat) : Spans (respaced ending indent content) i j ↔ Spans content i j :=
    spans_respaced_iff hending hindent
  have hfound : isPresent (respaced ending indent content) = isPresent content := by
    rw [Bool.eq_iff_iff, isPresent_iff, isPresent_iff]
    simp only [hspans]
  have hbody : body (split (respaced ending indent content)).block =
      body (split content).block := by
    cases hpresent : isPresent content with
    | false => rw [block_of_not_isPresent hpresent, block_of_not_isPresent (hfound.trans hpresent)]
    | true =>
      obtain ⟨i, j, h⟩ := isPresent_iff.1 hpresent
      exact body_respaced_of_spans hreturn hending hindent h
  refine ⟨hfound, fun i j => ?_, hbody, ?_, fun hpresent e he => ?_⟩
  · rw [selects_iff, selects_iff, hspans]
  · rw [Metadata.ofBlock, Metadata.ofBlock, hbody]
  · obtain ⟨i, j, h⟩ := isPresent_iff.1 hpresent
    rw [split_of_spans h] at he
    cases e with
    | missing m => exact absurd he (ofBlock_ne_missing (spans_flatten h).1 m)
    | malformed => rfl

/-- A block with an empty line and a string over three lines, two of which are no comments, behind
tabs and with carriage returns. -/
theorem readsAlike_respaced_string :
    let content := "x\n# /// script\n\nrequires-python = \"\"\"\n  #  >=3\n\"\"\"\n #///\n".toList
    let indent := fun i => List.replicate (i % 3) '\t'
    let other := respaced ['\r', '\n'] indent content
    other = ("x\r\n\t# /// script\r\n\t\t\r\nrequires-python = \"\"\"\r\n" ++
        "\t  #  >=3\r\n\t\t\"\"\"\r\n #///\r\n\t").toList ∧
      '\r' ∉ content ∧ IsEnding ['\r', '\n'] ∧ (∀ i, IsIndent (indent i)) ∧ Selects content 1 6 ∧
      Selects other 1 6 ∧ Metadata.ofBlock (split other).block = .ok ⟨some " >=3\n", []⟩ := by
  intro content indent other
  have hreturn : '\r' ∉ content := by decide
  have hindent : ∀ i, IsIndent (indent i) := fun i c hc => .inr (List.eq_of_mem_replicate hc)
  have halike := readsAlike_respaced hreturn (.inr rfl) hindent
  have hselects : Selects content 1 6 := ⟨by decide, by decide, by decide⟩
  have hread : Metadata.ofBlock (split content).block = .ok ⟨some " >=3\n", []⟩ := by
    decide +kernel
  exact ⟨by decide +kernel, hreturn, .inr rfl, hindent, hselects,
    (halike.selects 1 6).2 hselects, halike.read.trans hread⟩

end Block

end ScriptDeps
