import ScriptDeps.Proofs.Block.Scanning

/-!
# Reading a block where it is found

A block is read by its lines without their endings, and found by its lines with them. Both tell
the same lines as markers: a text can be read as a block exactly where a block is found at its
start, and nothing behind that block matters to what is read. Main statement:
`ofBlock_eq_missing_iff`.
-/

namespace ScriptDeps.Block

open ScriptDeps.Text

variable {block content : List Char} {i j : Nat}

/-! ## Markers without line endings -/

/-- The ending of a line is blank. -/
private theorem trim_dropEnding (line : List Char) : trim (dropEnding line) = trim line := by
  have hnewline : isBlank '\n' = true := by decide
  have hreturn : isBlank '\r' = true := by decide
  unfold dropEnding
  split
  · next rest h =>
    have hline : line = rest.reverse ++ ['\r'] ++ ['\n'] := by
      rw [← List.reverse_reverse line, h, List.reverse_cons, List.reverse_cons]
    rw [hline, trim_append_blank hnewline, trim_append_blank hreturn]
  · next rest _ h =>
    have hline : line = rest.reverse ++ ['\n'] := by
      rw [← List.reverse_reverse line, h, List.reverse_cons]
    rw [hline, trim_append_blank hnewline]
  · rfl

/-- A line opens a block whether or not it has its ending. -/
theorem isOpen_dropEnding (line : List Char) : isOpen (dropEnding line) = isOpen line := by
  rw [isOpen, isOpen, commentBody?, commentBody?, trim_dropEnding]

/-- A line closes a block whether or not it has its ending. -/
theorem isClose_dropEnding (line : List Char) : isClose (dropEnding line) = isClose line := by
  rw [isClose, isClose, commentBody?, commentBody?, trim_dropEnding]

private theorem cutAt_eq_none {α : Type} {p : α → Bool} {l : List α} (h : ∀ a ∈ l, p a = false) :
    cutAt p l = none := by
  rw [Option.eq_none_iff_forall_ne_some]
  intro ⟨before, a, after⟩ hcut
  obtain ⟨rfl, -, ha⟩ := cutAt_eq_some_iff.1 hcut
  exact absurd ha (by simp [h a (by simp)])

/-! ## What is read -/

/-- What the lines strictly between the first one and line `j` say, without their comment signs. -/
def innerText (block : List Char) (j : Nat) : List Char :=
  joinWith ['\n'] ((((lines block).take j).drop 1).map fun line => uncomment (dropEnding line))

/-- A text whose first line opens no block lacks its opening marker. -/
theorem body_of_not_opensAt (h : ¬OpensAt block 0) :
    body block = .error (.missing .opening) := by
  unfold body bareLines
  cases hlines : lines block with
  | nil => rfl
  | cons first rest =>
    have hfirst : ¬isOpen first = true := fun hopen => h ⟨first, by simp [hlines], hopen⟩
    simp [isOpen_dropEnding, hfirst]

/-- A text whose first line opens a block that no later line closes lacks its closing marker. -/
theorem body_of_unclosed (hopens : OpensAt block 0) (hnone : ∀ j, 0 < j → ¬ClosesAt block j) :
    body block = .error (.missing .closing) := by
  obtain ⟨first, hfirst, hopen⟩ := hopens
  unfold body bareLines
  cases hlines : lines block with
  | nil => simp [hlines] at hfirst
  | cons line rest =>
    obtain rfl : line = first := by simpa [hlines] using hfirst
    have hrest : cutAt isClose (rest.map dropEnding) = none := by
      refine cutAt_eq_none fun bare hbare => ?_
      obtain ⟨l, hl, rfl⟩ := List.mem_map.1 hbare
      obtain ⟨k, hk⟩ := List.mem_iff_getElem?.1 hl
      rw [isClose_dropEnding]
      simpa using fun hclose => hnone (k + 1) (by omega) ⟨l, by simp [hlines, hk], hclose⟩
    simp [isOpen_dropEnding, hopen, hrest]

/-- Of a text with a block at its start the lines between the markers are read. -/
theorem body_of_spans (h : Spans block 0 j) : body block = .ok (innerText block j) := by
  obtain ⟨before, opening, inner, closing, after, hall, hbefore, hj, -, hopen, hinner, hclose⟩ :=
    spans_iff.1 h
  obtain rfl := List.length_eq_zero_iff.1 hbefore
  have hlines : lines block = opening :: (inner ++ closing :: after) := hall
  have htake : ((lines block).take j).drop 1 = inner := by
    obtain rfl : j = inner.length + 1 := by omega
    simp [hlines]
  have hcut : cutAt isClose ((inner ++ closing :: after).map dropEnding) =
      some (inner.map dropEnding, dropEnding closing, after.map dropEnding) := by
    refine cutAt_eq_some_iff.2 ⟨by simp, fun bare hbare => ?_, ?_⟩
    · obtain ⟨l, hl, rfl⟩ := List.mem_map.1 hbare
      rw [isClose_dropEnding, hinner l hl]
    · rw [isClose_dropEnding, hclose]
  rw [innerText, htake, body, bareLines, hlines, List.map_cons]
  simp only [isOpen_dropEnding, hopen, if_true, hcut, List.map_map]
  rfl

/-- The three ways in which a text can begin. -/
theorem spans_zero_cases (block : List Char) :
    ¬OpensAt block 0 ∨ (OpensAt block 0 ∧ ∀ j, 0 < j → ¬ClosesAt block j) ∨
      ∃ j, Spans block 0 j := by
  by_cases hopens : OpensAt block 0
  · by_cases hcloses : ∃ j, 0 < j ∧ ClosesAt block j
    · obtain ⟨k, hk, hclose⟩ := hcloses
      obtain ⟨i, j, hspans⟩ := exists_spans hk hopens hclose
      obtain rfl : i = 0 := by
        by_contra hi
        exact hspans.first 0 (by omega) hopens
      exact Or.inr (Or.inr ⟨j, hspans⟩)
    · exact Or.inr (Or.inl ⟨hopens, fun j hj hclose => hcloses ⟨j, hj, hclose⟩⟩)
  · exact Or.inl hopens

/-! ## Blocks at the start -/

/-- Only the first line has no byte in front of it. -/
theorem lineStart_eq_zero_iff (h : OpensAt content i) : lineStart content i = 0 ↔ i = 0 := by
  constructor
  · intro hzero
    by_contra hi
    obtain ⟨line, hline, -⟩ := h
    have hlt := (List.getElem?_eq_some_iff.1 hline).1
    cases hlines : lines content with
    | nil => simp [hlines] at hlt
    | cons first rest =>
      rw [hlines] at hlt
      obtain ⟨other, others, rfl⟩ : ∃ other others, rest = other :: others :=
        List.exists_cons_of_ne_nil fun hnil => by simp [hnil] at hlt; omega
      have hbefore : lines content = [first] ++ other :: others := hlines
      obtain ⟨s, -, rfl⟩ := complete_of_lines_eq hbefore first (by simp)
      obtain ⟨k, rfl⟩ : ∃ k, i = k + 1 := ⟨i - 1, by omega⟩
      have hnewline : 0 < byteLength ['\n'] := by decide
      rw [lineStart, hlines, List.take_succ_cons, List.flatten_cons, byteLength_append,
        byteLength_append] at hzero
      omega
  · rintro rfl
    rfl

/-- A block at the start of a text. -/
theorem find?_eq_some_zero_iff {e : Nat} :
    find? block = some ⟨0, e⟩ ↔ ∃ j, Spans block 0 j ∧ e = lineStart block (j + 1) := by
  rw [find?_eq_some_iff]
  constructor
  · rintro ⟨i, j, hspans, hrange⟩
    obtain ⟨hstart, rfl⟩ := Range.mk.inj hrange
    obtain rfl := (lineStart_eq_zero_iff hspans.opens).1 hstart.symm
    exact ⟨j, hspans, rfl⟩
  · rintro ⟨j, hspans, rfl⟩
    exact ⟨0, j, hspans, rfl⟩

/-- The lines of a block are those of the script between its ends, so it spans all of itself. -/
theorem spans_flatten (h : Spans content i j) :
    Spans (((lines content).take (j + 1)).drop i).flatten 0 (j - i) ∧
      lines (((lines content).take (j + 1)).drop i).flatten =
        ((lines content).take (j + 1)).drop i := by
  obtain ⟨before, opening, body, closing, after, hall, rfl, rfl, -, hopen, hbody, hclose⟩ :=
    spans_iff.1 h
  have hblock : ((lines content).take (before.length + 1 + body.length + 1)).drop before.length =
      opening :: (body ++ [closing]) := by
    rw [hall, Nat.add_assoc, Nat.add_assoc, List.take_length_add_append, List.drop_left,
      show 1 + (body.length + 1) = body.length + 1 + 1 by omega, List.take_succ_cons,
      List.take_length_add_append, List.take_succ_cons, List.take_zero]
  have hlines : lines content = before ++ (opening :: (body ++ [closing]) ++ after) := by
    simp [hall]
  have hparts := (lines_flatten_of_append (lines_flatten_of_append hlines).2).1
  rw [hblock, hparts]
  exact ⟨spans_iff.2 ⟨[], opening, body, closing, [], hparts, rfl, by omega, by simp, hopen, hbody,
    hclose⟩, rfl⟩

/-! ## Main statement -/

private theorem ofBlock_of_body {text : List Char} (h : body block = .ok text) :
    Metadata.ofBlock block = (Metadata.ofToml? text).elim (.error .malformed) .ok := by
  rw [Metadata.ofBlock, h]
  cases hmetadata : Metadata.ofToml? text <;> simp [hmetadata]

private theorem ofBlock_of_error {e : Error} (h : body block = .error e) :
    Metadata.ofBlock block = .error e := by
  rw [Metadata.ofBlock, h]

/-- A text with a block at its start lacks no marker. -/
theorem ofBlock_ne_missing (h : Spans block 0 j) (m : Marker) :
    Metadata.ofBlock block ≠ .error (.missing m) := by
  rw [ofBlock_of_body (body_of_spans h)]
  cases Metadata.ofToml? (innerText block j) <;> simp

/-- What of its markers a text lacks, by the three ways in which it can begin. -/
theorem ofBlock_cases (block : List Char) :
    (¬OpensAt block 0 ∧ Metadata.ofBlock block = .error (.missing .opening)) ∨
    (OpensAt block 0 ∧ (∀ j, ¬Spans block 0 j) ∧
      Metadata.ofBlock block = .error (.missing .closing)) ∨
    ∃ j, Spans block 0 j ∧ ∀ m, Metadata.ofBlock block ≠ .error (.missing m) := by
  rcases spans_zero_cases block with hclosed | ⟨hopens, hunclosed⟩ | ⟨j, hspans⟩
  · exact Or.inl ⟨hclosed, ofBlock_of_error (body_of_not_opensAt hclosed)⟩
  · exact Or.inr (Or.inl ⟨hopens, fun j hspans => hunclosed j hspans.lt hspans.closes,
      ofBlock_of_error (body_of_unclosed hopens hunclosed)⟩)
  · exact Or.inr (Or.inr ⟨j, hspans, ofBlock_ne_missing hspans⟩)

/-- No block is found at the first byte of a text exactly where no span begins with its first
line. -/
theorem not_spans_zero_iff :
    (∀ j, ¬Spans block 0 j) ↔ ∀ e, find? block ≠ some ⟨0, e⟩ := by
  constructor
  · intro h e he
    obtain ⟨j, hspans, -⟩ := find?_eq_some_zero_iff.1 he
    exact h j hspans
  · intro h j hspans
    exact h _ (find?_eq_some_zero_iff.2 ⟨j, hspans, rfl⟩)

/-- Nothing behind the block at the start of a text matters to what is read. -/
theorem ofBlock_take (h : Spans block 0 j) :
    Metadata.ofBlock block = Metadata.ofBlock ((lines block).take (j + 1)).flatten := by
  obtain ⟨hfront, hlines⟩ := spans_flatten h
  rw [List.drop_zero, Nat.sub_zero] at hfront
  rw [List.drop_zero] at hlines
  have hinner : innerText ((lines block).take (j + 1)).flatten j = innerText block j := by
    rw [innerText, hlines, List.take_take, Nat.min_eq_left (Nat.le_succ j)]
    rfl
  rw [ofBlock_of_body (body_of_spans h), ofBlock_of_body (body_of_spans hfront), hinner]

/-- A text can be read as a block but for what it says exactly where a block is found at its first
byte: it lacks its opening marker if its first line opens no block, and its closing marker if the
first line opens one but none is found there. Where one is found, reading the text is reading just
that block, and what is read in the TOML format are the lines strictly between its two marker lines,
without their comment signs and with newlines between them. So the block of a script never lacks a
marker. -/
theorem ofBlock_eq_missing_iff :
    (∀ block : List Char, (∃ m, Metadata.ofBlock block = .error (.missing m)) ↔
      ∀ e, find? block ≠ some ⟨0, e⟩) ∧
    (∀ block : List Char, Metadata.ofBlock block = .error (.missing .opening) ↔
      ¬OpensAt block 0) ∧
    (∀ block : List Char, Metadata.ofBlock block = .error (.missing .closing) ↔
      OpensAt block 0 ∧ ∀ e, find? block ≠ some ⟨0, e⟩) ∧
    (∀ (block : List Char) (e : Nat), find? block = some ⟨0, e⟩ →
      (∃ front back, block = front ++ back ∧ byteLength front = e ∧
        Metadata.ofBlock block = Metadata.ofBlock front) ∧
      ∃ j, Spans block 0 j ∧ e = lineStart block (j + 1) ∧
        Metadata.ofBlock block =
          (Metadata.ofToml? (innerText block j)).elim (.error .malformed) .ok) ∧
    ∀ content : List Char, (split content).hasBlock = true →
      ∀ m, Metadata.ofBlock (split content).block ≠ .error (.missing m) := by
  refine ⟨fun block => ?_, fun block => ?_, fun block => ?_, fun block e he => ?_,
    fun content hblock => ?_⟩
  · rw [← not_spans_zero_iff]
    rcases ofBlock_cases block with ⟨hclosed, h⟩ | ⟨_, hunclosed, h⟩ | ⟨j, hspans, h⟩
    · exact iff_of_true ⟨_, h⟩ fun j hspans => hclosed hspans.opens
    · exact iff_of_true ⟨_, h⟩ hunclosed
    · exact iff_of_false (fun ⟨m, hm⟩ => h m hm) fun hnone => hnone j hspans
  · rcases ofBlock_cases block with ⟨hclosed, h⟩ | ⟨hopens, _, h⟩ | ⟨j, hspans, h⟩
    · exact iff_of_true h hclosed
    · exact iff_of_false (h ▸ nofun) (not_not_intro hopens)
    · exact iff_of_false (h _) (not_not_intro hspans.opens)
  · rw [← not_spans_zero_iff]
    rcases ofBlock_cases block with ⟨hclosed, h⟩ | ⟨hopens, hunclosed, h⟩ | ⟨j, hspans, h⟩
    · exact iff_of_false (h ▸ nofun) fun hboth => hclosed hboth.1
    · exact iff_of_true h ⟨hopens, hunclosed⟩
    · exact iff_of_false (h _) fun hboth => hboth.2 j hspans
  · obtain ⟨j, hspans, rfl⟩ := find?_eq_some_zero_iff.1 he
    have htext : block = ((lines block).take (j + 1)).flatten ++
        ((lines block).drop (j + 1)).flatten := by
      rw [← List.flatten_append, List.take_append_drop, flatten_lines]
    exact ⟨⟨_, _, htext, rfl, ofBlock_take hspans⟩, j, hspans, rfl,
      ofBlock_of_body (body_of_spans hspans)⟩
  · obtain ⟨before, parts, after, hcut⟩ := hasBlock_iff.1 hblock
    obtain ⟨i, j, hspans⟩ := spans_of_cutLines hcut
    rw [split_of_spans hspans]
    exact ofBlock_ne_missing (spans_flatten hspans).1

/-- A block with carriage returns in front of a script, with a line between its markers that is no
comment, is read by itself. -/
theorem ofBlock_eq_missing_iff_returns :
    let block := "# /// script\r\n# dependencies = []\r\nimport os\n# ///\r\nimport re\n".toList
    find? block = some ⟨0, 52⟩ ∧
      (∃ front back, block = front ++ back ∧ byteLength front = 52 ∧
        Metadata.ofBlock block = Metadata.ofBlock front) ∧
      ∃ j, Spans block 0 j ∧ 52 = lineStart block (j + 1) ∧
        Metadata.ofBlock block =
          (Metadata.ofToml? (innerText block j)).elim (.error .malformed) .ok := by
  intro block
  have hfound : find? block = some ⟨0, 52⟩ := by decide
  exact ⟨hfound, ofBlock_eq_missing_iff.2.2.2.1 block 52 hfound⟩

end ScriptDeps.Block
