import Mathlib.Data.Nat.Find
import ScriptDeps.Proofs.Block.Placement
import ScriptDeps.Text.Utf8

/-!
# Where the block of a script is found

The block of a script runs from the first line that opens one up to the first line behind it that
closes one, whatever other markers stand around. Its range in bytes begins at the first byte of the
one line and ends just behind the other, and a single pass over the lines that counts their bytes
finds it. Main statement: `find?_exact`.
-/

namespace ScriptDeps.Block

open ScriptDeps.Text

variable {content : List Char} {i j : Nat}

/-! ## Lines by their numbers -/

/-- The number of bytes in front of a line. -/
def lineStart (content : List Char) (i : Nat) : Nat := byteLength ((lines content).take i).flatten

/-- The line of a number opens a block. -/
def OpensAt (content : List Char) (i : Nat) : Prop :=
  ∃ line, (lines content)[i]? = some line ∧ isOpen line = true

/-- The line of a number closes a block. -/
def ClosesAt (content : List Char) (j : Nat) : Prop :=
  ∃ line, (lines content)[j]? = some line ∧ isClose line = true

/-- Line `i` is the first that opens a block, and line `j` the first behind it that closes one. -/
structure Spans (content : List Char) (i j : Nat) : Prop where
  /-- Line `i` opens a block. -/
  opens : OpensAt content i
  /-- No line before it does. -/
  first : ∀ k < i, ¬OpensAt content k
  /-- Line `j` stands behind line `i`. -/
  lt : i < j
  /-- Line `j` closes a block. -/
  closes : ClosesAt content j
  /-- No line between the two does. -/
  next : ∀ k, i < k → k < j → ¬ClosesAt content k

private theorem exists_append_cons {α : Type} {l : List α} {a : α} {k : Nat}
    (h : l[k]? = some a) : ∃ front back, l = front ++ a :: back ∧ front.length = k := by
  obtain ⟨hk, rfl⟩ := List.getElem?_eq_some_iff.1 h
  exact ⟨l.take k, l.drop (k + 1), by simp, by simp; omega⟩

/-- The lines around and inside a span. -/
theorem spans_iff : Spans content i j ↔
    ∃ before opening body closing after,
      lines content = before ++ opening :: (body ++ closing :: after) ∧ before.length = i ∧
        i + 1 + body.length = j ∧ (∀ l ∈ before, isOpen l = false) ∧ isOpen opening = true ∧
        (∀ l ∈ body, isClose l = false) ∧ isClose closing = true := by
  constructor
  · rintro ⟨⟨opening, hopening, hopens⟩, hfirst, hlt, ⟨closing, hclosing, hcloses⟩, hnext⟩
    obtain ⟨before, rest, hall, hi⟩ := exists_append_cons hopening
    have hrest : rest[j - i - 1]? = some closing := by
      obtain ⟨k, rfl⟩ : ∃ k, j = i + (k + 1) := ⟨j - i - 1, by omega⟩
      rw [hall, ← hi, List.getElem?_append_right (by omega)] at hclosing
      simpa [show i + (k + 1) - i - 1 = k by omega] using hclosing
    obtain ⟨body, after, rfl, hbody⟩ := exists_append_cons hrest
    refine ⟨before, opening, body, closing, after, hall, hi, by omega, fun l hl => ?_, hopens,
      fun l hl => ?_, hcloses⟩
    · obtain ⟨k, hk⟩ := List.mem_iff_getElem?.1 hl
      have hlt := (List.getElem?_eq_some_iff.1 hk).1
      have hline : (lines content)[k]? = some l := by
        rw [hall, List.getElem?_append_left hlt, hk]
      simpa using fun h => hfirst k (hi ▸ hlt) ⟨l, hline, h⟩
    · obtain ⟨k, hk⟩ := List.mem_iff_getElem?.1 hl
      have hlt := (List.getElem?_eq_some_iff.1 hk).1
      have hline : (lines content)[i + (k + 1)]? = some l := by
        rw [hall, ← hi, List.getElem?_append_right (by omega), Nat.add_sub_cancel_left,
          List.getElem?_cons_succ, List.getElem?_append_left hlt, hk]
      simpa using fun h => hnext (i + (k + 1)) (by omega) (by omega) ⟨l, hline, h⟩
  · rintro ⟨before, opening, body, closing, after, hall, rfl, rfl, hbefore, hopens, hbody, hcloses⟩
    refine ⟨⟨opening, by simp [hall], hopens⟩, ?_, by omega,
      ⟨closing, by simp [hall, Nat.add_assoc, Nat.add_comm 1], hcloses⟩, ?_⟩
    · rintro k hk ⟨line, hline, hopen⟩
      rw [hall, List.getElem?_append_left hk] at hline
      exact absurd hopen (by simp [hbefore line (List.mem_of_getElem? hline)])
    · rintro k hik hkj ⟨line, hline, hclose⟩
      obtain ⟨m, rfl⟩ : ∃ m, k = before.length + (m + 1) := ⟨k - before.length - 1, by omega⟩
      rw [hall, List.getElem?_append_right (by omega), Nat.add_sub_cancel_left,
        List.getElem?_cons_succ, List.getElem?_append_left (by omega)] at hline
      exact absurd hclose (by simp [hbody line (List.mem_of_getElem? hline)])

/-- Where some line opens a block and a later one closes one, there is a first such pair. -/
theorem exists_spans (hlt : i < j) (hi : OpensAt content i) (hj : ClosesAt content j) :
    ∃ i j, Spans content i j := by
  classical
  have hopens : ∃ i, OpensAt content i := ⟨i, hi⟩
  have hle : Nat.find hopens ≤ i := Nat.find_min' hopens hi
  have hcloses : ∃ j, Nat.find hopens < j ∧ ClosesAt content j := ⟨j, by omega, hj⟩
  obtain ⟨hbehind, hclose⟩ := Nat.find_spec hcloses
  exact ⟨Nat.find hopens, Nat.find hcloses, Nat.find_spec hopens, fun k => Nat.find_min hopens,
    hbehind, hclose, fun k hik hkj hk => Nat.find_min hcloses hkj ⟨hik, hk⟩⟩

/-- Lines are cut exactly around a span. -/
theorem cutLines_of_spans (h : Spans content i j) :
    cutLines (lines content) = some ((lines content).take i,
      ((lines content).take (j + 1)).drop i, (lines content).drop (j + 1)) := by
  obtain ⟨before, opening, body, closing, after, hall, rfl, rfl, hbefore, hopens, hbody, hcloses⟩ :=
    spans_iff.1 h
  have hparts : lines content = before ++ ((opening :: body ++ [closing]) ++ after) := by
    simp [hall]
  have hlength : before.length + 1 + body.length + 1 =
      (before ++ (opening :: body ++ [closing])).length := by
    simp
    omega
  rw [hlength, hparts, List.take_left, ← List.append_assoc, List.take_left, List.drop_left,
    List.drop_left, List.append_assoc, ← hparts, hall]
  exact cutLines_append hbefore hopens hbody hcloses

/-- Where lines are cut there is a span. -/
theorem spans_of_cutLines
    {parts : List (List Char) × List (List Char) × List (List Char)}
    (h : cutLines (lines content) = some parts) : ∃ i j, Spans content i j := by
  cases h₁ : cutAt isOpen (lines content) with
  | none => simp [cutLines, h₁] at h
  | some t =>
    obtain ⟨before, opening, rest⟩ := t
    cases h₂ : cutAt isClose rest with
    | none => simp [cutLines, h₁, h₂] at h
    | some u =>
      obtain ⟨body, closing, after⟩ := u
      obtain ⟨hall, hbefore, hopens⟩ := cutAt_eq_some_iff.1 h₁
      obtain ⟨rfl, hbody, hcloses⟩ := cutAt_eq_some_iff.1 h₂
      exact ⟨_, _, spans_iff.2
        ⟨before, opening, body, closing, after, hall, rfl, rfl, hbefore, hopens, hbody, hcloses⟩⟩

/-! ## The range in bytes -/

private theorem take_append_drop_of_le {α : Type} (l : List α) (h : i ≤ j) :
    l.take j = l.take i ++ (l.take j).drop i := by
  have htake : (l.take j).take i = l.take i := by rw [List.take_take, Nat.min_eq_left h]
  rw [← htake, List.take_append_drop]

/-- The range of a span. -/
theorem find?_of_spans (h : Spans content i j) :
    find? content = some ⟨lineStart content i, lineStart content (j + 1)⟩ := by
  have hlt := h.lt
  have hstop : lineStart content (j + 1) =
      lineStart content i + byteLength (((lines content).take (j + 1)).drop i).flatten := by
    rw [lineStart, lineStart, ← byteLength_append, ← List.flatten_append,
      ← take_append_drop_of_le _ (by omega)]
  rw [find?, cutLines_of_spans h, Option.map_some, hstop]
  rfl

/-- A range is found exactly where there is a span of lines. -/
theorem find?_eq_some_iff {r : Range} : find? content = some r ↔
    ∃ i j, Spans content i j ∧ r = ⟨lineStart content i, lineStart content (j + 1)⟩ := by
  constructor
  · intro h
    obtain ⟨parts, hcut, -⟩ := Option.map_eq_some_iff.1 h
    obtain ⟨i, j, hspans⟩ := spans_of_cutLines hcut
    rw [find?_of_spans hspans] at h
    exact ⟨i, j, hspans, (Option.some.inj h).symm⟩
  · rintro ⟨i, j, hspans, rfl⟩
    exact find?_of_spans hspans

/-- The part of a script that is its block is there exactly where its range is found. -/
theorem hasBlock_eq_isPresent (content : List Char) :
    (split content).hasBlock = isPresent content := by
  cases h : (split content).hasBlock with
  | false => rw [isPresent, find?_eq_none_iff.2 h, Option.isSome_none]
  | true =>
    have hne : find? content ≠ none := fun hno => by simp [find?_eq_none_iff.1 hno] at h
    exact (Option.isSome_iff_ne_none.2 hne).symm

/-- The parts of a script with a span. -/
theorem split_of_spans (h : Spans content i j) :
    split content = ⟨((lines content).take i).flatten,
      (((lines content).take (j + 1)).drop i).flatten, ((lines content).drop (j + 1)).flatten⟩ :=
  split_of_cutLines (cutLines_of_spans h)

private theorem length_encode (s : List Char) : (encode s).length = byteLength s := by
  induction s with
  | nil => rfl
  | cons c s ih =>
    rw [byteLength, ← ih, ← String.length_utf8EncodeChar]
    simp [encode]

/-- A text cut in two is cut in the same place in bytes. -/
private theorem take_encode_append (s t : List Char) :
    (encode (s ++ t)).take (byteLength s) = encode s ∧
      (encode (s ++ t)).drop (byteLength s) = encode t := by
  have happend : encode (s ++ t) = encode s ++ encode t := by simp [encode]
  rw [happend, ← length_encode]
  exact ⟨List.take_left, List.drop_left⟩

/-- The parts of a script are what stands before its range, in it and behind it. -/
theorem encode_split {r : Range} (h : find? content = some r) :
    encode (split content).before = (encode content).take r.start ∧
      encode (split content).block = ((encode content).take r.stop).drop r.start ∧
      encode (split content).after = (encode content).drop r.stop := by
  obtain ⟨i, j, hspans, rfl⟩ := find?_eq_some_iff.1 h
  have hlt := hspans.lt
  have hupper : ((lines content).take (j + 1)).flatten =
      ((lines content).take i).flatten ++ (((lines content).take (j + 1)).drop i).flatten := by
    rw [← List.flatten_append, ← take_append_drop_of_le _ (by omega)]
  have hstart : content = ((lines content).take i).flatten ++ ((lines content).drop i).flatten := by
    rw [← List.flatten_append, List.take_append_drop, flatten_lines]
  have hstop : content =
      ((lines content).take (j + 1)).flatten ++ ((lines content).drop (j + 1)).flatten := by
    rw [← List.flatten_append, List.take_append_drop, flatten_lines]
  have hlower := take_encode_append ((lines content).take i).flatten
    ((lines content).drop i).flatten
  have hinner := take_encode_append ((lines content).take i).flatten
    (((lines content).take (j + 1)).drop i).flatten
  have houter := take_encode_append ((lines content).take (j + 1)).flatten
    ((lines content).drop (j + 1)).flatten
  rw [← hstart] at hlower
  rw [← hupper] at hinner
  rw [← hstop] at houter
  rw [split_of_spans hspans]
  refine ⟨hlower.1.symm, ?_, houter.2.symm⟩
  rw [lineStart, lineStart, houter.1, hinner.2]

/-! ## One pass over the lines -/

/-- How far a pass over the lines of a script has come. -/
inductive Scan where
  /-- Behind some bytes, and no line has opened a block. -/
  | seekingOpen (offset : Nat)
  /-- Behind some bytes, and a block has been opened at `start` and not closed. -/
  | seekingClose (start offset : Nat)
  /-- A block has been found. -/
  | found (range : Range)

namespace Scan

/-- Pass one line. -/
def step : Scan → List Char → Scan
  | seekingOpen offset, line =>
    if isOpen line then seekingClose offset (offset + byteLength line)
    else seekingOpen (offset + byteLength line)
  | seekingClose start offset, line =>
    if isClose line then found ⟨start, offset + byteLength line⟩
    else seekingClose start (offset + byteLength line)
  | found range, _ => found range

/-- The block that has been found. -/
def range? : Scan → Option Range
  | found range => some range
  | _ => none

private theorem foldl_found (range : Range) (ls : List (List Char)) :
    ls.foldl step (found range) = found range := by
  induction ls with
  | nil => rfl
  | cons line ls ih => exact ih

/-- Inside a block the pass ends at the first line that closes it. -/
private theorem range?_foldl_seekingClose (start offset : Nat) (ls : List (List Char)) :
    (ls.foldl step (seekingClose start offset)).range? =
      (cutAt isClose ls).map fun (body, closing, _) =>
        ⟨start, offset + byteLength (body ++ [closing]).flatten⟩ := by
  induction ls generalizing offset with
  | nil => rfl
  | cons line ls ih =>
    by_cases h : isClose line = true
    · simp [step, cutAt, h, foldl_found, range?]
    · rw [List.foldl_cons, step, if_neg h, ih, cutAt, if_neg h, Option.map_map]
      congr 1
      funext parts
      obtain ⟨body, closing, after⟩ := parts
      simp [byteLength_append, Nat.add_assoc]

/-- Outside a block the pass goes on to the first line that opens one, and from there inside it. -/
private theorem range?_foldl_seekingOpen (offset : Nat) (ls : List (List Char)) :
    (ls.foldl step (seekingOpen offset)).range? =
      (cutLines ls).map fun (before, block, _) =>
        ⟨offset + byteLength before.flatten,
          offset + byteLength before.flatten + byteLength block.flatten⟩ := by
  induction ls generalizing offset with
  | nil => rfl
  | cons line ls ih =>
    by_cases h : isOpen line = true
    · rw [List.foldl_cons, step, if_pos h, range?_foldl_seekingClose]
      cases hcut : cutAt isClose ls <;>
        simp [cutLines, cutAt, h, hcut, byteLength, byteLength_append, Nat.add_assoc]
    · rw [List.foldl_cons, step, if_neg h, ih]
      cases hopen : cutAt isOpen ls with
      | none => simp [cutLines, cutAt, h, hopen]
      | some t =>
        obtain ⟨before, opening, rest⟩ := t
        cases hcut : cutAt isClose rest <;>
          simp [cutLines, cutAt, h, hopen, hcut, byteLength_append, Nat.add_assoc]

end Scan

/-- The block of a script as one pass over its lines finds it. -/
def scan (content : List Char) : Option Range :=
  ((lines content).foldl Scan.step (.seekingOpen 0)).range?

/-- One pass over the lines finds the block. -/
theorem scan_eq_find? (content : List Char) : scan content = find? content := by
  rw [scan, Scan.range?_foldl_seekingOpen, find?]
  simp

/-! ## Main statement -/

/-- A script has a block exactly when some line opens one and a later line closes one. Its range
begins with the first byte of the first line that opens one and ends behind the last byte of the
first later line that closes one, the newline included, and it is the range that one pass over the
lines finds. The three parts of the script are what stands before the range, in it and behind it,
and all of the script stands before where there is no block. They always make up the script, and
whether there is a block can be told from the parts or from the range. -/
theorem find?_exact (content : List Char) :
    ((find? content).isSome = true ↔ ∃ i j, i < j ∧ OpensAt content i ∧ ClosesAt content j) ∧
    (∀ r, find? content = some r ↔
      ∃ i j, Spans content i j ∧ r = ⟨lineStart content i, lineStart content (j + 1)⟩) ∧
    scan content = find? content ∧
    (∀ r, find? content = some r →
      encode (split content).before = (encode content).take r.start ∧
        encode (split content).block = ((encode content).take r.stop).drop r.start ∧
        encode (split content).after = (encode content).drop r.stop) ∧
    (find? content = none → split content = ⟨content, [], []⟩) ∧
    (split content).before ++ (split content).block ++ (split content).after = content ∧
    (split content).hasBlock = isPresent content ∧
    isPresent content = (find? content).isSome := by
  refine ⟨⟨fun h => ?_, ?_⟩, fun r => find?_eq_some_iff, scan_eq_find? content,
    fun r => encode_split, fun h => ?_, split_append content, hasBlock_eq_isPresent content, rfl⟩
  · obtain ⟨r, hr⟩ := Option.isSome_iff_exists.1 h
    obtain ⟨i, j, hspans, -⟩ := find?_eq_some_iff.1 hr
    exact ⟨i, j, hspans.lt, hspans.opens, hspans.closes⟩
  · rintro ⟨i, j, hlt, hi, hj⟩
    obtain ⟨i, j, hspans⟩ := exists_spans hlt hi hj
    rw [find?_of_spans hspans, Option.isSome_some]
  · rw [split, Option.map_eq_none_iff.1 h]

/-- Behind a line that would close a block, a block is opened twice and closed by an indented
line. -/
theorem find?_exact_twice_opened :
    let content := "é = 1\n# ///\n# /// script\r\n# /// script\n\u2003# ///\nimport os".toList
    find? content = some ⟨13, 49⟩ ∧
      encode (split content).before = (encode content).take 13 ∧
      encode (split content).block = ((encode content).take 49).drop 13 ∧
      encode (split content).after = (encode content).drop 49 := by
  intro content
  have hspans : Spans content 2 4 := spans_iff.2
    ⟨["é = 1\n".toList, "# ///\n".toList], "# /// script\r\n".toList, ["# /// script\n".toList],
      "\u2003# ///\n".toList, ["import os".toList], by decide, rfl, rfl, by decide, by decide,
      by decide, by decide⟩
  have hfound : find? content = some ⟨13, 49⟩ :=
    ((find?_exact content).2.1 _).2 ⟨2, 4, hspans, by decide⟩
  exact ⟨hfound, (find?_exact content).2.2.2.1 _ hfound⟩

end ScriptDeps.Block
