import ScriptDeps.Proofs.Source.Alike
import ScriptDeps.Proofs.Source.Leading

/-!
# The first round

What is done at the first lexeme of a script: a comment or a joint joins the gap, a token that can
begin a script is taken, and at the end of the text the script is whole. Main statement:
`finish?_begun`.
-/

namespace ScriptDeps.Source

open Automaton

namespace Progress

/-! ## One version -/

variable {a : Automaton} {v w : Version} {best best' : Option (Int × Tree)} {furthest : Nat}

private theorem sweep_end (p : Progress) (i : Nat) (h : p.versions.length = i) :
    p.sweep i furthest a = some (p, furthest) := by
  rw [sweep, List.getElem?_eq_none (Nat.le_of_eq h)]

private theorem prune_single (h : w.status ≠ .done) :
    prune a ⟨[w], best⟩ = ⟨[w], best⟩ := by
  simp [prune, h, Version.rank, mostKept]

/-- A single version that goes on is read on. -/
theorem finish?_of_active (hv : v.status = .active) (hw : w.status = .active)
    (h : advance a 0 ⟨[v], best⟩ = ⟨[w], best'⟩) (hoffset : furthest < w.place.offset) :
    finish? furthest ⟨[v], best⟩ a = finish? w.place.offset ⟨[w], best'⟩ a := by
  have hsweep : sweep 0 furthest ⟨[v], best⟩ a = some (⟨[w], best'⟩, w.place.offset) := by
    rw [sweep]
    simp only [List.getElem?_cons_zero, hv, if_true, h, hoffset, true_or]
    exact sweep_end _ _ rfl
  have hgoes : prune a ⟨[w], best'⟩ = ⟨[w], best'⟩ := prune_single (by simp [hw])
  rw [finish?, hsweep]
  simp [hgoes, hw]

/-- A single version that does not go on ends the reading. -/
theorem finish?_of_not_active (hv : v.status = .active) (hw : w.status ≠ .active)
    (h : advance a 0 ⟨[v], best⟩ = ⟨[w], best'⟩) :
    finish? furthest ⟨[v], best⟩ a = best'.map (·.2) := by
  have hsweep : ∃ o, sweep 0 furthest ⟨[v], best⟩ a = some (⟨[w], best'⟩, o) := by
    rw [sweep]
    simp only [List.getElem?_cons_zero, hv, if_true, h]
    split
    · exact ⟨_, sweep_end _ _ rfl⟩
    · refine ⟨furthest, ?_⟩
      rw [sweep]
      simp only [List.getElem?_cons_zero, hw, if_false]
      exact sweep_end _ _ rfl
  obtain ⟨o, hsweep⟩ := hsweep
  rw [finish?, hsweep]
  cases hstatus : w.status with
  | active => exact absurd hstatus hw
  | stuck =>
    have hstays : prune a ⟨[w], best'⟩ = ⟨[w], best'⟩ := prune_single (by simp [hstatus])
    simp [hstays, hstatus]
  | done => simp [prune, hstatus]

/-! ## One lexeme -/

/-- A version that finds no lexeme is stuck. -/
theorem advance_none (h : v.place.lexeme? (a.expected (v.state a)) = none) :
    advance a 0 ⟨[v], best⟩ = ⟨[{ v with status := .stuck }], best⟩ := by
  simp [advance, h, mark, modify]

/-- A comment or a joint joins the gap. -/
theorem advance_comment {l : Lexeme} (h : v.place.lexeme? (a.expected (v.state a)) = some l)
    (hl : l.token = .comment ∨ l.token = .joint) :
    advance a 0 ⟨[v], best⟩ = ⟨[{ v with place := v.place.skip l }], best⟩ := by
  rcases hl with hl | hl <;> simp [advance, h, hl, modify]

/-- At any other lexeme a version settles. -/
theorem advance_token {l : Lexeme} (h : v.place.lexeme? (a.expected (v.state a)) = some l)
    (hcomment : l.token ≠ .comment) (hjoint : l.token ≠ .joint) :
    advance a 0 ⟨[v], best⟩ = settle a 0 (roundLimit v) l ⟨[v], best⟩ := by
  simp only [advance, List.getElem?_cons_zero, h]

/-- A token that can be taken is taken where nothing is closed. -/
theorem settle_take {l : Lexeme} (fuel : Nat)
    (h : a.step (v.state a) (a.numbering.tokenNumber l.token) = ⟨[], true⟩) :
    settle a 0 (fuel + 1) l ⟨[v], best⟩ = ⟨[v.take a l], best⟩ := by
  simp [settle, h, close, modify]

/-- A token that cannot be taken may be a name. -/
theorem settle_asName {l : Lexeme} (fuel : Nat)
    (h : a.step (v.state a) (a.numbering.tokenNumber l.token) = ⟨[], false⟩) :
    settle a 0 (fuel + 1) l ⟨[v], best⟩ =
      match l.asName? with
      | some l =>
        if (a.expected (v.state a)).name then settle a 0 fuel l ⟨[v], best⟩
        else ⟨[{ v with status := .stuck }], best⟩
      | none => ⟨[{ v with status := .stuck }], best⟩ := by
  simp only [settle, List.getElem?_cons_zero, h, close, List.foldl_nil, List.any_nil,
    Bool.false_eq_true, if_false]
  cases l.asName? <;> simp [mark, modify]

/-- Where one phrase is closed the version goes on behind it. -/
theorem settle_close {l : Lexeme} (fuel : Nat) {r : Reading} {place : Place} {status : Status}
    {i : Item} (h : a.step (r.state a) (a.numbering.tokenNumber l.token) = ⟨[i], false⟩)
    (hi : i.left ≠ a.wholeItem.left) :
    settle a 0 (fuel + 1) l ⟨[⟨[r], place, status⟩], best⟩ =
      settle a 0 fuel l ⟨[⟨[r.close a i], place, status⟩], best⟩ := by
  have hstate : Version.state a ⟨[r], place, status⟩ = r.state a := rfl
  conv_lhs => rw [settle]
  simp [hstate, h, hi, close, add, replace, mostBegun]

/-- Where the whole script is closed it has been read. -/
theorem settle_whole {l : Lexeme} (fuel : Nat) {r : Reading} {place : Place} {status : Status}
    {i : Item} (h : a.step (r.state a) (a.numbering.tokenNumber l.token) = ⟨[i], false⟩)
    (hi : i.left = a.wholeItem.left) :
    settle a 0 (fuel + 1) l ⟨[⟨[r], place, status⟩], none⟩ =
      ⟨[⟨[r], place, .done⟩], some (r.weight, treeOf (place.gap ++ l.gap) r)⟩ := by
  have hstate : Version.state a ⟨[r], place, status⟩ = r.state a := rfl
  rw [settle]
  simp [hstate, h, hi, complete, mark, modify]

/-! ## The first lexeme of a script -/

/-- The version that has read only a gap. -/
def onlyGap (gap : List Char) (offset : Nat) (rest : List Char) : Version :=
  ⟨[⟨[], 0⟩], ⟨offset, gap, .none, rest⟩, .active⟩

/-- A script of which only a gap has been read. -/
def begun (gap : List Char) (offset : Nat) (rest : List Char) : Progress :=
  ⟨[onlyGap gap offset rest], none⟩

/-- The version that has read a gap and a token. -/
def oneToken (a : Automaton) (gap : List Char) (offset : Nat) (l : Lexeme) : Version :=
  ⟨[⟨[⟨a.after a.start (.token (a.numbering.tokenNumber l.token)), [.leaf gap l.text]⟩], 0⟩],
    ⟨offset, [], l.nesting, l.rest⟩, .active⟩

/-- A script of which a gap and a token have been read. -/
def took (a : Automaton) (gap : List Char) (offset : Nat) (l : Lexeme) : Progress :=
  ⟨[oneToken a gap offset l], none⟩

/-- What is expected at the start of a script. -/
def expectedFirst : Expected := automaton.expected automaton.start

/-- No layout mark can stand at the start of a script. -/
theorem opens_expectedFirst : expectedFirst.Opens := opens_expected_start

/-- The token that a script begins with where a lexeme is its first one: a word that does not fit
may still be a name. -/
def firstTaken? (l : Lexeme) : Option Lexeme :=
  if canBegin l.token then some l
  else if expectedFirst.name ∧ canBegin .name then l.asName?
  else none

/-- The tree of a script of which a gap has been read and the first lexeme is found. -/
def readOn (gap : List Char) (offset : Nat) (l : Lexeme) : Option Tree :=
  let behind := offset + l.gap.length + l.text.length
  match l.token with
  | .comment | .joint =>
    finish? behind (begun (gap ++ l.gap ++ l.text) behind l.rest) automaton
  | .finish => some (.node .script [.leaf (gap ++ l.gap) []])
  | _ =>
    (firstTaken? l).bind fun l' =>
      finish? behind (took automaton (gap ++ l.gap) behind l') automaton

variable {gap rest : List Char} {offset : Nat} {l : Lexeme}

/-- The state behind the first token. -/
theorem state_oneToken (a : Automaton) (gap : List Char) (offset : Nat) (l : Lexeme) :
    (oneToken a gap offset l).state a =
      a.after a.start (.token (a.numbering.tokenNumber l.token)) := rfl

private theorem lexeme?_onlyGap :
    (onlyGap gap offset rest).place.lexeme?
        (automaton.expected ((onlyGap gap offset rest).state automaton)) =
      Lexeme.first? expectedFirst .none rest := rfl

private theorem begun_none (h : Lexeme.first? expectedFirst .none rest = none) :
    finish? furthest (begun gap offset rest) automaton = none :=
  finish?_of_not_active rfl (by simp) (advance_none (lexeme?_onlyGap.trans h))

private theorem begun_comment (hoffset : furthest ≤ offset)
    (h : Lexeme.first? expectedFirst .none rest = some l)
    (hl : l.token = .comment ∨ l.token = .joint) (htext : l.text ≠ [])
    (hnesting : l.nesting = .none) :
    finish? furthest (begun gap offset rest) automaton =
      finish? (offset + l.gap.length + l.text.length)
        (begun (gap ++ l.gap ++ l.text) (offset + l.gap.length + l.text.length) l.rest)
        automaton := by
  have hlength : 0 < l.text.length := List.length_pos_iff.2 htext
  have hadvance : advance automaton 0 (begun gap offset rest) =
      ⟨[{ onlyGap gap offset rest with place := (onlyGap gap offset rest).place.skip l }], none⟩ :=
    advance_comment (lexeme?_onlyGap.trans h) hl
  have hskip : ({ onlyGap gap offset rest with
      place := (onlyGap gap offset rest).place.skip l } : Version) =
      onlyGap (gap ++ l.gap ++ l.text) (offset + l.gap.length + l.text.length) l.rest := by
    simp [onlyGap, Place.skip, hnesting]
  rw [hskip] at hadvance
  apply finish?_of_active rfl rfl hadvance
  change furthest < offset + l.gap.length + l.text.length
  omega

private theorem take_onlyGap (htext : l.text ≠ []) :
    (⟨[(onlyGap gap offset rest).take automaton l], none⟩ : Progress) =
      took automaton (gap ++ l.gap) (offset + l.gap.length + l.text.length) l := by
  have hempty : l.text.isEmpty = false := by simpa using htext
  simp [Version.take, onlyGap, Place.take, hempty, took, oneToken, Version.state,
    Reading.state]

private theorem begun_taken (hoffset : furthest ≤ offset) (htext : l.text ≠ [])
    (h : advance automaton 0 (begun gap offset rest) =
      ⟨[(onlyGap gap offset rest).take automaton l], none⟩) :
    finish? furthest (begun gap offset rest) automaton =
      finish? (offset + l.gap.length + l.text.length)
        (took automaton (gap ++ l.gap) (offset + l.gap.length + l.text.length) l) automaton := by
  have hlength : 0 < l.text.length := List.length_pos_iff.2 htext
  rw [take_onlyGap htext] at h
  apply finish?_of_active rfl rfl h
  change furthest < offset + l.gap.length + l.text.length
  omega

private theorem of_asName?_eq_some {l l' : Lexeme} (h : l.asName? = some l') :
    l' = { l with token := .name } := by
  unfold Lexeme.asName? at h
  split at h
  · split at h
    · simp at h
    · exact (Option.some.inj h).symm
  · simp at h

/-- The token that is taken has the gap and the text of its lexeme. -/
theorem of_firstTaken?_eq_some {l l' : Lexeme} (h : firstTaken? l = some l') :
    l'.gap = l.gap ∧ l'.text = l.text := by
  unfold firstTaken? at h
  split at h
  · obtain rfl := Option.some.inj h
    exact ⟨rfl, rfl⟩
  split at h
  · rw [of_asName?_eq_some h]
    exact ⟨rfl, rfl⟩
  · simp at h

/-- A lexeme is settled by the token that is taken for it. -/
private theorem settle_begun (hfinish : l.token ≠ .finish) :
    settle automaton 0 (roundLimit (onlyGap gap offset rest)) l (begun gap offset rest) =
      match firstTaken? l with
      | some l => ⟨[(onlyGap gap offset rest).take automaton l], none⟩
      | none => ⟨[{ onlyGap gap offset rest with status := .stuck }], none⟩ := by
  have hlimit : roundLimit (onlyGap gap offset rest) = 510 + 1 + 1 := rfl
  have hstep {t : Token} (ht : t ≠ .finish) :
      automaton.step ((onlyGap gap offset rest).state automaton)
        (automaton.numbering.tokenNumber t) = ⟨[], canBegin t⟩ := step_start ht
  have hexpected : automaton.expected ((onlyGap gap offset rest).state automaton) =
      expectedFirst := rfl
  have hl := hstep hfinish
  have hname := hstep (t := .name) (by simp)
  rw [hlimit, begun]
  by_cases hbegins : canBegin l.token = true
  · have htakes : firstTaken? l = some l := if_pos hbegins
    rw [hbegins] at hl
    rw [settle_take _ hl, htakes]
  · rw [Bool.not_eq_true] at hbegins
    rw [hbegins] at hl
    rw [settle_asName _ hl, hexpected, firstTaken?, hbegins, if_neg Bool.false_ne_true]
    cases hword : l.asName? with
    | none => simp
    | some l' =>
      have htoken : l'.token = .name := by rw [of_asName?_eq_some hword]
      rw [← htoken] at hname
      by_cases hnames : expectedFirst.name = true
      · cases hcan : canBegin l'.token with
        | true =>
          rw [hcan] at hname
          rw [htoken] at hcan
          simp only [hnames, hcan, if_true, and_self]
          exact settle_take _ hname
        | false =>
          have hnot : l'.asName? = none := by simp [Lexeme.asName?, htoken]
          rw [hcan] at hname
          rw [htoken] at hcan
          simp only [hnames, hcan, if_true, Bool.false_eq_true, and_false, if_false]
          rw [settle_asName _ hname, hnot]
      · simp [hnames]

private theorem begun_token (hoffset : furthest ≤ offset)
    (h : Lexeme.first? expectedFirst .none rest = some l) (hcomment : l.token ≠ .comment)
    (hjoint : l.token ≠ .joint) (hfinish : l.token ≠ .finish) (htext : l.text ≠ []) :
    finish? furthest (begun gap offset rest) automaton =
      (firstTaken? l).bind fun l' =>
        finish? (offset + l.gap.length + l.text.length)
          (took automaton (gap ++ l.gap) (offset + l.gap.length + l.text.length) l') automaton := by
  have hadvance : advance automaton 0 (begun gap offset rest) =
      settle automaton 0 (roundLimit (onlyGap gap offset rest)) l (begun gap offset rest) :=
    advance_token (lexeme?_onlyGap.trans h) hcomment hjoint
  have hadvanced := hadvance.trans (settle_begun hfinish)
  cases htaken : firstTaken? l with
  | none =>
    rw [htaken] at hadvanced
    exact finish?_of_not_active rfl (by simp) hadvanced
  | some l' =>
    obtain ⟨hgap, htext'⟩ := of_firstTaken?_eq_some htaken
    rw [htaken] at hadvanced
    rw [begun_taken hoffset (htext'.symm ▸ htext) hadvanced, hgap, htext']
    rfl

private theorem close_emptyItem :
    (⟨[], 0⟩ : Reading).close automaton automaton.emptyItem =
      ⟨[⟨[(automaton.wholeItem.next, automaton.follow)], []⟩], 0⟩ := by
  have hphrase : automaton.numbering.phrases[automaton.emptyItem.left]? = some (.phrase .script) :=
    List.getElem?_idxOf script_mem_phrases
  have htransparent : Phrase.isTransparent .script = true := rfl
  have hstate : automaton.after ((⟨[], 0⟩ : Reading).state automaton)
      (.phrase automaton.emptyItem.left) = [(automaton.wholeItem.next, automaton.follow)] :=
    after_start_script
  have htaken : automaton.emptyItem.taken = 0 := rfl
  have hweight : (0 : Int) + automaton.emptyItem.weight = 0 := rfl
  simp only [Reading.close, htaken, hweight, hphrase, List.splitAt_eq, List.take_zero,
    List.drop_zero, hstate, Reading.wrap, htransparent, if_true, Frame.treesOf]

private theorem begun_finish (h : Lexeme.first? expectedFirst .none rest = some l)
    (hl : l.token = .finish) :
    finish? furthest (begun gap offset rest) automaton =
      some (.node .script [.leaf (gap ++ l.gap) []]) := by
  have hadvance : advance automaton 0 (begun gap offset rest) =
      settle automaton 0 (510 + 1 + 1) l (begun gap offset rest) :=
    advance_token (lexeme?_onlyGap.trans h) (by simp [hl]) (by simp [hl])
  have hstart : automaton.step ((⟨[], 0⟩ : Reading).state automaton)
      (automaton.numbering.tokenNumber l.token) = ⟨[automaton.emptyItem], false⟩ := by
    rw [hl]
    exact step_start_finish
  have hscript : automaton.step
      (((⟨[], 0⟩ : Reading).close automaton automaton.emptyItem).state automaton)
      (automaton.numbering.tokenNumber l.token) = ⟨[automaton.wholeItem.next], false⟩ := by
    rw [close_emptyItem, hl]
    exact step_script
  have hadvanced := hadvance.trans <|
    (settle_close (510 + 1) hstart emptyItem_left_ne).trans (settle_whole 510 hscript rfl)
  rw [close_emptyItem] at hadvanced
  exact finish?_of_not_active rfl (by simp) hadvanced

/-! ## Main statement -/

/-- At the first lexeme a comment or a joint joins the gap, a token that a script can begin with is
taken, and at the end of the text the script is whole. -/
theorem finish?_begun (gap : List Char) {offset : Nat} (hoffset : furthest ≤ offset)
    (rest : List Char) :
    finish? furthest (begun gap offset rest) automaton =
      (Lexeme.first? expectedFirst .none rest).bind (readOn gap offset) := by
  cases h : Lexeme.first? expectedFirst .none rest with
  | none => exact begun_none h
  | some l =>
    rw [Option.bind_some]
    unfold readOn
    rcases of_first?_eq_some opens_expectedFirst h with hfinish | ⟨htext, hl⟩
    · simp only [hfinish]
      exact begun_finish h hfinish
    · split
      · next hcomment =>
        exact begun_comment hoffset h (Or.inl hcomment) htext (hl (Or.inl hcomment)).1
      · next hjoint =>
        exact begun_comment hoffset h (Or.inr hjoint) htext (hl (Or.inr hjoint)).1
      · next hfinish => exact begun_finish h hfinish
      · next hcomment hjoint hfinish => exact begun_token hoffset h hcomment hjoint hfinish htext

end Progress

end ScriptDeps.Source
