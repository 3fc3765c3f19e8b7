import ScriptDeps.Proofs.Source.Opening

/-!
# Lexemes at the start of a script

Where no layout mark can stand, a blank or a line end in front of a text becomes part of the gap of
its first lexeme and changes nothing else. A byte order mark is different: no string literal opens
behind it. Main statements: `first?_blanks`, `first?_mark`, `first?_joint` and `first?_comment`.
-/

namespace ScriptDeps.Source

/-- A lexeme with more text in its gap. -/
def Lexeme.behind (w : List Char) (l : Lexeme) : Lexeme := { l with gap := w ++ l.gap }

/-- Blanks and line ends that are looked over in front of a string literal. -/
def isBlankOrEnd (c : Char) : Bool :=
  c == '\n' || c == ' ' || c == '\t' || c == '\r' || c == '\x0c'

/-- A backslash and the line end that it takes away. -/
def IsJoint (j : List Char) : Prop := j = ['\\', '\n'] ∨ j = ['\\', '\r', '\n']

namespace Lexeme

@[simp]
theorem behind_token (w : List Char) (l : Lexeme) : (l.behind w).token = l.token := rfl

@[simp]
theorem behind_gap (w : List Char) (l : Lexeme) : (l.behind w).gap = w ++ l.gap := rfl

@[simp]
theorem behind_text (w : List Char) (l : Lexeme) : (l.behind w).text = l.text := rfl

@[simp]
theorem behind_rest (w : List Char) (l : Lexeme) : (l.behind w).rest = l.rest := rfl

end Lexeme

/-! ## What is looked over -/

/-- Put a character in front of what was looked over. -/
def consGap (c : Char) (r : Option (List Char × List Char)) : Option (List Char × List Char) :=
  r.map fun (gap, rest) => (c :: gap, rest)

/-- The blanks, line ends and joined lines in front of a text, and the text that follows. -/
def skim : List Char → Option (List Char × List Char)
  | [] => some ([], [])
  | c :: s =>
    if isBlankOrEnd c then consGap c (skim s)
    else if c = '\\' then
      match s with
      | [] => some (['\\'], [])
      | ['\r'] => some (['\\', '\r'], [])
      | '\r' :: '\n' :: s' => consGap '\\' (consGap '\r' (consGap '\n' (skim s')))
      | '\n' :: s' => consGap '\\' (consGap '\n' (skim s'))
      | _ => none
    else some ([], c :: s)

/-- What a survey tells where comments do not count. -/
private def Survey.view (v : Survey) : Option UInt16 × List Char × List Char :=
  (v.comment, v.gap, v.rest)

private theorem map_view_passing (c : Char) (v : Option Survey) :
    (passing c v).map Survey.view =
      (v.map Survey.view).map fun (comment, gap, rest) => (comment, c :: gap, rest) := by
  cases v <;> rfl

/-- The case of a backslash, where shorter texts are looked over alike. -/
private theorem survey_eq_skim_slash {s : List Char} {crossed : Bool} {width : UInt16}
    (h : ∀ {t : List Char}, t.length < ('\\' :: s).length → ∀ (crossed : Bool) (width : UInt16),
      (survey false crossed width none false t).map Survey.view = (skim t).map (none, ·)) :
    (survey false crossed width none false ('\\' :: s)).map Survey.view =
      (skim ('\\' :: s)).map (none, ·) := by
  have hslash : isBlankOrEnd '\\' = false := by decide
  cases s with
  | nil => rfl
  | cons c t =>
    by_cases hnewline : c = '\n'
    · subst hnewline
      have ht := h (t := t) (by simp only [List.length_cons]; omega) crossed width
      simp [survey, skim, hslash, map_view_passing, ht, consGap, Function.comp_def]
    by_cases hreturn : c = '\r'
    · subst hreturn
      cases t with
      | nil => rfl
      | cons d t =>
        by_cases hd : d = '\n'
        · subst hd
          have ht := h (t := t) (by simp only [List.length_cons]; omega) crossed width
          simp [survey, skim, hslash, map_view_passing, ht, consGap, Function.comp_def]
        · simp [survey, skim, hslash, hd]
    · simp [survey, skim, hslash, hnewline, hreturn]

/-- Where comments do not count, what was met before a text does not matter to what is looked over
and to what follows. -/
private theorem survey_eq_skim (s : List Char) (crossed : Bool) (width : UInt16) :
    (survey false crossed width none false s).map Survey.view = (skim s).map (none, ·) := by
  -- Behind a backslash two or three characters are looked over at once.
  induction hn : s.length using Nat.strongRecOn generalizing s crossed width with
  | ind n ih =>
    have hshorter {t : List Char} (ht : t.length < s.length) (crossed : Bool) (width : UInt16) :
        (survey false crossed width none false t).map Survey.view = (skim t).map (none, ·) :=
      ih t.length (hn ▸ ht) t crossed width rfl
    match s with
    | [] => rfl
    | c :: s =>
      have hrest := hshorter (t := s) (Nat.lt_succ_self _)
      by_cases hc : isBlankOrEnd c = true
      · have hcases : c = '\n' ∨ c = ' ' ∨ c = '\t' ∨ c = '\r' ∨ c = '\x0c' := by
          simpa [isBlankOrEnd, or_assoc] using hc
        unfold skim
        rcases hcases with rfl | rfl | rfl | rfl | rfl <;> unfold survey <;>
          simp [map_view_passing, hrest, consGap, hc, Function.comp_def]
      · have hcases : c ≠ '\n' ∧ c ≠ ' ' ∧ c ≠ '\t' ∧ c ≠ '\r' ∧ c ≠ '\x0c' := by
          simpa [isBlankOrEnd, not_or, and_assoc] using hc
        obtain ⟨h₁, h₂, h₃, h₄, h₅⟩ := hcases
        by_cases hslash : c = '\\'
        · subst hslash
          exact survey_eq_skim_slash hshorter
        · unfold survey skim
          simp [h₁, h₂, h₃, h₄, h₅, hc, hslash, Survey.view]

/-! ## Openings of string literals -/

variable {e : Expected}

/-- The opening of a string literal in front of which only blanks, line ends and joined lines
stand. -/
def opening? (s : List Char) : Option Lexeme :=
  (skim s).bind fun (gap, rest) => (openQuote? .plain rest).map fun (text, q, rest) =>
    ⟨.openQuote, gap, text, rest, Nesting.none.openQuote q⟩

private theorem mark?_none (he : e.Opens) (v : Survey) : v.mark? e .none = none := by
  have hcurrent : Nesting.none.current = 0 := rfl
  simp [Survey.mark?, he.indent, he.newline, hcurrent]

/-- Where no layout mark can stand only the opening of a string literal depends on what is open. -/
theorem sensitive?_none (he : e.Opens) (s : List Char) :
    Lexeme.sensitive? e .none s = if e.openQuote then opening? s else none := by
  have hcomments : e.seesComments = false := by
    simp [Expected.seesComments, he.indent, he.dedent, he.newline, he.handler]
  have hskim := survey_eq_skim s false 0
  have hlayout : Lexeme.sensitive? e .none s = Lexeme.layout? e .none [] s := rfl
  rw [hlayout, Lexeme.layout?, hcomments]
  cases hs : survey false false 0 none false s with
  | none =>
    rw [hs, Option.map_none, eq_comm, Option.map_eq_none_iff] at hskim
    simp [opening?, hskim]
  | some v =>
    rw [hs, Option.map_some, eq_comm, Option.map_eq_some_iff] at hskim
    obtain ⟨⟨gap, rest⟩, hgap, hview⟩ := hskim
    obtain ⟨hcomment, rfl, rfl⟩ := by simpa [Survey.view] using hview
    simp [opening?, hgap, mark?_none he, ← hcomment]

private theorem skim_blank {c : Char} (hc : isBlankOrEnd c = true) (s : List Char) :
    skim (c :: s) = consGap c (skim s) := by
  rw [skim.eq_def]
  exact if_pos hc

private theorem skim_append {w : List Char} (hw : ∀ c ∈ w, isBlankOrEnd c = true)
    (s : List Char) : skim (w ++ s) = (skim s).map fun (gap, rest) => (w ++ gap, rest) := by
  induction w with
  | nil => simp
  | cons c w ih =>
    have hc : isBlankOrEnd c = true := hw c List.mem_cons_self
    have hrest := ih fun d hd => hw d (List.mem_cons_of_mem _ hd)
    rw [List.cons_append, skim_blank hc, hrest]
    simp [consGap, Function.comp_def]

private theorem skim_joint {j : List Char} (hj : IsJoint j) (s : List Char) :
    skim (j ++ s) = (skim s).map fun (gap, rest) => (j ++ gap, rest) := by
  have hslash : isBlankOrEnd '\\' = false := by decide
  rcases hj with rfl | rfl <;> cases h : skim s <;>
    simp [skim, consGap, h, hslash]

private theorem opening?_append {w s : List Char}
    (h : skim (w ++ s) = (skim s).map fun (gap, rest) => (w ++ gap, rest)) :
    opening? (w ++ s) = (opening? s).map (·.behind w) := by
  unfold opening?
  rw [h]
  cases skim s with
  | none => rfl
  | some r => simp [Function.comp_def, Lexeme.behind]

/-- A character that opens no string literal and is not looked over stands in front of none. -/
theorem opening?_cons {c : Char} (hblank : isBlankOrEnd c = false) (hslash : c ≠ '\\')
    {s : List Char} (hc : openQuote? .plain (c :: s) = none) : opening? (c :: s) = none := by
  have hskim : skim (c :: s) = some ([], c :: s) := by
    unfold skim
    simp [hblank, hslash]
  simp [opening?, hskim, hc]

/-- A text that opens a string literal behind blanks and line ends. -/
def OpensSoon (s : List Char) : Prop :=
  (openQuote? .plain (s.dropWhile isBlankOrEnd)).isSome = true

instance (s : List Char) : Decidable (OpensSoon s) := inferInstanceAs (Decidable (_ = true))

private theorem opening?_slash {s : List Char} (h : opening? ('\\' :: s) ≠ none) :
    ∃ j t, '\\' :: s = j ++ t ∧ IsJoint j := by
  have hslash : isBlankOrEnd '\\' = false := by decide
  unfold opening? skim at h
  rw [hslash, if_neg Bool.false_ne_true, if_pos rfl] at h
  split at h
  · exact absurd rfl h
  · exact absurd rfl h
  · next t => exact ⟨['\\', '\r', '\n'], t, rfl, Or.inr rfl⟩
  · next t => exact ⟨['\\', '\n'], t, rfl, Or.inl rfl⟩
  · exact absurd rfl h

/-- A string literal opens behind blanks and line ends, or behind a joined line. -/
theorem opening?_cases {s : List Char} (h : opening? s ≠ none) :
    OpensSoon s ∨ ∃ w j t, s = w ++ j ++ t ∧ (∀ c ∈ w, isBlankOrEnd c = true) ∧ IsJoint j := by
  induction s with
  | nil => exact absurd rfl h
  | cons c s ih =>
    by_cases hc : isBlankOrEnd c = true
    · have hsingle : ∀ d ∈ [c], isBlankOrEnd d = true := by simpa using hc
      have hrest : opening? s ≠ none := by
        have hmap := opening?_append (skim_append hsingle s)
        rw [List.singleton_append] at hmap
        intro hnone
        rw [hmap, hnone] at h
        exact h rfl
      rcases ih hrest with hsoon | ⟨w, j, t, rfl, hw, hj⟩
      · left
        rw [OpensSoon, List.dropWhile_cons_of_pos hc]
        exact hsoon
      · right
        refine ⟨c :: w, j, t, rfl, ?_, hj⟩
        intro d hd
        rcases List.mem_cons.1 hd with rfl | hd
        · exact hc
        · exact hw d hd
    · by_cases hslash : c = '\\'
      · subst hslash
        obtain ⟨j, t, heq, hj⟩ := opening?_slash h
        exact Or.inr ⟨[], j, t, heq, by simp, hj⟩
      · left
        rw [OpensSoon, List.dropWhile_cons_of_neg hc, Option.isSome_iff_ne_none]
        intro hnone
        exact h (opening?_cons (Bool.eq_false_iff.2 hc) hslash hnone)

/-! ## Other lexemes -/

variable {n : Nesting}

private theorem joint?_append (w gap s : List Char) :
    Lexeme.joint? n (w ++ gap) s = (Lexeme.joint? n gap s).map (·.behind w) := by
  unfold Lexeme.joint?
  split <;> rfl

private theorem behind?_append (w gap s : List Char) :
    Lexeme.behind? e n (w ++ gap) s = (Lexeme.behind? e n gap s).map (·.behind w) := by
  unfold Lexeme.behind?
  split
  · split <;> rfl
  · exact joint?_append w gap _
  · rfl
  · simp [Function.comp_def, Lexeme.behind]

private theorem drop_length_takeWhile (p : Char → Bool) (s : List Char) :
    s.drop (s.takeWhile p).length = s.dropWhile p := by
  have happend := List.takeWhile_append_dropWhile (p := p) (l := s)
  calc s.drop (s.takeWhile p).length
      = (s.takeWhile p ++ s.dropWhile p).drop (s.takeWhile p).length := by rw [happend]
    _ = s.dropWhile p := List.drop_left

/-- Where a backslash has no meaning by itself, a lexeme stands behind a gap. -/
theorem plain?_eq (he : e.Opens) (s : List Char) :
    Lexeme.plain? e n s =
      Lexeme.behind? e n (s.takeWhile Lexeme.isSpace) (s.dropWhile Lexeme.isSpace) := by
  unfold Lexeme.plain?
  rw [if_neg (by simp [he.format]), Option.none_or]
  split
  · next s =>
    have hslash : Lexeme.isSpace '\\' = false := by decide
    simp [Lexeme.backslash?, he.escape, he.backslash, Lexeme.behind?, hslash]
  · simp only [drop_length_takeWhile]

private theorem plain?_append (he : e.Opens) {w : List Char}
    (hw : ∀ c ∈ w, Lexeme.isSpace c = true) (s : List Char) :
    Lexeme.plain? e n (w ++ s) = (Lexeme.plain? e n s).map (·.behind w) := by
  rw [plain?_eq he, plain?_eq he, List.takeWhile_append_of_pos hw, List.dropWhile_append_of_pos hw,
    behind?_append]

/-- Blanks and line ends stand between tokens. -/
theorem isSpace_of_isBlankOrEnd {c : Char} (hc : isBlankOrEnd c = true) :
    Lexeme.isSpace c = true := by
  have hcases : c = '\n' ∨ c = ' ' ∨ c = '\t' ∨ c = '\r' ∨ c = '\x0c' := by
    simpa [isBlankOrEnd, or_assoc] using hc
  rcases hcases with rfl | rfl | rfl | rfl | rfl <;> decide

/-! ## The first lexeme -/

/-- Blanks and line ends in front of a text belong to the gap of its first lexeme. -/
theorem first?_blanks (he : e.Opens) {w : List Char} (hw : ∀ c ∈ w, isBlankOrEnd c = true)
    (s : List Char) :
    Lexeme.first? e .none (w ++ s) = (Lexeme.first? e .none s).map (·.behind w) := by
  have hplain := plain?_append (n := .none) he (fun c hc => isSpace_of_isBlankOrEnd (hw c hc)) s
  rw [Lexeme.first?, Lexeme.first?, sensitive?_none he, sensitive?_none he, hplain,
    opening?_append (skim_append hw s)]
  cases e.openQuote <;> cases opening? s <;> simp

/-- A byte order mark opens no string literal. -/
theorem sensitive?_mark (he : e.Opens) (s : List Char) :
    Lexeme.sensitive? e .none ('\ufeff' :: s) = none := by
  have hmark : opening? ('\ufeff' :: s) = none :=
    opening?_cons (by decide) (by decide) (by simp [openQuote?])
  rw [sensitive?_none he, hmark, ite_self]

/-- A byte order mark in front of a text that opens no string literal belongs to the gap of the
first lexeme. -/
theorem first?_mark (he : e.Opens) {s : List Char} (hs : Lexeme.sensitive? e .none s = none) :
    Lexeme.first? e .none ('\ufeff' :: s) =
      (Lexeme.first? e .none s).map (·.behind ['\ufeff']) := by
  have hplain := plain?_append (n := .none) (w := ['\ufeff']) he (List.all_eq_true.1 (by decide)) s
  rw [List.singleton_append] at hplain
  rw [Lexeme.first?, Lexeme.first?, sensitive?_mark he, hs, hplain]
  simp

/-- Where a joined line stands behind blanks and no string literal opens behind it, the first lexeme
is the joint. -/
theorem first?_joint (he : e.Opens) {w j s : List Char} (hw : ∀ c ∈ w, Lexeme.isSpace c = true)
    (hj : IsJoint j) (hs : Lexeme.sensitive? e .none (w ++ j ++ s) = none) :
    Lexeme.first? e .none (w ++ j ++ s) = some ⟨.joint, w, j, s, .none⟩ := by
  have hslash : Lexeme.isSpace '\\' = false := by decide
  have hjoint : Lexeme.plain? e .none (j ++ s) = some ⟨.joint, [], j, s, .none⟩ := by
    rw [plain?_eq he]
    rcases hj with rfl | rfl <;> simp [hslash, Lexeme.behind?, Lexeme.joint?]
  rw [Lexeme.first?, hs, List.append_assoc, plain?_append he hw, hjoint]
  simp [Lexeme.behind]

/-- Where a string literal opens behind a joined line, the joint belongs to its gap. -/
theorem first?_append_of_sensitive? (he : e.Opens) {w j s : List Char}
    (hw : ∀ c ∈ w, isBlankOrEnd c = true) (hj : IsJoint j)
    (hs : Lexeme.sensitive? e .none (w ++ j ++ s) ≠ none) :
    Lexeme.first? e .none (w ++ j ++ s) = (Lexeme.first? e .none s).map (·.behind (w ++ j)) := by
  have hskim : skim (w ++ j ++ s) = (skim s).map fun (gap, rest) => (w ++ j ++ gap, rest) := by
    rw [List.append_assoc, skim_append hw, skim_joint hj]
    simp [Function.comp_def]
  rw [sensitive?_none he, opening?_append hskim] at hs
  rw [Lexeme.first?, Lexeme.first?, sensitive?_none he, sensitive?_none he, opening?_append hskim]
  cases hq : e.openQuote <;> cases ho : opening? s <;> simp_all

/-- A comment runs to the end of its line. -/
theorem first?_comment (he : e.Opens) {body : List Char}
    (hbody : ∀ c ∈ body, c ≠ '\n' ∧ c ≠ '\x00') {rest : List Char}
    (hrest : ∀ c ∈ rest.head?, c = '\n' ∨ c = '\x00') :
    Lexeme.first? e .none ('#' :: (body ++ rest)) =
      some ⟨.comment, [], '#' :: body, rest, .none⟩ := by
  have hopening : opening? ('#' :: (body ++ rest)) = none :=
    opening?_cons (by decide) (by decide) (by simp [openQuote?])
  have hhash : Lexeme.isSpace '#' = false := by decide
  have htake : (body ++ rest).takeWhile (fun c => c != '\n' && c != '\x00') = body := by
    have hall : ∀ c ∈ body, (c != '\n' && c != '\x00') = true := by simpa using hbody
    rw [List.takeWhile_append_of_pos hall]
    cases rest with
    | nil => simp
    | cons c rest =>
      have hc : c = '\n' ∨ c = '\x00' := hrest c rfl
      rcases hc with rfl | rfl <;> simp
  rw [Lexeme.first?, sensitive?_none he, hopening, plain?_eq he]
  simp [hhash, Lexeme.behind?, htake]

/-! ## What lexemes hold -/

/-- A text opens a string literal with letters and a quote mark. -/
def OpensQuote (s : List Char) : Prop :=
  ∃ letters mark t, s = letters ++ mark :: t ∧ (∀ c ∈ letters, isQuoteLetter c = true) ∧
    isQuoteMark mark = true

private theorem opensQuote_cons {c : Char} {s : List Char} (hc : isQuoteLetter c = true)
    (hs : OpensQuote s) : OpensQuote (c :: s) := by
  obtain ⟨letters, mark, t, rfl, hletters, hmark⟩ := hs
  refine ⟨c :: letters, mark, t, rfl, ?_, hmark⟩
  intro d hd
  rcases List.mem_cons.1 hd with rfl | hd
  · exact hc
  · exact hletters d hd

private theorem isQuoteLetter_iff {c : Char} : isQuoteLetter c = true ↔
    (c = 'f' ∨ c = 'F') ∨ (c = 'r' ∨ c = 'R') ∨ (c = 'b' ∨ c = 'B') ∨ c = 'u' ∨ c = 'U' := by
  have hletters : "fFrRbBuU".toList = ['f', 'F', 'r', 'R', 'b', 'B', 'u', 'U'] := rfl
  rw [isQuoteLetter, hletters]
  simp [or_assoc]

private theorem opensQuote_of_map {c : Char} {s : List Char} {q : Quote}
    {r : List Char × Quote × List Char} (hc : isQuoteLetter c = true)
    (hs : ∀ r', openQuote? q s = some r' → OpensQuote s)
    (h : (openQuote? q s).map (fun x => (c :: x.1, x.2)) = some r) :
    r.1 ≠ [] ∧ OpensQuote (c :: s) := by
  obtain ⟨r', hr', rfl⟩ := Option.map_eq_some_iff.1 h
  exact ⟨List.cons_ne_nil _ _, opensQuote_cons hc (hs r' hr')⟩

/-- The opening of a string literal has a text, made of letters and a quote mark. -/
theorem opensQuote_of_openQuote? {q : Quote} {s : List Char} {r : List Char × Quote × List Char}
    (h : openQuote? q s = some r) : r.1 ≠ [] ∧ OpensQuote s := by
  induction s generalizing q r with
  | nil => simp [openQuote?] at h
  | cons c s ih =>
    have ih' : ∀ (q : Quote) r', openQuote? q s = some r' → OpensQuote s :=
      fun q r' h' => (ih h').2
    unfold openQuote? at h
    split at h
    · next hc => exact opensQuote_of_map (isQuoteLetter_iff.2 (Or.inl hc)) (ih' _) h
    split at h
    · next hc => exact opensQuote_of_map (isQuoteLetter_iff.2 (Or.inr (Or.inl hc))) (ih' _) h
    split at h
    · next hc =>
      exact opensQuote_of_map (isQuoteLetter_iff.2 (Or.inr (Or.inr (Or.inl hc)))) (ih' _) h
    split at h
    · next hc =>
      exact opensQuote_of_map (isQuoteLetter_iff.2 (Or.inr (Or.inr (Or.inr hc)))) (ih' _) h
    split at h
    · next hc =>
      have hmark : isQuoteMark c = true := by
        rcases hc with rfl | rfl <;> decide
      refine ⟨?_, [], c, s, rfl, by simp, hmark⟩
      split at h
      · split at h <;> obtain rfl := Option.some.inj h <;> simp
      · obtain rfl := Option.some.inj h
        simp
    split at h
    · next hc =>
      subst hc
      obtain rfl := Option.some.inj h
      exact ⟨by simp, [], '`', s, rfl, by simp, by decide⟩
    · simp at h

private theorem isDigit_of_takeDecimals {s : List Char} (h : (takeDecimals false s).1 ≠ []) :
    ∃ c t, s = c :: t ∧ c.isDigit = true := by
  cases s with
  | nil => simp [takeDecimals] at h
  | cons c t =>
    refine ⟨c, t, rfl, ?_⟩
    by_contra hc
    simp [takeDecimals, hc] at h

private theorem decimalFrom_ne_nil {digits : List Char} (h : digits ≠ []) (s : List Char) :
    (decimalFrom digits s).1 ≠ [] := by
  unfold decimalFrom
  split
  · simp [h]
  · split <;> simp [h]

private theorem of_radix?_eq_some {s : List Char} {r : List Char × List Char}
    (h : radix? s = some r) : r.1 ≠ [] ∧ ∃ t, s = '0' :: t := by
  unfold radix? at h
  split at h
  · next letter s =>
    refine ⟨?_, letter :: s, rfl⟩
    cases hdigit : radixDigit? letter with
    | none => simp [hdigit] at h
    | some digit =>
      obtain ⟨_, rfl⟩ := by simpa [hdigit] using h
      simp
  · simp at h

private theorem of_decimal?_eq_some {s : List Char} {r : List Char × List Char}
    (h : decimal? s = some r) :
    r.1 ≠ [] ∧ ∃ c t, s = c :: t ∧ (c.isDigit = true ∨ c = '.') := by
  unfold decimal? at h
  by_cases hdigits : (takeDecimals false s).1 = []
  · simp only [hdigits, List.isEmpty_nil, if_true] at h
    split at h
    · next t =>
      obtain ⟨_, rfl⟩ := by simpa using h
      exact ⟨by simp, '.', t, rfl, Or.inr rfl⟩
    · simp at h
  · have hsome : some (decimalFrom (takeDecimals false s).1 (takeDecimals false s).2) = some r := by
      simpa [hdigits] using h
    obtain ⟨c, t, rfl, hc⟩ := isDigit_of_takeDecimals hdigits
    obtain rfl := Option.some.inj hsome
    exact ⟨decimalFrom_ne_nil hdigits _, c, t, rfl, Or.inl hc⟩

/-- A number has a text, and begins with a digit or a point. -/
theorem of_number?_eq_some {s : List Char} {r : List Char × List Char} (h : number? s = some r) :
    r.1 ≠ [] ∧ ∃ c t, s = c :: t ∧ (c.isDigit = true ∨ c = '.') := by
  rw [number?, Option.or_eq_some_iff] at h
  rcases h with h | ⟨_, h⟩
  · obtain ⟨hne, t, rfl⟩ := of_radix?_eq_some h
    exact ⟨hne, '0', t, rfl, Or.inl rfl⟩
  · exact of_decimal?_eq_some h

/-- A number that is found is a number and has a text. -/
theorem numberAt?_ne_nil {s : List Char} {r : Token × List Char}
    (h : Lexeme.numberAt? e s = some r) : r.1 = .number ∧ r.2 ≠ [] := by
  unfold Lexeme.numberAt? at h
  split at h
  · obtain ⟨r', hr', rfl⟩ := Option.map_eq_some_iff.1 h
    exact ⟨rfl, (of_number?_eq_some hr').1⟩
  · simp at h

/-- A conversion that is found is a conversion and has a text. -/
theorem conversionAt?_ne_nil {s : List Char} {r : Token × List Char}
    (h : Lexeme.conversionAt? e s = some r) : r.1 = .conversion ∧ r.2 ≠ [] := by
  unfold Lexeme.conversionAt? at h
  split at h
  · obtain ⟨_, rfl⟩ := by simpa using h
    exact ⟨rfl, by simp⟩
  · simp at h

private theorem nameAt?_ne_nil {s : List Char} {r : Token × List Char}
    (h : Lexeme.nameAt? e s = some r) : (r.1 = .name ∨ ∃ w, r.1 = .word w) ∧ r.2 ≠ [] := by
  cases s with
  | nil => simp [Lexeme.nameAt?] at h
  | cons c s =>
    simp only [Lexeme.nameAt?] at h
    split at h
    · split at h
      · obtain rfl := Option.some.inj h
        exact ⟨Or.inr ⟨_, rfl⟩, by simp⟩
      split at h
      · simp at h
      · obtain rfl := Option.some.inj h
        exact ⟨Or.inl rfl, by simp⟩
    · simp at h

/-- A sign that is expected stands at the start of a text. -/
def SignStands (e : Expected) (s : List Char) (r : Token × List Char) : Prop :=
  ∃ sign ∈ e.signs, r = (.sign sign, sign.toList) ∧ sign.toList <+: s

/-- A sign that is found is one that is expected, and stands at the start of the text. -/
theorem signStands_of_signAt? {s : List Char} {r : Token × List Char}
    (h : Lexeme.signAt? e s = some r) : SignStands e s r := by
  suffices hall : ∀ r ∈ Lexeme.signAt? e s, SignStands e s r from hall r h
  rw [Lexeme.signAt?]
  refine List.foldlRecOn (motive := fun best => ∀ r ∈ best, SignStands e s r) e.signs _
    (by simp) ?_
  intro best hbest sign hsign r hr
  simp only at hr
  split at hr
  · next hstarts =>
    obtain rfl := Option.some.inj hr
    exact ⟨sign, hsign, rfl, List.isPrefixOf_iff_prefix.1 hstarts.1⟩
  · exact hbest r hr

private theorem longer_eq_some {a b : Option (Token × List Char)} {r : Token × List Char}
    (h : Lexeme.longer a b = some r) : a = some r ∨ b = some r := by
  unfold Lexeme.longer at h
  split at h
  · exact Or.inr h
  · exact Or.inl h
  · split at h
    · exact Or.inr h
    · exact Or.inl h

/-- The longest text of a token at the start of a text is one of a number, a conversion, a name or
word, or a sign. -/
theorem of_longest?_eq_some {s : List Char} {r : Token × List Char}
    (h : Lexeme.longest? e s = some r) :
    Lexeme.numberAt? e s = some r ∨ Lexeme.conversionAt? e s = some r ∨
      Lexeme.nameAt? e s = some r ∨ Lexeme.signAt? e s = some r := by
  rcases longer_eq_some h with h | h
  · rcases longer_eq_some h with h | h
    · exact Or.inl h
    · exact Or.inr (Or.inl h)
  · rcases longer_eq_some h with h | h
    · exact Or.inr (Or.inr (Or.inl h))
    · exact Or.inr (Or.inr (Or.inr h))

private theorem longest?_ne_nil (he : e.Opens) {s : List Char} {r : Token × List Char}
    (h : Lexeme.longest? e s = some r) : (r.1 ≠ .comment ∧ r.1 ≠ .joint) ∧ r.2 ≠ [] := by
  rcases of_longest?_eq_some h with h | h | h | h
  · obtain ⟨htoken, hne⟩ := numberAt?_ne_nil h
    exact ⟨by simp [htoken], hne⟩
  · obtain ⟨htoken, hne⟩ := conversionAt?_ne_nil h
    exact ⟨by simp [htoken], hne⟩
  · obtain ⟨htoken | ⟨w, htoken⟩, hne⟩ := nameAt?_ne_nil h <;> exact ⟨by simp [htoken], hne⟩
  · obtain ⟨sign, hsign, rfl, _⟩ := signStands_of_signAt? h
    refine ⟨by simp, ?_⟩
    intro hnil
    have hlike := he.signs sign hsign
    have hempty : sign.toList = [] := hnil
    simp [isSignLike, hempty] at hlike

private theorem of_joint?_eq_some {gap s : List Char} {l : Lexeme}
    (h : Lexeme.joint? n gap s = some l) :
    l.text ≠ [] ∧ l.nesting = n ∧ l.rest.length < s.length := by
  unfold Lexeme.joint? at h
  split at h
  · obtain rfl := Option.some.inj h
    exact ⟨by simp, rfl, by simp only [List.length_cons]; omega⟩
  · obtain rfl := Option.some.inj h
    exact ⟨by simp, rfl, by simp only [List.length_cons]; omega⟩
  · obtain rfl := Option.some.inj h
    exact ⟨by simp, rfl, by simp only [List.length_cons]; omega⟩
  · simp at h

private theorem of_behind?_eq_some (he : e.Opens) {gap s : List Char} {l : Lexeme}
    (h : Lexeme.behind? e n gap s = some l) :
    l.token = .finish ∨ l.text ≠ [] ∧ (l.token = .comment ∨ l.token = .joint →
      l.nesting = n ∧ l.rest.length < s.length) := by
  unfold Lexeme.behind? at h
  split at h
  · split at h
    · obtain rfl := Option.some.inj h
      exact Or.inl rfl
    · simp at h
  · obtain ⟨htext, hnesting, hrest⟩ := of_joint?_eq_some h
    refine Or.inr ⟨htext, fun _ => ⟨hnesting, ?_⟩⟩
    rw [List.length_cons]
    omega
  · obtain rfl := Option.some.inj h
    refine Or.inr ⟨by simp, fun _ => ⟨rfl, ?_⟩⟩
    simp only [List.length_drop, List.length_cons]
    omega
  · obtain ⟨r, hr, rfl⟩ := Option.map_eq_some_iff.1 h
    obtain ⟨⟨hcomment, hjoint⟩, hne⟩ := longest?_ne_nil he hr
    exact Or.inr ⟨hne, fun hl => absurd hl (not_or.2 ⟨hcomment, hjoint⟩)⟩

/-- What a lexeme at the start of a script is: the end of the script; or a comment or a joint, with
less left to read and nothing open behind it; or a token with a text. -/
theorem of_first?_eq_some (he : e.Opens) {s : List Char} {l : Lexeme}
    (h : Lexeme.first? e .none s = some l) :
    l.token = .finish ∨ l.text ≠ [] ∧ (l.token = .comment ∨ l.token = .joint →
      l.nesting = .none ∧ l.rest.length < s.length) := by
  rw [Lexeme.first?, Option.or_eq_some_iff] at h
  rcases h with h | ⟨_, h⟩
  · rw [sensitive?_none he] at h
    split at h
    · obtain ⟨⟨gap, rest⟩, _, h⟩ := Option.bind_eq_some_iff.1 h
      obtain ⟨r, hr, rfl⟩ := Option.map_eq_some_iff.1 h
      exact Or.inr ⟨(opensQuote_of_openQuote? hr).1, fun hl => absurd hl (by simp)⟩
    · simp at h
  · rw [plain?_eq he] at h
    rcases of_behind?_eq_some he h with hfinish | ⟨htext, hl⟩
    · exact Or.inl hfinish
    · have hle : (s.dropWhile Lexeme.isSpace).length ≤ s.length :=
        (List.dropWhile_sublist _).length_le
      refine Or.inr ⟨htext, fun hcomment => ⟨(hl hcomment).1, ?_⟩⟩
      have hlt := (hl hcomment).2
      omega

end ScriptDeps.Source
