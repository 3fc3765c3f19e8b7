import Mathlib.Algebra.Group.Nat.Defs
import ScriptDeps.Proofs.Source.Expecting
import ScriptDeps.Proofs.Source.Leading

/-!
# Lexemes of single tokens

Where exactly one of some competing tokens is expected, the text alone says what is read: a word, a
name, a sign, or a layout mark at a line end. String literals are not open here, and none opens.
Main statements: `first?_word`, `first?_name`, `first?_sign`, `first?_newline`, `first?_indent`,
`first?_dedent` and `first?_finish`.
-/

namespace ScriptDeps.Source

open Text

/-! ## Characters -/

/-- A letter, digit or underscore of the basic alphabet. -/
def isWordChar (c : Char) : Bool := c.isAlphanum || c == '_'

/-- A letter or underscore of the basic alphabet. -/
def isWordStart (c : Char) : Bool := c.isAlpha || c == '_'

/-- A character that ends a word. -/
def isDelimiter (c : Char) : Bool := [' ', ',', '.', '(', ':', '\n'].contains c

/-- A character that goes on with a sign. -/
def isDoubling (c : Char) : Bool := ['=', '>', '<', '*', '/'].contains c

/-- A character that can be seen and begins neither a comment nor a joint. -/
def isVisible (c : Char) : Bool := !Lexeme.isSpace c && c != '#' && c != '\\'

/-- A sign of one character. -/
def isPoint (c : Char) : Bool := ['.', ',', ':', '(', ')', '*'].contains c

/-- The characters of plain words are in the basic alphabet. -/
theorem lt_of_isWordChar {c : Char} (hc : isWordChar c = true) : c.toNat < 128 := by
  rw [isWordChar, Bool.or_eq_true, beq_iff_eq] at hc
  rcases hc with hc | rfl
  · unfold Char.isAlphanum Char.isAlpha Char.isUpper Char.isLower Char.isDigit at hc
    simp only [Bool.or_eq_true, Bool.and_eq_true, decide_eq_true_eq, ge_iff_le,
      UInt32.le_iff_toNat_le] at hc
    have hZ : 'Z'.val.toNat = 90 := rfl
    have hz : 'z'.val.toNat = 122 := rfl
    have h9 : '9'.val.toNat = 57 := rfl
    rw [Char.toNat]
    omega
  · decide

/-- What holds of all characters of the basic alphabet that can be counted. -/
private theorem of_all_ascii {p : Char → Bool}
    (h : (List.range 128).all (fun n => p (Char.ofNat n)) = true) {c : Char} (hc : c.toNat < 128) :
    p c = true := by
  have hall := List.all_eq_true.1 h c.toNat (List.mem_range.2 hc)
  rwa [Char.ofNat_toNat] at hall

/-- What a character of a word is and is not. -/
private structure WordChar (c : Char) : Prop where
  rest : isNameRest c = true
  visible : isVisible c = true
  mark : isQuoteMark c = false
  point : c ≠ '.'
  bang : c ≠ '!'

private def isOrdinary (c : Char) : Bool :=
  !isWordChar c || (isNameRest c && isVisible c && !isQuoteMark c && c != '.' && c != '!')

private theorem wordChar {c : Char} (hc : isWordChar c = true) : WordChar c := by
  have hall : (List.range 128).all (fun n => isOrdinary (Char.ofNat n)) = true := by
    decide +kernel
  have h := of_all_ascii hall (lt_of_isWordChar hc)
  simp only [isOrdinary, hc, Bool.not_true, Bool.false_or, Bool.and_eq_true, bne_iff_ne,
    Bool.not_eq_true'] at h
  obtain ⟨⟨⟨⟨hrest, hvisible⟩, hmark⟩, hpoint⟩, hbang⟩ := h
  exact ⟨hrest, hvisible, hmark, hpoint, hbang⟩

/-- A character of a word is one of names. -/
theorem isNameRest_of_isWordChar {c : Char} (hc : isWordChar c = true) : isNameRest c = true :=
  (wordChar hc).rest

private theorem isWordChar_of_isWordStart {c : Char} (hc : isWordStart c = true) :
    isWordChar c = true := by
  rw [isWordStart, Bool.or_eq_true] at hc
  rw [isWordChar, Bool.or_eq_true, Char.isAlphanum, Bool.or_eq_true]
  exact hc.imp_left Or.inl

private theorem of_isWordStart {c : Char} (hc : isWordStart c = true) :
    isNameStart c = true ∧ c.isDigit = false := by
  have hall : (List.range 128).all (fun n => (!isWordStart (Char.ofNat n) ||
      (isNameStart (Char.ofNat n) && !(Char.ofNat n).isDigit))) = true := by
    decide +kernel
  have h := of_all_ascii (p := fun c => !isWordStart c || (isNameStart c && !c.isDigit)) hall
    (lt_of_isWordChar (isWordChar_of_isWordStart hc))
  simpa [hc] using h

private theorem of_isDelimiter {c : Char} (hc : isDelimiter c = true) :
    isNameRest c = false ∧ isQuoteMark c = false ∧ isQuoteLetter c = false := by
  have hall : [' ', ',', '.', '(', ':', '\n'].all (fun c =>
      !isNameRest c && !isQuoteMark c && !isQuoteLetter c) = true := by
    decide +kernel
  simpa [and_assoc] using List.all_eq_true.1 hall c (List.contains_iff_mem.1 hc)

/-- What a sign of one character is and is not. -/
private structure Point (c : Char) : Prop where
  start : isNameStart c = false
  visible : isVisible c = true
  digit : c.isDigit = false
  bang : c ≠ '!'
  quote : isQuoteMark c = false ∧ isQuoteLetter c = false

private theorem point {c : Char} (hc : isPoint c = true) : Point c := by
  have hall : ['.', ',', ':', '(', ')', '*'].all (fun c => !isNameStart c && isVisible c &&
      !c.isDigit && c != '!' && !isQuoteMark c && !isQuoteLetter c) = true := by
    decide +kernel
  have h := List.all_eq_true.1 hall c (List.contains_iff_mem.1 hc)
  simp only [Bool.and_eq_true, Bool.not_eq_true', bne_iff_ne] at h
  obtain ⟨⟨⟨⟨⟨hstart, hvisible⟩, hdigit⟩, hbang⟩, hmark⟩, hletter⟩ := h
  exact ⟨hstart, hvisible, hdigit, hbang, hmark, hletter⟩

/-! ## No string literal opens -/

private theorem opensQuote_cons_iff {c : Char} {s : List Char} (hc : isQuoteMark c = false) :
    OpensQuote (c :: s) ↔ isQuoteLetter c = true ∧ OpensQuote s := by
  constructor
  · rintro ⟨letters, mark, t, heq, hletters, hmark⟩
    cases letters with
    | nil =>
      obtain ⟨rfl, -⟩ := List.cons.inj heq
      simp [hc] at hmark
    | cons d letters =>
      obtain ⟨rfl, rfl⟩ := List.cons.inj heq
      exact ⟨hletters _ List.mem_cons_self, letters, mark, t, rfl,
        fun d hd => hletters d (List.mem_cons_of_mem _ hd), hmark⟩
  · rintro ⟨hletter, letters, mark, t, rfl, hletters, hmark⟩
    exact ⟨c :: letters, mark, t, rfl, by simpa [hletter] using hletters, hmark⟩

private theorem openQuote?_eq_none {q : Quote} {s : List Char} (h : ¬OpensQuote s) :
    openQuote? q s = none := by
  cases hs : openQuote? q s with
  | none => rfl
  | some r => exact absurd (opensQuote_of_openQuote? hs).2 h

/-- A word, up to a character that ends it. -/
structure IsWord (text rest : List Char) : Prop where
  /-- The first character. -/
  head : ∃ c t, text = c :: t ∧ isWordStart c = true
  /-- All characters. -/
  all : ∀ c ∈ text, isWordChar c = true
  /-- The character that ends the word. -/
  ended : ∃ d r, rest = d :: r ∧ isDelimiter d = true

private theorem not_opensQuote_append {text rest : List Char}
    (htext : ∀ c ∈ text, isWordChar c = true) (hrest : ¬OpensQuote rest) :
    ¬OpensQuote (text ++ rest) := by
  induction text with
  | nil => exact hrest
  | cons c text ih =>
    rw [List.cons_append, opensQuote_cons_iff (wordChar (htext c List.mem_cons_self)).mark]
    exact fun h => ih (fun d hd => htext d (List.mem_cons_of_mem _ hd)) h.2

/-- A plain word opens no literal. -/
theorem IsWord.not_opensQuote {text rest : List Char} (h : IsWord text rest) :
    ¬OpensQuote (text ++ rest) := by
  apply not_opensQuote_append h.all
  obtain ⟨d, r, rfl, hd⟩ := h.ended
  obtain ⟨-, hmark, hletter⟩ := of_isDelimiter hd
  rw [opensQuote_cons_iff hmark, hletter]
  simp

/-- A sign opens no literal. -/
theorem not_opensQuote_point {c : Char} (hc : isPoint c = true) (rest : List Char) :
    ¬OpensQuote (c :: rest) := by
  obtain ⟨hmark, hletter⟩ := (point hc).quote
  rw [opensQuote_cons_iff hmark, hletter]
  simp

/-! ## Line ends and indentation -/

/-- Only blocks are open. -/
def Nesting.blocks (indents : List Nat) : Nesting := ⟨indents, [], false⟩

/-- Some spaces. -/
def spaces (n : Nat) : List Char := List.replicate n ' '

private theorem isSpace_of_mem_spaces {n : Nat} {c : Char} (hc : c ∈ spaces n) :
    Lexeme.isSpace c = true := by
  rw [List.eq_of_mem_replicate hc]
  decide

private theorem of_isVisible {c : Char} (hc : isVisible c = true) :
    Lexeme.isSpace c = false ∧ c ≠ '#' ∧ c ≠ '\\' := by
  simpa [isVisible, and_assoc] using hc

private theorem survey_visible {c : Char} (hc : isVisible c = true) (comments crossed : Bool)
    (width : UInt16) (s : List Char) :
    survey comments crossed width none false (c :: s) =
      some ⟨crossed, width, none, [], c :: s⟩ := by
  obtain ⟨hspace, hhash, hslash⟩ := of_isVisible hc
  have hnot {d : Char} (hd : Lexeme.isSpace d = true) : c ≠ d := by
    rintro rfl
    simp [hspace] at hd
  have hnewline : c ≠ '\n' := hnot (by decide)
  have hblank : c ≠ ' ' := hnot (by decide)
  have htab : c ≠ '\t' := hnot (by decide)
  have hreturn : c ≠ '\r' := hnot (by decide)
  have hfeed : c ≠ '\x0c' := hnot (by decide)
  rw [survey.eq_def]
  simp [hnewline, hblank, htab, hreturn, hfeed, hhash, hslash]

/-- The look over some spaces in front of a token. -/
private theorem survey_spaces {c : Char} (hc : isVisible c = true) (comments crossed : Bool)
    (width : UInt16) (n : Nat) (s : List Char) :
    survey comments crossed width none false (spaces n ++ c :: s) =
      some ⟨crossed, width + UInt16.ofNat n, none, spaces n, c :: s⟩ := by
  induction n generalizing width with
  | zero => simpa [spaces] using survey_visible hc comments crossed width s
  | succ n ih =>
    have hwidth : width + 1 + UInt16.ofNat n = width + UInt16.ofNat (n + 1) := by
      rw [UInt16.ofNat_add, UInt16.add_assoc, UInt16.add_comm (UInt16.ofNat n)]
      rfl
    have hspaces : spaces (n + 1) = ' ' :: spaces n := rfl
    rw [hspaces, List.cons_append, survey.eq_def]
    simp [ih, passing, hwidth]

/-- A text at the end of a line: behind it stands a token with some indentation, or nothing. -/
inductive LineEnd : Nat → List Char → Prop
  | token {c : Char} (hc : isVisible c = true) (width : Nat) (s : List Char) :
      LineEnd width ('\n' :: spaces width ++ c :: s)
  | finish : LineEnd 0 ['\n']

/-- The look over a line end. -/
private theorem survey_lineEnd {width : Nat} {s : List Char} (h : LineEnd width s)
    (comments : Bool) : ∃ gap rest, survey comments false 0 none false s =
      some ⟨true, UInt16.ofNat width, none, gap, rest⟩ := by
  cases h with
  | @token c hc width s =>
    refine ⟨'\n' :: spaces width, c :: s, ?_⟩
    rw [List.cons_append, survey.eq_def]
    simp [survey_spaces hc, passing]
  | finish => exact ⟨['\n'], [], by rw [survey.eq_def]; simp [survey, passing]⟩

variable {e : Expected} {indents : List Nat}

/-- The layout mark at a line end. -/
private theorem first?_layout {width : Nat} {s : List Char} {mark : Token} (h : LineEnd width s)
    (hmark : ∀ gap rest,
      Survey.mark? ⟨true, UInt16.ofNat width, none, gap, rest⟩ e (.blocks indents) = some mark) :
    Lexeme.first? e (.blocks indents) s = some ⟨mark, [], [], s,
      Survey.nesting ⟨true, UInt16.ofNat width, none, [], []⟩ mark (.blocks indents)⟩ := by
  obtain ⟨gap, rest, hsurvey⟩ := survey_lineEnd h e.seesComments
  have hlayout : Lexeme.layout? e (.blocks indents) [] s = some ⟨mark, [], [], s,
      Survey.nesting ⟨true, UInt16.ofNat width, none, [], []⟩ mark (.blocks indents)⟩ := by
    rw [Lexeme.layout?, hsurvey, Option.bind_some, hmark]
    cases mark <;> rfl
  have hsensitive : Lexeme.sensitive? e (.blocks indents) s =
      Lexeme.layout? e (.blocks indents) [] s := rfl
  rw [Lexeme.first?, hsensitive, hlayout, Option.some_or]

private theorem toNat_ofNat {width : Nat} (hwidth : width < 2 ^ 16) :
    (UInt16.ofNat width).toNat = width :=
  UInt16.toNat_ofNat_of_lt' hwidth

/-- A statement ends at a line end. -/
theorem first?_newline {width : Nat} {s : List Char} (he : e.Takes .newline)
    (h : LineEnd width s) :
    Lexeme.first? e (.blocks indents) s = some ⟨.newline, [], [], s, .blocks indents⟩ := by
  have hnewline : e.newline = true := he.expects
  have hindent : e.indent = false := he.alone .indent (by simp [rivals])
  have hdedent : e.dedent = false := he.alone .dedent (by simp [rivals])
  have hmark (gap rest : List Char) :
      Survey.mark? ⟨true, UInt16.ofNat width, none, gap, rest⟩ e (.blocks indents) =
        some .newline := by
    simp [Survey.mark?, hnewline, hindent, hdedent]
  exact first?_layout h hmark

/-- A block opens at a line end with more indentation, which counts modulo 256 behind it. -/
theorem first?_indent {width : Nat} {s : List Char} (he : e.Takes .indent) (h : LineEnd width s)
    (hwidth : width < 2 ^ 16) (hdeeper : (Nesting.blocks indents).current < width)
    (hdepth : indents.length < 1022) :
    Lexeme.first? e (.blocks indents) s =
      some ⟨.indent, [], [], s, .blocks (width % 256 :: indents)⟩ := by
  have hindent : e.indent = true := he.expects
  have hnat : (UInt16.ofNat width).toNat = width := toNat_ofNat hwidth
  have hopen : (Nesting.blocks indents).openBlock width = .blocks (width % 256 :: indents) := by
    have hroom : (Nesting.blocks indents).indents.length + (Nesting.blocks indents).quotes.length <
        Nesting.depthLimit := hdepth
    rw [Nesting.openBlock, if_pos hroom]
    rfl
  have hmark (gap rest : List Char) :
      Survey.mark? ⟨true, UInt16.ofNat width, none, gap, rest⟩ e (.blocks indents) =
        some .indent := by
    simp [Survey.mark?, hindent, hnat, hdeeper]
  rw [first?_layout h hmark]
  simp [Survey.nesting, hnat, hopen]

/-- A block ends at a line end with less indentation. -/
theorem first?_dedent {width indent : Nat} {s : List Char} (he : e.Takes .dedent)
    (h : LineEnd width s) (hwidth : width < 2 ^ 16) (hless : width < indent) :
    Lexeme.first? e (.blocks (indent :: indents)) s =
      some ⟨.dedent, [], [], s, .blocks indents⟩ := by
  have hdedent : e.dedent = true := he.expects
  have hindent : e.indent = false := he.alone .indent (by simp [rivals])
  have hnat : (UInt16.ofNat width).toNat = width := toNat_ofNat hwidth
  have hmark (gap rest : List Char) :
      Survey.mark? ⟨true, UInt16.ofNat width, none, gap, rest⟩ e (.blocks (indent :: indents)) =
        some .dedent := by
    simp [Survey.mark?, hindent, hdedent, hnat, Nesting.current, Nesting.blocks, hless]
  exact first?_layout h hmark

/-! ## Tokens with a text -/

/-- No layout mark and no string literal stands in front of a token on its line. -/
private theorem layout?_spaces {c : Char} (hc : isVisible c = true) {s : List Char}
    (hquote : ¬OpensQuote (c :: s)) (n : Nesting) (width : Nat) :
    Lexeme.layout? e n [] (spaces width ++ c :: s) = none := by
  rw [Lexeme.layout?, survey_spaces hc, Option.bind_some]
  simp [Survey.mark?, openQuote?_eq_none hquote]

/-- No layout mark and no string literal stands in front of a token at the start of a line that
belongs to the innermost block. -/
private theorem layout?_newline {c : Char} (hc : isVisible c = true) {s : List Char}
    (hquote : ¬OpensQuote (c :: s)) {width : Nat} (hwidth : width < 2 ^ 16)
    (hcurrent : (Nesting.blocks indents).current = width) (hnewline : e.newline = false)
    (hindent : e.indent = false) :
    Lexeme.layout? e (.blocks indents) [] ('\n' :: spaces width ++ c :: s) = none := by
  have hnat : (UInt16.ofNat width).toNat = width := toNat_ofNat hwidth
  have hsurvey : survey e.seesComments false 0 none false ('\n' :: spaces width ++ c :: s) =
      some ⟨true, UInt16.ofNat width, none, '\n' :: spaces width, c :: s⟩ := by
    rw [List.cons_append, survey.eq_def]
    simp [survey_spaces hc, passing]
  rw [Lexeme.layout?, hsurvey, Option.bind_some]
  simp [Survey.mark?, openQuote?_eq_none hquote, hnewline, hindent, hnat, hcurrent]

/-- A token with a text behind a gap in which no layout mark stands. -/
private theorem first?_visible {c : Char} (hc : isVisible c = true) {gap s : List Char}
    (hgap : ∀ d ∈ gap, Lexeme.isSpace d = true) (hformat : e.format = false)
    (hlayout : Lexeme.layout? e (.blocks indents) [] (gap ++ c :: s) = none) :
    Lexeme.first? e (.blocks indents) (gap ++ c :: s) =
      (Lexeme.longest? e (c :: s)).map fun (token, text) =>
        ⟨token, gap, text, (c :: s).drop text.length, .blocks indents⟩ := by
  obtain ⟨hspace, hhash, hslash⟩ := of_isVisible hc
  have hsensitive : Lexeme.sensitive? e (.blocks indents) (gap ++ c :: s) =
      Lexeme.layout? e (.blocks indents) [] (gap ++ c :: s) := rfl
  have htake : (gap ++ c :: s).takeWhile Lexeme.isSpace = gap := by
    rw [List.takeWhile_append_of_pos hgap, List.takeWhile_cons_of_neg (by simp [hspace]),
      List.append_nil]
  have hnot : ∀ t, gap ++ c :: s ≠ '\\' :: t := by
    intro t heq
    cases gap with
    | nil => exact hslash (List.cons.inj heq).1
    | cons d gap =>
      obtain ⟨rfl, -⟩ := List.cons.inj heq
      exact absurd (hgap '\\' List.mem_cons_self) (by decide)
  have hplain : Lexeme.plain? e (.blocks indents) (gap ++ c :: s) =
      Lexeme.behind? e (.blocks indents) gap (c :: s) := by
    rw [Lexeme.plain?, hformat, if_neg Bool.false_ne_true, Option.none_or]
    · simp only [htake, List.drop_left]
    · exact hnot
  rw [Lexeme.first?, hsensitive, hlayout, Option.none_or, hplain]
  unfold Lexeme.behind?
  split
  · next heq => simp at heq
  · next heq => exact absurd (List.cons.inj heq).1 hslash
  · next heq => exact absurd (List.cons.inj heq).1 hhash
  · rfl

private theorem numberAt?_eq_none {c : Char} (hdigit : c.isDigit = false)
    (hpoint : c = '.' → e.number = false) (s : List Char) :
    Lexeme.numberAt? e (c :: s) = none := by
  rw [Lexeme.numberAt?]
  split
  · next hnumber =>
    rw [Option.map_eq_none_iff]
    cases h : number? (c :: s) with
    | none => rfl
    | some r =>
      obtain ⟨-, d, t, heq, hd⟩ := of_number?_eq_some h
      obtain ⟨rfl, -⟩ := List.cons.inj heq
      rcases hd with hd | hd
      · simp [hdigit] at hd
      · simp [hpoint hd] at hnumber
  · rfl

private theorem conversionAt?_eq_none {c : Char} (hc : c ≠ '!') (s : List Char) :
    Lexeme.conversionAt? e (c :: s) = none := by
  unfold Lexeme.conversionAt?
  split
  · next heq => exact absurd (List.cons.inj heq).1 hc
  · rfl

/-! ## Words and names -/

private theorem signAt?_eq_none (hsigns : ∀ s ∈ e.signs, s ∈ grammarSigns)
    (hexcept : e.signs.contains "except*" = false) {c : Char} (hc : isWordChar c = true)
    (s : List Char) : Lexeme.signAt? e (c :: s) = none := by
  cases h : Lexeme.signAt? e (c :: s) with
  | none => rfl
  | some r =>
    obtain ⟨sign, hsign, -, hstarts⟩ := signStands_of_signAt? h
    have hall : ∀ sign ∈ grammarSigns, sign = "except*" ∨
        sign.toList.head?.any (!isWordChar ·) = true := by
      decide
    rcases hall sign (hsigns sign hsign) with rfl | hhead
    · rw [← List.contains_iff_mem, hexcept] at hsign
      simp at hsign
    · cases hlist : sign.toList with
      | nil => simp [hlist] at hhead
      | cons d t =>
        rw [hlist, List.cons_prefix_cons] at hstarts
        simp [hlist, hstarts.1, hc] at hhead

private theorem takeWhile_word {text rest : List Char} (h : IsWord text rest) :
    (text ++ rest).takeWhile isNameRest = text := by
  obtain ⟨d, r, rfl, hd⟩ := h.ended
  rw [List.takeWhile_append_of_pos fun c hc => (wordChar (h.all c hc)).rest,
    List.takeWhile_cons_of_neg (by simp [(of_isDelimiter hd).1]), List.append_nil]

/-- What is read of a word: the word, where it stands for itself, or else a name. -/
private theorem longest?_word {text rest : List Char} (h : IsWord text rest)
    (hsigns : ∀ s ∈ e.signs, s ∈ grammarSigns) (hexcept : e.signs.contains "except*" = false)
    (htakes : e.takesName = true) :
    Lexeme.longest? e (text ++ rest) =
      if e.words.contains (String.ofList text) then some (.word (String.ofList text), text)
      else if e.reserved.contains (String.ofList text) then none
      else some (.name, text) := by
  obtain ⟨c, t, rfl, hc⟩ := h.head
  obtain ⟨hstart, hdigit⟩ := of_isWordStart hc
  have hword := isWordChar_of_isWordStart hc
  have hchar := wordChar hword
  have htake : c :: (t ++ rest).takeWhile isNameRest = c :: t := by
    have hall := takeWhile_word h
    rwa [List.cons_append, List.takeWhile_cons_of_pos hchar.rest] at hall
  rw [List.cons_append, Lexeme.longest?,
    numberAt?_eq_none hdigit (fun heq => absurd heq hchar.point), conversionAt?_eq_none hchar.bang,
    signAt?_eq_none hsigns hexcept hword, Lexeme.nameAt?, if_pos ⟨htakes, hstart⟩]
  simp only [htake]
  split
  · rfl
  · split <;> rfl

variable {gap text rest : List Char}

private theorem first?_of_longest? (h : IsWord text rest)
    (hgap : ∀ d ∈ gap, Lexeme.isSpace d = true) (hformat : e.format = false)
    (hlayout : Lexeme.layout? e (.blocks indents) [] (gap ++ (text ++ rest)) = none) {token : Token}
    (hlongest : Lexeme.longest? e (text ++ rest) = some (token, text)) :
    Lexeme.first? e (.blocks indents) (gap ++ (text ++ rest)) =
      some ⟨token, gap, text, rest, .blocks indents⟩ := by
  obtain ⟨c, t, rfl, hc⟩ := h.head
  have hvisible := (wordChar (isWordChar_of_isWordStart hc)).visible
  have hdrop : (c :: (t ++ rest)).drop (c :: t).length = rest := by simp
  rw [List.cons_append] at hlayout hlongest ⊢
  rw [first?_visible hvisible hgap hformat hlayout, hlongest, Option.map_some]
  simp only [hdrop]

/-- What an expected word says of what is expected. -/
private theorem of_takes_word {w : String} (he : e.Takes (.word w)) : e.words.contains w = true ∧
    e.format = false ∧ e.signs.contains "except*" = false ∧ e.takesName = true := by
  have hword : e.words.contains w = true := he.expects
  have hformat : Token.format ∈ rivals (.word w) := by
    rw [rivals]
    split <;> simp
  have hexcept : Token.sign "except*" ∈ rivals (.word w) := by
    rw [rivals]
    split <;> simp
  refine ⟨hword, he.alone _ hformat, he.alone _ hexcept, ?_⟩
  cases hwords : e.words with
  | nil => simp [hwords] at hword
  | cons v words => simp [Expected.takesName, hwords]

private theorem first?_word_of_layout? {w : String} (he : e.Takes (.word w))
    (h : IsWord w.toList rest) (hgap : ∀ d ∈ gap, Lexeme.isSpace d = true)
    (hlayout : Lexeme.layout? e (.blocks indents) [] (gap ++ (w.toList ++ rest)) = none) :
    Lexeme.first? e (.blocks indents) (gap ++ (w.toList ++ rest)) =
      some ⟨.word w, gap, w.toList, rest, .blocks indents⟩ := by
  obtain ⟨hword, hformat, hexcept, htakes⟩ := of_takes_word he
  have hlongest : Lexeme.longest? e (w.toList ++ rest) = some (.word w, w.toList) := by
    rw [longest?_word h he.signs hexcept htakes, String.ofList_toList, if_pos hword]
  exact first?_of_longest? h hgap hformat hlayout hlongest

private theorem layout?_word (h : IsWord text rest) (width : Nat) :
    Lexeme.layout? e (.blocks indents) [] (spaces width ++ (text ++ rest)) = none := by
  obtain ⟨c, t, rfl, hc⟩ := h.head
  exact layout?_spaces (wordChar (isWordChar_of_isWordStart hc)).visible h.not_opensQuote _ _

/-- A word is read where it is expected. -/
theorem first?_word {w : String} (he : e.Takes (.word w)) (h : IsWord w.toList rest) (width : Nat) :
    Lexeme.first? e (.blocks indents) (spaces width ++ (w.toList ++ rest)) =
      some ⟨.word w, spaces width, w.toList, rest, .blocks indents⟩ :=
  first?_word_of_layout? he h (fun _ => isSpace_of_mem_spaces) (layout?_word h width)

/-- A word is read at the start of a line of the innermost block. -/
theorem first?_word_newline {w : String} (hw : w ≠ "as") (he : e.Takes (.word w))
    (h : IsWord w.toList rest) {width : Nat} (hwidth : width < 2 ^ 16)
    (hcurrent : (Nesting.blocks indents).current = width) :
    Lexeme.first? e (.blocks indents) ('\n' :: spaces width ++ (w.toList ++ rest)) =
      some ⟨.word w, '\n' :: spaces width, w.toList, rest, .blocks indents⟩ := by
  have hnewline : e.newline = false := he.alone .newline (by simp [rivals, hw])
  have hindent : e.indent = false := he.alone .indent (by simp [rivals, hw])
  refine first?_word_of_layout? he h ?_ ?_
  · intro d hd
    rcases List.mem_cons.1 hd with rfl | hd
    · decide
    · exact isSpace_of_mem_spaces hd
  · have hquote := h.not_opensQuote
    obtain ⟨c, t, heq, hc⟩ := h.head
    rw [heq] at hquote ⊢
    exact layout?_newline (wordChar (isWordChar_of_isWordStart hc)).visible hquote hwidth hcurrent
      hnewline hindent

/-- A name is read where one is expected. -/
theorem first?_name (he : e.Takes .name) (h : IsWord text rest)
    (hname : String.ofList text ∉ grammarWords) (width : Nat) :
    Lexeme.first? e (.blocks indents) (spaces width ++ (text ++ rest)) =
      some ⟨.name, spaces width, text, rest, .blocks indents⟩ := by
  have hexpects : e.name = true := he.expects
  have hformat : e.format = false := he.alone .format (by simp [rivals])
  have hexcept : e.signs.contains "except*" = false :=
    he.alone (.sign "except*") (by simp [rivals])
  have htakes : e.takesName = true := by simp [Expected.takesName, hexpects]
  have hwords : ¬e.words.contains (String.ofList text) = true := by
    rw [List.contains_iff_mem]
    exact fun hmem => hname (he.words _ hmem)
  have hreserved : ¬e.reserved.contains (String.ofList text) = true := by
    rw [List.contains_iff_mem]
    exact fun hmem => hname (he.reserved _ hmem)
  refine first?_of_longest? h (fun _ => isSpace_of_mem_spaces) hformat (layout?_word h width) ?_
  rw [longest?_word h he.signs hexcept htakes, if_neg hwords, if_neg hreserved]

/-! ## Signs -/

private theorem foldl_signs_ne_none {s : List Char} {signs : List String} :
    ∀ best : Option (Token × List Char), (best ≠ none ∨ ∃ sign ∈ signs, sign.toList.isPrefixOf s) →
      signs.foldl (fun best sign =>
        let text := sign.toList
        if text.isPrefixOf s ∧ best.all (·.2.length < text.length) then some (.sign sign, text)
        else best) best ≠ none := by
  induction signs with
  | nil => simp
  | cons sign signs ih =>
    intro best h
    rw [List.foldl_cons]
    apply ih
    rcases h with h | ⟨other, hmem, hstarts⟩
    · left
      simp only
      split <;> simp [h]
    · rcases List.mem_cons.1 hmem with rfl | hmem
      · left
        cases best with
        | none => simp [hstarts]
        | some b =>
          simp only
          split <;> simp
      · exact Or.inr ⟨other, hmem, hstarts⟩

/-- The text behind a sign does not go on with it. -/
def Apart (rest : List Char) : Prop := ∃ d r, rest = d :: r ∧ isDoubling d = false

private theorem toList_eq_of_prefix {c : Char} (hc : isPoint c = true) (hrest : Apart rest)
    {sign : String} (hsign : sign ∈ grammarSigns) (hstarts : sign.toList <+: c :: rest) :
    sign.toList = [c] ∨ c = '.' ∧ sign = "..." := by
  have hall : ∀ sign ∈ grammarSigns, sign = "..." ∨ sign = "except*" ∨ sign.toList.length = 1 ∨
      sign.toList[1]?.any isDoubling = true := by
    decide
  obtain ⟨d, r, rfl, hd⟩ := hrest
  rcases hall sign hsign with rfl | rfl | hone | htwo
  · rw [show "...".toList = ['.', '.', '.'] from rfl, List.cons_prefix_cons] at hstarts
    exact Or.inr ⟨hstarts.1.symm, rfl⟩
  · rw [show "except*".toList = ['e', 'x', 'c', 'e', 'p', 't', '*'] from rfl,
      List.cons_prefix_cons] at hstarts
    rw [← hstarts.1] at hc
    exact absurd hc (by decide)
  · obtain ⟨x, hx⟩ := List.length_eq_one_iff.1 hone
    rw [hx, List.cons_prefix_cons] at hstarts
    rw [hx, hstarts.1]
    exact Or.inl rfl
  · match hlist : sign.toList with
    | [] => simp [hlist] at htwo
    | [x] => simp [hlist] at htwo
    | x :: y :: t =>
      rw [hlist, List.cons_prefix_cons, List.cons_prefix_cons] at hstarts
      simp [hlist, hstarts.2.1, hd] at htwo

private theorem signAt?_point {c : Char} (hc : isPoint c = true) {sign : String}
    (hsign : sign.toList = [c]) (he : e.Takes (.sign sign)) (hrest : Apart rest) :
    Lexeme.signAt? e (c :: rest) = some (.sign sign, [c]) := by
  have hmem : sign ∈ e.signs := List.contains_iff_mem.1 he.expects
  have hne : Lexeme.signAt? e (c :: rest) ≠ none :=
    foldl_signs_ne_none none (Or.inr ⟨sign, hmem, by simp [hsign]⟩)
  obtain ⟨r, hr⟩ := Option.ne_none_iff_exists'.1 hne
  obtain ⟨other, hother, rfl, hstarts⟩ := signStands_of_signAt? hr
  rcases toList_eq_of_prefix hc hrest (he.signs other hother) hstarts with hlist | ⟨rfl, rfl⟩
  · obtain rfl : other = sign := String.toList_inj.1 (hlist.trans hsign.symm)
    rw [hr, hlist]
  · have hpoint : sign = "." := String.toList_inj.1 hsign
    have halone : e.signs.contains "..." = false :=
      he.alone (.sign "...") (by simp [rivals, hpoint])
    rw [← List.contains_iff_mem, halone] at hother
    simp at hother

/-- A sign is read where it is expected. -/
theorem first?_sign {c : Char} (hc : isPoint c = true) {sign : String}
    (hsign : sign.toList = [c]) (he : e.Takes (.sign sign)) (hrest : Apart rest) (width : Nat) :
    Lexeme.first? e (.blocks indents) (spaces width ++ c :: rest) =
      some ⟨.sign sign, spaces width, [c], rest, .blocks indents⟩ := by
  have hpoint := point hc
  have hformat : Token.format ∈ rivals (.sign sign) := by
    rw [rivals]
    split <;> simp
  have hnumber : c = '.' → e.number = false := by
    rintro rfl
    have hsign : sign = "." := String.toList_inj.1 hsign
    exact he.alone .number (by simp [rivals, hsign])
  have hname : Lexeme.nameAt? e (c :: rest) = none := by
    simp [Lexeme.nameAt?, hpoint.start]
  rw [first?_visible hpoint.visible (fun _ => isSpace_of_mem_spaces) (he.alone _ hformat)
    (layout?_spaces hpoint.visible (not_opensQuote_point hc rest) _ _), Lexeme.longest?,
    numberAt?_eq_none hpoint.digit hnumber, conversionAt?_eq_none hpoint.bang, hname,
    signAt?_point hc hsign he hrest]
  rfl

/-! ## The end -/

/-- The end of a script is read behind its last line end. -/
theorem first?_finish (he : e.Takes .finish) :
    Lexeme.first? e (.blocks []) ['\n'] = some ⟨.finish, ['\n'], [], [], .blocks []⟩ := by
  have hfinish : e.finish = true := he.expects
  have hnewline : e.newline = false := he.alone .newline (by simp [rivals])
  have hindent : e.indent = false := he.alone .indent (by simp [rivals])
  have hformat : e.format = false := he.alone .format (by simp [rivals])
  have hsurvey : survey e.seesComments false 0 none false ['\n'] =
      some ⟨true, 0, none, ['\n'], []⟩ := by
    rw [survey.eq_def]
    simp [survey, passing]
  have hsensitive : Lexeme.sensitive? e (.blocks []) ['\n'] = none := by
    rw [Lexeme.sensitive?, Nesting.blocks]
    simp [Lexeme.layout?, hsurvey, Survey.mark?, hindent, hnewline, Nesting.current, openQuote?]
  have hspace : Lexeme.isSpace '\n' = true := by decide
  rw [Lexeme.first?, hsensitive, Option.none_or]
  simp [Lexeme.plain?, hformat, hspace, Lexeme.behind?, hfinish]

end ScriptDeps.Source
