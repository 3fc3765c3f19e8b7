import ScriptDeps.Proofs.Source.Leading
import ScriptDeps.Proofs.Text.Lines

/-!
# Texts that begin no token

Where no string literal may open, no token begins with a quote mark; behind a byte order mark the
letters of a string literal are at most a name. No token begins with a null character either. Main
statements: `first?_null`, `first?_quoteMark` and `first?_mark_of_opensQuote`.
-/

namespace ScriptDeps.Source

open Text

variable {e : Expected} {n : Nesting}

/-! ## Characters -/

private theorem mem_of_isQuoteMark {c : Char} (hc : isQuoteMark c = true) :
    c ∈ ['\'', '"', '`'] := by
  simpa [isQuoteMark, or_assoc] using hc

private theorem mem_of_not_isSignStart {c : Char} (hc : isSignStart c = false) :
    c ∈ "fFrRbBuU".toList ++ ['\'', '"', '`', '\x00'] := by
  have hcases : isQuoteLetter c = true ∨ isQuoteMark c = true ∨ c = '\x00' := by
    rw [isSignStart] at hc
    cases hletter : isQuoteLetter c <;> cases hmark : isQuoteMark c <;> simp_all
  rw [List.mem_append]
  rcases hcases with h | h | rfl
  · exact Or.inl (List.contains_iff_mem.1 h)
  · exact Or.inr (List.mem_append_left ['\x00'] (mem_of_isQuoteMark h))
  · exact Or.inr (by decide)

private theorem isNameStart_of_isQuoteLetter {c : Char} (hc : isQuoteLetter c = true) :
    isNameStart c = true := by
  have hall : "fFrRbBuU".toList.all isNameStart = true := by decide +kernel
  exact List.all_eq_true.1 hall c (List.contains_iff_mem.1 hc)

private theorem isNameRest_of_isQuoteMark {c : Char} (hc : isQuoteMark c = true) :
    isNameRest c = false := by
  have hall : ['\'', '"', '`'].any isNameRest = false := by decide +kernel
  exact eq_false_of_any hall c (mem_of_isQuoteMark hc)

private theorem isNameStart_of_isQuoteMark {c : Char} (hc : isQuoteMark c = true) :
    isNameStart c = false := by
  have hrest := isNameRest_of_isQuoteMark hc
  rw [isNameRest, Bool.or_eq_false_iff] at hrest
  exact hrest.1

/-- What a character is not with which neither a number nor a comment nor a gap begins. -/
private structure Bare (c : Char) : Prop where
  digit : c.isDigit = false
  point : c ≠ '.'
  bang : c ≠ '!'
  slash : c ≠ '\\'
  hash : c ≠ '#'
  space : Lexeme.isSpace c = false
  blank : isBlankOrEnd c = false

private theorem bare_of_not_isSignStart {c : Char} (hc : isSignStart c = false) : Bare c := by
  have hall : ("fFrRbBuU".toList ++ ['\'', '"', '`', '\x00']).any (fun c =>
      c.isDigit || ['.', '!', '\\', '#'].contains c || Lexeme.isSpace c || isBlankOrEnd c) =
        false := by
    decide
  have hc := eq_false_of_any hall c (mem_of_not_isSignStart hc)
  simp only [Bool.or_eq_false_iff, List.contains_cons, List.contains_nil, beq_eq_false_iff_ne,
    and_true] at hc
  obtain ⟨⟨⟨hdigit, hpoint, hbang, hslash, hhash⟩, hspace⟩, hblank⟩ := hc
  exact ⟨hdigit, hpoint, hbang, hslash, hhash, hspace, hblank⟩

/-! ## The longest text of a token -/

private theorem signAt?_none (hsigns : ∀ sign ∈ e.signs, isSignLike sign = true) {c : Char}
    (hc : isSignStart c = false) (s : List Char) : Lexeme.signAt? e (c :: s) = none := by
  cases h : Lexeme.signAt? e (c :: s) with
  | none => rfl
  | some r =>
    obtain ⟨sign, hsign, _, hstarts⟩ := signStands_of_signAt? h
    have hlike := hsigns sign hsign
    rw [isSignLike] at hlike
    cases htext : sign.toList with
    | nil => simp [htext] at hlike
    | cons d t =>
      rw [htext, List.cons_prefix_cons] at hstarts
      rw [htext, hstarts.1] at hlike
      simp [hc] at hlike

private theorem numberAt?_none {c : Char} (hc : isSignStart c = false) (s : List Char) :
    Lexeme.numberAt? e (c :: s) = none := by
  have hnumber : number? (c :: s) = none := by
    cases h : number? (c :: s) with
    | none => rfl
    | some r =>
      have hbare := bare_of_not_isSignStart hc
      obtain ⟨_, d, t, heq, hd⟩ := of_number?_eq_some h
      obtain ⟨rfl, _⟩ := List.cons.inj heq
      simp [hbare.digit, hbare.point] at hd
  simp [Lexeme.numberAt?, hnumber]

private theorem conversionAt?_none {c : Char} (hc : isSignStart c = false) (s : List Char) :
    Lexeme.conversionAt? e (c :: s) = none := by
  unfold Lexeme.conversionAt?
  split
  · next heq => exact absurd (List.cons.inj heq).1 (bare_of_not_isSignStart hc).bang
  · rfl

/-- A token that begins with a character that no sign begins with is a name or a word. -/
theorem longest?_eq_nameAt? (hsigns : ∀ sign ∈ e.signs, isSignLike sign = true) {c : Char}
    (hc : isSignStart c = false) (s : List Char) :
    Lexeme.longest? e (c :: s) = Lexeme.nameAt? e (c :: s) := by
  rw [Lexeme.longest?, numberAt?_none hc, conversionAt?_none hc, signAt?_none hsigns hc]
  cases Lexeme.nameAt? e (c :: s) <;> rfl

/-- Behind a gap a lexeme that begins with such a character is a name or a word. -/
private theorem behind?_eq (hsigns : ∀ sign ∈ e.signs, isSignLike sign = true) {c : Char}
    (hc : isSignStart c = false) (gap s : List Char) :
    Lexeme.behind? e n gap (c :: s) = (Lexeme.nameAt? e (c :: s)).map fun (token, text) =>
      ⟨token, gap, text, (c :: s).drop text.length, n⟩ := by
  have hbare := bare_of_not_isSignStart hc
  rw [← longest?_eq_nameAt? hsigns hc]
  unfold Lexeme.behind?
  split
  · next heq => exact absurd heq (List.cons_ne_nil _ _)
  · next heq => exact absurd (List.cons.inj heq).1 hbare.slash
  · next heq => exact absurd (List.cons.inj heq).1 hbare.hash
  · rfl

private theorem plain?_none (hformat : e.format = false)
    (hsigns : ∀ sign ∈ e.signs, isSignLike sign = true) {c : Char} (hc : isSignStart c = false)
    (hname : isNameStart c = false) (s : List Char) : Lexeme.plain? e n (c :: s) = none := by
  have hbare := bare_of_not_isSignStart hc
  have hnone : Lexeme.nameAt? e (c :: s) = none := by simp [Lexeme.nameAt?, hname]
  unfold Lexeme.plain?
  rw [hformat, if_neg Bool.false_ne_true, Option.none_or]
  split
  · next heq => exact absurd (List.cons.inj heq).1 hbare.slash
  · simp [hbare.space, behind?_eq hsigns hc, hnone]

/-! ## Main statements -/

/-- No lexeme begins with a null character. -/
theorem first?_null (he : e.Opens) (s : List Char) :
    Lexeme.first? e .none ('\x00' :: s) = none := by
  have hopening : opening? ('\x00' :: s) = none :=
    opening?_cons (by decide) (by decide) (by simp [openQuote?])
  rw [Lexeme.first?, sensitive?_none he, hopening, ite_self,
    plain?_none he.format he.signs (by decide) (by decide +kernel), Option.or_none]

/-- Where no string literal may open, no lexeme begins with a quote mark. -/
theorem first?_quoteMark (hquote : e.openQuote = false) (hformat : e.format = false)
    (hsigns : ∀ sign ∈ e.signs, isSignLike sign = true) {mark : Char}
    (hmark : isQuoteMark mark = true) (s : List Char) :
    Lexeme.first? e .none (mark :: s) = none := by
  have hstart : isSignStart mark = false := by simp [isSignStart, hmark]
  have hbare := bare_of_not_isSignStart hstart
  have hblank : mark ≠ '\n' ∧ mark ≠ ' ' ∧ mark ≠ '\t' ∧ mark ≠ '\r' ∧ mark ≠ '\x0c' := by
    simpa [isBlankOrEnd, not_or, and_assoc] using hbare.blank
  have hsurvey : survey e.seesComments false 0 none false (mark :: s) =
      some ⟨false, 0, none, [], mark :: s⟩ := by
    obtain ⟨h₁, h₂, h₃, h₄, h₅⟩ := hblank
    unfold survey
    simp [h₁, h₂, h₃, h₄, h₅, hbare.hash, hbare.slash]
  have hsensitive : Lexeme.sensitive? e .none (mark :: s) = none := by
    have hlayout : Lexeme.sensitive? e .none (mark :: s) =
      Lexeme.layout? e .none [] (mark :: s) := rfl
    rw [hlayout, Lexeme.layout?, hsurvey]
    simp [Survey.mark?, hquote]
  rw [Lexeme.first?, hsensitive, Option.none_or,
    plain?_none hformat hsigns hstart (isNameStart_of_isQuoteMark hmark)]

/-- Letters of a string literal in front of a quote mark are at most a name. -/
private theorem nameAt?_letters (he : e.Opens) {letters : List Char} (hne : letters ≠ [])
    (hletters : ∀ c ∈ letters, isQuoteLetter c = true) {mark : Char}
    (hmark : isQuoteMark mark = true) (t : List Char) :
    Lexeme.nameAt? e (letters ++ mark :: t) = none ∨
      Lexeme.nameAt? e (letters ++ mark :: t) = some (.name, letters) := by
  obtain ⟨c, ls, rfl⟩ := List.exists_cons_of_ne_nil hne
  have hstart : isNameStart c = true :=
    isNameStart_of_isQuoteLetter (hletters c List.mem_cons_self)
  have hrest : ∀ d ∈ ls, isNameRest d = true := by
    intro d hd
    rw [isNameRest, isNameStart_of_isQuoteLetter (hletters d (List.mem_cons_of_mem _ hd)),
      Bool.true_or]
  have htake : (ls ++ mark :: t).takeWhile isNameRest = ls := by
    rw [List.takeWhile_append_of_pos hrest]
    simp [isNameRest_of_isQuoteMark hmark]
  have hword : e.words.contains (String.ofList (c :: ls)) = false := by
    rw [Bool.eq_false_iff]
    intro hmem
    have hfalse := he.words _ (List.contains_iff_mem.1 hmem)
    rw [String.toList_ofList, List.all_eq_true.2 hletters] at hfalse
    exact Bool.noConfusion hfalse
  rw [List.cons_append, Lexeme.nameAt?, htake, he.reserved]
  simp only [hstart, hword, List.contains_nil, Bool.false_eq_true, if_false, and_true]
  split
  · exact Or.inr rfl
  · exact Or.inl rfl

/-- Behind a byte order mark the letters of a string literal are at most a name, and the quote mark
follows. -/
theorem first?_mark_of_opensQuote (he : e.Opens) {w s : List Char}
    (hw : ∀ c ∈ w, isBlankOrEnd c = true) (hs : OpensQuote s) :
    Lexeme.first? e .none ('\ufeff' :: (w ++ s)) = none ∨
      ∃ letters mark t, letters ≠ [] ∧ isQuoteMark mark = true ∧
        Lexeme.first? e .none ('\ufeff' :: (w ++ s)) =
          some ⟨.name, '\ufeff' :: w, letters, mark :: t, .none⟩ := by
  obtain ⟨letters, mark, t, rfl, hletters, hmark⟩ := hs
  have hspace : ∀ c ∈ '\ufeff' :: w, Lexeme.isSpace c = true := by
    intro c hc
    rcases List.mem_cons.1 hc with rfl | hc
    · decide
    · exact isSpace_of_isBlankOrEnd (hw c hc)
  have hfirst : Lexeme.first? e .none ('\ufeff' :: (w ++ (letters ++ mark :: t))) =
      Lexeme.behind? e .none
        ('\ufeff' :: w ++ (letters ++ mark :: t).takeWhile Lexeme.isSpace)
        ((letters ++ mark :: t).dropWhile Lexeme.isSpace) := by
    rw [Lexeme.first?, sensitive?_mark he, Option.none_or, plain?_eq he, ← List.cons_append,
      List.takeWhile_append_of_pos hspace, List.dropWhile_append_of_pos hspace]
  by_cases hne : letters = []
  · subst hne
    have hstart : isSignStart mark = false := by simp [isSignStart, hmark]
    have hname : Lexeme.nameAt? e (mark :: t) = none := by
      simp [Lexeme.nameAt?, isNameStart_of_isQuoteMark hmark]
    left
    rw [hfirst]
    simp [(bare_of_not_isSignStart hstart).space, behind?_eq he.signs hstart, hname]
  · have hname := nameAt?_letters he hne hletters hmark t
    obtain ⟨c, ls, rfl⟩ := List.exists_cons_of_ne_nil hne
    have hstart : isSignStart c = false := by
      simp [isSignStart, hletters c List.mem_cons_self]
    rw [List.cons_append] at hname hfirst
    rw [List.cons_append, hfirst]
    simp only [List.takeWhile_cons, List.dropWhile_cons, (bare_of_not_isSignStart hstart).space,
      Bool.false_eq_true, if_false, List.append_nil, behind?_eq he.signs hstart]
    rcases hname with hname | hname
    · exact Or.inl (by rw [hname, Option.map_none])
    · refine Or.inr ⟨c :: ls, mark, t, hne, hmark, ?_⟩
      rw [hname, Option.map_some]
      simp

end ScriptDeps.Source
