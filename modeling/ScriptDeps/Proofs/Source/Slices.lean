import ScriptDeps.Proofs.Source.Leading

/-!
# Lexemes cut a text

A lexeme is the beginning of the text that it is read from: its gap, then its text, then the rest.
Nothing is left out, put in or read twice. A gap begins with a blank, a line end, a backslash or a
comment; only where a string literal is left open does its text become part of a gap, and there
nothing with a text can follow any more. Main statement: `Lexeme.standsAt_of_first?`.
-/

namespace ScriptDeps.Source

/-! ## Numbers -/

/-- The digits that are taken and what is left are the text. -/
theorem takeDecimals_append (afterDigit : Bool) (s : List Char) :
    (takeDecimals afterDigit s).1 ++ (takeDecimals afterDigit s).2 = s := by
  induction s generalizing afterDigit with
  | nil => rfl
  | cons c s ih =>
    rw [takeDecimals]
    split
    · exact congrArg (c :: ·) (ih true)
    split
    · exact congrArg (c :: ·) (ih false)
    · rfl

/-- The digits of another base and what is left are the text. -/
theorem takeRadix_append (digit : Char → Bool) (s : List Char) :
    (takeRadix digit s).1 ++ (takeRadix digit s).2 = s := by
  fun_induction takeRadix digit s with
  | case1 => rfl
  | case2 c h => rfl
  | case3 c h => rfl
  | case4 c d s h taken rest heq ih =>
    rw [heq] at ih
    exact congrArg (c :: ·) ih
  | case5 c d s h => rfl

/-- A letter, if there is one, and what is left are the text. -/
theorem takeLetter_append (letters s : List Char) :
    (takeLetter letters s).1 ++ (takeLetter letters s).2 = s := by
  cases s with
  | nil => rfl
  | cons c s =>
    rw [takeLetter]
    split <;> rfl

/-- An exponent and what is left are the text. -/
theorem exponent?_append {s : List Char} {r : List Char × List Char} (h : exponent? s = some r) :
    r.1 ++ r.2 = s := by
  cases s with
  | nil => cases h
  | cons e s =>
    simp only [exponent?] at h
    split at h
    · split at h
      · cases h
      · obtain rfl := Option.some.inj h
        simp [takeDecimals_append, takeLetter_append]
    · cases h

/-- What may follow a fraction and what is left are the text. -/
theorem fractionEnd_append (s : List Char) : (fractionEnd s).1 ++ (fractionEnd s).2 = s := by
  unfold fractionEnd
  cases h : exponent? s with
  | none => simp [takeLetter_append]
  | some r => simp [takeLetter_append, exponent?_append h]

/-- A decimal number whose first digits are given, and what is left, are these digits and the text.
-/
theorem decimalFrom_append (digits s : List Char) :
    (decimalFrom digits s).1 ++ (decimalFrom digits s).2 = digits ++ s := by
  unfold decimalFrom
  split
  · simp [fractionEnd_append, takeDecimals_append]
  · split
    · next h => simp [takeLetter_append, exponent?_append h]
    · simp [takeLetter_append]

/-- A decimal number and what is left are the text. -/
theorem decimal?_append {s : List Char} {r : List Char × List Char} (h : decimal? s = some r) :
    r.1 ++ r.2 = s := by
  simp only [decimal?] at h
  split at h
  · split at h
    · split at h
      · cases h
      · obtain rfl := Option.some.inj h
        simp [fractionEnd_append, takeDecimals_append]
    · cases h
  · obtain rfl := Option.some.inj h
    rw [decimalFrom_append, takeDecimals_append]

/-- A number of another base and what is left are the text. -/
theorem radix?_append {s : List Char} {r : List Char × List Char} (h : radix? s = some r) :
    r.1 ++ r.2 = s := by
  unfold radix? at h
  split at h
  · split at h
    · simp only at h
      split at h
      · cases h
      · obtain rfl := Option.some.inj h
        simp [takeLetter_append, takeRadix_append]
    · cases h
  · cases h

/-- A number stands at the start of the text that it is read from. -/
theorem number?_append {s : List Char} {r : List Char × List Char} (h : number? s = some r) :
    r.1 ++ r.2 = s := by
  rcases Option.or_eq_some_iff.1 h with h | ⟨-, h⟩
  · exact radix?_append h
  · exact decimal?_append h

/-! ## String literals -/

/-- The opening of a string literal stands at the start of the text that it is read from. -/
theorem openQuote?_append {quote q : Quote} {s text rest : List Char}
    (h : openQuote? quote s = some (text, q, rest)) : text ++ rest = s := by
  induction s generalizing quote text with
  | nil => cases h
  | cons c s ih =>
    have hletter {quote' : Quote}
        (h : (openQuote? quote' s).map (fun r => (c :: r.1, r.2)) = some (text, q, rest)) :
        text ++ rest = c :: s := by
      obtain ⟨⟨t, q', rest'⟩, hr, heq⟩ := Option.map_eq_some_iff.1 h
      cases heq
      exact congrArg (c :: ·) (ih hr)
    unfold openQuote? at h
    split at h
    · exact hletter h
    split at h
    · exact hletter h
    split at h
    · exact hletter h
    split at h
    · exact hletter h
    split at h
    · grind
    · grind

/-- A text is at its end, or at a character that no token with a text begins with. -/
def IsSpent (s : List Char) : Prop := ∀ c ∈ s.head?, c = '\x00'

/-- A text at its end is spent. -/
theorem isSpent_nil : IsSpent [] := nofun

/-- A piece of a literal stands at the start of a text. One that no mark closes goes on as long as
anything can be read. -/
def Piece.StandsAt (s : List Char) : Piece → Prop
  | .plain text rest | .brace text rest | .closing text rest => text ++ rest = s
  | .refused => True
  | .unclosed text rest => text ++ rest = s ∧ IsSpent rest

/-- A piece that is longer by a character stands one character earlier. -/
theorem Piece.StandsAt.push {c : Char} {s : List Char} {p : Piece} (h : p.StandsAt s) :
    (p.push c).StandsAt (c :: s) := by
  cases p with
  | plain text rest => exact congrArg (c :: ·) h
  | brace text rest => exact congrArg (c :: ·) h
  | closing text rest => exact congrArg (c :: ·) h
  | refused => trivial
  | unclosed text rest => exact ⟨congrArg (c :: ·) h.1, h.2⟩

namespace Quote

/-- What is read at a mark stands there. -/
theorem standsAt_atMark (q : Quote) (started : Bool) (c : Char) (s : List Char) :
    (q.atMark started c s).StandsAt (c :: s) := by
  unfold atMark
  grind [Piece.StandsAt]

/-- What is read of a literal stands where the reading began. -/
theorem standsAt_text (q : Quote) (skip : Nat) (started : Bool) (s : List Char) :
    (q.text skip started s).StandsAt s := by
  induction s generalizing skip started with
  | nil => cases skip <;> exact ⟨rfl, isSpent_nil⟩
  | cons c s ih =>
    cases skip with
    | succ skip => exact (ih skip started).push
    | zero =>
      have hstop : Piece.StandsAt (c :: s) (if started then .plain [] (c :: s) else .refused) := by
        split
        · exact rfl
        · trivial
      simp only [text]
      split
      · next hzero => exact ⟨rfl, by simpa [IsSpent] using hzero⟩
      split
      · exact hstop
      split
      · split
        · exact (ih _ _).push
        split
        · exact (ih _ _).push
        · exact hstop
      split
      · exact q.standsAt_atMark started c s
      split
      · trivial
      · exact (ih _ _).push

/-- Every piece of a literal stands at the start of the text that it is read from. -/
theorem standsAt_piece (q : Quote) (s : List Char) : (q.piece s).StandsAt s := by
  cases s with
  | nil => exact ⟨rfl, isSpent_nil⟩
  | cons c s =>
    simp only [piece]
    split
    · split
      · next h =>
        obtain ⟨s', rfl⟩ := List.head?_eq_some_iff.1 h
        exact rfl
      · trivial
    · exact q.standsAt_text 0 false (c :: s)

end Quote

/-! ## Gaps -/

/-- A gap is empty or begins with a blank, a line end, a backslash or a comment. -/
def IsGap (s : List Char) : Prop := ∀ c ∈ s.head?, Lexeme.isSpace c = true ∨ c = '\\' ∨ c = '#'

/-- No character is a gap. -/
theorem isGap_nil : IsGap [] := nofun

/-- A gap behind a gap is a gap. -/
theorem IsGap.append {s t : List Char} (hs : IsGap s) (ht : IsGap t) : IsGap (s ++ t) := by
  cases s with
  | nil => exact ht
  | cons c s => exact hs

/-- Blanks are a gap. -/
theorem isGap_takeWhile {p : Char → Bool} (h : ∀ c, p c = true → Lexeme.isSpace c = true)
    (s : List Char) : IsGap (s.takeWhile p) := by
  intro c hc
  have hmem : c ∈ s.takeWhile p := List.mem_of_head? hc
  exact .inl (h c (List.all_eq_true.1 List.all_takeWhile c hmem))

/-- What is looked over in front of a token is a gap. -/
theorem isGap_survey {comments crossed : Bool} {width : UInt16} {comment : Option UInt16}
    {s : List Char} {v : Survey} (h : survey comments crossed width comment false s = some v) :
    IsGap v.gap := by
  have hspace : ∀ c, c = '\n' ∨ c = ' ' ∨ c = '\t' ∨ c = '\r' ∨ c = '\x0c' →
      Lexeme.isSpace c = true := by
    rintro c (rfl | rfl | rfl | rfl | rfl) <;> decide
  unfold survey at h
  grind [passing_eq_some, IsGap]

/-- No string literal opens where a text is spent. -/
theorem openQuote?_of_isSpent {quote : Quote} {s : List Char} (h : IsSpent s) :
    openQuote? quote s = none := by
  cases s with
  | nil => rfl
  | cons c s =>
    obtain rfl : c = '\x00' := h c rfl
    simp [openQuote?]

/-- Nothing is looked over where a text is spent. -/
theorem isSpent_of_survey {comments crossed : Bool} {width : UInt16} {comment : Option UInt16}
    {s : List Char} {v : Survey} (hs : IsSpent s)
    (h : survey comments crossed width comment false s = some v) : IsSpent v.rest := by
  cases s with
  | nil =>
    obtain rfl := Option.some.inj h
    exact isSpent_nil
  | cons c s =>
    obtain rfl : c = '\x00' := hs c rfl
    obtain rfl : (⟨crossed, width, comment, [], '\x00' :: s⟩ : Survey) = v := by
      simpa [survey.eq_def] using h
    exact hs

/-- A gap does not begin where a text is spent. -/
theorem IsGap.eq_nil_of_isSpent {s t : List Char} (hs : IsGap s) (h : IsSpent (s ++ t)) :
    s = [] := by
  cases s with
  | nil => rfl
  | cons c s =>
    obtain rfl : c = '\x00' := h c rfl
    simpa [Lexeme.isSpace] using hs '\x00' rfl

/-! ## Lexemes -/

/-- No expected sign begins with the character at which a text is spent. -/
def Expected.SpendsNothing (e : Expected) : Prop :=
  ∀ sign ∈ e.signs, sign.toList.head? ≠ some '\x00'

/-- A lexeme is the beginning of a text. -/
structure Lexeme.StandsAt (s : List Char) (l : Lexeme) : Prop where
  /-- Gap, text and rest are the text. -/
  slices : l.gap ++ l.text ++ l.rest = s
  /-- What stands before the lexeme is a gap, or no text follows any more. -/
  gap : IsGap l.gap ∨ l.text = [] ∧ IsSpent l.rest
  /-- Where the text is spent the lexeme has no text. -/
  spent : IsSpent s → l.text = []
  /-- At the end of the script nothing is left. -/
  finish : l.token = .finish → l.rest = []
  /-- What may stand between any two tokens makes a gap longer. -/
  between : l.token = .comment ∨ l.token = .joint → IsGap l.text

namespace Lexeme

variable {e : Expected} {n : Nesting}

/-- The tokens of which more is said than that they are read. -/
private def bounds : List Token := [.finish, .comment, .joint]

/-- A lexeme of a token of which no more is said. -/
private theorem StandsAt.of_notMem {s : List Char} {l : Lexeme} (h : l.token ∉ bounds)
    (hslices : l.gap ++ l.text ++ l.rest = s) (hgap : IsGap l.gap ∨ l.text = [] ∧ IsSpent l.rest)
    (hspent : IsSpent s → l.text = []) : l.StandsAt s := by
  refine ⟨hslices, hgap, hspent, fun hfinish => ?_, fun hbetween => ?_⟩
  · simp [hfinish, bounds] at h
  · rcases hbetween with htoken | htoken <;> simp [htoken, bounds] at h

private theorem mark?_notMem {v : Survey} {mark : Token} (h : v.mark? e n = some mark) :
    mark ∉ bounds := by
  unfold Survey.mark? at h
  grind [bounds]

private theorem standsAt_layout? {s : List Char} {l : Lexeme} (h : layout? e n [] s = some l) :
    l.StandsAt s := by
  obtain ⟨v, hv, h⟩ := Option.bind_eq_some_iff.1 h
  split at h
  · next mark hmark =>
    cases h
    exact .of_notMem (mark?_notMem hmark) rfl (.inl isGap_nil) fun _ => rfl
  · split at h
    · obtain ⟨⟨text, q, rest⟩, hquote, rfl⟩ := Option.map_eq_some_iff.1 h
      refine .of_notMem (by simp [bounds]) ?_ (.inl (isGap_survey hv)) fun hspent => ?_
      · rw [← survey_append hv, ← openQuote?_append hquote]
        simp
      · rw [openQuote?_of_isSpent (isSpent_of_survey hspent hv)] at hquote
        cases hquote
    · cases h

/-- Where no mark closes a literal its text becomes a gap, and at most a layout mark follows. -/
private theorem standsAt_layout?_unclosed {s text rest : List Char} {l : Lexeme}
    (hs : text ++ rest = s) (hspent : IsSpent rest) (h : layout? e n text rest = some l) :
    l.StandsAt s := by
  obtain ⟨v, hv, h⟩ := Option.bind_eq_some_iff.1 h
  split at h
  · next mark hmark =>
    cases h
    exact .of_notMem (mark?_notMem hmark) (by simpa using hs) (.inr ⟨rfl, hspent⟩) fun _ => rfl
  · rw [openQuote?_of_isSpent (isSpent_of_survey hspent hv)] at h
    simp at h

/-- A character that ends a literal or begins none stands in front of no piece with a text. -/
private theorem piece_of_isSpent {q : Quote} {s : List Char} (h : IsSpent s) :
    q.piece s = .unclosed [] s := by
  cases s with
  | nil => rfl
  | cons c s =>
    obtain rfl : c = '\x00' := h c rfl
    simp [Quote.piece, Quote.text]

private theorem standsAt_sensitive? {s : List Char} {l : Lexeme} (h : sensitive? e n s = some l) :
    l.StandsAt s := by
  unfold sensitive? at h
  split at h
  · exact standsAt_layout? h
  · next q _ _ =>
    have hpiece := q.standsAt_piece s
    have hspent : IsSpent s → q.piece s = .unclosed [] s := piece_of_isSpent
    split at h
    · split at h
      · next heq =>
        cases h
        rw [heq] at hpiece hspent
        exact .of_notMem (by simp [bounds]) hpiece (.inl isGap_nil) fun hs =>
          absurd (hspent hs) nofun
      · next heq =>
        cases h
        rw [heq] at hpiece hspent
        exact .of_notMem (by simp [bounds]) hpiece (.inl isGap_nil) fun hs =>
          absurd (hspent hs) nofun
      · next heq =>
        cases h
        rw [heq] at hpiece hspent
        exact .of_notMem (by simp [bounds]) hpiece (.inl isGap_nil) fun hs =>
          absurd (hspent hs) nofun
      · cases h
      · next heq =>
        rw [heq] at hpiece
        exact standsAt_layout?_unclosed hpiece.1 hpiece.2 h
    · exact standsAt_layout? h

private theorem standsAt_format? {s : List Char} {l : Lexeme} (h : format? n s = some l) :
    l.StandsAt s := by
  simp only [format?] at h
  split at h
  · cases h
  · next hne =>
    cases h
    have hspace : ∀ c, (c == '\n') = true → isSpace c = true := by
      intro c hc
      rw [eq_of_beq hc]
      decide
    refine .of_notMem (by simp [bounds]) ?_ (.inl (isGap_takeWhile hspace s)) fun hspent => ?_
    · rw [List.append_assoc, List.prefix_iff_eq_append.1 (List.takeWhile_prefix _),
        List.prefix_iff_eq_append.1 (List.takeWhile_prefix _)]
    cases s with
    | nil => rfl
    | cons c s =>
      obtain rfl : c = '\x00' := hspent c rfl
      simp at hne

private theorem standsAt_joint? {gap s : List Char} {l : Lexeme} (hgap : IsGap gap)
    (h : joint? n gap s = some l) : l.StandsAt (gap ++ '\\' :: s) := by
  have hspent : ¬IsSpent (gap ++ '\\' :: s) := by
    intro hspent
    cases hgap.eq_nil_of_isSpent hspent
    simpa using hspent '\\' rfl
  unfold joint? at h
  split at h <;> cases h <;>
    exact ⟨by simp, .inl hgap, fun hs => absurd hs hspent, nofun, fun _ => by simp [IsGap]⟩

private theorem standsAt_backslash? {s : List Char} {l : Lexeme}
    (h : backslash? e n s = some l) : l.StandsAt ('\\' :: s) := by
  have hspent : ¬IsSpent ('\\' :: s) := fun hspent => by simpa using hspent '\\' rfl
  rw [backslash?] at h
  split at h
  · cases h
    exact .of_notMem (by simp [bounds]) (by simp) (.inl isGap_nil) fun hs => absurd hs hspent
  · rcases Option.or_eq_some_iff.1 h with h | ⟨-, h⟩
    · exact standsAt_joint? isGap_nil h
    · split at h
      · cases h
        exact .of_notMem (by simp [bounds]) rfl (.inl isGap_nil) fun hs => absurd hs hspent
      · cases h

/-- The text of a token stands at the start of the text that it is read from. -/
private theorem isPrefix_longest? {s : List Char} {r : Token × List Char}
    (h : longest? e s = some r) : r.2 <+: s ∧ r.1 ∉ bounds := by
  rcases of_longest?_eq_some h with h | h | h | h
  · refine ⟨?_, by simp [(numberAt?_ne_nil h).1, bounds]⟩
    unfold numberAt? at h
    split at h
    · obtain ⟨⟨text, rest⟩, hr, rfl⟩ := Option.map_eq_some_iff.1 h
      exact ⟨rest, number?_append hr⟩
    · cases h
  · refine ⟨?_, by simp [(conversionAt?_ne_nil h).1, bounds]⟩
    unfold conversionAt? at h
    split at h
    · obtain ⟨-, rfl⟩ := by simpa using h
      exact ⟨_, rfl⟩
    · cases h
  · cases s with
    | nil => simp [nameAt?] at h
    | cons c s =>
      have hstarts : c :: s.takeWhile Text.isNameRest <+: c :: s :=
        List.cons_prefix_cons.2 ⟨rfl, List.takeWhile_prefix _⟩
      simp only [nameAt?] at h
      grind [bounds]
  · obtain ⟨sign, -, rfl, hstarts⟩ := signStands_of_signAt? h
    exact ⟨hstarts, by simp [bounds]⟩

private theorem longest?_of_isSpent (he : e.SpendsNothing) {s : List Char}
    {r : Token × List Char} (hs : IsSpent s) (h : longest? e s = some r) : r.2 = [] := by
  cases s with
  | nil => exact List.prefix_nil.1 (isPrefix_longest? h).1
  | cons c s =>
    obtain rfl : c = '\x00' := hs c rfl
    have hstart : Text.isNameStart '\x00' = false := by decide
    rcases of_longest?_eq_some h with h | h | h | h
    · simp [numberAt?, number?, radix?, decimal?, takeDecimals] at h
    · simp [conversionAt?] at h
    · simp [nameAt?, hstart] at h
    · obtain ⟨sign, hsign, rfl, hstarts⟩ := signStands_of_signAt? h
      have hhead := he sign hsign
      cases htext : sign.toList with
      | nil => rfl
      | cons d t =>
        rw [htext] at hstarts hhead
        obtain ⟨rfl, -⟩ := List.cons_prefix_cons.1 hstarts
        exact absurd rfl hhead

private theorem standsAt_behind? (he : e.SpendsNothing) {gap s : List Char} {l : Lexeme}
    (hgap : IsGap gap) (h : behind? e n gap s = some l) : l.StandsAt (gap ++ s) := by
  unfold behind? at h
  split at h
  · split at h
    · cases h
      exact ⟨by simp, .inl hgap, fun _ => rfl, fun _ => rfl, nofun⟩
    · cases h
  · exact standsAt_joint? hgap h
  · next s =>
    cases h
    refine ⟨?_, .inl hgap, fun hs => ?_, nofun, fun _ => by simp [IsGap]⟩
    · have hstarts := List.prefix_iff_eq_append.1
        (List.takeWhile_prefix (fun c => c != '\n' && c != '\x00') (l := s))
      rw [List.append_assoc, List.cons_append, hstarts]
    · cases hgap.eq_nil_of_isSpent hs
      simpa using hs '#' rfl
  · obtain ⟨r, hr, rfl⟩ := Option.map_eq_some_iff.1 h
    obtain ⟨hstarts, hbounds⟩ := isPrefix_longest? hr
    refine .of_notMem hbounds ?_ (.inl hgap) fun hs => ?_
    · rw [List.append_assoc, List.prefix_iff_eq_append.1 hstarts]
    · cases hgap.eq_nil_of_isSpent hs
      exact longest?_of_isSpent he hs hr

private theorem standsAt_plain? (he : e.SpendsNothing) {s : List Char} {l : Lexeme}
    (h : plain? e n s = some l) : l.StandsAt s := by
  unfold plain? at h
  rcases Option.or_eq_some_iff.1 h with h | ⟨-, h⟩
  · split at h
    · exact standsAt_format? h
    · cases h
  · split at h
    · exact standsAt_backslash? h
    · have hstands := standsAt_behind? he (isGap_takeWhile (fun _ hc => hc) s) h
      rwa [List.prefix_iff_eq_append.1 (List.takeWhile_prefix _)] at hstands

/-- Every lexeme is the beginning of the text that it is read from. -/
theorem standsAt_of_first? (he : e.SpendsNothing) {s : List Char} {l : Lexeme}
    (h : first? e n s = some l) : l.StandsAt s := by
  rw [first?, Option.or_eq_some_iff] at h
  rcases h with h | ⟨-, h⟩
  · exact standsAt_sensitive? h
  · exact standsAt_plain? he h

end Lexeme

end ScriptDeps.Source
