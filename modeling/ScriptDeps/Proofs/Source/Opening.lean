import ScriptDeps.Proofs.Source.Beginnings
import ScriptDeps.Source.Script

/-!
# The start of a script

What the automaton of scripts expects before anything has been read, and what it does there. No
layout mark stands at the start of a script, no sign there looks like the opening of a string
literal, and behind a name no string literal opens. Main statements: `opens_expected_start`,
`expected_after_name` and the steps at the start, `step_start` and `step_start_finish`.
-/

namespace ScriptDeps.Source

open Automaton

/-! ## Tests over all forms -/

/-- A list of symbols that a rule allows begins with a token or phrase that a test accepts; the
bodies of series are looked into. -/
def Rule.leads (p : Symbol → Bool) : Rule → Bool
  | empty => false
  | token t => p (.token t)
  | phrase q => p (.phrase q)
  | both r s => r.leads p || (r.expand.any List.isEmpty && s.leads p)
  | either r s => r.leads p || s.leads p
  | series body => body.leads p

/-- A symbol is accepted by a test, or the body of a series begins with one that is. -/
def Symbol.leads (p : Symbol → Bool) : Symbol → Bool
  | .series body => body.leads p
  | x => p x

/-- All lists of symbols of all phrases and series pass a test. -/
def Grammar.allForms (g : Grammar) (test : Symbol → List Symbol → Bool) : Bool :=
  g.all fun (p, forms) => forms.all fun f =>
    f.rule.expand.all (test (.phrase p)) && f.rule.bodies.all fun body =>
      body.expand.all fun parts =>
        test (.series body) parts && test (.series body) (.series body :: parts)

variable {g : Grammar}

/-- A test that all forms pass holds of whatever a phrase or series is made of. -/
theorem test_of_makes {test : Symbol → List Symbol → Bool} (h : g.allForms test = true) {x : Symbol}
    {parts : List Symbol} (hx : Makes g x parts) : test x parts = true := by
  have hform : ∀ {p forms f}, (p, forms) ∈ g → f ∈ forms →
      (f.rule.expand.all (test (.phrase p)) && f.rule.bodies.all fun body =>
        body.expand.all fun parts =>
          test (.series body) parts && test (.series body) (.series body :: parts)) = true :=
    fun hp hf => List.all_eq_true.1 (List.all_eq_true.1 h _ hp) _ hf
  cases hx with
  | form hp hf hparts =>
    have hpair := Bool.and_eq_true_iff.1 (hform hp hf)
    exact List.all_eq_true.1 hpair.1 _ hparts
  | one hp hf hbody hparts =>
    have hpair := Bool.and_eq_true_iff.1 (hform hp hf)
    have hboth := List.all_eq_true.1 (List.all_eq_true.1 hpair.2 _ hbody) _ hparts
    exact (Bool.and_eq_true_iff.1 hboth).1
  | more hp hf hbody hparts =>
    have hpair := Bool.and_eq_true_iff.1 (hform hp hf)
    have hboth := List.all_eq_true.1 (List.all_eq_true.1 hpair.2 _ hbody) _ hparts
    exact (Bool.and_eq_true_iff.1 hboth).2

/-- Where a form begins with an accepted symbol, what it makes is accepted. -/
def keepsLeads (p : Symbol → Bool) (x : Symbol) (parts : List Symbol) : Bool :=
  x.leads p || parts.head?.all (!Symbol.leads p ·)

/-- No accepted token begins a symbol that is not accepted. -/
theorem not_begins {p : Symbol → Bool} (h : g.allForms (keepsLeads p) = true) {x : Symbol}
    {t : Token} (hbegins : Begins g x t) (hx : x.leads p = false) : p (.token t) = false := by
  induction hbegins with
  | token t => exact hx
  | made hmakes _ ih =>
    apply ih
    simpa [keepsLeads, hx] using test_of_makes h hmakes

/-- Where a form begins with a single symbol, either no accepted symbol is next, or none is left and
what the form makes is single too. -/
def keepsSingle (single p : Symbol → Bool) (x : Symbol) : List Symbol → Bool
  | [] => true
  | [y] => !single y || single x
  | y :: z :: _ => !single y || !z.leads p

/-- No accepted token follows a single symbol. -/
theorem not_trails {single p : Symbol → Bool} (hsingle : g.allForms (keepsSingle single p) = true)
    (h : g.allForms (keepsLeads p) = true) {x : Symbol} {t : Token} (htrails : Trails g x t)
    (hx : single x = true) : p (.token t) = false := by
  induction htrails with
  | inside hmakes hy =>
    apply not_begins h hy
    simpa [keepsSingle, hx] using test_of_makes hsingle hmakes
  | outside hmakes _ ih =>
    apply ih
    simpa [keepsSingle, hx] using test_of_makes hsingle hmakes

/-! ## What is expected -/

/-- What is expected comes from tokens of which something holds. -/
structure Expected.Sound (e : Expected) (P : Token → Prop) : Prop where
  /-- The end of a statement. -/
  newline : e.newline = true → P .newline
  /-- The start of a block. -/
  indent : e.indent = true → P .indent
  /-- The end of a block. -/
  dedent : e.dedent = true → P .dedent
  /-- The opening of a string literal. -/
  openQuote : e.openQuote = true → P .openQuote
  /-- A clause that handles an exception. -/
  handler : e.handler = true → P (.word "except")
  /-- A backslash with a meaning. -/
  escape : e.escape = true → P .escape
  /-- A backslash that stands for itself. -/
  backslash : e.backslash = true → P .backslash
  /-- Text of a format. -/
  format : e.format = true → P .format
  /-- Words. -/
  words : ∀ w ∈ e.words, P (.word w)
  /-- Signs. -/
  signs : ∀ s ∈ e.signs, P (.sign s)

private theorem sound_nothing (P : Token → Prop) : Expected.nothing.Sound P := by
  constructor <;> simp [Expected.nothing]

private theorem sound_add {e : Expected} {P : Token → Prop} (h : e.Sound P) {t : Token}
    (ht : P t) : (e.add t).Sound P := by
  obtain ⟨h₁, h₂, h₃, h₄, h₅, h₆, h₇, h₈, h₉, h₁₀⟩ := h
  cases t <;> constructor <;> simp only [Expected.add] <;> grind

/-- Tokens of which something holds are what is expected. -/
theorem sound_ofTokens {tokens : List Token} {P : Token → Prop} (h : ∀ t ∈ tokens, P t) :
    (Expected.ofTokens tokens).Sound P := by
  rw [Expected.ofTokens]
  refine List.foldlRecOn (motive := fun e => e.Sound P) tokens Expected.add (sound_nothing P) ?_
  intro e he t ht
  exact sound_add he (h t ht)

/-- What is expected in a state comes from its tokens. -/
theorem sound_expected {a : Automaton} {s : State} {P : Token → Prop}
    (h : ∀ i t, (a.tokens s).testBit i = true → a.numbering.tokens[i]? = some t → P t) :
    (a.expected s).Sound P := by
  have hsound : (Expected.ofTokens (a.numbering.tokensIn (a.tokens s))).Sound P := by
    apply sound_ofTokens
    intro t ht
    obtain ⟨i, hi, hbit⟩ := mem_tokensIn ht
    exact h i t hbit hi
  exact ⟨hsound.newline, hsound.indent, hsound.dedent, hsound.openQuote, hsound.handler,
    hsound.escape, hsound.backslash, hsound.format, hsound.words, hsound.signs⟩

/-! ## What a script begins with -/

/-- Letters that may stand in front of a quote mark. -/
def isQuoteLetter (c : Char) : Bool := "fFrRbBuU".toList.contains c

/-- A character that opens no string literal and is not the null character. -/
def isSignStart (c : Char) : Bool := !isQuoteLetter c && !isQuoteMark c && c != '\x00'

/-- The first character of a sign opens no string literal and is not the null character. -/
def isSignLike (sign : String) : Bool := sign.toList.head?.any isSignStart

/-- Tokens that no script begins with, and the phrases that begin with them. -/
def neverFirst : Symbol → Bool
  | .token .openQuote | .token .name | .token .number => false
  | .token (.word w) => w == "except" || w.toList.all isQuoteLetter
  | .token (.sign s) => !isSignLike s
  | .token _ => true
  | .phrase .block | .phrase .cases | .phrase .exceptClause | .phrase .stringText
  | .phrase .formatText => true
  | _ => false

private theorem keepsLeads_neverFirst : grammar.allForms (keepsLeads neverFirst) = true := by
  decide +kernel

/-- What is expected where no layout mark can stand, and where no word or sign is like the opening
of a string literal. -/
structure Expected.Opens (e : Expected) : Prop where
  /-- No statement ends. -/
  newline : e.newline = false
  /-- No block starts. -/
  indent : e.indent = false
  /-- No block ends. -/
  dedent : e.dedent = false
  /-- No clause handles an exception. -/
  handler : e.handler = false
  /-- No backslash has a meaning. -/
  escape : e.escape = false
  /-- No backslash stands for itself. -/
  backslash : e.backslash = false
  /-- No format has text. -/
  format : e.format = false
  /-- No word is made of letters of quotes. -/
  words : ∀ w ∈ e.words, w.toList.all isQuoteLetter = false
  /-- No sign begins like a string literal. -/
  signs : ∀ s ∈ e.signs, isSignLike s = true
  /-- All words may be names. -/
  reserved : e.reserved = []

private theorem eq_false_of_imp {b : Bool} {P : Prop} (h : b = true → P) (hP : ¬P) : b = false :=
  Bool.eq_false_iff.2 fun hb => hP (h hb)

private theorem reserved_start {a : Automaton} (h : (a.expected a.start).newline = false) :
    (a.expected a.start).reserved = [] := by
  have hawait : a.hasItem a.start .awaitExpression (·.taken = 1) = false := by
    simp [hasItem, start, emptyItem, wholeItem]
  have hnewline : (Expected.ofTokens (a.numbering.tokensIn (a.tokens a.start))).newline = false := h
  simp [expected, reserved, hawait, hnewline]

/-- At the start of a script no layout mark can stand. -/
theorem opens_expected_start : (automaton.expected automaton.start).Opens := by
  have hsound : (automaton.expected automaton.start).Sound
      fun t => t = .finish ∨ neverFirst (.token t) = false := by
    apply sound_expected
    intro i t hi ht
    rcases tokens_start hi ht with rfl | hbegins
    · exact Or.inl rfl
    · exact Or.inr (not_begins keepsLeads_neverFirst hbegins rfl)
  have hnewline : (automaton.expected automaton.start).newline = false :=
    eq_false_of_imp hsound.newline (by decide)
  refine ⟨hnewline, eq_false_of_imp hsound.indent (by decide),
    eq_false_of_imp hsound.dedent (by decide), eq_false_of_imp hsound.handler (by decide),
    eq_false_of_imp hsound.escape (by decide), eq_false_of_imp hsound.backslash (by decide),
    eq_false_of_imp hsound.format (by decide), ?_, ?_,
    reserved_start hnewline⟩
  · intro w hw
    have hword : w ≠ "except" ∧ ∃ c ∈ w.toList, isQuoteLetter c = false := by
      simpa [neverFirst] using hsound.words w hw
    simpa using hword.2
  · intro s hs
    simpa [neverFirst] using hsound.signs s hs

/-! ## What stands behind a name -/

/-- What a name can be by itself. -/
def isSingle : Symbol → Bool
  | .token .name => true
  | .phrase p =>
    [Phrase.dottedName, .parameter, .target, .primary, .namedTarget, .importList, .simplePattern,
      .parameterList, .targets, .expression, .expressionStatement, .assigned, .manager,
      .casePattern, .lambdaParameters, .clauseSource, .elements, .interpolated, .typing,
      .managers].contains p
  | _ => false

/-- Tokens that do not stand behind a name, and phrases that may begin with them. -/
def neverBehindName : Symbol → Bool
  | .token .openQuote | .token .format => true
  | .token (.sign s) => !isSignLike s
  | .phrase p =>
    !List.contains [Phrase.generator, .arguments, .typeParameters, .unionTail, .notIn, .isNot] p
  | _ => false

private theorem keepsLeads_neverBehindName :
    grammar.allForms (keepsLeads neverBehindName) = true := by
  decide +kernel

private theorem keepsSingle_neverBehindName :
    grammar.allForms (keepsSingle isSingle neverBehindName) = true := by
  decide +kernel

/-- Names are tokens of the grammar. -/
theorem name_mem_tokens : Token.name ∈ automaton.numbering.tokens := by
  have hnamed : grammar.any (fun e => e.2.any fun f => f.rule.tokens.contains .name) = true := by
    decide +kernel
  obtain ⟨⟨p, forms⟩, hp, hforms⟩ := List.any_eq_true.1 hnamed
  obtain ⟨f, hf, hname⟩ := List.any_eq_true.1 hforms
  exact mem_tokens grammar hp hf (List.contains_iff_mem.1 hname)

/-- The state behind a name at the start of a script. -/
def nameState : State :=
  automaton.after automaton.start (.token (automaton.numbering.tokenNumber .name))

/-- Behind a name at the start of a script no string literal opens and no format has text. -/
theorem expected_after_name : (automaton.expected nameState).openQuote = false ∧
    (automaton.expected nameState).format = false ∧
      ∀ s ∈ (automaton.expected nameState).signs, isSignLike s = true := by
  have hsound : (automaton.expected nameState).Sound
      fun t => t = .finish ∨ neverBehindName (.token t) = false := by
    apply sound_expected
    intro i t hi ht
    rcases tokens_after_start name_mem_tokens hi ht with rfl | htrails
    · exact Or.inl rfl
    · exact Or.inr (not_trails keepsSingle_neverBehindName keepsLeads_neverBehindName htrails rfl)
  refine ⟨eq_false_of_imp hsound.openQuote (by decide), eq_false_of_imp hsound.format (by decide),
    ?_⟩
  intro s hs
  simpa [neverBehindName] using hsound.signs s hs

/-! ## Steps at the start -/

/-- What follows a whole script. -/
def Automaton.follow (a : Automaton) : TokenSet := .single (a.numbering.tokenNumber .finish)

private theorem step_start_eq (a : Automaton) (token : Nat) :
    a.step a.start token =
      resolve (if (a.follow).testBit token then [a.emptyItem] else [])
        (if (a.tokensOf a.wholeItem a.follow).testBit token then [a.wholeItem] else []) := by
  have hpartition : a.start.partition (fun x => x.1.rest.isEmpty) =
    ([(a.emptyItem, a.follow)], [(a.wholeItem, a.follow)]) := rfl
  have hempty : a.tokensOf a.emptyItem a.follow = a.follow := rfl
  rw [step, hpartition]
  simp only [List.filter_cons, List.filter_nil, hempty]
  cases a.follow.testBit token <;>
    cases (a.tokensOf a.wholeItem a.follow).testBit token <;> simp

private theorem finish_mem_tokens : Token.finish ∈ automaton.numbering.tokens :=
  mem_tokens_of_mem_layoutTokens grammar (by decide)

/-- What follows a whole script is its end. -/
theorem testBit_follow (t : Token) :
    automaton.follow.testBit (automaton.numbering.tokenNumber t) = decide (t = .finish) := by
  rw [follow, testBit_single, decide_eq_decide]
  exact (List.idxOf_inj finish_mem_tokens).trans eq_comm

/-- A script can begin with a token. -/
def canBegin (t : Token) : Bool :=
  (automaton.tokensOf automaton.wholeItem automaton.follow).testBit
    (automaton.numbering.tokenNumber t)

/-- At the start nothing is closed before a token. -/
theorem step_start {t : Token} (ht : t ≠ .finish) :
    automaton.step automaton.start (automaton.numbering.tokenNumber t) = ⟨[], canBegin t⟩ := by
  rw [step_start_eq, testBit_follow, ← canBegin]
  cases canBegin t <;> simp [ht, resolve]

private theorem canBegin_finish : canBegin .finish = false := by
  rw [Bool.eq_false_iff]
  intro h
  have hbegins : Begins grammar (.phrase .script) .finish :=
    begins_of_testBit_wholeItem h (List.getElem?_idxOf finish_mem_tokens)
  exact absurd (not_begins keepsLeads_neverFirst hbegins rfl) (by decide)

/-- At the end of a script without statements the script is closed. -/
theorem step_start_finish :
    automaton.step automaton.start (automaton.numbering.tokenNumber .finish) =
      ⟨[automaton.emptyItem], false⟩ := by
  rw [step_start_eq, testBit_follow, ← canBegin, canBegin_finish]
  simp [resolve, emptyItem]

/-- No phrase begins with a script. -/
private theorem not_makes_script :
    grammar.allForms (fun _ parts => parts.head? != some (.phrase .script)) = true := by
  decide +kernel

/-- The script is a phrase of the grammar. -/
theorem script_mem_phrases : .phrase .script ∈ automaton.numbering.phrases := by
  have hscript : grammar.any (·.1 == .script) = true := by decide +kernel
  obtain ⟨⟨p, forms⟩, hp, heq⟩ := List.any_eq_true.1 hscript
  obtain rfl : p = .script := eq_of_beq heq
  exact mem_phrases grammar hp

private theorem after_start_eq {a : Automaton}
    (h : a.behind (.phrase (a.numbering.phraseNumber .script)) = []) :
    a.after a.start (.phrase (a.numbering.phraseNumber .script)) =
      [(a.wholeItem.next, a.follow)] := by
  have hstart : a.start = [(a.emptyItem, a.follow), (a.wholeItem, a.follow)] := rfl
  have hexpects : a.wholeItem.expects (.phrase (a.numbering.phraseNumber .script)) = true := by
    simp [Item.expects, wholeItem]
  have hempty : a.emptyItem.expects (.phrase (a.numbering.phraseNumber .script)) = false := by
    simp [Item.expects, emptyItem]
  rw [after, h, hstart]
  simp [hexpects, hempty]

/-- Behind a whole script nothing is left to read. -/
theorem after_start_script :
    automaton.after automaton.start (.phrase (automaton.numbering.phraseNumber .script)) =
      [(automaton.wholeItem.next, automaton.follow)] := by
  refine after_start_eq (List.eq_nil_iff_forall_not_mem.2 ?_)
  intro item hitem
  have hknows : (Numbering.ofGrammar grammar).Knows (.phrase .script) := script_mem_phrases
  obtain ⟨x, parts, _, hmakes, _⟩ := makes_of_mem_behind hknows hitem
  simpa using test_of_makes not_makes_script hmakes

private theorem step_wholeItem_next {a : Automaton} {token : Nat}
    (h : a.follow.testBit token = true) :
    a.step [(a.wholeItem.next, a.follow)] token = ⟨[a.wholeItem.next], false⟩ := by
  have hpartition : [(a.wholeItem.next, a.follow)].partition (fun x => x.1.rest.isEmpty) =
    ([(a.wholeItem.next, a.follow)], []) := rfl
  have hfollow : a.tokensOf a.wholeItem.next a.follow = a.follow := rfl
  rw [step, hpartition]
  simp only [List.filter_cons, List.filter_nil, hfollow, h]
  simp [resolve, wholeItem, Item.next]

/-- Behind a whole script its end is reached. -/
theorem step_script :
    automaton.step [(automaton.wholeItem.next, automaton.follow)]
        (automaton.numbering.tokenNumber .finish) = ⟨[automaton.wholeItem.next], false⟩ :=
  step_wholeItem_next (by simp [testBit_follow])

/-- The phrase that stands for the whole is none of the grammar. -/
theorem emptyItem_left_ne : automaton.emptyItem.left ≠ automaton.wholeItem.left := by
  have hlt : automaton.numbering.phraseNumber .script < automaton.numbering.phrases.length :=
    List.idxOf_lt_length_of_mem script_mem_phrases
  have hsize : automaton.wholeItem.left = automaton.numbering.phrases.length :=
    size_productions grammar
  rw [hsize]
  exact Nat.ne_of_lt hlt

end ScriptDeps.Source
