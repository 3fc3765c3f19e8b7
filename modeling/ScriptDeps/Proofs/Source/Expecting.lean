import ScriptDeps.Proofs.Source.Computed.Numbering
import ScriptDeps.Proofs.Source.Opening

/-!
# Single tokens

What is expected in a state of the automaton of scripts is made of the tokens of the grammar, so a
token is expected exactly if the set of the state holds it. `Expected.Takes` says that a token is
expected and nothing else that could be read in its place. Main statement: `takes_expected`.
-/

namespace ScriptDeps.Source

open Automaton

/-- A token is expected. Some tokens never are: they may stand in every place, or depend only on
what is open. -/
def Expected.expects (e : Expected) : Token → Bool
  | .newline => e.newline
  | .indent => e.indent
  | .dedent => e.dedent
  | .openQuote => e.openQuote
  | .fragment => e.fragment
  | .finish => e.finish
  | .name => e.name
  | .number => e.number
  | .escape => e.escape
  | .backslash => e.backslash
  | .conversion => e.conversion
  | .format => e.format
  | .word text => e.words.contains text
  | .sign text => e.signs.contains text
  | .brace | .closeQuote | .comment | .joint => false

/-- The tokens that are never expected. -/
def silentTokens : List Token := [.brace, .closeQuote, .comment, .joint]

private theorem expects_add (e : Expected) (t u : Token) :
    (e.add t).expects u = (e.expects u || (decide (u = t) && !silentTokens.contains u)) := by
  cases t <;> cases u <;> simp [Expected.add, Expected.expects, silentTokens, Bool.or_comm]

/-- What is expected where some tokens are is one of them. -/
theorem expects_ofTokens (tokens : List Token) (t : Token) :
    (Expected.ofTokens tokens).expects t = (tokens.contains t && !silentTokens.contains t) := by
  have hfold (e : Expected) : (tokens.foldl Expected.add e).expects t =
      (e.expects t || (tokens.contains t && !silentTokens.contains t)) := by
    induction tokens generalizing e with
    | nil => simp
    | cons u tokens ih =>
      rw [List.foldl_cons, ih, expects_add, List.contains_cons, beq_eq_decide]
      cases e.expects t <;> cases decide (t = u) <;> cases silentTokens.contains t <;> simp
  have hnothing : Expected.nothing.expects t = false := by
    cases t <;> rfl
  rw [Expected.ofTokens, hfold, hnothing, Bool.false_or]

/-- The words that stand for themselves wherever they are expected. -/
def grammarWords : List String :=
  ["import", "from", "__future__", "as", "print", "exec", "in", "assert", "return", "del", "raise",
   "pass", "break", "continue", "global", "nonlocal", "type", "if", "elif", "else", "match", "case",
   "async", "for", "while", "try", "except", "finally", "with", "def", "class", "True", "False",
   "None", "_", "await", "not", "and", "or", "is", "lambda", "yield"]

/-- The signs that stand for themselves wherever they are expected. -/
def grammarSigns : List String :=
  [";", ".", "(", ")", ",", "*", ">>", "=", ":", "+=", "-=", "*=", "/=", "@=", "//=", "%=", "**=",
   ">>=", "<<=", "&=", "^=", "|=", "except*", "->", "@", "-", "|", "[", "]", "\x7b", "\x7d", "**",
   "+", "/", "...", "%", "//", "&", "^", "<<", "~", "<", "<=", "==", "!=", ">=", ">", "<>", ":="]

/-- Tokens that are read in place of another one where both are expected. -/
def rivals : Token → List Token
  | .newline => [.indent, .dedent]
  | .indent => []
  | .dedent => [.indent]
  | .finish => [.newline, .format, .indent]
  | .word text =>
    if text = "as" then [.format, .sign "except*"]
    else [.format, .sign "except*", .newline, .indent]
  | .name => [.format, .sign "except*"]
  | .sign text => if text = "." then [.format, .number, .sign "..."] else [.format]
  | _ => [.format]

/-- A token is expected, no rival of it, and no other words and signs than those of the grammar. -/
structure Expected.Takes (e : Expected) (t : Token) : Prop where
  /-- The token is expected. -/
  expects : e.expects t = true
  /-- No rival is expected. -/
  alone : ∀ u ∈ rivals t, e.expects u = false
  /-- The words that are expected. -/
  words : ∀ w ∈ e.words, w ∈ grammarWords
  /-- The signs that are expected. -/
  signs : ∀ s ∈ e.signs, s ∈ grammarSigns
  /-- The words that are no names although they are not expected. -/
  reserved : ∀ w ∈ e.reserved, w ∈ grammarWords

private theorem nodup_eraseDups {α : Type} [BEq α] [LawfulBEq α] (l : List α) :
    l.eraseDups.Nodup := by
  induction hn : l.length using Nat.strongRecOn generalizing l with
  | ind n ih =>
    cases l with
    | nil => simp
    | cons a l =>
      have hshorter : (l.filter fun b => !b == a).length < n := by
        rw [← hn]
        exact Nat.lt_succ_of_le (List.length_filter_le _ _)
      rw [List.eraseDups_cons, List.nodup_cons, List.mem_eraseDups]
      exact ⟨by simp, ih _ hshorter _ rfl⟩

variable {g : Grammar}

/-- A token is in a set if the set holds its number. -/
theorem mem_tokensIn_iff {set : TokenSet} {t : Token} (ht : t ∈ (Numbering.ofGrammar g).tokens) :
    t ∈ (Numbering.ofGrammar g).tokensIn set ↔
      set.testBit ((Numbering.ofGrammar g).tokenNumber t) = true := by
  have hnodup : (Numbering.ofGrammar g).tokens.Nodup := nodup_eraseDups _
  constructor
  · intro h
    obtain ⟨i, hi, hbit⟩ := mem_tokensIn h
    obtain ⟨hlt, rfl⟩ := List.getElem?_eq_some_iff.1 hi
    rwa [Numbering.tokenNumber, hnodup.idxOf_getElem]
  · intro h
    rw [Numbering.tokensIn, List.mem_filterMap]
    refine ⟨(t, (Numbering.ofGrammar g).tokenNumber t), ?_, by simp [h]⟩
    exact List.mem_zipIdx_iff_getElem?.2 (List.getElem?_idxOf ht)

/-- What is expected in a state are the tokens that its set holds. -/
theorem expects_expected (s : State) (t : Token) :
    ((ofGrammar g).expected s).expects t =
      (((Numbering.ofGrammar g).tokensIn ((ofGrammar g).tokens s)).contains t &&
        !silentTokens.contains t) := by
  rw [← expects_ofTokens]
  cases t <;> rfl

/-- All tokens of the grammar of scripts. -/
def grammarTokens : List Token :=
  layoutTokens ++ [.name, .number, .escape, .backslash, .conversion, .format] ++
    grammarWords.map .word ++ grammarSigns.map .sign

private theorem codes_subset : (Computed.codes grammar).all
    (fun c => (grammarTokens.map Computed.tokenCode).contains c) = true := by
  decide +kernel

/-- The grammar of scripts has no other tokens. -/
theorem mem_grammarTokens {t : Token} (ht : t ∈ automaton.numbering.tokens) :
    t ∈ grammarTokens := by
  have hcode : Computed.tokenCode t ∈ Computed.codes grammar := by
    rw [Computed.codes_eq]
    exact List.mem_map_of_mem ht
  have hmem := List.all_eq_true.1 codes_subset _ hcode
  rw [List.contains_iff_mem, List.mem_map] at hmem
  obtain ⟨u, hu, heq⟩ := hmem
  exact Computed.tokenCode_injective heq ▸ hu

private theorem mem_grammarWords {a : Automaton} {s : State} {w : String}
    (hw : w ∈ (a.expected s).reserved) : w ∈ grammarWords := by
  have hreserved : w ∈ a.reserved s
    (Expected.ofTokens (a.numbering.tokensIn (a.tokens s))) := hw
  have hthree : w = "from" ∨ w = "else" ∨ w = "for" := by
    unfold reserved at hreserved
    grind
  rcases hthree with rfl | rfl | rfl <;> decide

/-- What is expected is a token of the grammar that the set of the state holds. -/
theorem expects_expected_iff {s : State} {t : Token} :
    ((ofGrammar g).expected s).expects t = true ↔
      t ∉ silentTokens ∧ t ∈ (Numbering.ofGrammar g).tokens ∧
        ((ofGrammar g).tokens s).testBit ((Numbering.ofGrammar g).tokenNumber t) = true := by
  rw [expects_expected, Bool.and_eq_true, List.contains_iff_mem, Bool.not_eq_true',
    ← Bool.not_eq_true, List.contains_iff_mem]
  constructor
  · rintro ⟨hmem, hsilent⟩
    obtain ⟨i, hi, -⟩ := mem_tokensIn hmem
    have ht := List.mem_of_getElem? hi
    exact ⟨hsilent, ht, (mem_tokensIn_iff ht).1 hmem⟩
  · rintro ⟨hsilent, ht, hbit⟩
    exact ⟨(mem_tokensIn_iff ht).2 hbit, hsilent⟩

/-- A script may end where it begins. -/
theorem expects_finish_start (g : Grammar) :
    ((ofGrammar g).expected (ofGrammar g).start).expects .finish = true := by
  have hbit : ((ofGrammar g).tokens (ofGrammar g).start).testBit
      ((Numbering.ofGrammar g).tokenNumber .finish) = true := by
    rw [Automaton.tokens, testBit_foldl_union]
    simp [Automaton.start, Automaton.tokensOf, Automaton.emptyItem, testBit_single, ofGrammar]
  exact expects_expected_iff.2 ⟨by decide, mem_tokens_of_mem_layoutTokens g (by decide), hbit⟩

/-- Where the set of a state holds a token and no rival of it, this token can be taken. -/
theorem takes_expected {s : State} {t : Token} (ht : t ∈ automaton.numbering.tokens)
    (hsilent : t ∉ silentTokens)
    (hbit : (automaton.tokens s).testBit (automaton.numbering.tokenNumber t) = true)
    (hrivals : ∀ u ∈ rivals t,
      (automaton.tokens s).testBit (automaton.numbering.tokenNumber u) = false) :
    (automaton.expected s).Takes t := by
  have hexpects {u : Token} (h : (automaton.expected s).expects u = true) :
      u ∈ grammarTokens := mem_grammarTokens (expects_expected_iff.1 h).2.1
  refine ⟨expects_expected_iff.2 ⟨hsilent, ht, hbit⟩, fun u hu => ?_, fun w hw => ?_,
    fun w hw => ?_, fun w hw => mem_grammarWords hw⟩
  · rw [Bool.eq_false_iff]
    intro h
    exact Bool.false_ne_true ((hrivals u hu).symm.trans (expects_expected_iff.1 h).2.2)
  · have hword : (automaton.expected s).expects (.word w) = true := List.contains_iff_mem.2 hw
    simpa [grammarTokens, layoutTokens] using hexpects hword
  · have hsign : (automaton.expected s).expects (.sign w) = true := List.contains_iff_mem.2 hw
    simpa [grammarTokens, layoutTokens] using hexpects hsign

end ScriptDeps.Source
