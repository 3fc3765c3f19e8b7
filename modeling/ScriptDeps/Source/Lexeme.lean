import ScriptDeps.Source.Layout
import ScriptDeps.Source.Literal
import ScriptDeps.Text.NameChar

/-!
# Lexemes

A lexeme is a stretch of a script that is read as one token, together with the gap before it. Main
definition: `Lexeme.first?` reads the first lexeme of a text where some tokens may come next: a
piece of an open string literal, a layout mark or the opening of a string literal if one stands
there, and otherwise the longest text of a token.
-/

namespace ScriptDeps.Source

/-- A stretch of a script that is read as one token. -/
structure Lexeme where
  /-- The token. -/
  token : Token
  /-- What stands before it. -/
  gap : List Char
  /-- Its text. -/
  text : List Char
  /-- What stands behind it. -/
  rest : List Char
  /-- What is open behind it. -/
  nesting : Nesting
  deriving DecidableEq, Repr

namespace Lexeme

/-- A layout mark, or the opening of a string literal, behind some text that is part of the gap. -/
def layout? (e : Expected) (n : Nesting) (before s : List Char) : Option Lexeme :=
  (survey e.seesComments false 0 none false s).bind fun v =>
    match v.mark? e n with
    | some mark => some ⟨mark, before, [], s, v.nesting mark n⟩
    | none =>
      if v.comment.isNone ∧ e.openQuote then
        (openQuote? .plain v.rest).map fun (text, q, rest) =>
          ⟨.openQuote, before ++ v.gap, text, rest, n.openQuote q⟩
      else none

/-- A piece of an open string literal, a layout mark or the opening of a string literal. -/
def sensitive? (e : Expected) (n : Nesting) (s : List Char) : Option Lexeme :=
  match n.quotes with
  | [] => layout? e n [] s
  | q :: _ =>
    if e.fragment then
      match q.piece s with
      | .plain text rest => some ⟨.fragment, [], text, rest, n⟩
      | .brace text rest => some ⟨.brace, [], text, rest, n⟩
      | .closing text rest => some ⟨.closeQuote, [], text, rest, n.closeQuote⟩
      | .refused => none
      | .unclosed text rest => layout? e n text rest
    else layout? e n [] s

/-- Characters that stand between tokens. -/
def isSpace (c : Char) : Bool :=
  " \t\n\x0b\x0c\r\ufeff\u2060\u200b".toList.contains c

/-- Plain text of a format, behind line ends. -/
def format? (n : Nesting) (s : List Char) : Option Lexeme :=
  let gap := s.takeWhile (· == '\n')
  let s := s.drop gap.length
  let text := s.takeWhile fun c => !"\x7b\x7d\n\x00".toList.contains c
  if text.isEmpty then none else some ⟨.format, gap, text, s.drop text.length, n⟩

/-- A backslash that joins two lines, given what stands behind it. -/
def joint? (n : Nesting) (gap : List Char) : List Char → Option Lexeme
  | '\r' :: '\n' :: rest => some ⟨.joint, gap, ['\\', '\r', '\n'], rest, n⟩
  | '\n' :: rest => some ⟨.joint, gap, ['\\', '\n'], rest, n⟩
  | '\x00' :: rest => some ⟨.joint, gap, ['\\', '\x00'], rest, n⟩
  | _ => none

/-- A backslash in a string literal, given what stands behind it. -/
def backslash? (e : Expected) (n : Nesting) (s : List Char) : Option Lexeme :=
  let count := escapeLength s
  if e.escape ∧ count ≠ 0 then
    some ⟨.escape, [], '\\' :: s.take count, s.drop count, n⟩
  else
    (joint? n [] s).or (if e.backslash then some ⟨.backslash, [], ['\\'], s, n⟩ else none)

/-- The number at the start of a text, where one may stand. -/
def numberAt? (e : Expected) (s : List Char) : Option (Token × List Char) :=
  if e.number then (number? s).map fun (text, _) => (.number, text) else none

/-- The conversion at the start of a text, where one may stand. -/
def conversionAt? (e : Expected) : List Char → Option (Token × List Char)
  | '!' :: c :: _ => if e.conversion ∧ 'a' ≤ c ∧ c ≤ 'z' then some (.conversion, ['!', c]) else none
  | _ => none

/-- The name at the start of a text, or the word made like one, where one of them may stand. Words
that are expected are not names. -/
def nameAt? (e : Expected) : List Char → Option (Token × List Char)
  | [] => none
  | c :: s =>
    if e.takesName ∧ Text.isNameStart c then
      let text := c :: s.takeWhile Text.isNameRest
      let word := String.ofList text
      if e.words.contains word then some (.word word, text)
      else if e.reserved.contains word then none
      else some (.name, text)
    else none

/-- The longest sign at the start of a text among those that may stand there. -/
def signAt? (e : Expected) (s : List Char) : Option (Token × List Char) :=
  e.signs.foldl (fun best sign =>
    let text := sign.toList
    if text.isPrefixOf s ∧ best.all (·.2.length < text.length) then some (.sign sign, text)
    else best) none

/-- The longer of two texts, the first of two that are as long. -/
def longer : Option (Token × List Char) → Option (Token × List Char) → Option (Token × List Char)
  | none, b => b
  | a, none => a
  | some a, some b => if a.2.length < b.2.length then some b else some a

/-- The token with the longest text at the start of a text without a gap. -/
def longest? (e : Expected) (s : List Char) : Option (Token × List Char) :=
  longer (longer (numberAt? e s) (conversionAt? e s)) (longer (nameAt? e s) (signAt? e s))

/-- A comment, a joint, the end of the script or a token with a text of its own, behind a gap. -/
def behind? (e : Expected) (n : Nesting) (gap s : List Char) : Option Lexeme :=
  match s with
  | [] => if e.finish then some ⟨.finish, gap, [], [], n⟩ else none
  | '\\' :: s => joint? n gap s
  | '#' :: s =>
    let text := s.takeWhile fun c => c != '\n' && c != '\x00'
    some ⟨.comment, gap, '#' :: text, s.drop text.length, n⟩
  | s => (longest? e s).map fun (token, text) => ⟨token, gap, text, s.drop text.length, n⟩

/-- A token that does not depend on layout or on string literals that are open. -/
def plain? (e : Expected) (n : Nesting) (s : List Char) : Option Lexeme :=
  (if e.format then format? n s else none).or <|
    match s with
    | '\\' :: s => backslash? e n s
    | s =>
      let gap := s.takeWhile isSpace
      behind? e n gap (s.drop gap.length)

/-- The first lexeme of a text where some tokens may come next and some things are open. -/
def first? (e : Expected) (n : Nesting) (s : List Char) : Option Lexeme :=
  (sensitive? e n s).or (plain? e n s)

/-- A word that is no keyword everywhere, read as a name. -/
def asName? (l : Lexeme) : Option Lexeme :=
  match l.token with
  | .word text => if text = "except" then none else some { l with token := .name }
  | _ => none

end Lexeme

end ScriptDeps.Source
