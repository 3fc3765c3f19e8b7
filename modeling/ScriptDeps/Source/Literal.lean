import ScriptDeps.Source.Nesting
import ScriptDeps.Source.Number

/-!
# String literals

A string literal opens with letters and a quote mark, single or tripled, and runs to the same mark.
`Quote.piece` reads the next piece of an open literal.
-/

namespace ScriptDeps.Source

/-- A literal with no letters before its mark. -/
def Quote.plain : Quote := ⟨'"', false, false, false, false⟩

/-- Read the opening of a string literal: its letters, in any order, and its quote mark. -/
def openQuote? (quote : Quote) : List Char → Option (List Char × Quote × List Char)
  | [] => none
  | c :: s =>
    if c = 'f' ∨ c = 'F' then
      (openQuote? { quote with interpolated := true } s).map fun (t, q) => (c :: t, q)
    else if c = 'r' ∨ c = 'R' then
      (openQuote? { quote with raw := true } s).map fun (t, q) => (c :: t, q)
    else if c = 'b' ∨ c = 'B' then
      (openQuote? { quote with bytes := true } s).map fun (t, q) => (c :: t, q)
    else if c = 'u' ∨ c = 'U' then
      (openQuote? quote s).map fun (t, q) => (c :: t, q)
    else if c = '\'' ∨ c = '"' then
      match s with
      | d :: e :: s' =>
        if d = c ∧ e = c then some ([c, c, c], { quote with mark := c, triple := true }, s')
        else some ([c], { quote with mark := c }, s)
      | _ => some ([c], { quote with mark := c }, s)
    else if c = '`' then some ([c], { quote with mark := c }, s)
    else none

/-- A text starts with `n` characters of a class. -/
def startsWithRun (p : Char → Bool) : Nat → List Char → Bool
  | 0, _ => true
  | _ + 1, [] => false
  | n + 1, c :: s => p c && startsWithRun p n s

/-- Length of the name in braces at the start of a text, braces included. -/
def bracedNameLength? (s : List Char) : Option Nat :=
  match s with
  | '\x7b' :: s =>
    let name := s.takeWhile fun c => c != '\x7d' && c != '\x00'
    if !name.isEmpty && (s.drop name.length).head? == some '\x7d' then some (name.length + 2)
    else none
  | _ => none

/-- Number of characters after a backslash that it gives a meaning, none when it stands alone. -/
def escapeLength : List Char → Nat
  | [] => 0
  | c :: s =>
    if c = 'u' then if startsWithRun isHexDigit 4 s then 5 else 0
    else if c = 'U' then if startsWithRun isHexDigit 8 s then 9 else 0
    else if c = 'x' then if startsWithRun isHexDigit 2 s then 3 else 0
    else if c = 'N' then (bracedNameLength? s).elim 0 (· + 1)
    else if c.isDigit then ((c :: s.take 2).takeWhile Char.isDigit).length
    else if c = '\r' then if s.head? = some '\n' then 2 else 0
    else if "\n'\"abfrntv\\".toList.contains c then 1
    else 0

/-- The characters that a backslash carries with it in a raw literal: a mark or a backslash, then a
line end. -/
def rawEscapeLength (mark : Char) (s : List Char) : Nat :=
  let quoted := if s.head? = some mark ∨ s.head? = some '\\' then 1 else 0
  match s.drop quoted with
  | '\r' :: '\n' :: _ => quoted + 2
  | '\r' :: _ => quoted + 1
  | '\n' :: _ => quoted + 1
  | _ => quoted

/-- What comes next in an open string literal. -/
inductive Piece where
  /-- Plain text. -/
  | plain (text rest : List Char)
  /-- A doubled brace. -/
  | brace (text rest : List Char)
  /-- The end of the literal. -/
  | closing (text rest : List Char)
  /-- None of these. -/
  | refused
  /-- Text that no mark closes. -/
  | unclosed (text rest : List Char)
  deriving DecidableEq, Repr

/-- A piece with one more character in front. -/
def Piece.push (c : Char) : Piece → Piece
  | plain text rest => .plain (c :: text) rest
  | brace text rest => .brace (c :: text) rest
  | closing text rest => .closing (c :: text) rest
  | refused => .refused
  | unclosed text rest => .unclosed (c :: text) rest

namespace Quote

/-- A quote mark stands here; it closes the literal where no plain text comes before it, and it is
plain text itself where it would have to stand three times. -/
def atMark (q : Quote) (started : Bool) (c : Char) (s : List Char) : Piece :=
  if q.triple then
    match s with
    | d :: e :: s' =>
      if d = c ∧ e = c then
        if started then .plain [] (c :: s) else .closing [c, d, e] s'
      else if d = c then .plain [c, d] (e :: s')
      else .plain [c] s
    | d :: [] => if d = c then .plain [c, d] [] else .plain [c] s
    | [] => .plain [c] s
  else if started then .plain [] (c :: s)
  else .closing [c] s

/-- Read plain text. `skip` characters are taken as they are; `started` says that plain text has
been read, so that a line end breaks a literal with single marks. -/
def text (q : Quote) : (skip : Nat) → (started : Bool) → List Char → Piece
  | _, _, [] => .unclosed [] []
  | skip + 1, started, c :: s => (q.text skip started s).push c
  | 0, started, c :: s =>
    let stop : Piece := if started then .plain [] (c :: s) else .refused
    if c = '\x00' then .unclosed [] (c :: s)
    else if (c = '\x7b' ∨ c = '\x7d') ∧ q.interpolated then stop
    else if c = '\\' then
      if q.raw then (q.text (rawEscapeLength q.mark s) started s).push c
      else if q.bytes ∧ s.head?.any "NuU".toList.contains then (q.text 2 true s).push c
      else stop
    else if c = q.mark then q.atMark started c s
    else if c = '\n' ∧ started ∧ !q.triple then .refused
    else (q.text 0 true s).push c

/-- Read the next piece of an open literal. -/
def piece (q : Quote) (s : List Char) : Piece :=
  match s with
  | c :: s' =>
    if (c = '\x7b' ∨ c = '\x7d') ∧ q.interpolated then
      if s'.head? = some c then .brace [c, c] s'.tail else .refused
    else q.text 0 false s
  | [] => .unclosed [] []

end Quote

end ScriptDeps.Source
