/-!
# Texts and keys

Texts stand in double quotes with escapes or in single quotes without; three quotes at either end
let a text go over several lines. A key is a run of plain letters or a text on one line.
-/

namespace ScriptDeps.Toml

/-- What is left of a text behind something that was read. -/
abbrev Rest := List Char

/-- A blank inside a line. -/
def isSpace (c : Char) : Bool := c == ' ' || c == '\t'

/-- A character that may stand as it is: a tab, or anything but a control character. -/
def isPlain (c : Char) : Bool := c == '\t' || (c.toNat ≥ 0x20 && c.toNat != 0x7F)

/-- Skip blanks inside a line. -/
def skipSpace (s : List Char) : Rest := s.dropWhile isSpace

/-- The end of a line at the start of a text. -/
def lineEnd? : List Char → Option Rest
  | '\n' :: s => some s
  | '\r' :: '\n' :: s => some s
  | _ => none

/-- The value of a hexadecimal digit. -/
def hexDigit? (c : Char) : Option Nat :=
  if '0' ≤ c ∧ c ≤ '9' then some (c.toNat - '0'.toNat)
  else if 'a' ≤ c ∧ c ≤ 'f' then some (c.toNat - 'a'.toNat + 10)
  else if 'A' ≤ c ∧ c ≤ 'F' then some (c.toNat - 'A'.toNat + 10)
  else none

/-- The number that hexadecimal digits write. -/
def hexNumber? (digits : List Char) : Option Nat :=
  digits.foldlM (fun n c => (hexDigit? c).map (16 * n + ·)) 0

/-- The character with a code point, if that is one of a character. -/
def charOfCode? (n : Nat) : Option Char := if h : n.isValidChar then some (.ofNatAux n h) else none

/-- The character that a code in hexadecimal digits stands for. -/
def codedChar? (digits : List Char) : Option Char := (hexNumber? digits).bind charOfCode?

/-- The character that a letter after a backslash stands for. -/
def escapedChar? (c : Char) : Option Char :=
  match c with
  | 'b' => some '\x08'
  | 't' => some '\t'
  | 'n' => some '\n'
  | 'f' => some '\x0c'
  | 'r' => some '\r'
  | '"' => some '"'
  | '\\' => some '\\'
  | _ => none

/-- Put a character in front of a text that was read. -/
def consTo (c : Char) (r : Option (List Char × Rest)) : Option (List Char × Rest) :=
  r.map fun (text, rest) => (c :: text, rest)

/-- Read a text with escapes up to the quote that ends it. -/
def basicString : List Char → Option (List Char × Rest)
  | [] => none
  | '\\' :: 'u' :: a :: b :: c :: d :: s =>
    (codedChar? [a, b, c, d]).bind fun x => consTo x (basicString s)
  | '\\' :: 'U' :: a :: b :: c :: d :: e :: f :: g :: h :: s =>
    (codedChar? [a, b, c, d, e, f, g, h]).bind fun x => consTo x (basicString s)
  | '\\' :: c :: s => (escapedChar? c).bind fun x => consTo x (basicString s)
  | c :: s =>
    if c = '"' then some ([], s)
    else if isPlain c ∧ c ≠ '\\' then consTo c (basicString s)
    else none

/-- Read a text without escapes up to the quote that ends it. -/
def literalString : List Char → Option (List Char × Rest)
  | [] => none
  | c :: s =>
    if c = '\'' then some ([], s)
    else if isPlain c then consTo c (literalString s)
    else none

/-- The end of a text in three quotes: up to two quotes may stand before the last three. -/
def closing? (quote : Char) (s : List Char) : Option (List Char × Rest) :=
  let quotes := s.takeWhile (· == quote)
  if quotes.length < 3 then none
  else
    let extra := min 2 (quotes.length - 3)
    some (List.replicate extra quote, s.drop (extra + 3))

/-- A line end that a backslash takes away, blanks before it and all blanks and line ends after. -/
def joinsLines (s : List Char) : Bool := (lineEnd? (skipSpace s)).isSome

/-- Read a text with escapes over several lines; while `joining`, blanks and line ends are left
out. -/
def basicLines : (joining : Bool) → List Char → Option (List Char × Rest)
  | _, [] => none
  | joining, c :: s =>
    if joining ∧ (isSpace c ∨ c = '\n') then basicLines true s
    else if c = '\r' then
      match s with
      | '\n' :: s' => if joining then basicLines true s' else consTo '\n' (basicLines false s')
      | _ => none
    else if c = '"' then (closing? '"' (c :: s)).or (consTo c (basicLines false s))
    else if c = '\\' then
      if joinsLines s then basicLines true s
      else
        match s with
        | 'u' :: a :: b :: c :: d :: s' =>
          (codedChar? [a, b, c, d]).bind fun x => consTo x (basicLines false s')
        | 'U' :: a :: b :: c :: d :: e :: f :: g :: h :: s' =>
          (codedChar? [a, b, c, d, e, f, g, h]).bind fun x => consTo x (basicLines false s')
        | c :: s' => (escapedChar? c).bind fun x => consTo x (basicLines false s')
        | [] => none
    else if c = '\n' ∨ isPlain c then consTo c (basicLines false s)
    else none

/-- Read a text without escapes over several lines. -/
def literalLines : List Char → Option (List Char × Rest)
  | [] => none
  | c :: s =>
    if c = '\'' then (closing? '\'' (c :: s)).or (consTo c (literalLines s))
    else if c = '\r' then
      match s with
      | '\n' :: s' => consTo '\n' (literalLines s')
      | _ => none
    else if c = '\n' ∨ isPlain c then consTo c (literalLines s)
    else none

/-- Leave out a line end right behind three opening quotes. -/
def dropLineEnd (s : List Char) : Rest := (lineEnd? s).getD s

/-- Read a text in quotes of any kind. -/
def quoted? : List Char → Option (List Char × Rest)
  | '"' :: '"' :: '"' :: s => basicLines false (dropLineEnd s)
  | '\'' :: '\'' :: '\'' :: s => literalLines (dropLineEnd s)
  | '"' :: s => basicString s
  | '\'' :: s => literalString s
  | _ => none

/-- A letter of a key without quotes. -/
def isKeyLetter (c : Char) : Bool := c.isAlphanum || c == '-' || c == '_'

/-- Read a key: a text on one line, or plain letters. -/
def key? : List Char → Option (List Char × Rest)
  | '"' :: s => basicString s
  | '\'' :: s => literalString s
  | s =>
    let letters := s.takeWhile isKeyLetter
    if letters.isEmpty then none else some (letters, s.drop letters.length)

/-- Read keys with dots between them, at most `limit`, and the blanks around them. -/
def keys? : (limit : Nat) → List Char → Option (List String × Rest)
  | 0, _ => none
  | limit + 1, s => do
    let (key, s) ← key? (skipSpace s)
    match skipSpace s with
    | '.' :: s =>
      let (keys, s) ← keys? limit s
      some (String.ofList key :: keys, s)
    | s => some ([String.ofList key], s)

end ScriptDeps.Toml
