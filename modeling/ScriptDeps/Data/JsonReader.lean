import ScriptDeps.Data.Basic

/-!
# Reading the JSON format

`read?` gives the data that a text in the JSON format holds. Values may not be nested deeper than
`depthLimit`.
-/

namespace ScriptDeps.Data.Json

/-- What is left of a text behind something that was read. -/
abbrev Rest := List Char

/-- A blank between tokens. -/
def isSpace (c : Char) : Bool := c == ' ' || c == '\t' || c == '\n' || c == '\r'

/-- Skip blanks. -/
def skipSpace (s : List Char) : Rest := s.dropWhile isSpace

/-- The value of a hexadecimal digit. -/
def hexValue? (c : Char) : Option Nat :=
  if '0' ≤ c ∧ c ≤ '9' then some (c.toNat - '0'.toNat)
  else if 'a' ≤ c ∧ c ≤ 'f' then some (c.toNat - 'a'.toNat + 10)
  else if 'A' ≤ c ∧ c ≤ 'F' then some (c.toNat - 'A'.toNat + 10)
  else none

/-- The number of four hexadecimal digits. -/
def unit? (digits : List Char) : Option Nat :=
  digits.foldlM (fun n c => (hexValue? c).map (16 * n + ·)) 0

/-- The character with a code point, if that is one of a character. -/
def charOfCode? (n : Nat) : Option Char := if h : n.isValidChar then some (.ofNatAux n h) else none

/-- The character that two units stand for. -/
def charOfPair? (high low : Nat) : Option Char :=
  if 0xD800 ≤ high ∧ high < 0xDC00 ∧ 0xDC00 ≤ low ∧ low < 0xE000 then
    charOfCode? (0x10000 + 0x400 * (high - 0xD800) + (low - 0xDC00))
  else none

/-- The character that a letter after a backslash stands for. -/
def escaped? (c : Char) : Option Char :=
  match c with
  | '"' => some '"'
  | '\\' => some '\\'
  | '/' => some '/'
  | 'b' => some '\x08'
  | 'f' => some '\x0c'
  | 'n' => some '\n'
  | 'r' => some '\r'
  | 't' => some '\t'
  | _ => none

/-- Put a character in front of a text that was read. -/
def consTo (c : Char) (r : Option (List Char × Rest)) : Option (List Char × Rest) :=
  r.map fun (text, rest) => (c :: text, rest)

/-- Read a text up to the quote that ends it. -/
def quoted? : List Char → Option (List Char × Rest)
  | [] => none
  | x :: s =>
    if x = '"' then some ([], s)
    else if x = '\\' then
      match s with
      | 'u' :: a :: b :: c :: d :: s' =>
        match (unit? [a, b, c, d]).bind charOfCode? with
        | some y => consTo y (quoted? s')
        | none =>
          match s' with
          | '\\' :: 'u' :: e :: f :: g :: h :: s'' =>
            match unit? [a, b, c, d], unit? [e, f, g, h] with
            | some high, some low => (charOfPair? high low).bind fun y => consTo y (quoted? s'')
            | _, _ => none
          | _ => none
      | c :: s' => (escaped? c).bind fun y => consTo y (quoted? s')
      | [] => none
    else if x.toNat < 0x20 then none
    else consTo x (quoted? s)

/-- Digits in front of a text. -/
def digits (s : List Char) : List Char × Rest :=
  (s.takeWhile Char.isDigit, s.dropWhile Char.isDigit)

/-- A number: sign, integer part without zeros in front, fraction and exponent. -/
def number? (s : List Char) : Option (List Char × Rest) := do
  let (minus, s) := if s.head? = some '-' then (['-'], s.tail) else ([], s)
  let (whole, s) := if s.head? = some '0' then (['0'], s.tail) else digits s
  if whole.isEmpty then none
  let (fraction, s) ←
    match s with
    | '.' :: s' =>
      let (taken, rest) := digits s'
      if taken.isEmpty then none else some ('.' :: taken, rest)
    | s => some ([], s)
  let (exponent, s) ←
    match s with
    | e :: s' =>
      if e = 'e' ∨ e = 'E' then
        let (sign, s') :=
          match s' with
          | '+' :: s'' => (['+'], s'')
          | '-' :: s'' => (['-'], s'')
          | s' => ([], s')
        let (taken, rest) := digits s'
        if taken.isEmpty then none else some (e :: sign ++ taken, rest)
      else some ([], s)
    | [] => some ([], s)
  some (minus ++ whole ++ fraction ++ exponent, s)

/-- Read the rest of a list after its first sign, of at most `limit` items. -/
def items? (value : List Char → Option (Data × Rest)) : (limit : Nat) → List Char →
    Option (List Data × Rest)
  | 0, _ => none
  | limit + 1, s => do
    let (d, s) ← value s
    match skipSpace s with
    | ',' :: s =>
      let (ds, s) ← items? value limit s
      some (d :: ds, s)
    | ']' :: s => some ([d], s)
    | _ => none

/-- Read the rest of a record after its first sign, of at most `limit` fields. -/
def fields? (value : List Char → Option (Data × Rest)) : (limit : Nat) → List Char →
    Option (List (String × Data) × Rest)
  | 0, _ => none
  | limit + 1, s => do
    match skipSpace s with
    | '"' :: s =>
      let (name, s) ← quoted? s
      match skipSpace s with
      | ':' :: s =>
        let (d, s) ← value s
        match skipSpace s with
        | ',' :: s =>
          let (ds, s) ← fields? value limit s
          some ((String.ofList name, d) :: ds, s)
        | '\x7d' :: s => some ([(String.ofList name, d)], s)
        | _ => none
      | _ => none
    | _ => none

/-- Words that are values. -/
def words : List (List Char × Data) :=
  [("null".toList, .null), ("true".toList, .boolean true), ("false".toList, .boolean false)]

/-- Read a value with at most `depth` values inside one another. -/
def value? : (depth : Nat) → List Char → Option (Data × Rest)
  | 0, _ => none
  | depth + 1, s =>
    match skipSpace s with
    | '"' :: s => (quoted? s).map fun (text, s) => (.string (String.ofList text), s)
    | '[' :: s =>
      match skipSpace s with
      | ']' :: s => some (.list [], s)
      | s => (items? (value? depth) (s.length + 1) s).map fun (ds, s) => (.list ds, s)
    | '\x7b' :: s =>
      match skipSpace s with
      | '\x7d' :: s => some (.record [], s)
      | s => (fields? (value? depth) (s.length + 1) s).map fun (ds, s) => (.record ds, s)
    | s =>
      match words.find? fun (w, _) => w.isPrefixOf s with
      | some (w, d) => some (d, s.drop w.length)
      | none => (number? s).map fun (text, s) => (.number (String.ofList text), s)

/-- How deep values may be nested. -/
def depthLimit : Nat := 128

/-- The data that a text holds. -/
def read? (s : List Char) : Option Data := do
  let (d, s) ← value? depthLimit s
  if (skipSpace s).isEmpty then some d else none

end ScriptDeps.Data.Json
