import ScriptDeps.Decimal

/-!
# Texts in the YAML format

A text is written without quotes where that cannot be taken for anything else, in single quotes
where it could, in double quotes where it has characters that must be escaped, and over several
lines where it has line ends.
-/

namespace ScriptDeps.Data.Yaml

/-! ## Texts that look like other values -/

/-- Words that stand for no value or a truth value. -/
def valueWords : List String :=
  ["", "~", "null", "Null", "NULL", "true", "True", "TRUE", "false", "False", "FALSE"]

/-- A text without one of some characters in front. -/
def dropOne (marks : List Char) : List Char → List Char
  | [] => []
  | c :: s => if marks.contains c then s else c :: s

/-- A zero with more digits after it, perhaps behind a sign. -/
def isZeroLed (s : List Char) : Bool :=
  match dropOne ['+', '-'] s with
  | '0' :: d :: rest => (d :: rest).all Char.isDigit
  | _ => false

/-- The value of a digit in a radix of at most sixteen. -/
def digitValue? (radix : Nat) (c : Char) : Option Nat :=
  let value :=
    if '0' ≤ c ∧ c ≤ '9' then some (c.toNat - '0'.toNat)
    else if 'a' ≤ c ∧ c ≤ 'f' then some (c.toNat - 'a'.toNat + 10)
    else if 'A' ≤ c ∧ c ≤ 'F' then some (c.toNat - 'A'.toNat + 10)
    else none
  value.filter (· < radix)

/-- The number that digits of a radix write, at least one. -/
def natural? (radix : Nat) (s : List Char) : Option Nat :=
  if s.isEmpty then none
  else s.foldlM (fun n c => (digitValue? radix c).map (radix * n + ·)) 0

/-- The radix that a number names, and its digits. -/
def radixDigits (s : List Char) : Option (Nat × List Char) :=
  match s with
  | '0' :: 'x' :: digits => some (16, digits)
  | '0' :: 'o' :: digits => some (8, digits)
  | '0' :: 'b' :: digits => some (2, digits)
  | _ => none

/-- A whole number of up to 128 bits, in a radix or in decimal digits. -/
def isInteger (s : List Char) : Bool :=
  let negative := s.head? == some '-'
  let bound := if negative then Nat.pow 2 127 + 1 else Nat.pow 2 128
  let inRadix :=
    match radixDigits (dropOne ['+', '-'] s) with
    | some (radix, digits) => (natural? radix digits).any (· < bound)
    | none => false
  inRadix || (!isZeroLed s && (natural? 10 (dropOne ['+', '-'] s)).any (· < bound))

/-- Digits in front of a text. -/
def digits (s : List Char) : List Char × List Char :=
  (s.takeWhile Char.isDigit, s.dropWhile Char.isDigit)

/-- The exponent that a whole text writes. -/
def exponent? : List Char → Option Int
  | [] => some 0
  | e :: s =>
    if e = 'e' ∨ e = 'E' then
      let value := (natural? 10 (dropOne ['+', '-'] s)).map Int.ofNat
      if s.head? = some '-' then value.map (- ·) else value
    else none

/-- A finite decimal number without a sign. -/
def isDecimal (s : List Char) : Bool :=
  let (whole, s) := digits s
  let (fraction, s) :=
    match s with
    | '.' :: s => digits s
    | s => ([], s)
  !(whole.isEmpty && fraction.isEmpty) &&
    (exponent? s).any fun e =>
      !Decimal.overflows ((natural? 10 (whole ++ fraction)).getD 0) (e - fraction.length)

/-- Words for numbers that are not finite. -/
def infinityWords : List String :=
  [".inf", ".Inf", ".INF", "+.inf", "+.Inf", "+.INF", "-.inf", "-.Inf", "-.INF", ".nan", ".NaN",
    ".NAN"]

/-- A number with a fraction or an exponent. -/
def isFloat (s : List Char) : Bool :=
  infinityWords.contains (String.ofList s) || (!isZeroLed s && isDecimal (dropOne ['+', '-'] s))

/-- A text that without quotes would be read as another value, or nearly so. -/
def looksLikeValue (s : List Char) : Bool :=
  valueWords.contains (String.ofList s) || isInteger s || isZeroLed s || isFloat s

/-! ## Characters -/

/-- A character that may be written as it is. -/
def isPrintable (c : Char) : Bool :=
  let n := c.toNat
  n == 0x0A || (0x20 ≤ n && n ≤ 0x7E) || (0xA0 ≤ n && n != 0xFEFF && n != 0xFFFE && n != 0xFFFF)

/-- A character that ends a line. -/
def isBreak (c : Char) : Bool :=
  c == '\n' || c == '\r' || c == '\u0085' || c == '\u2028' || c == '\u2029'

/-- Characters that cannot begin a text without quotes. -/
def isIndicator (c : Char) : Bool := "#,[]\x7b\x7d&*!|>'\"%@\x60".toList.contains c

/-- Two characters in a row, the first of one class and the second of another. -/
def hasPair (p q : Char → Bool) : List Char → Bool
  | a :: b :: s => (p a && q b) || hasPair p q (b :: s)
  | _ => false

/-- A blank of the format, a line end, or the end of the text. -/
def isGap : Option Char → Bool
  | none => true
  | some c => c == ' ' || c == '\t' || c == '\x00' || isBreak c

/-- A colon before a gap, or a hash sign after one. -/
def hasInnerIndicator : List Char → Bool
  | [] => false
  | a :: s =>
    (a == ':' && isGap s.head?) || (isGap (some a) && s.head? == some '#') || hasInnerIndicator s

/-- A text that begins like a comment, a list, a mark of the document or a quoted text. -/
def hasLeadingIndicator : List Char → Bool
  | [] => false
  | c :: s =>
    isIndicator c || ((c == '-' || c == '?' || c == ':') && isGap s.head?) ||
      "---".toList.isPrefixOf (c :: s) || "...".toList.isPrefixOf (c :: s)

/-- A text with characters or blanks that only double quotes keep. -/
def needsEscapes (s : List Char) : Bool := s.any (!isPrintable ·) || hasPair (· == ' ') isBreak s

/-- A text that may stand without quotes. -/
def isPlain (s : List Char) : Bool :=
  !needsEscapes s && !hasLeadingIndicator s && !hasInnerIndicator s && !s.any isBreak &&
    s.head? != some ' ' && s.getLast? != some ' '

/-! ## Quoted texts -/

/-- A text with line ends inside it, each next line behind some blanks. -/
def indentLines (indent : Nat) (broken : Bool) : List Char → List Char
  | [] => []
  | c :: s =>
    if isBreak c then c :: indentLines indent true s
    else if broken then List.replicate indent ' ' ++ c :: indentLines indent false s
    else c :: indentLines indent false s

/-- A text in single quotes. A line end in front of the last quote is followed by blanks, too. -/
def singleQuoted (indent : Nat) (s : List Char) : List Char :=
  '\'' :: indentLines indent false (s.flatMap fun c => if c = '\'' then ['\'', '\''] else [c])
    ++ (if s.getLast?.any isBreak then List.replicate indent ' ' else []) ++ ['\'']

/-- Characters that have an escape of one letter. -/
def letterEscapes : List (Char × Char) :=
  [('\x00', '0'), ('\x07', 'a'), ('\x08', 'b'), ('\t', 't'), ('\n', 'n'), ('\x0b', 'v'),
    ('\x0c', 'f'), ('\r', 'r'), ('\x1b', 'e'), ('"', '"'), ('\\', '\\'), ('\u0085', 'N'),
    ('\u00a0', '_'), ('\u2028', 'L'), ('\u2029', 'P')]

/-- The last `count` hexadecimal digits of a number. -/
def hexDigits : (count : Nat) → Nat → List Char
  | 0, _ => []
  | count + 1, n => hexDigits count (n / 16) ++ ["0123456789ABCDEF".toList.getD (n % 16) '0']

/-- A character inside double quotes. -/
def escape (c : Char) : List Char :=
  if isPrintable c && !isBreak c && c != '"' && c != '\\' then [c]
  else
    match letterEscapes.lookup c with
    | some letter => ['\\', letter]
    | none =>
      if c.toNat ≤ 0xFF then '\\' :: 'x' :: hexDigits 2 c.toNat
      else if c.toNat ≤ 0xFFFF then '\\' :: 'u' :: hexDigits 4 c.toNat
      else '\\' :: 'U' :: hexDigits 8 c.toNat

/-- A text in double quotes. -/
def doubleQuoted (s : List Char) : List Char := '"' :: s.flatMap escape ++ ['"']

/-! ## Texts over several lines -/

/-- The marks behind the bar: whether the text begins with a blank, and how many line ends it ends
with. -/
def barMarks (s : List Char) : List Char :=
  let indent := if s.head?.any (fun c => c == ' ' || isBreak c) then ['2'] else []
  let ending :=
    match s.reverse with
    | [] => ['-']
    | c :: rest =>
      if !isBreak c then ['-']
      else
        match rest with
        | [] => ['+']
        | d :: _ => if isBreak d then ['+'] else []
  indent ++ ending

/-- A text over several lines behind a bar, without the line end after it. -/
def literal (indent : Nat) (s : List Char) : List Char :=
  '|' :: barMarks s ++ '\n' :: indentLines indent true s

/-- A text as it is written where its further lines are indented by `indent` blanks, with the line
end after it. -/
def scalar (indent : Nat) (s : List Char) : List Char :=
  if s.contains '\n' then
    if needsEscapes s || s.getLast? == some ' ' then doubleQuoted s ++ ['\n']
    else
      let text := literal indent s
      if s.getLast?.any isBreak then text else text ++ ['\n']
  else if needsEscapes s then doubleQuoted s ++ ['\n']
  else if isPlain s && !looksLikeValue s then s ++ ['\n']
  else if hasPair isBreak (· == ' ') s then doubleQuoted s ++ ['\n']
  else singleQuoted indent s ++ ['\n']

end ScriptDeps.Data.Yaml
