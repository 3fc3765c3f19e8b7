/-!
# Numbers

`number?` reads the longest number at the start of a text: a radix literal, a decimal integer or a
decimal fraction. A group of digits may end in one underscore; a radix group may begin with one.
-/

namespace ScriptDeps.Source

/-- Groups of decimal digits, each with an optional underscore at its end. -/
def takeDecimals (afterDigit : Bool) : List Char → List Char × List Char
  | [] => ([], [])
  | c :: s =>
    if c.isDigit then
      let (taken, rest) := takeDecimals true s
      (c :: taken, rest)
    else if c = '_' ∧ afterDigit then
      let (taken, rest) := takeDecimals false s
      (c :: taken, rest)
    else ([], c :: s)

/-- Groups of digits of a radix, each with an optional underscore before it. -/
def takeRadix (digit : Char → Bool) : List Char → List Char × List Char
  | [] => ([], [])
  | [c] => if digit c then ([c], []) else ([], [c])
  | c :: d :: s =>
    if digit c ∨ (c = '_' ∧ digit d) then
      let (taken, rest) := takeRadix digit (d :: s)
      (c :: taken, rest)
    else ([], c :: d :: s)

/-- A hexadecimal digit. -/
def isHexDigit (c : Char) : Bool :=
  c.isDigit || ('a' ≤ c && c ≤ 'f') || ('A' ≤ c && c ≤ 'F')

/-- The digits of the radix that a letter names. -/
def radixDigit? (c : Char) : Option (Char → Bool) :=
  if c = 'x' ∨ c = 'X' then some isHexDigit
  else if c = 'o' ∨ c = 'O' then some fun d => '0' ≤ d && d ≤ '7'
  else if c = 'b' ∨ c = 'B' then some fun d => d == '0' || d == '1'
  else none

/-- One optional letter. -/
def takeLetter (letters : List Char) : List Char → List Char × List Char
  | [] => ([], [])
  | c :: s => if letters.contains c then ([c], s) else ([], c :: s)

/-- The exponent of a fraction, if a whole one follows. -/
def exponent? : List Char → Option (List Char × List Char)
  | [] => none
  | e :: s =>
    if e = 'e' ∨ e = 'E' then
      let (sign, s) := takeLetter ['+', '-'] s
      let (digits, rest) := takeDecimals false s
      if digits.isEmpty then none else some (e :: sign ++ digits, rest)
    else none

/-- The rest of a fraction after its digits: exponent and imaginary unit. -/
def fractionEnd (s : List Char) : List Char × List Char :=
  let (exponent, s) := (exponent? s).getD ([], s)
  let (unit, rest) := takeLetter ['j', 'J'] s
  (exponent ++ unit, rest)

/-- A number with digits in front: an integer, or a fraction where a point or exponent follows. -/
def decimalFrom (digits s : List Char) : List Char × List Char :=
  match s with
  | '.' :: s' =>
    let (fraction, s') := takeDecimals false s'
    let (ending, rest) := fractionEnd s'
    (digits ++ '.' :: fraction ++ ending, rest)
  | _ =>
    match exponent? s with
    | some (exponent, s') =>
      let (unit, rest) := takeLetter ['j', 'J'] s'
      (digits ++ exponent ++ unit, rest)
    | none =>
      let (suffix, rest) := takeLetter ['l', 'L', 'j', 'J'] s
      (digits ++ suffix, rest)

/-- A decimal number, in front of the text after it. -/
def decimal? (s : List Char) : Option (List Char × List Char) :=
  let (digits, s') := takeDecimals false s
  if digits.isEmpty then
    match s with
    | '.' :: t =>
      let (fraction, t) := takeDecimals false t
      if fraction.isEmpty then none
      else
        let (ending, rest) := fractionEnd t
        some ('.' :: fraction ++ ending, rest)
    | _ => none
  else some (decimalFrom digits s')

/-- A number written in another radix than ten, in front of the text after it. -/
def radix? : List Char → Option (List Char × List Char)
  | '0' :: letter :: s =>
    match radixDigit? letter with
    | some digit =>
      let (digits, s) := takeRadix digit s
      if digits.isEmpty then none
      else
        let (suffix, rest) := takeLetter ['l', 'L'] s
        some ('0' :: letter :: digits ++ suffix, rest)
    | none => none
  | _ => none

/-- The longest number at the start of a text, in front of the text after it. -/
def number? (s : List Char) : Option (List Char × List Char) := (radix? s).or (decimal? s)

end ScriptDeps.Source
